import FormulaLang.Proofs.Reduction.Parsing
import FormulaLang.Proofs.Tree.Substitution

/-!
Terms without raw text.  What is parsed has none left, so reducing it again can only fold, and it is
folded already.
-/

namespace FormulaLang

namespace Term

/-- No parentheses or bars with raw text are left. -/
def IsExpanded : Term → Prop
  | absent => True
  | node token left right => token.isUnexpanded = false ∧ left.IsExpanded ∧ right.IsExpanded

theorem isExpanded_folded {op : Operation} {left right : Term} (hl : left.IsExpanded)
    (hr : right.IsExpanded) : (folded op left right).IsExpanded := by
  unfold folded
  split
  · exact ⟨rfl, trivial, trivial⟩
  · exact ⟨rfl, hl, hr⟩

-- Only texts that are read leave their mark.
theorem isExpanded_settle {expand : String → Except Failure Tree}
    (expands : ∀ raw inside, expand raw = .ok inside → (inside.term Tree.first).IsExpanded)
    {token : Token} {left right u : Term} (hl : left.IsExpanded) (hr : right.IsExpanded)
    (h : settle expand token left right = .ok u) : u.IsExpanded := by
  cases token with
  | group raw =>
    obtain ⟨inside, read, rfl⟩ := ok_of_map h
    exact expands raw inside read
  | magnitude raw =>
    obtain ⟨inside, read, rfl⟩ := ok_of_map h
    exact ⟨rfl, ⟨rfl, trivial, trivial⟩, expands raw inside read⟩
  | operator op =>
    cases h
    exact isExpanded_folded hl hr
  | number x | var name | name text =>
    cases h
    exact ⟨rfl, hl, hr⟩

theorem isExpanded_reduce {expand : String → Except Failure Tree}
    (expands : ∀ raw inside, expand raw = .ok inside → (inside.term Tree.first).IsExpanded)
    {t u : Term} (h : t.reduce expand = .ok u) : u.IsExpanded := by
  induction t generalizing u with
  | absent =>
    cases h
    trivial
  | node token left right ihl ihr =>
    obtain ⟨l, hl, h⟩ := ok_of_bind h
    obtain ⟨r, hr, h⟩ := ok_of_bind h
    exact isExpanded_settle expands (ihl hl) (ihr hr) h

/-- Reducing a term without raw text folds it. -/
theorem IsExpanded.reduce_eq {t : Term} (h : t.IsExpanded) (expand : String → Except Failure Tree) :
    t.reduce expand = .ok t.fold := by
  induction t with
  | absent => rfl
  | node token left right ihl ihr =>
    obtain ⟨expanded, hl, hr⟩ := h
    rw [reduce, ihl hl, ihr hr]
    cases token with
    | group raw | magnitude raw => cases expanded
    | _ => rfl

theorem IsExpanded.subst {t sub : Term} (h : t.IsExpanded) (hsub : sub.IsExpanded)
    (name : String) : (t.subst name sub).IsExpanded := by
  induction t with
  | absent => trivial
  | node token left right ihl ihr =>
    obtain ⟨expanded, hl, hr⟩ := h
    rw [Term.subst]
    unfold put
    split
    · split
      · exact hsub
      · exact ⟨rfl, ihl hl, ihr hr⟩
    · exact ⟨expanded, ihl hl, ihr hr⟩

/-! ## Folded terms -/

theorem fold_folded (op : Operation) {left right : Term} (hl : left.fold = left)
    (hr : right.fold = right) : (folded op left right).fold = folded op left right := by
  unfold folded
  split
  · rfl
  next none =>
    rw [fold, hl, hr, folded, none]

theorem fold_settle {expand : String → Except Failure Tree}
    (expands : ∀ raw inside, expand raw = .ok inside →
      (inside.term Tree.first).fold = inside.term Tree.first)
    {token : Token} {left right u : Term} (hl : left.fold = left) (hr : right.fold = right)
    (h : settle expand token left right = .ok u) : u.fold = u := by
  cases token with
  | group raw =>
    obtain ⟨inside, read, rfl⟩ := ok_of_map h
    exact expands raw inside read
  | magnitude raw =>
    obtain ⟨inside, read, rfl⟩ := ok_of_map h
    exact fold_folded .transform rfl (expands raw inside read)
  | operator op =>
    cases h
    exact fold_folded _ hl hr
  | number x | var name | name text =>
    cases h
    rw [fold, hl, hr]
    nofun

-- Folding leaves nothing to fold.
theorem fold_reduce {expand : String → Except Failure Tree}
    (expands : ∀ raw inside, expand raw = .ok inside →
      (inside.term Tree.first).fold = inside.term Tree.first)
    {t u : Term} (h : t.reduce expand = .ok u) : u.fold = u := by
  induction t generalizing u with
  | absent =>
    cases h
    rfl
  | node token left right ihl ihr =>
    obtain ⟨l, hl, h⟩ := ok_of_bind h
    obtain ⟨r, hr, h⟩ := ok_of_bind h
    exact fold_settle expands (ihl hl) (ihr hr) h

-- A folded operator has folded operands, and no value of its own.
theorem unfolded_of_fold {op : Operation} {left right : Term}
    (h : (node (.operator op) left right).fold = node (.operator op) left right) :
    left.fold = left ∧ right.fold = right ∧ value? op left right = none := by
  rw [fold, folded] at h
  split at h
  case h_1 => cases h
  case h_2 unfolded =>
    injection h with _ hl hr
    rw [hl, hr] at unfolded
    exact ⟨hl, hr, unfolded⟩

-- Whatever is folded has folded operands.
theorem operands_of_fold {token : Token} {left right : Term}
    (h : (node token left right).fold = node token left right) :
    left.fold = left ∧ right.fold = right := by
  cases token with
  | operator op =>
    obtain ⟨hl, hr, -⟩ := unfolded_of_fold h
    exact ⟨hl, hr⟩
  | number | var | name | group | magnitude =>
    injection h with _ hl hr
    exact ⟨hl, hr⟩

end Term

namespace Expression

/-- What is parsed has no raw text left. -/
theorem isExpanded_parseWithin {depth : Nat} {text : String} {t : Tree}
    (h : parseWithin depth text = .ok t) : (t.term Tree.first).IsExpanded := by
  induction depth generalizing text t with
  | zero => cases h
  | succ depth ih =>
    obtain ⟨inner, term, u, same, -, -, reduced, -, rfl⟩ := parseWithin_cases h
    cases same
    rw [Tree.Has.term_plant]
    exact Term.isExpanded_reduce (fun _ _ => ih) reduced

/-- What is parsed is folded. -/
theorem fold_parseWithin {depth : Nat} {text : String} {t : Tree}
    (h : parseWithin depth text = .ok t) : (t.term Tree.first).fold = t.term Tree.first := by
  induction depth generalizing text t with
  | zero => cases h
  | succ depth ih =>
    obtain ⟨inner, term, u, same, -, -, reduced, -, rfl⟩ := parseWithin_cases h
    cases same
    rw [Tree.Has.term_plant]
    exact Term.fold_reduce (fun _ _ => ih) reduced

end Expression

end FormulaLang
