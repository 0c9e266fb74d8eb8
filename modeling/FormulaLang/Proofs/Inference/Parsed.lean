import FormulaLang.Proofs.Inference.Order

/-!
The variables of a text that is parsed.  Reducing puts the variables of raw text where the raw text
stood, so that the variables which count in the term are those that the text mentions, in its order.
-/

namespace FormulaLang

/-! ## Reduced terms -/

namespace Term

variable {expand : String → Except Failure Tree} {inside : Bool → String → List String}
variable {op : Operation} {left right l r t u : Term}

theorem Written.eq_leaf (h : t.Written) {x : Float} (number : t.number? = some x) :
    t = leaf (.number x) := by
  cases h with
  | number y =>
      cases number
      rfl
  | @raw token unexpanded => cases token <;> first | (cases unexpanded; done) | cases number
  | _ => cases number

-- Only operators over literals are folded, and literals mention nothing.
theorem Written.mentioned_folded (h : (node (.operator op) left right).Written) (counts : Bool) :
    (Term.folded op left right).mentioned counts
      = (node (.operator op) left right).mentioned counts := by
  cases value : value? op left right with
  | none => rw [Term.folded, value]
  | some x =>
      rw [Term.folded, value]
      cases h with
      | negate hr =>
          obtain ⟨y, number, -⟩ := Option.bind_eq_some_iff.mp value
          rw [hr.eq_leaf number]
          rfl
      | binary binary hl hr =>
          have other : op ≠ .negate := by
            rintro rfl
            cases binary
          rw [value?, if_neg other] at value
          split at value
          next =>
            obtain ⟨y, numberLeft, value⟩ := Option.bind_eq_some_iff.mp value
            obtain ⟨z, numberRight, -⟩ := Option.bind_eq_some_iff.mp value
            rw [hl.eq_leaf numberLeft, hr.eq_leaf numberRight]
            rfl
          next => cases value
      | raw unexpanded => cases unexpanded
      | @key op access owner ho key hk =>
          have unfolded : value? op left (leaf (.name key)) = none := by
            cases op <;> first | rfl | cases access
          rw [unfolded] at value
          cases value
      | apply | method => cases value

theorem mentioned_operation (hl : ∀ counts, l.mentioned counts = left.counted inside counts)
    (hr : ∀ counts, r.mentioned counts = right.counted inside counts) (counts : Bool) :
    (node (.operator op) l r).mentioned counts
      = (node (.operator op) left right).counted inside counts := by
  show l.mentioned _ ++ r.mentioned _ ++ [] = _
  rw [hl, hr]
  rfl

/-- The variables of a term that is reduced are those of the term, with those of raw text where it
stood. -/
theorem Written.mentioned_reduce (h : t.Written)
    (written : ∀ raw tree, expand raw = .ok tree → (tree.term Tree.first).Written)
    (expands : ∀ raw tree, expand raw = .ok tree →
      ∀ counts, (tree.term Tree.first).mentioned counts = inside counts raw)
    (reduced : t.reduce expand = .ok u) (counts : Bool) :
    u.mentioned counts = t.counted inside counts := by
  induction h generalizing u counts with
  | number x | var h =>
      cases reduced
      rfl
  | @raw token unexpanded =>
      cases token with
      | group raw =>
          obtain ⟨tree, read, rfl⟩ := ok_of_map reduced
          exact expands raw tree read counts
      | magnitude raw =>
          obtain ⟨tree, read, rfl⟩ := ok_of_map reduced
          show [] ++ (tree.term Tree.first).mentioned true ++ [] = _
          rw [expands raw tree read, List.append_nil]
          rfl
      | _ => cases unexpanded
  | negate hr ih =>
      obtain ⟨l, r, same, right, rfl⟩ := reduce_operation reduced
      cases same
      have whole := Written.negate (hr.reduce written right)
      refine (whole.mentioned_folded counts).trans ?_
      exact mentioned_operation (fun _ => by rfl) (ih right) counts
  | binary binary hl hr ihl ihr =>
      obtain ⟨l, r, left, right, rfl⟩ := reduce_operation reduced
      have whole := Written.binary binary (hl.reduce written left) (hr.reduce written right)
      refine (whole.mentioned_folded counts).trans ?_
      exact mentioned_operation (ihl left) (ihr right) counts
  | key access ho hk iho =>
      obtain ⟨l, r, owner, same, rfl⟩ := reduce_operation reduced
      cases same
      have whole := Written.key access (ho.reduce written owner) hk
      refine (whole.mentioned_folded counts).trans ?_
      exact mentioned_operation (iho owner) (fun _ => by rfl) counts
  | apply name ha ih =>
      obtain ⟨l, r, same, argument, rfl⟩ := reduce_operation reduced
      cases same
      have whole := Written.apply name (ha.reduce written argument)
      refine (whole.mentioned_folded counts).trans ?_
      exact mentioned_operation (fun _ => by rfl) (ih argument) counts
  | method access ho name ha iho iha =>
      obtain ⟨l, r, function, argument, rfl⟩ := reduce_operation reduced
      obtain ⟨o, k, owner, same, rfl⟩ := reduce_operation function
      cases same
      rw [folded_access access]
      have whole :=
        Written.method access (ho.reduce written owner) name (ha.reduce written argument)
      refine (whole.mentioned_folded counts).trans ?_
      refine mentioned_operation (mentioned_operation (iho owner) fun _ => ?_) (iha argument) counts
      rfl

end Term

/-! ## Texts -/

namespace Expression

open Grammar

variable {inside : Front → Nat → String → List Mention} {names : Bool → String → List String}

-- The mentions among lexemes are named as the variables among their tokens.
theorem map_mentionsAmong
    (named : ∀ counts start raw,
      (inside (.ofCounts counts) start raw).map Mention.name = names counts raw)
    (base : Nat) (front : Front) (lexemes : List Lexeme) :
    (mentionsAmong inside base front lexemes).map Mention.name
      = namesAmong names front (lexemes.map Lexeme.token) := by
  induction lexemes generalizing front with
  | nil => rfl
  | cons lexeme rest ih =>
      obtain ⟨token, stop⟩ := lexeme
      have own : (mentionsOf inside front (base + stop) token).map Mention.name
          = namesOf names front token := by
        cases token with
        | var v =>
            rw [mentionsOf, namesOf]
            split <;> rfl
        | group raw =>
            rw [mentionsOf, ← Front.ofCounts_counts]
            exact named _ _ raw
        | magnitude raw => exact named true _ raw
        | _ => rfl
      rw [mentionsAmong, List.map_append, own, ih]
      rfl

-- Where a text starts has no part in the names of what it mentions.
theorem names_mentionsWithin (depth : Nat) (front : Front) (base : Nat) (text : String) :
    (mentionsWithin depth front base text).map Mention.name
      = (mentionsWithin depth front 0 text).map Mention.name := by
  induction depth generalizing front base text with
  | zero => rfl
  | succ depth ih =>
      rw [mentionsWithin, mentionsWithin]
      split
      next => rfl
      next =>
        have named (base : Nat) (front : Front) (lexemes : List Lexeme) :=
          map_mentionsAmong (fun counts start raw => ih (.ofCounts counts) start raw) base front
            lexemes
        rw [named, named]

/-- The variables that count in the term of a text are those that the text mentions, in its
order. -/
theorem mentioned_parseWithin {depth : Nat} {text : String} {t : Tree}
    (h : parseWithin depth text = .ok t) (counts : Bool) :
    (t.term Tree.first).mentioned counts
      = (mentionsWithin depth (.ofCounts counts) 0 text).map Mention.name := by
  induction depth generalizing text t counts with
  | zero => cases h
  | succ depth ih =>
      obtain ⟨inner, term, u, same, built, -, reduced, -, rfl⟩ := parseWithin_cases h
      cases same
      obtain ⟨whole, spoken, scanned⟩ := scan_of_built built
      have written := spoken.written scanned
      rw [Tree.Has.term_plant,
        written.mentioned_reduce (fun _ _ => written_parseWithin) (fun raw tree read => ih read)
          reduced,
        counted_of_scan spoken scanned, mentionsWithin, whole, Scan.tokens, List.length_map]
      exact (map_mentionsAmong (fun _ => names_mentionsWithin depth _) 0 _ _).symm

/-- The variables that count in a parsed text are those that it mentions, in its order. -/
theorem mentioned_parse {text : String} {t : Tree} (h : parse text = .ok t) :
    (t.term Tree.first).mentioned true = (mentions text).map Mention.name :=
  mentioned_parseWithin h true

end Expression

end FormulaLang
