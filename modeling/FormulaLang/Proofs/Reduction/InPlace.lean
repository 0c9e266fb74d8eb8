import FormulaLang.Proofs.Reduction.Expanded
import FormulaLang.Proofs.Reduction.Recursion
import FormulaLang.Proofs.Tree.Subtree

/-!
Reducing a part of a tree.  The part that takes its place holds the term in which raw texts stand
expanded and operators over literals are folded.  The rest of the tree stays as it is, but for the
link to the part, and reducing once more changes nothing.
-/

namespace FormulaLang

namespace Term

/-- What stands for a token over operands: a raw text for what it is read as. -/
def expandAt (read : String → Except Failure Tree) (token : Token) (left right : Term) :
    Except Failure Term :=
  match token with
  | .group raw => (read raw).map fun inside => inside.term Tree.first
  | .magnitude raw => (read raw).map fun inside =>
      node (.operator .transform) (leaf (.name Reduction.magnitudeFunction))
        (inside.term Tree.first)
  | token => .ok (node token left right)

/-- Puts what raw texts are read as in their places, operands first. -/
def expand (read : String → Except Failure Tree) : Term → Except Failure Term
  | absent => .ok absent
  | node token left right => do
      let left ← left.expand read
      let right ← right.expand read
      expandAt read token left right

variable {read : String → Except Failure Tree}

theorem settle_fold (folds : ∀ raw inside, read raw = .ok inside →
      (inside.term Tree.first).fold = inside.term Tree.first)
    (token : Token) (left right : Term) :
    settle read token left.fold right.fold = (expandAt read token left right).map fold := by
  cases token with
  | group raw =>
    simp only [settle, expandAt]
    cases h : read raw with
    | error e => rfl
    | ok inside => exact congrArg Except.ok (folds raw inside h).symm
  | magnitude raw =>
    simp only [settle, expandAt]
    cases h : read raw with
    | error e => rfl
    | ok inside =>
      refine congrArg Except.ok ?_
      have folded := folds raw inside h
      simp [fold, leaf, folded, Term.folded, value?, Operation.isArithmetic]
  | operator op => rfl
  | number | var | name => rfl

/-- Reducing expands all raw text and then folds, if what raw texts are read as is folded. -/
theorem reduce_eq_fold (folds : ∀ raw inside, read raw = .ok inside →
      (inside.term Tree.first).fold = inside.term Tree.first) (t : Term) :
    t.reduce read = (t.expand read).map fold := by
  induction t with
  | absent => rfl
  | node token left right ihl ihr =>
    rw [reduce, expand, ihl, ihr]
    cases left.expand read with
    | error e => rfl
    | ok left =>
      cases right.expand read with
      | error e => rfl
      | ok right => exact settle_fold folds token left right

theorem expandAt_error_iff (token : Token) (left right : Term) :
    (∃ e, expandAt read token left right = .error e) ↔
      ∃ raw ∈ token.raw?, ∃ e, read raw = .error e := by
  cases token with
  | group raw | magnitude raw =>
    simp only [expandAt, Token.raw?, Option.mem_def, Option.some.injEq, exists_eq_left']
    cases read raw <;> simp [Except.map]
  | number | var | name | operator => simp [expandAt, Token.raw?]

/-- Expanding fails exactly when a raw text in the term cannot be read. -/
theorem expand_error_iff (t : Term) :
    (∃ e, t.expand read = .error e) ↔ ∃ raw ∈ t.raws, ∃ e, read raw = .error e := by
  induction t with
  | absent => simp [expand, raws]
  | node token left right ihl ihr =>
    simp only [raws, List.mem_append, or_and_right, exists_or, ← ihl, ← ihr, Option.mem_toList]
    rw [expand]
    cases left.expand read with
    | error e => simp [bind, Except.bind]
    | ok left =>
      cases right.expand read with
      | error e => simp [bind, Except.bind]
      | ok right => simpa [bind, Except.bind] using expandAt_error_iff token left right

end Term

namespace Reduction

variable {expand : String → Except Failure Tree} {t : Tree} {S : Slots} {hole : Hole}

-- A token over reduced operands stays when it is expanded and folded.
theorem settle_unchanged {id : NodeId} {token : Token} {l r : Layout}
    (h : t.Has (hole.site (.node id token l r) + S)) (expanded : token.isUnexpanded = false)
    (unfolded : ∀ op, token = .operator op → Term.value? op l.term r.term = none) :
    (settle expand id).apply t = (.ok id, t) := by
  have found : t.token? id = some token := hole.token? h
  cases token with
  | group raw | magnitude raw => cases expanded
  | operator op =>
    simp only [settle, Edit.apply_bind, Edit.apply_get, found, fold?_eq h, unfolded op rfl,
      Edit.apply_pure]
  | number | var | name =>
    simp only [settle, Edit.apply_bind, Edit.apply_get, found, Edit.apply_pure]

/-- What is expanded and folded is left as it is. -/
theorem reduceWithin_unchanged (L : Layout) {hole : Hole} {depth : Nat} {id : NodeId}
    (root : L.root? = some id) (h : t.Has (hole.site L + S)) (expanded : L.term.IsExpanded)
    (folded : L.term.fold = L.term) :
    (reduceWithin expand depth id).apply t = (.ok id, t) := by
  induction L generalizing hole depth id with
  | absent => cases root
  | node id token l r ihl ihr =>
    cases root
    cases depth with
    | zero => rfl
    | succ depth =>
      obtain ⟨isToken, leftExpanded, rightExpanded⟩ := expanded
      obtain ⟨leftFolded, rightFolded⟩ := Term.operands_of_fold folded
      have operand {M : Layout} (unchanged : ∀ child, M.root? = some child →
          (reduceWithin expand depth child).apply t = (.ok child, t)) :
          (reduceOperand expand depth M.root?).apply t = (.ok (), t) := by
        cases M with
        | absent => rfl
        | node child token l r => exact Edit.apply_bind_ok (unchanged child rfl) _
      have atLeft : t.Has ((hole.below ⟨id, token, false, r⟩).site l + S) := by
        rw [Hole.site_below]
        exact h
      have atRight : t.Has ((hole.below ⟨id, token, true, l⟩).site r + S) := by
        rw [Hole.site_below]
        exact h
      have left := operand fun child top => ihl top atLeft leftExpanded leftFolded
      have right := operand fun child top => ihr top atRight rightExpanded rightFolded
      rw [reduceWithin_succ, Edit.apply_bind_ok (Edit.apply_get t), hole.left? h,
        Edit.apply_bind_ok left, Edit.apply_bind_ok (Edit.apply_get t), hole.right? h,
        Edit.apply_bind_ok right]
      refine settle_unchanged h isToken fun op same => ?_
      subst same
      exact (Term.unfolded_of_fold folded).2.2

end Reduction

namespace Expression

open Reduction

variable {t t' : Tree} {id id' : NodeId}

theorem fold_parse (raw : String) (inside : Tree) (h : parse raw = .ok inside) :
    (inside.term Tree.first).fold = inside.term Tree.first :=
  fold_parseWithin h

theorem isExpanded_parse (raw : String) (inside : Tree) (h : parse raw = .ok inside) :
    (inside.term Tree.first).IsExpanded :=
  isExpanded_parseWithin h

/-- What reducing makes of a part of a linked tree, with what is around it. -/
theorem reduce_layout (linked : t.Linked) {L : Layout} (top : L.root? = some id)
    (held : t.Has (L.slots (t.parent? id))) :
    Makes (reduceWithin parse t.size id) t (Tree.around linked held top) 0
      ((t.term id).reduce parse) := by
  have site := (Tree.Has.site_around linked held top).congr (add_zero _).symm
  have deep : L.term.size ≤ t.size := by
    rw [← Layout.card_slots _ (t.parent? id)]
    exact held.card_le_size
  have whole := Tree.Has.term_root (held.congr (add_zero _).symm) top
  rw [whole]
  exact makes_reduceWithin rooted_parse L top site deep

-- Where the place of the part is, what is in it and what is around it.
theorem reduced_layout (linked : t.Linked) {L L' : Layout} (top : L.root? = some id)
    (held : t.Has (L.slots (t.parent? id))) (top' : L'.root? = some id')
    (held' : t'.Has ((Tree.around linked held top).site L' + 0))
    (reduced : (t.term id).reduce parse = .ok L'.term) :
    (t'.parent? id' = t.parent? id
      ∧ (∀ above n, t.parent? id = some above → t.node? above = some n →
        t'.node? above = some (n.lead id (some id')))
      ∧ ∀ i n, t.node? i = some n → t.parent? id ≠ some i → (∀ route, t.follow id route ≠ some i) →
        t'.node? i = some n)
    ∧ t'.term id' = L'.term ∧ t'.IsTree id' ∧ reduce t' id' = (.ok id', t') := by
  have part := held'.congr (add_assoc _ _ _)
  have stays {i : NodeId} {n : Node} (found : t.node? i = some n) (outside : i ∉ L.postOrder) :
      t'.node? i = some (n.lead id (some id')) := by
    rw [Tree.Has.node?_around linked held top held' found outside, top']
  refine ⟨⟨?_, fun above n parent found => ?_, fun i n found other beyond => ?_⟩,
    part.term_root top', part.isTree top', ?_⟩
  · cases L' with
    | absent => cases top'
    | node root token l r =>
      cases top'
      exact Hole.parent? _ held'
  · exact stays found (linked.beyond_of_parent? held top parent)
  · have outside : i ∉ L.postOrder := fun mem => by
      obtain ⟨route, reached⟩ := ((held.congr (add_zero _).symm).mem_postOrder top).mp mem
      exact beyond route reached
    rw [stays found outside, linked.lead_of_ne found other]
  · exact reduceWithin_unchanged L' top' held' (Term.isExpanded_reduce isExpanded_parse reduced)
      (Term.fold_reduce fold_parse reduced)

/-- A part of a tree is reduced in its place: what comes there holds the term with its raw texts
expanded and its operators over literals folded, outside only the link to it changes, and it is left
as it is by reducing it again.  It fails exactly when a raw text in the part cannot be read. -/
theorem reduce_in_place (linked : t.Linked) (isTree : t.IsTree id) :
    (∀ id' t', reduce t id = (.ok id', t') →
      (t'.parent? id' = t.parent? id
        ∧ (∀ above n, t.parent? id = some above → t.node? above = some n →
          t'.node? above = some (n.lead id (some id')))
        ∧ ∀ i n, t.node? i = some n → t.parent? id ≠ some i →
          (∀ route, t.follow id route ≠ some i) → t'.node? i = some n)
      ∧ ((t.term id).expand parse).map Term.fold = .ok (t'.term id')
      ∧ t'.Linked ∧ t'.IsTree id'
      ∧ reduce t' id' = (.ok id', t'))
    ∧ ((∃ e t', reduce t id = (.error e, t')) ↔
        ∃ raw ∈ (t.term id).raws, ∃ e, parse raw = .error e) := by
  obtain ⟨L, top, held⟩ := isTree.exists_layout linked
  have made := reduce_layout linked top held
  have folds := Term.reduce_eq_fold fold_parse (t.term id)
  have fails : (∃ e, (t.term id).expand parse = .error e) ↔ _ :=
    Term.expand_error_iff (t.term id)
  cases result : (t.term id).reduce parse with
  | error e =>
    rw [result] at made folds
    obtain ⟨t'', failed⟩ := made
    have failed : reduce t id = (.error e, t'') := failed
    constructor
    · intro id' t' reduced
      rw [failed] at reduced
      cases reduced
    · refine ⟨fun _ => fails.mp ?_, fun _ => ⟨e, t'', failed⟩⟩
      cases expanded : (t.term id).expand parse with
      | error e => exact ⟨e, rfl⟩
      | ok u =>
        rw [expanded] at folds
        cases folds
  | ok u =>
    rw [result] at made folds
    obtain ⟨t'', L', id'', done, top', rfl, held', links⟩ := made
    have done : reduce t id = (.ok id'', t'') := done
    constructor
    · intro id' t' reduced
      rw [done] at reduced
      cases reduced
      obtain ⟨place, whole, isTree, again⟩ := reduced_layout linked top held top' held' result
      exact ⟨place, by rw [← folds, whole], links linked, isTree, again⟩
    · constructor
      · rintro ⟨e, t', failed⟩
        rw [done] at failed
        cases failed
      · intro unread
        obtain ⟨e, failed⟩ := fails.mpr unread
        rw [failed] at folds
        cases folds

/-- Bars on the right of a sum become an application there. -/
theorem reduce_in_place_of_bars :
    let t := Tree.empty.plant
      (.node (.operator .add) (.leaf (.var "x")) (.leaf (.magnitude "y")))
    t.Linked ∧ t.IsTree 2 ∧ ∃ t', reduce t 2 = (.ok 4, t')
      ∧ t'.parent? 4 = some 0 ∧ t'.node? 0 = some ⟨.operator .add, none, some 1, some 4⟩
      ∧ t'.node? 1 = some ⟨.var "x", some 0, none, none⟩
      ∧ t'.term 4 = .node (.operator .transform) (.leaf (.name "abs")) (.leaf (.var "y"))
      ∧ t'.Linked ∧ t'.IsTree 4 ∧ reduce t' 4 = (.ok 4, t') := by
  intro t
  have linked : t.Linked := Tree.linked_empty.plant _
  have leaf (onRight : Bool) (route : Route) : t.follow 2 (onRight :: route) = none := by
    cases onRight <;> rfl
  have isTree : t.IsTree 2 := by
    refine ⟨by decide, fun route route' i reached reached' => ?_⟩
    cases route with
    | cons onRight route => rw [leaf] at reached; cases reached
    | nil =>
      cases route' with
      | cons onRight route => rw [leaf] at reached'; cases reached'
      | nil => rfl
  have root : (reduce t 2).1.toOption = some 4 := by decide +kernel
  have whole : (((t.term 2).expand parse).map Term.fold).toOption = some
      (.node (.operator .transform) (.leaf (.name "abs")) (.leaf (.var "y"))) := by decide +kernel
  obtain ⟨done, -⟩ := reduce_in_place linked isTree
  generalize reduce t 2 = result at root done ⊢
  obtain ⟨r, t'⟩ := result
  obtain rfl : r = .ok 4 := ok_of_toOption root
  obtain ⟨⟨parent, above, others⟩, term, links, isTree', again⟩ := done 4 t' rfl
  refine ⟨linked, isTree, t', rfl, parent, above 0 _ rfl rfl, others 1 _ rfl (by decide) ?_, ?_,
    links, isTree', again⟩
  · intro route
    cases route with
    | nil => decide
    | cons onRight route => rw [leaf]; nofun
  · rw [ok_of_toOption whole] at term
    exact (Except.ok.inj term).symm

end Expression

end FormulaLang
