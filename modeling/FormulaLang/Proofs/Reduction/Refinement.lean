import FormulaLang.Proofs.Tree.Links
import FormulaLang.Proofs.Tree.Surgery
import FormulaLang.Reduction

/-!
Reducing a tree, seen on the terms that it holds.  On a term, reducing is a recursion without places
or links; the surgery on a tree makes the same term, wherever in the tree it takes place.
-/

namespace FormulaLang

namespace Term

/-- The number of a literal. -/
def number? : Term → Option Float
  | node (.number x) _ _ => some x
  | _ => none

/-- The value of an operator over literals. -/
def value? (op : Operation) (left right : Term) : Option Float :=
  if op = .negate then
    right.number?.bind fun x => op.onNumbers? 0 x
  else if op.isArithmetic ∨ op = .power then
    left.number?.bind fun x => right.number?.bind fun y => op.onNumbers? x y
  else
    none

/-- An operator over operands, or its value over literals. -/
def folded (op : Operation) (left right : Term) : Term :=
  match value? op left right with
  | some x => leaf (.number x)
  | none => node (.operator op) left right

/-- Folds operators over literals, operands first. -/
def fold : Term → Term
  | absent => absent
  | node (.operator op) left right => folded op left.fold right.fold
  | node token left right => node token left.fold right.fold

/-- A token over operands that are reduced. -/
def settle (expand : String → Except Failure Tree) (token : Token) (left right : Term) :
    Except Failure Term :=
  match token with
  | .group raw => (expand raw).map fun inside => inside.term Tree.first
  | .magnitude raw => (expand raw).map fun inside =>
      node (.operator .transform) (leaf (.name Reduction.magnitudeFunction))
        (inside.term Tree.first)
  | .operator op => .ok (folded op left right)
  | token => .ok (node token left right)

/-- Expands raw texts and folds operators over literals, operands first. -/
def reduce (expand : String → Except Failure Tree) : Term → Except Failure Term
  | absent => .ok absent
  | node token left right => do
      let left ← left.reduce expand
      let right ← right.reduce expand
      settle expand token left right

theorem folded_ne_absent (op : Operation) (left right : Term) : folded op left right ≠ absent := by
  unfold folded
  split <;> nofun

end Term

namespace Reduction

variable {t : Tree} {S : Slots} {hole : Hole} {id : NodeId} {token : Token} {l r : Layout}
variable {expand : String → Except Failure Tree}

/-! ## One node -/

/-- Reduces an operand, if there is one. -/
def reduceOperand (expand : String → Except Failure Tree) (depth : Nat) :
    Option NodeId → Edit Unit
  | some id => do
      let _ ← reduceWithin expand depth id
  | none => return ()

/-- Reduces a node whose operands are reduced. -/
def settle (expand : String → Except Failure Tree) (id : NodeId) : Edit NodeId := do
  let t ← get
  match t.token? id with
  | some (.group raw) =>
      let inside ← Edit.ofExcept (expand raw)
      set ((t.graft inside Tree.first).replace t.size id)
      return t.size
  | some (.magnitude raw) =>
      let inside ← Edit.ofExcept (expand raw)
      let planted := t.graft inside Tree.first
      let t' := (planted.add (.operator .transform)).add (.name magnitudeFunction)
      set ((t'.replace planted.size id).setLeft planted.size (planted.size + 1))
      Edit.surgery fun t' => t'.append planted.size t.size
      return planted.size
  | some (.operator op) =>
      if let some x := fold? t id op then
        set (t.collapse id (.number x))
      return id
  | _ => return id

theorem reduceWithin_succ (depth : Nat) (t : Tree) :
    (reduceWithin expand (depth + 1) id).apply t =
      (do
        let t ← get
        reduceOperand expand depth (t.left? id)
        let t ← get
        reduceOperand expand depth (t.right? id)
        settle expand id : Edit NodeId).apply t := by
  rw [reduceWithin, Edit.apply_bind_ok (Edit.apply_get t), Edit.apply_bind_ok (Edit.apply_get t)]
  cases t.left? id with
  | none =>
      dsimp only [reduceOperand]
      rw [Edit.apply_bind_ok (Edit.apply_get t), Edit.apply_bind_ok (Edit.apply_pure _ t),
        Edit.apply_bind_ok (Edit.apply_get t)]
      cases t.right? id with
      | none => rfl
      | some right =>
          simp only [Edit.apply_bind]
          rcases (reduceWithin expand depth right).apply t with ⟨_ | _, t'⟩ <;> rfl
  | some left =>
      simp only [reduceOperand, Edit.apply_bind]
      rcases (reduceWithin expand depth left).apply t with ⟨_ | _, t⟩
      · rfl
      · simp only [Edit.apply_get, Edit.apply_pure]
        cases t.right? id with
        | none => rfl
        | some right =>
            simp only [Edit.apply_bind]
            rcases (reduceWithin expand depth right).apply t with ⟨_ | _, t'⟩ <;> rfl

/-- An edit puts a layout of the resulting term in the focus and names its root, and keeps a linked
tree linked; or it fails as the result does. -/
def Makes (m : Edit NodeId) (t : Tree) (hole : Hole) (S : Slots) : Except Failure Term → Prop
  | .ok u => ∃ t' L id, m.apply t = (.ok id, t') ∧ L.root? = some id ∧ L.term = u
      ∧ t'.Has (hole.site L + S) ∧ (t.Linked → t'.Linked)
  | .error e => ∃ t', m.apply t = (.error e, t')

-- Edits that keep a linked tree linked may come before.
theorem Makes.after {m m' : Edit NodeId} {t t' : Tree} {r : Except Failure Term}
    (h : Makes m' t' hole S r) (runs : m.apply t = m'.apply t')
    (linked : t.Linked → t'.Linked) : Makes m t hole S r := by
  cases r with
  | error e =>
      obtain ⟨t', failed⟩ := h
      exact ⟨t', runs.trans failed⟩
  | ok u =>
      obtain ⟨t', L, id, done, root, term, held, links⟩ := h
      exact ⟨t', L, id, runs.trans done, root, term, held, fun h => links (linked h)⟩

/-- Whether raw text is always read as a tree with a root. -/
def Rooted (expand : String → Except Failure Tree) : Prop :=
  ∀ raw inside, expand raw = .ok inside → inside.term Tree.first ≠ .absent

theorem settle_ne_absent (rooted : Rooted expand) {left right u : Term}
    (h : Term.settle expand token left right = .ok u) : u ≠ .absent := by
  unfold Term.settle at h
  split at h
  · rename_i raw
    obtain ⟨inside, read, rfl⟩ := ok_of_map h
    exact rooted raw inside read
  · rename_i raw
    obtain ⟨inside, -, rfl⟩ := ok_of_map h
    nofun
  · cases h
    exact Term.folded_ne_absent _ _ _
  · cases h
    nofun

-- A term with a root is reduced to one with a root.
theorem reduce_ne_absent (rooted : Rooted expand) {term u : Term} (there : term ≠ .absent)
    (h : term.reduce expand = .ok u) : u ≠ .absent := by
  cases term with
  | absent => exact absurd rfl there
  | node token left right =>
      rw [Term.reduce] at h
      obtain ⟨left, -, h⟩ := ok_of_bind h
      obtain ⟨right, -, h⟩ := ok_of_bind h
      exact settle_ne_absent rooted h

theorem literal?_eq {parent? : Option NodeId} {L : Layout} (h : t.Has (L.slots parent? + S)) :
    literal? t L.root? = L.term.number? := by
  cases L with
  | absent => rfl
  | node id token l r =>
      rw [Layout.slots, add_assoc] at h
      have found : t.token? id = some token := by
        rw [Tree.token?, h.node?]
        rfl
      simp only [literal?, Layout.root?, Option.bind_some, found]
      cases token <;> rfl

theorem fold?_eq {op : Operation} (h : t.Has (hole.site (.node id (.operator op) l r) + S)) :
    fold? t id op = Term.value? op l.term r.term := by
  have left : t.left? id = l.root? := hole.left? h
  have right : t.right? id = r.root? := hole.right? h
  rw [Hole.site_node, add_assoc] at h
  have leftNumber : literal? t l.root? = l.term.number? :=
    literal?_eq (h.right.congr (show _ = l.slots (some id) + (r.slots (some id)
      + hole.slots (some id) + S) by abel))
  have rightNumber : literal? t r.root? = r.term.number? :=
    literal?_eq (h.right.congr (show _ = r.slots (some id) + (l.slots (some id)
      + hole.slots (some id) + S) by abel))
  rw [fold?, Term.value?, left, right, leftNumber, rightNumber]

-- A copy of a term with a root is held beside what was held before.
theorem graft_held {S' : Slots} (h : t.Has S') {inside : Tree}
    (there : inside.term Tree.first ≠ .absent) :
    ∃ token l r, (t.graft inside Tree.first).Has
        ((Layout.node t.size token l r).slots none + S')
      ∧ (Layout.node t.size token l r).term = inside.term Tree.first := by
  cases whole : inside.term Tree.first with
  | absent => exact absurd whole there
  | node token left right =>
      refine ⟨token, .ofTerm (t.size + 1) left, .ofTerm (t.size + 1 + left.size) right, ?_, ?_⟩
      · have held := h.plant (.node token left right)
        rw [Tree.graft, whole]
        exact held
      · rw [Layout.term, Layout.term_ofTerm, Layout.term_ofTerm]

theorem makes_settle_group {raw : String} (rooted : Rooted expand)
    (h : t.Has (hole.site (.node id (.group raw) l r) + S))
    (found : t.token? id = some (.group raw)) :
    Makes (settle expand id) t hole S (Term.settle expand (.group raw) l.term r.term) := by
  rw [Term.settle]
  cases read : expand raw with
  | error e =>
      refine ⟨t, ?_⟩
      simp only [settle, Edit.apply_bind, Edit.apply_get, found, read, Edit.apply_ofExcept]
  | ok inside =>
      obtain ⟨token, l', r', held, whole⟩ := graft_held h (rooted raw inside read)
      refine ⟨(t.graft inside Tree.first).replace t.size id, .node t.size token l' r', t.size, ?_,
        rfl, whole, ?_, fun linked => ?_⟩
      · simp only [settle, Edit.apply_bind, Edit.apply_get, found, read, Edit.apply_ofExcept,
          Edit.apply_set, Edit.apply_pure]
      · exact (hole.replace held).mono (add_le_add_right (Multiset.le_add_left _ _) _)
      · exact (linked.plant _).replace held.lt_size (hole.lt_size held.right) held.parent?_root

-- A layout takes the place of the focus as the argument of a named function.
theorem applied_held {copy : NodeId} {token' : Token} {l' r' : Layout} (name : String)
    (h : t.Has ((Layout.node copy token' l' r').slots none
      + (hole.site (.node id token l r) + S))) :
    ∃ t', ((((t.add (.operator .transform)).add (.name name)).replace t.size id).setLeft
        t.size (t.size + 1)).append t.size copy = .ok t'
      ∧ t'.Has (hole.site (.node t.size (.operator .transform) (.leaf (t.size + 1) (.name name))
          (.node copy token' l' r')) + S)
      ∧ (t.Linked → t'.Linked) := by
  have added := (h.add (.operator .transform)).add (.name name)
  rw [Tree.size_add] at added
  have first := added.congr
    (show _ = (Layout.leaf t.size (.operator .transform)).slots none
      + (hole.site (.node id token l r)
        + ((Layout.leaf (t.size + 1) (.name name)).slots none
          + ((Layout.node copy token' l' r').slots none + S))) by abel)
  have placed := hole.replace first
  have leaf : Layout.node t.size (.operator .transform) .absent .absent
      = Layout.leaf t.size (.operator .transform) := rfl
  rw [leaf] at placed
  have second := placed.congr
    (show _ = (Layout.leaf (t.size + 1) (.name name)).slots none
      + (hole.site (.leaf t.size (.operator .transform))
        + ((Layout.node copy token' l' r').slots none
          + ((Layout.node id token l r).slots none + S))) by abel)
  have named := (hole.setLeft none second).congr (add_left_comm _ _ _)
  obtain ⟨t', appended, -, applied⟩ := hole.append rfl named
  rw [Hole.site_below] at applied
  refine ⟨t', appended, applied.mono (add_le_add_right (Multiset.le_add_left _ _) _),
    fun linked => ?_⟩
  have replaced := ((linked.add (.operator .transform)).add (.name name)).replace first.lt_size
    (hole.lt_size first.right) first.parent?_root
  have lettered := replaced.setLeft (hole.lt_size second.right) second.lt_size
    (hole.left? second.right) second.parent?_root
  have operator : t.size < ((((t.add (.operator .transform)).add (.name name)).replace t.size
      id).setLeft t.size (t.size + 1)).size := by
    simp only [Tree.size_setLeft]
    exact hole.lt_size second.right
  exact lettered.append operator named.lt_size named.parent?_root appended

theorem makes_settle_magnitude {raw : String} (rooted : Rooted expand)
    (h : t.Has (hole.site (.node id (.magnitude raw) l r) + S))
    (found : t.token? id = some (.magnitude raw)) :
    Makes (settle expand id) t hole S (Term.settle expand (.magnitude raw) l.term r.term) := by
  rw [Term.settle]
  cases read : expand raw with
  | error e =>
      refine ⟨t, ?_⟩
      simp only [settle, Edit.apply_bind, Edit.apply_get, found, read, Edit.apply_ofExcept]
  | ok inside =>
      obtain ⟨token, l', r', held, whole⟩ := graft_held h (rooted raw inside read)
      obtain ⟨t', appended, applied, links⟩ := applied_held magnitudeFunction held
      have surgery := Edit.apply_surgery
        (f := fun u => u.append (t.graft inside Tree.first).size t.size) appended
      refine ⟨t', _, (t.graft inside Tree.first).size, ?_, rfl, ?_, applied,
        fun linked => links (linked.plant _)⟩
      · simp only [settle, Edit.apply_bind, Edit.apply_get, found, read, Edit.apply_ofExcept,
          Edit.apply_set, surgery, Edit.apply_pure]
      · show Term.node _ _ (Layout.node t.size token l' r').term = _
        rw [whole]
        rfl

-- Reducing a node whose operands are reduced makes the term that settling makes of theirs.
theorem makes_settle (rooted : Rooted expand)
    (h : t.Has (hole.site (.node id token l r) + S)) :
    Makes (settle expand id) t hole S (Term.settle expand token l.term r.term) := by
  have found : t.token? id = some token := hole.token? h
  cases token with
  | group raw => exact makes_settle_group rooted h found
  | magnitude raw => exact makes_settle_magnitude rooted h found
  | operator op =>
      rw [Term.settle, Term.folded]
      cases value : Term.value? op l.term r.term with
      | some x =>
          refine ⟨t.collapse id (.number x), .leaf id (.number x), id, ?_, rfl, rfl, ?_,
            fun linked => linked.collapse id _⟩
          · simp only [settle, Edit.apply_bind, Edit.apply_get, found, fold?_eq h, value,
              Edit.apply_set, Edit.apply_pure]
          · exact (hole.collapse h (.number x)).mono
              (add_le_add_right (Multiset.le_add_left _ _) _)
      | none =>
          refine ⟨t, _, id, ?_, rfl, rfl, h, fun linked => linked⟩
          simp only [settle, Edit.apply_bind, Edit.apply_get, found, fold?_eq h, value,
            Edit.apply_pure]
  | number | var | name =>
      refine ⟨t, _, id, ?_, rfl, rfl, h, fun linked => linked⟩
      simp only [settle, Edit.apply_bind, Edit.apply_get, found, Edit.apply_pure]

/-! ## The whole -/

/-- An edit puts a layout of the resulting term in the place of an operand, and keeps a linked tree
linked; or it fails as the result does. -/
def MakesOperand (m : Edit Unit) (t : Tree) (hole : Hole) (S : Slots) :
    Except Failure Term → Prop
  | .ok u => ∃ t' L, m.apply t = (.ok (), t') ∧ L.term = u ∧ t'.Has (hole.site L + S)
      ∧ (t.Linked → t'.Linked)
  | .error e => ∃ t', m.apply t = (.error e, t')

theorem makes_operand {L : Layout} {depth : Nat} (h : t.Has (hole.site L + S))
    (makes : ∀ id, L.root? = some id →
      Makes (reduceWithin expand depth id) t hole S (L.term.reduce expand)) :
    MakesOperand (reduceOperand expand depth L.root?) t hole S (L.term.reduce expand) := by
  cases L with
  | absent => exact ⟨t, .absent, rfl, rfl, h, fun linked => linked⟩
  | node id token l r =>
      have made := makes id rfl
      show MakesOperand (do let _ ← reduceWithin expand depth id) t hole S _
      cases result : (Layout.node id token l r).term.reduce expand with
      | error e =>
          rw [result] at made
          obtain ⟨t', failed⟩ := made
          exact ⟨t', Edit.apply_bind_error failed _⟩
      | ok u =>
          rw [result] at made
          obtain ⟨t', L', id', done, -, term, held, links⟩ := made
          exact ⟨t', L', Edit.apply_bind_ok done _, term, held, links⟩

-- Reducing below a node makes the term that reducing makes of the one below it.
theorem makes_reduceWithin (rooted : Rooted expand) (L : Layout) {t : Tree} {hole : Hole}
    {S : Slots} {depth : Nat} {id : NodeId} (root : L.root? = some id)
    (h : t.Has (hole.site L + S)) (deep : L.term.size ≤ depth) :
    Makes (reduceWithin expand depth id) t hole S (L.term.reduce expand) := by
  induction L generalizing t hole S depth id with
  | absent => cases root
  | node id token l r ihl ihr =>
      cases root
      have deep : l.term.size + r.term.size + 1 ≤ depth := deep
      obtain ⟨depth, rfl⟩ : ∃ d, depth = d + 1 := ⟨depth - 1, by omega⟩
      have left : t.left? id = l.root? := hole.left? h
      have atLeft : t.Has ((hole.below ⟨id, token, false, r⟩).site l + S) := by
        rw [Hole.site_below]
        exact h
      have leftDeep : l.term.size ≤ depth := by omega
      have rightDeep : r.term.size ≤ depth := by omega
      have makesLeft := makes_operand atLeft fun id root => ihl root atLeft leftDeep
      rw [Layout.term, Term.reduce]
      cases leftResult : l.term.reduce expand with
      | error e =>
          rw [leftResult] at makesLeft
          obtain ⟨t', failed⟩ := makesLeft
          refine ⟨t', ?_⟩
          rw [reduceWithin_succ, Edit.apply_bind_ok (Edit.apply_get t), left]
          exact Edit.apply_bind_error failed _
      | ok u =>
          rw [leftResult] at makesLeft
          obtain ⟨t₁, l', reduced, rfl, held, links⟩ := makesLeft
          rw [Hole.site_below] at held
          have held : t₁.Has (hole.site (.node id token l' r) + S) := held
          have right : t₁.right? id = r.root? := hole.right? held
          have atRight : t₁.Has ((hole.below ⟨id, token, true, l'⟩).site r + S) := by
            rw [Hole.site_below]
            exact held
          have makesRight := makes_operand atRight fun id root => ihr root atRight rightDeep
          cases rightResult : r.term.reduce expand with
          | error e =>
              rw [rightResult] at makesRight
              obtain ⟨t', failed⟩ := makesRight
              refine ⟨t', ?_⟩
              rw [reduceWithin_succ, Edit.apply_bind_ok (Edit.apply_get t), left,
                Edit.apply_bind_ok reduced, Edit.apply_bind_ok (Edit.apply_get t₁), right]
              exact Edit.apply_bind_error failed _
          | ok v =>
              rw [rightResult] at makesRight
              obtain ⟨t₂, r', reduced', rfl, held', links'⟩ := makesRight
              rw [Hole.site_below] at held'
              have held' : t₂.Has (hole.site (.node id token l' r') + S) := held'
              have run : (reduceWithin expand (depth + 1) id).apply t
                  = (settle expand id).apply t₂ := by
                rw [reduceWithin_succ, Edit.apply_bind_ok (Edit.apply_get t), left,
                  Edit.apply_bind_ok reduced, Edit.apply_bind_ok (Edit.apply_get t₁), right,
                  Edit.apply_bind_ok reduced']
              exact (makes_settle rooted held').after run fun linked => links' (links linked)

end Reduction

namespace Tree

open Reduction

/-- Reducing what a tree holds and making it compact is planting the reduced term. -/
theorem reduce_held {expand : String → Except Failure Tree} (rooted : Rooted expand) {t : Tree}
    {L : Layout} {root : NodeId} (h : t.Has (L.slots none)) (isRoot : L.root? = some root) :
    (do
      let (root, t) := t.reduce expand root
      return t.compact (← root) : Except Failure Tree)
      = (L.term.reduce expand).map empty.plant := by
  have held : t.Has (Hole.root.site L + 0) :=
    h.congr (by rw [Hole.site_root, add_zero])
  have deep : L.term.size ≤ t.size := by
    rw [← Layout.card_slots _ none]
    exact h.card_le_size
  have made := makes_reduceWithin rooted L isRoot held deep
  show (match (reduceWithin expand t.size root).apply t with
    | (root, t) => (do return t.compact (← root) : Except Failure Tree)) = _
  cases result : L.term.reduce expand with
  | error e =>
      rw [result] at made
      obtain ⟨t', failed⟩ := made
      rw [failed]
      rfl
  | ok u =>
      rw [result] at made
      obtain ⟨t', L', id, done, atRoot, rfl, held', -⟩ := made
      cases L' with
      | absent => cases atRoot
      | node id' token l r =>
          cases atRoot
          have read : t'.term id = .node token l.term r.term := Has.term held'.left
          rw [done]
          show Except.ok (empty.plant (t'.term id)) = _
          rw [read]
          rfl

/-- Reducing a planted term and making it compact is planting the reduced term. -/
theorem reduce_plant {expand : String → Except Failure Tree} (rooted : Rooted expand) {term : Term}
    (there : term ≠ .absent) :
    (do
      let (root, t) := (empty.plant term).reduce expand first
      return t.compact (← root) : Except Failure Tree)
      = (term.reduce expand).map empty.plant := by
  have held := (Has.empty empty).plant term
  have isRoot : (Layout.ofTerm empty.size term).root? = some first := by
    cases term with
    | absent => exact absurd rfl there
    | node token left right => rfl
  rw [reduce_held rooted (held.congr (add_zero _)) isRoot, Layout.term_ofTerm]

end Tree

end FormulaLang
