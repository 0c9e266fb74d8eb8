import FormulaLang.Formula
import FormulaLang.Proofs.Reduction.Refinement

/-!
Substitution in a tree.  Going through the nodes below a root and putting a copy of a tree in the
place of each variable of a name makes the term in which the name is substituted.
-/

namespace FormulaLang

namespace Term

/-- A token over operands, or `sub` if the token is the variable `name`. -/
def put (name : String) (sub : Term) (token : Token) (left right : Term) : Term :=
  match token with
  | .var v => if v = name then sub else node (.var v) left right
  | token => node token left right

/-- Puts `sub` in the place of every variable `name`. -/
def subst (t : Term) (name : String) (sub : Term) : Term :=
  match t with
  | absent => absent
  | node token left right => put name sub token (left.subst name sub) (right.subst name sub)

end Term

namespace Layout

theorem map_slots (L : Layout) (parent? : Option NodeId) :
    (L.slots parent?).map Prod.fst = L.postOrder := by
  induction L generalizing parent? with
  | absent => rfl
  | node id token left right hl hr =>
    rw [slots, Multiset.map_add, Multiset.map_add, Multiset.map_singleton, hl, hr, postOrder]
    rw [← Multiset.coe_add, ← Multiset.coe_add, Multiset.coe_singleton]
    abel

end Layout

namespace Formula

variable {name : String} {sub : Tree} {t : Tree} {S : Slots} {path : Path}

/-- What substitution does at one node. -/
def substituteAt (name : String) (sub : Tree) : Tree × NodeId → NodeId → Tree × NodeId
  | (t, root), id =>
      match t.token? id with
      | some (.var v) =>
          if v = name then
            ((t.graft sub Tree.first).replace t.size id, if id = root then t.size else root)
          else
            (t, root)
      | _ => (t, root)

theorem substitute_eq (t : Tree) (root : NodeId) (name : String) (sub : Tree) :
    substitute t root name sub = (t.postOrder root).foldl (substituteAt name sub) (t, root) :=
  rfl

-- At a node whose operands are substituted: the copy, if there is one, takes the place of the node.
theorem substituteAt_held (name : String) (root : NodeId) {id : NodeId} {token : Token}
    {l r : Layout} (there : sub.term Tree.first ≠ .absent)
    (h : t.Has (path.site (.node id token l r) + S)) :
    ∃ t' L id', substituteAt name sub (t, root) id = (t', if id = root then id' else root)
      ∧ L.root? = some id' ∧ L.term = Term.put name (sub.term Tree.first) token l.term r.term
      ∧ t'.Has (path.site L + S) := by
  have found : t.token? id = some token := Tree.Has.token? h
  have unchanged : t.Has (path.site (.node id token l r) + S)
      ∧ (t, root) = (t, if id = root then id else root) := by
    refine ⟨h, ?_⟩
    split
    case isTrue same => rw [same]
    case isFalse => rfl
  cases token with
  | var v =>
    simp only [substituteAt, found, Term.put]
    split
    case isTrue =>
      obtain ⟨token, l', r', held, whole⟩ := Reduction.graft_held h there
      refine ⟨_, .node t.size token l' r', t.size, rfl, rfl, whole, ?_⟩
      exact held.replace.mono (add_le_add_right (Multiset.le_add_left _ _) _)
    case isFalse => exact ⟨t, _, id, unchanged.2, rfl, rfl, h⟩
  | _ =>
    simp only [substituteAt, found, Term.put]
    exact ⟨t, _, id, unchanged.2, rfl, rfl, h⟩

/-- Going through a layout substitutes in it.  A root that it does not contain stays the root, and
its own root is followed by the one that takes its place. -/
theorem foldl_substituteAt_held (there : sub.term Tree.first ≠ .absent) (L : Layout) {t : Tree}
    {path : Path} {root : NodeId} (h : t.Has (path.site L + S))
    (below : root ∉ L.postOrder.dropLast) :
    ∃ t' L' root', L.postOrder.foldl (substituteAt name sub) (t, root) = (t', root')
      ∧ L'.term = L.term.subst name (sub.term Tree.first) ∧ t'.Has (path.site L' + S)
      ∧ (root ∉ L.postOrder → root' = root) ∧ (L.root? = some root → L'.root? = some root') := by
  induction L generalizing t path with
  | absent => exact ⟨t, .absent, root, rfl, rfl, h, fun _ => rfl, nofun⟩
  | node id token l r ihl ihr =>
    rw [Layout.postOrder, List.dropLast_concat, List.mem_append, not_or] at below
    obtain ⟨outsideL, outsideR⟩ := below
    have atLeft : t.Has (Path.site (⟨id, token, false, r⟩ :: path) l + S) := by
      rw [Path.site_cons]
      exact h
    obtain ⟨t₁, l', root₁, passed, termL, held, stays, -⟩ :=
      ihl atLeft fun mem => outsideL ((List.dropLast_sublist _).subset mem)
    rw [stays outsideL] at passed
    rw [Path.site_cons] at held
    have held : t₁.Has (path.site (.node id token l' r) + S) := held
    have atRight : t₁.Has (Path.site (⟨id, token, true, l'⟩ :: path) r + S) := by
      rw [Path.site_cons]
      exact held
    obtain ⟨t₂, r', root₂, passed', termR, held', stays', -⟩ :=
      ihr atRight fun mem => outsideR ((List.dropLast_sublist _).subset mem)
    rw [stays' outsideR] at passed'
    rw [Path.site_cons] at held'
    have held' : t₂.Has (path.site (.node id token l' r') + S) := held'
    obtain ⟨t', L', id', last, atRoot, term, whole⟩ := substituteAt_held name root there held'
    refine ⟨t', L', if id = root then id' else root, ?_, ?_, whole, fun outside => ?_, fun isRoot => ?_⟩
    · rw [Layout.postOrder, List.foldl_append, List.foldl_append, passed, passed']
      exact last
    · rw [term, termL, termR]
      rfl
    · have other : id ≠ root := fun same => outside (by simp [Layout.postOrder, same])
      rw [if_neg other]
    · cases isRoot
      rw [if_pos rfl]
      exact atRoot

-- The root of a layout does not stand below itself.
theorem root_not_below {L : Layout} {parent? : Option NodeId} {root : NodeId}
    (h : t.Has (L.slots parent? + S)) (isRoot : L.root? = some root) :
    root ∉ L.postOrder.dropLast := by
  have places : (L.postOrder : Multiset NodeId).Nodup := by
    rw [← L.map_slots parent?]
    exact h.left.distinct
  cases L with
  | absent => cases isRoot
  | node id token l r =>
    cases isRoot
    rw [Layout.postOrder, Multiset.coe_nodup, List.nodup_append] at places
    rw [Layout.postOrder, List.dropLast_concat]
    exact fun mem => places.2.2 _ mem _ (List.mem_singleton_self _) rfl

/-- Substitution in a tree makes the term with the name substituted, below the new root. -/
theorem substitute_held (there : sub.term Tree.first ≠ .absent) {L : Layout} {root : NodeId}
    (h : t.Has (L.slots none + S)) (isRoot : L.root? = some root) :
    ∃ t' L' root', substitute t root name sub = (t', root')
      ∧ Layout.root? L' = some root'
      ∧ L'.term = L.term.subst name (sub.term Tree.first) ∧ t'.Has (L'.slots none + S) := by
  have order : t.postOrder root = L.postOrder := by
    cases L with
    | absent => cases isRoot
    | node id token l r =>
      cases isRoot
      exact Tree.Has.postOrder h
  have focused : t.Has (Path.site [] L + S) := by
    rw [Path.site_eq_slots_plug]
    exact h
  obtain ⟨t', L', root', passed, term, held, -, atRoot⟩ :=
    foldl_substituteAt_held there L focused (root_not_below h isRoot)
  rw [Path.site_eq_slots_plug] at held
  refine ⟨t', L', root', ?_, atRoot isRoot, term, held⟩
  rw [substitute_eq, order]
  exact passed

end Formula

end FormulaLang
