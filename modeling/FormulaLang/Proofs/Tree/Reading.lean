import FormulaLang.Proofs.Tree.Surgery
import Mathlib.Data.Multiset.Range

/-!
Reading layouts back.  A tree has no more slots than places, so that its depth bounds suffice: the
term, the nodes in order and the root above a node are those of the layout around it.
-/

namespace FormulaLang

namespace Term

theorem length_nodesAt (parent? : Option NodeId) (id : NodeId) (t : Term) :
    (t.nodesAt parent? id).length = t.size := by
  induction t generalizing parent? id with
  | absent => rfl
  | node token left right hl hr =>
    rw [nodesAt, List.length_cons, List.length_append, hl, hr, size]

end Term

namespace Layout

/-- The places in the order of reading, operands first. -/
def postOrder : Layout → List NodeId
  | absent => []
  | node id _ left right => left.postOrder ++ right.postOrder ++ [id]

/-- A term with places from `id` on, in the order node, left operand, right operand. -/
def ofTerm (id : NodeId) : Term → Layout
  | .absent => absent
  | .node token left right =>
      node id token (ofTerm (id + 1) left) (ofTerm (id + 1 + left.size) right)

theorem term_ofTerm (id : NodeId) (term : Term) : (ofTerm id term).term = term := by
  induction term generalizing id with
  | absent => rfl
  | node token left right hl hr => rw [ofTerm, Layout.term, hl, hr]

theorem root?_ofTerm (id : NodeId) (term : Term) :
    (ofTerm id term).root? = if term.size = 0 then none else some id := by
  cases term with
  | absent => rfl
  | node token left right => rw [if_neg (by simp [Term.size])]; rfl

-- The slots of a copy are those written one after the other.
theorem slots_ofTerm (id : NodeId) (parent? : Option NodeId) (term : Term) :
    (ofTerm id term).slots parent? =
      (((term.nodesAt parent? id).zipIdx id).map Prod.swap : List (NodeId × Node)) := by
  induction term generalizing id parent? with
  | absent => rfl
  | node token left right hl hr =>
    have count : (left.nodesAt (some id) (id + 1)).length = left.size :=
      left.length_nodesAt (some id) (id + 1)
    rw [ofTerm, slots, hl, hr, root?_ofTerm, root?_ofTerm]
    rw [Term.nodesAt, List.zipIdx_cons, List.map_cons, List.zipIdx_append, List.map_append, count]
    rw [← Multiset.cons_coe, ← Multiset.coe_add]
    exact Multiset.singleton_add _ _

theorem card_slots (L : Layout) (parent? : Option NodeId) :
    (L.slots parent?).card = L.term.size := by
  induction L generalizing parent? with
  | absent => rfl
  | node id token left right hl hr =>
    rw [slots, Multiset.card_add, Multiset.card_add, Multiset.card_singleton, hl, hr]
    show _ = left.term.size + right.term.size + 1
    omega

end Layout

namespace Path

theorem length_le_card_slots (path : Path) (operand? : Option NodeId) :
    path.length ≤ (path.slots operand?).card := by
  induction path generalizing operand? with
  | nil => exact Nat.zero_le _
  | cons s rest ih =>
    rw [slots, Multiset.card_add, Multiset.card_add, Multiset.card_singleton, List.length_cons]
    have := ih (some s.id)
    omega

end Path

namespace Tree

theorem termWithin_succ {t : Tree} {id : NodeId} {n : Node} (depth : Nat)
    (found : t.node? id = some n) :
    t.termWithin (depth + 1) id = .node n.token (n.left?.elim .absent (t.termWithin depth))
      (n.right?.elim .absent (t.termWithin depth)) := by
  obtain ⟨token, parent?, left?, right?⟩ := n
  rw [termWithin, found]
  cases left? <;> cases right? <;> rfl

theorem postOrderWithin_succ (t : Tree) (depth : Nat) (id : NodeId) :
    t.postOrderWithin (depth + 1) id = (t.left? id).elim [] (t.postOrderWithin depth)
      ++ (t.right? id).elim [] (t.postOrderWithin depth) ++ [id] := by
  rw [postOrderWithin]
  cases t.left? id <;> cases t.right? id <;> rfl

namespace Has

variable {t : Tree} {S : Slots} {path : Path} {id : NodeId} {token : Token} {l r : Layout}

-- There are no more slots than places.
theorem card_le_size (h : t.Has S) : S.card ≤ t.size := by
  have places : S.map Prod.fst ≤ Multiset.range t.size := by
    rw [Multiset.le_iff_subset h.distinct]
    intro id listed
    obtain ⟨s, mem, rfl⟩ := Multiset.mem_map.mp listed
    exact Multiset.mem_range.mpr (lt_size_of_node? (h.held s mem))
  have count := Multiset.card_le_card places
  rw [Multiset.card_map, Multiset.card_range] at count
  exact count

-- With as many slots as places, every place has its slot.
theorem mem_of_full (h : t.Has S) (full : t.size = S.card) {n : Node}
    (found : t.node? id = some n) : (id, n) ∈ S := by
  have places : S.map Prod.fst = Multiset.range t.size := by
    refine Multiset.eq_of_le_of_card_le ?_ ?_
    · rw [Multiset.le_iff_subset h.distinct]
      intro id listed
      obtain ⟨s, mem, rfl⟩ := Multiset.mem_map.mp listed
      exact Multiset.mem_range.mpr (lt_size_of_node? (h.held s mem))
    · rw [Multiset.card_range, Multiset.card_map, full]
  have listed : id ∈ S.map Prod.fst := by
    rw [places]
    exact Multiset.mem_range.mpr (lt_size_of_node? found)
  obtain ⟨⟨id, n'⟩, mem, rfl⟩ := Multiset.mem_map.mp listed
  have same := h.held _ mem
  rw [found] at same
  cases same
  exact mem

/-! ## Downwards -/

section

-- A reading that makes something of each node and of what it makes of the operands.
variable {α : Type} (value : Layout → α) (read : Nat → NodeId → α)
  (step : ∀ depth id token parent? l r, t.node? id = some ⟨token, parent?, l.root?, r.root?⟩ →
    l.root?.elim (value .absent) (read depth) = value l →
    r.root?.elim (value .absent) (read depth) = value r →
      read (depth + 1) id = value (.node id token l r))

include step

theorem readWithin {L : Layout} {parent? : Option NodeId} {depth : Nat}
    (h : t.Has (L.slots parent? + S)) (deep : L.term.size ≤ depth) :
    L.root?.elim (value .absent) (read depth) = value L := by
  induction L generalizing parent? depth S with
  | absent => rfl
  | node id token left right hl hr =>
    have deep : left.term.size + right.term.size + 1 ≤ depth := deep
    obtain ⟨depth, rfl⟩ : ∃ d, depth = d + 1 := ⟨depth - 1, by omega⟩
    rw [Layout.slots, add_assoc] at h
    have below := h.right
    rw [add_assoc] at below
    have leftDeep : left.term.size ≤ depth := by omega
    have readLeft := hl below leftDeep
    rw [add_left_comm] at below
    have rightDeep : right.term.size ≤ depth := by omega
    have readRight := hr below rightDeep
    exact step depth id token parent? left right h.node? readLeft readRight

-- What is read from a layout is made of it.
theorem readWhole {parent? : Option NodeId}
    (h : t.Has ((Layout.node id token l r).slots parent? + S)) :
    read t.size id = value (.node id token l r) := by
  refine readWithin value read step h ?_
  rw [← Layout.card_slots _ parent?]
  exact h.left.card_le_size

end

-- The term below a node.
theorem term {parent? : Option NodeId}
    (h : t.Has ((Layout.node id token l r).slots parent? + S)) :
    t.term id = .node token l.term r.term := by
  refine readWhole Layout.term t.termWithin
    (fun depth id token parent? l r found left right => ?_) h
  rw [termWithin_succ depth found]
  exact congrArg₂ (Term.node token) left right

-- The nodes below a node, operands first.
theorem postOrder {parent? : Option NodeId}
    (h : t.Has ((Layout.node id token l r).slots parent? + S)) :
    t.postOrder id = (Layout.node id token l r).postOrder := by
  refine readWhole Layout.postOrder t.postOrderWithin
    (fun depth id token parent? l r found left right => ?_) h
  rw [postOrderWithin_succ, Tree.left?, Tree.right?, found, Layout.postOrder, ← left, ← right]
  rfl

/-! ## Upwards -/

theorem topWithin {count : Nat} (h : t.Has (path.site (.node id token l r) + S))
    (enough : path.length ≤ count) :
    some (t.topWithin count id) = (path.plug (.node id token l r)).root? := by
  induction path generalizing id token l r count with
  | nil =>
    have above : t.parent? id = none := parent? h
    cases count with
    | zero => rfl
    | succ count =>
      rw [Tree.topWithin, above]
      rfl
  | cons s rest ih =>
    obtain ⟨count, rfl⟩ : ∃ c, count = c + 1 := ⟨count - 1, by simp at enough; omega⟩
    have above : t.parent? id = some s.id := parent? h
    obtain ⟨l', r', filled⟩ := s.fill_eq_node (.node id token l r)
    rw [Path.site_cons, filled] at h
    rw [Tree.topWithin, above, Path.plug, filled]
    exact ih h (Nat.le_of_succ_le_succ enough)

-- The root above a node.
theorem top (h : t.Has (path.site (.node id token l r) + S)) :
    some (t.top id) = (path.plug (.node id token l r)).root? := by
  refine h.topWithin ?_
  have most := h.left.card_le_size
  have long := path.length_le_card_slots (some id)
  unfold Path.site at most
  rw [Multiset.card_add] at most
  have : path.length ≤ (path.slots (some id)).card := long
  show path.length ≤ t.size
  exact Nat.le_trans this (Nat.le_trans (Nat.le_add_left _ _) most)

/-! ## Copies -/

-- A copy of a term has places of its own, from the former size on.
theorem plant (h : t.Has S) (term : Term) :
    (t.plant term).Has ((Layout.ofTerm t.size term).slots none + S) where
  held s mem := by
    unfold Tree.node? Tree.plant
    rcases Multiset.mem_add.mp mem with here | other
    · rw [Layout.slots_ofTerm, Multiset.mem_coe, List.mem_map] at here
      obtain ⟨⟨n, id⟩, listed, rfl⟩ := here
      obtain ⟨above, found⟩ := List.mk_mem_zipIdx_iff_le_and_getElem?_sub.mp listed
      show (t.nodes ++ _)[id]? = some n
      rw [Array.getElem?_append_right above, List.getElem?_toArray]
      exact found
    · have below := lt_size_of_node? (h.held s other)
      rw [Array.getElem?_append_left below]
      exact h.held s other
  distinct := by
    rw [Multiset.map_add, Layout.slots_ofTerm, Multiset.map_coe, List.map_map,
      Multiset.nodup_add]
    have places : List.map (Prod.fst ∘ Prod.swap)
        ((term.nodesAt none t.size).zipIdx t.size) = List.range' t.size term.size := by
      rw [← term.length_nodesAt none t.size]
      exact List.zipIdx_map_snd t.size (term.nodesAt none t.size)
    rw [places]
    refine ⟨Multiset.coe_nodup.mpr (List.nodup_range' _), h.distinct, ?_⟩
    rw [Multiset.disjoint_left]
    intro id new old
    obtain ⟨s, mem, rfl⟩ := Multiset.mem_map.mp old
    have below := lt_size_of_node? (h.held s mem)
    have above := (List.mem_range'_1.mp (Multiset.mem_coe.mp new)).1
    exact Nat.lt_irrefl _ (Nat.lt_of_lt_of_le below above)

-- A fresh tree with a copy of a term holds this term.
theorem term_plant (term : Term) : (Tree.empty.plant term).term Tree.first = term := by
  have held := (Has.empty Tree.empty).plant term
  cases term with
  | absent => rfl
  | node token left right =>
    have read := Has.term held
    rw [Layout.term_ofTerm, Layout.term_ofTerm] at read
    exact read

end Has

end Tree

end FormulaLang
