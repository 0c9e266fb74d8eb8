import FormulaLang.Proofs.Reduction.WellFormed
import FormulaLang.Proofs.Tree.Substitution
import Mathlib.Data.Fintype.Card

/-!
A part of a tree with what is around it.  When every node below a node is reached by one route, the
tree holds a layout there, and the rest of the tree is a hole around it: whatever takes the place of
the part, only the link to its root changes.
-/

namespace FormulaLang

/-- Lets the links to `old` lead elsewhere. -/
def Node.lead (old : NodeId) (operand? : Option NodeId) (n : Node) : Node :=
  { n with
    left? := if n.left? = some old then operand? else n.left?
    right? := if n.right? = some old then operand? else n.right? }

namespace Node

variable {n : Node} {old : NodeId}

theorem lead_self (old : NodeId) (n : Node) : n.lead old (some old) = n := by
  cases n
  simp only [lead, mk.injEq, true_and]
  constructor <;> split <;> simp [*]

theorem lead_of_ne (left : n.left? ≠ some old) (right : n.right? ≠ some old)
    (operand? : Option NodeId) : n.lead old operand? = n := by
  simp only [lead, if_neg left, if_neg right]

-- Exchanging where the link leads.
theorem relink_lead {cur : NodeId} (new : NodeId) (link : n.left? = some old ∨ n.right? = some old)
    (once : n.left? = some old → n.right? ≠ some old)
    (apart : n.left? ≠ some old → n.left? ≠ some cur) :
    (let led := n.lead old (some cur)
      if led.left? = some cur then { led with left? := some new }
      else if led.right? = some cur then { led with right? := some new }
      else led) = n.lead old (some new) := by
  simp only [lead]
  by_cases left : n.left? = some old
  · simp [left, once left]
  · simp [left, apart left, link.resolve_left left]

end Node

namespace Layout

-- Every node but the root has its parent in the layout.
theorem parent_of_slot {L : Layout} {parent? : Option NodeId} {id : NodeId} {n : Node}
    (h : (id, n) ∈ L.slots parent?) :
    L.root? = some id ∧ n.parent? = parent? ∨ ∃ above ∈ L.postOrder, n.parent? = some above := by
  induction L generalizing parent? with
  | absent => exact absurd h (Multiset.notMem_zero _)
  | node top token left right ihl ihr =>
    rcases Multiset.mem_add.mp h with here | below
    · cases Multiset.mem_singleton.mp here
      exact .inl ⟨rfl, rfl⟩
    · refine .inr ?_
      simp only [postOrder, List.mem_append, List.mem_singleton]
      rcases Multiset.mem_add.mp below with below | below
      · rcases ihl below with ⟨-, parent⟩ | ⟨above, mem, parent⟩
        · exact ⟨top, .inr rfl, parent⟩
        · exact ⟨above, .inl (.inl mem), parent⟩
      · rcases ihr below with ⟨-, parent⟩ | ⟨above, mem, parent⟩
        · exact ⟨top, .inr rfl, parent⟩
        · exact ⟨above, .inl (.inr mem), parent⟩

theorem mem_postOrder {L : Layout} {id : NodeId} :
    id ∈ L.postOrder ↔ ∃ route, (L.part route).root? = some id := by
  rw [← Multiset.mem_coe, ← L.map_slots none, Multiset.mem_map]
  constructor
  · rintro ⟨⟨id, n⟩, mem, rfl⟩
    obtain ⟨route, l, r, found⟩ := part_of_slot mem
    exact ⟨route, congrArg root? found⟩
  · rintro ⟨route, ends⟩
    cases found : L.part route with
    | absent =>
      rw [found] at ends
      cases ends
    | node top token l r =>
      rw [found] at ends
      cases ends
      exact ⟨_, slot_of_part found, rfl⟩

end Layout

namespace Tree

/-- Every node below a node is reached from it by one route. -/
structure IsTree (t : Tree) (root : NodeId) : Prop where
  present : root < t.size
  unique : ∀ route route' id, t.follow root route = some id → t.follow root route' = some id →
    route = route'

/-- Below a node, every link to an operand is answered by a link to the parent. -/
def LinksBack (t : Tree) (root : NodeId) : Prop :=
  ∀ route id child, t.follow root route = some id →
    (t.left? id = some child ∨ t.right? id = some child) → t.parent? child = some id

variable {t : Tree} {root id : NodeId} {route : Route} {L : Layout}

-- The places of a layout are the nodes that are reached from its root.
theorem Has.mem_postOrder {S : Slots} {parent? : Option NodeId}
    (h : t.Has (L.slots parent? + S)) (top : L.root? = some root) :
    id ∈ L.postOrder ↔ ∃ route, t.follow root route = some id := by
  simp only [Layout.mem_postOrder, follow_eq h top]

theorem follow_append (t : Tree) (root : NodeId) (route rest : Route) :
    t.follow root (route ++ rest) = (t.follow root route).bind fun id => t.follow id rest := by
  induction route generalizing root with
  | nil => rfl
  | cons onRight route ih =>
    simp only [List.cons_append, follow, ih, Option.bind_assoc]

theorem follow_singleton (t : Tree) (root : NodeId) (onRight : Bool) :
    t.follow root [onRight] = if onRight then t.right? root else t.left? root := by
  simp only [follow, Option.bind_fun_some]

theorem links_of_follow_singleton {child : NodeId} {onRight : Bool}
    (h : t.follow id [onRight] = some child) :
    t.left? id = some child ∨ t.right? id = some child := by
  rw [follow_singleton] at h
  cases onRight with
  | false => exact .inl h
  | true => exact .inr h

theorem Linked.linksBack (h : t.Linked) (root : NodeId) : t.LinksBack root :=
  fun _ id child _ link => (h.both id child).mp link

theorem LinksBack.below (h : t.LinksBack root) (reached : t.follow root route = some id) :
    t.LinksBack id :=
  fun rest i child follows link =>
    h (route ++ rest) i child (by rw [follow_append, reached]; exact follows) link

theorem LinksBack.follow_lt (h : t.LinksBack root) (present : root < t.size)
    (reached : t.follow root route = some id) : id < t.size := by
  cases route using List.reverseRecOn with
  | nil =>
    cases reached
    exact present
  | append_singleton front onRight =>
    rw [follow_append] at reached
    obtain ⟨above, front, last⟩ := Option.bind_eq_some_iff.mp reached
    exact lt_of_parent? (h _ above id front (links_of_follow_singleton last))

-- The listing of the nodes below a node misses none that is not too deep.
theorem mem_postOrderWithin {depth : Nat} (reached : t.follow root route = some id)
    (deep : route.length < depth) : id ∈ t.postOrderWithin depth root := by
  induction route generalizing root depth with
  | nil =>
    obtain ⟨depth, rfl⟩ : ∃ d, depth = d + 1 := ⟨depth - 1, by omega⟩
    cases reached
    simp [postOrderWithin_succ]
  | cons onRight route ih =>
    obtain ⟨depth, rfl⟩ : ∃ d, depth = d + 1 := ⟨depth - 1, by omega⟩
    obtain ⟨child, link, onward⟩ := Option.bind_eq_some_iff.mp reached
    have mem := ih onward (Nat.lt_of_succ_lt_succ deep)
    rw [postOrderWithin_succ]
    cases onRight with
    | false => simp [show t.left? root = some child from link, mem]
    | true => simp [show t.right? root = some child from link, mem]

namespace IsTree

theorem below (h : t.IsTree root) (back : t.LinksBack root)
    (reached : t.follow root route = some id) : t.IsTree id where
  present := back.follow_lt h.present reached
  unique rest rest' i follows follows' := by
    have same := h.unique (route ++ rest) (route ++ rest') i
      (by rw [follow_append, reached]; exact follows)
      (by rw [follow_append, reached]; exact follows')
    exact List.append_cancel_left same

-- A route visits every node once, so none is longer than the tree has nodes.
theorem length_lt (h : t.IsTree root) (reached : t.follow root route = some id)
    (within : ∀ k i, t.follow root (route.take k) = some i → i < t.size) :
    route.length < t.size := by
  have visits (k : Fin (route.length + 1)) :
      ∃ i : Fin t.size, t.follow root (route.take k) = some i.1 := by
    have whole := reached
    rw [← List.take_append_drop k route, follow_append] at whole
    obtain ⟨i, here, -⟩ := Option.bind_eq_some_iff.mp whole
    exact ⟨⟨i, within k i here⟩, here⟩
  choose visit visited using visits
  have once : Function.Injective visit := by
    intro k k' same
    have routes := h.unique _ _ _ (visited k) (same ▸ visited k')
    have lengths := congrArg List.length routes
    rw [List.length_take, List.length_take] at lengths
    omega
  have count := Fintype.card_le_of_injective visit once
  rw [Fintype.card_fin, Fintype.card_fin] at count
  exact count

/-- The check of the links below the root of a tree, which reads no deeper than there are nodes,
finds every link. -/
theorem linksBack (h : t.IsTree root) (consistent : t.isConsistent root = true) :
    t.LinksBack root := by
  have answered {route : Route} {id child : NodeId} (reached : t.follow root route = some id)
      (deep : route.length < t.size) (link : t.left? id = some child ∨ t.right? id = some child) :
      t.parent? child = some id := by
    have all := List.all_eq_true.mp consistent id (mem_postOrderWithin reached deep)
    refine eq_of_beq (List.all_eq_true.mp all child ?_)
    simpa using link
  -- by the length of the route: the nodes before its end are places, so it is not too long
  have within (length : Nat) : ∀ route id, route.length = length →
      t.follow root route = some id → id < t.size := by
    induction length using Nat.strongRecOn with
    | ind length ih =>
      intro route id long reached
      cases route using List.reverseRecOn with
      | nil =>
        cases reached
        exact h.present
      | append_singleton front onRight =>
        rw [follow_append] at reached
        obtain ⟨above, before, last⟩ := Option.bind_eq_some_iff.mp reached
        rw [List.length_append, List.length_singleton] at long
        have deep := h.length_lt before fun k i follows =>
          ih (front.take k).length (by rw [List.length_take]; omega) _ i rfl follows
        exact lt_of_parent? (answered before deep (links_of_follow_singleton last))
  intro route id child reached link
  exact answered reached (h.length_lt reached fun k i => within _ _ i rfl) link

-- The operands of a node have layouts whose places are reached through them.
theorem exists_operand {depth : Nat} (h : t.IsTree root) (back : t.LinksBack root)
    (deep : ∀ route id, t.follow root route = some id → route.length < depth + 1)
    (layouts : ∀ child, t.IsTree child → t.LinksBack child →
      (∀ route id, t.follow child route = some id → route.length < depth) →
        ∃ L : Layout, L.root? = some child ∧ t.Has (L.slots (t.parent? child)))
    (onRight : Bool) :
    ∃ M : Layout, M.root? = (if onRight then t.right? root else t.left? root) ∧
      t.Has (M.slots (some root)) ∧
        ∀ id ∈ M.postOrder, ∃ rest, t.follow root (onRight :: rest) = some id := by
  cases link : (if onRight then t.right? root else t.left? root) with
  | none => exact ⟨.absent, rfl, Has.empty t, nofun⟩
  | some child =>
    have onward (rest : Route) : t.follow root (onRight :: rest) = t.follow child rest := by
      rw [follow, link, Option.bind_some]
    have parent : t.parent? child = some root :=
      back [] root child rfl (links_of_follow_singleton (onward []))
    obtain ⟨M, top, held⟩ := layouts child (h.below back (onward [])) (back.below (onward []))
      fun rest id follows =>
        Nat.lt_of_succ_lt_succ (deep (onRight :: rest) id ((onward rest).trans follows))
    rw [parent] at held
    refine ⟨M, top, held, fun id mem => ?_⟩
    obtain ⟨rest, follows⟩ := ((held.congr (add_zero _).symm).mem_postOrder top).mp mem
    exact ⟨rest, (onward rest).trans follows⟩

-- Operands that are reached by different routes have different places.
theorem nodup_postOrder {l r : Layout} {token : Token} (h : t.IsTree root)
    (left : l.postOrder.Nodup) (right : r.postOrder.Nodup)
    (onLeft : ∀ id ∈ l.postOrder, ∃ rest, t.follow root (false :: rest) = some id)
    (onRight : ∀ id ∈ r.postOrder, ∃ rest, t.follow root (true :: rest) = some id) :
    (Layout.node root token l r).postOrder.Nodup := by
  have apart {route route' : Route} {id : NodeId} (differ : route ≠ route')
      (reached : t.follow root route = some id) : t.follow root route' ≠ some id :=
    fun reached' => differ (h.unique route route' id reached reached')
  simp only [Layout.postOrder, List.nodup_append, List.mem_append, List.mem_singleton]
  refine ⟨⟨left, right, fun i inLeft j inRight same => ?_⟩, List.nodup_singleton root,
    fun i among j top same => ?_⟩
  · obtain ⟨rest, reached⟩ := onLeft i inLeft
    obtain ⟨rest', reached'⟩ := onRight j inRight
    exact apart (by simp) reached (same ▸ reached')
  · subst same top
    have reached : t.follow i [] = some i := rfl
    rcases among with among | among
    · obtain ⟨rest, around⟩ := onLeft i among
      exact apart (by simp) reached around
    · obtain ⟨rest, around⟩ := onRight i among
      exact apart (by simp) reached around

-- What is below the root of a tree has a layout.
theorem exists_layoutWithin {depth : Nat} (h : t.IsTree root) (back : t.LinksBack root)
    (deep : ∀ route id, t.follow root route = some id → route.length < depth) :
    ∃ L : Layout, L.root? = some root ∧ t.Has (L.slots (t.parent? root)) := by
  induction depth generalizing root with
  | zero => exact absurd (deep [] root rfl) (Nat.not_lt_zero _)
  | succ depth ih =>
    obtain ⟨n, found⟩ := node?_of_lt h.present
    have operand := h.exists_operand back deep fun child isTree links => ih isTree links
    obtain ⟨l, leftRoot, left, onLeft⟩ := operand false
    obtain ⟨r, rightRoot, right, onRight⟩ := operand true
    refine ⟨.node root n.token l r, rfl, fun s mem => ?_, ?_⟩
    · rcases Multiset.mem_add.mp mem with here | mem
      · obtain rfl := Multiset.mem_singleton.mp here
        rw [leftRoot, rightRoot, parent?, right?, left?, found]
        rfl
      · exact (Multiset.mem_add.mp mem).elim (left.held s) (right.held s)
    · have leftPlaces := left.distinct
      have rightPlaces := right.distinct
      rw [Layout.map_slots, Multiset.coe_nodup] at leftPlaces rightPlaces ⊢
      exact h.nodup_postOrder leftPlaces rightPlaces onLeft onRight

/-- A part whose links are answered and whose nodes are reached by one route has a layout. -/
theorem exists_layout_of_linksBack (h : t.IsTree root) (back : t.LinksBack root) :
    ∃ L : Layout, L.root? = some root ∧ t.Has (L.slots (t.parent? root)) :=
  h.exists_layoutWithin back fun _ _ reached =>
    h.length_lt reached fun _ _ => back.follow_lt h.present

/-- In a linked tree all links are answered. -/
theorem exists_layout (h : t.IsTree root) (linked : t.Linked) :
    ∃ L : Layout, L.root? = some root ∧ t.Has (L.slots (t.parent? root)) :=
  h.exists_layout_of_linksBack (linked.linksBack root)

end IsTree

-- The term below the root of a layout.
theorem Has.term_root {S : Slots} {parent? : Option NodeId} (h : t.Has (L.slots parent? + S))
    (top : L.root? = some root) : t.term root = L.term := by
  cases L with
  | absent => cases top
  | node id token l r =>
    cases top
    exact h.term

theorem Has.parent?_top {S : Slots} {parent? : Option NodeId}
    (h : t.Has (L.slots parent? + S)) (top : L.root? = some root) : t.parent? root = parent? := by
  cases L with
  | absent => cases top
  | node id token l r =>
    cases top
    exact h.parent?_root

-- What is reached from the root of a layout has its slot there.
theorem Has.slot_of_follow {S : Slots} {parent? : Option NodeId}
    (h : t.Has (L.slots parent? + S)) (top : L.root? = some root)
    (reached : t.follow root route = some id) :
    ∃ n, (id, n) ∈ L.slots parent? ∧ t.node? id = some n := by
  have mem := (h.mem_postOrder top).mpr ⟨route, reached⟩
  rw [← Multiset.mem_coe, ← L.map_slots parent?] at mem
  obtain ⟨⟨id, n⟩, slot, rfl⟩ := Multiset.mem_map.mp mem
  exact ⟨n, slot, h.left.held _ slot⟩

-- What has a layout is reached by one route.
theorem Has.isTree {S : Slots} {parent? : Option NodeId} (h : t.Has (L.slots parent? + S))
    (top : L.root? = some root) : t.IsTree root where
  present := by
    cases L with
    | absent => cases top
    | node id token l r =>
      cases top
      exact h.lt_size
  unique route route' id follows follows' := by
    rw [follow_eq h top] at follows follows'
    exact Layout.route_unique h.left.distinct follows follows'

-- No way leads back to where it starts.
theorem Has.acyclic {S : Slots} (h : t.Has (L.slots none + S)) (top : L.root? = some root)
    (loose : S.AreLoose) (full : t.size = (L.slots none + S).card) :
    t.follow id route = some id → route = [] := by
  intro around
  cases route with
  | nil => rfl
  | cons onRight rest =>
    obtain ⟨child, link, -⟩ := Option.bind_eq_some_iff.mp around
    have present : id < t.size := by
      cases onRight with
      | false => exact lt_of_left? link
      | true => exact lt_of_right? link
    obtain ⟨n, found⟩ := node?_of_lt present
    have tied : n.left? ≠ none ∨ n.right? ≠ none := by
      rw [Tree.left?, Tree.right?, found] at link
      cases onRight with
      | false => exact .inl fun none => by simp [none] at link
      | true => exact .inr fun none => by simp [none] at link
    have mem := Multiset.mem_map_of_mem Prod.fst (h.mem_of_tied loose full found (.inr tied))
    rw [Layout.map_slots, Multiset.mem_coe, h.mem_postOrder top] at mem
    obtain ⟨route, reached⟩ := mem
    have twice : t.follow root (route ++ onRight :: rest) = some id := by
      rw [follow_append, reached]
      exact around
    simpa using (h.isTree top).unique _ _ id twice reached

/-! ## Around a part -/

/-- The slots at other places. -/
def outside (t : Tree) (places : List NodeId) : Slots :=
  ((t.nodes.toList.zipIdx.filter fun e => e.2 ∉ places).map Prod.swap : List (NodeId × Node))

theorem mem_outside {places : List NodeId} {n : Node} :
    (id, n) ∈ t.outside places ↔ t.node? id = some n ∧ id ∉ places := by
  simp only [outside, Multiset.mem_coe, List.mem_map, List.mem_filter, Prod.exists,
    Prod.swap_prod_mk, Prod.mk.injEq, List.mem_zipIdx_iff_getElem?, Array.getElem?_toList,
    decide_eq_true_eq, node?]
  grind

theorem nodup_outside (t : Tree) (places : List NodeId) :
    ((t.outside places).map Prod.fst).Nodup := by
  rw [outside, Multiset.map_coe, List.map_map, Multiset.coe_nodup]
  have every : (t.nodes.toList.zipIdx.map Prod.snd).Nodup := by
    rw [List.zipIdx_map_snd]
    exact List.nodup_range'
  exact every.sublist (List.filter_sublist.map _)

/-- The slots around a part below `root`, by what its link leads to. -/
def surroundings (t : Tree) (root : NodeId) (L : Layout) (operand? : Option NodeId) : Slots :=
  (t.outside L.postOrder).map fun s => (s.1, s.2.lead root operand?)

section

variable {S : Slots} {n : Node} (linked : t.Linked)

include linked

-- Only the node above a root leads to it.
theorem Linked.lead_of_ne (found : t.node? id = some n) (other : t.parent? root ≠ some id)
    (operand? : Option NodeId) : n.lead root operand? = n := by
  have links := mt (linked.both id root).mp other
  rw [not_or, left?, right?, found] at links
  exact Node.lead_of_ne links.1 links.2 operand?

-- No link leads from outside into a part, but the one to its root.
theorem Linked.notMem_of_outside {up? : Option NodeId} {above : NodeId}
    (held : t.Has (L.slots up?)) (beyond : above ∉ L.postOrder) (other : L.root? ≠ some id)
    (link : t.left? above = some id ∨ t.right? above = some id) : id ∉ L.postOrder := by
  intro mem
  rw [← Multiset.mem_coe, ← L.map_slots up?] at mem
  obtain ⟨⟨id, n⟩, slot, rfl⟩ := Multiset.mem_map.mp mem
  rcases Layout.parent_of_slot slot with ⟨top, -⟩ | ⟨q, within, parent⟩
  · exact other top
  · have linked := (linked.both above id).mp link
    rw [parent?, held.held _ slot, Option.bind_some, parent] at linked
    cases linked
    exact beyond within

theorem Linked.surroundings_root (h : t.parent? root = none) (operand? : Option NodeId) :
    t.surroundings root L operand? = t.outside L.postOrder := by
  rw [surroundings]
  refine (Multiset.map_congr rfl fun s mem => ?_).trans (Multiset.map_id _)
  rw [linked.lead_of_ne (mem_outside.mp mem).1 (by simp [h])]
  rfl

-- The slot of the node above is the only one that changes with the link.
theorem Linked.surroundings_operand {above : NodeId} (parent : t.parent? root = some above)
    (found : t.node? above = some n) (beyond : above ∉ L.postOrder) :
    ∃ S, ∀ operand?, t.surroundings root L operand? = {(above, n.lead root operand?)} + S := by
  obtain ⟨S, split⟩ := Multiset.exists_cons_of_mem (mem_outside.mpr ⟨found, beyond⟩)
  refine ⟨S, fun operand? => ?_⟩
  rw [surroundings, split, Multiset.map_cons, Multiset.singleton_add]
  refine congrArg _ ((Multiset.map_congr rfl fun s mem => ?_).trans (Multiset.map_id _))
  have slot : (s.1, s.2) ∈ t.outside L.postOrder := by
    rw [split]
    exact Multiset.mem_cons_of_mem mem
  have distinct := t.nodup_outside L.postOrder
  rw [split, Multiset.map_cons, Multiset.nodup_cons] at distinct
  have other : t.parent? root ≠ some s.1 := by
    rintro same
    rw [parent] at same
    cases same
    exact distinct.1 (Multiset.mem_map.mpr ⟨s, mem, rfl⟩)
  rw [linked.lead_of_ne (mem_outside.mp slot).1 other]
  rfl

theorem Linked.beyond_of_parent? {up? : Option NodeId} {above : NodeId}
    (held : t.Has (L.slots up?)) (top : L.root? = some root)
    (parent : t.parent? root = some above) : above ∉ L.postOrder := by
  intro mem
  have whole := held.congr (add_zero _).symm
  obtain ⟨route, reached⟩ := (whole.mem_postOrder top).mp mem
  have back (onRight : Bool) :
      (if onRight then t.right? above else t.left? above) ≠ some root := fun link => by
    have around : t.follow root (route ++ [onRight]) = some root := by
      rw [follow_append, reached, Option.bind_some, follow_singleton, link]
    have same := (whole.isTree top).unique _ [] root around rfl
    simp at same
  exact ((linked.both above root).mpr parent).elim (back false) (back true)

-- The link to a part can be led elsewhere.
theorem Linked.relink_surroundings {up? : Option NodeId} {t' : Tree} {cur : NodeId}
    (held : t.Has (L.slots up?)) (top : L.root? = some root)
    (h : t'.Has ({(cur, n)} + (t.surroundings root L (some cur) + S))) (new : NodeId) :
    (t'.relink (t.parent? root) cur new).Has
      ({(cur, n)} + (t.surroundings root L (some new) + S)) := by
  cases parent : t.parent? root with
  | none =>
    rw [linked.surroundings_root parent] at h ⊢
    exact h
  | some above =>
    have beyond := linked.beyond_of_parent? held top parent
    have links := (linked.both above root).mpr parent
    obtain ⟨m, found⟩ := node?_of_lt (links.elim lt_of_left? lt_of_right?)
    have apart : m.left? ≠ some root → m.left? ≠ some cur := by
      intro other same
      have link : t.left? above = some cur := by rw [left?, found]; exact same
      have inside : cur ∉ L.postOrder := by
        refine linked.notMem_of_outside held beyond ?_ (.inl link)
        rw [top, ← same]
        exact fun e => other e.symm
      obtain ⟨m', found'⟩ := node?_of_lt (lt_of_parent? ((linked.both above cur).mp (.inl link)))
      refine h.ne_of_mem (s := (cur, m'.lead root (some cur))) ?_ rfl
      refine Multiset.mem_add.mpr (.inl (Multiset.mem_map.mpr ⟨(cur, m'), ?_, rfl⟩))
      exact mem_outside.mpr ⟨found', inside⟩
    have once := linked.once above root
    rw [left?, right?, found] at links
    rw [left?, right?, found] at once
    obtain ⟨rest, split⟩ := linked.surroundings_operand parent found beyond
    rw [split, add_assoc, add_left_comm] at h ⊢
    rw [← Node.relink_lead new links once apart]
    exact h.modify _

end

/-- What surrounds a part of a tree in which links lead both ways. -/
def around {up? : Option NodeId} (linked : t.Linked) (held : t.Has (L.slots up?))
    (top : L.root? = some root) : Hole where
  up? := t.parent? root
  slots := t.surroundings root L
  relink h := linked.relink_surroundings held top h

/-- A tree holds each of its parts with what is around it. -/
theorem Has.site_around (linked : t.Linked) (held : t.Has (L.slots (t.parent? root)))
    (top : L.root? = some root) : t.Has ((around linked held top).site L) := by
  have same : t.surroundings root L (some root) = t.outside L.postOrder := by
    refine (Multiset.map_congr rfl fun s _ => ?_).trans (Multiset.map_id _)
    rw [Node.lead_self]
    rfl
  show t.Has (L.slots (t.parent? root) + t.surroundings root L L.root?)
  rw [top, same]
  constructor
  · intro s mem
    rcases Multiset.mem_add.mp mem with within | beyond
    · exact held.held s within
    · exact (mem_outside.mp beyond).1
  · rw [Multiset.map_add, Multiset.nodup_add]
    refine ⟨held.distinct, t.nodup_outside _, Multiset.disjoint_left.mpr fun within beyond => ?_⟩
    rw [Layout.map_slots] at within
    obtain ⟨⟨id, n⟩, mem, rfl⟩ := Multiset.mem_map.mp beyond
    exact (mem_outside.mp mem).2 within

/-- Whatever takes the place of a part, the rest of the tree stays, but for the link to the part. -/
theorem Has.node?_around {t' : Tree} {S : Slots} {L' : Layout} {n : Node} (linked : t.Linked)
    (held : t.Has (L.slots (t.parent? root))) (top : L.root? = some root)
    (h : t'.Has ((around linked held top).site L' + S)) (found : t.node? id = some n)
    (beyond : id ∉ L.postOrder) : t'.node? id = some (n.lead root L'.root?) := by
  refine h.held (id, n.lead root L'.root?) (Multiset.mem_add.mpr (.inl ?_))
  have slot : (id, n.lead root L'.root?) ∈ t.surroundings root L L'.root? :=
    Multiset.mem_map.mpr ⟨(id, n), mem_outside.mpr ⟨found, beyond⟩, rfl⟩
  exact Multiset.mem_add.mpr (.inr slot)

end Tree

end FormulaLang
