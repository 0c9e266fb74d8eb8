import FormulaLang.Tree
import Mathlib.Algebra.Order.Group.Multiset
import Mathlib.Tactic.Abel

/-!
What a tree holds.  A layout is a term whose nodes have places, and a path leads from a place inside
a layout up to its root.  A tree holds slots when it has them at their places; surgery is described
by what it does to the slots, which may be held in any order, beside any others.
-/

namespace FormulaLang

/-- A term whose nodes have places. -/
inductive Layout where
  | absent
  | node (id : NodeId) (token : Token) (left right : Layout)

/-- Places with what stands there. -/
abbrev Slots := Multiset (NodeId × Node)

namespace Layout

/-- The place of the root. -/
def root? : Layout → Option NodeId
  | absent => none
  | node id _ _ _ => some id

/-- The term without its places. -/
def term : Layout → Term
  | absent => .absent
  | node _ token left right => .node token left.term right.term

/-- One node. -/
def leaf (id : NodeId) (token : Token) : Layout :=
  node id token absent absent

/-- The slots of a layout below a parent. -/
def slots (parent? : Option NodeId) : Layout → Slots
  | absent => 0
  | node id token left right =>
      {(id, ⟨token, parent?, left.root?, right.root?⟩)}
        + (left.slots (some id) + right.slots (some id))

theorem root?_eq_none {L : Layout} : L.root? = none ↔ L.term = .absent := by
  cases L with
  | absent => exact ⟨fun _ => rfl, fun _ => rfl⟩
  | node id token left right => exact ⟨nofun, nofun⟩

theorem slots_leaf (parent? : Option NodeId) (id : NodeId) (token : Token) :
    (leaf id token).slots parent? = {(id, ⟨token, parent?, none, none⟩)} :=
  rfl

end Layout

/-- A step up from an operand to its operator, with what stands on the other side. -/
structure Step where
  id : NodeId
  token : Token
  /-- Whether the step starts from the right operand. -/
  onRight : Bool
  other : Layout

namespace Step

/-- The operator with the operand from which the step starts. -/
def fill (s : Step) (operand : Layout) : Layout :=
  if s.onRight then .node s.id s.token s.other operand else .node s.id s.token operand s.other

/-- The slot of the operator. -/
def node (s : Step) (parent? operand? : Option NodeId) : Node :=
  if s.onRight then ⟨s.token, parent?, s.other.root?, operand?⟩
  else ⟨s.token, parent?, operand?, s.other.root?⟩

theorem root?_fill (s : Step) (operand : Layout) : (s.fill operand).root? = some s.id := by
  unfold fill
  split <;> rfl

theorem fill_eq_node (s : Step) (operand : Layout) :
    ∃ l r, s.fill operand = .node s.id s.token l r := by
  unfold fill
  split
  · exact ⟨_, _, rfl⟩
  · exact ⟨_, _, rfl⟩

theorem slots_fill (s : Step) (parent? : Option NodeId) (operand : Layout) :
    (s.fill operand).slots parent? =
      {(s.id, s.node parent? operand.root?)}
        + (s.other.slots (some s.id) + operand.slots (some s.id)) := by
  unfold fill node
  split
  · rfl
  · rw [Layout.slots]
    abel

end Step

/-- The steps from a place up to the root, the first one first. -/
abbrev Path := List Step

namespace Path

/-- The operator that the path leads to first. -/
def up? (path : Path) : Option NodeId :=
  path.head?.map Step.id

/-- The slots on both sides of a path that starts below an operand. -/
def slots (operand? : Option NodeId) : Path → Slots
  | [] => 0
  | s :: rest =>
      {(s.id, s.node (up? rest) operand?)} + (s.other.slots (some s.id) + slots (some s.id) rest)

/-- The whole layout around an operand. -/
def plug : Path → Layout → Layout
  | [], focus => focus
  | s :: rest, focus => plug rest (s.fill focus)

/-- The slots of the whole layout around an operand. -/
def site (path : Path) (focus : Layout) : Slots :=
  focus.slots path.up? + path.slots focus.root?

-- Going up changes the view and no slot.
theorem site_cons (s : Step) (rest : Path) (focus : Layout) :
    site (s :: rest) focus = site rest (s.fill focus) := by
  unfold site
  rw [slots, s.slots_fill, s.root?_fill]
  show focus.slots (some s.id) + _ = _
  abel

theorem site_eq_slots_plug (path : Path) (focus : Layout) :
    site path focus = (plug path focus).slots none := by
  induction path generalizing focus with
  | nil => exact add_zero _
  | cons s rest ih => rw [site_cons, ih, plug]

end Path

/-! ## Holding slots -/

/-- A tree has slots at their places, which are all different. -/
structure Tree.Has (t : Tree) (S : Slots) : Prop where
  held : ∀ s ∈ S, t.node? s.1 = some s.2
  distinct : (S.map Prod.fst).Nodup

namespace Tree

variable {t : Tree} {S S' : Slots} {id : NodeId} {n : Node}

theorem node?_modify (t : Tree) (id other : NodeId) (f : Node → Node) :
    (t.modify id f).node? other =
      if other = id then (t.node? other).map f else t.node? other := by
  unfold node? modify
  rw [Array.getElem?_modify]
  by_cases h : other = id
  · rw [if_pos h, if_pos h.symm]
  · rw [if_neg h, if_neg fun e => h e.symm]

theorem node?_add (t : Tree) (token : Token) (id : NodeId) :
    (t.add token).node? id =
      if id = t.size then some ⟨token, none, none, none⟩ else t.node? id := by
  unfold node? add size
  rw [Array.getElem?_push]

@[simp] theorem size_modify (t : Tree) (id : NodeId) (f : Node → Node) :
    (t.modify id f).size = t.size :=
  Array.size_modify

@[simp] theorem size_add (t : Tree) (token : Token) : (t.add token).size = t.size + 1 :=
  Array.size_push _

theorem lt_size_of_node? (h : t.node? id = some n) : id < t.size :=
  (Array.getElem?_eq_some_iff.mp h).1

theorem setToken_self {token : Token} (h : t.token? id = some token) : t.setToken id token = t := by
  refine congrArg Tree.mk (Array.ext_getElem? fun i => ?_)
  rw [Array.getElem?_modify]
  split
  next same =>
    subst same
    obtain ⟨n, found, rfl⟩ := Option.map_eq_some_iff.mp h
    rw [show t.nodes[id]? = some n from found]
    rfl
  next => rfl

theorem setToken_setToken (t : Tree) (id : NodeId) (token token' : Token) :
    (t.setToken id token).setToken id token' = t.setToken id token' := by
  refine congrArg Tree.mk (Array.ext_getElem? fun i => ?_)
  simp only [setToken, modify, Array.getElem?_modify]
  split
  · rw [Option.map_map]
    rfl
  · rfl

theorem setToken_add (t : Tree) (token token' : Token) :
    (t.add token).setToken t.size token' = t.add token' := by
  refine congrArg Tree.mk (Array.ext_getElem? fun i => ?_)
  simp only [add, size, Array.getElem?_modify, Array.getElem?_push]
  grind

namespace Has

theorem empty (t : Tree) : t.Has 0 where
  held s mem := absurd mem (Multiset.notMem_zero s)
  distinct := Multiset.nodup_zero

-- Slots may be forgotten.
theorem mono (h : t.Has S) (le : S' ≤ S) : t.Has S' where
  held s mem := h.held s (Multiset.mem_of_le le mem)
  distinct := Multiset.nodup_of_le (Multiset.map_le_map le) h.distinct

theorem left (h : t.Has (S + S')) : t.Has S :=
  h.mono (Multiset.le_add_right S S')

theorem right (h : t.Has (S + S')) : t.Has S' :=
  h.mono (Multiset.le_add_left S' S)

theorem node? (h : t.Has ({(id, n)} + S)) : t.node? id = some n :=
  h.held (id, n) (Multiset.mem_add.mpr (.inl (Multiset.mem_singleton_self _)))

-- No other slot has the place of a held one.
theorem ne_of_mem (h : t.Has ({(id, n)} + S)) {s : NodeId × Node} (mem : s ∈ S) : s.1 ≠ id := by
  have distinct := h.distinct
  rw [Multiset.map_add, Multiset.map_singleton, Multiset.singleton_add,
    Multiset.nodup_cons] at distinct
  intro same
  have listed := Multiset.mem_map_of_mem Prod.fst mem
  rw [same] at listed
  exact distinct.1 listed

-- Changing a slot leaves all others as they are.
theorem modify (h : t.Has ({(id, n)} + S)) (f : Node → Node) :
    (t.modify id f).Has ({(id, f n)} + S) where
  held s mem := by
    rw [node?_modify]
    rcases Multiset.mem_add.mp mem with here | other
    · obtain rfl := Multiset.mem_singleton.mp here
      rw [if_pos rfl, h.node?]
      rfl
    · rw [if_neg (h.ne_of_mem other)]
      exact h.held s (Multiset.mem_add.mpr (.inr other))
  distinct := by
    have distinct := h.distinct
    rw [Multiset.map_add, Multiset.map_singleton] at distinct ⊢
    exact distinct

-- A node that is added has a place of its own.
theorem add (h : t.Has S) (token : Token) :
    (t.add token).Has ((Layout.leaf t.size token).slots none + S) where
  held s mem := by
    rw [node?_add]
    rcases Multiset.mem_add.mp mem with here | other
    · obtain rfl := Multiset.mem_singleton.mp here
      exact if_pos rfl
    · have below := lt_size_of_node? (h.held s other)
      rw [if_neg (Nat.ne_of_lt below)]
      exact h.held s other
  distinct := by
    rw [Multiset.map_add, Layout.slots_leaf, Multiset.map_singleton, Multiset.singleton_add,
      Multiset.nodup_cons]
    refine ⟨fun mem => ?_, h.distinct⟩
    obtain ⟨s, listed, same⟩ := Multiset.mem_map.mp mem
    have below := lt_size_of_node? (h.held s listed)
    rw [same] at below
    exact Nat.lt_irrefl _ below

end Has

end Tree

end FormulaLang
