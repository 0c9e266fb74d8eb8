import FormulaLang.Proofs.Tree.Layout

/-!
Surgery at a place, whatever is around it.  A hole is what surrounds a place: the node above, and
the slots that change with the link to the place.  Each operation on a tree changes a few slots; the
statements here say what it makes of a layout in a hole.  Everything else that the tree holds stays.
-/

namespace FormulaLang

/-- The surroundings of a place: the node above it, and the slots around it, by what the link to the
place leads to. -/
structure Hole where
  up? : Option NodeId
  slots : Option NodeId → Slots
  /-- The link to the place can be led elsewhere. -/
  relink : ∀ {t : Tree} {S : Slots} {id : NodeId} {n : Node},
    t.Has ({(id, n)} + (slots (some id) + S)) →
    ∀ new, (t.relink up? id new).Has ({(id, n)} + (slots (some new) + S))

namespace Step

-- The slot of the operator after its operand was exchanged.
theorem relink_node (s : Step) (parent? : Option NodeId) {old : NodeId} (new : NodeId)
    (apart : s.other.root? ≠ some old) :
    (let n := s.node parent? (some old)
      if n.left? = some old then { n with left? := some new }
      else if n.right? = some old then { n with right? := some new }
      else n) = s.node parent? (some new) := by
  unfold node
  by_cases right : s.onRight
  · simp only [if_pos right, if_neg apart, if_true]
  · simp only [if_neg right, if_true]

end Step

namespace Tree

/-- Cuts the link of an operand, if there is one, to its operator. -/
def orphan (t : Tree) : Option NodeId → Tree
  | some child => t.setParent child none
  | none => t

theorem collapse_eq (t : Tree) (id : NodeId) (token : Token) :
    t.collapse id token =
      ((t.modify id fun n => { n with token, left? := none, right? := none }).orphan
        (t.left? id)).orphan (t.right? id) := by
  unfold collapse orphan
  cases t.left? id with
  | none => cases t.right? id <;> rfl
  | some left => cases t.right? id <;> rfl

namespace Has

variable {t : Tree} {S : Slots} {id : NodeId} {token : Token} {l r : Layout}

theorem congr (h : t.Has S) {S' : Slots} (same : S = S') : t.Has S' :=
  same ▸ h

-- Exchanging the link of a root to its parent.
theorem setParent {parent? : Option NodeId}
    (h : t.Has ((Layout.node id token l r).slots parent? + S)) (parent?' : Option NodeId) :
    (t.setParent id parent?').Has ((Layout.node id token l r).slots parent?' + S) := by
  rw [Layout.slots, add_assoc] at h ⊢
  exact h.modify _

-- An operand is left without a parent.
theorem orphan {operand : Layout} {parent? : Option NodeId}
    (h : t.Has (operand.slots parent? + S)) :
    (t.orphan operand.root?).Has (operand.slots none + S) := by
  cases operand with
  | absent => exact h
  | node child childToken l r => exact h.setParent none

-- An operator has a place on one side only.
theorem other_ne_of_step {s : Step} {up? : Option NodeId} {n : Node} {T : Slots}
    (h : t.Has ({(id, n)} + (({(s.id, s.node up? (some id))}
      + (s.other.slots (some s.id) + T)) + S))) : s.other.root? ≠ some id := by
  intro same
  cases other : s.other with
  | absent =>
    rw [other] at same
    cases same
  | node id' token' l' r' =>
    rw [other] at same
    cases same
    have slot : ((id, ⟨token', some s.id, l'.root?, r'.root?⟩) : NodeId × Node) ∈
        s.other.slots (some s.id) := by
      rw [other, Layout.slots]
      exact Multiset.mem_add.mpr (.inl (Multiset.mem_singleton_self _))
    refine h.ne_of_mem (s := (id, ⟨token', some s.id, l'.root?, r'.root?⟩)) ?_ rfl
    simp only [Multiset.mem_add]
    exact .inl (.inr (.inl slot))

-- Letting an operator lead elsewhere.
theorem relink_step {s : Step} {up? : Option NodeId} {n : Node} {T : Slots}
    (h : t.Has ({(id, n)} + (({(s.id, s.node up? (some id))}
      + (s.other.slots (some s.id) + T)) + S))) (new : NodeId) :
    (t.relink (some s.id) id new).Has ({(id, n)} + (({(s.id, s.node up? (some new))}
      + (s.other.slots (some s.id) + T)) + S)) := by
  have apart := h.other_ne_of_step
  rw [add_left_comm, add_assoc] at h ⊢
  rw [← s.relink_node up? new apart]
  exact h.modify _

end Has

end Tree

namespace Hole

/-- What a tree holds at a place and around it. -/
def site (hole : Hole) (focus : Layout) : Slots :=
  focus.slots hole.up? + hole.slots focus.root?

/-- Nothing is above a root or around it. -/
def root : Hole where
  up? := none
  slots _ := 0
  relink h _ := h

/-- The surroundings of an operand: its operator with what is on the other side, and what surrounds
the operator. -/
def below (hole : Hole) (s : Step) : Hole where
  up? := some s.id
  slots operand? :=
    {(s.id, s.node hole.up? operand?)} + (s.other.slots (some s.id) + hole.slots (some s.id))
  relink h := h.relink_step

theorem site_root (focus : Layout) : root.site focus = focus.slots none :=
  add_zero _

-- Going up changes the view and no slot.
theorem site_below (hole : Hole) (s : Step) (focus : Layout) :
    (hole.below s).site focus = hole.site (s.fill focus) := by
  unfold site
  rw [s.slots_fill, s.root?_fill]
  show focus.slots (some s.id) + ({(s.id, s.node hole.up? focus.root?)} + _) = _
  abel

variable {t : Tree} {S : Slots} {id : NodeId} {token : Token} {l r : Layout}

-- The slot of the focus, apart from those around it.
theorem site_node (hole : Hole) (id : NodeId) (token : Token) (l r : Layout) :
    hole.site (.node id token l r) =
      {(id, ⟨token, hole.up?, l.root?, r.root?⟩)}
        + (l.slots (some id) + r.slots (some id) + hole.slots (some id)) := by
  unfold site
  rw [Layout.slots]
  show _ + hole.slots (some id) = _
  abel

theorem node? (hole : Hole) (h : t.Has (hole.site (.node id token l r) + S)) :
    t.node? id = some ⟨token, hole.up?, l.root?, r.root?⟩ := by
  rw [site_node, add_assoc] at h
  exact h.node?

theorem lt_size (hole : Hole) (h : t.Has (hole.site (.node id token l r) + S)) : id < t.size :=
  Tree.lt_size_of_node? (hole.node? h)

theorem parent? (hole : Hole) (h : t.Has (hole.site (.node id token l r) + S)) :
    t.parent? id = hole.up? := by
  rw [Tree.parent?, hole.node? h]
  rfl

theorem token? (hole : Hole) (h : t.Has (hole.site (.node id token l r) + S)) :
    t.token? id = some token := by
  rw [Tree.token?, hole.node? h]
  rfl

theorem left? (hole : Hole) (h : t.Has (hole.site (.node id token l r) + S)) :
    t.left? id = l.root? := by
  rw [Tree.left?, hole.node? h]
  rfl

theorem right? (hole : Hole) (h : t.Has (hole.site (.node id token l r) + S)) :
    t.right? id = r.root? := by
  rw [Tree.right?, hole.node? h]
  rfl

-- Letting the operator above the focus lead elsewhere.
theorem relink_site (hole : Hole) (h : t.Has (hole.site (.node id token l r) + S))
    (new : NodeId) :
    (t.relink hole.up? id new).Has
      ((Layout.node id token l r).slots hole.up? + hole.slots (some new) + S) := by
  have linked := hole.relink (h.congr (show _ = {(id, ⟨token, hole.up?, l.root?, r.root?⟩)}
    + (hole.slots (some id) + (l.slots (some id) + r.slots (some id) + S)) by
      rw [site_node]
      abel)) new
  refine linked.congr ?_
  rw [Layout.slots]
  abel

-- A layout becomes the left operand of an operator without operands, which then awaits its right
-- operand.
theorem setLeft (hole : Hole) {current : NodeId} {operator : Token} (parent? : Option NodeId)
    (h : t.Has ((Layout.node id token l r).slots parent?
      + (hole.site (.leaf current operator) + S))) :
    (t.setLeft current id).Has
      ((hole.below ⟨current, operator, true, .node id token l r⟩).site .absent + S) := by
  have held : t.Has ({(current, ⟨operator, hole.up?, none, none⟩)}
      + ((Layout.node id token l r).slots parent? + hole.slots (some current) + S)) := by
    refine h.congr ?_
    rw [Layout.leaf, site_node]
    show _ + ({(current, ⟨operator, hole.up?, none, none⟩)} + (0 + 0 + _) + S) = _
    abel
  have operated := held.modify fun n => { n with left? := some id }
  have first : Tree.Has _ ((Layout.node id token l r).slots parent?
      + ({(current, ⟨operator, hole.up?, some id, none⟩)} + hole.slots (some current) + S)) :=
    operated.congr (by abel)
  have linked := first.setParent (some current)
  refine linked.congr ?_
  show _ = 0 + ({(current, ⟨operator, hole.up?, some id, none⟩)} + (_ + _)) + S
  abel

-- The focus becomes the left operand of a new operator, which takes its place and awaits its
-- right operand.
theorem usurp (hole : Hole) {current : NodeId} {operator : Token}
    (h : t.Has ((Layout.leaf current operator).slots none
      + (hole.site (.node id token l r) + S))) :
    (t.usurp current id).Has
      ((hole.below ⟨current, operator, true, .node id token l r⟩).site .absent + S) := by
  have above : t.parent? id = hole.up? := hole.parent? h.right
  have linked := hole.relink_site (h.congr (add_left_comm _ _ _)) current
  have lifted : ((t.relink hole.up? id current).setParent current hole.up?).Has
      ((Layout.leaf current operator).slots hole.up?
        + ((Layout.node id token l r).slots hole.up? + hole.slots (some current) + S)) :=
    (linked.congr (add_left_comm _ _ _)).setParent hole.up?
  unfold Tree.usurp
  rw [above]
  refine hole.setLeft hole.up? (lifted.congr ?_)
  unfold site
  show _ = _ + ((Layout.leaf current operator).slots hole.up? + hole.slots (some current) + S)
  abel

-- A layout takes the place of the focus, which stays without a parent.
theorem replace (hole : Hole) {new : NodeId} {newToken : Token} {l' r' : Layout}
    (h : t.Has ((Layout.node new newToken l' r').slots none
      + (hole.site (.node id token l r) + S))) :
    (t.replace new id).Has
      (hole.site (.node new newToken l' r') + ((Layout.node id token l r).slots none + S)) := by
  have differs : new ≠ id := by
    intro same
    rw [Layout.slots, add_assoc] at h
    have slot : ((id, ⟨token, hole.up?, l.root?, r.root?⟩) : NodeId × Node) ∈
        hole.site (.node id token l r) := by
      rw [site_node]
      exact Multiset.mem_add.mpr (.inl (Multiset.mem_singleton_self _))
    refine h.ne_of_mem (s := (id, ⟨token, hole.up?, l.root?, r.root?⟩)) ?_ same.symm
    simp only [Multiset.mem_add]
    exact .inr (.inl slot)
  have above : t.parent? id = hole.up? := hole.parent? h.right
  have linked := hole.relink_site (h.congr (add_left_comm _ _ _)) new
  have lifted : ((t.relink hole.up? id new).setParent new hole.up?).Has
      ((Layout.node new newToken l' r').slots hole.up?
        + ((Layout.node id token l r).slots hole.up? + hole.slots (some new) + S)) :=
    (linked.congr (add_left_comm _ _ _)).setParent hole.up?
  have first : Tree.Has _ ((Layout.node id token l r).slots hole.up?
      + ((Layout.node new newToken l' r').slots hole.up? + hole.slots (some new) + S)) :=
    lifted.congr (by abel)
  have replaced := first.setParent none
  unfold Tree.replace
  rw [if_neg differs, above]
  refine replaced.congr ?_
  unfold site
  show _ = _ + hole.slots (some new) + _
  abel

-- A layout becomes the right operand of an operator that awaits one.
theorem append (hole : Hole) {s : Step} (right : s.onRight = true)
    (h : t.Has ((Layout.node id token l r).slots none + ((hole.below s).site .absent + S))) :
    ∃ t', t.append s.id id = .ok t' ∧ t'.size = t.size ∧
      t'.Has ((hole.below s).site (.node id token l r) + S) := by
  have node (operand? : Option NodeId) :
      s.node hole.up? operand? = ⟨s.token, hole.up?, s.other.root?, operand?⟩ := by
    unfold Step.node
    rw [if_pos right]
  have awaiting : t.Has ({(s.id, ⟨s.token, hole.up?, s.other.root?, none⟩)}
      + ((Layout.node id token l r).slots none
        + (s.other.slots (some s.id) + hole.slots (some s.id) + S))) := by
    refine h.congr ?_
    show _ + (0 + ({(s.id, s.node hole.up? none)} + _) + S) = _
    rw [node]
    abel
  have operated := awaiting.modify fun n => { n with right? := some id }
  have linked := (operated.congr (add_left_comm _ _ _)).setParent (some s.id)
  refine ⟨t.setRight s.id id, ?_, ?_, ?_⟩
  · unfold Tree.append
    rw [awaiting.node?]
  · simp only [Tree.setRight, Tree.setParent, Tree.size_modify]
  · refine linked.congr ?_
    show _ = _ + ({(s.id, s.node hole.up? (some id))} + _) + S
    rw [node]
    show _ = (Layout.node id token l r).slots (some s.id) + _ + S
    abel

-- The focus becomes a leaf, and its operands stay without a parent.
theorem collapse (hole : Hole) (h : t.Has (hole.site (.node id token l r) + S))
    (token' : Token) :
    (t.collapse id token').Has
      (hole.site (Layout.leaf id token') + (l.slots none + r.slots none + S)) := by
  have left : t.left? id = l.root? := hole.left? h
  have right : t.right? id = r.root? := hole.right? h
  have slot := h
  rw [site_node, add_assoc] at slot
  have bare := slot.modify fun n => { n with token := token', left? := none, right? := none }
  have cutLeft := (bare.congr (show _ = l.slots (some id) +
    ({(id, ⟨token', hole.up?, none, none⟩)} + (r.slots (some id) + hole.slots (some id) + S))
    by abel)).orphan
  have cutRight := (cutLeft.congr (show _ = r.slots (some id) +
    ({(id, ⟨token', hole.up?, none, none⟩)} + (hole.slots (some id) + (l.slots none + S)))
    by abel)).orphan
  rw [Tree.collapse_eq, left, right]
  refine cutRight.congr ?_
  rw [Layout.leaf, site_node]
  show _ = {(id, ⟨token', hole.up?, none, none⟩)} + (0 + 0 + hole.slots (some id)) + _
  abel

end Hole

/-! ## Along a path -/

namespace Path

/-- What surrounds the place from which a path starts. -/
def hole (path : Path) : Hole where
  up? := path.up?
  slots := path.slots
  relink h new := by
    cases path with
    | nil => exact h
    | cons s rest => exact h.relink_step new

end Path

end FormulaLang
