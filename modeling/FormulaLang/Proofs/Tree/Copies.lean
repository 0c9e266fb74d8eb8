import FormulaLang.Proofs.Tree.Subtree

/-!
Copies of a part of a tree.  The nodes below a root are copied one by one behind those of another
tree: a node, then what is below each operand, which is linked to the node when it is complete.  The
copy stands where the term of the part is planted.  Its places follow the order of the nodes in the
part, its links are those of the part, and the nodes before it stay as they are.
-/

namespace FormulaLang

namespace Layout

/-- The places in the order node, left operand, right operand. -/
def preOrder : Layout → List NodeId
  | absent => []
  | node id _ left right => id :: (left.preOrder ++ right.preOrder)

/-- A layout with its nodes at other places. -/
def move (place : NodeId → NodeId) : Layout → Layout
  | absent => absent
  | node id token left right => node (place id) token (left.move place) (right.move place)

theorem preOrder_perm_postOrder (L : Layout) : L.preOrder.Perm L.postOrder := by
  induction L with
  | absent => exact .refl _
  | node id token left right hl hr =>
    rw [preOrder, postOrder]
    exact ((hl.append hr).cons id).trans (List.perm_append_singleton id _).symm

theorem length_preOrder (L : Layout) : L.preOrder.length = L.term.size := by
  induction L with
  | absent => rfl
  | node id token left right hl hr =>
    rw [preOrder, List.length_cons, List.length_append, hl, hr]
    rfl

theorem root?_move (place : NodeId → NodeId) (L : Layout) :
    (L.move place).root? = L.root?.map place := by
  cases L <;> rfl

theorem move_congr {place place' : NodeId → NodeId} {L : Layout}
    (same : ∀ id ∈ L.preOrder, place id = place' id) : L.move place = L.move place' := by
  induction L with
  | absent => rfl
  | node id token left right hl hr =>
    rw [move, move, same id (List.mem_cons_self ..),
      hl fun i mem => same i (List.mem_cons_of_mem _ (List.mem_append_left _ mem)),
      hr fun i mem => same i (List.mem_cons_of_mem _ (List.mem_append_right _ mem))]

-- Places that are counted from a base in the order of the nodes.
theorem ofTerm_eq_move (base : Nat) {L : Layout} (distinct : L.preOrder.Nodup) :
    ofTerm base L.term = L.move fun id => base + L.preOrder.idxOf id := by
  induction L generalizing base with
  | absent => rfl
  | node id token left right hl hr =>
    obtain ⟨apart, operands⟩ := List.nodup_cons.mp distinct
    obtain ⟨distinctLeft, distinctRight, disjoint⟩ := List.nodup_append.mp operands
    have onLeft : ofTerm (base + 1) left.term = left.move fun i =>
        base + (node id token left right).preOrder.idxOf i := by
      rw [hl (base + 1) distinctLeft]
      refine move_congr fun i mem => ?_
      have other : i ≠ id := fun same => apart (List.mem_append_left _ (same ▸ mem))
      show (base + 1 + _ : Nat) = base + _
      rw [preOrder, List.idxOf_cons_ne _ (Ne.symm other), List.idxOf_append_of_mem mem]
      omega
    have onRight : ofTerm (base + 1 + left.term.size) right.term = right.move fun i =>
        base + (node id token left right).preOrder.idxOf i := by
      rw [hr _ distinctRight]
      refine move_congr fun i mem => ?_
      have other : i ≠ id := fun same => apart (List.mem_append_right _ (same ▸ mem))
      have beyond : i ∉ left.preOrder := fun mem' => disjoint i mem' i mem rfl
      show (base + 1 + left.term.size + _ : Nat) = base + _
      rw [preOrder, List.idxOf_cons_ne _ (Ne.symm other), List.idxOf_append_of_notMem beyond,
        length_preOrder]
      omega
    rw [term, ofTerm, move, onLeft, onRight, preOrder, List.idxOf_cons_self]
    rfl

end Layout

/-- A node whose links lead to other places. -/
def Node.move (place : NodeId → NodeId) (n : Node) : Node :=
  ⟨n.token, n.parent?.map place, n.left?.map place, n.right?.map place⟩

namespace Layout

theorem slots_move (place : NodeId → NodeId) (parent? : Option NodeId) (L : Layout) :
    (L.move place).slots (parent?.map place) =
      (L.slots parent?).map fun s => (place s.1, s.2.move place) := by
  induction L generalizing parent? with
  | absent => rfl
  | node id token left right hl hr =>
    rw [move, slots, slots, Multiset.map_add, Multiset.map_add, Multiset.map_singleton,
      ← hl (some id), ← hr (some id), root?_move, root?_move]
    rfl

end Layout

namespace Tree

/-! ## The nodes of a part -/

/-- The nodes below a node, at most `depth` deep, each before its operands. -/
def preOrderWithin (t : Tree) : Nat → NodeId → List NodeId
  | 0, _ => []
  | depth + 1, id =>
      id :: ((t.left? id).elim [] (t.preOrderWithin depth)
        ++ (t.right? id).elim [] (t.preOrderWithin depth))

/-- The node itself and the nodes below it, in the order node, left operand, right operand. -/
def preOrder (t : Tree) (root : NodeId) : List NodeId :=
  t.preOrderWithin t.size root

/-- The nodes below a node are listed once each, and each before its operands. -/
structure IsListed (t : Tree) (root : NodeId) : Prop where
  distinct : (t.preOrder root).Nodup
  reached : ∀ id, id ∈ t.preOrder root ↔ ∃ route, t.follow root route = some id
  ordered : ∀ id ∈ t.preOrder root,
    t.preOrder id = id :: ((t.left? id).elim [] t.preOrder ++ (t.right? id).elim [] t.preOrder)

variable {s t : Tree} {S T : Slots} {L : Layout} {root id : NodeId} {parent? : Option NodeId}

namespace Has

theorem preOrder (h : t.Has (L.slots parent? + S)) (top : L.root? = some root) :
    t.preOrder root = L.preOrder := by
  cases L with
  | absent => cases top
  | node root' token l r =>
    cases top
    refine readWhole Layout.preOrder t.preOrderWithin
      (fun depth id token parent? l r found left right => ?_) h
    rw [preOrderWithin, Tree.left?, Tree.right?, found, Layout.preOrder, ← left, ← right]
    rfl

theorem preOrder_elim (h : t.Has (L.slots parent? + S)) :
    L.root?.elim [] t.preOrder = L.preOrder := by
  cases top : L.root? with
  | none =>
    cases L with
    | absent => rfl
    | node id token l r => cases top
  | some root => exact h.preOrder top

theorem nodup_preOrder (h : t.Has (L.slots parent? + S)) : L.preOrder.Nodup := by
  rw [L.preOrder_perm_postOrder.nodup_iff, ← Multiset.coe_nodup, ← L.map_slots parent?]
  exact h.left.distinct

theorem preOrder_root {token : Token} {l r : Layout}
    (h : t.Has ((Layout.node root token l r).slots parent? + S)) :
    t.preOrder root =
      root :: ((t.left? root).elim [] t.preOrder ++ (t.right? root).elim [] t.preOrder) := by
  rw [h.preOrder rfl, Layout.preOrder]
  rw [Layout.slots, add_assoc] at h
  have below := h.right
  rw [add_assoc] at below
  rw [Tree.left?, Tree.right?, h.node?]
  show root :: (l.preOrder ++ r.preOrder)
    = root :: (l.root?.elim [] t.preOrder ++ r.root?.elim [] t.preOrder)
  rw [below.preOrder_elim, (below.congr (add_left_comm _ _ _)).preOrder_elim]

-- The operands below the root of a layout link back.
theorem isConsistent (h : t.Has (L.slots parent? + S)) (top : L.root? = some root) :
    t.isConsistent root = true := by
  have listed : t.postOrder root = L.postOrder := by
    cases L with
    | absent => cases top
    | node root' token l r =>
      cases top
      exact h.postOrder
  rw [Tree.isConsistent, listed, List.all_eq_true]
  intro id mem
  obtain ⟨route, reached⟩ := (h.mem_postOrder top).mp mem
  obtain ⟨n, slot, found⟩ := h.slot_of_follow top reached
  rw [List.all_eq_true]
  intro child link
  refine beq_iff_eq.mpr (h.down _ slot child ?_)
  simpa [Tree.left?, Tree.right?, found] using link

end Has

theorem IsTree.isListed (h : t.IsTree root) (back : t.LinksBack root) : t.IsListed root := by
  obtain ⟨L, top, held⟩ := h.exists_layout_of_linksBack back
  have held := held.congr (add_zero _).symm
  have reached (id : NodeId) : id ∈ t.preOrder root ↔ ∃ route, t.follow root route = some id := by
    rw [held.preOrder top, L.preOrder_perm_postOrder.mem_iff, held.mem_postOrder top]
  refine ⟨?_, reached, fun id mem => ?_⟩
  · rw [held.preOrder top]
    exact held.nodup_preOrder
  · obtain ⟨route, follows⟩ := (reached id).mp mem
    obtain ⟨M, top', part⟩ :=
      (h.below back follows).exists_layout_of_linksBack (back.below follows)
    cases M with
    | absent => cases top'
    | node id' token l r =>
      cases top'
      exact (part.congr (add_zero _).symm).preOrder_root

/-! ## Copying node by node -/

/-- Adds a copy of an operand, if there is one, and links it to the node at `p`. -/
def addOperand (link : Tree → NodeId → NodeId → Tree) (copy : NodeId → Tree → Tree) (p : NodeId)
    (child? : Option NodeId) (t : Tree) : Tree :=
  child?.elim t fun child => link (copy child t) p t.size

/-- Adds a copy of what `source` has below a node, at most `depth` deep: the node, then what is
below its left operand, then what is below its right operand.  The root of the copy is found at the
former size. -/
def copyWithin (source : Tree) : Nat → NodeId → Tree → Tree
  | 0, _, t => t
  | depth + 1, id, t =>
      (source.token? id).elim t fun token =>
        let bare := t.add token
        let left := bare.addOperand setLeft (source.copyWithin depth) t.size (source.left? id)
        left.addOperand setRight (source.copyWithin depth) t.size (source.right? id)

/-- Adds a copy of what `source` has below `root`, node by node. -/
def copy (t source : Tree) (root : NodeId) : Tree :=
  source.copyWithin source.size root t

namespace Has

-- A layout becomes an operand: the node at `p` comes to lead to it, and it to lead back.
theorem link {p c : NodeId} {n : Node} (h : t.Has (L.slots none + ({(p, n)} + S)))
    (top : L.root? = some c) (f : Node → Node) :
    ((t.modify p f).setParent c (some p)).Has (L.slots (some p) + ({(p, f n)} + S)) := by
  have led := (h.congr (add_left_comm _ _ _)).modify f
  cases L with
  | absent => cases top
  | node root token l r =>
    cases top
    exact (led.congr (add_left_comm _ _ _)).setParent (some p)

end Has

/-- A tree that has grown by a term below `parent?`, beside slots that it held before. -/
structure Grown (t : Tree) (term : Term) (parent? : Option NodeId) (S : Slots) (t' : Tree) :
    Prop where
  size : t'.size = t.size + term.size
  held : t'.Has ((Layout.ofTerm t.size term).slots parent? + S)

-- The copy of an operand is linked when it is complete.
theorem Grown.addOperand (f : Option NodeId → Node → Node) {copy : NodeId → Tree → Tree}
    {p : NodeId} {n : Node} {M : Layout} (unlinked : f none n = n)
    (grown : t.Grown M.term none ({(p, n)} + S) (M.root?.elim t fun child => copy child t)) :
    t.Grown M.term (some p) ({(p, f (Layout.ofTerm t.size M.term).root? n)} + S)
      (t.addOperand (fun t p c => (t.modify p (f (some c))).setParent c (some p)) copy p
        M.root?) := by
  cases M with
  | absent =>
    refine ⟨rfl, ?_⟩
    show t.Has (0 + ({(p, f none n)} + S))
    rw [unlinked]
    exact grown.held
  | node child token l r =>
    refine ⟨?_, grown.held.link rfl _⟩
    show (((copy child t).modify p _).setParent t.size (some p)).size = _
    rw [size_setParent, size_modify]
    exact grown.size

-- What is copied grows behind the nodes that were there: by induction on the layout of the source,
-- for every tree that it is copied to.
theorem Has.copyWithin {depth : Nat} (source : s.Has (L.slots parent? + S))
    (deep : L.term.size ≤ depth) (target : t.Has T) :
    t.Grown L.term none T (L.root?.elim t fun root => s.copyWithin depth root t) := by
  induction L generalizing parent? depth S t T with
  | absent => exact ⟨rfl, target.congr (zero_add _).symm⟩
  | node id token left right hl hr =>
    have deep : left.term.size + right.term.size + 1 ≤ depth := deep
    obtain ⟨depth, rfl⟩ : ∃ d, depth = d + 1 := ⟨depth - 1, by omega⟩
    rw [Layout.slots, add_assoc] at source
    have below := source.right
    rw [add_assoc] at below
    have leftDeep : left.term.size ≤ depth := by omega
    have rightDeep : right.term.size ≤ depth := by omega
    have withLeft := (hl below leftDeep (target.add token)).addOperand
      (fun c n => { n with left? := c }) rfl
    rw [add_left_comm] at below
    have withBoth := (hr below rightDeep (withLeft.held.congr (add_left_comm _ _ _))).addOperand
      (fun c n => { n with right? := c }) rfl
    have read : s.copyWithin (depth + 1) id t = Tree.addOperand setRight (s.copyWithin depth)
        t.size right.root? (Tree.addOperand setLeft (s.copyWithin depth) t.size left.root?
          (t.add token)) := by
      rw [Tree.copyWithin, Tree.token?, Tree.left?, Tree.right?, source.node?]
      rfl
    have sizeLeft := withLeft.size
    have sizeBoth := withBoth.size
    have held := withBoth.held
    rw [size_add] at sizeLeft
    rw [sizeLeft] at sizeBoth held
    rw [size_add] at held
    show t.Grown (.node token left.term right.term) none T (s.copyWithin (depth + 1) id t)
    rw [read]
    refine ⟨?_, held.congr ?_⟩
    · refine sizeBoth.trans ?_
      show (t.size + 1 + left.term.size + right.term.size : Nat)
        = t.size + (left.term.size + right.term.size + 1)
      omega
    · rw [Layout.ofTerm, Layout.slots]
      abel

-- Trees with the same slots and no others are the same.
theorem Has.ext_of_full (h : s.Has S) (h' : t.Has S) (full : s.size = S.card)
    (full' : t.size = S.card) : s = t := by
  refine congrArg Tree.mk (Array.ext (full.trans full'.symm) fun i below below' => ?_)
  have found : s.node? i = some s.nodes[i] := Array.getElem?_eq_getElem below
  have found' : t.node? i = some t.nodes[i] := Array.getElem?_eq_getElem below'
  have same := h'.held _ (h.mem_of_full full found)
  rw [found'] at same
  exact (Option.some.inj same).symm

theorem has_outside_nil (t : Tree) : t.Has (t.outside []) where
  held _ mem := (mem_outside.mp mem).1
  distinct := t.nodup_outside []

theorem card_outside_nil (t : Tree) : (t.outside []).card = t.size := by
  simp [outside, size]

theorem size_plant (t : Tree) (term : Term) : (t.plant term).size = t.size + term.size := by
  simp [plant, size, Term.length_nodesAt]

-- The term of a part is planted as the part is copied.
theorem Has.graft_eq_copy (source : s.Has (L.slots parent? + S)) (top : L.root? = some root)
    (t : Tree) : t.graft s root = t.copy s root := by
  have deep : L.term.size ≤ s.size := by
    rw [← L.card_slots parent?]
    exact source.left.card_le_size
  have grown := source.copyWithin deep t.has_outside_nil
  rw [top] at grown
  have count : ((Layout.ofTerm t.size L.term).slots none + t.outside []).card
      = t.size + L.term.size := by
    rw [Multiset.card_add, Layout.card_slots, Layout.term_ofTerm, card_outside_nil]
    exact Nat.add_comm _ _
  rw [graft, source.term_root top]
  exact (t.has_outside_nil.plant L.term).ext_of_full grown.held
    ((size_plant _ _).trans count.symm) (grown.size.trans count.symm)

/-! ## What a copy is -/

/-- The place of a copied node: the copies stand behind `base` in the order of the nodes. -/
def placeBehind (s : Tree) (root : NodeId) (base : Nat) (id : NodeId) : NodeId :=
  base + (s.preOrder root).idxOf id

/-- A tree has the nodes of `t` and behind them a copy of the nodes that `s` has below `root`. -/
structure Copied (t s : Tree) (root : NodeId) (t' : Tree) : Prop where
  size : t'.size = t.size + (s.preOrder root).length
  kept : ∀ id < t.size, t'.node? id = t.node? id
  /-- Every node of the part is copied with its links. -/
  copies :
    let place := s.placeBehind root t.size
    ∀ id ∈ s.preOrder root, ∃ n, s.node? id = some n ∧
      t'.node? (place id) = some ⟨n.token, if id = root then none else n.parent?.map place,
        n.left?.map place, n.right?.map place⟩
  top : t'.parent? t.size = none
  isTree : t'.IsTree t.size
  consistent : t'.isConsistent t.size = true
  term : t'.term t.size = s.term root
  text : t'.text t.size = s.text root
  outline : t'.outline t.size = s.outline root

-- Moving a part that is cut off from what is above it.
theorem Has.slot_move (held : s.Has (L.slots parent?)) (top : L.root? = some root)
    (place : NodeId → NodeId) (mem : id ∈ L.postOrder) : ∃ n, s.node? id = some n ∧
      (place id, ⟨n.token, if id = root then none else n.parent?.map place,
        n.left?.map place, n.right?.map place⟩) ∈ (L.move place).slots none := by
  have cut : (s.setParent root none).Has (L.slots none) := by
    cases L with
    | absent => cases top
    | node root token l r =>
      cases top
      exact ((held.congr (add_zero _).symm).setParent none).congr (add_zero _)
  rw [← Multiset.mem_coe, ← L.map_slots none] at mem
  obtain ⟨⟨id, n'⟩, slot, (rfl : id = _)⟩ := Multiset.mem_map.mp mem
  have moved : (place id, n'.move place) ∈ (L.move place).slots none := by
    have slots := L.slots_move place none
    rw [Option.map_none] at slots
    rw [slots]
    exact Multiset.mem_map_of_mem (fun s : NodeId × Node => (place s.1, s.2.move place)) slot
  have found := cut.held _ slot
  rw [Tree.setParent, node?_modify] at found
  by_cases same : id = root
  · rw [if_pos same] at found
    obtain ⟨n, found, rfl⟩ := Option.map_eq_some_iff.mp found
    refine ⟨n, found, ?_⟩
    rw [if_pos same]
    exact moved
  · rw [if_neg same] at found
    refine ⟨n', found, ?_⟩
    rw [if_neg same]
    exact moved

-- A planted term with a root is a part of its own.
theorem Has.copied (held : s.Has (L.slots parent?)) (top : L.root? = some root) (t : Tree) :
    t.Copied s root (t.plant L.term) := by
  have source := held.congr (add_zero _).symm
  have planted := (Has.empty t).plant L.term
  have listed := source.preOrder top
  have place : (Layout.ofTerm t.size L.term).root? = some t.size := by
    cases L with
    | absent => cases top
    | node root token l r => rfl
  have term : (t.plant L.term).term t.size = s.term root := by
    rw [planted.term_root place, source.term_root top, Layout.term_ofTerm]
  exact
    { size := by rw [size_plant, listed, L.length_preOrder]
      kept := fun id below => node?_plant_of_lt L.term below
      copies := by
        intro place id mem
        rw [listed] at mem
        obtain ⟨n, found, slot⟩ :=
          held.slot_move top place (L.preOrder_perm_postOrder.mem_iff.mp mem)
        refine ⟨n, found, planted.left.held (place id, _) ?_⟩
        rw [Layout.ofTerm_eq_move t.size source.nodup_preOrder, ← listed]
        exact slot
      top := planted.parent?_top place
      isTree := planted.isTree place
      consistent := planted.isConsistent place
      term := term
      text := congrArg Term.text term
      outline := congrArg Term.outline term }

/-- Copying the part below a node of a tree, node by node, adds as many nodes as the part has, in
the order node, left operand, right operand; they form a tree of their own with the tokens and links
of the part, and no other node changes.  A compacted tree has as many nodes as the part, and
compacting it again changes nothing. -/
theorem graft_copies (t : Tree) (isTree : s.IsTree root) (consistent : s.isConsistent root = true) :
    s.IsListed root ∧ t.graft s root = t.copy s root ∧ t.Copied s root (t.graft s root)
      ∧ (s.compact root).size = (s.preOrder root).length
      ∧ (s.compact root).compact first = s.compact root := by
  have back := isTree.linksBack consistent
  obtain ⟨L, top, held⟩ := isTree.exists_layout_of_linksBack back
  have source := held.congr (add_zero _).symm
  have whole := source.term_root top
  have copied (t : Tree) : t.Copied s root (t.graft s root) := by
    rw [graft, whole]
    exact held.copied top t
  refine ⟨isTree.isListed back, source.graft_eq_copy top t, copied t, ?_, ?_⟩
  · exact (copied empty).size.trans (Nat.zero_add _)
  · exact congrArg empty.plant (Has.term_plant (s.term root))

/-- A sum inside a product is copied out of a tree in which a cut out node is left. -/
theorem graft_copies_of_sum :
    let s : Tree := ⟨#[⟨.var "x", some 2, none, none⟩, ⟨.var "y", none, none, none⟩,
      ⟨.operator .add, some 4, some 3, some 0⟩, ⟨.var "z", some 2, none, none⟩,
      ⟨.operator .multiply, none, some 2, some 5⟩, ⟨.var "u", some 4, none, none⟩]⟩
    let t := empty.add (.var "v")
    s.IsTree 2 ∧ s.isConsistent 2 = true ∧ s.preOrder 2 = [2, 3, 0]
      ∧ t.graft s 2 = ⟨#[⟨.var "v", none, none, none⟩, ⟨.operator .add, none, some 2, some 3⟩,
        ⟨.var "z", some 1, none, none⟩, ⟨.var "x", some 1, none, none⟩]⟩
      ∧ t.Copied s 2 (t.graft s 2) ∧ (s.compact 2).size = 3
      ∧ (s.compact 2).compact first = s.compact 2 := by
  intro s t
  have held : s.Has ((Layout.node 2 (.operator .add) (.leaf 3 (.var "z"))
      (.leaf 0 (.var "x"))).slots (some 4) + 0) := by
    refine ⟨fun e mem => ?_, by decide⟩
    simp only [Layout.slots, Layout.slots_leaf, Multiset.mem_add, Multiset.mem_singleton,
      Multiset.notMem_zero, or_false] at mem
    rcases mem with rfl | rfl | rfl <;> rfl
  obtain ⟨-, stepwise, copied, size, again⟩ := graft_copies t (held.isTree rfl) rfl
  exact ⟨held.isTree rfl, rfl, rfl, stepwise.trans rfl, copied, size, again⟩

end Tree

end FormulaLang
