import FormulaLang.Proofs.Tree.Reading

/-!
Links between nodes.  In a linked tree every link to an operand is answered by a link to the parent,
and no node is both operands of another.  What the operations of reduction do to the links is said
link by link; from that, each one keeps a tree linked, whatever shape it has.
-/

namespace FormulaLang

/-- Nodes without links. -/
def Slots.AreLoose (S : Slots) : Prop :=
  ∀ s ∈ S, s.2.parent? = none ∧ s.2.left? = none ∧ s.2.right? = none

theorem Slots.AreLoose.add_leaf {S : Slots} (h : S.AreLoose) (id : NodeId) (token : Token) :
    Slots.AreLoose ((Layout.leaf id token).slots none + S) := by
  intro s mem
  rcases Multiset.mem_add.mp mem with here | mem
  · rw [Layout.slots_leaf, Multiset.mem_singleton] at here
    simp [here]
  · exact h s mem

theorem Slots.areLoose_zero : Slots.AreLoose 0 :=
  fun _ mem => absurd mem (Multiset.notMem_zero _)

namespace Tree

/-- Links lead both ways, and no node is both operands of another. -/
structure Linked (t : Tree) : Prop where
  both : ∀ p c, (t.left? p = some c ∨ t.right? p = some c) ↔ t.parent? c = some p
  once : ∀ p c, t.left? p = some c → t.right? p ≠ some c

variable {t : Tree} {id p c i new target : NodeId} {token : Token}

theorem Linked.of_links {t' : Tree} (h : t.Linked) (left : ∀ i, t'.left? i = t.left? i)
    (right : ∀ i, t'.right? i = t.right? i) (parent : ∀ i, t'.parent? i = t.parent? i) :
    t'.Linked where
  both p c := by
    rw [left, right, parent]
    exact h.both p c
  once p c := by
    rw [left, right]
    exact h.once p c

theorem linked_empty : empty.Linked where
  both p c := by simp [left?, right?, parent?, node?, empty]
  once p c := by simp [left?, node?, empty]

theorem node?_of_lt (h : i < t.size) : ∃ n, t.node? i = some n :=
  ⟨_, Array.getElem?_eq_getElem h⟩

theorem node?_size (t : Tree) : t.node? t.size = none :=
  Array.getElem?_eq_none (Nat.le_refl _)

theorem lt_of_parent? (h : t.parent? c = some p) : c < t.size := by
  obtain ⟨n, found, -⟩ := Option.bind_eq_some_iff.mp h
  exact lt_size_of_node? found

theorem lt_of_left? (h : t.left? p = some c) : p < t.size := by
  obtain ⟨n, found, -⟩ := Option.bind_eq_some_iff.mp h
  exact lt_size_of_node? found

theorem lt_of_right? (h : t.right? p = some c) : p < t.size := by
  obtain ⟨n, found, -⟩ := Option.bind_eq_some_iff.mp h
  exact lt_size_of_node? found

/-! ## Changing one node -/

theorem left?_modify (t : Tree) (id : NodeId) (f : Node → Node) (i : NodeId) :
    (t.modify id f).left? i =
      if i = id then ((t.node? i).map f).bind Node.left? else t.left? i := by
  simp only [left?, node?_modify]
  split <;> rfl

theorem right?_modify (t : Tree) (id : NodeId) (f : Node → Node) (i : NodeId) :
    (t.modify id f).right? i =
      if i = id then ((t.node? i).map f).bind Node.right? else t.right? i := by
  simp only [right?, node?_modify]
  split <;> rfl

theorem parent?_modify (t : Tree) (id : NodeId) (f : Node → Node) (i : NodeId) :
    (t.modify id f).parent? i =
      if i = id then ((t.node? i).map f).bind Node.parent? else t.parent? i := by
  simp only [parent?, node?_modify]
  split <;> rfl

@[simp] theorem size_setParent (t : Tree) (id : NodeId) (parent? : Option NodeId) :
    (t.setParent id parent?).size = t.size :=
  size_modify _ _ _

@[simp] theorem left?_setParent (t : Tree) (id : NodeId) (parent? : Option NodeId) (i : NodeId) :
    (t.setParent id parent?).left? i = t.left? i := by
  rw [setParent, left?_modify, left?]
  cases t.node? i <;> simp

@[simp] theorem right?_setParent (t : Tree) (id : NodeId) (parent? : Option NodeId) (i : NodeId) :
    (t.setParent id parent?).right? i = t.right? i := by
  rw [setParent, right?_modify, right?]
  cases t.node? i <;> simp

theorem parent?_setParent (there : id < t.size) (above? : Option NodeId) (i : NodeId) :
    (t.setParent id above?).parent? i = if i = id then above? else t.parent? i := by
  obtain ⟨n, found⟩ := node?_of_lt there
  rw [setParent, parent?_modify]
  split <;> simp [*]

/-! ## Operands -/

@[simp] theorem size_setLeft (t : Tree) (p c : NodeId) : (t.setLeft p c).size = t.size := by
  rw [setLeft, size_setParent, size_modify]

theorem left?_setLeft (there : p < t.size) (c i : NodeId) :
    (t.setLeft p c).left? i = if i = p then some c else t.left? i := by
  obtain ⟨n, found⟩ := node?_of_lt there
  rw [setLeft, left?_setParent, left?_modify]
  split <;> simp [*]

theorem right?_setLeft (t : Tree) (p c i : NodeId) : (t.setLeft p c).right? i = t.right? i := by
  rw [setLeft, right?_setParent, right?_modify, right?]
  cases t.node? i <;> simp

theorem parent?_setLeft (there : c < t.size) (p i : NodeId) :
    (t.setLeft p c).parent? i = if i = c then some p else t.parent? i := by
  rw [setLeft, parent?_setParent (by simpa using there), parent?_modify, parent?]
  cases t.node? i <;> simp

theorem left?_setRight (t : Tree) (p c i : NodeId) : (t.setRight p c).left? i = t.left? i := by
  rw [setRight, left?_setParent, left?_modify, left?]
  cases t.node? i <;> simp

theorem right?_setRight (there : p < t.size) (c i : NodeId) :
    (t.setRight p c).right? i = if i = p then some c else t.right? i := by
  obtain ⟨n, found⟩ := node?_of_lt there
  rw [setRight, right?_setParent, right?_modify]
  split <;> simp [*]

theorem parent?_setRight (there : c < t.size) (p i : NodeId) :
    (t.setRight p c).parent? i = if i = c then some p else t.parent? i := by
  rw [setRight, parent?_setParent (by simpa using there), parent?_modify, parent?]
  cases t.node? i <;> simp

-- A root becomes the missing left operand of a node.
theorem Linked.setLeft (h : t.Linked) (hp : p < t.size) (hc : c < t.size)
    (free : t.left? p = none) (loose : t.parent? c = none) : (t.setLeft p c).Linked where
  both q d := by
    rw [left?_setLeft hp, right?_setLeft, parent?_setLeft hc]
    have linked := h.both q d
    have unlinked := h.both q c
    grind
  once q d := by
    rw [left?_setLeft hp, right?_setLeft]
    have apart := h.once q d
    have unlinked := h.both p c
    grind

-- A root becomes the missing right operand of a node.
theorem Linked.setRight (h : t.Linked) (hp : p < t.size) (hc : c < t.size)
    (free : t.right? p = none) (loose : t.parent? c = none) : (t.setRight p c).Linked where
  both q d := by
    rw [left?_setRight, right?_setRight hp, parent?_setRight hc]
    have linked := h.both q d
    have unlinked := h.both q c
    grind
  once q d := by
    rw [left?_setRight, right?_setRight hp]
    have apart := h.once q d
    have unlinked := h.both p c
    grind

theorem Linked.append {t' : Tree} (h : t.Linked) (hp : p < t.size) (hc : c < t.size)
    (loose : t.parent? c = none) (appended : t.append p c = .ok t') : t'.Linked := by
  obtain ⟨⟨token, above?, left?, right?⟩, found⟩ := node?_of_lt hp
  rw [Tree.append, found] at appended
  cases right? with
  | some d => cases appended
  | none =>
    cases appended
    refine h.setRight hp hc ?_ loose
    rw [Tree.right?, found]
    rfl

/-! ## Exchanges -/

@[simp] theorem size_relink (t : Tree) (above? : Option NodeId) (old new : NodeId) :
    (t.relink above? old new).size = t.size := by
  unfold relink
  cases above? <;> simp

@[simp] theorem parent?_relink (t : Tree) (above? : Option NodeId) (old new i : NodeId) :
    (t.relink above? old new).parent? i = t.parent? i := by
  unfold relink
  cases above? with
  | none => rfl
  | some q =>
    simp only [parent?_modify]
    rw [parent?]
    cases t.node? i with
    | none => simp
    | some n =>
      simp only [Option.map_some, Option.bind_some]
      grind

-- In a linked tree, only the links to the exchanged node change.
theorem Linked.left?_relink (h : t.Linked) (old new i : NodeId) :
    (t.relink (t.parent? old) old new).left? i
      = if t.left? i = some old then some new else t.left? i := by
  have linked := h.both i old
  unfold relink
  cases above : t.parent? old with
  | none => grind
  | some q =>
    simp only [left?_modify]
    rw [left?] at *
    cases found : t.node? i with
    | none => simp
    | some n =>
      have right : t.right? i = n.right? := by simp [right?, found]
      simp only [found, Option.map_some, Option.bind_some] at *
      grind

theorem Linked.right?_relink (h : t.Linked) (old new i : NodeId) :
    (t.relink (t.parent? old) old new).right? i
      = if t.right? i = some old then some new else t.right? i := by
  have linked := h.both i old
  have apart := h.once i old
  unfold relink
  cases above : t.parent? old with
  | none => grind
  | some q =>
    simp only [right?_modify]
    rw [right?] at *
    cases found : t.node? i with
    | none => simp
    | some n =>
      have left : t.left? i = n.left? := by simp [left?, found]
      simp only [found, Option.map_some, Option.bind_some] at *
      grind

-- A root takes the place of a node, which becomes a root.
theorem Linked.replace (h : t.Linked) (hnew : new < t.size) (htarget : target < t.size)
    (loose : t.parent? new = none) : (t.replace new target).Linked := by
  by_cases same : new = target
  · rw [Tree.replace, if_pos same]
    exact h
  rw [Tree.replace, if_neg same]
  constructor
  · intro q d
    rw [parent?_setParent (by simpa using htarget), parent?_setParent (by simpa using hnew)]
    simp only [left?_setParent, right?_setParent, parent?_relink, h.left?_relink,
      h.right?_relink]
    have linked := h.both q d
    have unlinked := h.both q new
    have exchanged := h.both q target
    have apart := h.once q target
    grind
  · intro q d
    simp only [left?_setParent, right?_setParent, h.left?_relink, h.right?_relink]
    have apart := h.once q d
    have unlinked := h.both q new
    have apart' := h.once q target
    grind

@[simp] theorem size_usurp (t : Tree) (id target : NodeId) : (t.usurp id target).size = t.size := by
  simp only [usurp, size_setLeft, size_setParent, size_relink]

/-! ## Cutting out -/

theorem left?_orphan (t : Tree) (operand? : Option NodeId) (i : NodeId) :
    (t.orphan operand?).left? i = t.left? i := by
  cases operand? with
  | none => rfl
  | some child => exact left?_setParent t child none i

theorem right?_orphan (t : Tree) (operand? : Option NodeId) (i : NodeId) :
    (t.orphan operand?).right? i = t.right? i := by
  cases operand? with
  | none => rfl
  | some child => exact right?_setParent t child none i

theorem parent?_orphan (t : Tree) (operand? : Option NodeId) (i : NodeId) :
    (t.orphan operand?).parent? i = if operand? = some i then none else t.parent? i := by
  cases operand? with
  | none => rfl
  | some child =>
    rw [orphan, setParent, parent?_modify]
    by_cases same : i = child
    · subst same
      cases t.node? i <;> simp
    · simp [same, Ne.symm same]

theorem left?_collapse (t : Tree) (id : NodeId) (token : Token) (i : NodeId) :
    (t.collapse id token).left? i = if i = id then none else t.left? i := by
  rw [collapse_eq, left?_orphan, left?_orphan, left?_modify]
  cases t.node? i <;> simp

theorem right?_collapse (t : Tree) (id : NodeId) (token : Token) (i : NodeId) :
    (t.collapse id token).right? i = if i = id then none else t.right? i := by
  rw [collapse_eq, right?_orphan, right?_orphan, right?_modify]
  cases t.node? i <;> simp

theorem Linked.parent?_collapse (h : t.Linked) (id : NodeId) (token : Token) (i : NodeId) :
    (t.collapse id token).parent? i = if t.parent? i = some id then none else t.parent? i := by
  have linked := h.both id i
  have kept : ((t.node? i).map fun n => { n with token, left? := none, right? := none }).bind
      Node.parent? = t.parent? i := by
    rw [parent?]
    cases t.node? i <;> rfl
  rw [collapse_eq, parent?_orphan, parent?_orphan, parent?_modify, kept, ite_self]
  grind

-- A node loses its operands, which become roots.
theorem Linked.collapse (h : t.Linked) (id : NodeId) (token : Token) :
    (t.collapse id token).Linked where
  both q d := by
    rw [left?_collapse, right?_collapse, h.parent?_collapse]
    have linked := h.both q d
    grind
  once q d := by
    rw [left?_collapse, right?_collapse]
    have apart := h.once q d
    grind

/-! ## Adding -/

-- A node that is added has no links.
theorem links_add (t : Tree) (token : Token) (i : NodeId) :
    (t.add token).left? i = t.left? i ∧ (t.add token).right? i = t.right? i
      ∧ (t.add token).parent? i = t.parent? i := by
  simp only [left?, right?, parent?, node?_add]
  split
  · subst i
    rw [node?_size]
    exact ⟨rfl, rfl, rfl⟩
  · exact ⟨rfl, rfl, rfl⟩

theorem Linked.add (h : t.Linked) (token : Token) : (t.add token).Linked :=
  h.of_links (fun i => (links_add t token i).1) (fun i => (links_add t token i).2.1)
    fun i => (links_add t token i).2.2

namespace Has

variable {S : Slots} {L l r : Layout} {up? : Option NodeId}

theorem lt_size (h : t.Has ((Layout.node id token l r).slots up? + S)) : id < t.size := by
  rw [Layout.slots, add_assoc] at h
  exact lt_size_of_node? h.node?

theorem parent?_root (h : t.Has ((Layout.node id token l r).slots up? + S)) :
    t.parent? id = up? := by
  rw [Layout.slots, add_assoc] at h
  rw [Tree.parent?, h.node?]
  rfl

-- Operands in a layout link back.
theorem down (h : t.Has (L.slots up? + S)) : ∀ s ∈ L.slots up?, ∀ d,
    s.2.left? = some d ∨ s.2.right? = some d → t.parent? d = some s.1 := by
  induction L generalizing up? S with
  | absent => simp [Layout.slots]
  | node id token l r ihl ihr =>
    rw [Layout.slots, add_assoc] at h
    have below := h.right
    rw [add_assoc] at below
    have inLeft := ihl below
    have besides := below
    rw [add_left_comm] at below
    have inRight := ihr below
    have root {M : Layout} {S' : Slots} (held : t.Has (M.slots (some id) + S')) {d : NodeId}
        (same : M.root? = some d) : t.parent? d = some id := by
      cases M with
      | absent => cases same
      | node top token l r =>
        cases same
        rw [Layout.slots, add_assoc] at held
        rw [Tree.parent?, held.node?]
        rfl
    intro s mem d link
    rcases Multiset.mem_add.mp mem with here | mem
    · obtain rfl := Multiset.mem_singleton.mp here
      exact link.elim (root besides) (root below)
    · exact (Multiset.mem_add.mp mem).elim (inLeft s · d link) (inRight s · d link)

-- Parents in a layout link back, but for the one above its root.
theorem up (h : t.Has (L.slots up? + S)) : ∀ s ∈ L.slots up?, ∀ q, s.2.parent? = some q →
    up? = some q ∧ L.root? = some s.1 ∨ t.left? q = some s.1 ∨ t.right? q = some s.1 := by
  induction L generalizing up? S with
  | absent => simp [Layout.slots]
  | node id token l r ihl ihr =>
    rw [Layout.slots, add_assoc] at h
    have below := h.right
    rw [add_assoc] at below
    have inLeft := ihl below
    rw [add_left_comm] at below
    have inRight := ihr below
    have left : t.left? id = l.root? := by
      rw [Tree.left?, h.node?]
      rfl
    have right : t.right? id = r.root? := by
      rw [Tree.right?, h.node?]
      rfl
    intro s mem q link
    rcases Multiset.mem_add.mp mem with here | mem
    · obtain rfl := Multiset.mem_singleton.mp here
      exact .inl ⟨link, rfl⟩
    rcases Multiset.mem_add.mp mem with mem | mem
    · rcases inLeft s mem q link with ⟨same, root⟩ | linked
      · cases same
        exact .inr (.inl (left.trans root))
      · exact .inr linked
    · rcases inRight s mem q link with ⟨same, root⟩ | linked
      · cases same
        exact .inr (.inr (right.trans root))
      · exact .inr linked

-- The operands of a node in a layout have different places.
theorem once (h : t.Has (L.slots up? + S)) :
    ∀ s ∈ L.slots up?, ∀ d, s.2.left? = some d → s.2.right? ≠ some d := by
  induction L generalizing up? S with
  | absent => simp [Layout.slots]
  | node id token l r ihl ihr =>
    rw [Layout.slots, add_assoc] at h
    have below := h.right
    rw [add_assoc] at below
    have inLeft := ihl below
    rw [add_left_comm] at below
    have inRight := ihr below
    intro s mem d left right
    rcases Multiset.mem_add.mp mem with here | mem
    · obtain rfl := Multiset.mem_singleton.mp here
      cases r with
      | absent => cases right
      | node top token' l' r' =>
        cases l with
        | absent => cases left
        | node top' token'' l'' r'' =>
          cases left
          cases right
          rw [Layout.slots, add_assoc] at below
          refine below.ne_of_mem (s := (d, ⟨token'', some id, l''.root?, r''.root?⟩)) ?_ rfl
          simp [Layout.slots]
    · exact (Multiset.mem_add.mp mem).elim (inLeft s · d left right) (inRight s · d left right)

-- Where all other nodes have no links, a node with a link is in the layout.
theorem mem_of_tied {n : Node} (h : t.Has (L.slots none + S)) (loose : S.AreLoose)
    (full : t.size = (L.slots none + S).card) (found : t.node? i = some n)
    (tied : n.parent? ≠ none ∨ n.left? ≠ none ∨ n.right? ≠ none) : (i, n) ∈ L.slots none := by
  rcases Multiset.mem_add.mp (h.mem_of_full full found) with mem | mem
  · exact mem
  · obtain ⟨above, left, right⟩ := loose _ mem
    rcases tied with tied | tied | tied
    exacts [absurd above tied, absurd left tied, absurd right tied]

-- A tree is linked when it holds a layout and besides only nodes without links.
theorem linked (h : t.Has (L.slots none + S)) (loose : S.AreLoose)
    (full : t.size = (L.slots none + S).card) : t.Linked := by
  constructor
  · intro p c
    constructor
    · intro link
      obtain ⟨n, found⟩ := node?_of_lt (link.elim lt_of_left? lt_of_right?)
      simp only [Tree.left?, Tree.right?, found, Option.bind_some] at link
      have tied : n.left? ≠ none ∨ n.right? ≠ none :=
        link.imp (fun e => by simp [e]) fun e => by simp [e]
      exact h.down _ (h.mem_of_tied loose full found (.inr tied)) c link
    · intro link
      obtain ⟨n, found⟩ := node?_of_lt (lt_of_parent? link)
      rw [Tree.parent?, found, Option.bind_some] at link
      have mem := h.mem_of_tied loose full found (.inl (by simp [link]))
      rcases h.up _ mem p link with ⟨⟨⟩, -⟩ | linked
      exact linked
  · intro p c left
    obtain ⟨n, found⟩ := node?_of_lt (lt_of_left? left)
    simp only [Tree.left?, Tree.right?, found, Option.bind_some] at left ⊢
    exact h.once _ (h.mem_of_tied loose full found (.inr (.inl (by simp [left])))) c left

end Has

theorem node?_plant_of_lt (term : Term) (h : i < t.size) : (t.plant term).node? i = t.node? i :=
  Array.getElem?_append_left h

-- Behind the former nodes there are only those of the copy.
theorem mem_slots_of_plant {n : Node} {term : Term} (found : (t.plant term).node? i = some n)
    (h : t.size ≤ i) : (i, n) ∈ (Layout.ofTerm t.size term).slots none := by
  have found : (t.nodes ++ (term.nodesAt none t.size).toArray)[i]? = some n := found
  rw [Array.getElem?_append_right h, List.getElem?_toArray] at found
  rw [Layout.slots_ofTerm, Multiset.mem_coe, List.mem_map]
  exact ⟨(n, i), List.mk_mem_zipIdx_iff_le_and_getElem?_sub.mpr ⟨h, found⟩, rfl⟩

-- A copy is linked in itself and not with what was there before.
theorem Linked.plant (h : t.Linked) (term : Term) : (t.plant term).Linked := by
  have held := (Has.empty t).plant term
  have old {i : NodeId} (below : i < t.size) : (t.plant term).left? i = t.left? i
      ∧ (t.plant term).right? i = t.right? i ∧ (t.plant term).parent? i = t.parent? i := by
    simp only [left?, right?, parent?, node?_plant_of_lt term below, and_self]
  constructor
  · intro q d
    constructor
    · intro links
      by_cases below : q < t.size
      · rw [(old below).1, (old below).2.1] at links
        have parent := (h.both q d).mp links
        rw [(old (lt_of_parent? parent)).2.2]
        exact parent
      · obtain ⟨n, found⟩ := node?_of_lt (links.elim lt_of_left? lt_of_right?)
        refine held.down _ (mem_slots_of_plant found (Nat.le_of_not_lt below)) d ?_
        simpa [left?, right?, found] using links
    · intro parent
      by_cases below : d < t.size
      · rw [(old below).2.2] at parent
        have links := (h.both q d).mpr parent
        have above := links.elim lt_of_left? lt_of_right?
        rw [(old above).1, (old above).2.1]
        exact links
      · obtain ⟨n, found⟩ := node?_of_lt (lt_of_parent? parent)
        have mem := mem_slots_of_plant found (Nat.le_of_not_lt below)
        rw [parent?, found] at parent
        rcases held.up _ mem q parent with ⟨⟨⟩, -⟩ | links
        exact links
  · intro q d left
    by_cases below : q < t.size
    · rw [(old below).1] at left
      rw [(old below).2.1]
      exact h.once q d left
    · obtain ⟨n, found⟩ := node?_of_lt (lt_of_left? left)
      have apart := held.once _ (mem_slots_of_plant found (Nat.le_of_not_lt below)) d
      simp only [left?, right?, found, Option.bind_some] at left ⊢
      exact apart left

end Tree

end FormulaLang
