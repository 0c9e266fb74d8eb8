import FormulaLang.Proofs.Reduction.Refinement

/-!
Well-formed trees.  Every node is reached from the root by exactly one route, links lead both ways,
and every node has the operands that its token asks for.  A planted tree is well formed when its
term is.
-/

namespace FormulaLang

/-- The way from an operator down to a node: at each step, whether it goes to the right. -/
abbrev Route := List Bool

/-! ## Terms -/

namespace Term

/-- The part of a term at the end of a route. -/
def part : Term → Route → Term
  | t, [] => t
  | absent, _ :: _ => absent
  | node _ left right, onRight :: route => (if onRight then right else left).part route

def isName : Term → Bool
  | node (.name _) _ _ => true
  | _ => false

theorem not_isName {t : Term} (h : ∀ name left right, t = node (.name name) left right → False) :
    t.isName = false := by
  unfold isName
  split
  · exact (h _ _ _ rfl).elim
  · rfl

/-- The operands that a token may have.  A name is an operand only of an application, on the left,
and of an access, on the right; and what can be folded has been. -/
structure Fits (token : Token) (left right : Term) : Prop where
  expanded : token.isUnexpanded = false
  leaf : token.operation? = none → left = absent ∧ right = absent
  negation : ∀ op, token = .operator op → (left = absent ↔ op = .negate)
  operand : ∀ op, token = .operator op → right ≠ absent
  function : left.isName = true → token = .operator .transform
  key : right.isName = true → ∃ op, token = .operator op ∧ op.isAccess = true
  unfolded : ∀ op, token = .operator op → value? op left right = none

/-- Every token has the operands that it may have. -/
def WellFormed : Term → Prop
  | absent => True
  | node token left right => Fits token left right ∧ left.WellFormed ∧ right.WellFormed

/-- A well-formed term with a value: no name, and not absent. -/
structure IsValue (t : Term) : Prop where
  wellFormed : t.WellFormed
  present : t ≠ absent
  unnamed : t.isName = false

-- The left operand of anything but a negation and an application has a value.
theorem IsValue.left {op : Operation} {left right : Term}
    (h : (node (.operator op) left right).IsValue) (binary : op ≠ .negate ∧ op ≠ .transform) :
    left.IsValue where
  wellFormed := h.wellFormed.2.1
  present := mt (h.wellFormed.1.negation op rfl).mp binary.1
  unnamed := by
    rw [← Bool.not_eq_true]
    intro isName
    cases h.wellFormed.1.function isName
    exact binary.2 rfl

-- The right operand has a value unless it is the name of a member or a key.
theorem IsValue.right {op : Operation} {left right : Term}
    (h : (node (.operator op) left right).IsValue)
    (unnamed : op.isAccess = false ∨ right.isName = false) : right.IsValue where
  wellFormed := h.wellFormed.2.2
  present := h.wellFormed.1.operand op rfl
  unnamed := by
    rw [← Bool.not_eq_true]
    intro isName
    obtain ⟨op', same, access⟩ := h.wellFormed.1.key isName
    cases same
    rcases unnamed with plain | unnamed
    · rw [plain] at access
      cases access
    · rw [unnamed] at isName
      cases isName

-- Arithmetic that is not folded has an operand that is no literal.
theorem number?_of_value? {op : Operation} {left right : Term}
    (arithmetic : op.isArithmetic = true ∨ op = .power ∨ op = .negate)
    (unfolded : value? op left right = none) :
    right.number? = none ∨ op ≠ .negate ∧ left.number? = none := by
  cases isRight : right.number? with
  | none => exact .inl rfl
  | some y =>
    cases isLeft : left.number? with
    | none =>
      refine .inr ⟨?_, rfl⟩
      rintro rfl
      simp [value?, isRight, Operation.onNumbers?] at unfolded
    | some x =>
      cases op <;> simp [value?, isLeft, isRight, Operation.onNumbers?, Operation.isArithmetic]
        at unfolded arithmetic

theorem WellFormed.part {t : Term} (h : t.WellFormed) (route : Route) :
    (t.part route).WellFormed := by
  induction route generalizing t with
  | nil =>
    rw [Term.part]
    exact h
  | cons onRight route ih =>
    cases t with
    | absent => trivial
    | node token left right =>
      obtain ⟨-, hl, hr⟩ := h
      cases onRight with
      | false => exact ih hl
      | true => exact ih hr

end Term

/-! ## Layouts -/

namespace Layout

/-- The part of a layout at the end of a route. -/
def part : Layout → Route → Layout
  | L, [] => L
  | absent, _ :: _ => absent
  | node _ _ left right, onRight :: route => (if onRight then right else left).part route

theorem term_part (L : Layout) (route : Route) : (L.part route).term = L.term.part route := by
  induction route generalizing L with
  | nil => rw [part, Term.part]
  | cons onRight route ih =>
    cases L with
    | absent => rfl
    | node id token left right => cases onRight <;> exact ih _

/-- The place above the end of a route, below a parent. -/
def above? (parent? : Option NodeId) : Layout → Route → Option NodeId
  | _, [] => parent?
  | absent, _ :: _ => none
  | node id _ left right, onRight :: route =>
      (if onRight then right else left).above? (some id) route

theorem part_append (L : Layout) (route rest : Route) :
    L.part (route ++ rest) = (L.part route).part rest := by
  induction route generalizing L with
  | nil => rw [part, List.nil_append]
  | cons onRight route ih =>
    cases L with
    | absent => cases rest <;> rfl
    | node id token left right => exact ih _

variable {L l r : Layout} {id : NodeId} {token : Token} {n : Node} {parent? : Option NodeId}
  {route route' : Route}

theorem slot_of_part (h : L.part route = node id token l r) :
    (id, ⟨token, L.above? parent? route, l.root?, r.root?⟩) ∈ L.slots parent? := by
  induction route generalizing L parent? with
  | nil =>
    rw [part] at h
    subst h
    exact Multiset.mem_add.mpr (.inl (Multiset.mem_singleton_self _))
  | cons onRight route ih =>
    cases L with
    | absent => cases h
    | node id' token' left right =>
      refine Multiset.mem_add.mpr (.inr (Multiset.mem_add.mpr ?_))
      cases onRight with
      | false => exact .inl (ih h)
      | true => exact .inr (ih h)

theorem part_of_slot (h : (id, n) ∈ L.slots parent?) :
    ∃ route l r, L.part route = node id n.token l r := by
  induction L generalizing parent? with
  | absent => exact absurd h (Multiset.notMem_zero _)
  | node id' token' left right hl hr =>
    rcases Multiset.mem_add.mp h with here | below
    · cases Multiset.mem_singleton.mp here
      exact ⟨[], left, right, rfl⟩
    · rcases Multiset.mem_add.mp below with below | below
      · obtain ⟨route, l, r, found⟩ := hl below
        exact ⟨false :: route, l, r, found⟩
      · obtain ⟨route, l, r, found⟩ := hr below
        exact ⟨true :: route, l, r, found⟩

-- Nothing but an operand stands one step further down.
theorem part_of_append {onRight : Bool} (h : L.part (route ++ [onRight]) = node id token l r) :
    ∃ top token' left right, L.part route = node top token' left right ∧
      (if onRight then right else left) = node id token l r := by
  rw [part_append] at h
  cases above : L.part route with
  | absent =>
    rw [above] at h
    cases h
  | node top token' left right =>
    rw [above] at h
    exact ⟨top, token', left, right, rfl, by cases onRight <;> exact h⟩

-- Places are different, so no two routes end at one.
theorem route_unique (distinct : ((L.slots parent?).map Prod.fst).Nodup)
    (h : (L.part route).root? = some id) (h' : (L.part route').root? = some id) :
    route = route' := by
  have placed {L : Layout} {parent? : Option NodeId} {route : Route}
      (h : (L.part route).root? = some id) : id ∈ (L.slots parent?).map Prod.fst := by
    cases found : L.part route with
    | absent => rw [found] at h; cases h
    | node id' token l r =>
      rw [found] at h
      cases h
      exact Multiset.mem_map_of_mem Prod.fst (slot_of_part found)
  induction L generalizing route route' parent? with
  | absent => cases route <;> cases h
  | node top token left right hl hr =>
    rw [slots, Multiset.map_add, Multiset.map_add, Multiset.map_singleton, Multiset.singleton_add,
      Multiset.nodup_cons, Multiset.mem_add, Multiset.nodup_add] at distinct
    obtain ⟨apart, distinctLeft, distinctRight, disjoint⟩ := distinct
    -- below the root, the place is on one side
    have below {onRight : Bool} {rest : Route}
        (h : ((node top token left right).part (onRight :: rest)).root? = some id) :
        id ≠ top ∧ if onRight then id ∈ (right.slots (some top)).map Prod.fst
          else id ∈ (left.slots (some top)).map Prod.fst := by
      cases onRight with
      | false =>
        have mem : id ∈ (left.slots (some top)).map Prod.fst := placed h
        exact ⟨fun same => apart (.inl (same ▸ mem)), mem⟩
      | true =>
        have mem : id ∈ (right.slots (some top)).map Prod.fst := placed h
        exact ⟨fun same => apart (.inr (same ▸ mem)), mem⟩
    cases route with
    | nil =>
      cases route' with
      | nil => rfl
      | cons side rest =>
        cases h
        exact absurd rfl (below h').1
    | cons side rest =>
      cases route' with
      | nil =>
        cases h'
        exact absurd rfl (below h).1
      | cons side' rest' =>
        have mem := (below h).2
        have mem' := (below h').2
        cases side with
        | false =>
          cases side' with
          | false => rw [hl distinctLeft h h']
          | true => exact absurd mem' (Multiset.disjoint_left.mp disjoint mem)
        | true =>
          cases side' with
          | false => exact absurd mem (Multiset.disjoint_left.mp disjoint mem')
          | true => rw [hr distinctRight h h']

end Layout

/-! ## Trees -/

namespace Tree

/-- The node at the end of a route. -/
def follow (t : Tree) : NodeId → Route → Option NodeId
  | id, [] => some id
  | id, onRight :: route =>
      (if onRight then t.right? id else t.left? id).bind fun child => t.follow child route

/-- Every node is reached from the root by one route, links lead both ways, and every node has the
operands that its token asks for. -/
structure WellFormed (t : Tree) : Prop where
  nonempty : first < t.size
  reached : ∀ id < t.size, ∃! route, t.follow first route = some id
  linked : ∀ id child, (t.left? id = some child ∨ t.right? id = some child) ↔
    t.parent? child = some id
  top : t.parent? first = none
  expanded : ∀ id token, t.token? id = some token → token.isUnexpanded = false
  leaves : ∀ id token, t.token? id = some token → token.operation? = none →
    t.left? id = none ∧ t.right? id = none
  operands : ∀ id op, t.token? id = some (.operator op) →
    (t.right? id).isSome ∧ ((t.left? id).isSome ↔ op ≠ .negate)
  /-- Names are functions on the left of an application, and members and keys. -/
  names : ∀ id name, t.token? id = some (.name name) → ∃ parent op,
    t.token? parent = some (.operator op) ∧
      (op = .transform ∧ t.left? parent = some id ∨
        op.isAccess = true ∧ t.right? parent = some id)
  /-- Arithmetic has an operand that is no literal. -/
  folded : ∀ id op, t.token? id = some (.operator op) →
    op.isArithmetic = true ∨ op = .power ∨ op = .negate → ∃ child,
      (t.left? id = some child ∨ t.right? id = some child) ∧
        ∀ x, t.token? child ≠ some (.number x)

variable {t : Tree} {L : Layout} {S : Slots} {parent? : Option NodeId} {id : NodeId}

theorem follow_eq (h : t.Has (L.slots parent? + S)) (root : L.root? = some id) (route : Route) :
    t.follow id route = (L.part route).root? := by
  induction route generalizing L parent? S id with
  | nil =>
    rw [follow, Layout.part, root]
  | cons onRight route ih =>
    cases L with
    | absent => cases root
    | node id' token left right =>
      cases root
      rw [Layout.slots, add_assoc] at h
      have none_part : ∀ route, (Layout.absent.part route).root? = none := by
        intro route
        cases route <;> rfl
      have go {child : Layout} {S : Slots} (h : t.Has (child.slots (some id) + S)) :
          (child.root?.bind fun id => t.follow id route) = (child.part route).root? := by
        cases child with
        | absent => exact (none_part route).symm
        | node top token l r => exact ih h rfl
      have below := h.right
      rw [add_assoc] at below
      cases onRight with
      | false =>
        have left? : t.left? id = left.root? := by rw [Tree.left?, h.node?]; rfl
        show (t.left? id).bind _ = (left.part route).root?
        rw [left?]
        exact go below
      | true =>
        have right? : t.right? id = right.root? := by rw [Tree.right?, h.node?]; rfl
        show (t.right? id).bind _ = (right.part route).root?
        rw [right?]
        exact go (below.congr (add_left_comm _ _ _))

/-- A tree that holds a layout, its root first, and nothing else. -/
structure Spans (t : Tree) (L : Layout) : Prop where
  held : t.Has (L.slots none)
  root : L.root? = some first
  full : t.size = L.term.size

namespace Spans

variable {token : Token} {l r : Layout} {n : Node} {route : Route}

theorem node?_of_part (h : t.Spans L) (found : L.part route = .node id token l r) :
    t.node? id = some ⟨token, L.above? none route, l.root?, r.root?⟩ :=
  h.held.held _ (Layout.slot_of_part found)

-- There are as many slots as places, so every place has one.
theorem part_of_lt (h : t.Spans L) (below : id < t.size) :
    ∃ route token l r, L.part route = .node id token l r := by
  obtain ⟨n, there⟩ := node?_of_lt below
  have mem := h.held.mem_of_full (by rw [Layout.card_slots, h.full]) there
  obtain ⟨route, l, r, found⟩ := Layout.part_of_slot mem
  exact ⟨route, _, l, r, found⟩

-- Where a node stands, with all its links.
theorem part_of_node? (h : t.Spans L) (there : t.node? id = some n) :
    ∃ route l r, L.part route = .node id n.token l r ∧ n.parent? = L.above? none route ∧
      n.left? = l.root? ∧ n.right? = r.root? := by
  obtain ⟨route, token, l, r, found⟩ := h.part_of_lt (lt_size_of_node? there)
  have known := h.node?_of_part found
  rw [there] at known
  cases known
  exact ⟨route, l, r, found, rfl, rfl, rfl⟩

theorem part_of_token? (h : t.Spans L) (there : t.token? id = some token) :
    ∃ route l r, L.part route = .node id token l r ∧ t.left? id = l.root? ∧
      t.right? id = r.root? := by
  obtain ⟨n, found, rfl⟩ := Option.map_eq_some_iff.mp there
  obtain ⟨route, l, r, part, -, left, right⟩ := h.part_of_node? found
  refine ⟨route, l, r, part, ?_, ?_⟩
  · rw [left?, found, ← left]
    rfl
  · rw [right?, found, ← right]
    rfl

theorem reached (h : t.Spans L) (below : id < t.size) :
    ∃! route, t.follow first route = some id := by
  have follow (route : Route) : t.follow first route = (L.part route).root? :=
    follow_eq (h.held.congr (add_zero _).symm) h.root route
  obtain ⟨route, token, l, r, found⟩ := h.part_of_lt below
  have ends : (L.part route).root? = some id := congrArg Layout.root? found
  refine ⟨route, (follow route).trans ends, fun route' followed => ?_⟩
  exact Layout.route_unique h.held.distinct ((follow route').symm.trans followed) ends

theorem linked (h : t.Spans L) : t.Linked := by
  have whole : L.slots none = L.slots none + 0 := (add_zero _).symm
  refine (h.held.congr whole).linked Slots.areLoose_zero ?_
  rw [add_zero, Layout.card_slots, h.full]

theorem fits (hu : L.term.WellFormed) (found : L.part route = .node id token l r) :
    Term.Fits token l.term r.term := by
  have part := hu.part route
  rw [← Layout.term_part, found] at part
  exact part.1

theorem names (h : t.Spans L) (hu : L.term.WellFormed) (value : L.term.isName = false)
    {name : String} (there : t.token? id = some (.name name)) :
    ∃ parent op, t.token? parent = some (.operator op) ∧
      (op = .transform ∧ t.left? parent = some id ∨
        op.isAccess = true ∧ t.right? parent = some id) := by
  obtain ⟨route, l, r, found, -⟩ := h.part_of_token? there
  obtain rfl | ⟨front, onRight, rfl⟩ := List.eq_nil_or_concat' route
  · rw [Layout.part] at found
    rw [found] at value
    cases value
  · obtain ⟨top, token, left, right, owner, operand⟩ := Layout.part_of_append found
    have fits := fits hu owner
    have known := h.node?_of_part owner
    have isName : (Layout.node id (.name name) l r).term.isName = true := rfl
    have tokenTop : t.token? top = some token := by
      rw [token?, known]
      rfl
    cases onRight with
    | false =>
      have operand : left = .node id (.name name) l r := operand
      obtain rfl := fits.function (operand ▸ isName)
      refine ⟨top, .transform, tokenTop, .inl ⟨rfl, ?_⟩⟩
      rw [left?, known]
      exact congrArg Layout.root? operand
    | true =>
      have operand : right = .node id (.name name) l r := operand
      obtain ⟨op, rfl, access⟩ := fits.key (operand ▸ isName)
      refine ⟨top, op, tokenTop, .inr ⟨access, ?_⟩⟩
      rw [right?, known]
      exact congrArg Layout.root? operand

-- An operand that is no literal stands at a node that is none.
theorem not_literal (h : t.Spans L) {onRight : Bool} {top : Layout}
    (part : L.part (route ++ [onRight]) = top) (there : top.term ≠ .absent)
    (other : top.term.number? = none) :
    ∃ child, top.root? = some child ∧ ∀ x, t.token? child ≠ some (.number x) := by
  cases top with
  | absent => exact absurd rfl there
  | node child token l r =>
    refine ⟨child, rfl, fun x literal => ?_⟩
    rw [token?, h.node?_of_part part] at literal
    cases literal
    cases other

/-- A tree that holds a well-formed term, and nothing else, is well formed. -/
theorem wellFormed (h : t.Spans L) (hu : L.term.WellFormed) (value : L.term.isName = false) :
    t.WellFormed where
  nonempty := by
    rw [h.full]
    cases L with
    | absent => cases h.root
    | node id token l r => exact Nat.succ_pos _
  reached _ := h.reached
  linked := h.linked.both
  top := by
    cases L with
    | absent => cases h.root
    | node id token l r =>
      cases h.root
      have whole : (Layout.node first token l r).part [] = .node first token l r := rfl
      rw [parent?, h.node?_of_part whole]
      rfl
  expanded id token there := by
    obtain ⟨route, l, r, found, -⟩ := h.part_of_token? there
    exact (fits hu found).expanded
  leaves id token there plain := by
    obtain ⟨route, l, r, found, left, right⟩ := h.part_of_token? there
    obtain ⟨noLeft, noRight⟩ := (fits hu found).leaf plain
    rw [left, right]
    exact ⟨Layout.root?_eq_none.mpr noLeft, Layout.root?_eq_none.mpr noRight⟩
  operands id op there := by
    obtain ⟨route, l, r, found, left, right⟩ := h.part_of_token? there
    have fits := fits hu found
    rw [left, right, Option.isSome_iff_ne_none, Option.isSome_iff_ne_none, ne_eq, ne_eq,
      Layout.root?_eq_none, Layout.root?_eq_none]
    exact ⟨fits.operand op rfl, not_congr (fits.negation op rfl)⟩
  names _ _ := h.names hu value
  folded id op there arithmetic := by
    obtain ⟨route, l, r, found, left, right⟩ := h.part_of_token? there
    have fits := fits hu found
    have part (onRight : Bool) : L.part (route ++ [onRight]) = if onRight then r else l := by
      rw [Layout.part_append, found]
      cases onRight <;> rfl
    rcases Term.number?_of_value? arithmetic (fits.unfolded op rfl) with other | ⟨binary, other⟩
    · obtain ⟨child, root, plain⟩ := h.not_literal (part true) (fits.operand op rfl) other
      exact ⟨child, .inr (right.trans root), plain⟩
    · have there := mt (fits.negation op rfl).mp binary
      obtain ⟨child, root, plain⟩ := h.not_literal (part false) there other
      exact ⟨child, .inl (left.trans root), plain⟩

end Spans

/-- Planting a well-formed term with a value makes a well-formed tree. -/
theorem wellFormed_plant {u : Term} (hu : u.IsValue) : (empty.plant u).WellFormed := by
  have spans : (empty.plant u).Spans (Layout.ofTerm first u) :=
    { held := ((Has.empty empty).plant u).congr (add_zero _)
      root := by
        cases u with
        | absent => exact absurd rfl hu.present
        | node token left right => rfl
      full := by
        rw [Layout.term_ofTerm]
        simp [size, plant, empty, Term.length_nodesAt] }
  refine spans.wellFormed ?_ ?_
  · rw [Layout.term_ofTerm]
    exact hu.wellFormed
  · rw [Layout.term_ofTerm]
    exact hu.unnamed

end Tree

end FormulaLang
