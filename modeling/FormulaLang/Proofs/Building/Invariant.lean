import FormulaLang.Proofs.Building.Order
import FormulaLang.Proofs.Tree.Subtree

/-!
What holds of a builder at any time, also after tokens that were refused.  Its nodes are those of
one tree, whose right edge ends at the node placed last, and nodes without links.  From left to right
this tree has the tokens that were accepted.
-/

namespace FormulaLang

/-- An operator has its right operand unless it is the one at `last`, and no other token has
operands. -/
def Node.IsFilled (last : NodeId) (id : NodeId) (n : Node) : Prop :=
  if n.token.isOperand then n.left? = none ∧ n.right? = none else n.right? = none → id = last

namespace Layout

theorem filled_of_slot {L : Layout} (h : L.term.Filled) (last : NodeId)
    {parent? : Option NodeId} : ∀ s ∈ L.slots parent?, s.2.IsFilled last s.1 := by
  induction L generalizing parent? with
  | absent => simp [slots]
  | node id token l r ihl ihr =>
    obtain ⟨own, hl, hr⟩ := h
    rw [← Layout.root?_eq_none, ← Layout.root?_eq_none, ne_eq, ← Layout.root?_eq_none] at own
    intro s mem
    rcases Multiset.mem_add.mp mem with here | mem
    · obtain rfl := Multiset.mem_singleton.mp here
      rw [Node.IsFilled]
      split at own
      next operand =>
        rw [if_pos operand]
        exact own
      next operator =>
        rw [if_neg operator]
        exact fun none => absurd none own
    · exact (Multiset.mem_add.mp mem).elim (ihl hl s) (ihr hr s)

end Layout

namespace Path

variable {path : Path} {pending : List Pending}

theorem filled_of_slot (above : List.Forall₂ Step.Fits path pending)
    (filled : ∀ f ∈ pending, f.left.Filled) (last operand : NodeId) :
    ∀ s ∈ path.slots (some operand), s.2.IsFilled last s.1 := by
  induction above generalizing operand with
  | nil => simp [slots]
  | @cons step f path pending fits above ih =>
    rw [List.forall_mem_cons] at filled
    intro s mem
    rcases Multiset.mem_add.mp mem with here | mem
    · obtain rfl := Multiset.mem_singleton.mp here
      simp [Node.IsFilled, Step.node, fits.onRight, fits.token, Token.isOperand]
    · rcases Multiset.mem_add.mp mem with mem | mem
      · exact Layout.filled_of_slot (fits.left ▸ filled.1) last s mem
      · exact ih filled.2 step.id s mem

-- A path that only goes up from right operands is the right edge.
theorem part_plug (above : List.Forall₂ Step.Fits path pending) (focus : Layout) :
    (path.plug focus).part (List.replicate path.length true) = focus := by
  induction above generalizing focus with
  | nil => cases focus <;> rfl
  | @cons step f path pending fits above ih =>
    rw [plug, List.length_cons, List.replicate_succ', Layout.part_append, ih, Step.fill,
      if_pos fits.onRight]
    cases focus <;> rfl

end Path

namespace Tree

variable {t : Tree} {S : Slots} {last : NodeId} {s : Spine}

/-- A tree that shows a spine holds its term in a layout whose right edge ends at the node placed
last. -/
theorem Shows.layout (h : t.Shows S last s) (filled : s.Filled) :
    ∃ L : Layout, L.root? = some (t.top last) ∧ t.Has (L.slots none + S) ∧ L.term = s.whole
      ∧ (∀ slot ∈ L.slots none, slot.2.IsFilled last slot.1)
      ∧ (∃ count, (L.part (List.replicate count true)).root? = some last)
      ∧ t.right? last = none := by
  obtain ⟨path, pending, token, l, above, among, held, whole, own⟩ := Builder.focus_of_shows h
  have complete : ∀ f ∈ pending, f.left.Filled := fun f mem => filled.pending f (among f mem)
  refine ⟨path.plug (.node last token l .absent), held.top.symm, ?_, ?_, ?_, ⟨path.length, ?_⟩,
    held.right?⟩
  · rw [← Path.site_eq_slots_plug]
    exact held
  · rw [Builder.term_plug above]
    exact whole
  · rw [← Path.site_eq_slots_plug]
    intro slot mem
    rcases Multiset.mem_add.mp mem with mem | mem
    · rcases Multiset.mem_add.mp mem with here | mem
      · obtain rfl := Multiset.mem_singleton.mp here
        rcases own with ⟨rfl, operand⟩ | ⟨f, -, rfl, -⟩
        · rw [Node.IsFilled, if_pos (filled.operand token operand)]
          exact ⟨rfl, rfl⟩
        · exact fun _ => rfl
      · rw [Layout.slots, add_zero] at mem
        rcases own with ⟨rfl, -⟩ | ⟨f, pending, -, left⟩
        · exact absurd mem (Multiset.notMem_zero slot)
        · exact Layout.filled_of_slot (left ▸ filled.pending f pending) last slot mem
    · exact Path.filled_of_slot above complete last last slot mem
  · rw [Path.part_plug above]
    rfl

-- A node that is added does not change what is above another one.
theorem Shows.top_add (h : t.Shows S last s) (token : Token) :
    (t.add token).top last = t.top last := by
  obtain ⟨path, pending, token', l, above, -, held, -⟩ := Builder.focus_of_shows h
  have added := (held.add token).congr (add_left_comm _ _ _)
  exact Option.some.inj (added.top.trans held.top.symm)

end Tree

/-! ## At any time -/

namespace Builder

/-- Places tokens one after the other and goes on after one that is refused.  Tells which ones were
accepted. -/
def offer (b : Builder) : List Token → Builder × List Token
  | [] => (b, [])
  | token :: rest =>
      match b.push token with
      | (.ok (), b) => ((b.offer rest).1, token :: (b.offer rest).2)
      | (.error _, b) => b.offer rest

/-- What holds of a builder that has accepted tokens. -/
structure Intact (b : Builder) (accepted : List Token) : Prop where
  linked : b.tree.Linked
  /-- No node is an operand of two. -/
  parents : ∀ p q c, (b.tree.left? p = some c ∨ b.tree.right? p = some c) →
    (b.tree.left? q = some c ∨ b.tree.right? q = some c) → p = q
  /-- No way down leads back to where it starts. -/
  acyclic : ∀ id route, b.tree.follow id route = some id → route = []
  /-- Only operators have operands. -/
  operators : ∀ p c, b.tree.left? p = some c ∨ b.tree.right? p = some c →
    ∃ op, b.tree.token? p = some (.operator op)
  /-- The node placed last ends the right edge of its tree. -/
  edge : ∀ last, b.last? = some last → b.tree.parent? (b.tree.top last) = none
    ∧ (∃ count, b.tree.follow (b.tree.top last) (List.replicate count true) = some last)
    ∧ b.tree.right? last = none
  /-- No other operator of its tree lacks its right operand. -/
  awaiting : ∀ last, b.last? = some last → ∀ route id op,
    b.tree.follow (b.tree.top last) route = some id →
      b.tree.token? id = some (.operator op) → b.tree.right? id = none → id = last
  /-- From left to right, its tree reads as the accepted tokens. -/
  reading : ∀ last, b.last? = some last →
    (b.tree.term (b.tree.top last)).inorder = Grammar.entered accepted

theorem intact_empty : Intact empty [] where
  linked := Tree.linked_empty
  parents p q c := by rintro (link | link) <;> cases link
  acyclic id route around := by
    cases route with
    | nil => rfl
    | cons onRight rest => cases onRight <;> cases around
  operators p c := by rintro (link | link) <;> cases link
  edge := nofun
  awaiting := nofun
  reading := nofun

variable {b : Builder} {s : Spine} {accepted : List Token}

theorem intact_of_shows (h : b.Shows s) (filled : s.Filled)
    (order : s.latest = accepted.foldl Grammar.enter []) : b.Intact accepted := by
  obtain ⟨last, S, before, shown, loose, full⟩ := h
  obtain ⟨t, last?⟩ := b
  obtain rfl : last? = some last := before
  obtain ⟨L, top, held, whole, complete, ⟨count, ends⟩, noRight⟩ := shown.layout filled
  have all : t.size = (L.slots none + S).card := by
    rw [Multiset.card_add, Layout.card_slots, whole, full]
  constructor
  case linked => exact held.linked loose all
  case parents =>
    intro p q c above above'
    have linked := held.linked loose all
    exact Option.some.inj (((linked.both p c).mp above).symm.trans ((linked.both q c).mp above'))
  case acyclic => exact fun id route => held.acyclic top loose all
  case operators =>
    intro p c link
    obtain ⟨n, found⟩ := Tree.node?_of_lt (link.elim Tree.lt_of_left? Tree.lt_of_right?)
    simp only [Tree.left?, Tree.right?, found, Option.bind_some] at link
    have tied : n.left? ≠ none ∨ n.right? ≠ none :=
      link.imp (fun e => by simp [e]) fun e => by simp [e]
    have slot := complete _ (held.mem_of_tied loose all found (.inr tied))
    rcases Grammar.operator_or_operand n.token with ⟨op, operator⟩ | operand
    · exact ⟨op, by rw [Tree.token?, found, ← operator]; rfl⟩
    · rw [Node.IsFilled, if_pos operand] at slot
      rcases tied with tied | tied
      exacts [absurd slot.1 tied, absurd slot.2 tied]
  case edge =>
    rintro _ ⟨⟩
    exact ⟨held.parent?_top top, ⟨count, (Tree.follow_eq held top _).trans ends⟩, noRight⟩
  case awaiting =>
    rintro _ ⟨⟩ route id op reached operator lacks
    obtain ⟨n, slot, found⟩ := held.slot_of_follow top reached
    have filled := complete _ slot
    rw [Tree.token?, found] at operator
    rw [Tree.right?, found] at lacks
    rw [Node.IsFilled, Option.some.inj operator] at filled
    exact filled lacks
  case reading =>
    rintro _ ⟨⟩
    rw [held.term_root top, whole, Grammar.entered, ← order, ← Spine.inorder_whole,
      List.reverse_reverse]

-- Each token is accepted, and then is the next in order, or changes nothing.
theorem offer_of_shows (h : b.Shows s) (filled : s.Filled)
    (order : s.latest = accepted.foldl Grammar.enter []) (tokens : List Token) :
    ∃ s', (b.offer tokens).1.Shows s' ∧ s'.Filled
      ∧ s'.latest = (accepted ++ (b.offer tokens).2).foldl Grammar.enter [] := by
  induction tokens generalizing b s accepted with
  | nil => exact ⟨s, h, filled, by rw [offer, List.append_nil, order]⟩
  | cons token rest ih =>
    have pushed := push_of_shows h token
    cases result : s.place token with
    | ok s₁ =>
      rw [result] at pushed
      obtain ⟨b₁, pushed, shown⟩ := pushed
      have places := Spine.places_of_place filled result
      have order₁ : s₁.latest = (accepted ++ [token]).foldl Grammar.enter [] := by
        rw [places.latest filled, order, List.foldl_append]
        rfl
      obtain ⟨s', shown', filled', order'⟩ := ih shown (places.filled filled) order₁
      rw [offer, pushed]
      rw [List.append_assoc] at order'
      exact ⟨s', shown', filled', order'⟩
    | error e =>
      rw [result] at pushed
      obtain ⟨token', pushed⟩ := pushed
      rw [offer, pushed]
      exact ih (h.add token') filled order

-- A builder accepts the tokens that its spine accepts.
theorem push_isOk (h : b.Shows s) (filled : s.Filled) (token : Token) :
    (b.push token).1.isOk = Grammar.admits s.latest token := by
  rw [← Spine.place_isOk filled]
  have pushed := push_of_shows h token
  cases result : s.place token with
  | ok s' =>
    rw [result] at pushed
    obtain ⟨b', pushed, -⟩ := pushed
    rw [pushed]
    rfl
  | error e =>
    rw [result] at pushed
    obtain ⟨token', pushed⟩ := pushed
    rw [pushed]
    rfl

-- What a refused token leaves as it was.
theorem push_refused {b' : Builder} {token : Token} {e : Failure} (h : b.Shows s)
    (filled : s.Filled) (refused : b.push token = (.error e, b')) :
    b'.last? = b.last? ∧ (∀ i < b.tree.size, b'.tree.node? i = b.tree.node? i)
      ∧ ∀ last, b.last? = some last → b'.tree.top last = b.tree.top last
        ∧ b'.tree.term (b'.tree.top last) = b.tree.term (b.tree.top last) := by
  have pushed := push_of_shows h token
  cases result : s.place token with
  | ok s' =>
    rw [result] at pushed
    obtain ⟨b'', pushed, -⟩ := pushed
    rw [refused] at pushed
    cases pushed
  | error e' =>
    rw [result] at pushed
    obtain ⟨token', pushed⟩ := pushed
    rw [refused] at pushed
    cases pushed
    obtain ⟨last, S, before, shown, -⟩ := h
    refine ⟨rfl, fun i below => ?_, fun last' same => ?_⟩
    · rw [Tree.node?_add, if_neg (Nat.ne_of_lt below)]
    · rw [before] at same
      cases same
      obtain ⟨L, top, held, -⟩ := shown.layout filled
      have added := (held.add token').congr (add_left_comm _ _ _)
      dsimp only
      rw [shown.top_add token']
      exact ⟨rfl, (added.term_root top).trans (held.term_root top).symm⟩

/-- Whatever tokens a builder is offered, it stays intact.  It accepts the tokens that can be the
next in order, and one that it refuses leaves all nodes before it and the tree of the node placed
last as they were. -/
theorem offer_intact (tokens : List Token) :
    let b := (empty.offer tokens).1
    b.Intact (empty.offer tokens).2
    ∧ (b.last? = none → tokens = [])
    ∧ (∀ token, (b.push token).1.isOk
        = Grammar.admits ((empty.offer tokens).2.foldl Grammar.enter []) token)
    ∧ ∀ token e b', b.push token = (.error e, b') →
      b'.last? = b.last?
      ∧ (∀ i < b.tree.size, b'.tree.node? i = b.tree.node? i)
      ∧ ∀ last, b.last? = some last → b'.tree.top last = b.tree.top last
        ∧ b'.tree.term (b'.tree.top last) = b.tree.term (b.tree.top last) := by
  cases tokens with
  | nil => exact ⟨intact_empty, fun _ => rfl, fun token => rfl, nofun⟩
  | cons token rest =>
    obtain ⟨b, pushed, shown⟩ := push_empty token
    have order : (Spine.start token).latest = [token].foldl Grammar.enter [] :=
      Spine.latest_start token
    obtain ⟨s, shown, filled, order⟩ :=
      offer_of_shows shown (Spine.start_filled token) order rest
    rw [offer, pushed]
    refine ⟨intact_of_shows shown filled order, fun none => ?_, fun token => ?_,
      fun token e b' => push_refused shown filled⟩
    · obtain ⟨last, S, before, -⟩ := shown
      rw [before] at none
      cases none
    · rw [push_isOk shown filled, order]
      rfl

-- A second operator is refused unless it is a minus sign, and texts after an access are joined.
example :
    let offered := empty.offer [.var "a", .operator .property, .operator .multiply, .var "b",
      .var "c", .operator .power, .operator .subtract, .var "d", .group "e"]
    offered.2 = [.var "a", .operator .property, .var "b", .var "c", .operator .power,
      .operator .subtract, .var "d", .group "e"]
    ∧ Grammar.entered offered.2 = [.var "a", .operator .property, .name "bc", .operator .power,
      .operator .negate, .var "d", .operator .transform, .group "e"] := by
  decide +kernel

end Builder

end FormulaLang
