import FormulaLang.Proofs.Building.Precedence

/-!
The order of tokens.  From left to right, the tree under construction reads as the tokens that were
placed, with an operator between two operands, a negation for a minus sign without a left operand,
and one name for the texts after an access.
-/

namespace FormulaLang

namespace Term

/-- The tokens of a term from left to right. -/
def inorder : Term → List Token
  | absent => []
  | node token left right => left.inorder ++ token :: right.inorder

/-- Every operator has its right operand, and no other token has operands. -/
def Filled : Term → Prop
  | absent => True
  | node token left right =>
      (if token.isOperand then left = absent ∧ right = absent else right ≠ absent)
        ∧ left.Filled ∧ right.Filled

theorem filled_leaf {token : Token} (operand : token.isOperand = true) : (leaf token).Filled := by
  rw [leaf, Filled, if_pos operand]
  exact ⟨⟨rfl, rfl⟩, trivial, trivial⟩

end Term

/-- Whether a token can stand where an operand is awaited. -/
def Token.opens : Token → Bool
  | operator op => op == .subtract || op == .negate
  | _ => true

theorem Token.opens_of_isOperand {y : Token} (operand : y.isOperand = true) : y.opens = true := by
  cases y <;> first | rfl | cases operand

namespace Grammar

/-- The name that a text makes with the name before it, if this one follows an access. -/
def joined? : Token → List Token → Token → Option Token
  | .name earlier, .operator op :: _, token =>
      if op.isAccess then token.text?.map fun text => .name (earlier ++ text) else none
  | _, _, _ => none

/-- What tokens in order, the last one first, become with one more.  Where an operand is awaited the
only operator is a minus sign. -/
def enter : List Token → Token → List Token
  | [], .operator op => [.operator (if op = .subtract then .negate else op)]
  | [], token => [token]
  | .operator op :: before, .operator _ => .operator .negate :: .operator op :: before
  | .operator op :: before, token => Spine.settled op.isAccess token :: .operator op :: before
  | previous :: before, .operator op => .operator op :: previous :: before
  | previous :: before, token =>
      match joined? previous before token with
      | some name => name :: before
      | none => token :: .operator (between previous token) :: previous :: before

/-- Whether a token can be the next after tokens in order, the last one first.  Where an operand is
awaited the only operator that can is a minus sign, and nothing can after a first token that is any
other operator. -/
def admits : List Token → Token → Bool
  | .operator op :: before, token => (op == .negate || !before.isEmpty) && token.opens
  | _, _ => true

section

variable {x y : Token} {op : Operation} {before : List Token}

theorem admits_operand (operand : x.isOperand = true) (token : Token) :
    admits (x :: before) token = true := by
  cases x <;> first | rfl | cases operand

theorem enter_awaited (operand : y.isOperand = true) :
    enter (.operator op :: before) y
      = Spine.settled op.isAccess y :: .operator op :: before := by
  cases y <;> first | rfl | cases operand

theorem enter_operator (operand : x.isOperand = true) :
    enter (x :: before) (.operator op) = .operator op :: x :: before := by
  cases x <;> first | rfl | cases operand

theorem enter_operand (earlier : x.isOperand = true) (operand : y.isOperand = true) :
    enter (x :: before) y =
      match joined? x before y with
      | some name => name :: before
      | none => y :: .operator (between x y) :: x :: before := by
  cases x with
  | operator => cases earlier
  | _ => cases y <;> first | rfl | cases operand

end

/-- Tokens in order as they are in a tree. -/
def entered (tokens : List Token) : List Token :=
  (tokens.foldl enter []).reverse

end Grammar

namespace Spine

open Grammar

/-- What stands before the right operand of the first pending operator, the last token first. -/
def earlier (pending : List Pending) : List Token :=
  pending.flatMap fun f => .operator f.op :: f.left.inorder.reverse

/-- The tokens of a spine in order, the last one first. -/
def latest (s : Spine) : List Token :=
  s.operand?.toList ++ earlier s.pending

theorem inorder_close (pending : List Pending) (t : Term) :
    (close pending t).inorder.reverse = t.inorder.reverse ++ earlier pending := by
  induction pending generalizing t with
  | nil => simp [close, earlier]
  | cons f rest ih => simp [close, ih, Term.inorder, earlier]

theorem inorder_whole (s : Spine) : s.whole.inorder.reverse = s.latest := by
  obtain ⟨pending, operand?⟩ := s
  rw [whole, inorder_close, latest]
  cases operand? <;> rfl

-- Climbing completes operators and leaves the order.
theorem earlier_climb (op : Operation) (pending : List Pending) (t : Term) :
    (climb op pending t).2.inorder.reverse ++ earlier (climb op pending t).1
      = t.inorder.reverse ++ earlier pending := by
  rw [← inorder_close, ← inorder_close, close_climb]

/-- Something is placed.  Every operator to the left of the spine has its right operand.  No pending
operator lacks its left one but negations and one that is alone. -/
structure Filled (s : Spine) : Prop where
  placed : s.latest ≠ []
  pending : ∀ f ∈ s.pending, f.left.Filled
  leftless : ∀ f ∈ s.pending, f.left = .absent → f.op = .negate ∨ s = ⟨[f], none⟩
  operand : ∀ x, s.operand? = some x → x.isOperand = true

theorem climb_filled {op : Operation} {pending : List Pending} {t : Term}
    (filled : ∀ f ∈ pending, f.left.Filled) (there : t ≠ .absent) (ht : t.Filled) :
    ∀ f ∈ (⟨op, (climb op pending t).2⟩ : Pending) :: (climb op pending t).1, f.left.Filled := by
  induction pending generalizing t with
  | nil => simpa [climb] using ht
  | cons g rest ih =>
    simp only [List.mem_cons, forall_eq_or_imp] at filled
    rw [climb]
    split
    · exact ih filled.2 (node_ne_absent _ _ _) ⟨there, filled.1, ht⟩
    · simpa using ⟨ht, filled⟩

-- The operators that climbing leaves pending were pending.
theorem mem_of_climb {op : Operation} {pending : List Pending} {t : Term} :
    ∀ f ∈ (climb op pending t).1, f ∈ pending := by
  induction pending generalizing t with
  | nil => simp [climb]
  | cons g rest ih =>
    rw [climb]
    split
    · exact fun f mem => List.mem_cons_of_mem g (ih f mem)
    · exact fun f mem => mem

-- Beside an operand only negations lack their left operands.
theorem Filled.negates {pending : List Pending} {x : Token} (filled : Filled ⟨pending, some x⟩) :
    ∀ f ∈ pending, f.left = .absent → f.op = .negate := fun f mem absent =>
  (filled.leftless f mem absent).resolve_right fun same => by cases same

theorem negates_joined {pending : List Pending}
    (negates : ∀ f ∈ pending, f.left = .absent → f.op = .negate) (op : Operation) (x : Token) :
    ∀ f ∈ joined op pending (.leaf x), f.left = .absent → f.op = .negate := by
  have there : (climb op pending (.leaf x)).2 ≠ .absent :=
    Builder.climb_ne_absent (node_ne_absent _ _ _)
  intro f mem absent
  rcases List.mem_cons.mp mem with rfl | mem
  · exact absurd absent there
  · exact negates f (mem_of_climb f mem) absent

theorem start_filled (token : Token) : (start token).Filled := by
  cases token with
  | operator op =>
    cases op <;> exact ⟨List.cons_ne_nil _ _, by simp [start, Term.Filled], by simp [start],
      by simp [start]⟩
  | _ =>
    exact ⟨List.cons_ne_nil _ _, by simp [start], by simp [start], by simp [start, Token.isOperand]⟩

theorem latest_start (token : Token) : (start token).latest = enter [] token := by
  cases token with
  | operator op => cases op <;> rfl
  | _ => rfl

/-- What an accepted token makes of a spine. -/
inductive Places : Spine → Token → Spine → Prop where
  | negation {f : Pending} {rest : List Pending} (op : Operation)
      (ready : ready (f :: rest) = .ok ()) :
      Places ⟨f :: rest, none⟩ (.operator op) ⟨⟨.negate, .absent⟩ :: f :: rest, none⟩
  | operand {f : Pending} {rest : List Pending} {y : Token} (operand : y.isOperand = true)
      (ready : ready (f :: rest) = .ok ()) :
      Places ⟨f :: rest, none⟩ y ⟨f :: rest, some (settled f.op.isAccess y)⟩
  | operator (pending : List Pending) (x : Token) (op : Operation) :
      Places ⟨pending, some x⟩ (.operator op) ⟨joined op pending (.leaf x), none⟩
  | key {f : Pending} (rest : List Pending) (name : String) {y : Token} {text : String}
      (access : f.op.isAccess = true) (isText : y.text? = some text) :
      Places ⟨f :: rest, some (.name name)⟩ y ⟨f :: rest, some (.name (name ++ text))⟩
  | beside (pending : List Pending) (x : Token) {y : Token} (operand : y.isOperand = true)
      (apart : y.isText = false ∨ grows ⟨pending, some x⟩ = false) :
      Places ⟨pending, some x⟩ y ⟨joined (between x y) pending (.leaf x), some y⟩

-- Where an operand is awaited, the first operator must be ready for it.
theorem place_awaiting (f : Pending) (rest : List Pending) (token : Token) :
    if token.opens then
      ∃ s', place ⟨f :: rest, none⟩ token = (ready (f :: rest)).map (fun _ => s')
        ∧ (ready (f :: rest) = .ok () → Places ⟨f :: rest, none⟩ token s')
    else ∃ e, place ⟨f :: rest, none⟩ token = .error e := by
  rcases operator_or_operand token with ⟨op, rfl⟩ | operand
  · rw [place, placeOperator]
    simp only [Token.opens, Bool.or_eq_true, beq_iff_eq]
    split
    · exact ⟨_, rfl, .negation op⟩
    · exact ⟨_, rfl⟩
  · rw [if_pos (Token.opens_of_isOperand operand)]
    exact ⟨_, place_awaited operand, .operand operand⟩

-- After an operand every token has a place.
theorem place_after (pending : List Pending) (x token : Token) :
    ∃ s', place ⟨pending, some x⟩ token = .ok s' ∧ Places ⟨pending, some x⟩ token s' := by
  rcases operator_or_operand token with ⟨op, rfl⟩ | operand
  · exact ⟨_, rfl, .operator pending x op⟩
  · by_cases apart : token.isText = false ∨ grows ⟨pending, some x⟩ = false
    · exact ⟨_, place_unawaited operand apart, .beside pending x operand apart⟩
    · rw [not_or, Bool.not_eq_false, Bool.not_eq_false] at apart
      obtain ⟨isText, grow⟩ := apart
      obtain ⟨text, isText⟩ := Option.isSome_iff_exists.mp isText
      cases x with
      | name name =>
        cases pending with
        | nil => cases grow
        | cons f rest => exact ⟨_, place_key grow isText, .key rest name grow isText⟩
      | _ => cases grow

theorem places_of_place {s s' : Spine} {token : Token} (filled : s.Filled)
    (h : s.place token = .ok s') : Places s token s' := by
  obtain ⟨pending, _ | x⟩ := s
  · cases pending with
    | nil => exact absurd rfl filled.placed
    | cons f rest =>
      have placed := place_awaiting f rest token
      rw [h] at placed
      split at placed
      · obtain ⟨s'', same, places⟩ := placed
        obtain ⟨_, ready, rfl⟩ := ok_of_map same.symm
        exact places ready
      · obtain ⟨e, same⟩ := placed
        cases same
  · obtain ⟨s'', placed, places⟩ := place_after pending x token
    rw [h] at placed
    cases placed
    exact places

theorem ready_isOk {f : Pending} {rest : List Pending} (filled : Filled ⟨f :: rest, none⟩) :
    (ready (f :: rest)).isOk
      = (f.op == .negate || !(f.left.inorder.reverse ++ earlier rest).isEmpty) := by
  have leftless := filled.leftless f List.mem_cons_self
  obtain ⟨op, left⟩ := f
  cases left with
  | absent =>
    rw [ready]
    by_cases negates : op = .negate
    · rw [if_pos negates, negates]
      rfl
    · rw [if_neg negates]
      have single := (leftless rfl).resolve_left negates
      cases single
      simp [Term.inorder, earlier, negates, Except.isOk, Except.toBool]
  | node token l r => simp [ready, Term.inorder, Except.isOk, Except.toBool]

/-- A spine accepts the tokens that can be the next in order. -/
theorem place_isOk {s : Spine} (filled : s.Filled) (token : Token) :
    (s.place token).isOk = admits s.latest token := by
  obtain ⟨pending, _ | x⟩ := s
  · cases pending with
    | nil => exact absurd rfl filled.placed
    | cons f rest =>
      have next : admits (latest ⟨f :: rest, none⟩) token
          = ((f.op == .negate || !(f.left.inorder.reverse ++ earlier rest).isEmpty)
            && token.opens) := rfl
      rw [next, ← ready_isOk filled]
      have placed := place_awaiting f rest token
      split at placed
      next opens =>
        obtain ⟨s', same, -⟩ := placed
        rw [same, opens, Bool.and_true]
        cases ready (f :: rest) <;> rfl
      next closes =>
        obtain ⟨e, same⟩ := placed
        have closed : token.opens = false := by simpa using closes
        rw [same, closed, Bool.and_false]
        rfl
  · obtain ⟨s', placed, -⟩ := place_after pending x token
    rw [placed]
    exact (admits_operand (filled.operand x rfl) token).symm

section

variable {s s' : Spine} {token : Token}

theorem settled_isOperand {y : Token} (underAccess : Bool) (operand : y.isOperand = true) :
    (settled underAccess y).isOperand = true := by
  unfold settled
  split
  · split
    · rfl
    · exact operand
  · exact operand

theorem joined?_of_apart {pending : List Pending} {x y : Token}
    (apart : y.isText = false ∨ grows ⟨pending, some x⟩ = false) :
    joined? x (earlier pending) y = none := by
  cases pending with
  | nil => cases x <;> rfl
  | cons f rest =>
    cases x with
    | name name =>
      show (if f.op.isAccess then _ else none) = none
      split
      next access =>
        rcases apart with plain | apart
        · rw [Option.map_eq_none_iff]
          simpa [Token.isText] using plain
        · exact absurd (access.symm.trans apart) (by decide)
      next => rfl
    | _ => rfl

/-- An accepted token is the next in order. -/
theorem Places.latest (h : Places s token s') (filled : s.Filled) :
    s'.latest = enter s.latest token := by
  cases h with
  | negation op ready => rfl
  | operand operand ready => exact (enter_awaited operand).symm
  | operator pending x op =>
    refine Eq.trans ?_ (enter_operator (filled.operand x rfl)).symm
    exact congrArg (.operator op :: ·) (earlier_climb op pending (.leaf x))
  | @key f rest name _ text access isText =>
    have operand : token.isOperand = true := by
      cases token <;> first | rfl | cases isText
    have joins : joined? (.name name) (earlier (f :: rest)) token
        = some (.name (name ++ text)) := by
      show (if f.op.isAccess then token.text?.map _ else none) = _
      rw [if_pos access, isText]
      rfl
    show _ = enter (.name name :: earlier (f :: rest)) token
    rw [enter_operand rfl operand, joins]
    rfl
  | beside pending x operand apart =>
    show _ = enter (x :: earlier pending) token
    rw [enter_operand (filled.operand x rfl) operand, joined?_of_apart apart]
    exact congrArg (token :: .operator (between x token) :: ·)
      (earlier_climb _ pending (.leaf x))

-- Where the first operator is ready, only negations lack their left operands.
theorem Filled.negates_of_ready {f : Pending} {rest : List Pending}
    (filled : Filled ⟨f :: rest, none⟩) (h : ready (f :: rest) = .ok ()) :
    ∀ g ∈ f :: rest, g.left = .absent → g.op = .negate := by
  intro g mem absent
  refine (filled.leftless g mem absent).elim id fun single => ?_
  cases single
  obtain ⟨op, left⟩ := f
  cases absent
  by_contra other
  rw [ready, if_neg other] at h
  cases h

/-- An accepted token leaves no operator to the left without its right operand. -/
theorem Places.filled (h : Places s token s') (filled : s.Filled) : s'.Filled := by
  cases h with
  | negation op ready =>
    have negates := filled.negates_of_ready ready
    exact ⟨List.cons_ne_nil _ _, List.forall_mem_cons.mpr ⟨trivial, filled.pending⟩,
      List.forall_mem_cons.mpr ⟨fun _ => .inl rfl, fun g mem absent => .inl (negates g mem absent)⟩,
      by simp⟩
  | operand operand ready =>
    have negates := filled.negates_of_ready ready
    refine ⟨List.cons_ne_nil _ _, filled.pending, fun g mem absent => .inl (negates g mem absent),
      fun x same => ?_⟩
    cases same
    exact settled_isOperand _ operand
  | operator pending x op =>
    have leaf := Term.filled_leaf (filled.operand x rfl)
    have complete : ∀ f ∈ joined op pending (.leaf x), f.left.Filled :=
      climb_filled filled.pending (node_ne_absent _ _ _) leaf
    have negates := negates_joined filled.negates op x
    exact ⟨List.cons_ne_nil _ _, complete, fun f mem absent => .inl (negates f mem absent), by simp⟩
  | key rest name access isText =>
    refine ⟨List.cons_ne_nil _ _, filled.pending,
      fun f mem absent => .inl (filled.negates f mem absent), fun x same => ?_⟩
    cases same
    rfl
  | beside pending x operand apart =>
    have leaf := Term.filled_leaf (filled.operand x rfl)
    have complete : ∀ f ∈ joined (between x token) pending (.leaf x), f.left.Filled :=
      climb_filled filled.pending (node_ne_absent _ _ _) leaf
    have negates := negates_joined filled.negates (between x token) x
    refine ⟨List.cons_ne_nil _ _, complete, fun f mem absent => .inl (negates f mem absent),
      fun x same => ?_⟩
    cases same
    exact operand

end

end Spine

end FormulaLang
