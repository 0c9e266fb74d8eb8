import FormulaLang.Proofs.Building.Spine

/-!
The grammar of token lists.  A list is normalised, so that texts after an access are one name and
every two operands have an operator between them; a normalised list is read by precedence climbing.
Reading it in one pass along a spine gives the same term.
-/

namespace FormulaLang

namespace Token

/-- Whether a token stands for a value or a name. -/
def isOperand : Token → Bool
  | operator _ => false
  | _ => true

/-- Whether a token is the operator of an access. -/
def isAccess : Token → Bool
  | operator op => op.isAccess
  | _ => false

end Token

namespace Operation

/-- Operators that are written between their operands. -/
def isBinary : Operation → Bool
  | negate | transform => false
  | _ => true

theorem isBinary_of_isArithmetic {op : Operation} (h : op.isArithmetic = true ∨ op = .power) :
    op.isBinary = true := by
  cases op <;> first | rfl | exact absurd h (by decide)

theorem isBinary_of_isAccess {op : Operation} (h : op.isAccess = true) : op.isBinary = true := by
  cases op <;> first | rfl | cases h

theorem isBinary_of_ofChar? {ch : Char} {op : Operation} (h : ofChar? ch = some op) :
    op.isBinary = true := by
  unfold ofChar? at h
  split at h <;> cases h <;> rfl

theorem precedence_le (op : Operation) : op.precedence ≤ transform.precedence := by
  cases op <;> decide

end Operation

namespace Grammar

/-- Joins the texts that directly follow an access into one name. -/
def joinKeys : List Token → List Token
  | [] => []
  | token :: rest =>
      if token.isAccess && !(rest.takeWhile Token.isText).isEmpty then
        token :: .name (String.join ((rest.takeWhile Token.isText).filterMap Token.text?))
          :: joinKeys (rest.dropWhile Token.isText)
      else
        token :: joinKeys rest
termination_by tokens => tokens.length
decreasing_by
  · have := (List.dropWhile_suffix Token.isText (l := rest)).length_le
    simp only [List.length_cons]
    omega
  · simp only [List.length_cons]
    omega

/-- The operator between two operands: a group or magnitude after a text is the argument of a
function, and any other two are multiplied. -/
def between (previous token : Token) : Operation :=
  if previous.isText && token.isUnexpanded then .transform else .multiply

/-- The operator to put between two tokens, when both are operands. -/
def between? (previous token : Token) : Option Operation :=
  if previous.isOperand && token.isOperand then some (between previous token) else none

/-- Puts operators between operands, after a token. -/
def fillAfter (previous : Token) : List Token → List Token
  | [] => []
  | token :: rest =>
      match between? previous token with
      | some op => .operator op :: token :: fillAfter token rest
      | none => token :: fillAfter token rest

/-- Puts operators between operands. -/
def fill : List Token → List Token
  | [] => []
  | token :: rest => token :: fillAfter token rest

/-- A list in which operands and binary operators take turns, as far as it is well formed. -/
def normalise (tokens : List Token) : List Token :=
  fill (joinKeys tokens)

/-- Operands, each after any number of minus signs, with a binary operator between every two. -/
inductive IsChain : List Token → Prop where
  | operand {x : Token} (operand : x.isOperand = true) : IsChain [x]
  | minus {rest : List Token} (h : IsChain rest) : IsChain (.operator .subtract :: rest)
  | binary {x : Token} (operand : x.isOperand = true) {op : Operation} (binary : op ≠ .negate)
      {rest : List Token} (h : IsChain rest) : IsChain (x :: .operator op :: rest)

/-! ## Precedence climbing -/

mutual

/-- Reads an operand, which a minus sign may negate, and then every operator of at least level
`min`; at most `count` tokens. -/
def expression : Nat → Nat → List Token → Option (Term × List Token)
  | 0, _, _ => none
  | _ + 1, _, [] => none
  | count + 1, min, .operator .subtract :: rest => do
      let (operand, rest) ← expression count Operation.negate.precedence rest
      operators count min (.node (.operator .negate) .absent operand) rest
  | _ + 1, _, .operator _ :: _ => none
  | count + 1, min, token :: rest => operators count min (.leaf token) rest

/-- Goes on with operators of at least level `min`, each with a right operand that binds more
tightly. -/
def operators : Nat → Nat → Term → List Token → Option (Term × List Token)
  | count + 1, min, left, .operator op :: rest =>
      if min ≤ op.precedence then do
        let (right, rest) ← expression count (op.precedence + 1) rest
        operators count min (.node (.operator op) left right) rest
      else
        some (left, .operator op :: rest)
  | _, _, left, rest => some (left, rest)

end

/-- Reads a whole list. -/
def parse (tokens : List Token) : Option Term :=
  match expression tokens.length 0 tokens with
  | some (t, []) => some t
  | _ => none

/-! ## One pass -/

/-- Reads a normalised list along a spine, with the term that is complete so far. -/
def scan : List Pending → Option Term → List Token → Option Term
  | pending, some t, [] => some (Spine.close pending t)
  | pending, some t, .operator op :: rest =>
      scan (⟨op, (Spine.climb op pending t).2⟩ :: (Spine.climb op pending t).1) none rest
  | _, some _, _ :: _ => none
  | _, none, [] => none
  | pending, none, .operator .subtract :: rest => scan (⟨.negate, .absent⟩ :: pending) none rest
  | _, none, .operator _ :: _ => none
  | pending, none, token :: rest => scan pending (some (.leaf token)) rest

/-- Whether a list ends or goes on with an operand or with an operator below a level. -/
def Stops (min : Nat) : List Token → Prop
  | .operator op :: _ => op.precedence < min
  | _ => True

/-- The level from which operators belong to the right operand of the first pending operator. -/
def floor : List Pending → Nat
  | [] => 0
  | f :: _ => if f.op = .negate then Operation.negate.precedence else f.op.precedence + 1

/-- Whether every minus sign of a list is still read as a subtraction. -/
def Unsigned (tokens : List Token) : Prop :=
  ∀ t ∈ tokens, t ≠ .operator .negate

theorem Unsigned.tail {t : Token} {tokens : List Token} (h : Unsigned (t :: tokens)) :
    Unsigned tokens :=
  fun u hu => h u (List.mem_cons_of_mem t hu)

theorem Unsigned.ne {op : Operation} {tokens : List Token} (h : Unsigned (.operator op :: tokens)) :
    op ≠ .negate := by
  intro hop
  exact h (.operator op) List.mem_cons_self (by rw [hop])

theorem Unsigned.of_suffix {tokens rest : List Token} (h : Unsigned tokens)
    (suffix : rest <:+ tokens) : Unsigned rest :=
  fun u hu => h u (suffix.subset hu)

theorem precedence_ne {op : Operation} (h : op ≠ .negate) : op.precedence ≠ 2 := by
  cases op <;> simp [Operation.precedence] at h ⊢

-- An operator that belongs to the operand of the first pending one completes none.
theorem climb_of_floor_le {op : Operation} {pending : List Pending} {t : Term} (h : op ≠ .negate)
    (le : floor pending ≤ op.precedence) : Spine.climb op pending t = (pending, t) := by
  cases pending with
  | nil => rfl
  | cons f rest =>
      have above : ¬ op.precedence ≤ f.op.precedence := by
        have := precedence_ne h
        simp only [floor] at le
        split at le
        next hf =>
          have two : Operation.negate.precedence = 2 := rfl
          rw [hf]
          omega
        next => omega
      simp only [Spine.climb, if_neg above]

theorem scan_operand {x : Token} (operand : x.isOperand = true) (pending : List Pending)
    (rest : List Token) : scan pending none (x :: rest) = scan pending (some (.leaf x)) rest := by
  cases x <;> first | rfl | cases operand

-- Of the operators only a minus sign is read where an operand is awaited.
theorem scan_awaited {op : Operation} {pending : List Pending} {rest : List Token} {t : Term}
    (h : scan pending none (.operator op :: rest) = some t) :
    op = .subtract ∧ scan (⟨.negate, .absent⟩ :: pending) none rest = some t := by
  cases op with
  | subtract => exact ⟨rfl, h⟩
  | _ => cases h

theorem scan_two_operands {x : Token} (operand : x.isOperand = true) (pending : List Pending)
    (t : Term) (rest : List Token) : scan pending (some t) (x :: rest) = none := by
  cases x <;> first | rfl | cases operand

theorem expression_operand {x : Token} (operand : x.isOperand = true) (count min : Nat)
    (rest : List Token) :
    expression (count + 1) min (x :: rest) = operators count min (.leaf x) rest := by
  cases x <;> first | rfl | cases operand

theorem operators_operand {x : Token} (operand : x.isOperand = true) (count min : Nat) (left : Term)
    (rest : List Token) : operators count min left (x :: rest) = some (left, x :: rest) := by
  cases count <;> cases x <;> first | rfl | cases operand

theorem stops_operand {x : Token} (operand : x.isOperand = true) (min : Nat) (rest : List Token) :
    Stops min (x :: rest) := by
  cases x <;> trivial

theorem operators_nil (count min : Nat) (left : Term) :
    operators count min left [] = some (left, []) := by
  cases count <;> rfl

-- A token is an operand or an operator.
theorem operator_or_operand (token : Token) :
    (∃ op, token = .operator op) ∨ token.isOperand = true := by
  cases token with
  | operator op => exact .inl ⟨op, rfl⟩
  | _ => exact .inr rfl

-- Where the right operand of the first pending operator stops, that operator is complete.
theorem scan_complete {f : Pending} {pending : List Pending} {t : Term} {tokens : List Token}
    (stops : Stops (floor (f :: pending)) tokens) :
    scan (f :: pending) (some t) tokens
      = scan pending (some (.node (.operator f.op) f.left t)) tokens := by
  cases tokens with
  | nil => simp only [scan, Spine.close]
  | cons token rest =>
      rcases operator_or_operand token with ⟨op, rfl⟩ | operand
      · have le : op.precedence ≤ f.op.precedence := by
          simp only [Stops, floor] at stops
          split at stops
          next hf =>
            rw [hf]
            omega
          next => omega
        simp only [scan, Spine.climb, if_pos le]
      · rw [scan_two_operands operand, scan_two_operands operand]

-- What climbing leaves unread is a part of what it was given and does not go on at its level;
-- an operand takes a token at least.
theorem climbing_stops (count : Nat) :
    (∀ min tokens t rest, tokens.length ≤ count → expression count min tokens = some (t, rest) →
      Stops min rest ∧ rest <:+ tokens ∧ rest.length < tokens.length) ∧
    (∀ min left tokens t rest, tokens.length ≤ count →
      operators count min left tokens = some (t, rest) → Stops min rest ∧ rest <:+ tokens) := by
  induction count with
  | zero =>
      constructor
      · intro min tokens t rest le h
        simp only [expression] at h
        cases h
      · intro min left tokens t rest le h
        have : tokens = [] := List.eq_nil_of_length_eq_zero (Nat.le_zero.mp le)
        subst this
        simp only [operators, Option.some.injEq, Prod.mk.injEq] at h
        rw [← h.2]
        exact ⟨trivial, List.suffix_refl _⟩
  | succ count ih =>
      -- each call reads a token before the next one, so one count bounds both parsers
      obtain ⟨ihE, ihO⟩ := ih
      constructor
      · intro min tokens t rest le h
        cases tokens with
        | nil =>
            simp only [expression] at h
            cases h
        | cons token tokens =>
            simp only [List.length_cons] at le
            rcases operator_or_operand token with ⟨op, rfl⟩ | operand
            · cases op <;> simp only [expression, reduceCtorEq] at h
              case subtract =>
                obtain ⟨⟨operand, middle⟩, hr, h⟩ := Option.bind_eq_some_iff.mp h
                dsimp only at h
                obtain ⟨-, suffix, lt⟩ := ihE _ _ _ _ (by omega) hr
                obtain ⟨stops, suffix'⟩ := ihO _ _ _ _ _ (by omega) h
                have := suffix'.length_le
                refine ⟨stops, (suffix'.trans suffix).trans (List.suffix_cons _ _), ?_⟩
                simp only [List.length_cons]
                omega
            · rw [expression_operand operand] at h
              obtain ⟨stops, suffix⟩ := ihO _ _ _ _ _ (by omega) h
              have := suffix.length_le
              refine ⟨stops, suffix.trans (List.suffix_cons _ _), ?_⟩
              simp only [List.length_cons]
              omega
      · intro min left tokens t rest le h
        cases tokens with
        | nil =>
            rw [operators_nil] at h
            cases h
            exact ⟨trivial, List.suffix_refl _⟩
        | cons token tokens =>
            simp only [List.length_cons] at le
            rcases operator_or_operand token with ⟨op, rfl⟩ | operand
            · simp only [operators] at h
              split at h
              next =>
                obtain ⟨⟨right, middle⟩, hr, h⟩ := Option.bind_eq_some_iff.mp h
                dsimp only at h
                obtain ⟨-, suffix, lt⟩ := ihE _ _ _ _ (by omega) hr
                obtain ⟨stops, suffix'⟩ := ihO _ _ _ _ _ (by omega) h
                exact ⟨stops, (suffix'.trans suffix).trans (List.suffix_cons _ _)⟩
              next below =>
                cases h
                exact ⟨Nat.lt_of_not_le below, List.suffix_refl _⟩
            · rw [operators_operand operand] at h
              cases h
              exact ⟨stops_operand operand _ _, List.suffix_refl _⟩

-- One pass along a spine reads what climbing at the level of its first operator reads.
theorem scan_eq_climbing (count : Nat) :
    (∀ tokens pending, tokens.length ≤ count → Unsigned tokens →
      scan pending none tokens
        = (expression count (floor pending) tokens).bind fun (t, rest) =>
            scan pending (some t) rest) ∧
    (∀ tokens pending t, tokens.length ≤ count → Unsigned tokens →
      scan pending (some t) tokens
        = (operators count (floor pending) t tokens).bind fun (t, rest) =>
            scan pending (some t) rest) := by
  induction count with
  | zero =>
      constructor
      · intro tokens pending le unsigned
        have : tokens = [] := List.eq_nil_of_length_eq_zero (Nat.le_zero.mp le)
        subst this
        rfl
      · intro tokens pending t le unsigned
        have : tokens = [] := List.eq_nil_of_length_eq_zero (Nat.le_zero.mp le)
        subst this
        rfl
  | succ count ih =>
      obtain ⟨ihE, ihO⟩ := ih
      -- the right operand of a new first operator is read, and then that operator is complete
      have right : ∀ (f : Pending) pending tokens, tokens.length ≤ count → Unsigned tokens →
          scan (f :: pending) none tokens
            = (expression count (floor (f :: pending)) tokens).bind fun (t, rest) =>
                (operators count (floor pending) (.node (.operator f.op) f.left t) rest).bind
                  fun (t, rest) => scan pending (some t) rest := by
        intro f pending tokens le unsigned
        rw [ihE tokens (f :: pending) le unsigned]
        refine Option.bind_congr fun (t, rest) h => ?_
        obtain ⟨stops, suffix, lt⟩ := (climbing_stops count).1 _ _ _ _ le h
        show scan (f :: pending) (some t) rest = _
        rw [scan_complete stops]
        exact ihO rest pending _ (by omega) (unsigned.of_suffix suffix)
      constructor
      · intro tokens pending le unsigned
        cases tokens with
        | nil => rfl
        | cons token tokens =>
            simp only [List.length_cons] at le
            rcases operator_or_operand token with ⟨op, rfl⟩ | operand
            · cases op <;> try rfl
              case subtract =>
                simp only [scan, expression]
                rw [right ⟨.negate, .absent⟩ pending tokens (by omega) unsigned.tail]
                simp only [floor, if_true]
                exact (Option.bind_assoc _ _ _).symm
            · rw [scan_operand operand, expression_operand operand]
              exact ihO tokens pending _ (by omega) unsigned.tail
      · intro tokens pending t le unsigned
        cases tokens with
        | nil => rw [operators_nil]; rfl
        | cons token tokens =>
            simp only [List.length_cons] at le
            rcases operator_or_operand token with ⟨op, rfl⟩ | operand
            · simp only [operators]
              split
              next within =>
                simp only [scan, climb_of_floor_le unsigned.ne within]
                rw [right ⟨op, t⟩ pending tokens (by omega) unsigned.tail]
                simp only [floor, if_neg unsigned.ne]
                exact (Option.bind_assoc _ _ _).symm
              next => rfl
            · rw [operators_operand operand]
              rfl

/-- One pass over a list is its parse. -/
theorem scan_eq_parse {tokens : List Token} (unsigned : Unsigned tokens) :
    scan [] none tokens = parse tokens := by
  rw [(scan_eq_climbing tokens.length).1 tokens [] (Nat.le_refl _) unsigned]
  unfold parse
  show (expression tokens.length 0 tokens).bind _ = _
  cases h : expression tokens.length 0 tokens with
  | none => rfl
  | some read =>
      obtain ⟨t, rest⟩ := read
      obtain ⟨stops, -⟩ := (climbing_stops tokens.length).1 _ _ _ _ (Nat.le_refl _) h
      cases rest with
      | nil => rfl
      | cons token rest =>
          rcases operator_or_operand token with ⟨op, rfl⟩ | operand
          · exact absurd stops (Nat.not_lt_zero _)
          · exact scan_two_operands operand [] t rest

/-! ## Lists that can be read -/

/-- Whether a list may follow an operand. -/
def Continues (tokens : List Token) : Prop :=
  tokens = [] ∨
    ∃ op rest, op ≠ .negate ∧ IsChain rest ∧ tokens = .operator op :: rest

theorem isChain_operand_iff {x : Token} (operand : x.isOperand = true) {rest : List Token} :
    IsChain (x :: rest) ↔ Continues rest := by
  constructor
  · intro h
    cases h with
    | operand => exact .inl rfl
    | minus => cases operand
    | binary _ binary h => exact .inr ⟨_, _, binary, h, rfl⟩
  · rintro (rfl | ⟨op, rest, binary, h, rfl⟩)
    · exact .operand operand
    · exact .binary operand binary h

theorem isChain_operator_iff {op : Operation} {rest : List Token} :
    IsChain (.operator op :: rest) ↔ op = .subtract ∧ IsChain rest := by
  constructor
  · intro h
    cases h with
    | operand operand => cases operand
    | minus h => exact ⟨rfl, h⟩
    | binary operand => cases operand
  · rintro ⟨rfl, h⟩
    exact .minus h

-- One pass over a list, along any spine, gets through exactly when operands and operators take
-- turns in it.
theorem scan_isSome_iff (tokens : List Token) (unsigned : Unsigned tokens) :
    (∀ pending, (scan pending none tokens).isSome = true ↔ IsChain tokens) ∧
    (∀ pending t, (scan pending (some t) tokens).isSome = true ↔ Continues tokens) := by
  induction tokens with
  | nil => exact ⟨fun _ => ⟨nofun, nofun⟩, fun _ _ => ⟨fun _ => .inl rfl, fun _ => rfl⟩⟩
  | cons token rest ih =>
      obtain ⟨ihNone, ihSome⟩ := ih unsigned.tail
      rcases operator_or_operand token with ⟨op, rfl⟩ | operand
      · constructor
        · intro pending
          rw [isChain_operator_iff]
          by_cases hop : op = .subtract
          · subst hop
            simp only [scan, ihNone, true_and]
          · have refused : scan pending none (.operator op :: rest) = none := by
              cases op <;> first | rfl | exact absurd rfl hop
            simp only [refused, hop, false_and, Option.isSome_none, Bool.false_eq_true]
        · intro pending t
          simp only [scan, ihNone]
          constructor
          · intro h
            exact .inr ⟨op, rest, unsigned.ne, h, rfl⟩
          · rintro (h | ⟨op, rest, -, h, eq⟩)
            · cases h
            · cases eq
              exact h
      · constructor
        · intro pending
          rw [scan_operand operand, ihSome, isChain_operand_iff operand]
        · intro pending t
          rw [scan_two_operands operand]
          constructor
          · nofun
          · rintro (h | ⟨op, rest, -, -, eq⟩)
            · cases h
            · cases eq
              cases operand

theorem parse_isSome_iff {tokens : List Token} (unsigned : Unsigned tokens) :
    (parse tokens).isSome = true ↔ IsChain tokens := by
  rw [← scan_eq_parse unsigned]
  exact (scan_isSome_iff tokens unsigned).1 []

end Grammar

end FormulaLang
