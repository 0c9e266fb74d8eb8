import FormulaLang.Proofs.Building.Grammar
import FormulaLang.Proofs.Building.Refinement

/-!
Building a tree token by token is precedence climbing over the normalised tokens.  A spine follows
one pass over the normalised list: the operators that normalising puts in are those that placing an
operand puts in, and the name that a spine grows after an access is the name that texts are joined
to.
-/

namespace FormulaLang

namespace Grammar

/-! ## Normalised lists -/

/-- The tokens after one that may be an access, texts after it joined. -/
def joinAfter (access : Bool) (tokens : List Token) : List Token :=
  if access && !(tokens.takeWhile Token.isText).isEmpty then
    .name (String.join ((tokens.takeWhile Token.isText).filterMap Token.text?))
      :: joinKeys (tokens.dropWhile Token.isText)
  else
    joinKeys tokens

theorem joinKeys_cons (token : Token) (rest : List Token) :
    joinKeys (token :: rest) = token :: joinAfter token.isAccess rest := by
  rw [joinKeys, joinAfter]
  split <;> rfl

theorem joinAfter_nil (access : Bool) : joinAfter access [] = [] := by
  cases access <;> rw [joinAfter, joinKeys] <;> rfl

theorem joinAfter_false (tokens : List Token) : joinAfter false tokens = joinKeys tokens := rfl

theorem joinKeys_operand {x : Token} (operand : x.isOperand = true) (rest : List Token) :
    joinKeys (x :: rest) = x :: joinKeys rest := by
  have h : x.isAccess = false := by
    cases x <;> first | rfl | cases operand
  rw [joinKeys_cons, h, joinAfter_false]

theorem joinAfter_of_not_text {token : Token} (h : token.isText = false) (access : Bool)
    (rest : List Token) : joinAfter access (token :: rest) = joinKeys (token :: rest) := by
  have none : (token :: rest).takeWhile Token.isText = [] := by
    rw [List.takeWhile_cons, h]
    rfl
  simp only [joinAfter, none, List.isEmpty_nil, Bool.not_true, Bool.and_false, Bool.false_eq_true,
    if_false]

theorem joinAfter_text {token : Token} {text : String} (h : token.text? = some text)
    (rest : List Token) :
    joinAfter true (token :: rest)
      = .name (text ++ String.join ((rest.takeWhile Token.isText).filterMap Token.text?))
          :: joinKeys (rest.dropWhile Token.isText) := by
  have isText : token.isText = true := by
    rw [Token.isText, h]
    rfl
  rw [joinAfter, List.takeWhile_cons, List.dropWhile_cons, if_pos isText, if_pos isText]
  simp only [List.isEmpty_cons, Bool.not_false, Bool.and_true, if_true, List.filterMap_cons, h,
    String.join_cons]

theorem fillAfter_operator (op : Operation) (tokens : List Token) :
    fillAfter (.operator op) tokens = fill tokens := by
  cases tokens with
  | nil => rfl
  | cons token rest => rfl

theorem fill_cons (token : Token) (rest : List Token) :
    fill (token :: rest) = token :: fillAfter token rest := rfl

theorem fillAfter_to_operator (x : Token) (op : Operation) (rest : List Token) :
    fillAfter x (.operator op :: rest) = .operator op :: fill rest := by
  have h : between? x (.operator op) = none := by
    simp only [between?, Token.isOperand, Bool.and_false, Bool.false_eq_true, if_false]
  simp only [fillAfter, h, fillAfter_operator]

theorem unsigned_fillAfter (previous : Token) {tokens : List Token} (h : Unsigned tokens) :
    Unsigned (fillAfter previous tokens) := by
  induction tokens generalizing previous with
  | nil => exact h
  | cons token rest ih =>
      have tail := ih token h.tail
      have here := h token List.mem_cons_self
      intro u hu
      unfold fillAfter at hu
      split at hu
      next op between =>
        rcases List.mem_cons.mp hu with rfl | hu
        · intro hop
          cases hop
          unfold between? Grammar.between at between
          split at between
          · split at between <;> cases between
          · cases between
        · rcases List.mem_cons.mp hu with rfl | hu
          · exact here
          · exact tail u hu
      next =>
        rcases List.mem_cons.mp hu with rfl | hu
        · exact here
        · exact tail u hu

theorem unsigned_joinKeys {tokens : List Token} (h : Unsigned tokens) :
    Unsigned (joinKeys tokens) := by
  fun_induction joinKeys tokens with
  | case1 => exact h
  | case2 token rest joined ih =>
      intro u hu
      rcases List.mem_cons.mp hu with rfl | hu
      · exact h _ List.mem_cons_self
      · rcases List.mem_cons.mp hu with rfl | hu
        · nofun
        · exact ih (h.tail.of_suffix (List.dropWhile_suffix _)) u hu
  | case3 token rest joined ih =>
      intro u hu
      rcases List.mem_cons.mp hu with rfl | hu
      · exact h _ List.mem_cons_self
      · exact ih h.tail u hu

theorem unsigned_normalise {tokens : List Token} (h : Unsigned tokens) :
    Unsigned (normalise tokens) := by
  have joined := unsigned_joinKeys h
  unfold normalise
  cases hkeys : joinKeys tokens with
  | nil => exact fun _ => nofun
  | cons token rest =>
      rw [hkeys] at joined
      intro u hu
      rcases List.mem_cons.mp hu with rfl | hu
      · exact joined _ List.mem_cons_self
      · exact unsigned_fillAfter token joined.tail u hu

end Grammar

/-! ## Sound pending -/

/-- A pending operator whose left operand lacks nothing and is there unless the operator negates. -/
structure Pending.Sound (f : Pending) : Prop where
  lack? : f.left.lack? = none
  negate : f.left = .absent → f.op = .negate

namespace Spine

open Grammar

variable {pending : List Pending}

theorem node_ne_absent (token : Token) (left right : Term) :
    Term.node token left right ≠ .absent := nofun

theorem ready_of_sound {f : Pending} (h : f.Sound) : ready (f :: pending) = .ok () := by
  obtain ⟨op, left⟩ := f
  cases left with
  | absent =>
      have hop : op = .negate := h.negate rfl
      simp only [ready, hop, if_true]
  | node token l r => rfl

theorem lack?_complete {f : Pending} (h : f.Sound) {t : Term} (there : t ≠ .absent) :
    (Term.node (.operator f.op) f.left t).lack? = t.lack? := by
  obtain ⟨op, left⟩ := f
  cases t with
  | absent => exact absurd rfl there
  | node token l r =>
      have own : Term.ownLack? (.operator op) left (.node token l r) = none := by
        cases left with
        | absent =>
            have hop : op = .negate := h.negate rfl
            simp only [Term.ownLack?, hop, if_true]
        | node token' l' r' => rfl
      rw [Term.lack?, h.lack?, own, Option.none_or, Option.or_none]

theorem lack?_close (sound : ∀ f ∈ pending, f.Sound) {t : Term} (there : t ≠ .absent) :
    (close pending t).lack? = t.lack? := by
  induction pending generalizing t with
  | nil => rfl
  | cons f rest ih =>
      rw [close, ih (fun g hg => sound g (List.mem_cons_of_mem f hg)) (node_ne_absent _ _ _),
        lack?_complete (sound f List.mem_cons_self) there]

theorem sound_climb (op : Operation) (sound : ∀ f ∈ pending, f.Sound) {t : Term}
    (lack? : t.lack? = none) (there : t ≠ .absent) :
    ∀ f ∈ (⟨op, (climb op pending t).2⟩ : Pending) :: (climb op pending t).1, f.Sound := by
  induction pending generalizing t with
  | nil =>
      intro f hf
      simp only [climb, List.mem_singleton] at hf
      rw [hf]
      exact ⟨lack?, fun h => absurd h there⟩
  | cons g rest ih =>
      unfold climb
      split
      · exact ih (fun f hf => sound f (List.mem_cons_of_mem g hf))
          ((lack?_complete (sound g List.mem_cons_self) there).trans lack?) (node_ne_absent _ _ _)
      · intro f hf
        rcases List.mem_cons.mp hf with rfl | hf
        · exact ⟨lack?, fun h => absurd h there⟩
        · exact sound f hf

/-! ## Placing an operand -/

/-- An operand as it stands at its place. -/
def settled (underAccess : Bool) (x : Token) : Token :=
  match x.text? with
  | some text => if underAccess then .name text else x
  | none => x

theorem settled_of_not_text {x : Token} (h : x.text? = none) (underAccess : Bool) :
    settled underAccess x = x := by
  rw [settled, h]

theorem settled_of_no_access (x : Token) : settled false x = x := by
  unfold settled
  split <;> rfl

theorem place_awaited {y : Token} (operand : y.isOperand = true) :
    place ⟨pending, none⟩ y
      = (ready pending).map fun _ =>
          ⟨pending, some (settled (isUnderAccess ⟨pending, none⟩) y)⟩ := by
  cases y with
  | operator op => cases operand
  | number x => rfl
  | group raw => rfl
  | magnitude raw => rfl
  | var text =>
      show placeText _ _ _ = _
      unfold placeText settled
      cases isUnderAccess ⟨pending, none⟩ <;> rfl
  | name text =>
      show placeText _ _ _ = _
      unfold placeText settled
      cases isUnderAccess ⟨pending, none⟩ <;> rfl

/-- The pending after an operator that follows an operand. -/
def joined (op : Operation) (pending : List Pending) (t : Term) : List Pending :=
  ⟨op, (climb op pending t).2⟩ :: (climb op pending t).1

/-- Whether an operand is a name that texts after it belong to. -/
def grows (s : Spine) : Bool :=
  match s.operand? with
  | some (.name _) => s.isUnderAccess
  | _ => false

theorem between?_operands {x y : Token} (hx : x.isOperand = true) (hy : y.isOperand = true) :
    between? x y = some (between x y) := by
  rw [between?, hx, hy]
  rfl

theorem place_unawaited {x y : Token} (hy : y.isOperand = true)
    (whole : y.isText = false ∨ grows ⟨pending, some x⟩ = false) :
    place ⟨pending, some x⟩ y
      = .ok ⟨joined (between x y) pending (.leaf x),
          some y⟩ := by
  have byText : ∀ text, y.text? = some text →
      placeText ⟨pending, some x⟩ y text = .ok ⟨joined .multiply pending (.leaf x), some y⟩ := by
    intro text htext
    unfold placeText
    rcases whole with whole | whole
    · rw [Token.isText, htext] at whole
      cases whole
    · split
      next name hx' under =>
        simp only [Option.some.injEq] at hx'
        rw [hx'] at whole under
        exact absurd (under.symm.trans whole) (by decide)
      next hx' _ => cases hx'
      next => rfl
  cases y with
  | operator op => cases hy
  | number value =>
      simp only [between, Token.isUnexpanded, Bool.and_false]
      rfl
  | group raw =>
      simp only [between, Token.isUnexpanded, Bool.and_true]
      rfl
  | magnitude raw =>
      simp only [between, Token.isUnexpanded, Bool.and_true]
      rfl
  | var text =>
      simp only [between, Token.isUnexpanded, Bool.and_false]
      exact byText text rfl
  | name text =>
      simp only [between, Token.isUnexpanded, Bool.and_false]
      exact byText text rfl

-- A text joins the name that it follows after an access.
theorem place_key {name text : String} {y : Token}
    (grow : grows ⟨pending, some (.name name)⟩ = true) (isText : y.text? = some text) :
    place ⟨pending, some (.name name)⟩ y = .ok ⟨pending, some (.name (name ++ text))⟩ := by
  have under : isUnderAccess ⟨pending, some (.name name)⟩ = true := grow
  cases y with
  | var | name =>
      cases isText
      rw [place, placeText, under]
  | number | group | magnitude | operator => cases isText

/-! ## The outcome of a spine -/

/-- The tree that a spine and the tokens after it are built to. -/
def outcome (s : Spine) (tokens : List Token) : Option Tree :=
  (s.run tokens >>= finish).toOption

theorem outcome_of_ok {s s' : Spine} {token : Token} (h : s.place token = .ok s')
    (rest : List Token) : s.outcome (token :: rest) = s'.outcome rest := by
  unfold outcome
  rw [run, h]
  rfl

theorem outcome_of_error {s : Spine} {token : Token} {e : Failure} (h : s.place token = .error e)
    (rest : List Token) : s.outcome (token :: rest) = none := by
  unfold outcome
  rw [run, h]
  rfl

theorem lack?_leaf {x : Token} (operand : x.isOperand = true) : (Term.leaf x).lack? = none := by
  cases x <;> first | rfl | cases operand

theorem outcome_operand_nil (sound : ∀ f ∈ pending, f.Sound) {x : Token}
    (operand : x.isOperand = true) :
    outcome ⟨pending, some x⟩ [] = some (Tree.empty.plant (close pending (.leaf x))) := by
  have lack : (whole ⟨pending, some x⟩).lack? = none :=
    (lack?_close sound (node_ne_absent _ _ _)).trans (lack?_leaf operand)
  show (finish ⟨pending, some x⟩).toOption = _
  rw [finish, lack]
  rfl

theorem outcome_awaiting_nil {f : Pending} (sound : ∀ g ∈ f :: pending, g.Sound) :
    outcome ⟨f :: pending, none⟩ [] = none := by
  obtain ⟨op, left⟩ := f
  have lack : (whole ⟨⟨op, left⟩ :: pending, none⟩).lack? = some (.missingRightOperand op) := by
    have left? : left.lack? = none := (sound ⟨op, left⟩ List.mem_cons_self).lack?
    show (close pending (.node (.operator op) left .absent)).lack? = _
    rw [lack?_close (fun g hg => sound g (List.mem_cons_of_mem _ hg)) (node_ne_absent _ _ _), Term.lack?, left?]
    rfl
  show (finish _).toOption = _
  rw [finish, lack]
  rfl

-- A first operator that cannot do without a left operand gets none, nor a right one.
theorem outcome_leftless {op : Operation} (h : op ≠ .negate) (tokens : List Token) :
    outcome ⟨[⟨op, .absent⟩], none⟩ tokens = none := by
  cases tokens with
  | nil => rfl
  | cons token rest =>
      have unready : ready [⟨op, .absent⟩] = .error (.reading (.notUnary op)) := by
        simp only [ready, if_neg h]
      rcases operator_or_operand token with ⟨other, rfl⟩ | operand
      · by_cases sign : other = .subtract ∨ other = .negate
        · refine outcome_of_error (e := .reading (.notUnary op)) ?_ rest
          simp only [place, placeOperator, if_pos sign, unready]
          rfl
        · refine outcome_of_error (e := .reading (.missingLeftOperand other)) ?_ rest
          simp only [place, placeOperator, if_neg sign]
      · refine outcome_of_error (e := .reading (.notUnary op)) ?_ rest
        rw [place_awaited operand, unready]
        rfl

theorem grows_joined {op : Operation} (h : op.isAccess = false) {t : Term} (y : Token) :
    grows ⟨joined op pending t, some y⟩ = false := by
  cases y <;> first | rfl | exact h

/-! ## A spine follows one pass -/

theorem outcome_operator (x : Token) (op : Operation) (rest : List Token) :
    outcome ⟨pending, some x⟩ (.operator op :: rest)
      = outcome ⟨joined op pending (.leaf x), none⟩ rest :=
  outcome_of_ok rfl rest

/-- What a pass over normalised tokens reads, as a tree. -/
def reading (pending : List Pending) (t? : Option Term) (tokens : List Token) : Option Tree :=
  (scan pending t? tokens).map Tree.empty.plant

theorem reading_operand {y : Token} (operand : y.isOperand = true) (tokens : List Token) :
    reading pending none (y :: tokens) = reading pending (some (.leaf y)) tokens := by
  rw [reading, scan_operand operand]
  rfl

theorem reading_operator (t : Term) (op : Operation) (tokens : List Token) :
    reading pending (some t) (.operator op :: tokens)
      = reading (joined op pending t) none tokens := rfl

theorem reading_fillAfter {x y : Token} (hx : x.isOperand = true) (hy : y.isOperand = true)
    (t : Term) (keys : List Token) :
    reading pending (some t) (fillAfter x (y :: keys))
      = reading (joined (between x y) pending t)
          (some (.leaf y)) (fillAfter y keys) := by
  have filled := between?_operands hx hy
  simp only [fillAfter, filled, reading_operator, reading_operand hy]

/-- The name that an access and the texts after it have in common. -/
def grown (name : String) (tokens : List Token) : String :=
  name ++ String.join ((tokens.takeWhile Token.isText).filterMap Token.text?)

/-- Wherever a spine stands, the tokens to come build the tree that one pass reads. -/
structure OnePass (tokens : List Token) : Prop where
  awaiting : ∀ f pending, (∀ g ∈ f :: pending, Pending.Sound g) →
    outcome ⟨f :: pending, none⟩ tokens
      = reading (f :: pending) none (fill (joinAfter f.op.isAccess tokens))
  resting : ∀ pending x, (∀ g ∈ pending, Pending.Sound g) → x.isOperand = true →
    grows ⟨pending, some x⟩ = false →
    outcome ⟨pending, some x⟩ tokens
      = reading pending (some (.leaf x)) (fillAfter x (joinKeys tokens))
  growing : ∀ pending name, (∀ g ∈ pending, Pending.Sound g) →
    grows ⟨pending, some (.name name)⟩ = true →
    outcome ⟨pending, some (.name name)⟩ tokens
      = reading pending (some (.leaf (.name (grown name tokens))))
          (fillAfter (.name (grown name tokens)) (joinKeys (tokens.dropWhile Token.isText)))

theorem OnePass.nil : OnePass [] where
  awaiting f pending sound := by
    rw [outcome_awaiting_nil sound, joinAfter_nil]
    rfl
  resting pending x sound operand _ := by
    rw [outcome_operand_nil sound operand, joinKeys]
    rfl
  growing pending name sound _ := by
    rw [outcome_operand_nil sound rfl, List.dropWhile_nil, joinKeys]
    have whole : grown name [] = name := String.append_empty
    rw [whole]
    rfl

section

variable {token : Token} {rest : List Token}

-- Behind an operand comes an operator or an operand that is not merged with it.
theorem OnePass.behind_operand (h : OnePass rest) {x : Token} (sound : ∀ g ∈ pending, g.Sound)
    (operand : x.isOperand = true)
    (whole : token.isText = false ∨ grows ⟨pending, some x⟩ = false) :
    outcome ⟨pending, some x⟩ (token :: rest)
      = reading pending (some (.leaf x)) (fillAfter x (joinKeys (token :: rest))) := by
  have sound' : ∀ op, ∀ g ∈ joined op pending (.leaf x), Pending.Sound g := fun op =>
    sound_climb op sound (lack?_leaf operand) (node_ne_absent _ _ _)
  rcases operator_or_operand token with ⟨op, rfl⟩ | next
  · rw [outcome_operator, joinKeys_cons, fillAfter_to_operator, reading_operator]
    exact h.awaiting _ _ (sound' op)
  · rw [outcome_of_ok (place_unawaited next whole), joinKeys_operand next,
      reading_fillAfter operand next]
    refine h.resting _ token (sound' _) next (grows_joined ?_ _)
    unfold between
    split <;> rfl

-- Where an operand is expected, a minus sign negates and any other operator is refused.
theorem OnePass.operator_awaited (h : OnePass rest) {f : Pending} {op : Operation}
    (signed : op ≠ .negate) (sound : ∀ g ∈ f :: pending, g.Sound) :
    outcome ⟨f :: pending, none⟩ (.operator op :: rest)
      = reading (f :: pending) none (fill (joinAfter f.op.isAccess (.operator op :: rest))) := by
  rw [joinAfter_of_not_text rfl, joinKeys_cons, fill_cons, fillAfter_operator]
  by_cases sign : op = .subtract
  · subst sign
    have placed : place ⟨f :: pending, none⟩ (.operator .subtract)
        = .ok ⟨⟨.negate, .absent⟩ :: f :: pending, none⟩ := by
      simp only [place, placeOperator, true_or, if_true,
        ready_of_sound (sound f List.mem_cons_self)]
      rfl
    rw [outcome_of_ok placed]
    refine h.awaiting ⟨.negate, .absent⟩ (f :: pending) fun g hg => ?_
    rcases List.mem_cons.mp hg with rfl | hg
    · exact ⟨rfl, fun _ => rfl⟩
    · exact sound g hg
  · have refused : place ⟨f :: pending, none⟩ (.operator op)
        = .error (.reading (.missingLeftOperand op)) := by
      have none : ¬ (op = .subtract ∨ op = .negate) := by
        rintro (h | h)
        · exact sign h
        · exact signed h
      simp only [place, placeOperator, if_neg none]
    rw [outcome_of_error refused, reading]
    cases op <;> first | rfl | exact absurd rfl sign

-- Where an operand is expected, one is taken, as a key after an access.
theorem OnePass.operand_awaited (h : OnePass rest) {f : Pending}
    (operand : token.isOperand = true) (sound : ∀ g ∈ f :: pending, g.Sound) :
    outcome ⟨f :: pending, none⟩ (token :: rest)
      = reading (f :: pending) none (fill (joinAfter f.op.isAccess (token :: rest))) := by
  have placed : place ⟨f :: pending, none⟩ token
      = .ok ⟨f :: pending, some (settled f.op.isAccess token)⟩ := by
    rw [place_awaited operand, ready_of_sound (sound f List.mem_cons_self)]
    rfl
  rw [outcome_of_ok placed]
  cases htext : token.text? with
  | none =>
      have isText : token.isText = false := by
        rw [Token.isText, htext]
        rfl
      have fixed : grows ⟨f :: pending, some token⟩ = false := by
        cases token <;> first | rfl | cases htext
      rw [settled_of_not_text htext, joinAfter_of_not_text isText, joinKeys_operand operand,
        fill_cons, reading_operand operand]
      exact h.resting (f :: pending) token sound operand fixed
  | some text =>
      cases access : f.op.isAccess with
      | false =>
          have fixed : grows ⟨f :: pending, some token⟩ = false := by
            cases token <;> first | rfl | exact access
          rw [settled_of_no_access, joinAfter_false, joinKeys_operand operand, fill_cons,
            reading_operand operand]
          exact h.resting (f :: pending) token sound operand fixed
      | true =>
          have whole : settled true token = .name text := by
            rw [settled, htext]
            rfl
          rw [whole, joinAfter_text htext, fill_cons, reading_operand rfl]
          exact h.growing (f :: pending) text sound access

-- A text behind a key is merged with it.
theorem OnePass.text_merged (h : OnePass rest) {name text : String} (htext : token.text? = some text)
    (sound : ∀ g ∈ pending, g.Sound) (grow : grows ⟨pending, some (.name name)⟩ = true) :
    outcome ⟨pending, some (.name name)⟩ (token :: rest)
      = reading pending (some (.leaf (.name (grown name (token :: rest)))))
          (fillAfter (.name (grown name (token :: rest)))
            (joinKeys ((token :: rest).dropWhile Token.isText))) := by
  have isText : token.isText = true := by
    rw [Token.isText, htext]
    rfl
  have whole : grown name (token :: rest) = grown (name ++ text) rest := by
    rw [grown, List.takeWhile_cons, isText]
    simp only [if_true, List.filterMap_cons, htext, String.join_cons]
    rw [← String.append_assoc]
    rfl
  rw [outcome_of_ok (place_key grow htext), h.growing pending (name ++ text) sound grow, whole,
    List.dropWhile_cons, isText]
  rfl

end

theorem onePass {tokens : List Token} (unsigned : Unsigned tokens) : OnePass tokens := by
  induction tokens with
  | nil => exact .nil
  | cons token rest ih =>
      have h : OnePass rest := ih unsigned.tail
      constructor
      case awaiting =>
        intro f pending sound
        rcases operator_or_operand token with ⟨op, rfl⟩ | operand
        · exact h.operator_awaited unsigned.ne sound
        · exact h.operand_awaited operand sound
      case resting =>
        intro pending x sound operand fixed
        exact h.behind_operand sound operand (.inr fixed)
      case growing =>
        intro pending name sound grow
        cases htext : token.text? with
        | some text => exact h.text_merged htext sound grow
        | none =>
            have isText : token.isText = false := by
              rw [Token.isText, htext]
              rfl
            have whole : grown name (token :: rest) = name := by
              rw [grown, List.takeWhile_cons, isText]
              exact String.append_empty
            rw [whole, List.dropWhile_cons, isText]
            exact h.behind_operand sound rfl (.inl isText)

/-- Building along a spine is one pass over the normalised tokens. -/
theorem build_eq_scan {tokens : List Token} (unsigned : Unsigned tokens) :
    (build tokens).toOption = reading [] none (normalise tokens) := by
  cases tokens with
  | nil =>
      rw [normalise, joinKeys]
      rfl
  | cons token rest =>
      have pass : OnePass rest := onePass unsigned.tail
      show outcome (start token) rest = _
      rcases operator_or_operand token with ⟨op, rfl⟩ | operand
      · rw [normalise, joinKeys_cons, fill_cons, fillAfter_operator]
        by_cases sign : op = .subtract
        · subst sign
          refine pass.awaiting ⟨.negate, .absent⟩ [] fun g hg => ?_
          rw [List.mem_singleton.mp hg]
          exact ⟨rfl, fun _ => rfl⟩
        · have started : start (.operator op) = ⟨[⟨op, .absent⟩], none⟩ := by
            cases op <;> first | rfl | exact absurd rfl sign
          rw [started, outcome_leftless unsigned.ne, reading]
          cases op <;> first | rfl | exact absurd rfl sign
      · have started : start token = ⟨[], some token⟩ := by
          cases token <;> first | rfl | cases operand
        have fixed : grows ⟨[], some token⟩ = false := by
          cases token <;> rfl
        rw [started, normalise, joinKeys_operand operand, fill_cons, reading_operand operand]
        exact pass.resting [] token (List.forall_mem_nil _) operand fixed

end Spine

namespace Builder

/-- Building is precedence climbing: it gets through exactly when operands and binary operators
take turns in the normalised tokens, and makes the tree of the term that climbing reads. -/
theorem pushAll_finish (tokens : List Token) (unsigned : ∀ t ∈ tokens, t ≠ .operator .negate) :
    ((empty.pushAll tokens >>= finish).toOption.isSome = true
      ↔ Grammar.IsChain (Grammar.normalise tokens)) ∧
    (empty.pushAll tokens >>= finish).toOption
      = (Grammar.parse (Grammar.normalise tokens)).map Tree.empty.plant := by
  have normal : Grammar.Unsigned (Grammar.normalise tokens) := Grammar.unsigned_normalise unsigned
  have read : (empty.pushAll tokens >>= finish).toOption
      = (Grammar.parse (Grammar.normalise tokens)).map Tree.empty.plant := by
    rw [build_eq, Spine.build_eq_scan unsigned, Spine.reading, Grammar.scan_eq_parse normal]
  refine ⟨?_, read⟩
  rw [read, Option.isSome_map]
  exact Grammar.parse_isSome_iff normal

theorem pushAll_finish_access_power :
    (∀ t ∈ [Token.var "a", .operator .property, .var "b", .var "c", .operator .power,
      .operator .subtract, .var "d", .group "e"], t ≠ .operator .negate) ∧
    (empty.pushAll [.var "a", .operator .property, .var "b", .var "c", .operator .power,
      .operator .subtract, .var "d", .group "e"] >>= finish).toOption
      = some (Tree.empty.plant
          (.node (.operator .power)
            (.node (.operator .property) (.leaf (.var "a")) (.leaf (.name "bc")))
            (.node (.operator .negate) .absent
              (.node (.operator .transform) (.leaf (.var "d")) (.leaf (.group "e")))))) := by
  have unsigned : ∀ t ∈ [Token.var "a", .operator .property, .var "b", .var "c", .operator .power,
      .operator .subtract, .var "d", .group "e"], t ≠ .operator .negate := by
    simp
  have normal : Grammar.normalise [.var "a", .operator .property, .var "b", .var "c",
      .operator .power, .operator .subtract, .var "d", .group "e"]
      = [.var "a", .operator .property, .name "bc", .operator .power, .operator .subtract,
        .var "d", .operator .transform, .group "e"] := by
    simp [Grammar.normalise, Grammar.joinKeys, Grammar.fill, Grammar.fillAfter, Grammar.between?,
      Grammar.between, List.takeWhile_cons, List.dropWhile_cons, String.join, Token.isAccess,
      Token.isText, Token.text?, Token.isOperand, Token.isUnexpanded, Operation.isAccess]
  refine ⟨unsigned, ?_⟩
  rw [(pushAll_finish _ unsigned).2, normal]
  rfl

end Builder

end FormulaLang
