import FormulaLang.Proofs.Decimal.Numeral
import FormulaLang.Proofs.Scanning.Brackets
import FormulaLang.Scan

/-!
What a token takes off a text.  A judgment on characters says for each kind of token what it is read
from and what it leaves; the cursor follows it, and a whole scan is a chain of such cuts.
-/

namespace FormulaLang

namespace Cursor

open Text

/-! ## What stands ahead -/

theorem skipBlanks_rest {c : Cursor} {ch : Char} {rest : List Char} (h : c.rest = ch :: rest)
    (ink : isBlank ch = false) : c.skipBlanks.rest = ch :: rest := by
  show c.rest.dropWhile isBlank = _
  rw [h, List.dropWhile_cons, ink]
  rfl

theorem step_rest {c : Cursor} {ch : Char} {rest : List Char} (h : c.rest = ch :: rest) :
    c.step.rest = rest := by
  show c.rest.drop 1 = rest
  rw [h]
  rfl

theorem not_isBlank_of_isAlphabetic {ch : Char} (alphabetic : isAlphabetic ch = true) :
    isBlank ch = false := by
  rw [← Bool.not_eq_true]
  intro blank
  rw [not_isAlphabetic_of_isBlank blank] at alphabetic
  cases alphabetic

theorem not_isNumeric_of_isBlank {ch : Char} (blank : isBlank ch = true) :
    Decimal.isNumeric ch = false := by
  have digit : ch.isDigit = false := by
    cases hdigit : ch.isDigit with
    | false => rfl
    | true =>
        rw [not_isBlank_of_isDigit hdigit] at blank
        cases blank
  have point : ch ≠ '.' := by
    rintro rfl
    exact absurd blank (by decide)
  rw [Decimal.isNumeric, digit, beq_false_of_ne point]
  rfl

/-- A letter, and after a `_` any characters of names. -/
inductive IsVariable : List Char → Prop where
  | letter {ch : Char} (alphabetic : isAlphabetic ch = true) : IsVariable [ch]
  | subscript {ch : Char} (alphabetic : isAlphabetic ch = true) {cs : List Char}
      (words : ∀ c ∈ cs, isWord c = true) : IsVariable (ch :: '_' :: cs)

theorem IsVariable.first {cs : List Char} (h : IsVariable cs) :
    ∃ letter tail, cs = letter :: tail ∧ isAlphabetic letter = true := by
  cases h with
  | letter alphabetic => exact ⟨_, _, rfl, alphabetic⟩
  | subscript alphabetic words => exact ⟨_, _, rfl, alphabetic⟩

theorem IsVariable.words {cs : List Char} (h : IsVariable cs) : ∀ c ∈ cs, isWord c = true := by
  cases h with
  | letter alphabetic =>
      intro c hc
      rw [List.mem_singleton.mp hc]
      exact isWord_of_isAlphabetic alphabetic
  | subscript alphabetic words =>
      intro c hc
      rcases List.mem_cons.mp hc with rfl | hc
      · exact isWord_of_isAlphabetic alphabetic
      · rcases List.mem_cons.mp hc with rfl | hc
        · rw [isWord, beq_self_eq_true, Bool.or_true]
        · exact words c hc

/-- Whether the next operator ahead opens no group and no magnitude. -/
def Uncalled (rest : List Char) : Prop :=
  rest.find? (fun ch => operatorCharacters.contains ch) ≠ some '(' ∧
    rest.find? (fun ch => operatorCharacters.contains ch) ≠ some '|'

/-- Whether a character is passed over by the reading of a run of some kind. -/
def isPassed (p : Char → Bool) (ch : Char) : Bool :=
  p ch || isBlank ch

/-- The characters of a kind at the front of a text, the blanks among them left out. -/
def run (p : Char → Bool) (cs : List Char) : List Char :=
  (cs.takeWhile (isPassed p)).filter p

/-- What stands behind the characters of a kind and the blanks among them. -/
def beyond (p : Char → Bool) (cs : List Char) : List Char :=
  cs.dropWhile (isPassed p)

-- Characters of names and blanks in front of a text have no part in what is called.
theorem uncalled_append {taken : List Char} (passed : ∀ ch ∈ taken, isPassed isWord ch = true)
    (after : List Char) : Uncalled (taken ++ after) ↔ Uncalled after := by
  have none : taken.find? (fun ch => operatorCharacters.contains ch) = none := by
    rw [List.find?_eq_none]
    intro ch mem
    rw [Bool.not_eq_true]
    rcases Bool.or_eq_true_iff.mp (passed ch mem) with word | blank
    · exact not_operator_of_isWord word
    · rw [← Bool.not_eq_true]
      intro operator
      rw [not_isBlank_of_operator operator] at blank
      cases blank
  unfold Uncalled
  rw [List.find?_append, none]
  rfl

theorem uncalled_words {front : List Char} (words : ∀ ch ∈ front, isWord ch = true)
    (rest : List Char) : Uncalled (front ++ rest) ↔ Uncalled rest :=
  uncalled_append (fun ch mem => by rw [isPassed, words ch mem, Bool.true_or]) rest

theorem uncalled_beyond (rest : List Char) : Uncalled rest ↔ Uncalled (beyond isWord rest) := by
  conv_lhs => rw [← List.takeWhile_append_dropWhile (p := isPassed isWord) (l := rest)]
  exact uncalled_append (List.all_eq_true.mp List.all_takeWhile) _

theorem uncalled_skipBlanks (cs : List Char) : Uncalled (cs.dropWhile isBlank) ↔ Uncalled cs := by
  conv_rhs => rw [← List.takeWhile_append_dropWhile (p := isBlank) (l := cs)]
  refine (uncalled_append (fun ch mem => ?_) _).symm
  rw [isPassed, List.all_eq_true.mp List.all_takeWhile ch mem, Bool.or_true]

/-! ## Tokens -/

/-- The token at the front of a text, and what stands behind it. -/
inductive Cuts : List Char → Token → List Char → Prop where
  | operator {ch : Char} {op : Operation} (found : Operation.ofChar? ch = some op)
      (rest : List Char) : Cuts (ch :: rest) (.operator op) rest
  | group {rest raw after : List Char} (split : splitGroup? 0 rest = some (raw, after)) :
      Cuts ('(' :: rest) (.group (String.ofList raw)) after
  | magnitude {rest raw after : List Char} (split : splitMagnitude? 0 rest = some (raw, after)) :
      Cuts ('|' :: rest) (.magnitude (String.ofList raw)) after
  | name {letter : Char} (alphabetic : isAlphabetic letter = true) {rest : List Char}
      (called : ¬ Uncalled (letter :: rest)) :
      Cuts (letter :: rest) (.name (String.ofList (letter :: run isWord rest))) (beyond isWord rest)
  | letter {letter : Char} (alphabetic : isAlphabetic letter = true) {rest : List Char}
      (uncalled : Uncalled (letter :: rest)) (plain : rest.head? ≠ some '_') :
      Cuts (letter :: rest) (.var (String.ofList [letter])) rest
  | subscript {letter : Char} (alphabetic : isAlphabetic letter = true) {rest : List Char}
      (uncalled : Uncalled (letter :: '_' :: rest)) :
      Cuts (letter :: '_' :: rest) (.var (String.ofList (letter :: '_' :: run isWord rest)))
        (beyond isWord rest)
  | number {digit : Char} (isDigit : digit.isDigit = true) {rest : List Char} {x : Float}
      (value : Decimal.readUnsigned? (digit :: run Decimal.isNumeric rest) = some x) :
      Cuts (digit :: rest) (.number x) (beyond Decimal.isNumeric rest)

/-! ## What is cut off -/

/-- A search goes through a text, each character leading to a depth of its own, up to a character
that closes raw text; blanks lead nowhere else. -/
structure Closes (close : Char) (split? : Nat → List Char → Option (List Char × List Char)) :
    Prop where
  ink : isBlank close = false
  nil : ∀ depth, split? depth [] = none
  cons : ∀ depth ch, (ch = close ∧ ∀ rest, split? depth (ch :: rest) = some ([], rest)) ∨
    ∃ depth', (isBlank ch = true → depth' = depth) ∧
      ∀ rest, split? depth (ch :: rest) = before [ch] (split? depth' rest)

theorem closes_splitGroup? : Closes ')' splitGroup? where
  ink := by decide
  nil _ := rfl
  cons depth ch := by
    by_cases opens : ch = '('
    · subst opens
      exact .inr ⟨depth + 1, fun blank => absurd blank (by decide), fun _ => rfl⟩
    by_cases closes : ch = ')'
    · subst closes
      cases depth with
      | zero => exact .inl ⟨rfl, fun _ => rfl⟩
      | succ depth => exact .inr ⟨depth, fun blank => absurd blank (by decide), fun _ => rfl⟩
    · refine .inr ⟨depth, fun _ => rfl, fun rest => ?_⟩
      simp only [splitGroup?, opens, closes, if_false]
      rfl

theorem closes_splitMagnitude? : Closes '|' splitMagnitude? where
  ink := by decide
  nil _ := rfl
  cons depth ch := by
    by_cases opens : ch = '('
    · subst opens
      exact .inr ⟨depth + 1, fun blank => absurd blank (by decide), fun _ => rfl⟩
    by_cases closes : ch = ')'
    · subst closes
      exact .inr ⟨depth - 1, fun blank => absurd blank (by decide), fun _ => rfl⟩
    by_cases bar : ch = '|' ∧ depth = 0
    · obtain ⟨rfl, rfl⟩ := bar
      exact .inl ⟨rfl, fun _ => rfl⟩
    · refine .inr ⟨depth, fun _ => rfl, fun rest => ?_⟩
      have passes : (ch = '|' && depth = 0) = false := by
        rw [← Bool.not_eq_true, Bool.and_eq_true, decide_eq_true_eq, decide_eq_true_eq]
        exact bar
      simp only [splitMagnitude?, opens, closes, passes, if_false, Bool.false_eq_true]
      rfl

section

variable {close : Char} {split? : Nat → List Char → Option (List Char × List Char)}
variable {depth : Nat} {cs raw after : List Char}

theorem before_eq_some {front : List Char} {found? : Option (List Char × List Char)}
    (h : before front found? = some (raw, after)) :
    ∃ inside, found? = some (inside, after) ∧ raw = front ++ inside := by
  obtain ⟨⟨inside, behind⟩, found, same⟩ := Option.map_eq_some_iff.mp h
  cases same
  exact ⟨inside, found, rfl⟩

-- The raw text stands in front of the character that closes it.
theorem Closes.slice (h : Closes close split?) (split : split? depth cs = some (raw, after)) :
    cs = raw ++ close :: after := by
  induction cs generalizing depth raw with
  | nil =>
      rw [h.nil] at split
      cases split
  | cons ch cs ih =>
      rcases h.cons depth ch with ⟨rfl, closes⟩ | ⟨depth', -, passes⟩
      · rw [closes] at split
        cases split
        rfl
      · rw [passes] at split
        obtain ⟨inside, found, rfl⟩ := before_eq_some split
        exact congrArg (ch :: ·) (ih found)

end

/-- A token takes at least one character off the front of a text. -/
theorem Cuts.slice {cs after : List Char} {token : Token} (h : Cuts cs token after) :
    ∃ taken, taken ≠ [] ∧ cs = taken ++ after := by
  have behind : ∀ (p : Char → Bool) (rest : List Char),
      rest = rest.takeWhile (isPassed p) ++ beyond p rest :=
    fun p rest => List.takeWhile_append_dropWhile.symm
  cases h with
  | @operator ch op found rest => exact ⟨[ch], nofun, rfl⟩
  | @group rest raw after split =>
      refine ⟨'(' :: (raw ++ [')']), nofun, ?_⟩
      rw [closes_splitGroup?.slice split, List.cons_append, List.append_assoc]
      rfl
  | @magnitude rest raw after split =>
      refine ⟨'|' :: (raw ++ ['|']), nofun, ?_⟩
      rw [closes_splitMagnitude?.slice split, List.cons_append, List.append_assoc]
      rfl
  | @name letter alphabetic rest called =>
      exact ⟨letter :: rest.takeWhile (isPassed isWord), nofun, congrArg _ (behind isWord rest)⟩
  | @letter letter alphabetic rest uncalled plain => exact ⟨[letter], nofun, rfl⟩
  | @subscript letter alphabetic rest uncalled =>
      exact ⟨letter :: '_' :: rest.takeWhile (isPassed isWord), nofun,
        congrArg (letter :: '_' :: ·) (behind isWord rest)⟩
  | @number digit isDigit rest x value =>
      exact ⟨digit :: rest.takeWhile (isPassed Decimal.isNumeric), nofun,
        congrArg _ (behind Decimal.isNumeric rest)⟩

/-! ## The cursor -/

theorem byteLength_append (cs ds : List Char) :
    byteLength (cs ++ ds) = byteLength cs + byteLength ds := by
  induction cs with
  | nil => exact (Nat.zero_add _).symm
  | cons ch cs ih =>
      show ch.utf8Size + byteLength (cs ++ ds) = ch.utf8Size + byteLength cs + byteLength ds
      rw [ih, Nat.add_assoc]

/-- The length in UTF-8 of the text in which a cursor stands. -/
def total (c : Cursor) : Nat :=
  c.offset + byteLength c.rest

-- A cursor that moves on stays in its text.
theorem total_past {c : Cursor} {taken rest : List Char} (h : c.rest = taken ++ rest) :
    (c.past taken rest).total = c.total := by
  rw [total, total, h, byteLength_append]
  exact Nat.add_assoc _ _ _

theorem total_span (p : Char → Bool) (c : Cursor) : (c.span p).2.total = c.total :=
  total_past List.takeWhile_append_dropWhile.symm

theorem total_step (c : Cursor) : c.step.total = c.total :=
  total_past (List.take_append_drop 1 c.rest).symm

section

variable {p : Char → Bool} {c after : Cursor} {ch : Char} {rest : List Char} {token : Token}

theorem run_cons (h : p ch = true) (rest : List Char) : run p (ch :: rest) = ch :: run p rest := by
  have passed : isPassed p ch = true := by rw [isPassed, h, Bool.true_or]
  rw [run, List.takeWhile_cons_of_pos passed, List.filter_cons_of_pos h]
  rfl

theorem beyond_cons (h : p ch = true) (rest : List Char) :
    beyond p (ch :: rest) = beyond p rest := by
  have passed : isPassed p ch = true := by rw [isPassed, h, Bool.true_or]
  rw [beyond, List.dropWhile_cons_of_pos passed]
  rfl

/-- The cursor behind a run. -/
def pastRun (p : Char → Bool) (c : Cursor) : Cursor :=
  (c.span (isPassed p)).2

theorem spanLoose_cons (h : p ch = true) (ahead : c.rest = ch :: rest) :
    c.spanLoose p = (String.ofList (ch :: run p rest), pastRun p c)
      ∧ (pastRun p c).rest = beyond p rest := by
  rw [← run_cons h, ← beyond_cons h, ← ahead]
  exact ⟨rfl, rfl⟩

theorem not_isBlank_of_cuts {cs rest : List Char} (h : Cuts cs token rest) :
    ∃ ch tail, cs = ch :: tail ∧ isBlank ch = false := by
  cases h with
  | operator found => exact ⟨_, _, rfl, not_isBlank_of_operator (operator_of_ofChar? found)⟩
  | group | magnitude => exact ⟨_, _, rfl, by decide +kernel⟩
  | name alphabetic | letter alphabetic | subscript alphabetic =>
      exact ⟨_, _, rfl, not_isBlank_of_isAlphabetic alphabetic⟩
  | number isDigit => exact ⟨_, _, rfl, not_isBlank_of_isDigit isDigit⟩

theorem nextOperator?_eq {cs : List Char} (ahead : c.rest = cs) :
    c.nextOperator? = cs.find? fun ch => operatorCharacters.contains ch := by
  rw [nextOperator?, ahead]

-- What a text starts with when its first character is no operator.
theorem token_of_plain {c : Cursor} {ch : Char} {rest : List Char}
    (ahead : c.skipBlanks.rest = ch :: rest) (plain : operatorCharacters.contains ch = false) :
    c.token =
      if isAlphabetic ch then
        match c.skipBlanks.nextOperator? with
        | some '(' | some '|' =>
            let (text, after) := c.skipBlanks.name
            (.ok (some (.name text)), after)
        | _ =>
            let (text, after) := c.skipBlanks.variableName
            (text.map fun text => some (.var text), after)
      else if ch.isDigit then
        let (x, after) := c.skipBlanks.number
        (x.map fun x => some (.number x), after)
      else
        (.error (.reading (.unexpectedSymbol ch c.skipBlanks.offset)), c.skipBlanks) := by
  have none : Operation.ofChar? ch = none := by
    cases hop : Operation.ofChar? ch with
    | none => rfl
    | some op =>
        rw [operator_of_ofChar? hop] at plain
        cases plain
  have notGroup : ch ≠ '(' := by
    rintro rfl
    cases plain
  have notMagnitude : ch ≠ '|' := by
    rintro rfl
    cases plain
  unfold Cursor.token
  dsimp only
  rw [ahead]
  dsimp only
  rw [none]
  dsimp only
  exact (if_neg notGroup).trans (if_neg notMagnitude)

-- A letter starts a name where a call is ahead, and a variable elsewhere.
theorem token_of_called (ahead : c.skipBlanks.rest = ch :: rest)
    (alphabetic : isAlphabetic ch = true) (called : ¬ Uncalled (ch :: rest)) :
    c.token = (.ok (some (.name c.skipBlanks.name.1)), c.skipBlanks.name.2) := by
  rw [token_of_plain ahead (not_operator_of_isWord (isWord_of_isAlphabetic alphabetic)),
    if_pos alphabetic, nextOperator?_eq ahead]
  split
  next => rfl
  next => rfl
  next notGroup notMagnitude => exact absurd ⟨notGroup, notMagnitude⟩ called

theorem token_of_uncalled (ahead : c.skipBlanks.rest = ch :: rest)
    (alphabetic : isAlphabetic ch = true) (uncalled : Uncalled (ch :: rest)) :
    c.token = (c.skipBlanks.variableName.1.map fun text => some (.var text),
      c.skipBlanks.variableName.2) := by
  rw [token_of_plain ahead (not_operator_of_isWord (isWord_of_isAlphabetic alphabetic)),
    if_pos alphabetic, nextOperator?_eq ahead]
  split
  next group => exact absurd group uncalled.1
  next magnitude => exact absurd magnitude uncalled.2
  next => rfl

theorem variableName_of_plain (ahead : c.rest = ch :: rest) (alphabetic : isAlphabetic ch = true)
    (plain : rest.head? ≠ some '_') :
    c.variableName = (.ok (String.ofList [ch]), c.step) := by
  have peeked : c.step.peek? ≠ some '_' := by
    rw [peek?, step_rest ahead]
    exact plain
  unfold variableName
  rw [ahead]
  dsimp only
  rw [if_pos alphabetic, if_neg peeked]
  rfl

theorem variableName_of_subscript (ahead : c.rest = ch :: '_' :: rest)
    (alphabetic : isAlphabetic ch = true) :
    c.variableName
      = (.ok (String.ofList (ch :: '_' :: run isWord rest)), pastRun isWord c.step.step) := by
  have inside : c.step.step.rest = rest := step_rest (step_rest ahead)
  have peeked : c.step.peek? = some '_' := by
    rw [peek?, step_rest ahead]
    rfl
  unfold variableName
  rw [ahead]
  dsimp only
  rw [if_pos alphabetic, if_pos peeked, ← inside]
  exact congrArg (fun text => (Except.ok text, _)) String.ofList_append.symm

theorem token_of_digit (ahead : c.skipBlanks.rest = ch :: rest) (digit : ch.isDigit = true) :
    c.token = (c.skipBlanks.number.1.map fun x => some (.number x), c.skipBlanks.number.2) := by
  rw [token_of_plain ahead (not_operator_of_isDigit digit), not_isAlphabetic_of_isDigit digit,
    digit]
  rfl

theorem number_eq (ahead : c.rest = ch :: rest) (digit : ch.isDigit = true) :
    c.number = ((Decimal.readUnsigned? (ch :: run Decimal.isNumeric rest)).elim
      (.error (.reading (.malformedNumber (String.ofList (ch :: run Decimal.isNumeric rest)))))
      .ok, pastRun Decimal.isNumeric c) := by
  have text : c.numericText = _ := (spanLoose_cons (Decimal.isNumeric_of_isDigit digit) ahead).1
  unfold number
  rw [text]
  dsimp only
  rw [String.toList_ofList]
  cases Decimal.readUnsigned? (ch :: run Decimal.isNumeric rest) <;> rfl

theorem token_of_nil (ahead : c.skipBlanks.rest = []) : c.token = (.ok none, c.skipBlanks) := by
  unfold Cursor.token
  dsimp only
  rw [ahead]

theorem token_of_operator {op : Operation} (ahead : c.skipBlanks.rest = ch :: rest)
    (found : Operation.ofChar? ch = some op) :
    c.token = (.ok (some (.operator op)), c.skipBlanks.step) := by
  unfold Cursor.token
  dsimp only
  rw [ahead]
  dsimp only
  rw [found]

theorem token_of_group (ahead : c.skipBlanks.rest = '(' :: rest) :
    c.token = (c.skipBlanks.step.group.1.map fun raw => some (.group raw),
      c.skipBlanks.step.group.2) := by
  unfold Cursor.token
  dsimp only
  rw [ahead]
  rfl

theorem token_of_magnitude (ahead : c.skipBlanks.rest = '|' :: rest) :
    c.token = (c.skipBlanks.step.magnitude.1.map fun raw => some (.magnitude raw),
      c.skipBlanks.step.magnitude.2) := by
  unfold Cursor.token
  dsimp only
  rw [ahead]
  rfl

/-- A cursor reads the token that is cut off the text ahead. -/
theorem token_of_cuts {cs : List Char} (ahead : c.skipBlanks.rest = cs)
    (h : Cuts cs token rest) :
    ∃ after, c.token = (.ok (some token), after) ∧ after.rest = rest ∧ after.total = c.total := by
  have skipped : c.skipBlanks.total = c.total := total_span isBlank c
  have stepped : c.skipBlanks.step.total = c.total := (total_step _).trans skipped
  -- behind raw text and the character that closes it
  have closed : ∀ {inside raw : List Char} {close : Char}, c.skipBlanks.step.rest = inside →
      inside = raw ++ close :: rest →
      (c.skipBlanks.step.past (inside.take (raw.length + 1)) rest).total = c.total := by
    rintro inside raw close same rfl
    refine (total_past ?_).trans stepped
    rw [same, List.take_append, List.take_of_length_le (Nat.le_succ _), Nat.add_sub_cancel_left,
      List.append_assoc]
    rfl
  cases h with
  | operator found => exact ⟨_, token_of_operator ahead found, step_rest ahead, stepped⟩
  | @group inside raw rest split =>
      refine ⟨_, ?_, rfl, closed (step_rest ahead) (closes_splitGroup?.slice split)⟩
      rw [token_of_group ahead, group, step_rest ahead, split, ← step_rest ahead]
      rfl
  | @magnitude inside raw rest split =>
      refine ⟨_, ?_, rfl, closed (step_rest ahead) (closes_splitMagnitude?.slice split)⟩
      rw [token_of_magnitude ahead, magnitude, step_rest ahead, split, ← step_rest ahead]
      rfl
  | name alphabetic called =>
      obtain ⟨text, after⟩ := spanLoose_cons (isWord_of_isAlphabetic alphabetic) ahead
      refine ⟨_, ?_, after, (total_span _ _).trans skipped⟩
      rw [token_of_called ahead alphabetic called, name, text]
  | letter alphabetic uncalled plain =>
      refine ⟨_, ?_, step_rest ahead, stepped⟩
      rw [token_of_uncalled ahead alphabetic uncalled, variableName_of_plain ahead alphabetic plain]
      rfl
  | @subscript letter alphabetic rest uncalled =>
      have inside : c.skipBlanks.step.step.rest = rest := step_rest (step_rest ahead)
      refine ⟨pastRun isWord c.skipBlanks.step.step, ?_, congrArg (beyond isWord) inside,
        (total_span _ _).trans ((total_step _).trans stepped)⟩
      rw [token_of_uncalled ahead alphabetic uncalled, variableName_of_subscript ahead alphabetic]
      rfl
  | number isDigit value =>
      refine ⟨_, ?_, (spanLoose_cons (Decimal.isNumeric_of_isDigit isDigit) ahead).2,
        (total_span _ _).trans skipped⟩
      rw [token_of_digit ahead isDigit, number_eq ahead isDigit, value]
      rfl

-- A reading that is mapped to a token gets through as the reading does.
theorem read_of_map {α : Type} {x : Except Failure α × Cursor} {f : α → Option Token}
    {token? : Option Token} {after : Cursor} (h : (x.1.map f, x.2) = (.ok token?, after)) :
    ∃ a, x = (.ok a, after) ∧ f a = token? := by
  obtain ⟨result, after'⟩ := x
  cases result with
  | error e => cases h
  | ok a =>
      have first : Except.ok (f a) = Except.ok token? := congrArg Prod.fst h
      have second : after' = after := congrArg Prod.snd h
      exact ⟨a, by rw [second], Except.ok.inj first⟩

theorem split_of_closed {cause : Cause} {split? : Option (List Char × List Char)} {raw : String}
    (h : c.closed cause split? = (.ok raw, after)) :
    ∃ cs, split? = some (cs, after.rest) ∧ raw = String.ofList cs := by
  cases split? with
  | none => cases h
  | some split =>
      cases h
      exact ⟨_, rfl, rfl⟩

-- A variable is a letter, or a letter with a subscript.
theorem variableName_cases {name : String} (ahead : c.rest = ch :: rest)
    (read : c.variableName = (.ok name, after)) :
    isAlphabetic ch = true ∧
      (name = String.ofList [ch] ∧ after.rest = rest ∧ rest.head? ≠ some '_' ∨
        ∃ tail, rest = '_' :: tail ∧ name = String.ofList (ch :: '_' :: run isWord tail)
          ∧ after.rest = beyond isWord tail) := by
  by_cases alphabetic : isAlphabetic ch = true
  · refine ⟨alphabetic, ?_⟩
    by_cases plain : rest.head? = some '_'
    · obtain ⟨tail, rfl⟩ : ∃ tail, rest = '_' :: tail := by
        cases rest with
        | nil => cases plain
        | cons ch tail =>
            cases plain
            exact ⟨tail, rfl⟩
      rw [variableName_of_subscript ahead alphabetic] at read
      cases read
      exact .inr ⟨tail, rfl, rfl, congrArg (beyond isWord) (step_rest (step_rest ahead))⟩
    · rw [variableName_of_plain ahead alphabetic plain] at read
      cases read
      exact .inl ⟨rfl, step_rest ahead, plain⟩
  · unfold variableName at read
    rw [ahead] at read
    dsimp only at read
    rw [if_neg alphabetic] at read
    cases read

theorem isWord_of_mem_run {tail : List Char} (mem : ch ∈ run isWord tail) : isWord ch = true :=
  (List.mem_filter.mp mem).2

theorem isVariable_variableName {name : String} (read : c.variableName.1 = .ok name) :
    IsVariable name.toList := by
  cases ahead : c.rest with
  | nil =>
      unfold variableName at read
      rw [ahead] at read
      cases read
  | cons ch rest =>
      obtain ⟨alphabetic, ⟨rfl, -⟩ | ⟨tail, -, rfl, -⟩⟩ :=
        variableName_cases ahead (Prod.ext read rfl)
      · rw [String.toList_ofList]
        exact .letter alphabetic
      · rw [String.toList_ofList]
        exact .subscript alphabetic fun ch => isWord_of_mem_run

/-- What a cursor reads is cut off the text ahead; it reads nothing only at the end. -/
theorem cuts_of_token {token? : Option Token} (h : c.token = (.ok token?, after)) :
    (token? = none ∧ c.skipBlanks.rest = []) ∨
      ∃ token, token? = some token ∧ Cuts c.skipBlanks.rest token after.rest := by
  cases ahead : c.skipBlanks.rest with
  | nil =>
      rw [token_of_nil ahead] at h
      cases h
      exact .inl ⟨rfl, rfl⟩
  | cons ch rest =>
      refine .inr ?_
      cases found : Operation.ofChar? ch with
      | some op =>
          rw [token_of_operator ahead found] at h
          cases h
          rw [step_rest ahead]
          exact ⟨_, rfl, .operator found rest⟩
      | none =>
          by_cases opens : ch = '('
          · subst opens
            rw [token_of_group ahead, group, step_rest ahead] at h
            obtain ⟨raw, read, same⟩ := read_of_map h
            cases same
            obtain ⟨cs, split, rfl⟩ := split_of_closed read
            exact ⟨_, rfl, .group split⟩
          by_cases bar : ch = '|'
          · subst bar
            rw [token_of_magnitude ahead, magnitude, step_rest ahead] at h
            obtain ⟨raw, read, same⟩ := read_of_map h
            cases same
            obtain ⟨cs, split, rfl⟩ := split_of_closed read
            exact ⟨_, rfl, .magnitude split⟩
          by_cases alphabetic : isAlphabetic ch = true
          · by_cases uncalled : Uncalled (ch :: rest)
            · rw [token_of_uncalled ahead alphabetic uncalled] at h
              obtain ⟨name, read, same⟩ := read_of_map h
              cases same
              refine ⟨_, rfl, ?_⟩
              obtain ⟨-, ⟨rfl, behind, plain⟩ | ⟨tail, rfl, rfl, behind⟩⟩ :=
                variableName_cases ahead read
              · rw [behind]
                exact .letter alphabetic uncalled plain
              · rw [behind]
                exact .subscript alphabetic uncalled
            · obtain ⟨text, beyond⟩ := spanLoose_cons (isWord_of_isAlphabetic alphabetic) ahead
              rw [token_of_called ahead alphabetic uncalled, name, text] at h
              cases h
              rw [beyond]
              exact ⟨_, rfl, .name alphabetic uncalled⟩
          by_cases digit : ch.isDigit = true
          · rw [token_of_digit ahead digit] at h
            obtain ⟨x, read, same⟩ := read_of_map h
            cases same
            rw [number_eq ahead digit] at read
            cases value : Decimal.readUnsigned? (ch :: run Decimal.isNumeric rest) with
            | none =>
                rw [value] at read
                cases read
            | some x =>
                rw [value] at read
                cases read
                rw [(spanLoose_cons (Decimal.isNumeric_of_isDigit digit) ahead).2]
                exact ⟨_, rfl, .number digit value⟩
          · unfold Cursor.token at h
            dsimp only at h
            rw [ahead] at h
            dsimp only at h
            rw [found] at h
            dsimp only at h
            rw [if_neg opens, if_neg bar, if_neg alphabetic, if_neg digit] at h
            cases h

end

end Cursor

namespace Scan

open Cursor Text

/-- A text of `total` bytes is cut into tokens to its end, whatever stands before the part that is
left of it. -/
inductive CutUp (total : Nat) : List Char → List Lexeme → Prop where
  | nil {cs : List Char} (blank : cs.dropWhile isBlank = []) : CutUp total cs []
  | cons {cs after : List Char} {token : Token} {lexemes : List Lexeme}
      (cut : Cuts (cs.dropWhile isBlank) token after) (h : CutUp total after lexemes) :
      CutUp total cs (⟨token, total - byteLength after⟩ :: lexemes)

variable {total count : Nat} {cs : List Char} {lexemes : List Lexeme} {c : Cursor}

theorem length_of_cuts {token : Token} {after : List Char}
    (cut : Cuts (cs.dropWhile isBlank) token after) : after.length < cs.length := by
  obtain ⟨taken, some, slice⟩ := cut.slice
  have shorter := (List.dropWhile_suffix isBlank (l := cs)).length_le
  have positive := List.length_pos_of_ne_nil some
  rw [slice, List.length_append] at shorter
  omega

theorem CutUp.length_le (h : CutUp total cs lexemes) : lexemes.length ≤ cs.length := by
  induction h with
  | nil => exact Nat.zero_le _
  | cons cut _ ih =>
      have := length_of_cuts cut
      rw [List.length_cons]
      omega

/-- Readings from a cursor on give tokens, each with the place behind it, and then nothing more. -/
inductive Yields : Cursor → List Lexeme → Prop where
  | nil {c after : Cursor} (read : c.token = (.ok none, after)) : Yields c []
  | cons {c after : Cursor} {token : Token} {lexemes : List Lexeme}
      (read : c.token = (.ok (some token), after)) (h : Yields after lexemes) :
      Yields c (⟨token, after.offset⟩ :: lexemes)

theorem Yields.cutUp (h : Yields c lexemes) : CutUp c.total c.rest lexemes := by
  induction h with
  | nil read =>
      rcases cuts_of_token read with ⟨-, none⟩ | ⟨token, ⟨⟩, -⟩
      exact .nil none
  | @cons c after token lexemes read _ ih =>
      rcases cuts_of_token read with ⟨⟨⟩, -⟩ | ⟨token, ⟨⟩, cut⟩
      obtain ⟨after', read', same, total⟩ := token_of_cuts rfl cut
      rw [read] at read'
      cases read'
      have stop : after.offset = c.total - byteLength after.rest := by
        rw [← total, Cursor.total, Nat.add_sub_cancel_right]
      rw [total] at ih
      rw [stop]
      exact .cons cut ih

theorem yields_upTo (whole : (upTo count c).failure? = none) (enough : c.rest.length ≤ count) :
    Yields c (upTo count c).lexemes := by
  induction count generalizing c with
  | zero =>
      have none : c.rest = [] := List.eq_nil_of_length_eq_zero (Nat.le_zero.mp enough)
      have ahead : c.skipBlanks.rest = [] := by
        show c.rest.dropWhile isBlank = []
        rw [none]
        rfl
      exact .nil (token_of_nil ahead)
  | succ count ih =>
      rw [upTo] at whole ⊢
      split at whole
      next token after read =>
        rcases cuts_of_token read with ⟨⟨⟩, -⟩ | ⟨token, ⟨⟩, cut⟩
        have shorter : after.rest.length < c.rest.length := length_of_cuts cut
        exact .cons read (ih whole (by omega))
      next after read => exact .nil read
      next => cases whole

/-- A text that can be cut up is scanned to its end. -/
theorem CutUp.upTo (h : CutUp total cs lexemes) (rest : c.rest = cs) (within : c.total = total)
    (enough : lexemes.length ≤ count) :
    (Scan.upTo count c).lexemes = lexemes ∧ (Scan.upTo count c).failure? = none := by
  induction h generalizing c count with
  | @nil cs blank =>
      cases count with
      | zero => exact ⟨rfl, rfl⟩
      | succ count =>
          have ahead : c.skipBlanks.rest = [] := by
            rw [← blank, ← rest]
            rfl
          rw [Scan.upTo, token_of_nil ahead]
          exact ⟨rfl, rfl⟩
  | @cons cs after token lexemes cut _ ih =>
      obtain ⟨count, rfl⟩ : ∃ n, count = n + 1 :=
        ⟨count - 1, by rw [List.length_cons] at enough; omega⟩
      obtain ⟨behind, read, same, kept⟩ := token_of_cuts (c := c) (by rw [← rest]; rfl) cut
      have stop : behind.offset = total - byteLength after := by
        rw [← within, ← kept, Cursor.total, same, Nat.add_sub_cancel_right]
      obtain ⟨scanned, whole⟩ := ih same (kept.trans within) (Nat.le_of_succ_le_succ enough)
      rw [Scan.upTo, read]
      dsimp only
      rw [scanned, stop]
      exact ⟨rfl, whole⟩

theorem total_ofText (text : String) : (Cursor.ofText text).total = byteLength text.toList :=
  Nat.zero_add _

/-- A scan that no failure stops is all that the text yields. -/
theorem yields_ofText {text : String} (whole : (ofText text).failure? = none) :
    Yields (Cursor.ofText text) (ofText text).lexemes :=
  yields_upTo whole (Nat.le_refl _)

theorem cutUp_ofText {text : String} (whole : (ofText text).failure? = none) :
    CutUp (byteLength text.toList) text.toList (ofText text).lexemes := by
  rw [← total_ofText]
  exact (yields_ofText whole).cutUp

theorem CutUp.ofText {text : String} (h : CutUp (byteLength text.toList) text.toList lexemes) :
    (Scan.ofText text).lexemes = lexemes ∧ (Scan.ofText text).failure? = none :=
  h.upTo rfl (total_ofText text) h.length_le

end Scan

end FormulaLang
