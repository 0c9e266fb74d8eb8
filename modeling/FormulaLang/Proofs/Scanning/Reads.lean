import FormulaLang.Proofs.Scanning.Lexemes
import Mathlib.Data.List.DropRight

/-!
What a text starts with.  Each kind of token is read off its own characters when what follows them
cannot belong to it, and the texts of a list of tokens are scanned one by one.
-/

namespace FormulaLang

namespace Cursor

open Text

/-! ## Runs of characters -/

/-- Whether a run of characters with a property ends, up to blanks. -/
def Ends (p : Char → Bool) (rest : List Char) : Prop :=
  ∀ c tail, rest.dropWhile isBlank = c :: tail → p c = false

theorem Ends.tail {p : Char → Bool} {c : Char} {rest : List Char} (blank : isBlank c = true)
    (h : Ends p (c :: rest)) : Ends p rest := by
  intro d tail hd
  refine h d tail ?_
  rw [List.dropWhile_cons, if_pos blank, hd]

variable {p : Char → Bool}

theorem span_blanks {rest : List Char} (ends : Ends p rest) :
    rest.takeWhile (isPassed p) = rest.takeWhile isBlank ∧
      rest.dropWhile (isPassed p) = rest.dropWhile isBlank := by
  induction rest with
  | nil => exact ⟨rfl, rfl⟩
  | cons c rest ih =>
      by_cases blank : isBlank c = true
      · have within : isPassed p c = true := by rw [isPassed, blank, Bool.or_true]
        obtain ⟨taken, dropped⟩ := ih (ends.tail blank)
        rw [List.takeWhile_cons, List.takeWhile_cons, List.dropWhile_cons, List.dropWhile_cons,
          if_pos within, if_pos within, if_pos blank, if_pos blank, taken, dropped]
        exact ⟨rfl, rfl⟩
      · have stop : p c = false := ends c rest (by rw [List.dropWhile_cons, if_neg blank])
        have outside : ¬ isPassed p c = true := by
          rw [isPassed, stop, Bool.false_or]
          exact blank
        rw [List.takeWhile_cons, List.takeWhile_cons, List.dropWhile_cons, List.dropWhile_cons,
          if_neg outside, if_neg outside, if_neg blank, if_neg blank]
        exact ⟨rfl, rfl⟩

-- A run of characters with a property is read as it stands.
theorem run_append (apart : ∀ c, isBlank c = true → p c = false) {cs rest : List Char}
    (all : ∀ ch ∈ cs, p ch = true) (ends : Ends p rest) :
    run p (cs ++ rest) = cs ∧ beyond p (cs ++ rest) = rest.dropWhile isBlank := by
  have within : ∀ ch ∈ cs, isPassed p ch = true := by
    intro ch hch
    rw [isPassed, all ch hch, Bool.true_or]
  -- blanks after the run are read with it and left out
  obtain ⟨taken, dropped⟩ := span_blanks ends
  have blanks : (rest.takeWhile isBlank).filter p = [] := by
    rw [List.filter_eq_nil_iff]
    intro ch hch
    rw [apart ch (List.all_eq_true.mp List.all_takeWhile ch hch)]
    exact Bool.false_ne_true
  constructor
  · rw [run, List.takeWhile_append_of_pos within, taken, List.filter_append, blanks,
      List.append_nil, List.filter_eq_self.mpr all]
  · rw [beyond, List.dropWhile_append_of_pos within, dropped]

theorem spanLoose_append (apart : ∀ c, isBlank c = true → p c = false) {c : Cursor}
    {cs rest : List Char} (all : ∀ ch ∈ cs, p ch = true) (ends : Ends p rest)
    (h : c.rest = cs ++ rest) :
    (c.spanLoose p).1 = String.ofList cs ∧ (c.spanLoose p).2.rest = rest.dropWhile isBlank := by
  obtain ⟨text, after⟩ := run_append apart all ends
  rw [← h] at text after
  exact ⟨congrArg String.ofList text, after⟩

/-! ## One token -/

/-- A text starts with a token, and `rest` follows it, blanks in front of it left out. -/
def Reads (cs : List Char) (token : Token) (rest : List Char) : Prop :=
  ∀ c : Cursor, c.rest = cs → c.token.1 = .ok (some token)
    ∧ c.token.2.rest.dropWhile isBlank = rest.dropWhile isBlank

-- A text starts with the token that is cut off it.
theorem reads_of_cuts {cs after rest : List Char} {token : Token} (cut : Cuts cs token after)
    (same : after.dropWhile isBlank = rest.dropWhile isBlank) : Reads cs token rest := by
  intro c hc
  obtain ⟨ch, tail, rfl, ink⟩ := not_isBlank_of_cuts cut
  obtain ⟨behind, read, left, -⟩ := token_of_cuts (skipBlanks_rest hc ink) cut
  rw [read]
  exact ⟨rfl, left ▸ same⟩

theorem reads_operator {ch : Char} {op : Operation} (h : Operation.ofChar? ch = some op)
    (rest : List Char) : Reads (ch :: rest) (.operator op) rest :=
  reads_of_cuts (.operator h rest) rfl

theorem reads_group {barred : Bool} {cs : List Char} (h : Bracketed barred cs)
    (rest : List Char) : Reads ('(' :: (cs ++ ')' :: rest)) (.group (String.ofList cs)) rest := by
  have split : splitGroup? 0 (cs ++ ')' :: rest) = some (cs, rest) := by
    rw [h.splitGroup?]
    show some (cs ++ [], rest) = _
    rw [List.append_nil]
  exact reads_of_cuts (.group split) rfl

theorem reads_magnitude {cs : List Char} (h : Bracketed false cs) (rest : List Char) :
    Reads ('|' :: (cs ++ '|' :: rest)) (.magnitude (String.ofList cs)) rest := by
  have split : splitMagnitude? 0 (cs ++ '|' :: rest) = some (cs, rest) := by
    rw [h.splitMagnitude? nofun]
    show some (cs ++ [], rest) = _
    rw [List.append_nil]
  exact reads_of_cuts (.magnitude split) rfl

/-- Whether a text ends or goes on with an operator, up to blanks. -/
def Pauses (rest : List Char) : Prop :=
  ∀ c tail, rest.dropWhile isBlank = c :: tail → ∃ op, Operation.ofChar? c = some op

theorem Pauses.ends_word {rest : List Char} (h : Pauses rest) : Ends isWord rest := by
  intro c tail hc
  obtain ⟨op, found⟩ := h c tail hc
  exact not_isWord_of_operator (operator_of_ofChar? found)

theorem reads_number {cs rest : List Char} {x : Float} (numeral : Decimal.IsNumeral cs)
    (value : Decimal.readUnsigned? cs = some x) (ends : Ends Decimal.isNumeric rest) :
    Reads (cs ++ rest) (.number x) rest := by
  obtain ⟨digit, tail, rfl, isDigit⟩ := numeral.first
  have all : ∀ ch ∈ tail, Decimal.isNumeric ch = true := fun ch mem =>
    numeral.all ch (List.mem_cons_of_mem _ mem)
  obtain ⟨text, after⟩ := run_append (fun ch => not_isNumeric_of_isBlank) all ends
  rw [List.cons_append]
  refine reads_of_cuts (.number isDigit (text.symm ▸ value)) ?_
  rw [after, List.dropWhile_idempotent]

theorem reads_name {cs : List Char} (rest : List Char) {letter : Char} {tail : List Char}
    (hcs : cs = letter :: tail) (alphabetic : isAlphabetic letter = true)
    (words : ∀ ch ∈ cs, isWord ch = true) :
    Reads (cs ++ '(' :: rest) (.name (String.ofList cs)) ('(' :: rest) := by
  subst hcs
  have called : ¬ Uncalled (letter :: (tail ++ '(' :: rest)) := by
    rw [← List.cons_append, uncalled_words words]
    exact fun uncalled => uncalled.1 rfl
  have ends : Ends isWord ('(' :: rest) := by
    intro ch tail' same
    have first : '(' = ch := (List.cons.inj same).1
    rw [← first]
    exact not_isWord_of_operator rfl
  obtain ⟨text, after⟩ := run_append (fun ch => not_isWord_of_isBlank)
    (fun ch mem => words ch (List.mem_cons_of_mem _ mem)) ends
  have cut := Cuts.name alphabetic called
  rw [text] at cut
  rw [List.cons_append]
  refine reads_of_cuts cut ?_
  rw [after, List.dropWhile_idempotent]

theorem Pauses.uncalled {rest : List Char} (pauses : Pauses rest) : Uncalled rest := by
  rw [← uncalled_skipBlanks]
  unfold Uncalled
  cases ahead : rest.dropWhile isBlank with
  | nil => exact ⟨nofun, nofun⟩
  | cons ch tail =>
      obtain ⟨op, hop⟩ := pauses ch tail ahead
      rw [List.find?_cons_of_pos (operator_of_ofChar? hop)]
      constructor
      · rintro ⟨⟩
        cases hop
      · rintro ⟨⟩
        cases hop

theorem reads_letter {ch : Char} {rest : List Char} (alphabetic : isAlphabetic ch = true)
    (other : rest.head? ≠ some '_') (uncalled : Uncalled rest) :
    Reads (ch :: rest) (.var (String.singleton ch)) rest := by
  have ahead := (uncalled_words (IsVariable.letter alphabetic).words rest).mpr uncalled
  exact reads_of_cuts (.letter alphabetic ahead other) rfl

theorem reads_variable {cs rest : List Char} (var : IsVariable cs) (pauses : Pauses rest) :
    Reads (cs ++ rest) (.var (String.ofList cs)) rest := by
  cases var with
  | letter alphabetic =>
      refine reads_letter alphabetic ?_ pauses.uncalled
      intro underscore
      cases rest with
      | nil => cases underscore
      | cons ch tail =>
          cases underscore
          obtain ⟨op, hop⟩ := pauses '_' tail rfl
          cases hop
  | @subscript ch alphabetic cs words =>
      have front := (IsVariable.subscript alphabetic words).words
      have ahead : Uncalled (ch :: '_' :: (cs ++ rest)) :=
        (uncalled_words front rest).mpr pauses.uncalled
      obtain ⟨text, after⟩ := run_append (fun ch => not_isWord_of_isBlank) words pauses.ends_word
      have cut := Cuts.subscript alphabetic ahead
      rw [text] at cut
      refine reads_of_cuts cut ?_
      rw [after, List.dropWhile_idempotent]

end Cursor

namespace Term

/-- A letter, then characters of names. -/
def IsFunctionName (name : String) : Prop :=
  (∃ letter tail, name.toList = letter :: tail ∧ Text.isAlphabetic letter = true)
    ∧ ∀ c ∈ name.toList, Cursor.isWord c = true

/-- Letters, then a variable: what variables in a row are joined to. -/
inductive IsKey : List Char → Prop where
  | var {cs : List Char} (h : Cursor.IsVariable cs) : IsKey cs
  | letter {ch : Char} (alphabetic : Text.isAlphabetic ch = true) {cs : List Char}
      (h : IsKey cs) : IsKey (ch :: cs)

theorem IsKey.words {cs : List Char} (h : IsKey cs) : ∀ c ∈ cs, Cursor.isWord c = true := by
  induction h with
  | var h => exact h.words
  | letter alphabetic _ ih =>
      intro c hc
      rcases List.mem_cons.mp hc with rfl | hc
      · exact Cursor.isWord_of_isAlphabetic alphabetic
      · exact ih c hc

theorem IsKey.first {cs : List Char} (h : IsKey cs) :
    ∃ letter tail, cs = letter :: tail ∧ Text.isAlphabetic letter = true := by
  cases h with
  | var h => exact h.first
  | letter alphabetic => exact ⟨_, _, rfl, alphabetic⟩

end Term

namespace Scan

open Cursor Text

/-- A text is scanned to a list of tokens without a failure, wherever it stands. -/
structure Lexes (cs : List Char) (tokens : List Token) : Prop where
  short : tokens.length ≤ cs.length
  scanned : ∀ (count : Nat) (c : Cursor), c.rest.dropWhile isBlank = cs.dropWhile isBlank →
    tokens.length ≤ count →
    (upTo count c).tokens = tokens ∧ (upTo count c).failure? = none

theorem Lexes.nil : Lexes [] [] where
  short := Nat.le_refl _
  scanned count c h _ := by
    cases count with
    | zero => exact ⟨rfl, rfl⟩
    | succ count =>
        have finished : c.skipBlanks.rest = [] := h
        rw [upTo, token_of_nil finished]
        exact ⟨rfl, rfl⟩

theorem Lexes.blank {cs : List Char} {tokens : List Token} (h : Lexes cs tokens) :
    Lexes (' ' :: cs) tokens where
  short := Nat.le_succ_of_le h.short
  scanned count c hc := h.scanned count c hc

theorem skipBlanks_skipBlanks (c : Cursor) : c.skipBlanks.skipBlanks = c.skipBlanks := by
  have taken : (c.rest.dropWhile isBlank).takeWhile isBlank = [] := by
    rw [List.takeWhile_eq_nil_iff]
    intro pos blank
    exact List.dropWhile_get_zero_not isBlank c.rest pos blank
  have dropped : c.skipBlanks.rest.dropWhile isBlank = c.skipBlanks.rest :=
    List.dropWhile_idempotent _ _
  show c.skipBlanks.past (c.skipBlanks.rest.takeWhile isBlank)
    (c.skipBlanks.rest.dropWhile isBlank) = c.skipBlanks
  rw [show c.skipBlanks.rest.takeWhile isBlank = [] from taken, dropped]
  rfl

theorem Lexes.cons {ch : Char} {cs rest : List Char} {token : Token} {tokens : List Token}
    (ink : isBlank ch = false) (reads : Reads (ch :: cs) token rest) (h : Lexes rest tokens)
    (shorter : rest.length ≤ cs.length) : Lexes (ch :: cs) (token :: tokens) where
  short := by
    have := h.short
    simp only [List.length_cons]
    omega
  scanned count c hc le := by
    obtain ⟨count, rfl⟩ : ∃ n, count = n + 1 :=
      ⟨count - 1, by simp only [List.length_cons] at le; omega⟩
    have ahead : c.skipBlanks.rest = ch :: cs := by
      show c.rest.dropWhile isBlank = _
      rw [hc, List.dropWhile_cons, ink]
      rfl
    obtain ⟨read, after⟩ := reads c.skipBlanks ahead
    have skipped : c.token = c.skipBlanks.token := by
      unfold Cursor.token
      rw [skipBlanks_skipBlanks]
    obtain ⟨scanned, whole⟩ := h.scanned count c.skipBlanks.token.2 after
      (by simp only [List.length_cons] at le; omega)
    have split : c.token = (.ok (some token), c.skipBlanks.token.2) := by
      rw [skipped, ← read]
    rw [upTo, split]
    exact ⟨congrArg (token :: ·) scanned, whole⟩

-- The characters of a token in front of a text that is scanned.
theorem Lexes.chunk {ch : Char} {tail rest : List Char} {token : Token} {tokens : List Token}
    (ink : isBlank ch = false) (reads : Reads ((ch :: tail) ++ rest) token rest)
    (h : Lexes rest tokens) : Lexes ((ch :: tail) ++ rest) (token :: tokens) := by
  refine Lexes.cons ink reads h ?_
  show rest.length ≤ (tail ++ rest).length
  rw [List.length_append]
  exact Nat.le_add_left _ _

-- A text that is scanned to tokens has them as its tokens.
theorem Lexes.ofText {text : String} {tokens : List Token} (h : Lexes text.toList tokens) :
    (Scan.ofText text).tokens = tokens ∧ (Scan.ofText text).failure? = none :=
  h.scanned text.length (Cursor.ofText text) rfl h.short

end Scan

end FormulaLang
