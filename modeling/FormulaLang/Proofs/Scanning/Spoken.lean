import FormulaLang.Proofs.Building.Grammar
import FormulaLang.Proofs.Scanning.Reads

/-!
The tokens that a text can have.  A name stands before parentheses or bars and a variable does not,
since both are told apart by the next operator ahead.
-/

namespace FormulaLang

namespace Cursor

open Text

variable {cs after : List Char} {token : Token}

-- Beyond characters of names stands none, and no blank.
theorem not_isPassed_of_beyond {rest tail : List Char} {ch : Char}
    (h : beyond isWord rest = ch :: tail) : isPassed isWord ch = false := by
  have first := List.head?_dropWhile_not (isPassed isWord) rest
  rw [beyond] at h
  rw [h] at first
  exact first

theorem isWord_of_isDigit {ch : Char} (digit : ch.isDigit = true) : isWord ch = true := by
  have numeral : Text.isNumeric ch = true := by
    simp only [Char.isDigit, Bool.and_eq_true, decide_eq_true_eq] at digit
    refine List.any_eq_true.mpr ⟨(0x30, 0x39), by decide, ?_⟩
    simp only [Bool.and_eq_true, decide_eq_true_eq]
    exact digit
  rw [isWord, isAlphanumeric, numeral, Bool.or_true, Bool.true_or]

-- What can be called stands before parentheses or bars and nothing else.
theorem Cuts.unexpanded (h : Cuts cs token after) (called : ¬ Uncalled cs)
    (ends : ∀ ch tail, cs = ch :: tail → isPassed isWord ch = false) :
    token.isUnexpanded = true := by
  have dense : ∀ {ch : Char} {rest : List Char}, cs = ch :: rest → isWord ch = true → False := by
    intro ch rest same word
    have passed := ends ch rest same
    rw [isPassed, word] at passed
    cases passed
  cases h with
  | @operator ch op found rest =>
      refine absurd ?_ called
      unfold Uncalled
      rw [List.find?_cons_of_pos (operator_of_ofChar? found)]
      constructor
      · rintro ⟨⟩
        cases found
      · rintro ⟨⟩
        cases found
  | group | magnitude => rfl
  | name alphabetic | letter alphabetic | subscript alphabetic =>
      exact (dense rfl (isWord_of_isAlphabetic alphabetic)).elim
  | number digit => exact (dense rfl (isWord_of_isDigit digit)).elim

theorem Cuts.expanded (h : Cuts cs token after) (uncalled : Uncalled cs) :
    token.isUnexpanded = false := by
  cases h with
  | group => exact absurd rfl uncalled.1
  | magnitude => exact absurd rfl uncalled.2
  | operator | name | letter | subscript | number => rfl

theorem isFunctionName_run {letter : Char} (alphabetic : isAlphabetic letter = true)
    (rest : List Char) : Term.IsFunctionName (String.ofList (letter :: run isWord rest)) := by
  rw [Term.IsFunctionName, String.toList_ofList]
  refine ⟨⟨letter, _, rfl, alphabetic⟩, fun ch mem => ?_⟩
  rcases List.mem_cons.mp mem with rfl | mem
  · exact isWord_of_isAlphabetic alphabetic
  · exact isWord_of_mem_run mem

end Cursor

/-! ## A whole text -/

namespace Grammar

/-- Whether a list goes on with parentheses or bars. -/
def isCall (tokens : List Token) : Bool :=
  tokens.head?.any Token.isUnexpanded

/-- Names stand before parentheses or bars, and variables do not. -/
inductive Spoken : List Token → Prop where
  | nil : Spoken []
  | operator {op : Operation} (binary : op.isBinary = true) {rest : List Token} (h : Spoken rest) :
      Spoken (.operator op :: rest)
  | name {name : String} (isName : Term.IsFunctionName name) {rest : List Token}
      (call : isCall rest = true) (h : Spoken rest) : Spoken (.name name :: rest)
  | var {name : String} (isVariable : Cursor.IsVariable name.toList) {rest : List Token}
      (call : isCall rest = false) (h : Spoken rest) : Spoken (.var name :: rest)
  | number (x : Float) {rest : List Token} (h : Spoken rest) : Spoken (.number x :: rest)
  | raw {token : Token} (unexpanded : token.isUnexpanded = true) {rest : List Token}
      (h : Spoken rest) : Spoken (token :: rest)

theorem Spoken.isBinary {tokens : List Token} (h : Spoken tokens) {op : Operation}
    (mem : .operator op ∈ tokens) : op.isBinary = true := by
  induction h with
  | nil => cases mem
  | operator binary _ ih =>
      rcases List.mem_cons.mp mem with same | mem
      · cases same
        exact binary
      · exact ih mem
  | @raw token unexpanded rest _ ih =>
      rcases List.mem_cons.mp mem with rfl | mem
      · cases unexpanded
      · exact ih mem
  | name _ _ _ ih | var _ _ _ ih | number _ _ ih =>
      rcases List.mem_cons.mp mem with same | mem
      · cases same
      · exact ih mem

theorem Spoken.unsigned {tokens : List Token} (h : Spoken tokens) : Unsigned tokens := by
  rintro token mem rfl
  cases h.isBinary mem

theorem Spoken.isCall_of_name {front back : List Token} {name : String}
    (h : Spoken (front ++ .name name :: back)) : isCall back = true := by
  induction front with
  | nil =>
      cases h with
      | name _ call => exact call
      | raw unexpanded => cases unexpanded
  | cons token front ih =>
      have tail : Spoken (front ++ .name name :: back) := by
        cases h with
        | operator _ h | name _ _ h | var _ _ h | number _ h | raw _ h => exact h
      exact ih tail

end Grammar

namespace Scan

open Cursor Grammar

variable {total : Nat} {cs : List Char} {lexemes : List Lexeme}

theorem CutUp.not_isCall (h : CutUp total cs lexemes) (uncalled : Uncalled cs) :
    isCall (lexemes.map Lexeme.token) = false := by
  cases h with
  | nil => rfl
  | cons cut => exact cut.expanded ((uncalled_skipBlanks cs).mpr uncalled)

theorem CutUp.isCall (h : CutUp total cs lexemes) (called : ¬ Uncalled cs)
    (ends : ∀ ch tail, cs = ch :: tail → isPassed isWord ch = false) :
    isCall (lexemes.map Lexeme.token) = true := by
  cases h with
  | nil blank =>
      rw [← uncalled_skipBlanks, blank] at called
      exact absurd ⟨nofun, nofun⟩ called
  | cons cut =>
      have skipped : cs.dropWhile Text.isBlank = cs := by
        cases cs with
        | nil => rfl
        | cons ch tail =>
            have ink := (Bool.or_eq_false_iff.mp (ends ch tail rfl)).2
            exact List.dropWhile_cons_of_neg (Bool.eq_false_iff.mp ink)
      rw [skipped] at cut
      exact cut.unexpanded called ends

/-- A text that is cut up has spoken tokens. -/
theorem CutUp.spoken (h : CutUp total cs lexemes) : Spoken (lexemes.map Lexeme.token) := by
  induction h with
  | nil => exact .nil
  | @cons cs after token lexemes cut h ih =>
      rw [List.map_cons]
      generalize cs.dropWhile Text.isBlank = cs at cut
      cases cut with
      | operator found => exact .operator (Operation.isBinary_of_ofChar? found) ih
      | group | magnitude => exact .raw rfl ih
      | @name letter alphabetic rest called =>
          refine .name (isFunctionName_run alphabetic rest) (h.isCall ?_ ?_) ih
          · rw [← uncalled_beyond]
            exact mt (uncalled_words (IsVariable.letter alphabetic).words rest).mpr called
          · exact fun ch tail => not_isPassed_of_beyond
      | letter alphabetic uncalled plain =>
          refine .var ?_ (h.not_isCall ?_) ih
          · rw [String.toList_ofList]
            exact .letter alphabetic
          · exact (uncalled_words (IsVariable.letter alphabetic).words _).mp uncalled
      | @subscript letter alphabetic rest uncalled =>
          refine .var ?_ (h.not_isCall ?_) ih
          · rw [String.toList_ofList]
            exact .subscript alphabetic fun ch mem => isWord_of_mem_run mem
          · rw [← uncalled_beyond]
            have front : ∀ ch ∈ [letter, '_'], isWord ch = true :=
              (IsVariable.subscript alphabetic (by nofun)).words
            exact (uncalled_words front rest).mp uncalled
      | number => exact .number _ ih

theorem spoken_ofText {text : String} (whole : (ofText text).failure? = none) :
    Spoken (ofText text).tokens :=
  (cutUp_ofText whole).spoken

end Scan

end FormulaLang
