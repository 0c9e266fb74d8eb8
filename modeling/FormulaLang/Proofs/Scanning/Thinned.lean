import FormulaLang.Proofs.Building.Alike
import FormulaLang.Proofs.Scanning.Lexemes

/-!
Texts that lose some of their blanks.  The tokens of a text that is scanned to its end stay the
same, up to the blanks in raw text.  A letter is the only token that a blank could keep apart from
what follows it, since a `_` right behind it is part of its name; but no token starts with a `_`.
-/

namespace FormulaLang

open Cursor Text

/-- A text without some of its blanks. -/
inductive Thinned : List Char → List Char → Prop where
  | nil : Thinned [] []
  | keep (ch : Char) {cs cs' : List Char} (h : Thinned cs cs') : Thinned (ch :: cs) (ch :: cs')
  | drop {ch : Char} (blank : isBlank ch = true) {cs cs' : List Char} (h : Thinned cs cs') :
      Thinned (ch :: cs) cs'

namespace Thinned

variable {cs cs' : List Char} {ch : Char} {p : Char → Bool}

theorem refl (cs : List Char) : Thinned cs cs := by
  induction cs with
  | nil => exact .nil
  | cons ch cs ih => exact .keep ch ih

theorem withoutBlanks (cs : List Char) : Thinned cs (cs.filter fun ch => !isBlank ch) := by
  induction cs with
  | nil => exact .nil
  | cons ch cs ih =>
      cases blank : isBlank ch with
      | true =>
          rw [List.filter_cons_of_neg (by rw [blank]; decide)]
          exact .drop blank ih
      | false =>
          rw [List.filter_cons_of_pos (by rw [blank]; rfl)]
          exact .keep ch ih

-- Other characters than blanks stay.
theorem cons_of_ink (h : Thinned (ch :: cs) cs') (ink : isBlank ch = false) :
    ∃ rest, cs' = ch :: rest ∧ Thinned cs rest := by
  cases h with
  | keep _ h => exact ⟨_, rfl, h⟩
  | drop blank =>
      rw [ink] at blank
      cases blank

theorem run_eq (h : Thinned cs cs') (apart : ∀ ch, isBlank ch = true → p ch = false) :
    run p cs = run p cs' ∧ Thinned (beyond p cs) (beyond p cs') := by
  have passed : ∀ {ch : Char}, isPassed p ch = true → ∀ rest,
      run p (ch :: rest) = (if p ch then [ch] else []) ++ run p rest
        ∧ beyond p (ch :: rest) = beyond p rest := by
    intro ch passed rest
    rw [run, beyond, List.takeWhile_cons_of_pos passed, List.dropWhile_cons_of_pos passed,
      List.filter_cons]
    split <;> exact ⟨rfl, rfl⟩
  induction h with
  | nil => exact ⟨rfl, .nil⟩
  | @keep ch cs cs' h ih =>
      by_cases within : isPassed p ch = true
      · obtain ⟨runs, beyonds⟩ := passed within cs
        obtain ⟨runs', beyonds'⟩ := passed within cs'
        rw [runs, runs', beyonds, beyonds', ih.1]
        exact ⟨rfl, ih.2⟩
      · rw [run, run, beyond, beyond, List.takeWhile_cons_of_neg within,
          List.takeWhile_cons_of_neg within, List.dropWhile_cons_of_neg within,
          List.dropWhile_cons_of_neg within]
        exact ⟨rfl, .keep ch h⟩
  | @drop ch blank cs cs' h ih =>
      have within : isPassed p ch = true := by rw [isPassed, blank, Bool.or_true]
      obtain ⟨runs, beyonds⟩ := passed within cs
      rw [runs, beyonds, apart ch blank]
      exact ih

theorem dropWhile_isBlank (h : Thinned cs cs') :
    Thinned (cs.dropWhile isBlank) (cs'.dropWhile isBlank) :=
  (h.run_eq (p := fun _ => false) fun _ _ => rfl).2

theorem find?_eq (h : Thinned cs cs') :
    cs.find? (fun ch => operatorCharacters.contains ch)
      = cs'.find? fun ch => operatorCharacters.contains ch := by
  induction h with
  | nil => rfl
  | keep ch _ ih => rw [List.find?_cons, List.find?_cons, ih]
  | drop blank _ ih =>
      rw [List.find?_cons_of_neg, ih]
      intro op
      rw [not_isBlank_of_operator op] at blank
      cases blank

theorem uncalled_iff (h : Thinned cs cs') : Uncalled cs ↔ Uncalled cs' := by
  unfold Uncalled
  rw [h.find?_eq]

-- Raw text is closed by the same character.
theorem split {close : Char} {split? : Nat → List Char → Option (List Char × List Char)}
    (closes : Closes close split?) (h : Thinned cs cs') {depth : Nat} {raw after : List Char}
    (split : split? depth cs = some (raw, after)) :
    ∃ raw' after', split? depth cs' = some (raw', after') ∧ Thinned raw raw'
      ∧ Thinned after after' := by
  induction h generalizing depth raw with
  | nil =>
      rw [closes.nil] at split
      cases split
  | @keep ch cs cs' h ih =>
      rcases closes.cons depth ch with ⟨-, closed⟩ | ⟨depth', -, passes⟩
      · rw [closed] at split
        cases split
        exact ⟨[], cs', closed cs', .nil, h⟩
      · rw [passes] at split
        obtain ⟨inside, found, rfl⟩ := before_eq_some split
        obtain ⟨raw', after', found', thinned, behind⟩ := ih found
        refine ⟨ch :: raw', after', ?_, .keep ch thinned, behind⟩
        rw [passes, found']
        rfl
  | @drop ch blank cs cs' h ih =>
      rcases closes.cons depth ch with ⟨rfl, closed⟩ | ⟨depth', same, passes⟩
      · rw [closes.ink] at blank
        cases blank
      · rw [passes, same blank] at split
        obtain ⟨inside, found, rfl⟩ := before_eq_some split
        obtain ⟨raw', after', found', thinned, behind⟩ := ih found
        exact ⟨raw', after', found', .drop blank thinned, behind⟩

/-- A raw text of fewer than `bound` characters that is another without some of its blanks. -/
def Narrower (bound : Nat) (raw raw' : String) : Prop :=
  Thinned raw.toList raw'.toList ∧ raw'.length < bound

variable {token : Token} {after : List Char} {bound : Nat}

theorem narrower_of_slice {raw raw' : List Char} {first close : Char} (h : Thinned raw raw')
    (slice : cs' = raw' ++ close :: after) (short : (first :: cs').length ≤ bound) :
    Narrower bound (String.ofList raw) (String.ofList raw') := by
  refine ⟨?_, ?_⟩
  · rw [String.toList_ofList, String.toList_ofList]
    exact h
  · rw [slice] at short
    rw [String.length_ofList]
    simp only [List.length_cons, List.length_append] at short
    omega

-- A character that is first behind the blanks stays first.
theorem head_dropWhile {tail : List Char} (h : Thinned cs (ch :: tail)) (ink : isBlank ch = false) :
    ∃ rest, cs.dropWhile isBlank = ch :: rest := by
  generalize same : ch :: tail = cs' at h
  induction h with
  | nil => cases same
  | keep _ _ =>
      cases same
      exact ⟨_, List.dropWhile_cons_of_neg (by rw [ink]; exact Bool.false_ne_true)⟩
  | drop blank _ ih =>
      rw [List.dropWhile_cons_of_pos blank]
      exact ih same

/-- A token is cut off a text without some of the blanks in it, unless blanks kept a letter apart
from a `_`. -/
theorem cuts (h : Thinned cs cs') (cut : Cuts cs token after)
    (apart : ∀ tail, after.dropWhile isBlank ≠ '_' :: tail) (short : cs'.length ≤ bound) :
    ∃ token' after', Cuts cs' token' after' ∧ Thinned after after'
      ∧ token.Alike (Narrower bound) token' := by
  obtain ⟨first, rest, rfl, ink⟩ := not_isBlank_of_cuts cut
  obtain ⟨rest', rfl, thinned⟩ := h.cons_of_ink ink
  cases cut with
  | operator found => exact ⟨_, _, .operator found rest', thinned, .same rfl⟩
  | group split =>
      obtain ⟨raw', after', split', inside, behind⟩ := thinned.split closes_splitGroup? split
      exact ⟨_, _, .group split', behind,
        .group (narrower_of_slice inside (closes_splitGroup?.slice split') short)⟩
  | magnitude split =>
      obtain ⟨raw', after', split', inside, behind⟩ := thinned.split closes_splitMagnitude? split
      exact ⟨_, _, .magnitude split', behind,
        .magnitude (narrower_of_slice inside (closes_splitMagnitude?.slice split') short)⟩
  | name alphabetic called =>
      obtain ⟨run, behind⟩ := thinned.run_eq fun _ blank => not_isWord_of_isBlank blank
      rw [run]
      exact ⟨_, _, .name alphabetic (h.uncalled_iff.not.mp called), behind, .same rfl⟩
  | letter alphabetic uncalled plain =>
      refine ⟨_, _, .letter alphabetic (h.uncalled_iff.mp uncalled) ?_, thinned, .same rfl⟩
      intro underscore
      cases rest' with
      | nil => cases underscore
      | cons ch tail =>
          cases underscore
          obtain ⟨rest, ahead⟩ := thinned.head_dropWhile (by decide +kernel)
          exact apart _ ahead
  | subscript alphabetic uncalled =>
      obtain ⟨rest', rfl, inside⟩ := thinned.cons_of_ink (by decide +kernel)
      obtain ⟨run, behind⟩ := inside.run_eq fun _ blank => not_isWord_of_isBlank blank
      rw [run]
      exact ⟨_, _, .subscript alphabetic (h.uncalled_iff.mp uncalled), behind, .same rfl⟩
  | number isDigit value =>
      obtain ⟨run, behind⟩ := thinned.run_eq fun _ blank => Cursor.not_isNumeric_of_isBlank blank
      rw [run] at value
      exact ⟨_, _, .number isDigit value, behind, .same rfl⟩

end Thinned

namespace Scan

-- No token starts with a `_`.
theorem not_underscore_of_cuts {tail after : List Char} {token : Token}
    (cut : Cuts ('_' :: tail) token after) : False := by
  cases cut with
  | operator found => cases found
  | name alphabetic | letter alphabetic | subscript alphabetic =>
      exact absurd alphabetic (by decide +kernel)
  | number isDigit => exact absurd isDigit (by decide)

theorem CutUp.not_underscore {total : Nat} {cs tail : List Char} {lexemes : List Lexeme}
    (h : CutUp total cs lexemes) : cs.dropWhile isBlank ≠ '_' :: tail := by
  intro ahead
  cases h with
  | nil blank =>
      rw [blank] at ahead
      cases ahead
  | cons cut =>
      rw [ahead] at cut
      exact not_underscore_of_cuts cut

/-- A text that is cut up is cut up into tokens alike without some of its blanks. -/
theorem CutUp.thinned {total bound : Nat} {cs cs' : List Char} {lexemes : List Lexeme}
    (h : CutUp total cs lexemes) (thinned : Thinned cs cs') (total' : Nat)
    (short : cs'.length ≤ bound) :
    ∃ lexemes', CutUp total' cs' lexemes' ∧
      List.Forall₂ (Token.Alike (Thinned.Narrower bound)) (lexemes.map Lexeme.token)
        (lexemes'.map Lexeme.token) := by
  induction h generalizing cs' with
  | nil blank =>
      have rest := thinned.dropWhile_isBlank
      rw [blank] at rest
      cases same : cs'.dropWhile isBlank with
      | nil => exact ⟨[], .nil same, .nil⟩
      | cons ch tail =>
          rw [same] at rest
          cases rest
  | cons cut h ih =>
      have within := (List.dropWhile_suffix isBlank (l := cs')).length_le
      obtain ⟨token', after', cut', behind, alike⟩ :=
        thinned.dropWhile_isBlank.cuts cut (fun tail => h.not_underscore) (within.trans short)
      have shorter := length_of_cuts cut'
      obtain ⟨lexemes', cutUp, all⟩ := ih behind (by omega)
      exact ⟨_, .cons cut' cutUp, .cons alike all⟩

end Scan

end FormulaLang
