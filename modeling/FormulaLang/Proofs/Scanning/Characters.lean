import FormulaLang.Cursor

/-!
Kinds of characters that exclude each other: blanks, operators, digits and the characters of names.
-/

namespace FormulaLang

namespace Text

-- Characters of a kind are not those outside it.
theorem ne_of_kind {p : Char → Bool} {c d : Char} (h : p c = true) (outside : p d = false) :
    c ≠ d := by
  rintro rfl
  rw [outside] at h
  cases h

/-- Whether no range of one list meets a range of the other. -/
def areApart (ranges others : List (Nat × Nat)) : Bool :=
  ranges.all fun (first, last) => others.all fun (first', last') =>
    decide (last < first') || decide (last' < first)

theorem inRanges_of_areApart {ranges others : List (Nat × Nat)}
    (apart : areApart ranges others = true) {c : Char} (h : inRanges ranges c = true) :
    inRanges others c = false := by
  obtain ⟨⟨first, last⟩, mem, within⟩ := List.any_eq_true.mp h
  have clear := List.all_eq_true.mp apart (first, last) mem
  rw [← Bool.not_eq_true]
  intro h'
  obtain ⟨⟨first', last'⟩, mem', within'⟩ := List.any_eq_true.mp h'
  have away := List.all_eq_true.mp clear (first', last') mem'
  simp only [Bool.and_eq_true, decide_eq_true_eq] at within within'
  simp only [Bool.or_eq_true, decide_eq_true_eq] at away
  omega

theorem not_isAlphabetic_of_isBlank {c : Char} (h : isBlank c = true) : isAlphabetic c = false :=
  inRanges_of_areApart (by decide +kernel) h

theorem not_isNumeric_of_isBlank {c : Char} (h : isBlank c = true) : isNumeric c = false :=
  inRanges_of_areApart (by decide +kernel) h

end Text

namespace Cursor

open Text

/-- The code points of the characters that end the search for what a letter starts. -/
def operatorRanges : List (Nat × Nat) :=
  [(0x25, 0x25), (0x28, 0x2B), (0x2D, 0x2F), (0x3A, 0x3A), (0x5E, 0x5E), (0x7C, 0x7C)]

theorem inRanges_of_operator {c : Char} (h : operatorCharacters.contains c = true) :
    inRanges operatorRanges c = true := by
  have mem : c ∈ operatorCharacters := List.contains_iff_mem.mp h
  have all : operatorCharacters.all (inRanges operatorRanges) = true := by decide
  exact List.all_eq_true.mp all c mem

theorem not_isBlank_of_operator {c : Char} (h : operatorCharacters.contains c = true) :
    isBlank c = false :=
  inRanges_of_areApart (by decide +kernel) (inRanges_of_operator h)

theorem not_isWord_of_operator {c : Char} (h : operatorCharacters.contains c = true) :
    isWord c = false := by
  have within := inRanges_of_operator h
  have letter : isAlphabetic c = false := inRanges_of_areApart (by decide +kernel) within
  have numeral : Text.isNumeric c = false := inRanges_of_areApart (by decide +kernel) within
  have underscore : c ≠ '_' := by
    rintro rfl
    exact absurd within (by decide)
  rw [isWord, isAlphanumeric, letter, numeral, beq_false_of_ne underscore]
  rfl

theorem not_isWord_of_isBlank {c : Char} (h : isBlank c = true) : isWord c = false := by
  have underscore : c ≠ '_' := by
    rintro rfl
    exact absurd h (by decide)
  rw [isWord, isAlphanumeric, not_isAlphabetic_of_isBlank h, not_isNumeric_of_isBlank h,
    beq_false_of_ne underscore]
  rfl

theorem not_operator_of_isWord {c : Char} (h : isWord c = true) :
    operatorCharacters.contains c = false := by
  rw [← Bool.not_eq_true]
  intro op
  rw [not_isWord_of_operator op] at h
  cases h

theorem isWord_of_isAlphabetic {c : Char} (h : isAlphabetic c = true) : isWord c = true := by
  rw [isWord, isAlphanumeric, h]
  rfl

theorem operator_of_ofChar? {c : Char} {op : Operation} (h : Operation.ofChar? c = some op) :
    operatorCharacters.contains c = true := by
  unfold Operation.ofChar? at h
  split at h <;> first | rfl | cases h

theorem inRanges_of_isDigit {c : Char} (h : c.isDigit = true) :
    inRanges [(0x30, 0x39)] c = true := by
  simp only [Char.isDigit, Bool.and_eq_true, decide_eq_true_eq] at h
  have low : 0x30 ≤ c.toNat := h.1
  have high : c.toNat ≤ 0x39 := h.2
  simp only [inRanges, List.any_cons, List.any_nil, Bool.or_false, low, high, decide_true,
    Bool.and_self]

theorem not_isBlank_of_isDigit {c : Char} (h : c.isDigit = true) : isBlank c = false :=
  inRanges_of_areApart (by decide +kernel) (inRanges_of_isDigit h)

theorem not_isAlphabetic_of_isDigit {c : Char} (h : c.isDigit = true) : isAlphabetic c = false :=
  inRanges_of_areApart (by decide +kernel) (inRanges_of_isDigit h)

theorem not_operator_of_isDigit {c : Char} (h : c.isDigit = true) :
    operatorCharacters.contains c = false := by
  rw [← Bool.not_eq_true]
  intro op
  have apart : inRanges [(0x30, 0x39)] c = false :=
    inRanges_of_areApart (by decide) (inRanges_of_operator op)
  rw [inRanges_of_isDigit h] at apart
  cases apart

end Cursor

end FormulaLang
