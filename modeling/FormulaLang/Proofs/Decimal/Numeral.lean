import FormulaLang.Proofs.Decimal.Sign

/-!
Doubles that are not negative are written as numerals: a digit, then digits and points.
-/

namespace FormulaLang.Decimal

/-- The characters of numerals. -/
def isNumeric (c : Char) : Bool :=
  c.isDigit || c == '.'

/-- A digit, then digits and points. -/
structure IsNumeral (cs : List Char) : Prop where
  first : ∃ c rest, cs = c :: rest ∧ c.isDigit = true
  all : ∀ c ∈ cs, isNumeric c = true

theorem isNumeric_of_isDigit {c : Char} (h : c.isDigit = true) : isNumeric c = true := by
  rw [isNumeric, h, Bool.true_or]

theorem isNumeral_of_digits {cs : List Char} (there : cs ≠ [])
    (digits : ∀ c ∈ cs, c.isDigit = true) : IsNumeral cs := by
  cases cs with
  | nil => exact absurd rfl there
  | cons c rest =>
      exact ⟨⟨c, rest, rfl, digits c List.mem_cons_self⟩,
        fun d hd => isNumeric_of_isDigit (digits d hd)⟩

-- A numeral goes on with digits and points.
theorem IsNumeral.append {cs rest : List Char} (h : IsNumeral cs)
    (all : ∀ c ∈ rest, isNumeric c = true) : IsNumeral (cs ++ rest) := by
  obtain ⟨c, tail, rfl, digit⟩ := h.first
  refine ⟨⟨c, tail ++ rest, rfl, digit⟩, fun d hd => ?_⟩
  rcases List.mem_append.mp hd with hd | hd
  · exact h.all d hd
  · exact all d hd

theorem isDigit_of_mem_characters {d : Digits} {c : Char} (h : c ∈ d.characters) :
    c.isDigit = true :=
  Nat.isDigit_of_mem_toDigits (by decide) (by decide) h

theorem isNumeral_positionalText (d : Digits) : IsNumeral (d.positionalText false).toList := by
  have there : d.characters ≠ [] := Nat.toDigits_ne_nil
  have digits : ∀ c ∈ d.characters, c.isDigit = true := fun c => isDigit_of_mem_characters
  have zeros : ∀ n, ∀ c ∈ List.replicate n '0', c.isDigit = true := by
    intro n c hc
    rw [List.eq_of_mem_replicate hc]
    rfl
  unfold Digits.positionalText
  dsimp only
  split
  · rw [if_neg (by decide), String.toList_ofList]
    refine (isNumeral_of_digits there digits).append fun c hc => ?_
    exact isNumeric_of_isDigit (zeros _ c hc)
  · split
    next point =>
      simp only [String.toList_append, String.toList_ofList]
      have pos : d.point.toNat ≠ 0 := by omega
      have taken : d.characters.take d.point.toNat ≠ [] := by
        rw [Ne, List.take_eq_nil_iff]
        rintro (h | h)
        · exact pos h
        · exact there h
      have front : IsNumeral (d.characters.take d.point.toNat) :=
        isNumeral_of_digits taken fun c hc => digits c (List.mem_of_mem_take hc)
      refine (front.append fun c hc => ?_).append fun c hc => ?_
      · have hc : c ∈ ['.'] := hc
        rw [List.mem_singleton.mp hc]
        rfl
      · exact isNumeric_of_isDigit (digits c (List.mem_of_mem_drop hc))
    next =>
      simp only [String.toList_append, String.toList_ofList]
      refine IsNumeral.append ⟨⟨'0', ['.'], rfl, rfl⟩, List.all_eq_true.mp rfl⟩ fun c hc => ?_
      refine isNumeric_of_isDigit ?_
      rcases List.mem_append.mp hc with hc | hc
      · exact zeros _ c hc
      · exact digits c hc

-- A finite double that is not negative is written as a numeral.
theorem isNumeral_text {x : Float} (finite : x.isFinite = true) (positive : isNegative x = false) :
    IsNumeral (text x).toList := by
  rw [text_of_finite finite, positive]
  show IsNumeral (magnitudeText x).toList
  unfold magnitudeText
  cases (Binary.ofFloat x).shortest? .larger with
  | some d => exact isNumeral_positionalText d
  | none => exact ⟨⟨'0', [], rfl, rfl⟩, List.all_eq_true.mp rfl⟩

end FormulaLang.Decimal
