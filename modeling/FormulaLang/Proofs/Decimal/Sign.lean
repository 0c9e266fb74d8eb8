import Mathlib
import FormulaLang.Decimal.Layout

/-!
The sign of a finite double.  Negating changes the sign bit and nothing else, so it is undone by
negating again, and a negative double is written as a minus sign before its magnitude.
-/

namespace FormulaLang.Decimal

open Float.Model Float.Model.UnpackedFloat

/-! ## Bits -/

/-- The bits of a double. -/
abbrev Bits := BitVec (Format.numBits Format.binary64)

variable (b : Bits)

theorem toBitVec_ofBitVec (s : BitVec 1) : (Sign.ofBitVec s).toBitVec = s := by
  revert s
  decide

theorem getLsbD_packComponents (s : Sign) (e : BitVec 11) (m : BitVec 52) (i : Nat) :
    (packComponents Format.binary64 s e m).getLsbD i
      = if i < 52 then m.getLsbD i
        else if i < 63 then e.getLsbD (i - 52)
        else s.toBitVec.getLsbD (i - 63) := by
  show ((s.toBitVec ++ e) ++ m : BitVec (1 + 11 + 52)).getLsbD i = _
  rw [BitVec.getLsbD_append, BitVec.getLsbD_append]
  by_cases low : i < 52
  · simp only [low, if_true]
  · by_cases middle : i < 63
    · have h : i - 52 < 11 := by omega
      simp only [low, middle, h, if_true, if_false]
    · have h : ¬ i - 52 < 11 := by omega
      have h' : i - 52 - 11 = i - 63 := by omega
      simp only [low, middle, h, h', if_false]

theorem getLsbD_unpackMantissa (i : Nat) :
    (unpackMantissa b).getLsbD i = (decide (i < 52) && b.getLsbD i) := by
  simp [unpackMantissa, Nat.lt_succ_iff]

theorem getLsbD_unpackExponent (i : Nat) :
    (unpackExponent b).getLsbD i = (decide (i < 11) && b.getLsbD (52 + i)) := by
  simp [unpackExponent, Nat.lt_succ_iff]

theorem getLsbD_unpackSign (i : Nat) :
    (unpackSign b).getLsbD i = (decide (i = 0) && b.getLsbD 63) := by
  by_cases h : i = 0 <;> simp [unpackSign, h]

/-- The sign of a double. -/
def signOf : Sign :=
  Sign.ofBitVec (unpackSign b)

/-- The bits with another sign. -/
def withSign (s : Sign) : Bits :=
  packComponents Format.binary64 s (unpackExponent b) (unpackMantissa b)

theorem withSign_signOf : withSign b (signOf b) = b := by
  apply BitVec.eq_of_getLsbD_eq
  intro i hi
  have hi : i < 64 := hi
  rw [withSign, signOf, getLsbD_packComponents, toBitVec_ofBitVec, getLsbD_unpackSign,
    getLsbD_unpackExponent, getLsbD_unpackMantissa]
  -- mantissa, exponent and sign, from the lowest bit on
  by_cases low : i < 52
  · simp only [low, if_true, decide_true, Bool.true_and]
  · by_cases middle : i < 63
    · have h : i - 52 < 11 := by omega
      have h' : 52 + (i - 52) = i := by omega
      simp only [low, middle, h, h', if_true, if_false, decide_true, Bool.true_and]
    · obtain rfl : i = 63 := by omega
      rfl

theorem signOf_withSign (s : Sign) : signOf (withSign b s) = s := by
  have h : unpackSign (withSign b s) = s.toBitVec := by
    apply BitVec.eq_of_getLsbD_eq
    intro i hi
    obtain rfl : i = 0 := by omega
    rw [getLsbD_unpackSign, withSign, getLsbD_packComponents]
    rfl
  rw [signOf, h]
  cases s <;> rfl

theorem withSign_withSign (s s' : Sign) : withSign (withSign b s) s' = withSign b s' := by
  unfold withSign
  rw [unpackExponent_packComponents, unpackMantissa_packComponents]

/-! ## Negating -/

theorem isFinite_unpack_iff :
    (UnpackedFloat.unpack Format.binary64 b).isFinite = true ↔ unpackExponent b ≠ -1#11 := by
  unfold UnpackedFloat.unpack
  dsimp only
  by_cases h : unpackExponent b = -1#11
  · rw [if_pos h]
    constructor
    · intro finite
      split at finite <;> cases finite
    · intro ne
      exact absurd h ne
  · rw [if_neg h]
    constructor
    · intro _
      exact h
    · intro _
      split
      · split <;> rfl
      · rfl

theorem pack_subnormal (s : Sign) (m : BitVec 52) (pos : 0 < m.toNat) :
    UnpackedFloat.pack Format.binary64 (.finite s m.toNat (-1074) pos)
      = packComponents Format.binary64 s 0#11 m := by
  have below : m.toNat < 2 ^ 52 := m.isLt
  have low : ¬ m.toNat.log2 + 1 = 53 := by
    have := (Nat.log2_lt (Nat.ne_of_gt pos)).mpr below
    omega
  have biased : ((-1074 : Int) + (Format.exponentBias Format.binary64 : Nat)
      + (52 : Nat)).toNat = 1 := rfl
  have bits : Format.mantissaBits Format.binary64 = 53 := rfl
  simp only [UnpackedFloat.pack, biased, bits, low, if_false]
  rw [if_neg (by decide), BitVec.ofNat_toNat, BitVec.setWidth_eq]

theorem toNat_implicit (m : BitVec 52) : (1#1 ++ m).toNat = 2 ^ 52 + m.toNat := by
  rw [BitVec.toNat_append, ← Nat.shiftLeft_add_eq_or_of_lt m.isLt]
  rfl

theorem pack_normal (s : Sign) (e : BitVec 11) (m : BitVec 52) (finite : e ≠ -1#11)
    (pos : 0 < (1#1 ++ m).toNat) :
    UnpackedFloat.pack Format.binary64 (.finite s (1#1 ++ m).toNat ((e.toNat : Int) - 1075) pos)
      = packComponents Format.binary64 s e m := by
  have below : m.toNat < 2 ^ 52 := m.isLt
  have whole := toNat_implicit m
  have high : (1#1 ++ m).toNat.log2 + 1 = 53 := by
    have := (Nat.log2_eq_iff (k := 52) (Nat.ne_of_gt pos)).mpr (by omega)
    omega
  have exponent : e.toNat < 2 ^ 11 := e.isLt
  have notLast : e.toNat ≠ 2 ^ 11 - 1 := fun h => finite (BitVec.eq_of_toNat_eq h)
  have biased : ((e.toNat : Int) - 1075 + (Format.exponentBias Format.binary64 : Nat)
      + (52 : Nat)).toNat = e.toNat := by
    have bias : ((Format.exponentBias Format.binary64 : Nat) : Int) = 1023 := rfl
    rw [bias]
    omega
  have bits : Format.mantissaBits Format.binary64 = 53 := rfl
  have implicit : BitVec.ofNat 52 (1#1 ++ m).toNat = m := by
    apply BitVec.eq_of_toNat_eq
    rw [BitVec.toNat_ofNat, whole, Nat.add_mod_left, Nat.mod_eq_of_lt below]
  simp only [UnpackedFloat.pack, biased, bits, high, if_true]
  rw [if_neg (by omega), BitVec.ofNat_toNat, BitVec.setWidth_eq]
  exact congrArg _ implicit

-- Negating a finite double changes its sign only.
theorem pack_neg (finite : unpackExponent b ≠ -1#11) :
    UnpackedFloat.pack Format.binary64 (UnpackedFloat.unpack Format.binary64 b).neg
      = withSign b (-signOf b) := by
  unfold UnpackedFloat.unpack withSign
  dsimp only
  rw [if_neg finite]
  split
  next zero =>
    split
    next empty =>
      rw [zero, empty]
      rfl
    next =>
      simp only [zero]
      exact pack_subnormal _ (unpackMantissa b) _
  next => exact pack_normal _ (unpackExponent b) (unpackMantissa b) finite _

/-! ## Doubles -/

variable {x : Float}

/-- The bits of a double. -/
def bits (x : Float) : Bits :=
  x.toBits.toBitVec

theorem eq_of_bits {x y : Float} (h : bits x = bits y) : x = y := by
  obtain ⟨⟨⟨a⟩, ha⟩⟩ := x
  obtain ⟨⟨⟨c⟩, hc⟩⟩ := y
  have same : a = c := h
  subst same
  rfl

theorem isFinite_iff : x.isFinite = true ↔ unpackExponent (bits x) ≠ -1#11 :=
  isFinite_unpack_iff (bits x)

theorem bits_neg (finite : x.isFinite = true) : bits (-x) = withSign (bits x) (-signOf (bits x)) :=
  pack_neg (bits x) (isFinite_iff.mp finite)

theorem isFinite_neg (finite : x.isFinite = true) : (-x).isFinite = true := by
  rw [isFinite_iff, bits_neg finite, withSign, unpackExponent_packComponents]
  exact isFinite_iff.mp finite

theorem neg_neg (finite : x.isFinite = true) : - -x = x := by
  apply eq_of_bits
  rw [bits_neg (isFinite_neg finite), bits_neg finite, signOf_withSign, withSign_withSign]
  have back : -(-signOf (bits x)) = signOf (bits x) := by
    cases signOf (bits x) <;> rfl
  rw [back, withSign_signOf]

/-! ## Written doubles -/

theorem mantissa_toNat (x : Float) :
    (x.toBits &&& 0xFFFFFFFFFFFFF).toNat = (unpackMantissa (bits x)).toNat := by
  have left : (x.toBits &&& 0xFFFFFFFFFFFFF).toNat = (bits x).toNat % 2 ^ 52 := by
    rw [UInt64.toNat_and]
    exact Nat.and_two_pow_sub_one_eq_mod _ 52
  have right : (unpackMantissa (bits x)).toNat = (bits x).toNat % 2 ^ 52 := by
    unfold unpackMantissa
    rw [BitVec.toNat_cast, BitVec.extractLsb_toNat, Nat.shiftRight_zero]
    rfl
  rw [left, right]

theorem exponent_toNat (x : Float) :
    (x.toBits >>> 52 &&& 0x7FF).toNat = (unpackExponent (bits x)).toNat := by
  have left : (x.toBits >>> 52 &&& 0x7FF).toNat = ((bits x).toNat >>> 52) % 2 ^ 11 := by
    rw [UInt64.toNat_and, UInt64.toNat_shiftRight]
    exact Nat.and_two_pow_sub_one_eq_mod _ 11
  have right : (unpackExponent (bits x)).toNat = ((bits x).toNat >>> 52) % 2 ^ 11 := by
    unfold unpackExponent
    rw [BitVec.toNat_cast, BitVec.extractLsb_toNat]
    rfl
  rw [left, right]

theorem isNegative_iff (x : Float) : isNegative x = true ↔ signOf (bits x) = .negative := by
  have shifted : (x.toBits >>> 63 = 1) ↔ (bits x).toNat / 2 ^ 63 = 1 := by
    rw [← UInt64.toNat_inj, UInt64.toNat_shiftRight]
    show (bits x).toNat >>> 63 = 1 ↔ _
    rw [Nat.shiftRight_eq_div_pow]
  have sign : unpackSign (bits x) = 0#1 ↔ (bits x).toNat / 2 ^ 63 = 0 := by
    have small : (bits x).toNat < 2 ^ 64 := (bits x).isLt
    have value : (unpackSign (bits x)).toNat = (bits x).toNat / 2 ^ 63 % 2 := by
      unfold unpackSign
      rw [BitVec.toNat_cast, BitVec.extractLsb_toNat, Nat.shiftRight_eq_div_pow]
      rfl
    rw [← BitVec.toNat_inj, value]
    show _ = 0 ↔ _
    omega
  have small : (bits x).toNat < 2 ^ 64 := (bits x).isLt
  unfold isNegative signOf Sign.ofBitVec
  rw [decide_eq_true_iff, shifted]
  split
  next h =>
    have := sign.mp h
    constructor
    · intro one
      omega
    · nofun
  next h =>
    have := mt sign.mpr h
    constructor
    · intro _
      rfl
    · intro _
      omega

theorem isNegative_neg (finite : x.isFinite = true) (negative : isNegative x = true) :
    isNegative (-x) = false := by
  have sign := (isNegative_iff x).mp negative
  rw [← Bool.not_eq_true, isNegative_iff, bits_neg finite, signOf_withSign, sign]
  nofun

theorem ofFloat_neg (finite : x.isFinite = true) : Binary.ofFloat (-x) = Binary.ofFloat x := by
  unfold Binary.ofFloat
  rw [mantissa_toNat, exponent_toNat, mantissa_toNat, exponent_toNat, bits_neg finite, withSign,
    unpackMantissa_packComponents, unpackExponent_packComponents]

/-- How the magnitude of a finite double is written. -/
def magnitudeText (x : Float) : String :=
  match (Binary.ofFloat x).shortest? .larger with
  | some d => d.positionalText false
  | none => "0"

theorem text_of_finite (finite : x.isFinite = true) :
    text x = if isNegative x then "-" ++ magnitudeText x else magnitudeText x := by
  have special : x.isNaN = false ∧ x.isInf = false := by
    have finite : x.toModel.unpack.isFinite = true := finite
    show x.toModel.unpack.isNaN = false ∧ x.toModel.unpack.isInf = false
    cases h : x.toModel.unpack with
    | infinity s => rw [h] at finite; cases finite
    | notANumber => rw [h] at finite; cases finite
    | zero s => exact ⟨rfl, rfl⟩
    | finite s m e pos => exact ⟨rfl, rfl⟩
  unfold text Layout.text magnitudeText
  rw [special.1, special.2]
  rfl

-- A negative double is written as a minus sign before the double of the other sign.
theorem text_of_negative (finite : x.isFinite = true) (negative : isNegative x = true) :
    text x = "-" ++ text (-x) := by
  have same : magnitudeText (-x) = magnitudeText x := by
    rw [magnitudeText, ofFloat_neg finite, magnitudeText]
  rw [text_of_finite finite, text_of_finite (isFinite_neg finite), negative,
    isNegative_neg finite negative, same]
  rfl

end FormulaLang.Decimal
