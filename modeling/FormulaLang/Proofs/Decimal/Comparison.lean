import FormulaLang.Proofs.Decimal.Sign

/-!
Comparison of doubles.  A double that is a number has a place in a linear order, in which both zeros
have the same one; two doubles compare as their places do, and a NaN has none.  The distance of two
doubles is the same in both directions, since subtraction the other way round changes at most the
sign of the result.
-/

namespace FormulaLang.Decimal

open Float.Model Float.Model.UnpackedFloat

/-! ## Order -/

/-- The place of a double: whether it is negative, zero or positive, twofold for an infinity, then
the exponent and the mantissa, which count downwards for a negative double. -/
def place? : UnpackedFloat → Option (Int ×ₗ Int ×ₗ Int)
  | .notANumber => none
  | .infinity s => some (toLex (s.apply 2, toLex (0, 0)))
  | .finite s m e _ => some (toLex (s.apply 1, toLex (s.apply e, s.apply m)))
  | .zero _ => some (toLex (0, toLex (0, 0)))

theorem compare_signs :
    compare Sign.negative Sign.negative = .eq ∧ compare Sign.negative Sign.positive = .lt ∧
      compare Sign.positive Sign.negative = .gt ∧ compare Sign.positive Sign.positive = .eq :=
  ⟨rfl, rfl, rfl, rfl⟩

section

variable (e e' : Int) (m m' : Nat)

-- Finite doubles of one sign compare by their exponents, and then by their mantissas.
theorem isLE_scales :
    ((compare e e').then (compare m m')).isLE = true ↔ e < e' ∨ e = e' ∧ m ≤ m' := by
  rw [Ordering.isLE_then_iff_or, compare_lt_iff_lt, compare_eq_iff_eq, Nat.isLE_compare]

theorem isGE_scales :
    ((compare e e').then (compare m m')).isGE = true ↔ e' < e ∨ e = e' ∧ m' ≤ m := by
  rw [eq_comm (a := e), ← isLE_scales, ← Ordering.isLE_swap, Ordering.swap_then, Int.compare_swap,
    Nat.compare_swap]

end

theorem le_iff (a b : UnpackedFloat) :
    a.le b = true ↔ ∃ p q, place? a = some p ∧ place? b = some q ∧ p ≤ q := by
  rcases a with (_ | _) | _ | s | ⟨_ | _, m, e, pos⟩ <;>
    rcases b with (_ | _) | _ | s' | ⟨_ | _, m', e', pos'⟩ <;>
    simp [UnpackedFloat.le, UnpackedFloat.compare, place?, Sign.apply, compare_signs,
      Prod.Lex.toLex_le_toLex, isLE_scales, isGE_scales]

theorem beq_iff (a b : UnpackedFloat) :
    a.beq b = true ↔ (place? a).isSome ∧ place? a = place? b := by
  rcases a with (_ | _) | _ | s | ⟨_ | _, m, e, pos⟩ <;>
    rcases b with (_ | _) | _ | s' | ⟨_ | _, m', e', pos'⟩ <;>
    simp [UnpackedFloat.beq, UnpackedFloat.compare, place?, Sign.apply, compare_signs]

/-! ## Distance -/

-- Rounding leaves the sign as it is.
theorem abs_round (spec : Format) (s s' : Sign) (m : Nat) (e : Int) :
    (UnpackedFloat.round spec s m e).abs = (UnpackedFloat.round spec s' m e).abs := by
  unfold UnpackedFloat.round roundWithAccuracy
  dsimp only
  split <;> rfl

theorem abs_normalize (spec : Format) (n e : Int) :
    (UnpackedFloat.normalize spec (-n) e .positive).abs
      = (UnpackedFloat.normalize spec n e .positive).abs := by
  unfold UnpackedFloat.normalize
  obtain below | rfl | above := lt_trichotomy n 0
  · have opposite : 0 < -n := Int.neg_pos_of_neg below
    rw [compare_lt_iff_lt.mpr below, compare_gt_iff_gt.mpr opposite]
    exact abs_round ..
  · rfl
  · have opposite : -n < 0 := Int.neg_neg_of_pos above
    rw [compare_gt_iff_gt.mpr above, compare_lt_iff_lt.mpr opposite]
    dsimp only
    rw [Int.neg_neg]
    exact abs_round ..

theorem abs_sub_comm (spec : Format) (a b : UnpackedFloat) :
    (UnpackedFloat.sub spec a b).abs = (UnpackedFloat.sub spec b a).abs := by
  cases a with
  | notANumber => cases b <;> rfl
  | infinity s =>
    cases b with
    | infinity s' => cases s <;> cases s' <;> rfl
    | _ => rfl
  | zero s =>
    cases b with
    | zero s' => cases s <;> cases s' <;> rfl
    | _ => rfl
  | finite s m e pos =>
    cases b with
    | finite s' m' e' pos' =>
      simp only [UnpackedFloat.sub]
      rw [Int.min_comm e' e, ← Int.neg_sub, abs_normalize]
    | _ => rfl

-- The sign is unpacked apart from the rest.
theorem abs_unpack {spec : Format} {b c : BitVec spec.numBits}
    (exponent : unpackExponent b = unpackExponent c)
    (mantissa : unpackMantissa b = unpackMantissa c) :
    (UnpackedFloat.unpack spec b).abs = (UnpackedFloat.unpack spec c).abs := by
  unfold UnpackedFloat.unpack
  dsimp only
  simp only [exponent, mantissa]
  split
  · split <;> rfl
  · split
    · split <;> rfl
    · rfl

theorem abs_unpack_packComponents (spec : Format) (s s' : Sign) (e : BitVec spec.exponentBits)
    (m : BitVec spec.mantissaBitsWithoutImplicit) :
    (UnpackedFloat.unpack spec (packComponents spec s e m)).abs
      = (UnpackedFloat.unpack spec (packComponents spec s' e m)).abs := by
  apply abs_unpack
  · rw [unpackExponent_packComponents, unpackExponent_packComponents]
  · rw [unpackMantissa_packComponents, unpackMantissa_packComponents]

-- And it is packed apart from the rest.
theorem abs_unpack_pack (spec : Format) {u v : UnpackedFloat} (same : u.abs = v.abs) :
    (UnpackedFloat.unpack spec (UnpackedFloat.pack spec u)).abs
      = (UnpackedFloat.unpack spec (UnpackedFloat.pack spec v)).abs := by
  cases u with
  | notANumber =>
    cases v with
    | notANumber => rfl
    | _ => cases same
  | infinity s =>
    cases v with
    | infinity s' => exact abs_unpack_packComponents ..
    | _ => cases same
  | zero s =>
    cases v with
    | zero s' => exact abs_unpack_packComponents ..
    | _ => cases same
  | finite s m e pos =>
    cases v with
    | finite s' m' e' pos' =>
      cases same
      unfold UnpackedFloat.pack
      dsimp only
      split
      · exact abs_unpack_packComponents ..
      · split <;> exact abs_unpack_packComponents ..
    | _ => cases same

/-! ## Doubles -/

variable {x y z : Float}

theorem beq_double_iff :
    (x == y) = true ↔ (place? x.toModel.unpack).isSome
      ∧ place? x.toModel.unpack = place? y.toModel.unpack :=
  beq_iff _ _

theorem beq_symm (h : (x == y) = true) : (y == x) = true := by
  rw [beq_double_iff] at h ⊢
  exact ⟨h.2 ▸ h.1, h.2.symm⟩

theorem beq_trans (h : (x == y) = true) (h' : (y == z) = true) : (x == z) = true := by
  rw [beq_double_iff] at h h' ⊢
  exact ⟨h.1, h.2.trans h'.2⟩

theorem le_double_iff :
    x ≤ y ↔ ∃ p q, place? x.toModel.unpack = some p ∧ place? y.toModel.unpack = some q ∧ p ≤ q :=
  decide_eq_true_iff.trans (le_iff _ _)

theorem le_of_le_of_le (h : x ≤ y) (h' : y ≤ z) : x ≤ z := by
  obtain ⟨p, q, hp, hq, below⟩ := le_double_iff.mp h
  obtain ⟨q', r, hq', hr, below'⟩ := le_double_iff.mp h'
  cases hq.symm.trans hq'
  exact le_double_iff.mpr ⟨p, r, hp, hr, below.trans below'⟩

/-- The distance of two doubles does not depend on their order. -/
theorem distance_comm (x y : Float) : (x - y).abs = (y - x).abs := by
  have same := abs_unpack_pack Format.binary64
    (abs_sub_comm Format.binary64 x.toModel.unpack y.toModel.unpack)
  exact congrArg (fun u => Float.ofModel (Float.Model.pack u)) same

end FormulaLang.Decimal
