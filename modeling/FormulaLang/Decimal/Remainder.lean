import FormulaLang.Decimal.Digits

/-!
The exact remainder of two doubles: the quotient is truncated toward zero, so the remainder has
the sign of the dividend and no rounding takes place.
-/

namespace FormulaLang.Decimal

/-- The remainder of the magnitudes, brought to the smaller of the two exponents. -/
def Binary.remainder (a b : Binary) : Float :=
  let low := min a.exponent b.exponent
  let dividend := a.significand <<< (a.exponent - low).toNat
  let divisor := b.significand <<< (b.exponent - low).toNat
  (Float.ofNat (dividend % divisor)).scaleB low

/-- `remainder x y` is `x - y * n` for the whole number `n` nearest to `x / y` on the side of
zero.  It is NaN where no such number exists, and `x` itself for an infinite `y`. -/
def remainder (x y : Float) : Float :=
  if x.isNaN || y.isNaN || x.isInf || y == 0 then
    0 / 0
  else if y.isInf then
    x
  else
    let r := (Binary.ofFloat x).remainder (Binary.ofFloat y)
    if isNegative x then -r else r

end FormulaLang.Decimal
