/-!
The shortest decimal digits of a double.

A finite nonzero double is `significand * 2 ^ exponent`, and the reals that round to it form an
interval around it.  `Binary.shortest?` names the point of that interval that lies on the coarsest
decimal grid, so no decimal with fewer digits reads back as the same double.  All of it is exact
arithmetic on natural numbers.
-/

namespace FormulaLang.Decimal

/-- The magnitude `significand * 2 ^ exponent`. -/
structure Binary where
  significand : Nat
  exponent : Int
  /-- The neighbour below is half as far away as the one above. -/
  narrowBelow : Bool
deriving DecidableEq, Repr

/-- The decimal `coefficient * 10 ^ exponent`. -/
structure Digits where
  coefficient : Nat
  exponent : Int
deriving DecidableEq, Repr

/-- Which of two equally near candidates is taken. -/
inductive Tie where
  /-- The larger one. -/
  | larger
  /-- The one with an even last digit. -/
  | even
deriving DecidableEq, Repr

/-- The sign bit, which is also set for `-0.0`. -/
def isNegative (x : Float) : Bool :=
  x.toBits >>> 63 = 1

/-- Reads the magnitude of a finite double off its bits. -/
def Binary.ofFloat (x : Float) : Binary :=
  let fraction := (x.toBits &&& 0xFFFFFFFFFFFFF).toNat
  let biased := (x.toBits >>> 52 &&& 0x7FF).toNat
  if biased = 0 then
    ⟨fraction, -1074, false⟩
  else
    ⟨fraction + 0x10000000000000, Int.ofNat biased - 1075, fraction = 0 ∧ 1 < biased⟩

/-- The rounding interval in quarters of the last binary place: its ends, whether they belong to
it, and the value itself. -/
structure Interval where
  low : Nat
  value : Nat
  high : Nat
  closed : Bool
deriving DecidableEq, Repr

/-- The reals that round to `b`, in quarters of `2 ^ b.exponent`.  A tie between two doubles goes
to the one with an even significand. -/
def Binary.interval (b : Binary) : Interval where
  low := 4 * b.significand - (if b.narrowBelow then 1 else 2)
  value := 4 * b.significand
  high := 4 * b.significand + 2
  closed := b.significand % 2 = 0

/-- Membership of `point / unit` quarters. -/
def Interval.contains (i : Interval) (unit point : Nat) : Bool :=
  if i.closed then
    decide (i.low * unit ≤ point ∧ point ≤ i.high * unit)
  else
    decide (i.low * unit < point ∧ point < i.high * unit)

/-- The nearest multiple of `10 ^ power` that rounds to `b`, if one of the two multiples around
the value does. -/
def Binary.onGrid? (b : Binary) (tie : Tie) (power : Int) : Option Nat :=
  let quarter := b.exponent - 2
  -- a quarter is `unit / grid` steps of the decimal grid
  let unit := Nat.pow 10 (-power).toNat <<< quarter.toNat
  let grid := Nat.pow 10 power.toNat <<< (-quarter).toNat
  let i := b.interval
  let below := i.value * unit / grid
  let remainder := i.value * unit % grid
  let fits (d : Nat) : Bool := i.contains unit (d * grid)
  match fits below, fits (below + 1) with
  | false, false => none
  | true, false => some below
  | false, true => some (below + 1)
  | true, true =>
      if 2 * remainder < grid then some below
      else if grid < 2 * remainder then some (below + 1)
      else
        match tie with
        | .larger => some (below + 1)
        | .even => some (if below % 2 = 0 then below else below + 1)

/-- The coarsest decimal grid that can hold a point of the interval: above it every multiple
exceeds the value. -/
def Binary.coarsest (b : Binary) : Int :=
  (b.exponent + (Nat.log2 b.significand : Int) + 2) * 30103 / 100000 + 1

/-- The fewest digits that read back as `b`, and of those the nearest.  Twenty grids suffice,
since seventeen digits tell any two doubles apart. -/
def Binary.shortest? (b : Binary) (tie : Tie) : Option Digits :=
  if b.significand = 0 then
    none
  else
    (List.range 20).findSome? fun i =>
      let power := b.coarsest - Int.ofNat i
      (b.onGrid? tie power).map fun d => ⟨d, power⟩

def Digits.characters (d : Digits) : List Char :=
  Nat.toDigits 10 d.coefficient

/-- Where the decimal point stands, counted from the left of the first digit. -/
def Digits.point (d : Digits) : Int :=
  d.characters.length + d.exponent

end FormulaLang.Decimal
