import FormulaLang.Decimal.Digits

/-!
How a double is written: the digits come from `Binary.shortest?`, and a `Layout` decides
everything that is a matter of format.
-/

namespace FormulaLang.Decimal

/-- The choices of a decimal format. -/
structure Layout where
  /-- Which of two equally near digit strings is taken. -/
  tie : Tie
  /-- The positions of the decimal point for which the number is written without an exponent;
  `none` stands for all of them. -/
  positional : Option (Int × Int)
  /-- Whole numbers keep a trailing `.0`. -/
  wholeFraction : Bool
deriving DecidableEq, Repr

/-- Formulas and messages write numbers positionally, without a trailing `.0`. -/
def Layout.plain : Layout :=
  ⟨.larger, none, false⟩

/-- JSON text writes `1.0`, and uses an exponent from `1e+16` up and below `0.00001`. -/
def Layout.json : Layout :=
  ⟨.even, some (-4, 16), true⟩

/-- Writes digits without an exponent. -/
def Digits.positionalText (d : Digits) (wholeFraction : Bool) : String :=
  let cs := d.characters
  if 0 ≤ d.exponent then
    let whole := String.ofList (cs ++ List.replicate d.exponent.toNat '0')
    if wholeFraction then whole ++ ".0" else whole
  else if 0 < d.point then
    let n := d.point.toNat
    String.ofList (cs.take n) ++ "." ++ String.ofList (cs.drop n)
  else
    "0." ++ String.ofList (List.replicate (-d.point).toNat '0' ++ cs)

/-- Writes digits with one place before the point and a signed exponent. -/
def Digits.exponentText (d : Digits) : String :=
  let power := (if 0 < d.point then "+" else "") ++ toString (d.point - 1)
  match d.characters with
  | [] => "0"
  | [c] => String.singleton c ++ "e" ++ power
  | c :: cs => String.singleton c ++ "." ++ String.ofList cs ++ "e" ++ power

/-- Writes digits as the layout says. -/
def Layout.digitsText (l : Layout) (d : Digits) : String :=
  match l.positional with
  | none => d.positionalText l.wholeFraction
  | some (first, last) =>
      if first ≤ d.point ∧ d.point ≤ last then d.positionalText l.wholeFraction
      else d.exponentText

/-- Writes a double.  A zero keeps its sign; every NaN has one spelling. -/
def Layout.text (l : Layout) (x : Float) : String :=
  if x.isNaN then
    "NaN"
  else
    let magnitude :=
      if x.isInf then "inf"
      else
        match (Binary.ofFloat x).shortest? l.tie with
        | some d => l.digitsText d
        | none => if l.wholeFraction then "0.0" else "0"
    if isNegative x then "-" ++ magnitude else magnitude

def text (x : Float) : String :=
  Layout.plain.text x

end FormulaLang.Decimal
