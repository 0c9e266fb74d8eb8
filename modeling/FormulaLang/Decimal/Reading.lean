/-!
Reading a double from decimal text.

A numeral is an optional sign, digits with at most one decimal point among or around them, and an
optional power of ten; the words `inf`, `infinity` and `nan` are read too.  The value is the
double nearest to the decimal.
-/

namespace FormulaLang.Decimal

/-- Digits, as a natural number. -/
def digitsValue (cs : List Char) : Nat :=
  cs.foldl (fun n c => 10 * n + (c.toNat - '0'.toNat)) 0

/-- The double nearest to `coefficient * 10 ^ exponent`.  Powers beyond the range of doubles are
answered without forming them. -/
def nearest (coefficient : Nat) (exponent : Int) : Float :=
  if coefficient = 0 then
    0
  else if 310 < exponent then
    1 / 0
  else if exponent + (Nat.toDigits 10 coefficient).length < -330 then
    0
  else if 0 ≤ exponent then
    Float.ofScientific coefficient false exponent.toNat
  else
    Float.ofScientific coefficient true (-exponent).toNat

/-- Splits `whole.fraction`, where either side may be empty but not both, and returns what
follows. -/
def splitNumeral? (cs : List Char) : Option (List Char × List Char × List Char) :=
  let whole := cs.takeWhile Char.isDigit
  let rest := cs.dropWhile Char.isDigit
  let (fraction, rest) :=
    match rest with
    | '.' :: tail => (tail.takeWhile Char.isDigit, tail.dropWhile Char.isDigit)
    | _ => ([], rest)
  if whole.isEmpty && fraction.isEmpty then none else some (whole, fraction, rest)

def readInt? : List Char → Option Int
  | '-' :: cs => (readNat? cs).map fun n => -(n : Int)
  | '+' :: cs => (readNat? cs).map Int.ofNat
  | cs => (readNat? cs).map Int.ofNat
where
  /-- Reads a nonempty run of digits. -/
  readNat? (cs : List Char) : Option Nat :=
    if cs.isEmpty || !cs.all Char.isDigit then none else some (digitsValue cs)

/-- Reads a numeral without a sign. -/
def readUnsigned? (cs : List Char) : Option Float := do
  let (whole, fraction, rest) ← splitNumeral? cs
  let power ←
    match rest with
    | [] => some 0
    | 'e' :: power => readInt? power
    | 'E' :: power => readInt? power
    | _ => none
  return nearest (digitsValue (whole ++ fraction)) (power - fraction.length)

/-- Reads a magnitude: a numeral or a word. -/
def readMagnitude? (cs : List Char) : Option Float :=
  match String.ofList (cs.map Char.toLower) with
  | "inf" | "infinity" => some (1 / 0)
  | "nan" => some (0 / 0)
  | _ => readUnsigned? cs

def read? (text : String) : Option Float :=
  match text.toList with
  | '-' :: cs => (readMagnitude? cs).map fun x => -x
  | '+' :: cs => readMagnitude? cs
  | cs => readMagnitude? cs

end FormulaLang.Decimal
