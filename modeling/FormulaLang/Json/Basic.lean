import FormulaLang.Decimal.Layout
import FormulaLang.Decimal.Reading

/-!
JSON documents.  Numbers are kept as they are written and objects with all their entries in order,
so that a reader of a document decides what it makes of them.
-/

namespace FormulaLang

/-- A JSON document.  A text or a key is `none` if it was written with half of a surrogate pair,
which stands for no character. -/
inductive Json where
  | null
  | bool (b : Bool)
  | number (lexeme : String)
  | string (text? : Option String)
  | array (items : List Json)
  | object (entries : List (Option String × Json))
deriving Repr

namespace Json

instance : Inhabited Json := ⟨null⟩

def ofString (text : String) : Json :=
  string (some text)

def ofNat (n : Nat) : Json :=
  number (toString n)

/-- A document that is a double; only finite ones can be written. -/
def ofFloat (x : Float) : Json :=
  if x.isFinite then number (Decimal.Layout.json.text x) else null

/-- An object with given keys. -/
def ofEntries (entries : List (String × Json)) : Json :=
  object (entries.map fun (key, value) => (some key, value))

/-! ## Numbers -/

/-- The parts of a number: its digits before and after the point and its power of ten. -/
structure Numeral where
  negative : Bool
  whole : List Char
  fraction : List Char
  exponent? : Option Int
deriving DecidableEq, Repr

/-- Splits off a number. -/
def Numeral.split? (cs : List Char) : Option (Numeral × List Char) := do
  let (negative, cs) :=
    match cs with
    | '-' :: rest => (true, rest)
    | _ => (false, cs)
  let (whole, cs) :=
    match cs with
    | '0' :: rest => (['0'], rest)
    | _ => (cs.takeWhile Char.isDigit, cs.dropWhile Char.isDigit)
  if whole.isEmpty then none
  let (fraction, cs) ←
    match cs with
    | '.' :: rest =>
        let digits := rest.takeWhile Char.isDigit
        if digits.isEmpty then none else some (digits, rest.dropWhile Char.isDigit)
    | _ => some ([], cs)
  match cs with
  | 'e' :: rest | 'E' :: rest =>
      let (sign, rest) :=
        match rest with
        | '-' :: rest => ((-1 : Int), rest)
        | '+' :: rest => (1, rest)
        | _ => (1, rest)
      let digits := rest.takeWhile Char.isDigit
      if digits.isEmpty then none
      return (⟨negative, whole, fraction, some (sign * Decimal.digitsValue digits)⟩,
        rest.dropWhile Char.isDigit)
  | _ => return (⟨negative, whole, fraction, none⟩, cs)

/-- The double nearest to a number, if the number is in range. -/
def Numeral.toFloat? (n : Numeral) : Option Float :=
  let x := Decimal.nearest (Decimal.digitsValue (n.whole ++ n.fraction))
    (n.exponent?.getD 0 - n.fraction.length)
  if x.isFinite then some (if n.negative then -x else x) else none

/-! ## Reading documents -/

def toFloat? : Json → Option Float
  | number lexeme => (Numeral.split? lexeme.toList).bind fun (n, _) => n.toFloat?
  | _ => none

/-- The whole number of a number below `2 ^ 64`, written without sign, point and exponent. -/
def toNat? : Json → Option Nat
  | number lexeme =>
      if lexeme.toList.all Char.isDigit then
        let n := Decimal.digitsValue lexeme.toList
        if n < UInt64.size then some n else none
      else
        none
  | _ => none

def toBool? : Json → Option Bool
  | bool b => some b
  | _ => none

def toString? : Json → Option String
  | string text? => text?
  | _ => none

def toItems? : Json → Option (List Json)
  | array items => some items
  | _ => none

/-- The entries of an object, whose keys must be texts. -/
def toEntries? : Json → Option (List (String × Json))
  | object entries => entries.mapM fun (key?, value) => key?.map fun key => (key, value)
  | _ => none

/-- The first entry of an object under a key. -/
def get? (key : String) : Json → Option Json
  | object entries => (entries.find? fun entry => entry.1 == some key).map Prod.snd
  | _ => none

/-- The values of a record: an object that has each field once, whatever else it has, or an array
of the fields in order. -/
def toRecord? (fields : List String) (j : Json) : Option (List Json) :=
  match j with
  | array items => if items.length = fields.length then some items else none
  | object _ => do
      let entries ← j.toEntries?
      fields.mapM fun field =>
        match entries.filter fun entry => entry.1 == field with
        | [(_, value)] => some value
        | _ => none
  | _ => none

end Json

end FormulaLang
