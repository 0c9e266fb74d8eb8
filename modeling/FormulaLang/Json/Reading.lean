import FormulaLang.Json.Basic

/-!
Reading JSON text.
-/

namespace FormulaLang.Json

def isBlank (c : Char) : Bool :=
  c == ' ' || c == '\n' || c == '\t' || c == '\r'

def skipBlanks (cs : List Char) : List Char :=
  cs.dropWhile isBlank

def hexValue? (c : Char) : Option Nat :=
  if c.isDigit then some (c.toNat - '0'.toNat)
  else if 'a' ≤ c ∧ c ≤ 'f' then some (c.toNat - 'a'.toNat + 10)
  else if 'A' ≤ c ∧ c ≤ 'F' then some (c.toNat - 'A'.toNat + 10)
  else none

/-- A piece of a text: a character, or an escaped unit of sixteen bits. -/
inductive Piece where
  | char (c : Char)
  | unit (n : Nat)
deriving DecidableEq, Repr

/-- The character of a short escape. -/
def shortEscape? : Char → Option Char
  | '"' => some '"'
  | '\\' => some '\\'
  | '/' => some '/'
  | 'b' => some (Char.ofNat 8)
  | 'f' => some (Char.ofNat 12)
  | 'n' => some '\n'
  | 'r' => some '\r'
  | 't' => some '\t'
  | _ => none

/-- Reads the pieces of a text up to its closing quote. -/
def pieces? : List Char → Option (List Piece × List Char)
  | [] => none
  | '"' :: rest => some ([], rest)
  | '\\' :: 'u' :: a :: b :: c :: d :: rest => do
      let n := 4096 * (← hexValue? a) + 256 * (← hexValue? b) + 16 * (← hexValue? c)
        + (← hexValue? d)
      let (pieces, rest) ← pieces? rest
      return (.unit n :: pieces, rest)
  | '\\' :: e :: rest => do
      let c ← shortEscape? e
      let (pieces, rest) ← pieces? rest
      return (.char c :: pieces, rest)
  | c :: rest =>
      if c.toNat < 32 || c == '\\' then
        none
      else
        (pieces? rest).map fun (pieces, rest) => (.char c :: pieces, rest)

/-- Joins pieces to characters; a high surrogate must be followed by a low one, and a low one must
follow a high one. -/
def join? : List Piece → Option (List Char)
  | [] => some []
  | .char c :: rest => (join? rest).map (c :: ·)
  | .unit high :: .unit low :: rest =>
      if 0xD800 ≤ high ∧ high < 0xDC00 ∧ 0xDC00 ≤ low ∧ low < 0xE000 then
        (join? rest).map
          (Char.ofNat (0x10000 + 1024 * (high - 0xD800) + (low - 0xDC00)) :: ·)
      else if 0xD800 ≤ high ∧ high < 0xE000 then
        none
      else
        (join? (.unit low :: rest)).map (Char.ofNat high :: ·)
  | .unit n :: rest =>
      if 0xD800 ≤ n ∧ n < 0xE000 then none else (join? rest).map (Char.ofNat n :: ·)

/-- Reads a text after its opening quote. -/
def text? (cs : List Char) : Option (Option String × List Char) :=
  (pieces? cs).map fun (pieces, rest) => ((join? pieces).map String.ofList, rest)

mutual

/-- Reads a document in at most `count` calls. -/
def value? : Nat → List Char → Option (Json × List Char)
  | 0, _ => none
  | count + 1, cs =>
      match skipBlanks cs with
      | 'n' :: 'u' :: 'l' :: 'l' :: rest => some (null, rest)
      | 't' :: 'r' :: 'u' :: 'e' :: rest => some (bool true, rest)
      | 'f' :: 'a' :: 'l' :: 's' :: 'e' :: rest => some (bool false, rest)
      | '"' :: rest => (text? rest).map fun (text, rest) => (string text, rest)
      | '[' :: rest =>
          match skipBlanks rest with
          | ']' :: rest => some (array [], rest)
          | rest => (items? count rest).map fun (items, rest) => (array items, rest)
      | '\x7b' :: rest =>
          match skipBlanks rest with
          | '\x7d' :: rest => some (object [], rest)
          | rest => (entries? count rest).map fun (entries, rest) => (object entries, rest)
      | cs => do
          let (_, rest) ← Numeral.split? cs
          return (number (String.ofList (cs.take (cs.length - rest.length))), rest)

/-- Reads the items of an array up to its end. -/
def items? : Nat → List Char → Option (List Json × List Char)
  | 0, _ => none
  | count + 1, cs => do
      let (item, cs) ← value? count cs
      match skipBlanks cs with
      | ',' :: rest =>
          let (items, rest) ← items? count rest
          return (item :: items, rest)
      | ']' :: rest => return ([item], rest)
      | _ => none

/-- Reads the entries of an object up to its end. -/
def entries? : Nat → List Char → Option (List (Option String × Json) × List Char)
  | 0, _ => none
  | count + 1, cs =>
      match skipBlanks cs with
      | '"' :: rest => do
          let (key, rest) ← text? rest
          match skipBlanks rest with
          | ':' :: rest =>
              let (value, rest) ← value? count rest
              match skipBlanks rest with
              | ',' :: rest =>
                  let (entries, rest) ← entries? count rest
                  return ((key, value) :: entries, rest)
              | '\x7d' :: rest => return ([(key, value)], rest)
              | _ => none
          | _ => none
      | _ => none

end

/-- Reads a document that is a whole text.  Two calls are made for a character at most. -/
def parse? (text : String) : Option Json := do
  let (j, rest) ← value? (2 * text.length + 2) text.toList
  if (skipBlanks rest).isEmpty then some j else none

end FormulaLang.Json
