import FormulaLang.Decimal.Reading
import FormulaLang.Failure
import FormulaLang.Text.Blank
import FormulaLang.Text.Letter

/-!
A cursor over the text of a formula or of its specification.  Each reading function returns what
it read together with the cursor after it; a failing one still says how far it came.
-/

namespace FormulaLang

/-- A place in a text: the bytes before it in UTF-8, and the characters after it. -/
structure Cursor where
  offset : Nat
  rest : List Char
deriving DecidableEq, Repr

namespace Cursor

/-- The length of characters in UTF-8. -/
def byteLength (cs : List Char) : Nat :=
  cs.foldr (fun c n => c.utf8Size + n) 0

def ofText (text : String) : Cursor :=
  ⟨0, text.toList⟩

/-- The cursor after `taken`, with `rest` ahead. -/
def past (c : Cursor) (taken rest : List Char) : Cursor :=
  ⟨c.offset + byteLength taken, rest⟩

def remaining (c : Cursor) : String :=
  String.ofList c.rest

def isFinished (c : Cursor) : Bool :=
  c.rest.isEmpty

def peek? (c : Cursor) : Option Char :=
  c.rest.head?

def step (c : Cursor) : Cursor :=
  c.past (c.rest.take 1) (c.rest.drop 1)

/-- Reads the longest run of characters with a property. -/
def span (p : Char → Bool) (c : Cursor) : List Char × Cursor :=
  let taken := c.rest.takeWhile p
  (taken, c.past taken (c.rest.dropWhile p))

def skipBlanks (c : Cursor) : Cursor :=
  (c.span Text.isBlank).2

/-- Reads a run of characters with a property, and leaves out the blanks among them. -/
def spanLoose (p : Char → Bool) (c : Cursor) : String × Cursor :=
  let (taken, after) := c.span fun ch => p ch || Text.isBlank ch
  (String.ofList (taken.filter p), after)

/-- The characters that end the search for what a letter starts. -/
def operatorCharacters : List Char :=
  ['+', '-', '*', '/', '%', '^', ':', '.', '(', ')', '|']

/-- The first operator, parenthesis or bar ahead, however far. -/
def nextOperator? (c : Cursor) : Option Char :=
  c.rest.find? fun ch => operatorCharacters.contains ch

/-- The characters of names: letters, numerals and `_`. -/
def isWord (ch : Char) : Bool :=
  Text.isAlphanumeric ch || ch == '_'

/-- Reads a name, blanks inside it left out. -/
def name (c : Cursor) : String × Cursor :=
  c.spanLoose isWord

/-- Reads a variable: one letter, and after a `_` that follows it at once, a subscript. -/
def variableName (c : Cursor) : Except Failure String × Cursor :=
  match c.rest with
  | [] => (.error (.reading (.expectedVariable none)), c)
  | letter :: _ =>
      if Text.isAlphabetic letter then
        let after := c.step
        if after.peek? = some '_' then
          let (subscript, after) := after.step.name
          (.ok (String.ofList [letter, '_'] ++ subscript), after)
        else
          (.ok (String.singleton letter), after)
      else
        (.error (.reading (.expectedVariable (some letter))), c)

/-- Reads digits and points, blanks between them left out. -/
def numericText (c : Cursor) : String × Cursor :=
  c.spanLoose fun ch => ch.isDigit || ch == '.'

/-- Reads a numeric literal. -/
def number (c : Cursor) : Except Failure Float × Cursor :=
  let (text, after) := c.numericText
  match Decimal.readUnsigned? text.toList with
  | some x => (.ok x, after)
  | none => (.error (.reading (.malformedNumber text)), after)

/-- Whether a character continues the name of a type inside `depth` angle brackets, and the depth
after it.  A comma belongs to a name only between brackets. -/
def typeNameStep? (depth : Nat) (ch : Char) : Option Nat :=
  if ch = '<' then some (depth + 1)
  else if ch = '>' && depth > 0 then some (depth - 1)
  else if ch = ',' && depth > 0 then some depth
  else if Text.isBlank ch || isWord ch || ch == '.' then some depth
  else none

/-- Splits off the name of a type. -/
def typeNameSpan : Nat → List Char → List Char × List Char
  | _, [] => ([], [])
  | depth, ch :: rest =>
      match typeNameStep? depth ch with
      | some depth =>
          let (taken, rest) := typeNameSpan depth rest
          (ch :: taken, rest)
      | none => ([], ch :: rest)

/-- Reads the name of a type with its bracketed arguments, blanks left out. -/
def typeName (c : Cursor) : String × Cursor :=
  let (taken, rest) := typeNameSpan 0 c.rest
  (String.ofList (taken.filter fun ch => !Text.isBlank ch), c.past taken rest)

/-- Splits at the `)` that closes a group inside which `depth` more groups are open. -/
def splitGroup? : Nat → List Char → Option (List Char × List Char)
  | _, [] => none
  | depth, ch :: rest =>
      let beyond := fun depth =>
        (splitGroup? depth rest).map fun (raw, rest) => (ch :: raw, rest)
      if ch = '(' then
        beyond (depth + 1)
      else if ch = ')' then
        match depth with
        | 0 => some ([], rest)
        | depth + 1 => beyond depth
      else
        beyond depth

/-- Splits at the next `|` that stands outside parentheses.  A `)` too many is passed over. -/
def splitMagnitude? : Nat → List Char → Option (List Char × List Char)
  | _, [] => none
  | depth, ch :: rest =>
      let beyond := fun depth =>
        (splitMagnitude? depth rest).map fun (raw, rest) => (ch :: raw, rest)
      if ch = '(' then
        beyond (depth + 1)
      else if ch = ')' then
        beyond (depth - 1)
      else if ch = '|' && depth = 0 then
        some ([], rest)
      else
        beyond depth

/-- The cursor after raw text and the character that closes it, or at the end of the text. -/
def closed (c : Cursor) (cause : Cause) :
    Option (List Char × List Char) → Except Failure String × Cursor
  | some (raw, rest) => (.ok (String.ofList raw), c.past (c.rest.take (raw.length + 1)) rest)
  | none => (.error (.reading cause), c.past c.rest [])

/-- Reads the inside of a group whose `(` has been read. -/
def group (c : Cursor) : Except Failure String × Cursor :=
  c.closed .unterminatedGroup (splitGroup? 0 c.rest)

/-- Reads the inside of a magnitude whose first `|` has been read. -/
def magnitude (c : Cursor) : Except Failure String × Cursor :=
  c.closed .unterminatedMagnitude (splitMagnitude? 0 c.rest)

/-- Reads the next token, or nothing at the end of the text.  A letter starts a name if the next
operator ahead opens a group or a magnitude, and a variable otherwise. -/
def token (c : Cursor) : Except Failure (Option Token) × Cursor :=
  let c := c.skipBlanks
  match c.rest with
  | [] => (.ok none, c)
  | ch :: _ =>
      match Operation.ofChar? ch with
      | some op => (.ok (some (.operator op)), c.step)
      | none =>
          if ch = '(' then
            let (raw, after) := c.step.group
            (raw.map fun raw => some (.group raw), after)
          else if ch = '|' then
            let (raw, after) := c.step.magnitude
            (raw.map fun raw => some (.magnitude raw), after)
          else if Text.isAlphabetic ch then
            match c.nextOperator? with
            | some '(' | some '|' =>
                let (text, after) := c.name
                (.ok (some (.name text)), after)
            | _ =>
                let (text, after) := c.variableName
                (text.map fun text => some (.var text), after)
          else if ch.isDigit then
            let (x, after) := c.number
            (x.map fun x => some (.number x), after)
          else
            (.error (.reading (.unexpectedSymbol ch c.offset)), c)

end Cursor

end FormulaLang
