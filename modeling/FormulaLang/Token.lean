import FormulaLang.Decimal.Layout
import FormulaLang.Operation

/-!
The pieces of a formula.  They come out of the text one after the other, and each becomes a node
of the formula's tree.
-/

namespace FormulaLang

/-- A piece of a formula. -/
inductive Token where
  /-- A numeric literal. -/
  | number (value : Float)
  /-- A letter, optionally with `_` and a subscript. -/
  | var (name : String)
  /-- The name of a function or a member, or a literal key. -/
  | name (text : String)
  | operator (op : Operation)
  /-- The raw text between parentheses. -/
  | group (raw : String)
  /-- The raw text between bars. -/
  | magnitude (raw : String)
deriving DecidableEq, Repr

namespace Token

def operation? : Token → Option Operation
  | operator op => some op
  | _ => none

/-- The identifier of a variable or name. -/
def text? : Token → Option String
  | var text | name text => some text
  | _ => none

def isText (t : Token) : Bool :=
  t.text?.isSome

/-- Parentheses and bars whose contents are still raw text. -/
def isUnexpanded : Token → Bool
  | group _ | magnitude _ => true
  | _ => false

def describe : Token → String
  | number x => "Number(" ++ Decimal.text x ++ ")"
  | var v => "Variable(" ++ v ++ ")"
  | name n => "Name(" ++ n ++ ")"
  | operator op => op.name
  | group raw => "Group(" ++ raw ++ ")"
  | magnitude raw => "Magnitude(" ++ raw ++ ")"

end Token

end FormulaLang
