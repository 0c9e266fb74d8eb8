import FormulaLang.Token

/-!
Terms: the tree of a formula as plain data, without places or links back.  A term is written as
text in which parentheses stand only where the reading of it would differ without them, or as an
indented outline.
-/

namespace FormulaLang

/-- A tree of tokens; `absent` stands for an operand that is not there. -/
inductive Term where
  | absent
  | node (token : Token) (left right : Term)
deriving DecidableEq, Repr

namespace Term

def leaf (token : Token) : Term :=
  node token absent absent

def size : Term → Nat
  | absent => 0
  | node _ left right => left.size + right.size + 1

def token? : Term → Option Token
  | absent => none
  | node token _ _ => some token

def operation? (t : Term) : Option Operation :=
  t.token?.bind Token.operation?

/-- Whether an operand of `parent` is written in parentheses.  A negative number and a negation
stand bare unless something binds tighter; a variable after `:` would be read as a literal key;
any other operator is enclosed when it binds less tightly, and on the right also when it binds
equally. -/
def isGrouped (parent : Operation) (onRight : Bool) : Term → Bool
  | node (.number x) _ _ =>
      Decimal.isNegative x && decide (Operation.negate.precedence < parent.precedence)
  | node (.var _) _ _ => onRight && parent == .index
  | node (.operator .transform) _ _ => false
  | node (.operator .negate) _ _ => decide (Operation.negate.precedence < parent.precedence)
  | node (.operator op) _ _ =>
      decide (op.precedence < parent.precedence) ||
        (onRight && op.precedence == parent.precedence)
  | _ => false

/-- Writes parentheses on demand. -/
def enclose (grouped : Bool) (text : String) : String :=
  if grouped then "(" ++ text ++ ")" else text

/-- A term as the text of a formula.  Arithmetic is spaced, all else is tight, and the function
`abs` is written as bars. -/
def text : Term → String
  | absent => ""
  | node (.number x) _ _ => Decimal.text x
  | node (.var name) _ _ => name
  | node (.name text) _ _ => text
  | node (.group raw) _ _ => "(" ++ raw ++ ")"
  | node (.magnitude raw) _ _ => "|" ++ raw ++ "|"
  | node (.operator .transform) function argument =>
      if function.text = "abs" then "|" ++ argument.text ++ "|"
      else function.text ++ "(" ++ argument.text ++ ")"
  | node (.operator .negate) _ right =>
      "-" ++ enclose (isGrouped .negate true right) right.text
  | node (.operator op) left right =>
      let symbol := if op.isArithmetic then " " ++ op.symbol ++ " " else op.symbol
      enclose (isGrouped op false left) left.text ++ symbol
        ++ enclose (isGrouped op true right) right.text

/-- The lines of an outline below `depth`, the root marked by `label`. -/
def outlineAt (depth : Nat) (label : String) : Term → String
  | absent => ""
  | node token left right =>
      String.ofList (List.replicate (2 * depth) ' ') ++ label ++ token.describe ++ "\n"
        ++ outlineAt (depth + 1) "L: " left ++ outlineAt (depth + 1) "R: " right

/-- A term as an indented outline, one node a line. -/
def outline (t : Term) : String :=
  t.outlineAt 0 ""

end Term

end FormulaLang
