import FormulaLang.Decimal.Remainder

/-!
The operators of a formula: how tightly they bind, how they are written, and what they do to
numbers.
-/

namespace FormulaLang

/-- An operator.  `transform` is the application of a named function, which has no symbol. -/
inductive Operation where
  | add
  | subtract
  | multiply
  | divide
  | modulo
  | negate
  | power
  | property
  | index
  | transform
deriving DecidableEq, Repr

namespace Operation

def all : List Operation :=
  [add, subtract, multiply, divide, modulo, negate, power, property, index, transform]

/-- Binding strength: a higher one binds tighter. -/
def precedence : Operation → Nat
  | add | subtract => 0
  | multiply | divide | modulo => 1
  | negate => 2
  | power => 3
  | property | index | transform => 4

/-- The operator written as a character.  A `-` stands for subtraction until its place shows that
it negates. -/
def ofChar? : Char → Option Operation
  | '+' => some add
  | '-' => some subtract
  | '*' => some multiply
  | '/' => some divide
  | '%' => some modulo
  | '^' => some power
  | '.' => some property
  | ':' => some index
  | _ => none

def symbol : Operation → String
  | add => "+"
  | subtract | negate => "-"
  | multiply => "*"
  | divide => "/"
  | modulo => "%"
  | power => "^"
  | property => "."
  | index => ":"
  | transform => ""

def name : Operation → String
  | add => "Add"
  | subtract => "Subtract"
  | multiply => "Multiply"
  | divide => "Divide"
  | modulo => "Modulo"
  | negate => "Negate"
  | power => "Power"
  | property => "Property"
  | index => "Index"
  | transform => "Transform"

def ofName? (text : String) : Option Operation :=
  all.find? fun op => op.name == text

/-- Binary arithmetic other than powers. -/
def isArithmetic : Operation → Bool
  | add | subtract | multiply | divide | modulo => true
  | _ => false

/-- Operators whose operands are values, so that a letter below them is a variable. -/
def takesVariables (op : Operation) : Bool :=
  op.isArithmetic || op == negate || op == power

/-- Operators whose right operand is a key or the name of a member. -/
def isAccess : Operation → Bool
  | property | index => true
  | _ => false

/-- The operator on numbers; negation looks at the right one only, and access and application
have no numeric meaning. -/
def onNumbers? (op : Operation) (left right : Float) : Option Float :=
  match op with
  | add => some (left + right)
  | subtract => some (left - right)
  | multiply => some (left * right)
  | divide => some (left / right)
  | modulo => some (Decimal.remainder left right)
  | power => some (left.pow right)
  | negate => some (-right)
  | property | index | transform => none

theorem ofName?_name (op : Operation) : ofName? op.name = some op := by
  cases op <;> rfl

theorem onNumbers?_isSome {op : Operation} (h : op.isArithmetic = true ∨ op = .power)
    (a b : Float) : ∃ z, op.onNumbers? a b = some z := by
  cases op with
  | negate | property | index | transform => simp [isArithmetic] at h
  | _ => exact ⟨_, rfl⟩

end Operation

end FormulaLang
