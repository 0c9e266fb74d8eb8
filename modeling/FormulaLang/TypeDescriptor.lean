import FormulaLang.Value.Basic

/-!
What a type can do: the members of its values, the operators it overloads, how it is negated, and
the implicit conversions it takes part in.
-/

namespace FormulaLang

/-- A function on a value: a getter, a conversion, a negation or a transform. -/
abbrev Unary (H : Type) := Value H → Except Failure (Value H)

/-- A function on two values: the body of an operator. -/
abbrev Binary (H : Type) := Value H → Value H → Except Failure (Value H)

/-- A member that can be read off a value. -/
structure Member (H : Type) where
  name : String
  /-- The type that its values are known to have. -/
  type : TypeInfo
  get : Unary H

def Member.describe {H : Type} (m : Member H) : String :=
  m.name ++ ": " ++ m.type.name

/-- An operator for operands of two types. -/
structure Overload (H : Type) where
  op : Operation
  left : TypeInfo
  right : TypeInfo
  result : TypeInfo
  apply : Binary H

def Overload.describe {H : Type} (o : Overload H) : String :=
  o.op.name ++ "(" ++ o.left.name ++ ", " ++ o.right.name ++ ") -> " ++ o.result.name

structure Conversion (H : Type) where
  source : TypeInfo
  target : TypeInfo
  apply : Unary H

/-- What is declared of a type. -/
structure TypeDescriptor (H : Type) where
  type : TypeInfo
  members : List (Member H)
  operators : List (Overload H)
  negation? : Option (Unary H)
  conversions : List (Conversion H)

namespace TypeDescriptor

variable {H : Type}

/-- A type of which nothing is declared. -/
def bare (type : TypeInfo) : TypeDescriptor H :=
  ⟨type, [], [], none, []⟩

def withMember (d : TypeDescriptor H) (name : String) (type : TypeInfo) (get : Unary H) :
    TypeDescriptor H :=
  { d with members := d.members ++ [⟨name, type, get⟩] }

def withOperator (d : TypeDescriptor H) (op : Operation) (left right result : TypeInfo)
    (apply : Binary H) : TypeDescriptor H :=
  { d with operators := d.operators ++ [⟨op, left, right, result, apply⟩] }

/-- Declares how values of the type are negated. -/
def withNegation (d : TypeDescriptor H) (apply : Unary H) : TypeDescriptor H :=
  { d with negation? := some apply }

def withConversion (d : TypeDescriptor H) (source target : TypeInfo) (apply : Unary H) :
    TypeDescriptor H :=
  { d with conversions := d.conversions ++ [⟨source, target, apply⟩] }

/-- The name of the type with its namespace, such as `geo.Vector`. -/
def fullName (d : TypeDescriptor H) : String :=
  d.type.name

/-- The name of the type without its namespace: what follows the last point. -/
def shortName (d : TypeDescriptor H) : String :=
  String.ofList ((d.fullName.toList.reverse.takeWhile (· ≠ '.')).reverse)

def operatorsFor (d : TypeDescriptor H) (op : Operation) : List (Overload H) :=
  d.operators.filter fun o => o.op = op

def summary (d : TypeDescriptor H) : String :=
  "TypeDescriptor \x7b type: " ++ Text.quoted d.fullName
    ++ ", members: [" ++ ", ".intercalate (d.members.map fun m => Text.quoted m.name)
    ++ "], operators: " ++ toString d.operators.length
    ++ ", conversions: " ++ toString d.conversions.length ++ " \x7d"

end TypeDescriptor

end FormulaLang
