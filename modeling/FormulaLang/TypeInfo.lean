import FormulaLang.Text.Quoted

/-!
The types of values: seven of the language's own, and those that a host application adds by name.
-/

namespace FormulaLang

/-- The type of a value, or what is known of it before a formula runs. -/
inductive TypeInfo where
  /-- Nothing is known; every value fits. -/
  | any
  | number
  | bool
  | string
  | sequence
  | map
  /-- A type of the host application. -/
  | host (name : String)
deriving DecidableEq, Repr

namespace TypeInfo

def builtins : List TypeInfo :=
  [any, number, bool, string, sequence, map]

def name : TypeInfo → String
  | any => "Any"
  | number => "Number"
  | bool => "Bool"
  | string => "String"
  | sequence => "Sequence"
  | map => "Map"
  | host name => name

/-- A type told apart from every other, even from one of the same name. -/
def detail : TypeInfo → String
  | host name => "Host(" ++ Text.quoted name ++ ")"
  | ty => ty.name

def ofName? (text : String) : Option TypeInfo :=
  builtins.find? fun ty => ty.name == text

/-- Whether a value of type `other` can stand where `self` is asked for, as it is. -/
def accepts (self other : TypeInfo) : Bool :=
  self == any || self == other

/-- Whether nothing is known. -/
def isAny (ty : TypeInfo) : Bool :=
  ty == any

/-- Whether the type belongs to the host application. -/
def isHost : TypeInfo → Bool
  | host _ => true
  | _ => false

end TypeInfo

end FormulaLang
