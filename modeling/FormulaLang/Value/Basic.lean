import FormulaLang.Failure
import FormulaLang.Keyed

/-!
The values of formulas: numbers, booleans, texts, sequences, maps, and objects of the host
application, which formulas see only through the `HostObject` interface.
-/

namespace FormulaLang

/-- A value over host objects of type `H`.  The keys of a map are distinct and ordered. -/
inductive Value (H : Type) where
  | number (x : Float)
  | bool (b : Bool)
  | string (text : String)
  | sequence (items : List (Value H))
  | map (entries : List (String × Value H))
  | host (object : H)

/-- What formulas may ask of a host object. -/
class HostObject (H : Type) where
  /-- The name of its type. -/
  typeName : H → String
  /-- How it is shown. -/
  shown : H → String
  /-- Its number, if it has one. -/
  toNumber? : H → Option Float
  /-- The member of a name, where the type declares none. -/
  member? : H → String → Option (Value H)
  /-- The entry of a key. -/
  entry? : H → Value H → Option (Value H)
  /-- Two objects of one identity are the same object. -/
  identity : H → Nat

namespace Value

variable {H : Type}

instance : Inhabited (Value H) := ⟨number 0⟩

/-- A map from pairs; a repeated key keeps its first place and takes its last value. -/
def ofEntries (entries : List (String × Value H)) : Value H :=
  map (Keyed.ofList entries)

def typeInfo [HostObject H] : Value H → TypeInfo
  | number _ => .number
  | bool _ => .bool
  | string _ => .string
  | sequence _ => .sequence
  | map _ => .map
  | host object => .host (HostObject.typeName object)

/-- The number, without conversion. -/
def number? : Value H → Option Float
  | number x => some x
  | _ => none

def string? : Value H → Option String
  | string text => some text
  | _ => none

def host? : Value H → Option H
  | host object => some object
  | _ => none

/-! ## Results as plain data -/

/-- The number of a value, or of a host object that has one. -/
def toNumber [HostObject H] : Value H → Except Failure Float
  | number x => .ok x
  | host object =>
      match HostObject.toNumber? object with
      | some x => .ok x
      | none => .error (.solving (.unableToConvert (HostObject.typeName object) .number))
  | v => .error (.solving (.unableToConvert v.typeInfo.name .number))

def toBool [HostObject H] : Value H → Except Failure Bool
  | bool b => .ok b
  | v => .error (.solving (.unableToConvert v.typeInfo.name .bool))

def toText [HostObject H] : Value H → Except Failure String
  | string text => .ok text
  | v => .error (.solving (.unableToConvert v.typeInfo.name .string))

def toItems [HostObject H] : Value H → Except Failure (List (Value H))
  | sequence items => .ok items
  | v => .error (.solving (.unableToConvert v.typeInfo.name .sequence))

end Value

end FormulaLang
