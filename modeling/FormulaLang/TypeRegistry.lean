import FormulaLang.Text.Blank
import FormulaLang.Text.Lowercase
import FormulaLang.TypeDescriptor

/-!
The types that a formula can name.  A name is looked up among the aliases, without regard to case
and blanks, and then, if that is allowed, among the names of the described types.
-/

namespace FormulaLang

/-- Aliases and descriptions of types; descriptions are in order of registration. -/
structure TypeRegistry (H : Type) where
  aliases : Keyed String TypeInfo
  descriptors : Keyed TypeInfo (TypeDescriptor H)
  /-- Whether a name that is no alias may be that of a described type. -/
  deduction : Bool

namespace TypeRegistry

variable {H : Type}

def empty : TypeRegistry H :=
  ⟨[], [], true⟩

/-- The form under which an alias is kept: lowercase, without blanks. -/
def aliasKey (name : String) : String :=
  String.ofList <|
    (name.toList.filter fun c => !Text.isBlank c).flatMap Text.lowercase

/-- Lets aliases stand for a type. -/
def enable (r : TypeRegistry H) (type : TypeInfo) (aliases : List String) : TypeRegistry H :=
  { r with
    aliases := aliases.foldl (fun table name => Keyed.insert (aliasKey name) type table)
      r.aliases }

/-- Registers a description, in place of an earlier one of the same type, with aliases. -/
def register (r : TypeRegistry H) (d : TypeDescriptor H) (aliases : List String) :
    TypeRegistry H :=
  { r with descriptors := Keyed.insert d.type d r.descriptors }.enable d.type aliases

/-- Drops the aliases of a type, and tells how many there were. -/
def disable (r : TypeRegistry H) (type : TypeInfo) : Nat × TypeRegistry H :=
  let kept := r.aliases.filter fun entry => entry.2 ≠ type
  (r.aliases.length - kept.length, { r with aliases := kept })

def isEnabled (r : TypeRegistry H) (name : String) : Bool :=
  (r.aliases.lookup (aliasKey name)).isSome

/-- The described types in order. -/
def described (r : TypeRegistry H) : List (TypeDescriptor H) :=
  r.descriptors.map Prod.snd

/-- The type of a described name: by its full name if the name has a namespace, and otherwise by
the part after the namespace, which several types may share. -/
def deduce (r : TypeRegistry H) (name : String) : Except Cause TypeInfo :=
  let name := Text.withoutBlanks name
  let named (d : TypeDescriptor H) : Bool :=
    if name.toList.contains '.' then d.fullName == name else d.shortName == name
  match r.described.filter named with
  | [] => .error (.unknownType name)
  | [d] => .ok d.type
  | several => .error (.ambiguousType name (several.map TypeDescriptor.fullName))

def find (r : TypeRegistry H) (name : String) : Except Cause TypeInfo :=
  match r.aliases.lookup (aliasKey name) with
  | some type => .ok type
  | none => if r.deduction then r.deduce name else .error (.unknownType name)

def descriptor? (r : TypeRegistry H) (type : TypeInfo) : Option (TypeDescriptor H) :=
  r.descriptors.lookup type

/-- The conversion between two types that either of them declares, the source first. -/
def conversion? (r : TypeRegistry H) (source target : TypeInfo) : Option (Conversion H) :=
  ([source, target].filterMap r.descriptor?).findSome? fun d =>
    d.conversions.find? fun c => c.source = source ∧ c.target = target

/-- Whether values of one type can stand where another is asked for. -/
def castable (r : TypeRegistry H) (source target : TypeInfo) : Bool :=
  target.accepts source || (r.conversion? source target).isSome

/-! ## The language's own types -/

def builtinAliases : TypeInfo → List String
  | .any => ["any", "object", "dynamic"]
  | .number => ["number", "double", "float", "int", "decimal", "real"]
  | .bool => ["bool", "boolean"]
  | .string => ["string", "str", "text"]
  | .sequence => ["sequence", "seq", "list", "array"]
  | .map => ["map", "dict", "dictionary"]
  | .host _ => []

/-- The number of characters of a text or of items of a sequence. -/
def lengthOf [HostObject H] : Unary H
  | .string s => .ok (.number (Float.ofNat s.length))
  | .sequence items => .ok (.number (Float.ofNat items.length))
  | v => .error (.solving (.noLength v.typeInfo))

/-- One text after another. -/
def concatenate : Binary H
  | .string s, .string t => .ok (.string (s ++ t))
  | _, _ => .error (.solving .expectsStrings)

/-- The descriptions of the language's own types: texts and sequences have a length, and texts
are added by writing one after the other. -/
def builtinDescriptor [HostObject H] (type : TypeInfo) : TypeDescriptor H :=
  let d := TypeDescriptor.bare type
  match type with
  | .string =>
      (d.withMember "Length" .number lengthOf).withOperator
        .add .string .string .string concatenate
  | .sequence => (d.withMember "Length" .number lengthOf).withMember "Count" .number lengthOf
  | _ => d

def builtins [HostObject H] : TypeRegistry H :=
  TypeInfo.builtins.foldl
    (fun r type => r.register (builtinDescriptor type) (builtinAliases type)) empty

end TypeRegistry

end FormulaLang
