import FormulaLang.TypeRegistry

/-!
Transforms: the named functions of formulas, with one overload for each input type.  Names are
compared without regard to case.
-/

namespace FormulaLang

/-- An overload of a transform. -/
structure Transform (H : Type) where
  name : String
  input : TypeInfo
  output : TypeInfo
  apply : Unary H

namespace Transform

variable {H : Type}

def describe (t : Transform H) : String :=
  t.name ++ "(" ++ t.input.name ++ ") -> " ++ t.output.name

/-- A function on numbers as a transform. -/
def numeric [HostObject H] (name : String) (f : Float → Float) : Transform H :=
  ⟨name, .number, .number, fun
    | .number x => .ok (.number (f x))
    | v => .error (.solving (.expectsNumber name v.typeInfo))⟩

/-- Picks among overloads for a type: the one for exactly this type, else the first that the type
can be converted for, else the first. -/
def select? (candidates : List (Transform H)) (type : TypeInfo) (types : TypeRegistry H) :
    Option (Transform H) :=
  (candidates.find? fun t => t.input = type).or <|
    (candidates.find? fun t => types.castable type t.input).or candidates.head?

/-- Puts an overload in the place of the one for the same input type, or at the end. -/
def replaceIn (t : Transform H) : List (Transform H) → List (Transform H)
  | [] => [t]
  | other :: rest => if other.input = t.input then t :: rest else other :: t.replaceIn rest

end Transform

/-- The overloads of each transform, kept under its lowercase name.  Overloads are in order of
registration, and no name is without one. -/
structure FunctionRegistry (H : Type) where
  transforms : Keyed String (List (Transform H))

namespace FunctionRegistry

variable {H : Type}

def empty : FunctionRegistry H :=
  ⟨[]⟩

/-- The form under which a name is kept. -/
def key (name : String) : String :=
  Text.lowercaseText name

def overloads? (r : FunctionRegistry H) (name : String) : Option (List (Transform H)) :=
  r.transforms.lookup (key name)

/-- Registers an overload.  One for the same input type is replaced and keeps its place. -/
def register (r : FunctionRegistry H) (t : Transform H) : FunctionRegistry H :=
  let overloads := (r.overloads? t.name).getD []
  ⟨Keyed.insert (key t.name) (t.replaceIn overloads) r.transforms⟩

/-- Removes every overload of a name, or only the one for an input type, and tells whether there
was one. -/
def remove (r : FunctionRegistry H) (name : String) (input? : Option TypeInfo) :
    Bool × FunctionRegistry H :=
  match r.overloads? name, input? with
  | none, _ => (false, r)
  | some _, none => (true, ⟨Keyed.erase (key name) r.transforms⟩)
  | some overloads, some input =>
      let kept := overloads.filter fun t => t.input ≠ input
      let transforms :=
        if kept.isEmpty then Keyed.erase (key name) r.transforms
        else Keyed.insert (key name) kept r.transforms
      (kept.length != overloads.length, ⟨transforms⟩)

def contains (r : FunctionRegistry H) (name : String) : Bool :=
  (r.overloads? name).isSome

/-- The names, as their first overloads spell them, in code point order. -/
def names (r : FunctionRegistry H) : List String :=
  (r.transforms.filterMap fun entry => entry.2.head?.map Transform.name).mergeSort
    fun a b => decide (a ≤ b)

def size (r : FunctionRegistry H) : Nat :=
  r.transforms.length

def isEmpty (r : FunctionRegistry H) : Bool :=
  r.transforms.isEmpty

/-- The overload of a name for values of a type. -/
def resolve? (r : FunctionRegistry H) (name : String) (type : TypeInfo)
    (types : TypeRegistry H) : Option (Transform H) :=
  (r.overloads? name).bind fun candidates => Transform.select? candidates type types

end FunctionRegistry

end FormulaLang
