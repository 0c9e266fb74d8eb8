import FormulaLang.Transform

/-!
Providers: the numbers that values stand for, and the transforms and types that a context starts
with.
-/

namespace FormulaLang

/-- What a host application supplies. -/
structure Provider (H : Type) where
  name : String
  /-- The number that a value stands for. -/
  toNumber? : Value H → Option Float
  /-- The transforms to start with, in order of registration. -/
  transforms : List (Transform H)
  /-- The types to start with, each with its aliases, in order of registration. -/
  types : List (TypeDescriptor H × List String)

namespace Provider

variable {H : Type} [HostObject H]

/-- The usual reading: a number stands for itself, and a host object for the number it has. -/
def usualNumber? : Value H → Option Float
  | .number x => some x
  | .host object => HostObject.toNumber? object
  | _ => none

/-- The sign of a number; a zero or a NaN is its own sign. -/
def sign (x : Float) : Float :=
  if x == 0 || x.isNaN then x else if x < 0 then -1 else 1

/-- The numbers of a sequence that holds nothing else. -/
def components : Value H → Except Failure (List Float)
  | .sequence items =>
      items.mapM fun
        | .number x => .ok x
        | v => .error (.solving (.nonNumericComponent v.typeInfo))
  | v => .error (.solving (.expectedSequence v.typeInfo))

/-- The Euclidean length; the sum of no squares is `-0`. -/
def euclidean (xs : List Float) : Float :=
  ((xs.map fun x => x * x).foldl (· + ·) (-0.0)).sqrt

/-- The length of a sequence of numbers. -/
def length (v : Value H) : Except Failure (Value H) :=
  (components v).map fun xs => .number (euclidean xs)

/-- A sequence of numbers scaled to length one, unless its length is zero. -/
def normalized (v : Value H) : Except Failure (Value H) := do
  let xs ← components v
  let length := euclidean xs
  if length == 0 then return v
  return .sequence (xs.map fun x => .number (x / length))

/-- Scalar mathematics, and the length and direction of numeric sequences. -/
def standardTransforms : List (Transform H) :=
  [ .numeric "abs" Float.abs,
    .numeric "sgn" sign,
    .numeric "sqrt" Float.sqrt,
    .numeric "ln" Float.log,
    .numeric "log" Float.log10,
    .numeric "sin" Float.sin,
    .numeric "asin" Float.asin,
    .numeric "cos" Float.cos,
    .numeric "acos" Float.acos,
    .numeric "tan" Float.tan,
    .numeric "atan" Float.atan,
    .numeric "nml" sign,
    ⟨"abs", .sequence, .number, length⟩,
    ⟨"nml", .sequence, .sequence, normalized⟩ ]

def standard : Provider H :=
  ⟨"StandardProvider", usualNumber?, standardTransforms, []⟩

end Provider

end FormulaLang
