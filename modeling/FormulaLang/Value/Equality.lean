import FormulaLang.Value.Basic

/-!
Equality of values, exact and up to a tolerance.  Maps are compared without regard to order, host
objects by identity, and numbers as IEEE numbers: a NaN equals nothing, unless a tolerance is
given.
-/

namespace FormulaLang.Value

variable {H : Type} [HostObject H]

mutual

/-- Exact equality. -/
def same : Value H → Value H → Bool
  | number x, number y => x == y
  | bool a, bool b => a == b
  | string s, string t => s == t
  | sequence xs, sequence ys => sameItems xs ys
  | map xs, map ys => xs.length == ys.length && sameEntries xs ys
  | host a, host b => HostObject.identity a == HostObject.identity b
  | _, _ => false

def sameItems : List (Value H) → List (Value H) → Bool
  | [], [] => true
  | x :: xs, y :: ys => same x y && sameItems xs ys
  | _, _ => false

/-- Whether every entry is found with an equal value. -/
def sameEntries : List (String × Value H) → List (String × Value H) → Bool
  | [], _ => true
  | (key, x) :: xs, ys =>
      (match ys.lookup key with
        | some y => same x y
        | none => false) && sameEntries xs ys

end

/-- Whether two numbers differ by no more than a tolerance.  Two NaNs count as near. -/
def near (tolerance x y : Float) : Bool :=
  (x.isNaN && y.isNaN) || x == y || (x - y).abs ≤ tolerance

mutual

/-- Equality up to a tolerance of the numbers inside. -/
def approx (tolerance : Float) : Value H → Value H → Bool
  | number x, number y => near tolerance x y
  | sequence xs, sequence ys => xs.length == ys.length && approxItems tolerance xs ys
  | map xs, map ys => xs.length == ys.length && approxEntries tolerance xs ys
  | v, w => same v w

def approxItems (tolerance : Float) : List (Value H) → List (Value H) → Bool
  | x :: xs, y :: ys => approx tolerance x y && approxItems tolerance xs ys
  | _, _ => true

/-- Whether every entry is found with an approximately equal value. -/
def approxEntries (tolerance : Float) :
    List (String × Value H) → List (String × Value H) → Bool
  | [], _ => true
  | (key, x) :: xs, ys =>
      (match ys.lookup key with
        | some y => approx tolerance x y
        | none => false) && approxEntries tolerance xs ys

end

end FormulaLang.Value
