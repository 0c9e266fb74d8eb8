import FormulaLang.MemberCache
import FormulaLang.Plan
import FormulaLang.Provider
import FormulaLang.Value.Text

/-!
The rules of evaluation that look at the types of the values at hand: arithmetic, negation,
access and application.  Solving a formula by its tree and solving it compiled both come down to
these rules.
-/

namespace FormulaLang

/-- The types, transforms and provider under which formulas are solved. -/
structure Environment (H : Type) where
  types : TypeRegistry H
  functions : FunctionRegistry H
  provider : Provider H

/-- Solving: it may fail, and it may use the member cache, which keeps what it learned even from a
solve that fails. -/
abbrev Solve (H : Type) := ExceptT Failure (StateM (MemberCache H))

/-- A result that does not depend on the cache. -/
def Solve.ofExcept {H α : Type} (r : Except Failure α) : Solve H α :=
  ExceptT.mk (pure r)

/-- Changes the failure of a solve, and nothing else. -/
def Solve.mapFailure {H α : Type} (f : Failure → Failure) (m : Solve H α) : Solve H α :=
  ExceptT.mk do
    match ← m.run with
    | .ok a => return .ok a
    | .error e => return .error (f e)

namespace Environment

variable {H : Type} [HostObject H]

/-- A value that stands for a number becomes that number. -/
def normalize (env : Environment H) (v : Value H) : Value H :=
  match v with
  | .number x => .number x
  | v =>
      match env.provider.toNumber? v with
      | some x => .number x
      | none => v

/-- The number of a value by the provider, or else by a conversion that yields one. -/
def toNumber? (env : Environment H) (v : Value H) : Option Float :=
  match env.provider.toNumber? v with
  | some x => some x
  | none =>
      match env.types.conversion? v.typeInfo .number with
      | none => none
      | some c =>
          match c.apply v with
          | .ok w => w.number?
          | .error _ => none

/-- Converts a value to a type: not at all if it fits, by a conversion if there is one, and to a
number by whatever way there is. -/
def convert (env : Environment H) (v : Value H) (target : TypeInfo) : Except Failure (Value H) :=
  let source := v.typeInfo
  let refusal := Failure.solving (.cannotConvert source target)
  if target.accepts source then
    .ok v
  else
    match env.types.conversion? source target with
    | some c => c.apply v
    | none =>
        if target = .number then
          match env.toNumber? v with
          | some x => .ok (.number x)
          | none => .error refusal
        else
          .error refusal

/-- Prepares an input for a variable of a declared type. -/
def bindInput (env : Environment H) (v : Value H) (declared : TypeInfo) :
    Except Failure (Value H) :=
  if declared.isAny then .ok (env.normalize v) else env.convert v declared

/-- A binary operator on values: on numbers natively, else by the plan for their types, else on
the numbers they stand for. -/
def binary (env : Environment H) (op : Operation) (left right : Value H) :
    Except Failure (Value H) :=
  let native? :=
    match left, right with
    | .number x, .number y => op.onNumbers? x y
    | _, _ => none
  match native? with
  | some z => .ok (.number z)
  | none =>
      match env.types.plan? op left.typeInfo right.typeInfo with
      | some plan => plan.apply left right
      | none =>
          match env.toNumber? left, env.toNumber? right with
          | some x, some y =>
              match op.onNumbers? x y with
              | some z => .ok (.number z)
              | none => .error (.solving (.unsupportedOperator op))
          | _, _ => .error (.solving (.unableToApply op left.typeInfo right.typeInfo))

/-- The negative of a value: of a number natively, else as its type declares, else of the number
it stands for. -/
def negate (env : Environment H) (v : Value H) : Except Failure (Value H) :=
  match v with
  | .number x => .ok (.number (-x))
  | v =>
      match env.types.negation? v.typeInfo with
      | some f => f v
      | none =>
          match env.toNumber? v with
          | some x => .ok (.number (-x))
          | none => .error (.solving (.unableToNegate v.typeInfo))

/-- The whole part of a number. -/
def wholePart (x : Float) : Float :=
  if x < 0 then x.ceil else x.floor

/-- The item at a position, whose fraction is dropped. -/
def item (items : List (Value H)) (position : Float) : Except Failure (Value H) :=
  let position := wholePart position
  let refusal := Failure.solving (.indexOutOfRange position items.length)
  if position.isFinite && 0 ≤ position then
    match items[position.toUInt64.toNat]? with
    | some v => .ok v
    | none => .error refusal
  else
    .error refusal

def entry (env : Environment H) (owner key : Value H) : Except Failure (Value H) :=
  match owner with
  | .sequence items =>
      match env.toNumber? key with
      | some position => item items position
      | none => .error (.solving (.nonNumericIndex key.typeInfo))
  | .map entries =>
      match entries.lookup key.keyText with
      | some v => .ok v
      | none => .error (.solving (.missingKey key.keyText))
  | .host object =>
      match HostObject.entry? object key with
      | some v => .ok v
      | none => .error (.solving (.missingEntry (HostObject.typeName object) key.text))
  | v => .error (.solving (.notIndexable v.typeInfo))

/-- The normalized entry of a value under a key. -/
def index (env : Environment H) (owner key : Value H) : Except Failure (Value H) :=
  (env.entry owner key).map env.normalize

/-- The member of a name on a type, found through the cache. -/
def member (env : Environment H) (owner : TypeInfo) (name : String) :
    Solve H (Except Cause (Member H)) :=
  ExceptT.mk fun cache =>
    let (lookup, cache) := cache.lookup env.types owner name
    (.ok (lookup.toResult owner name), cache)

/-- The normalized member of a value. -/
def property (env : Environment H) (owner : Value H) (name : String) : Solve H (Value H) := do
  match ← env.member owner.typeInfo name with
  | .ok m => Solve.ofExcept ((m.get owner).map env.normalize)
  | .error cause => Solve.ofExcept (.error (.solving cause))

/-- Applies an overload.  The argument is converted to its input type if it can be, and passed as
it is otherwise. -/
def call (env : Environment H) (t : Transform H) (argument : Value H) :
    Except Failure (Value H) :=
  let converted :=
    match env.convert argument t.input with
    | .ok v => v
    | .error _ => argument
  (t.apply converted).map env.normalize

/-- Applies the overload that fits the argument. -/
def dispatch (env : Environment H) (name : String) (overloads : List (Transform H))
    (argument : Value H) : Except Failure (Value H) :=
  match Transform.select? overloads argument.typeInfo env.types with
  | some t => env.call t argument
  | none => .error (.solving (.noTransformFor name argument.typeInfo))

/-- Applies the transform of a name. -/
def transform (env : Environment H) (name : String) (argument : Value H) :
    Except Failure (Value H) :=
  match env.functions.overloads? name with
  | some overloads => env.dispatch name overloads argument
  | none => .error (.solving (.unknownTransform name))

end Environment

end FormulaLang
