import FormulaLang.TypeRegistry

/-!
Resolving a binary operator for two operand types.  Numbers are combined natively; otherwise an
overload for exactly these types is taken, and failing that, one for which an operand can be
converted.
-/

namespace FormulaLang

/-- What a plan runs once the operands are converted. -/
inductive PlanKind (H : Type) where
  | native (op : Operation)
  | overload (apply : Binary H)

/-- A resolved operator with the conversions of its operands. -/
structure Plan (H : Type) where
  kind : PlanKind H
  left? : Option (Unary H)
  right? : Option (Unary H)
  result : TypeInfo

namespace Plan

variable {H : Type}

def isNative (p : Plan H) : Bool :=
  match p.kind with
  | .native _ => true
  | .overload _ => false

/-- Whether an operand is converted first. -/
def isCoerced (p : Plan H) : Bool :=
  p.left?.isSome || p.right?.isSome

/-- Converts an operand, if need be. -/
def prepare (convert? : Option (Unary H)) (v : Value H) : Except Failure (Value H) :=
  match convert? with
  | some convert => convert v
  | none => .ok v

/-- Runs a plan: the left operand is converted, then the right one, then they are combined. -/
def apply [HostObject H] (p : Plan H) (left right : Value H) : Except Failure (Value H) := do
  let left ← prepare p.left? left
  let right ← prepare p.right? right
  match p.kind with
  | .overload f => f left right
  | .native op =>
      let refusal := Failure.solving (.unableToApply op left.typeInfo right.typeInfo)
      match left, right with
      | .number x, .number y =>
          match op.onNumbers? x y with
          | some z => .ok (.number z)
          | none => .error refusal
      | _, _ => .error refusal

def summary (p : Plan H) : String :=
  let kind :=
    match p.kind with
    | .native op => "native " ++ op.name
    | .overload _ => "overload"
  "BinaryPlan \x7b kind: " ++ Text.quoted kind ++ ", coerced: " ++ toString p.isCoerced
    ++ ", result: " ++ p.result.detail ++ " \x7d"

end Plan

/-- The types that the operands of an operator are to be converted to. -/
structure Coercion where
  left : TypeInfo
  right : TypeInfo
deriving DecidableEq, Repr

namespace TypeRegistry

variable {H : Type}

/-- The overload for exactly two types that either of them declares, the left one first. -/
def overload? (r : TypeRegistry H) (op : Operation) (left right : TypeInfo) :
    Option (Overload H) :=
  ([left, right].filterMap r.descriptor?).findSome? fun d =>
    (d.operatorsFor op).find? fun o => o.left = left ∧ o.right = right

/-- The conversion that lets a value of one type stand for another; `some none` means that none
is needed. -/
def step? (r : TypeRegistry H) (source target : TypeInfo) : Option (Option (Unary H)) :=
  if target.accepts source then some none
  else (r.conversion? source target).map fun c => some c.apply

/-- Conversions under which an operator applies: the first overload declared by the left type
whose right side can be reached from the right type, or else the first one declared by the right
type whose left side can be reached from the left type. -/
def coercion? (r : TypeRegistry H) (op : Operation) (left right : TypeInfo) : Option Coercion :=
  let byLeft :=
    (r.descriptor? left).bind fun d =>
      ((d.operatorsFor op).find? fun o => r.castable right o.right).map fun o =>
        Coercion.mk left o.right
  let byRight :=
    (r.descriptor? right).bind fun d =>
      ((d.operatorsFor op).find? fun o => r.castable left o.left).map fun o =>
        Coercion.mk o.left right
  byLeft.or byRight

/-- The plan for an operator on two types, if they can be combined. -/
def plan? (r : TypeRegistry H) (op : Operation) (left right : TypeInfo) : Option (Plan H) :=
  if left = .number ∧ right = .number then
    some ⟨.native op, none, none, .number⟩
  else
    match r.overload? op left right with
    | some o => some ⟨.overload o.apply, none, none, o.result⟩
    | none => do
        let coercion ← r.coercion? op left right
        let leftStep ← r.step? left coercion.left
        let rightStep ← r.step? right coercion.right
        if coercion.left = .number ∧ coercion.right = .number then
          return ⟨.native op, leftStep, rightStep, .number⟩
        let o ← r.overload? op coercion.left coercion.right
        return ⟨.overload o.apply, leftStep, rightStep, o.result⟩

def negation? (r : TypeRegistry H) (type : TypeInfo) : Option (Unary H) :=
  (r.descriptor? type).bind TypeDescriptor.negation?

end TypeRegistry

end FormulaLang
