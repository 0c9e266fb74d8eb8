import FormulaLang.Evaluation

/-!
Compiling a formula into functions.  What the types tell is decided once: operators, members and
transforms for operands of known types are resolved here, and only operands of type `Any` are
left to the rules of the environment.  Types that can never be combined are refused.
-/

namespace FormulaLang

/-- What a compiled expression is run with. -/
structure Frame (H : Type) where
  env : Environment H
  inputs : List (Value H)

abbrev Code (H : Type) := Frame H → Solve H (Value H)

/-- A compiled expression and the type that its values are known to have. -/
structure Compiled (H : Type) where
  code : Code H
  type : TypeInfo

namespace Compiled

variable {H : Type} [HostObject H]

def constant (v : Value H) : Compiled H :=
  ⟨fun _ => return v, v.typeInfo⟩

def input (name : String) (place : Nat) (type : TypeInfo) : Compiled H :=
  ⟨fun frame =>
    match frame.inputs[place]? with
    | some v => return v
    | none => throw (.solving (.missingInput name)), type⟩

/-- Lets failures name the text of the expression. -/
def within (c : Compiled H) (text : String) : Compiled H :=
  ⟨fun frame => Solve.mapFailure (Failure.within text) (c.code frame), c.type⟩

/-- The type that a normalized value is known to have: a number stays one, and anything else may
have become one. -/
def normalizedType : TypeInfo → TypeInfo
  | .number => .number
  | _ => .any

end Compiled

/-- What a formula is compiled against. -/
structure CompilerInput (H : Type) where
  env : Environment H
  specification : Specification
  /-- The values of the first variables. -/
  initial : List (Value H)

namespace CompilerInput

variable {H : Type} [HostObject H]

/-- Fixes the first inputs, converted to their declared types. -/
def prepare (env : Environment H) (s : Specification) (initial : List (Value H)) :
    Except Failure (CompilerInput H) :=
  if s.arity < initial.length then
    .error (.compiling (.tooManyInitial initial.length s.arity))
  else
    (Bindings.prepare env s.parameters initial fun name cause =>
      .compiling (.initialInput name cause)).map fun bindings =>
        ⟨env, s, bindings.map Prod.snd⟩

/-- A variable: a constant if its input is fixed, and one of the remaining inputs otherwise. -/
def variableCode (c : CompilerInput H) (name : String) : Except Failure (Compiled H) :=
  match c.specification.position? name, c.specification.type? name with
  | some place, some type =>
      match c.initial[place]? with
      | some v => .ok (.constant v)
      | none => .ok (.input name (place - c.initial.length) type)
  | _, _ => .error (.compiling (.unknownVariable name))

def negateCode (c : CompilerInput H) (operand : Compiled H) : Except Failure (Compiled H) :=
  match operand.type with
  | .number | .any =>
      .ok ⟨fun frame => do
        let v ← operand.code frame
        Solve.ofExcept (frame.env.negate v), operand.type⟩
  | type =>
      match c.env.types.negation? type with
      | some f =>
          .ok ⟨fun frame => do
            let v ← operand.code frame
            Solve.ofExcept (f v), type⟩
      | none => .error (.compiling (.unableToNegate type))

def binaryCode (c : CompilerInput H) (op : Operation) (left right : Compiled H) :
    Except Failure (Compiled H) :=
  let dynamic : Code H := fun frame => do
    let x ← left.code frame
    let y ← right.code frame
    Solve.ofExcept (frame.env.binary op x y)
  if left.type.isAny || right.type.isAny then
    .ok ⟨dynamic, .any⟩
  else
    match c.env.types.plan? op left.type right.type with
    | none => .error (.compiling (.noCoercion op left.type right.type))
    | some plan =>
        if plan.isNative && !plan.isCoerced then
          .ok ⟨fun frame => do
            let x ← left.code frame
            let y ← right.code frame
            Solve.ofExcept <|
              match x, y with
              | .number a, .number b =>
                  match op.onNumbers? a b with
                  | some z => .ok (.number z)
                  | none => .error (.solving (.unsupportedOperator op))
              | x, y => frame.env.binary op x y, .number⟩
        else
          .ok ⟨fun frame => do
            let x ← left.code frame
            let y ← right.code frame
            Solve.ofExcept (plan.apply x y), plan.result⟩

/-- A member of an owner.  Looking for it goes through the cache. -/
def propertyCode (c : CompilerInput H) (owner : Compiled H) (name : String) :
    Solve H (Compiled H) := do
  if owner.type.isAny then
    return ⟨fun frame => do
      let v ← owner.code frame
      frame.env.property v name, .any⟩
  else
    match ← c.env.member owner.type name with
    | .error cause => throw (.compiling cause)
    | .ok m =>
        return ⟨fun frame => do
          let v ← owner.code frame
          Solve.ofExcept ((m.get v).map frame.env.normalize), Compiled.normalizedType m.type⟩

def indexCode (owner key : Compiled H) : Except Failure (Compiled H) :=
  let code : Code H := fun frame => do
    let v ← owner.code frame
    let k ← key.code frame
    Solve.ofExcept (frame.env.index v k)
  match owner.type, key.type with
  | .number, _ | .bool, _ | .string, _ => .error (.compiling (.notIndexable owner.type))
  | .sequence, .string | .sequence, .bool | .sequence, .map =>
      .error (.compiling (.nonNumericIndex key.type))
  | _, _ => .ok ⟨code, .any⟩

/-- The application of a transform.  For an argument of unknown type the overloads known now are
kept, and one of them is picked when the formula is run. -/
def transformCode (c : CompilerInput H) (name : String) (argument : Compiled H) :
    Except Failure (Compiled H) :=
  match c.env.functions.overloads? name with
  | none => .error (.compiling (.unknownTransform name))
  | some overloads =>
      if argument.type.isAny then
        .ok ⟨fun frame => do
          let v ← argument.code frame
          Solve.ofExcept (frame.env.dispatch name overloads v), .any⟩
      else
        match Transform.select? overloads argument.type c.env.types with
        | none => .error (.compiling (.noTransformFor name argument.type))
        | some t =>
            .ok ⟨fun frame => do
              let v ← argument.code frame
              Solve.ofExcept (frame.env.call t v), Compiled.normalizedType t.output⟩

end CompilerInput

namespace Term

variable {H : Type} [HostObject H]

/-- Compiles a term.  A failure to compile is given the text of the innermost term concerned, and
so is a failure of the compiled code of an operator. -/
def compile (c : CompilerInput H) : Term → Solve H (Compiled H)
  | absent => throw (.compiling .missingOperand)
  | node token left right =>
      let text := (node token left right).text
      Solve.mapFailure (Failure.within text) <|
        match token with
        | .number x => return .constant (.number x)
        | .var name => Solve.ofExcept (c.variableCode name)
        | .name text => throw (.compiling (.notAValue text))
        | .group _ | .magnitude _ => throw (.compiling .unexpandedGroup)
        | .operator .negate => do
            let operand ← right.compile c
            let compiled ← Solve.ofExcept (c.negateCode operand)
            return compiled.within text
        | .operator .property => do
            let owner ← left.compile c
            let name ← Solve.ofExcept (right.nameOperand Failure.compiling)
            let compiled ← c.propertyCode owner name
            return compiled.within text
        | .operator .index => do
            let owner ← left.compile c
            let key ←
              match right with
              | node (.name key) _ _ => pure (.constant (.string key))
              | right => right.compile c
            let compiled ← Solve.ofExcept (CompilerInput.indexCode owner key)
            return compiled.within text
        | .operator .transform => do
            let name ← Solve.ofExcept (left.nameOperand Failure.compiling)
            let argument ← right.compile c
            let compiled ← Solve.ofExcept (c.transformCode name argument)
            return compiled.within text
        | .operator op => do
            let x ← left.compile c
            let y ← right.compile c
            let compiled ← Solve.ofExcept (c.binaryCode op x y)
            return compiled.within text

end Term

/-- A compiled formula with the inputs it still expects. -/
structure FastFormula (H : Type) where
  code : Code H
  inputs : List (String × TypeInfo)
  /-- The text of the expression that was compiled. -/
  expression : String

namespace FastFormula

variable {H : Type} [HostObject H]

def arity (f : FastFormula H) : Nat :=
  f.inputs.length

def variableNames (f : FastFormula H) : List String :=
  f.inputs.map Prod.fst

/-- Solves a compiled formula in the environment of the moment, and normalizes its value. -/
def solve (env : Environment H) (f : FastFormula H) (inputs : List (Value H)) :
    Solve H (Value H) := do
  let bindings ← Solve.ofExcept <|
    (Bindings.ofInputs env f.inputs inputs).mapError (Failure.within f.expression)
  let v ← Solve.mapFailure (Failure.withBindings bindings.snapshot) <|
    f.code ⟨env, bindings.map Prod.snd⟩
  return env.normalize v

def summary (f : FastFormula H) : String :=
  let one : String × TypeInfo → String := fun (name, type) =>
    "(" ++ Text.quoted name ++ ", " ++ type.detail ++ ")"
  "FastFormula \x7b expression: " ++ Text.quoted f.expression
    ++ ", inputs: [" ++ ", ".intercalate (f.inputs.map one) ++ "] \x7d"

end FastFormula

end FormulaLang
