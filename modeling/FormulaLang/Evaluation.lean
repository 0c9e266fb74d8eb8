import FormulaLang.Environment
import FormulaLang.Specification

/-!
Solving a formula by its tree.  A failure names the innermost expression that failed, and the
inputs if they could be bound.
-/

namespace FormulaLang

/-- The values of variables, in input order. -/
abbrev Bindings (H : Type) := Keyed String (Value H)

namespace Bindings

variable {H : Type} [HostObject H]

/-- The bindings as a failure reports them. -/
def snapshot (bindings : Bindings H) : Snapshot :=
  bindings.map fun (name, v) => (name, v.text)

/-- Prepares inputs for typed variables, one after the other. -/
def prepare (env : Environment H) (parameters : List (String × TypeInfo))
    (inputs : List (Value H)) (refusal : String → Cause → Failure) :
    Except Failure (Bindings H) :=
  (parameters.zip inputs).mapM fun ((name, type), v) =>
    match env.bindInput v type with
    | .ok v => .ok (name, v)
    | .error e => .error (refusal name e.cause)

/-- Binds inputs to variables.  There must be enough of them; those left over are ignored. -/
def ofInputs (env : Environment H) (parameters : List (String × TypeInfo))
    (inputs : List (Value H)) : Except Failure (Bindings H) :=
  if inputs.length < parameters.length then
    .error (.solving (.tooFewInputs parameters.length inputs.length))
  else
    prepare env parameters inputs fun name cause => .solving (.input name cause)

end Bindings

namespace Term

variable {H : Type} [HostObject H]

/-- The identifier that an operator needs as an operand. -/
def nameOperand (stage : Cause → Failure) : Term → Except Failure String
  | absent => .error (stage .missingOperand)
  | node (.name text) _ _ => .ok text
  | node token _ _ => .error (stage (.expectedName token))

/-- Evaluates a term, operands before their operator and the left one first.  The names of members
and functions and literal keys are not evaluated.  An absent operand fails on behalf of its
operator, and every other failure is given the text of the innermost term that fails. -/
def evaluate (env : Environment H) (bindings : Bindings H) : Term → Solve H (Value H)
  | absent => throw (.solving .missingOperand)
  | node token left right =>
      Solve.mapFailure (Failure.within (node token left right).text) <|
        match token with
        | .number x => return .number x
        | .var name =>
            match bindings.lookup name with
            | some v => return v
            | none => throw (.solving (.unboundVariable name))
        | .name text => throw (.solving (.notAValue text))
        | .group _ | .magnitude _ => throw (.solving .unexpandedGroup)
        | .operator .negate => do
            let v ← right.evaluate env bindings
            Solve.ofExcept (env.negate v)
        | .operator .property => do
            let owner ← left.evaluate env bindings
            let name ← Solve.ofExcept (right.nameOperand Failure.solving)
            env.property owner name
        | .operator .index => do
            let owner ← left.evaluate env bindings
            let key ←
              match right with
              | node (.name key) _ _ => pure (.string key)
              | right => right.evaluate env bindings
            Solve.ofExcept (env.index owner key)
        | .operator .transform => do
            let name ← Solve.ofExcept (left.nameOperand Failure.solving)
            let argument ← right.evaluate env bindings
            Solve.ofExcept (env.transform name argument)
        | .operator op => do
            let x ← left.evaluate env bindings
            let y ← right.evaluate env bindings
            Solve.ofExcept (env.binary op x y)

/-- Solves a term for inputs, and normalizes its value.  Inputs that cannot be bound are a failure
of the whole term. -/
def solve (env : Environment H) (t : Term) (s : Specification) (inputs : List (Value H)) :
    Solve H (Value H) := do
  let bindings ← Solve.ofExcept <|
    (Bindings.ofInputs env s.parameters inputs).mapError (Failure.within t.text)
  let v ← Solve.mapFailure (Failure.withBindings bindings.snapshot) (t.evaluate env bindings)
  return env.normalize v

end Term

end FormulaLang
