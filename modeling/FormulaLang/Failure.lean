import FormulaLang.Token
import FormulaLang.TypeInfo

/-!
What can go wrong with a formula, and the report of it.  A `Failure` says at which stage it arose
and for which `Cause`; on its way out it is given the text of the innermost expression concerned
and, when solving, the inputs.
-/

namespace FormulaLang

inductive Cause where
  -- reading an expression
  | unexpectedSymbol (symbol : Char) (offset : Nat)
  | expectedVariable (found : Option Char)
  | malformedNumber (text : String)
  | unterminatedGroup
  | unterminatedMagnitude
  | emptyFormula
  | missingLeftOperand (op : Operation)
  | missingRightOperand (op : Operation)
  | notUnary (op : Operation)
  | operandTaken (token : Token)
  -- reading a specification
  | expectedParameters
  | missingTypeName (parameter : String)
  | repeatedVariable (name : String)
  | unexpectedInVariables (symbol : Char)
  | unterminatedVariables
  | trailingText (rest : String)
  | unknownType (name : String)
  | ambiguousType (name : String) (candidates : List String)
  -- composing declarations
  | nothingToCompose
  | unnamedDeclaration
  | declaredParameters (declaration : String)
  -- the shape of a tree
  | notAValue (name : String)
  | unexpandedGroup
  | missingOperand
  | expectedName (found : Token)
  -- variables and inputs
  | unboundVariable (name : String)
  | unknownVariable (name : String)
  | missingInput (name : String)
  | tooFewInputs (expected given : Nat)
  | tooManyInitial (given expected : Nat)
  | input (name : String) (cause : Cause)
  | initialInput (name : String) (cause : Cause)
  -- operators
  | cannotConvert (source target : TypeInfo)
  | unableToConvert (type : String) (target : TypeInfo)
  | unableToApply (op : Operation) (left right : TypeInfo)
  | unsupportedOperator (op : Operation)
  | noCoercion (op : Operation) (left right : TypeInfo)
  | unableToNegate (type : TypeInfo)
  -- access
  | notIndexable (type : TypeInfo)
  | nonNumericIndex (type : TypeInfo)
  | indexOutOfRange (position : Float) (size : Nat)
  | missingKey (key : String)
  | missingEntry (type key : String)
  | missingMember (member owner : String)
  | ambiguousMember (member : String) (owner : TypeInfo) (candidates : List String)
  | deferredMember (member : String) (owner : TypeInfo)
  | expectedMap (found : TypeInfo)
  | expectedHost (found : TypeInfo)
  -- transforms
  | unknownTransform (name : String)
  | noTransformFor (name : String) (type : TypeInfo)
  | expectsNumber (transform : String) (found : TypeInfo)
  | expectedSequence (found : TypeInfo)
  | nonNumericComponent (found : TypeInfo)
  | noLength (type : TypeInfo)
  | expectsStrings
  /-- A cause in the words of a host application. -/
  | custom (message : String)
deriving Repr

namespace Cause

def message : Cause → String
  | unexpectedSymbol c offset =>
      "Unexpected symbol '" ++ String.singleton c ++ "' at offset " ++ toString offset
  | expectedVariable (some c) => "Expected a variable, found '" ++ String.singleton c ++ "'"
  | expectedVariable none => "Expected a variable, found end of input"
  | malformedNumber text => "Unable to convert '" ++ text ++ "' to a number"
  | unterminatedGroup => "Unterminated group, expected ')'"
  | unterminatedMagnitude => "Unterminated magnitude, expected '|'"
  | emptyFormula => "Empty formula"
  | missingLeftOperand op => "'" ++ op.symbol ++ "' is missing its left operand"
  | missingRightOperand op =>
      let symbol := if op = .transform then "function application" else op.symbol
      "'" ++ symbol ++ "' is missing its right operand"
  | notUnary op => "'" ++ op.symbol ++ "' is not a unary operation"
  | operandTaken token => token.describe ++ " already has a right operand"
  | expectedParameters => "Expected '(' after the formula name"
  | missingTypeName v => "Missing type name for variable '" ++ v ++ "'"
  | repeatedVariable v => "Variable '" ++ v ++ "' is declared more than once"
  | unexpectedInVariables c => "Unexpected '" ++ String.singleton c ++ "' in variable list"
  | unterminatedVariables => "Unterminated variable list"
  | trailingText rest => "Unexpected '" ++ rest ++ "' after the variable list"
  | unknownType name => "Unknown type '" ++ name ++ "'"
  | ambiguousType name candidates =>
      "Type '" ++ name ++ "' is ambiguous between " ++ ", ".intercalate candidates
  | nothingToCompose => "Nothing to compose"
  | unnamedDeclaration => "Declaration has no name"
  | declaredParameters name => "Declaration '" ++ name ++ "' must not declare parameters"
  | notAValue name => "'" ++ name ++ "' is not a value"
  | unexpandedGroup => "Unexpanded group"
  | missingOperand => "Operator is missing an operand"
  | expectedName token => "Expected a name, found " ++ token.describe
  | unboundVariable name => "Unbound variable '" ++ name ++ "'"
  | unknownVariable name => "Unknown variable '" ++ name ++ "'"
  | missingInput name => "Missing input '" ++ name ++ "'"
  | tooFewInputs expected given =>
      "Expected " ++ toString expected ++ " inputs, got " ++ toString given
  | tooManyInitial given expected =>
      toString given ++ " initial inputs given for " ++ toString expected ++ " variables"
  | input name cause => "Input '" ++ name ++ "': " ++ cause.message
  | initialInput name cause => "Initial input '" ++ name ++ "': " ++ cause.message
  | cannotConvert source target => "Cannot convert " ++ source.name ++ " to " ++ target.name
  | unableToConvert type target => "Unable to convert " ++ type ++ " to " ++ target.name
  | unableToApply op left right =>
      "Unable to " ++ op.name ++ " " ++ left.name ++ " and " ++ right.name
  | unsupportedOperator op => "Unsupported operator " ++ op.name
  | noCoercion op left right =>
      "No coercion between " ++ left.name ++ " and " ++ right.name ++ " for " ++ op.name
  | unableToNegate type => "Unable to negate " ++ type.name
  | notIndexable type => type.name ++ " cannot be indexed"
  | nonNumericIndex type => "Sequence index must be numeric, got " ++ type.name
  | indexOutOfRange position size =>
      "Index " ++ Decimal.text position ++ " is out of range for a sequence of " ++ toString size
  | missingKey key => "Key '" ++ key ++ "' does not exist on Map"
  | missingEntry type key => type ++ " has no entry for " ++ key
  | missingMember member owner => "Member '" ++ member ++ "' does not exist on " ++ owner
  | ambiguousMember member owner candidates =>
      "Member '" ++ member ++ "' is ambiguous on " ++ owner.name ++ ": "
        ++ ", ".intercalate candidates
  | deferredMember member owner =>
      "Member '" ++ member ++ "' cannot be resolved on " ++ owner.name
  | expectedMap found => "Expected a Map, got " ++ found.name
  | expectedHost found => "Expected a host value, got " ++ found.name
  | unknownTransform name => "Unknown transform '" ++ name ++ "'"
  | noTransformFor name type => "No overload of '" ++ name ++ "' accepts " ++ type.name
  | expectsNumber transform found => transform ++ " expects a Number, got " ++ found.name
  | expectedSequence found => "Expected a Sequence, got " ++ found.name
  | nonNumericComponent found => "Expected numeric components, got " ++ found.name
  | noLength type => type.name ++ " has no length"
  | expectsStrings => "String concatenation expects strings"
  | custom message => message

end Cause

/-- The names of the inputs with the texts of their values, in input order. -/
abbrev Snapshot := List (String × String)

/-- A refused formula: the stage, the cause, the expression concerned and, for a formula that was
being solved, the inputs. -/
inductive Failure where
  | parse (cause : Cause) (expression : Option String)
  | compile (cause : Cause) (expression : Option String)
  | solve (cause : Cause) (expression : Option String) (bindings : Option Snapshot)
deriving Repr

namespace Failure

def reading (cause : Cause) : Failure :=
  parse cause none

def compiling (cause : Cause) : Failure :=
  compile cause none

def solving (cause : Cause) : Failure :=
  solve cause none none

def stage : Failure → String
  | parse .. => "parse"
  | compile .. => "compile"
  | solve .. => "solve"

def cause : Failure → Cause
  | parse cause _ | compile cause _ | solve cause _ _ => cause

def message (e : Failure) : String :=
  e.cause.message

def expression? : Failure → Option String
  | parse _ expression | compile _ expression | solve _ expression _ => expression

def bindings? : Failure → Option Snapshot
  | solve _ _ bindings => bindings
  | _ => none

/-- Names the expression concerned, unless an inner one has been named. -/
def within (text : String) : Failure → Failure
  | parse cause expression => parse cause (expression.or (some text))
  | compile cause expression => compile cause (expression.or (some text))
  | solve cause expression bindings => solve cause (expression.or (some text)) bindings

/-- Records the inputs of a formula that was being solved, unless they have been recorded. -/
def withBindings (snapshot : Snapshot) : Failure → Failure
  | solve cause expression bindings => solve cause expression (bindings.or (some snapshot))
  | e => e

/-- The whole report.  An empty list of inputs is left out. -/
def report (e : Failure) : String :=
  let stage :=
    match e with
    | parse .. => "Parse"
    | compile .. => "Compile"
    | solve .. => "Solve"
  let place :=
    match e.expression? with
    | some text => " in '" ++ text ++ "'"
    | none => ""
  let inputs :=
    match e.bindings? with
    | none | some [] => ""
    | some bindings =>
        " with " ++ ", ".intercalate (bindings.map fun (name, value) => name ++ " = " ++ value)
  stage ++ " error: " ++ e.message ++ place ++ inputs

end Failure

/-! ## Results -/

variable {ε δ α β : Type}

theorem bind_ok_iff {x : Except ε α} {f : α → Except ε β} {b : β} :
    x >>= f = .ok b ↔ ∃ a, x = .ok a ∧ f a = .ok b := by
  cases x with
  | ok a => exact ⟨fun h => ⟨a, rfl, h⟩, fun ⟨a', same, h⟩ => by cases same; exact h⟩
  | error e => exact ⟨nofun, fun ⟨_, h, _⟩ => by cases h⟩

-- A value that two steps return comes from one that the first returns.
theorem ok_of_bind {x : Except ε α} {f : α → Except ε β} {b : β}
    (h : x >>= f = .ok b) : ∃ a, x = .ok a ∧ f a = .ok b :=
  bind_ok_iff.mp h

-- Two steps fail when the first one does, or the second with what the first returns.
theorem error_of_bind {x : Except ε α} {f : α → Except ε β} {e : ε}
    (h : x >>= f = .error e) : x = .error e ∨ ∃ a, x = .ok a ∧ f a = .error e := by
  cases x with
  | error e' =>
    cases h
    exact .inl rfl
  | ok a => exact .inr ⟨a, rfl, h⟩

theorem mapError_ok_iff {x : Except ε α} {f : ε → δ} {a : α} :
    x.mapError f = .ok a ↔ x = .ok a := by
  cases x with
  | ok b => exact ⟨fun h => congrArg Except.ok (Except.ok.inj h), fun h => h ▸ rfl⟩
  | error e => exact ⟨nofun, nofun⟩

-- A failure that is changed is no value.
theorem ok_of_mapError {x : Except ε α} {f : ε → δ} {a : α}
    (h : x.mapError f = .ok a) : x = .ok a :=
  mapError_ok_iff.mp h

theorem error_of_mapError {x : Except ε α} {f : ε → δ} {d : δ} (h : x.mapError f = .error d) :
    ∃ e, x = .error e ∧ d = f e := by
  cases x with
  | error e => exact ⟨e, rfl, (Except.error.inj h).symm⟩
  | ok a => cases h

-- A value that is changed comes from a value.
theorem ok_of_map {x : Except ε α} {f : α → β} {b : β}
    (h : x.map f = .ok b) : ∃ a, x = .ok a ∧ f a = b := by
  cases x with
  | error e => cases h
  | ok a => exact ⟨a, rfl, Except.ok.inj h⟩

theorem error_of_map {x : Except ε α} {f : α → β} {e : ε} (h : x.map f = .error e) :
    x = .error e := by
  cases x with
  | error e' =>
    cases h
    rfl
  | ok a => cases h

theorem ok_of_toOption {x : Except ε α} {a : α} (h : x.toOption = some a) : x = .ok a := by
  cases x with
  | error e => cases h
  | ok b => exact congrArg Except.ok (Option.some.inj h)

end FormulaLang
