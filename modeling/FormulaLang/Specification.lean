import FormulaLang.Cursor
import FormulaLang.Tree
import FormulaLang.TypeRegistry

/-!
Specifications: the name of a formula and its variables with their types.  A specification is
declared in front of a formula, as in `f(x, y: number)`, or inferred from the variables that the
expression uses.
-/

namespace FormulaLang

/-- The name of a formula and its parameters: the variables with their types, in the order of the
inputs. -/
structure Specification where
  name : String
  parameters : Keyed String TypeInfo
  /-- Whether it was declared rather than inferred. -/
  explicit : Bool
  parameters_nodup : (Keyed.keys parameters).Nodup

namespace Specification

/-- A declared specification without variables. -/
def named (name : String) : Specification :=
  ⟨name, [], true, List.nodup_nil⟩

def variableNames (s : Specification) : List String :=
  Keyed.keys s.parameters

def arity (s : Specification) : Nat :=
  s.parameters.length

def isEmpty (s : Specification) : Bool :=
  s.parameters.isEmpty

def type? (s : Specification) (name : String) : Option TypeInfo :=
  s.parameters.lookup name

/-- The place of a variable among the inputs. -/
def position? (s : Specification) (name : String) : Option Nat :=
  s.variableNames.findIdx? (· == name)

/-- Declares one more variable, which must be new. -/
def declare (s : Specification) (name : String) (type : TypeInfo) :
    Except Failure Specification :=
  if name ∈ s.variableNames then
    .error (.reading (.repeatedVariable name))
  else
    .ok { s with
      parameters := Keyed.insertNew name type s.parameters
      parameters_nodup := Keyed.nodup_keys_insertNew name type s.parameters_nodup }

/-- Adds a variable of unknown type unless it is there. -/
def mention (s : Specification) (name : String) : Specification :=
  { s with
    parameters := Keyed.insertNew name .any s.parameters
    parameters_nodup := Keyed.nodup_keys_insertNew name .any s.parameters_nodup }

/-- A specification as text.  A variable of type `Any` is written without its type. -/
def text (s : Specification) : String :=
  if s.parameters.isEmpty then
    s.name
  else
    let one : String × TypeInfo → String
      | (name, .any) => name
      | (name, type) => name ++ ": " ++ type.name
    s.name ++ "(" ++ ", ".intercalate (s.parameters.map one) ++ ")"

/-! ## Reading -/

def readType {H : Type} (types : TypeRegistry H) (variableName : String) (c : Cursor) :
    Except Failure TypeInfo × Cursor :=
  let c := c.skipBlanks
  if c.peek? = some ':' then
    let (name, c) := c.step.skipBlanks.typeName
    if name.isEmpty then
      (.error (.reading (.missingTypeName variableName)), c)
    else
      ((types.find name).mapError Failure.reading, c)
  else
    (.ok .any, c)

/-- Reads at most `count` variables up to the `)` after them. -/
def readVariables {H : Type} (types : TypeRegistry H) :
    Nat → Specification → Cursor → Except Failure (Specification × Cursor)
  | 0, _, _ => .error (.reading (.expectedVariable none))
  | count + 1, s, c => do
      let c := c.skipBlanks
      if c.peek? = some ')' then
        return (s, c.step)
      let (name, c) := c.variableName
      let name ← name
      let (type, c) := readType types name c
      let s ← s.declare name (← type)
      let c := c.skipBlanks
      match c.peek? with
      | some ',' => readVariables types count s c.step
      | some ')' => return (s, c.step)
      | some other => throw (.reading (.unexpectedInVariables other))
      | none => throw (.reading .unterminatedVariables)

def read {H : Type} (types : TypeRegistry H) (text : String) : Except Failure Specification := do
  let (name, c) := (Cursor.ofText text).skipBlanks.name
  let c := c.skipBlanks
  match c.peek? with
  | none => return named name
  | some '(' =>
      -- each variable takes a character, and the closing parenthesis one more
      let (s, c) ← readVariables types (text.length + 1) (named name) c.step
      let c := c.skipBlanks
      if c.isFinished then
        return s
      throw (.reading (.trailingText (Text.trim c.remaining)))
  | some _ => throw (.reading .expectedParameters)

/-- Reads a declared specification; a failure names the text. -/
def parse {H : Type} (text : String) (types : TypeRegistry H) : Except Failure Specification :=
  (read types text).mapError (Failure.within (Text.trim text))

/-! ## Inference -/

/-- Whether a node stands where a value is read: alone, as an operand of arithmetic, negation or
power, as either operand of an index, as the owner of a member or as the argument of a
function. -/
def isOperand (t : Tree) (root id : NodeId) : Bool :=
  match t.parent? id with
  | none => true
  | some parent =>
      if id = root then
        true
      else
        match t.operation? parent with
        | some .index => true
        | some .property => t.left? parent == some id
        | some .transform => t.right? parent == some id
        | some _ => true
        | none => false

/-- The variables of an expression, in the order in which they first appear. -/
def infer (t : Tree) (root : NodeId) : Specification :=
  (t.postOrder root).foldl
    (fun s id =>
      match t.token? id with
      | some (.var name) => if isOperand t root id then s.mention name else s
      | _ => s)
    ⟨"", [], false, List.nodup_nil⟩

end Specification

end FormulaLang
