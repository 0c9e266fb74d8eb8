import FormulaLang.Compilation
import FormulaLang.Expression

/-!
Formulas: an expression with its specification.  A formula can be put together from declarations,
solved by its tree, compiled, and given its first inputs.
-/

namespace FormulaLang

/-- A specification and the reduced, compact tree of an expression. -/
structure Formula where
  specification : Specification
  tree : Tree

namespace Formula

def term (f : Formula) : Term :=
  f.tree.term Tree.first

/-- The name; empty when none is declared. -/
def name (f : Formula) : String :=
  f.specification.name

def arity (f : Formula) : Nat :=
  f.specification.arity

def expression (f : Formula) : String :=
  f.term.text

/-- A formula as text; an inferred specification is left out. -/
def text (f : Formula) : String :=
  if f.specification.explicit then f.specification.text ++ " = " ++ f.expression
  else f.expression

/-! ## Reading -/

/-- The specification of a tree: as declared, or else as inferred. -/
def specify {H : Type} (types : TypeRegistry H) (declared? : Option String) (t : Tree) :
    Except Failure Formula :=
  match declared? with
  | some text => (Specification.parse text types).map fun s => ⟨s, t⟩
  | none => .ok ⟨Specification.infer t Tree.first, t⟩

/-- Reads a formula, the expression before the specification. -/
def parse {H : Type} (source : String) (types : TypeRegistry H) : Except Failure Formula := do
  let (declared?, expression) := Expression.splitDeclaration source
  let t ← Expression.parse expression
  specify types declared? t

/-- Reads a declaration: a name without parameters and its expression. -/
def parseDeclaration {H : Type} (source : String) (types : TypeRegistry H) :
    Except Failure (String × Tree) := do
  let refuse (cause : Cause) : Except Failure Unit :=
    throw (Failure.within (Text.trim source) (.reading cause))
  match Expression.splitDeclaration source with
  | (none, _) =>
      throw (Failure.within (Text.trim source) (.reading .unnamedDeclaration))
  | (some declared, expression) =>
      let s ← Specification.parse declared types
      if s.name.isEmpty then refuse .unnamedDeclaration
      if !s.isEmpty then refuse (.declaredParameters s.name)
      let t ← Expression.parse expression
      return (s.name, t)

/-- Puts a copy of `sub` in the place of every variable `name` below `root`, and tells what is now
the root. -/
def substitute (t : Tree) (root : NodeId) (name : String) (sub : Tree) : Tree × NodeId :=
  (t.postOrder root).foldl
    (fun (t, root) id =>
      match t.token? id with
      | some (.var v) =>
          if v = name then
            let copy := t.size
            ((t.graft sub Tree.first).replace copy id, if id = root then copy else root)
          else
            (t, root)
      | _ => (t, root))
    (t, root)

def substituteAll {H : Type} (types : TypeRegistry H) :
    List String → Tree × NodeId → Except Failure (Tree × NodeId)
  | [], result => .ok result
  | source :: rest, (t, root) => do
      let (name, sub) ← parseDeclaration source types
      substituteAll types rest (substitute t root name sub)

/-- Composes declarations into the last source.  The last declaration is put in first, so that
each may use those before it; then the tree is reduced once more. -/
def compose {H : Type} (sources : List String) (types : TypeRegistry H) :
    Except Failure Formula :=
  match sources.reverse with
  | [] => .error (.reading .nothingToCompose)
  | last :: declarations => do
      let (declared?, expression) := Expression.splitDeclaration last
      let t ← Expression.parse expression
      let (t, root) ← substituteAll types declarations (t, Tree.first)
      let (root, t) := Expression.reduce t root
      specify types declared? (t.compact (← root))

/-! ## Solving -/

variable {H : Type} [HostObject H]

def solve (env : Environment H) (f : Formula) (inputs : List (Value H)) : Solve H (Value H) :=
  f.term.solve env f.specification inputs

/-- Compiles a formula with its first inputs fixed. -/
def compile (env : Environment H) (f : Formula) (initial : List (Value H)) :
    Solve H (FastFormula H) := do
  let c ← Solve.ofExcept (CompilerInput.prepare env f.specification initial)
  let compiled ← f.term.compile c
  return ⟨compiled.code, f.specification.parameters.drop initial.length, f.expression⟩

end Formula

/-- A formula with its first inputs fixed, to be solved by its tree. -/
structure BoundFormula (H : Type) where
  formula : Formula
  initial : List (Value H)

namespace BoundFormula

variable {H : Type} [HostObject H]

def arity (b : BoundFormula H) : Nat :=
  b.formula.arity - b.initial.length

def solve (env : Environment H) (b : BoundFormula H) (inputs : List (Value H)) :
    Solve H (Value H) :=
  b.formula.solve env (b.initial ++ inputs)

end BoundFormula

end FormulaLang
