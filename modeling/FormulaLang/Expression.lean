import FormulaLang.Builder
import FormulaLang.Reduction
import FormulaLang.Scan

/-!
Reading an expression: its tokens are placed one by one, the raw groups in it are read in turn,
and the reduced tree is made compact.
-/

namespace FormulaLang.Expression

/-- The tree of a text before any reduction.  The first token that cannot be read or has no place
is the one reported. -/
def build (text : String) : Except Failure Tree := do
  let scan := Scan.ofText text
  let builder ← Builder.empty.pushAll scan.tokens
  match scan.failure? with
  | some e => throw e
  | none => builder.finish

/-- Reads a text inside which raw text is nested at most `depth` deep.  The text without
characters is the only one of depth zero. -/
def parseWithin : Nat → String → Except Failure Tree
  | 0, text => .error (Failure.within (Text.trim text) (.reading .emptyFormula))
  | depth + 1, text =>
      (do
        let t ← build text
        let (root, t) := t.reduce (parseWithin depth) Tree.first
        return t.compact (← root)).mapError (Failure.within (Text.trim text))

/-- The reduced, compact tree of a text.  Raw text is shorter than the text around it, so nesting
is no deeper than the text is long. -/
def parse (text : String) : Except Failure Tree :=
  parseWithin text.length text

/-- Reduces the part below a node, reading raw text as expressions. -/
def reduce (t : Tree) (id : NodeId) : Except Failure NodeId × Tree :=
  t.reduce parse id

/-- Splits a formula at its first `=` into the declaration before it, if there is one, and the
expression. -/
def splitDeclaration (source : String) : Option String × String :=
  let cs := source.toList
  match cs.dropWhile (· ≠ '=') with
  | [] => (none, source)
  | _ :: expression => (some (String.ofList (cs.takeWhile (· ≠ '='))), String.ofList expression)

end FormulaLang.Expression
