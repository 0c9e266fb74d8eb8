import FormulaLang.Tree

/-!
Reducing a tree: raw groups and magnitudes are expanded into the trees of their texts, and
operators over literals collapse into one literal.  Operands are reduced before their operator.
-/

namespace FormulaLang

namespace Reduction

/-- The function that a magnitude applies. -/
def magnitudeFunction : String := "abs"

/-- The number at a literal. -/
def literal? (t : Tree) (id? : Option NodeId) : Option Float :=
  match id?.bind t.token? with
  | some (.number x) => some x
  | _ => none

/-- The value of an operator over literals.  Access and application are never folded. -/
def fold? (t : Tree) (id : NodeId) (op : Operation) : Option Float :=
  if op = .negate then
    (literal? t (t.right? id)).bind fun x => op.onNumbers? 0 x
  else if op.isArithmetic ∨ op = .power then
    (literal? t (t.left? id)).bind fun x =>
      (literal? t (t.right? id)).bind fun y => op.onNumbers? x y
  else
    none

/-- Reduces the part below a node, at most `depth` nodes deep, and tells which node now has its
place.  `expand` reads raw text. -/
def reduceWithin (expand : String → Except Failure Tree) : Nat → NodeId → Edit NodeId
  | 0, id => return id
  | depth + 1, id => do
      if let some left := (← get).left? id then
        let _ ← reduceWithin expand depth left
      if let some right := (← get).right? id then
        let _ ← reduceWithin expand depth right
      let t ← get
      match t.token? id with
      | some (.group raw) =>
          let inside ← Edit.ofExcept (expand raw)
          let copy := t.size
          set ((t.graft inside Tree.first).replace copy id)
          return copy
      | some (.magnitude raw) =>
          let inside ← Edit.ofExcept (expand raw)
          let copy := t.size
          let t := t.graft inside Tree.first
          let application := t.size
          let function := application + 1
          let t := (t.add (.operator .transform)).add (.name magnitudeFunction)
          set ((t.replace application id).setLeft application function)
          Edit.surgery fun t => t.append application copy
          return application
      | some (.operator op) =>
          if let some x := fold? t id op then
            set (t.collapse id (.number x))
          return id
      | _ => return id

end Reduction

namespace Tree

/-- Reduces the part below a node.  Returns the node that now has its place, or the failure to
read a raw text, and the changed tree. -/
def reduce (t : Tree) (expand : String → Except Failure Tree) (id : NodeId) :
    Except Failure NodeId × Tree :=
  (Reduction.reduceWithin expand t.size id).apply t

end Tree

end FormulaLang
