import FormulaLang.Tree

/-!
Building a tree token by token.  Each token is placed relative to the one before it: an operator
climbs past the ancestors that bind at least as tightly and takes the place of the last of them,
so that operators of one level group from the left.  Adjacent operands are multiplied, and a
group or magnitude after a name or variable is the argument of a function.
-/

namespace FormulaLang

/-- A tree under construction and the node placed last. -/
structure Builder where
  tree : Tree
  last? : Option NodeId
deriving Repr

namespace Builder

def empty : Builder :=
  ⟨.empty, none⟩

/-- Climbs at most `count` links past ancestors that bind at least as tightly as `op`. -/
def climb (t : Tree) (op : Operation) : Nat → NodeId → NodeId
  | 0, id => id
  | count + 1, id =>
      match t.parent? id with
      | none => id
      | some parent =>
          match t.operation? parent with
          | some ancestor =>
              if op.precedence ≤ ancestor.precedence then climb t op count parent else id
          | none => id

/-- Gives an operator its right operand.  A `-` without a left operand negates; no other operator
can do without one. -/
def attach (operator operand : NodeId) : Edit Unit := do
  let t ← get
  match t.left? operator, t.operation? operator with
  | none, some .subtract => set (t.setToken operator (.operator .negate))
  | none, some .negate => pure ()
  | none, some op => throw (.reading (.notUnary op))
  | _, _ => pure ()
  Edit.surgery fun t => t.append operator operand

/-- Places the operator at `current` after `last`.  Where an operand is awaited only a `-` can
stand, and it negates. -/
def placeOperator (last current : NodeId) (op : Operation) : Edit Unit := do
  let t ← get
  if t.isAwaiting last then
    if op = .subtract ∨ op = .negate then
      set (t.setToken current (.operator .negate))
      attach last current
    else
      throw (.reading (.missingLeftOperand op))
  else
    set (t.usurp current (climb t op t.size last))

/-- Places the operand at `current` after `last` by way of a new operator between them. -/
def placeWith (op : Operation) (last current : NodeId) : Edit Unit := do
  let t ← get
  let between := t.size
  set (t.add (.operator op))
  placeOperator last between op
  attach between current

/-- Places the operand at `current` after `last`, multiplying when none is awaited. -/
def placeOperand (last current : NodeId) : Edit Unit := do
  if (← get).isAwaiting last then attach last current else placeWith .multiply last current

/-- Whether a node is an operand of an access. -/
def isUnderAccess (t : Tree) (id : NodeId) : Bool :=
  ((t.parent? id).bind t.operation?).any Operation.isAccess

/-- Whether a node is an access that awaits its key. -/
def awaitsKey (t : Tree) (id : NodeId) : Bool :=
  t.isAwaiting id && (t.operation? id).any Operation.isAccess

/-- Places the text at `current` after `last`, and tells which node is now the last.  Texts in a
row after an access make up one name, and the first of them is a name even if it was read as a
variable. -/
def placeText (last current : NodeId) (text : String) : Edit NodeId := do
  let t ← get
  match t.token? last, isUnderAccess t last with
  | some (.name earlier), true =>
      set (t.setToken last (.name (earlier ++ text)))
      return last
  | _, _ =>
      if awaitsKey t last then
        set (t.setToken current (.name text))
      placeOperand last current
      return current

/-- Places the token at `current` after `last`, and tells which node is now the last. -/
def place (last current : NodeId) : Token → Edit NodeId
  | .operator op => do
      placeOperator last current op
      return current
  | .group _ | .magnitude _ => do
      if ((← get).token? last).any Token.isText then
        placeWith .transform last current
      else
        placeOperand last current
      return current
  | .var text | .name text => placeText last current text
  | .number _ => do
      placeOperand last current
      return current

def start (t : Tree) (current : NodeId) : Token → Tree
  | .operator .subtract => t.setToken current (.operator .negate)
  | _ => t

/-- Places a token.  A token that has no place is left without links, and the builder goes on from
the node placed before it. -/
def push (b : Builder) (token : Token) : Except Failure Unit × Builder :=
  let current := b.tree.size
  let t := b.tree.add token
  match b.last? with
  | none => (.ok (), ⟨start t current token, some current⟩)
  | some last =>
      match (place last current token).apply t with
      | (.ok last, t) => (.ok (), ⟨t, some last⟩)
      | (.error e, t) => (.error e, ⟨t, some last⟩)

def pushAll (b : Builder) : List Token → Except Failure Builder
  | [] => .ok b
  | token :: rest =>
      match b.push token with
      | (.ok (), b) => b.pushAll rest
      | (.error e, _) => .error e

/-- What an operator lacks, if anything. -/
def lacks? (n : Node) : Option Cause :=
  match n.token with
  | .operator op =>
      if n.right?.isNone then some (.missingRightOperand op)
      else if op ≠ .negate ∧ n.left?.isNone then some (.notUnary op)
      else none
  | _ => none

/-- Ends the building: every operator must have its operands, and the tree is made compact. -/
def finish (b : Builder) : Except Failure Tree :=
  match b.last? with
  | none => .error (.reading .emptyFormula)
  | some last =>
      let root := b.tree.top last
      match (b.tree.postOrder root).findSome? fun id => (b.tree.node? id).bind lacks? with
      | some cause => .error (.reading cause)
      | none => .ok (b.tree.compact root)

end Builder

end FormulaLang
