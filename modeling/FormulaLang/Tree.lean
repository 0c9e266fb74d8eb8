import FormulaLang.Failure
import FormulaLang.Term

/-!
Trees under construction: nodes in an array, linked to their parents and operands.  Surgery only
changes links; a node that is cut out keeps its slot until the part below a root is copied into
a fresh tree.  The meaning of a tree below a node is the `Term` read along the links to operands.
-/

namespace FormulaLang

/-- A place in a tree. -/
abbrev NodeId := Nat

/-- A slot of a tree. -/
structure Node where
  token : Token
  parent? : Option NodeId
  left? : Option NodeId
  right? : Option NodeId
deriving DecidableEq, Repr

/-- Whether an operator still lacks its right operand. -/
def Node.isAwaiting (n : Node) : Bool :=
  n.token.operation?.isSome && n.right?.isNone

/-- The nodes of a copy of a term whose root goes to `id`, in the order node, left operand, right
operand. -/
def Term.nodesAt (parent? : Option NodeId) (id : NodeId) : Term → List Node
  | absent => []
  | node token left right =>
      let leftId := id + 1
      let rightId := leftId + left.size
      ⟨token, parent?,
        if left.size = 0 then none else some leftId,
        if right.size = 0 then none else some rightId⟩
        :: (left.nodesAt (some id) leftId ++ right.nodesAt (some id) rightId)

/-- A tree under construction. -/
structure Tree where
  nodes : Array Node
deriving DecidableEq, Repr

namespace Tree

def empty : Tree :=
  ⟨#[]⟩

def size (t : Tree) : Nat :=
  t.nodes.size

/-- The slot at a place. -/
def node? (t : Tree) (id : NodeId) : Option Node :=
  t.nodes[id]?

def token? (t : Tree) (id : NodeId) : Option Token :=
  (t.node? id).map Node.token

def operation? (t : Tree) (id : NodeId) : Option Operation :=
  (t.token? id).bind Token.operation?

/-- The node above. -/
def parent? (t : Tree) (id : NodeId) : Option NodeId :=
  (t.node? id).bind Node.parent?

def left? (t : Tree) (id : NodeId) : Option NodeId :=
  (t.node? id).bind Node.left?

def right? (t : Tree) (id : NodeId) : Option NodeId :=
  (t.node? id).bind Node.right?

/-- Whether the node at a place is an operator that lacks its right operand. -/
def isAwaiting (t : Tree) (id : NodeId) : Bool :=
  (t.node? id).any Node.isAwaiting

/-! ## Reading -/

/-- Follows at most `count` links to parents. -/
def topWithin (t : Tree) : Nat → NodeId → NodeId
  | 0, id => id
  | count + 1, id =>
      match t.parent? id with
      | some parent => t.topWithin count parent
      | none => id

def top (t : Tree) (id : NodeId) : NodeId :=
  t.topWithin t.size id

/-- The term below a node, at most `depth` nodes deep. -/
def termWithin (t : Tree) : Nat → NodeId → Term
  | 0, _ => .absent
  | depth + 1, id =>
      match t.node? id with
      | none => .absent
      | some n =>
          let operand : Option NodeId → Term
            | some child => t.termWithin depth child
            | none => .absent
          .node n.token (operand n.left?) (operand n.right?)

/-- The term below a node.  No branch of a tree is longer than the tree has nodes. -/
def term (t : Tree) (root : NodeId) : Term :=
  t.termWithin t.size root

/-- The nodes below a node, at most `depth` deep, operands first. -/
def postOrderWithin (t : Tree) : Nat → NodeId → List NodeId
  | 0, _ => []
  | depth + 1, id =>
      let below : Option NodeId → List NodeId
        | some child => t.postOrderWithin depth child
        | none => []
      below (t.left? id) ++ below (t.right? id) ++ [id]

/-- The nodes below a node and the node itself, operands first. -/
def postOrder (t : Tree) (root : NodeId) : List NodeId :=
  t.postOrderWithin t.size root

/-- Whether every operand below a node links back to the node it belongs to. -/
def isConsistent (t : Tree) (root : NodeId) : Bool :=
  (t.postOrder root).all fun id =>
    ((t.left? id).toList ++ (t.right? id).toList).all fun child => t.parent? child == some id

/-! ## Surgery -/

def modify (t : Tree) (id : NodeId) (f : Node → Node) : Tree :=
  ⟨t.nodes.modify id f⟩

/-- Adds a node without links; it is found at the former size. -/
def add (t : Tree) (token : Token) : Tree :=
  ⟨t.nodes.push ⟨token, none, none, none⟩⟩

def setToken (t : Tree) (id : NodeId) (token : Token) : Tree :=
  t.modify id fun n => { n with token }

def setParent (t : Tree) (id : NodeId) (parent? : Option NodeId) : Tree :=
  t.modify id fun n => { n with parent? }

/-- Makes `child` the left operand of `parent`. -/
def setLeft (t : Tree) (parent child : NodeId) : Tree :=
  (t.modify parent fun n => { n with left? := some child }).setParent child (some parent)

/-- Makes `child` the right operand of `parent`. -/
def setRight (t : Tree) (parent child : NodeId) : Tree :=
  (t.modify parent fun n => { n with right? := some child }).setParent child (some parent)

/-- Makes `child` the right operand of `parent`, which must not have one. -/
def append (t : Tree) (parent child : NodeId) : Except Failure Tree :=
  match t.node? parent with
  | some ⟨token, _, _, some _⟩ => .error (.reading (.operandTaken token))
  | _ => .ok (t.setRight parent child)

/-- Lets the operand link of `parent?` that leads to `old` lead to `new`. -/
def relink (t : Tree) (parent? : Option NodeId) (old new : NodeId) : Tree :=
  match parent? with
  | none => t
  | some parent =>
      t.modify parent fun n =>
        if n.left? = some old then { n with left? := some new }
        else if n.right? = some old then { n with right? := some new }
        else n

/-- Puts `id` in the place of `target`, which becomes its left operand. -/
def usurp (t : Tree) (id target : NodeId) : Tree :=
  let parent? := t.parent? target
  ((t.relink parent? target id).setParent id parent?).setLeft id target

/-- Puts `id` in the place of `target`, which is cut out. -/
def replace (t : Tree) (id target : NodeId) : Tree :=
  if id = target then
    t
  else
    let parent? := t.parent? target
    ((t.relink parent? target id).setParent id parent?).setParent target none

/-- Turns a node into a leaf and cuts out its operands. -/
def collapse (t : Tree) (id : NodeId) (token : Token) : Tree :=
  let cut : Tree → Option NodeId → Tree
    | t, some child => t.setParent child none
    | t, none => t
  let bare := t.modify id fun n => { n with token, left? := none, right? := none }
  cut (cut bare (t.left? id)) (t.right? id)

/-! ## Copies -/

/-- Adds a copy of a term; its root is found at the former size. -/
def plant (t : Tree) (term : Term) : Tree :=
  ⟨t.nodes ++ (term.nodesAt none t.size).toArray⟩

/-- Adds a copy of what `source` holds below `root`. -/
def graft (t source : Tree) (root : NodeId) : Tree :=
  t.plant (source.term root)

/-- The place of the root in a tree that holds one term and nothing else. -/
def first : NodeId := 0

/-- A fresh tree that holds what lies below `root`, with its root at `first`. -/
def compact (t : Tree) (root : NodeId) : Tree :=
  empty.plant (t.term root)

def text (t : Tree) (id : NodeId) : String :=
  (t.term id).text

def outline (t : Tree) (id : NodeId) : String :=
  (t.term id).outline

end Tree

/-! ## Edits -/

/-- A change of a tree that can fail; what was changed before the failure stays changed. -/
abbrev Edit := ExceptT Failure (StateM Tree)

namespace Edit

/-- A result that does not depend on the tree. -/
def ofExcept {α : Type} (r : Except Failure α) : Edit α :=
  ExceptT.mk (pure r)

/-- Surgery that can fail and changes nothing then. -/
def surgery (f : Tree → Except Failure Tree) : Edit Unit := do
  set (← ofExcept (f (← get)))

/-- What an edit makes of a tree. -/
def apply {α : Type} (m : Edit α) (t : Tree) : Except Failure α × Tree :=
  m.run.run t

end Edit

end FormulaLang
