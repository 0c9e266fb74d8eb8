import FormulaLang.Builder

/-!
The right edge of a tree under construction.  All that matters for placing the next token are the
operators between the token placed last and the root, each with its left operand.  A spine is this
edge as plain data; it says what each token does to it and which tokens are refused.
-/

namespace FormulaLang

namespace Term

/-- What the operator at the root lacks, if anything. -/
def ownLack? : Token → Term → Term → Option Cause
  | .operator op, _, absent => some (.missingRightOperand op)
  | .operator op, absent, node .. => if op = .negate then none else some (.notUnary op)
  | _, _, _ => none

/-- What an operator of the term lacks; operands are looked at before their operator. -/
def lack? : Term → Option Cause
  | absent => none
  | node token left right => left.lack?.or (right.lack?.or (ownLack? token left right))

end Term

/-- An operator that waits for its right operand to be complete, with its left operand. -/
structure Pending where
  op : Operation
  left : Term

/-- The operators above the token placed last, the next one first, and this token unless it is the
first of these operators itself. -/
structure Spine where
  pending : List Pending
  operand? : Option Token

namespace Spine

/-- Completes the operators that bind at least as tightly as `op`. -/
def climb (op : Operation) : List Pending → Term → List Pending × Term
  | [], t => ([], t)
  | f :: rest, t =>
      if op.precedence ≤ f.op.precedence then climb op rest (.node (.operator f.op) f.left t)
      else (f :: rest, t)

/-- Whether the first operator can take a right operand. -/
def ready : List Pending → Except Failure Unit
  | ⟨op, .absent⟩ :: _ => if op = .negate then .ok () else .error (.reading (.notUnary op))
  | _ => .ok ()

/-- Places an operator. -/
def placeOperator (s : Spine) (op : Operation) : Except Failure Spine :=
  match s.operand? with
  | none =>
      if op = .subtract ∨ op = .negate then
        (ready s.pending).map fun _ => ⟨⟨.negate, .absent⟩ :: s.pending, none⟩
      else
        .error (.reading (.missingLeftOperand op))
  | some token =>
      let (pending, t) := climb op s.pending (.leaf token)
      .ok ⟨⟨op, t⟩ :: pending, none⟩

/-- Places an operand, by way of an operator `between` when none is awaited. -/
def placeOperand (s : Spine) (token : Token) (between : Operation) : Except Failure Spine :=
  match s.operand? with
  | none => (ready s.pending).map fun _ => { s with operand? := some token }
  | some _ => (s.placeOperator between).map fun s => { s with operand? := some token }

/-- Whether the first operator is an access. -/
def isUnderAccess (s : Spine) : Bool :=
  s.pending.head?.any fun f => f.op.isAccess

/-- Places a text. -/
def placeText (s : Spine) (token : Token) (text : String) : Except Failure Spine :=
  match s.operand?, s.isUnderAccess with
  | some (.name earlier), true => .ok { s with operand? := some (.name (earlier ++ text)) }
  | none, true => s.placeOperand (.name text) .multiply
  | _, _ => s.placeOperand token .multiply

/-- Places a token. -/
def place (s : Spine) (token : Token) : Except Failure Spine :=
  match token with
  | .operator op => s.placeOperator op
  | .group _ | .magnitude _ =>
      s.placeOperand token (if s.operand?.any Token.isText then .transform else .multiply)
  | .var text | .name text => s.placeText token text
  | .number _ => s.placeOperand token .multiply

/-- The first token. -/
def start : Token → Spine
  | .operator .subtract => ⟨[⟨.negate, .absent⟩], none⟩
  | .operator op => ⟨[⟨op, .absent⟩], none⟩
  | token => ⟨[], some token⟩

/-- Places tokens up to the first that is refused. -/
def run (s : Spine) : List Token → Except Failure Spine
  | [] => .ok s
  | token :: rest => do (← s.place token).run rest

/-- Completes every operator. -/
def close : List Pending → Term → Term
  | [], t => t
  | f :: rest, t => close rest (.node (.operator f.op) f.left t)

/-- The term of which the spine is the right edge. -/
def whole (s : Spine) : Term :=
  close s.pending (s.operand?.elim .absent Term.leaf)

/-- Ends the building. -/
def finish (s : Spine) : Except Failure Tree :=
  match s.whole.lack? with
  | some cause => .error (.reading cause)
  | none => .ok (Tree.empty.plant s.whole)

/-- Builds a tree of tokens. -/
def build : List Token → Except Failure Tree
  | [] => .error (.reading .emptyFormula)
  | token :: rest => do ((start token).run rest) >>= finish

end Spine

end FormulaLang
