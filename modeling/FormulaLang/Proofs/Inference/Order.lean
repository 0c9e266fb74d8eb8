import FormulaLang.Proofs.Inference.Counted
import FormulaLang.Proofs.Inference.Mentions
import FormulaLang.Proofs.Printing.Written

/-!
Inference follows the tokens.  The operands of a term that is built along a spine keep the order of
their tokens, and the side of the operator on which one ends up counts it exactly when the tokens in
front of it do.
-/

namespace FormulaLang

variable (inside : Bool → String → List String)

namespace Front

/-- Whether raw text counts if it is a single variable. -/
def counts (front : Front) : Bool :=
  front != member

/-- Where a single variable counts, or does not. -/
def ofCounts (counts : Bool) : Front :=
  if counts then value else member

theorem ofCounts_counts (front : Front) : ofCounts front.counts = front.inParentheses := by
  cases front <;> rfl

end Front

namespace Grammar

/-! ## Names -/

/-- The names of the variables of a token. -/
def namesOf (front : Front) : Token → List String
  | .var v => if front = .value then [v] else []
  | .group raw => inside front.counts raw
  | .magnitude raw => inside true raw
  | _ => []

/-- The names of the variables among tokens. -/
def namesAmong : Front → List Token → List String
  | _, [] => []
  | front, token :: rest => namesOf inside front token ++ namesAmong (front.behind token) rest

/-- The names of the variables among tokens in which the texts after an access are joined. -/
def namesJoined : Front → List Token → List String
  | _, [] => []
  | front, token :: rest =>
      namesOf inside front token ++ namesJoined (Front.value.behind token) rest

variable {inside} {tokens rest : List Token} {token : Token}

theorem behind_of_not_text (isText : token.isText = false) (front : Front) :
    front.behind token = Front.value.behind token := by
  cases token with
  | var | name => cases isText
  | operator op => cases op <;> rfl
  | _ => rfl

theorem behind_text (isText : token.isText = true) {front : Front} (other : front ≠ .value) :
    front.behind token = .key ∧ namesOf inside front token = [] := by
  cases token with
  | var v =>
      simp only [Front.behind, namesOf, if_neg other]
      exact ⟨trivial, trivial⟩
  | name v =>
      simp only [Front.behind, namesOf, if_neg other]
      exact ⟨trivial, trivial⟩
  | _ => cases isText

-- Joining texts leaves out no variable, since the texts that are joined are none.
theorem namesJoined_joinKeys (tokens : List Token) :
    namesJoined inside .value (joinKeys tokens) = namesAmong inside .value tokens ∧
      ∀ front, front ≠ .value →
        namesJoined inside front (joinAfter true tokens) = namesAmong inside front tokens := by
  induction tokens with
  | nil =>
      rw [joinKeys, joinAfter_nil]
      exact ⟨rfl, fun _ _ => rfl⟩
  | cons token rest ih =>
      obtain ⟨ihKeys, ihAfter⟩ := ih
      have behind : namesJoined inside (Front.value.behind token) (joinAfter token.isAccess rest)
          = namesAmong inside (Front.value.behind token) rest := by
        cases token with
        | operator op =>
            cases op <;> first | exact ihKeys | exact ihAfter _ (by decide)
        | _ => exact ihKeys
      refine ⟨?_, fun front other => ?_⟩
      · rw [joinKeys_cons, namesJoined, namesAmong, behind]
      · cases htext : token.text? with
        | none =>
            have isText : token.isText = false := by
              rw [Token.isText, htext]
              rfl
            rw [joinAfter_of_not_text isText, joinKeys_cons, namesJoined, namesAmong,
              behind_of_not_text isText front, behind]
        | some text =>
            have isText : token.isText = true := by
              rw [Token.isText, htext]
              rfl
            obtain ⟨key, silent⟩ : _ ∧ namesOf inside front token = [] := behind_text isText other
            have after := ihAfter .key (by decide)
            rw [namesAmong, silent, key, List.nil_append, ← after]
            rcases joinAfter_text_cons token htext rest with
              ⟨name, tail, same, joined⟩ | ⟨same, joined⟩
            · rw [same, joined]
              rfl
            · rw [same, joined]
              -- a variable that follows would have been joined
              show namesJoined inside .value (joinKeys rest) = _
              cases rest with
              | nil => rw [joinKeys]; rfl
              | cons next rest =>
                  rw [joinKeys_cons] at same ⊢
                  cases next with
                  | var v =>
                      rw [joinAfter_text rfl] at same
                      cases same
                  | _ => rfl

/-! ## One pass -/

/-- What is pending makes of the operand that is awaited what its first operator does. -/
def awaited : List Pending → Front
  | [] => .value
  | f :: _ => Front.value.behind (.operator f.op)

variable (inside) in
/-- The variables of the left operands that are pending. -/
def countedLeft : List Pending → List String
  | [] => []
  | f :: rest => countedLeft rest ++ f.left.counted inside (Token.operator f.op).countsLeft

variable {pending : List Pending} {op : Operation} {t u : Term} {x : Token}

theorem counts_behind (op : Operation) :
    (Front.value.behind (.operator op)).counts = (Token.operator op).countsRight := by
  cases op <;> rfl

-- An operation counts its operands wherever it stands.
theorem counted_operation (f : Pending) (counts : Bool) :
    (Term.node (.operator f.op) f.left u).counted inside counts
      = f.left.counted inside (Token.operator f.op).countsLeft
        ++ u.counted inside (Front.value.behind (.operator f.op)).counts := by
  rw [counts_behind]
  exact List.append_nil _

theorem counted_close (pending : List Pending) (u : Term) :
    (Spine.close pending u).counted inside true
      = countedLeft inside pending ++ u.counted inside (awaited pending).counts := by
  induction pending generalizing u with
  | nil => rfl
  | cons f rest ih =>
      rw [Spine.close, ih, countedLeft, counted_operation, List.append_assoc, awaited]

-- Every operator completes the access of a member, so its left operand counts as it stood.
theorem counted_climb (op : Operation) (pending : List Pending) (u : Term) :
    countedLeft inside (Spine.climb op pending u).1
        ++ (Spine.climb op pending u).2.counted inside true
      = countedLeft inside pending ++ u.counted inside (awaited pending).counts := by
  induction pending generalizing u with
  | nil => rfl
  | cons f rest ih =>
      rw [Spine.climb]
      split
      next => rw [ih, countedLeft, counted_operation, List.append_assoc, awaited]
      next above =>
        have counts : (awaited (f :: rest)).counts = true := by
          obtain ⟨other, left⟩ := f
          cases other <;> first | rfl | exact absurd op.precedence_le above
        rw [counts]

theorem counted_climb_name (op : Operation) (pending : List Pending)
    (silent : u.counted inside false = u.counted inside true) :
    (Spine.climb op pending u).2.counted inside false
      = (Spine.climb op pending u).2.counted inside true := by
  induction pending generalizing u with
  | nil => exact silent
  | cons f rest ih =>
      rw [Spine.climb]
      split
      next => exact ih rfl
      next => exact silent

variable (inside) in
/-- Passing over phrased tokens where an operand is awaited keeps the order of their variables. -/
def ReadsCounted (after : Bool) (tokens : List Token) : Prop :=
  ∀ pending t, (awaiting? pending).any Operation.isAccess = after →
    scan pending none (fill tokens) = some t →
    t.counted inside true
      = countedLeft inside pending ++ namesJoined inside (awaited pending) tokens

variable (inside) in
/-- Passing over phrased tokens behind an operand keeps the order of their variables. -/
def GoesOnCounted (tokens : List Token) : Prop :=
  ∀ pending u t x, x.isOperand = true → (x.isText = true → isCall tokens = false) →
    scan pending (some u) (fillAfter x tokens) = some t →
    t.counted inside true = countedLeft inside pending
      ++ u.counted inside (awaited pending).counts ++ namesJoined inside .value tokens

theorem goesOnCounted_nil : GoesOnCounted inside [] := by
  intro pending u t x hx uncalled read
  cases read
  rw [counted_close]
  exact (List.append_nil _).symm

theorem ReadsCounted.operator (binary : op.isBinary = true)
    (h : ReadsCounted inside op.isAccess tokens) :
    GoesOnCounted inside (.operator op :: tokens) := by
  intro pending u t x hx uncalled read
  have left : (Token.operator op).countsLeft = true := by
    cases op <;> first | rfl | cases binary
  rw [fillAfter_to_operator] at read
  rw [h _ t rfl read, countedLeft, left, counted_climb]
  rfl

-- The product of two operands in a row counts both.
theorem ReadsCounted.operand {y : Token} (operand : y.isOperand = true)
    (h : ReadsCounted inside false (y :: tokens)) : GoesOnCounted inside (y :: tokens) := by
  intro pending u t x hx uncalled read
  rw [fillAfter_multiply hx operand uncalled] at read
  have counted := h _ t rfl read
  rw [countedLeft] at counted
  rw [counted, ← counted_climb .multiply]
  rfl

theorem awaited_of_no_access (h : (awaiting? pending).any Operation.isAccess = false) :
    awaited pending = .value := by
  cases pending with
  | nil => rfl
  | cons f rest =>
      obtain ⟨op, left⟩ := f
      cases op <;> first | rfl | cases h

theorem readsCounted_operand {after : Bool} (operand : x.isOperand = true)
    (value : ∀ v, x = .var v → after = false)
    (uncalled : x.isText = true → isCall tokens = false) (h : GoesOnCounted inside tokens) :
    ReadsCounted inside after (x :: tokens) := by
  intro pending t awaits read
  rw [fill_cons, scan_operand operand] at read
  rw [h pending _ t x operand uncalled read, List.append_assoc, namesJoined]
  have behind : Front.value.behind x = .value := by
    cases x <;> first | rfl | cases operand
  have own : (Term.leaf x).counted inside (awaited pending).counts
      = namesOf inside (awaited pending) x := by
    cases x with
    | var v =>
        rw [value v rfl] at awaits
        rw [awaited_of_no_access awaits]
        rfl
    | _ => rfl
  rw [own, behind]

-- What precedes an argument is a name, which mentions nothing.
theorem ReadsCounted.name {after : Bool} {name : String} (h : ReadsCounted inside false tokens)
    (call : isCall tokens = true) : ReadsCounted inside after (.name name :: tokens) := by
  intro pending t awaits read
  rw [fill_cons, scan_operand rfl, fillAfter_call call] at read
  have left : countedLeft inside _ ++ _ = _ :=
    counted_climb .transform pending (.leaf (.name name))
  rw [← counted_climb_name .transform pending rfl] at left
  have counted := h _ t rfl read
  rw [countedLeft] at counted
  rw [counted]
  exact congrArg (· ++ namesJoined inside .value tokens) (left.trans (List.append_nil _))

/-- Passing over phrased tokens keeps the order of their variables, at an operand and behind one. -/
theorem Phrased.counted {after : Bool} {tokens : List Token} (h : Phrased after tokens) :
    ReadsCounted inside after tokens ∧ (after = false → GoesOnCounted inside tokens) := by
  -- an operand can stand at its own place or behind another
  have both : ∀ {x : Token} {rest : List Token} {after : Bool}, x.isOperand = true →
      ReadsCounted inside after (x :: rest) →
      ReadsCounted inside after (x :: rest)
        ∧ (after = false → GoesOnCounted inside (x :: rest)) := by
    intro x rest after operand reads
    refine ⟨reads, ?_⟩
    rintro rfl
    exact reads.operand operand
  induction h with
  | nil =>
      refine ⟨?_, fun _ => goesOnCounted_nil⟩
      intro pending t _ read
      cases read
  | @operator after op binary rest h ih =>
      refine ⟨?_, fun _ => ih.1.operator binary⟩
      intro pending t _ read
      rw [fill_cons, fillAfter_operator] at read
      obtain ⟨rfl, read⟩ := scan_awaited read
      have counted := ih.1 _ t rfl read
      rw [countedLeft] at counted
      rw [counted]
      exact congrArg (· ++ namesJoined inside .value rest) (List.append_nil _)
  | name isName call h ih => exact both rfl (ih.1.name call)
  | key isKey call h ih =>
      exact both rfl (readsCounted_operand rfl nofun (fun _ => call) (ih.2 rfl))
  | var isVariable call h ih =>
      exact both rfl (readsCounted_operand rfl (fun _ _ => rfl) (fun _ => call) (ih.2 rfl))
  | number x h ih => exact both rfl (readsCounted_operand rfl nofun nofun (ih.2 rfl))
  | raw unexpanded h ih =>
      have operand := isOperand_of_isUnexpanded unexpanded
      refine both operand (readsCounted_operand operand ?_ ?_ (ih.2 rfl))
      · rintro v rfl
        cases unexpanded
      · rw [isText_of_isUnexpanded unexpanded]
        nofun

/-! ## Whole lists -/

theorem operation_of_close (f : Pending) (pending : List Pending) (u : Term) :
    ∃ op left right, Spine.close (f :: pending) u = .node (.operator op) left right := by
  induction pending generalizing f u with
  | nil => exact ⟨f.op, f.left, u, rfl⟩
  | cons g pending ih => exact ih g _

-- Whatever completes a pending operator is an operation.
theorem operation_of_scan {t? : Option Term} (there : pending ≠ [])
    (h : scan pending t? tokens = some t) :
    ∃ op left right, t = .node (.operator op) left right := by
  induction tokens generalizing pending t? with
  | nil =>
      cases t? with
      | none => cases h
      | some u =>
          cases h
          obtain ⟨f, pending, rfl⟩ := List.exists_cons_of_ne_nil there
          exact operation_of_close f pending u
  | cons token rest ih =>
      obtain ⟨op, rfl⟩ | operand := operator_or_operand token
      · cases t? with
        | some u => exact ih (List.cons_ne_nil _ _) h
        | none => exact ih (List.cons_ne_nil _ _) (scan_awaited h).2
      · cases t? with
        | some u =>
            rw [scan_two_operands operand] at h
            cases h
        | none =>
            rw [scan_operand operand] at h
            exact ih there h

theorem operation_of_tokens {y : Token} (h : scan [] none (normalise (x :: y :: tokens)) = some t) :
    ∃ op left right, t = .node (.operator op) left right := by
  rw [normalise, joinKeys_cons, fill_cons] at h
  obtain ⟨op, rfl⟩ | operand := operator_or_operand x
  · exact operation_of_scan (List.cons_ne_nil _ _) (scan_awaited h).2
  · have plain : x.isAccess = false := by
      cases x <;> first | rfl | cases operand
    rw [scan_operand operand, plain, joinAfter_false, joinKeys_cons, fillAfter] at h
    -- the next token is an operator, given or put in
    split at h
    next => exact operation_of_scan (List.cons_ne_nil _ _) h
    next apart =>
      obtain ⟨op, rfl⟩ | operand' := operator_or_operand y
      · exact operation_of_scan (List.cons_ne_nil _ _) h
      · rw [Spine.between?_operands operand operand'] at apart
        cases apart

theorem counted_leaf (x : Token) (counts : Bool) :
    (Term.leaf x).counted inside counts = namesAmong inside (.ofCounts counts) [x] := by
  refine Eq.trans ?_ (List.append_nil _).symm
  cases counts <;> cases x <;> rfl

/-- The variables that are counted in a term come in the order of the tokens that it is built of. -/
theorem counted_of_scan (spoken : Spoken tokens)
    (scanned : scan [] none (normalise tokens) = some t) (counts : Bool) :
    t.counted inside counts
      = namesAmong inside (if tokens.length = 1 then .ofCounts counts else .value) tokens := by
  have whole : t.counted inside true = namesAmong inside .value tokens := by
    rw [spoken.phrased.1.counted.1 [] t rfl scanned]
    exact (namesJoined_joinKeys tokens).1
  match tokens, spoken, scanned, whole with
  | [], _, scanned, _ =>
      rw [normalise, joinKeys] at scanned
      cases scanned
  | [x], _, scanned, _ =>
      rw [normalise, joinKeys_cons, joinAfter_nil, fill_cons] at scanned
      obtain ⟨op, rfl⟩ | operand := operator_or_operand x
      · cases op <;> cases scanned
      · rw [scan_operand operand] at scanned
        cases scanned
        exact counted_leaf x counts
  | x :: y :: rest, _, scanned, whole =>
      obtain ⟨op, left, right, rfl⟩ := operation_of_tokens scanned
      rw [if_neg (by simp only [List.length_cons]; omega)]
      exact whole

end Grammar

end FormulaLang
