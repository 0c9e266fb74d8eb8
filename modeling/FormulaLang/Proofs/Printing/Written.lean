import FormulaLang.Proofs.Printing.Legible
import FormulaLang.Proofs.Reduction.Expanded
import FormulaLang.Proofs.Scanning.Spoken

/-!
What parsing makes.  Names stand only where a function or a key stands, and the names and variables
of a term are spelled as the scanner reads them.
-/

namespace FormulaLang

namespace Term

/-! ## Keys -/

-- Names and variables in a row after an access are one name.
theorem IsKey.append {cs ds : List Char} (h : IsKey cs) (hd : IsKey ds) : IsKey (cs ++ ds) := by
  induction h with
  | var h =>
      cases h with
      | letter alphabetic => exact .letter alphabetic hd
      | subscript alphabetic words =>
          refine .var (.subscript alphabetic fun c hc => ?_)
          rcases List.mem_append.mp hc with hc | hc
          · exact words c hc
          · exact hd.words c hc
  | letter alphabetic _ ih => exact .letter alphabetic ih

theorem IsKey.isFunctionName_append {text name : String} (h : IsKey text.toList)
    (hn : IsFunctionName name) : IsFunctionName (text ++ name) := by
  obtain ⟨letter, tail, same, alphabetic⟩ := h.first
  rw [IsFunctionName, String.toList_append]
  refine ⟨⟨letter, tail ++ name.toList, by rw [same, List.cons_append], alphabetic⟩, ?_⟩
  intro c hc
  rcases List.mem_append.mp hc with hc | hc
  · exact h.words c hc
  · exact hn.2 c hc

/-! ## Written terms -/

/-- Terms that a text can denote, with parentheses and bars that have not been read as leaves. -/
inductive Written : Term → Prop where
  | number (x : Float) : Written (leaf (.number x))
  | var {name : String} (h : Cursor.IsVariable name.toList) : Written (leaf (.var name))
  | raw {token : Token} (h : token.isUnexpanded = true) : Written (leaf token)
  | negate {right : Term} (hr : right.Written) : Written (node (.operator .negate) absent right)
  | binary {op : Operation} (h : op.isBinary = true) {left right : Term} (hl : left.Written)
      (hr : right.Written) : Written (node (.operator op) left right)
  | key {op : Operation} (access : op.isAccess = true) {owner : Term} (ho : owner.Written)
      {key : String} (hk : IsKey key.toList) :
      Written (node (.operator op) owner (leaf (.name key)))
  | apply {name : String} (h : IsFunctionName name) {argument : Term} (ha : argument.Written) :
      Written (node (.operator .transform) (leaf (.name name)) argument)
  | method {op : Operation} (access : op.isAccess = true) {owner : Term} (ho : owner.Written)
      {name : String} (h : IsFunctionName name) {argument : Term} (ha : argument.Written) :
      Written (node (.operator .transform) (node (.operator op) owner (leaf (.name name))) argument)

/-- What an argument can follow: a name, or a member by its name. -/
inductive Callable : Term → Prop where
  | name {name : String} (h : IsFunctionName name) : Callable (leaf (.name name))
  | member {op : Operation} (access : op.isAccess = true) {owner : Term} (ho : owner.Written)
      {name : String} (h : IsFunctionName name) :
      Callable (node (.operator op) owner (leaf (.name name)))

theorem Callable.written {function argument : Term} (h : function.Callable)
    (ha : argument.Written) : (node (.operator .transform) function argument).Written := by
  cases h with
  | name h => exact .apply h ha
  | member access ho h => exact .method access ho h ha

end Term

namespace Grammar

open Term

/-! ## Joined tokens -/

/-- Spoken tokens, texts after an access joined; `after` tells whether the list follows an access. -/
inductive Phrased : Bool → List Token → Prop where
  | nil {after : Bool} : Phrased after []
  | operator {after : Bool} {op : Operation} (binary : op.isBinary = true) {rest : List Token}
      (h : Phrased op.isAccess rest) : Phrased after (.operator op :: rest)
  | name {after : Bool} {name : String} (isName : IsFunctionName name) {rest : List Token}
      (call : isCall rest = true) (h : Phrased false rest) : Phrased after (.name name :: rest)
  | key {key : String} (isKey : IsKey key.toList) {rest : List Token}
      (call : isCall rest = false) (h : Phrased false rest) : Phrased true (.name key :: rest)
  | var {name : String} (isVariable : Cursor.IsVariable name.toList) {rest : List Token}
      (call : isCall rest = false) (h : Phrased false rest) : Phrased false (.var name :: rest)
  | number {after : Bool} (x : Float) {rest : List Token} (h : Phrased false rest) :
      Phrased after (.number x :: rest)
  | raw {after : Bool} {token : Token} (unexpanded : token.isUnexpanded = true)
      {rest : List Token} (h : Phrased false rest) : Phrased after (token :: rest)

theorem isCall_joinKeys (tokens : List Token) : isCall (joinKeys tokens) = isCall tokens := by
  cases tokens with
  | nil => rw [joinKeys]
  | cons token rest =>
      rw [joinKeys_cons]
      rfl

theorem isText_of_isUnexpanded {token : Token} (h : token.isUnexpanded = true) :
    token.isText = false := by
  cases token <;> first | rfl | cases h

theorem isOperand_of_isUnexpanded {token : Token} (h : token.isUnexpanded = true) :
    token.isOperand = true := by
  cases token <;> first | rfl | cases h

theorem isAccess_of_isUnexpanded {token : Token} (h : token.isUnexpanded = true) :
    token.isAccess = false := by
  cases token <;> first | rfl | cases h

-- An argument is applied to the name in front of it.
theorem fillAfter_call {name : String} {tokens : List Token} (call : isCall tokens = true) :
    fillAfter (.name name) tokens = .operator .transform :: fill tokens := by
  cases tokens with
  | nil => cases call
  | cons next rest =>
      have operators : between? (.name name) next = some .transform := by
        cases next <;> first | rfl | cases call
      simp only [fillAfter, operators]
      rfl

-- Any other two operands in a row are multiplied.
theorem fillAfter_multiply {x y : Token} {tokens : List Token} (hx : x.isOperand = true)
    (hy : y.isOperand = true) (uncalled : x.isText = true → isCall (y :: tokens) = false) :
    fillAfter x (y :: tokens) = .operator .multiply :: fill (y :: tokens) := by
  have multiply : between x y = .multiply := by
    unfold between
    cases isText : x.isText with
    | false => rfl
    | true =>
        have plain : y.isUnexpanded = false := uncalled isText
        rw [plain]
        rfl
  have operators : between? x y = some .multiply := by
    rw [between?, hx, hy, multiply]
    rfl
  simp only [fillAfter, operators]
  rfl

-- A text joins the name that the texts after it make, if there are some.
theorem joinAfter_text_cons (token : Token) {text : String} (h : token.text? = some text)
    (rest : List Token) :
    (∃ name tail, joinAfter true rest = .name name :: tail ∧
        joinAfter true (token :: rest) = .name (text ++ name) :: tail) ∨
      (joinAfter true rest = joinKeys rest ∧
        joinAfter true (token :: rest) = .name text :: joinKeys rest) := by
  rw [joinAfter_text h]
  cases rest with
  | nil =>
      refine .inr ⟨rfl, ?_⟩
      simp only [List.takeWhile_nil, List.filterMap_nil, List.dropWhile_nil, String.join_nil,
        String.append_empty]
  | cons next rest =>
      cases isText : next.isText with
      | false =>
          refine .inr ⟨joinAfter_of_not_text isText true rest, ?_⟩
          simp only [List.takeWhile_cons, List.dropWhile_cons, isText, Bool.false_eq_true, if_false,
            List.filterMap_nil, String.join_nil, String.append_empty]
      | true =>
          obtain ⟨text', h'⟩ := Option.isSome_iff_exists.mp isText
          refine .inl ⟨_, _, joinAfter_text h' rest, ?_⟩
          simp only [List.takeWhile_cons, List.dropWhile_cons, isText, if_true,
            List.filterMap_cons, h', String.join_cons]

/-- Joining the texts of a spoken list. -/
theorem Spoken.phrased {tokens : List Token} (h : Spoken tokens) :
    Phrased false (joinKeys tokens) ∧ Phrased true (joinAfter true tokens) := by
  -- a token that is no text is the same after an access
  have apart : ∀ {token : Token} {rest : List Token}, token.isText = false →
      (∀ after, Phrased after (token :: joinAfter token.isAccess rest)) →
      Phrased false (joinKeys (token :: rest)) ∧ Phrased true (joinAfter true (token :: rest)) := by
    intro token rest plain phrased
    rw [joinAfter_of_not_text plain, joinKeys_cons]
    exact ⟨phrased false, phrased true⟩
  induction h with
  | nil =>
      rw [joinKeys, joinAfter_nil]
      exact ⟨.nil, .nil⟩
  | @operator op binary rest h ih =>
      refine apart rfl fun after => .operator binary ?_
      show Phrased op.isAccess (joinAfter op.isAccess rest)
      cases op.isAccess with
      | false => exact ih.1
      | true => exact ih.2
  | number x h ih => exact apart rfl fun after => .number x ih.1
  | raw unexpanded h ih =>
      refine apart (isText_of_isUnexpanded unexpanded) fun after => .raw unexpanded ?_
      rw [isAccess_of_isUnexpanded unexpanded]
      exact ih.1
  | @name name isName rest call h ih =>
      have joined : isCall (joinKeys rest) = true := by rw [isCall_joinKeys, call]
      refine ⟨?_, ?_⟩
      · rw [joinKeys_operand rfl]
        exact .name isName joined ih.1
      · rcases joinAfter_text_cons (.name name) rfl rest with
          ⟨name', tail, same, -⟩ | ⟨-, same⟩
        · -- no text follows a name
          cases rest with
          | nil => cases call
          | cons next rest =>
              rw [joinAfter_of_not_text (isText_of_isUnexpanded call), joinKeys_cons] at same
              cases same
              cases call
        · rw [same]
          exact .name isName joined ih.1
  | @var name isVariable rest call h ih =>
      have call : isCall (joinKeys rest) = false := by rw [isCall_joinKeys, call]
      refine ⟨?_, ?_⟩
      · rw [joinKeys_operand rfl]
        exact .var isVariable call ih.1
      · rcases joinAfter_text_cons (.var name) rfl rest with
          ⟨name', tail, same, joined⟩ | ⟨-, joined⟩
        · have inner := ih.2
          rw [same] at inner
          rw [joined]
          cases inner with
          | name isName call h =>
              exact .name ((IsKey.var isVariable).isFunctionName_append isName) call h
          | key isKey call h =>
              refine .key ?_ call h
              rw [String.toList_append]
              exact (IsKey.var isVariable).append isKey
          | raw unexpanded => cases unexpanded
        · rw [joined]
          exact .key (.var isVariable) call ih.1

/-! ## One pass -/

/-- Pending operators with written left operands; each binds more tightly than the operators that
its right operand is part of. -/
inductive WrittenPending : List Pending → Prop where
  | nil : WrittenPending []
  | negate {pending : List Pending} (h : WrittenPending pending) :
      WrittenPending (⟨.negate, .absent⟩ :: pending)
  | binary {op : Operation} (isBinary : op.isBinary = true) {left : Term} (hl : left.Written)
      {pending : List Pending} (le : floor pending ≤ op.precedence)
      (h : WrittenPending pending) : WrittenPending (⟨op, left⟩ :: pending)
  | call {function : Term} (hf : function.Callable) {pending : List Pending}
      (le : floor pending ≤ Operation.transform.precedence) (h : WrittenPending pending) :
      WrittenPending (⟨.transform, function⟩ :: pending)

/-- The operator that awaits its right operand. -/
def awaiting? (pending : List Pending) : Option Operation :=
  pending.head?.map Pending.op

variable {pending : List Pending} {op : Operation} {t u : Term} {tokens : List Token}

-- An operator over a written right operand is written.
theorem WrittenPending.complete {f : Pending} (h : WrittenPending (f :: pending))
    (hu : u.Written) : (node (.operator f.op) f.left u).Written ∧ WrittenPending pending := by
  cases h with
  | negate h => exact ⟨.negate hu, h⟩
  | binary isBinary hl le h => exact ⟨.binary isBinary hl hu, h⟩
  | call hf le h => exact ⟨hf.written hu, h⟩

theorem WrittenPending.close (h : WrittenPending pending) (hu : u.Written) :
    (Spine.close pending u).Written := by
  induction pending generalizing u with
  | nil => exact hu
  | cons f pending ih =>
      obtain ⟨written, h⟩ := h.complete hu
      exact ih h written

theorem WrittenPending.climb (h : WrittenPending pending) (hu : u.Written) (op : Operation) :
    WrittenPending (Spine.climb op pending u).1 ∧ (Spine.climb op pending u).2.Written
      ∧ (op ≠ .negate → floor (Spine.climb op pending u).1 ≤ op.precedence) := by
  induction pending generalizing u with
  | nil => exact ⟨h, hu, fun _ => Nat.zero_le _⟩
  | cons f pending ih =>
      rw [Spine.climb]
      split
      next =>
        obtain ⟨written, h⟩ := h.complete hu
        exact ih h written
      next above =>
        refine ⟨h, hu, fun nonnegate => ?_⟩
        rw [floor]
        split
        next negate =>
          have two : Operation.negate.precedence = 2 := rfl
          rw [negate] at above
          omega
        next => omega

-- The right operand of an access ends with its first token.
theorem scan_access {owner : Term} (access : op.isAccess = true) (tokens : List Token) :
    scan (⟨op, owner⟩ :: pending) (some t) tokens
      = scan pending (some (node (.operator op) owner t)) tokens := by
  refine scan_complete ?_
  have top : floor (⟨op, owner⟩ :: pending) = 5 := by
    cases op <;> first | rfl | cases access
  rw [top]
  cases tokens with
  | nil => trivial
  | cons token rest =>
      cases token with
      | operator op => exact Nat.lt_succ_of_le op.precedence_le
      | _ => trivial

/-- Passing over phrased tokens where an operand is awaited makes a written term. -/
def ReadsWritten (after : Bool) (tokens : List Token) : Prop :=
  ∀ pending t, WrittenPending pending → (awaiting? pending).any Operation.isAccess = after →
    (awaiting? pending = some .transform → isCall tokens = true) →
    scan pending none (fill tokens) = some t → t.Written

/-- Passing over phrased tokens behind an operand makes a written term. -/
def GoesOnWritten (tokens : List Token) : Prop :=
  ∀ pending u t x, WrittenPending pending → u.Written → x.isOperand = true →
    (x.isText = true → isCall tokens = false) →
    scan pending (some u) (fillAfter x tokens) = some t → t.Written

theorem ReadsWritten.operator (binary : op.isBinary = true) (h : ReadsWritten op.isAccess tokens) :
    GoesOnWritten (.operator op :: tokens) := by
  intro pending u t x sound hu operand uncalled read
  obtain ⟨sound, written, le⟩ := sound.climb hu op
  have nonnegate : op ≠ .negate := by
    rintro rfl
    cases binary
  rw [fillAfter_to_operator] at read
  refine h _ t (.binary binary written (le nonnegate) sound) rfl ?_ read
  rintro ⟨⟩
  cases binary

theorem goesOnWritten_nil : GoesOnWritten [] := by
  intro pending u t x sound hu operand uncalled read
  cases read
  exact sound.close hu

-- Two operands in a row are multiplied.
theorem ReadsWritten.operand {y : Token} (operand : y.isOperand = true)
    (h : ReadsWritten false (y :: tokens)) : GoesOnWritten (y :: tokens) := by
  intro pending u t x sound hu hx uncalled read
  obtain ⟨sound, written, le⟩ := sound.climb hu .multiply
  rw [fillAfter_multiply hx operand uncalled] at read
  exact h _ t (.binary rfl written (le (by decide)) sound) rfl (fun awaits => by cases awaits) read

theorem readsWritten_operand {after : Bool} {x : Token} (operand : x.isOperand = true)
    (hx : (leaf x).Written) (uncalled : x.isText = true → isCall tokens = false)
    (h : GoesOnWritten tokens) : ReadsWritten after (x :: tokens) := by
  intro pending t sound _ _ read
  rw [fill_cons, scan_operand operand] at read
  exact h pending _ t x sound hx operand uncalled read

-- An access that awaits its key has an owner.
theorem WrittenPending.access (h : WrittenPending pending)
    (after : (awaiting? pending).any Operation.isAccess = true) :
    ∃ op owner rest, pending = ⟨op, owner⟩ :: rest ∧ op.isAccess = true ∧ owner.Written
      ∧ floor rest ≤ Operation.transform.precedence ∧ WrittenPending rest := by
  cases h with
  | nil | negate | call => cases after
  | @binary op isBinary left hl pending le h =>
      exact ⟨op, left, pending, rfl, after, hl, Nat.le_trans le op.precedence_le, h⟩

theorem readsWritten_key {key : String} (isKey : IsKey key.toList)
    (call : isCall tokens = false) (h : GoesOnWritten tokens) :
    ReadsWritten true (.name key :: tokens) := by
  intro pending t sound after _ read
  obtain ⟨op, owner, rest, rfl, access, ho, -, sound⟩ := sound.access after
  rw [fill_cons, scan_operand rfl, scan_access access] at read
  exact h rest _ t _ sound (.key access ho isKey) rfl (fun _ => call) read

-- An application awaits its argument.
theorem ReadsWritten.argument {function : Term} (h : ReadsWritten false tokens)
    (call : isCall tokens = true) (hf : function.Callable)
    (le : floor pending ≤ Operation.transform.precedence) (sound : WrittenPending pending)
    (read : scan pending (some function) (.operator .transform :: fill tokens) = some t) :
    t.Written := by
  rw [scan, climb_of_floor_le (by decide) le] at read
  exact h _ t (.call hf le sound) rfl (fun _ => call) read

theorem ReadsWritten.name {after : Bool} {name : String} (h : ReadsWritten false tokens)
    (isName : IsFunctionName name) (call : isCall tokens = true) :
    ReadsWritten after (.name name :: tokens) := by
  intro pending t sound awaits uncalled read
  rw [fill_cons, scan_operand rfl, fillAfter_call call] at read
  cases after with
  | true =>
      obtain ⟨op, owner, rest, rfl, access, ho, le, sound⟩ := sound.access awaits
      rw [scan_access access] at read
      exact h.argument call (.member access ho isName) le sound read
  | false =>
      refine h.argument call (.name isName) ?_ sound read
      cases sound with
      | nil => exact Nat.zero_le _
      | negate => exact Operation.negate.precedence_le
      | @binary op isBinary left hl pending le _ =>
          have awaits : op.isAccess = false := awaits
          show (if op = .negate then _ else op.precedence + 1) ≤ _
          cases op <;>
            first | decide | exact absurd isBinary (by decide) | exact absurd awaits (by decide)
      | call => cases uncalled rfl

/-- Passing over phrased tokens makes a written term, at an operand and behind one. -/
theorem Phrased.written {after : Bool} {tokens : List Token} (h : Phrased after tokens) :
    ReadsWritten after tokens ∧ (after = false → GoesOnWritten tokens) := by
  -- an operand can stand at its own place or behind another
  have both : ∀ {x : Token} {rest : List Token} {after : Bool}, x.isOperand = true →
      ReadsWritten after (x :: rest) →
      ReadsWritten after (x :: rest) ∧ (after = false → GoesOnWritten (x :: rest)) := by
    intro x rest after operand reads
    refine ⟨reads, ?_⟩
    rintro rfl
    exact reads.operand operand
  induction h with
  | nil =>
      refine ⟨?_, fun _ => goesOnWritten_nil⟩
      intro pending t _ _ _ read
      cases read
  | @operator after op binary rest h ih =>
      refine ⟨?_, fun _ => ih.1.operator binary⟩
      intro pending t sound _ _ read
      rw [fill_cons, fillAfter_operator] at read
      obtain ⟨rfl, read⟩ := scan_awaited read
      exact ih.1 _ t (.negate sound) rfl nofun read
  | name isName call h ih => exact both rfl (ih.1.name isName call)
  | key isKey call h ih => exact both rfl (readsWritten_key isKey call (ih.2 rfl))
  | var isVariable call h ih =>
      exact both rfl (readsWritten_operand rfl (.var isVariable) (fun _ => call) (ih.2 rfl))
  | number x h ih => exact both rfl (readsWritten_operand rfl (.number x) nofun (ih.2 rfl))
  | @raw after token unexpanded rest h ih =>
      have operand := isOperand_of_isUnexpanded unexpanded
      refine both operand (readsWritten_operand operand (.raw unexpanded) ?_ (ih.2 rfl))
      intro text
      rw [isText_of_isUnexpanded unexpanded] at text
      cases text

/-- What spoken tokens are built to is written. -/
theorem Spoken.written {tokens : List Token} {t : Term} (h : Spoken tokens)
    (scanned : scan [] none (normalise tokens) = some t) : t.Written :=
  h.phrased.1.written.1 [] t .nil rfl (fun awaits => by cases awaits) scanned

end Grammar

namespace Term

open Reduction

variable {expand : String → Except Failure Tree}

theorem isFunctionName_abs : IsFunctionName "abs" :=
  ⟨⟨'a', ['b', 's'], rfl, by decide +kernel⟩, List.all_eq_true.mp (by decide +kernel)⟩

theorem Written.folded {op : Operation} {left right : Term}
    (h : (node (.operator op) left right).Written) : (folded op left right).Written := by
  unfold Term.folded
  split
  · exact .number _
  · exact h

theorem folded_access {op : Operation} (access : op.isAccess = true) (left right : Term) :
    Term.folded op left right = node (.operator op) left right := by
  cases op <;> first | rfl | cases access

-- The operands are reduced before their operator.
theorem reduce_operation {op : Operation} {left right u : Term}
    (reduced : (node (.operator op) left right).reduce expand = .ok u) :
    ∃ l r, left.reduce expand = .ok l ∧ right.reduce expand = .ok r ∧ u = Term.folded op l r := by
  obtain ⟨l, hl, reduced⟩ := ok_of_bind reduced
  obtain ⟨r, hr, reduced⟩ := ok_of_bind reduced
  cases reduced
  exact ⟨l, r, hl, hr, rfl⟩

/-- Reducing a written term makes a written term, if the texts in it are read as written terms. -/
theorem Written.reduce {t u : Term} (h : t.Written)
    (expands : ∀ raw inside, expand raw = .ok inside → (inside.term Tree.first).Written)
    (reduced : t.reduce expand = .ok u) : u.Written := by
  induction h generalizing u with
  | number x =>
      cases reduced
      exact .number x
  | var h =>
      cases reduced
      exact .var h
  | @raw token unexpanded =>
      cases token with
      | group raw =>
          obtain ⟨inside, read, rfl⟩ := ok_of_map reduced
          exact expands raw inside read
      | magnitude raw =>
          obtain ⟨inside, read, rfl⟩ := ok_of_map reduced
          exact .apply isFunctionName_abs (expands raw inside read)
      | _ => cases unexpanded
  | negate _ ih =>
      obtain ⟨l, r, hl, hr, rfl⟩ := reduce_operation reduced
      cases hl
      exact (Written.negate (ih hr)).folded
  | binary h _ _ ihl ihr =>
      obtain ⟨l, r, hl, hr, rfl⟩ := reduce_operation reduced
      exact (Written.binary h (ihl hl) (ihr hr)).folded
  | key access _ hk iho =>
      obtain ⟨l, r, hl, hr, rfl⟩ := reduce_operation reduced
      cases hr
      exact (Written.key access (iho hl) hk).folded
  | apply h _ ih =>
      obtain ⟨l, r, hl, hr, rfl⟩ := reduce_operation reduced
      cases hl
      exact (Written.apply h (ih hr)).folded
  | method access _ h _ iho iha =>
      obtain ⟨l, r, hl, hr, rfl⟩ := reduce_operation reduced
      obtain ⟨o, k, ho, hk, rfl⟩ := reduce_operation hl
      cases hk
      rw [folded_access access]
      exact (Written.method access (iho ho) h (iha hr)).folded

end Term

namespace Expression

open Grammar

-- A text is built to the term that one pass over its tokens reads.
theorem scan_of_built {text : String} {term : Term}
    (built : build text = .ok (Tree.empty.plant term)) :
    (Scan.ofText text).failure? = none ∧ Spoken (Scan.ofText text).tokens
      ∧ scan [] none (normalise (Scan.ofText text).tokens) = some term := by
  obtain ⟨lexemes, cutUp, scanned⟩ := build_eq_ok_iff.mp built
  obtain ⟨rfl, whole⟩ := cutUp.ofText
  exact ⟨whole, Scan.spoken_ofText whole, scanned⟩

/-- What is parsed is written. -/
theorem written_parseWithin {depth : Nat} {text : String} {t : Tree}
    (h : parseWithin depth text = .ok t) : (t.term Tree.first).Written := by
  induction depth generalizing text t with
  | zero => cases h
  | succ depth ih =>
    obtain ⟨inner, term, u, same, built, -, reduced, -, rfl⟩ := parseWithin_cases h
    cases same
    obtain ⟨-, spoken, scanned⟩ := scan_of_built built
    rw [Tree.Has.term_plant]
    exact (spoken.written scanned).reduce (fun _ _ => ih) reduced

end Expression

namespace Term

/-! ## Clear terms -/

/-- Whether nothing in a term would be read as something else: every literal is finite, no bar
stands inside bars, no point follows a numeral, and no variable or application stands bare as a
key. -/
def isClear : Term → Bool
  | absent => true
  | node (.number x) _ _ => x.isFinite
  | node (.operator .transform) function argument =>
      function.isClear && argument.isClear && !(function.text == "abs" && argument.showsBar)
  | node (.operator op) left right =>
      left.isClear && right.isClear
        && !(op == .property && !isGrouped op false left && left.endsInNumeral)
        && (!op.isAccess || isGrouped op true right || right.standsAlone)
  | node _ _ _ => true

theorem isClear_binary {op : Operation} (h : op.isBinary = true) {left right : Term}
    (clear : (node (.operator op) left right).isClear = true) :
    left.isClear = true ∧ right.isClear = true ∧ IsApart op left
      ∧ (op.isAccess = true → isGrouped op true right = true ∨ right.standsAlone = true) := by
  have shape : (node (.operator op) left right).isClear
      = (left.isClear && right.isClear
        && !(op == .property && !isGrouped op false left && left.endsInNumeral)
        && (!op.isAccess || isGrouped op true right || right.standsAlone)) := by
    cases op <;> first | rfl | cases h
  rw [shape] at clear
  simp only [Bool.and_eq_true, Bool.or_eq_true, Bool.not_eq_true', Bool.and_eq_false_iff,
    Bool.not_eq_false', beq_eq_false_iff_ne] at clear
  obtain ⟨⟨⟨hl, hr⟩, apart⟩, alone⟩ := clear
  refine ⟨hl, hr, fun point bare => ?_, fun access => ?_⟩
  · rcases apart with (other | grouped) | ends
    · exact absurd point other
    · rw [bare] at grouped
      cases grouped
    · exact ends
  · rcases alone with (none | grouped) | alone
    · rw [access] at none
      cases none
    · exact .inl grouped
    · exact .inr alone

theorem isClear_apply {function argument : Term}
    (clear : (node (.operator .transform) function argument).isClear = true) :
    function.isClear = true ∧ argument.isClear = true
      ∧ (function.text = "abs" → argument.showsBar = false) := by
  simp only [isClear, Bool.and_eq_true, Bool.not_eq_true', Bool.and_eq_false_iff,
    beq_eq_false_iff_ne] at clear
  obtain ⟨⟨hf, ha⟩, bars⟩ := clear
  exact ⟨hf, ha, fun abs => bars.resolve_left (absurd abs)⟩

/-- A written term that is clear is legible. -/
theorem Written.legible {t : Term} (h : t.Written) (expanded : t.IsExpanded)
    (clear : t.isClear = true)
    (back : ∀ x ∈ t.literals, Decimal.ReadsBack (Decimal.magnitude x)) : t.Legible := by
  have onLeft : ∀ {op left right},
      (∀ x ∈ (node (.operator op) left right).literals,
        Decimal.ReadsBack (Decimal.magnitude x)) →
      ∀ x ∈ left.literals, Decimal.ReadsBack (Decimal.magnitude x) :=
    fun back x hx => back x (List.mem_append.mpr (.inl hx))
  have onRight : ∀ {op left right},
      (∀ x ∈ (node (.operator op) left right).literals,
        Decimal.ReadsBack (Decimal.magnitude x)) →
      ∀ x ∈ right.literals, Decimal.ReadsBack (Decimal.magnitude x) :=
    fun back x hx => back x (List.mem_append.mpr (.inr hx))
  induction h with
  | number x => exact .number clear (back _ List.mem_cons_self)
  | var h => exact .var h
  | raw unexpanded =>
      rw [expanded.1] at unexpanded
      cases unexpanded
  | @negate right _ ih =>
      have shape : (node (.operator .negate) absent right).isClear
          = (right.isClear && true && true) := rfl
      rw [shape, Bool.and_true, Bool.and_true] at clear
      exact .negate (ih expanded.2.2 clear back)
  | binary h _ _ ihl ihr =>
      obtain ⟨hl, hr, apart, alone⟩ := isClear_binary h clear
      exact .binary h (ihl expanded.2.1 hl (onLeft back)) (ihr expanded.2.2 hr (onRight back))
        apart alone
  | key access _ hk iho =>
      obtain ⟨ho, -, apart, -⟩ := isClear_binary (Operation.isBinary_of_isAccess access) clear
      exact .key access (iho expanded.2.1 ho (onLeft back)) apart hk
  | @apply name h argument _ ih =>
      obtain ⟨-, clear, bars⟩ := isClear_apply clear
      have legible := ih expanded.2.2 clear back
      by_cases abs : name = "abs"
      · subst abs
        exact .magnitude legible (bars rfl)
      · exact .apply h abs legible
  | method access _ h _ iho iha =>
      obtain ⟨function, clear, -⟩ := isClear_apply clear
      obtain ⟨ho, -, apart, -⟩ := isClear_binary (Operation.isBinary_of_isAccess access) function
      exact .method access (iho expanded.2.1.2.1 ho (onLeft (onLeft back))) apart h
        (iha expanded.2.2 clear (onRight back))

end Term

end FormulaLang
