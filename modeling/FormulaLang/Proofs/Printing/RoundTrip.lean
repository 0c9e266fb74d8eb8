import FormulaLang.Proofs.Printing.Tokens
import FormulaLang.Proofs.Reduction.Parsing
import FormulaLang.Proofs.Scanning.Spoken

/-!
Reading back what was written.  The tokens of a legible term are built to its surface, in which
every operand in parentheses is raw text and every sign an operator; reducing the surface reads the
raw texts in turn and folds, which leaves the term folded.
-/

namespace FormulaLang

namespace Term

/-- An operand as it is read before any reduction. -/
def operandSurface (grouped : Bool) (text : String) (surface : Term) : Term :=
  if grouped then leaf (.group text) else surface

/-- The term that the tokens of a term are built to. -/
def surface : Term → Term
  | absent => absent
  | node (.number x) _ _ =>
      if Decimal.isNegative x then node (.operator .negate) absent (leaf (.number (-x)))
      else leaf (.number x)
  | node (.operator .transform) function argument =>
      if function.text = "abs" then leaf (.magnitude argument.text)
      else node (.operator .transform) function.surface (leaf (.group argument.text))
  | node (.operator .negate) _ right =>
      node (.operator .negate) absent
        (operandSurface (isGrouped .negate true right) right.text right.surface)
  | node (.operator op) left right =>
      node (.operator op) (operandSurface (isGrouped op false left) left.text left.surface)
        (operandSurface (isGrouped op true right) right.text right.surface)
  | node token _ _ => leaf token

/-- How tightly the tokens of a term hold together. -/
def level : Term → Nat
  | node (.number x) _ _ =>
      if Decimal.isNegative x then Operation.negate.precedence else Operation.transform.precedence
  | node (.operator op) _ _ => op.precedence
  | _ => Operation.transform.precedence

variable {op : Operation} {left right : Term}

theorem surface_binary (h : op.isBinary = true) :
    (node (.operator op) left right).surface
      = node (.operator op) (operandSurface (isGrouped op false left) left.text left.surface)
        (operandSurface (isGrouped op true right) right.text right.surface) := by
  cases op <;> first | rfl | cases h

theorem surface_apply {function : Term} (other : function.text ≠ "abs") :
    (node (.operator .transform) function right).surface
      = node (.operator .transform) function.surface (leaf (.group right.text)) := by
  rw [surface, if_neg other]

theorem isGrouped_binary (h : op.isBinary = true) (parent : Operation) (onRight : Bool) :
    isGrouped parent onRight (node (.operator op) left right)
      = (decide (op.precedence < parent.precedence)
        || (onRight && op.precedence == parent.precedence)) := by
  cases op <;> first | rfl | cases h

theorem ne_negate_of_isBinary (h : op.isBinary = true) : op ≠ .negate := by
  rintro rfl
  cases h

-- An operand without parentheses holds together at least as tightly as its operator binds.
theorem level_of_bare {t : Term} (h : t.Legible) {parent : Operation} {onRight : Bool}
    (bare : isGrouped parent onRight t = false) : parent.precedence ≤ t.level := by
  have ofBinary : ∀ {op : Operation} {left right : Term}, op.isBinary = true →
      isGrouped parent onRight (node (.operator op) left right) = false →
      parent.precedence ≤ op.precedence := by
    intro op left right h bare
    rw [isGrouped_binary h, Bool.or_eq_false_iff, decide_eq_false_iff_not] at bare
    omega
  cases h with
  | @number x finite =>
      show _ ≤ if Decimal.isNegative x then _ else _
      have bare : (Decimal.isNegative x
        && decide (Operation.negate.precedence < parent.precedence)) = false := bare
      split
      next negative =>
        rw [negative, Bool.true_and, decide_eq_false_iff_not] at bare
        omega
      next => exact parent.precedence_le
  | negate hr =>
      have bare : decide (Operation.negate.precedence < parent.precedence) = false := bare
      rw [decide_eq_false_iff_not] at bare
      show parent.precedence ≤ Operation.negate.precedence
      omega
  | binary h => exact ofBinary h bare
  | key access => exact ofBinary (Operation.isBinary_of_isAccess access) bare
  | var | magnitude | apply | method => exact parent.precedence_le

/-! ## Building the surface -/

open Grammar

/-- Whether the operator at the root of the surface, a negation apart, belongs to the operand of
the first pending operator. -/
def Enters (pending : List Pending) (t : Term) : Prop :=
  ∀ op left right, t.surface = node (.operator op) left right → op ≠ .negate →
    floor pending ≤ op.precedence

-- Only a binary operator or an application shows an operator at the root of its surface.
theorem enters_of {t : Term} (h : t.Legible) {pending : List Pending}
    (binary : ∀ op left right, t = node (.operator op) left right → op.isBinary = true →
      floor pending ≤ op.precedence)
    (application : t.standsAlone = false → floor pending ≤ Operation.transform.precedence) :
    t.Enters pending := by
  intro op l r same nonnegate
  have ofBinary : ∀ {op' : Operation} {left right : Term}, op'.isBinary = true →
      t = node (.operator op') left right → floor pending ≤ op.precedence := by
    rintro op' left right isBinary rfl
    rw [surface_binary isBinary] at same
    cases same
    exact binary _ _ _ rfl isBinary
  have ofApplication : ∀ {function argument : Term}, function.text ≠ "abs" →
      t = node (.operator .transform) function argument → floor pending ≤ op.precedence := by
    rintro function argument other rfl
    rw [surface_apply other] at same
    cases same
    exact application (beq_eq_false_iff_ne.mpr other)
  cases h with
  | @number x =>
      have same : (if Decimal.isNegative x then node (.operator .negate) absent (leaf (.number (-x)))
        else leaf (.number x)) = _ := same
      split at same
      · cases same
        exact absurd rfl nonnegate
      · cases same
  | var | magnitude => cases same
  | negate =>
      cases same
      exact absurd rfl nonnegate
  | binary h => exact ofBinary h rfl
  | key access => exact ofBinary (Operation.isBinary_of_isAccess access) rfl
  | apply h other => exact ofApplication (text_name_ne other) rfl
  | method access => exact ofApplication (text_access_ne access _ _) rfl

theorem enters_left {t : Term} (h : t.Legible) {parent : Operation}
    (bare : isGrouped parent false t = false) {pending : List Pending}
    (le : floor pending ≤ parent.precedence) : t.Enters pending := by
  refine enters_of h ?_ fun _ => Nat.le_trans le (parent.precedence_le)
  rintro op left right rfl binary
  rw [isGrouped_binary binary, Bool.or_eq_false_iff, decide_eq_false_iff_not] at bare
  omega

theorem enters_right {t : Term} (h : t.Legible) {parent : Operation}
    (bare : isGrouped parent true t = false) {pending : List Pending}
    (le : floor pending ≤ parent.precedence + 1)
    (low : parent.precedence ≤ Operation.power.precedence) : t.Enters pending := by
  refine enters_of h ?_ fun _ => Nat.le_trans le (Nat.succ_le_succ low)
  rintro op left right rfl binary
  rw [isGrouped_binary binary, Bool.or_eq_false_iff, decide_eq_false_iff_not, Bool.true_and,
    beq_eq_false_iff_ne] at bare
  have := bare.2
  omega

theorem enters_of_standsAlone {t : Term} (h : t.Legible) (alone : t.standsAlone = true)
    (pending : List Pending) : t.Enters pending := by
  refine enters_of h ?_ fun dependent => ?_
  · rintro op left right rfl binary
    cases op <;> first | cases alone | cases binary
  · rw [alone] at dependent
    cases dependent

/-- Whether a list ends or goes on with a binary operator of at most a level. -/
def Resumes (level : Nat) : List Token → Prop
  | [] => True
  | .operator op :: _ => op ≠ .negate ∧ op.precedence ≤ level
  | _ => False

theorem Resumes.mono {level level' : Nat} (le : level ≤ level') {rest : List Token}
    (h : Resumes level rest) : Resumes level' rest := by
  match rest, h with
  | [], _ => trivial
  | .operator op :: _, h => exact ⟨h.1, Nat.le_trans h.2 le⟩

theorem Resumes.fillAfter {level : Nat} {rest : List Token} (h : Resumes level rest) (x : Token) :
    Grammar.fillAfter x rest = fill rest := by
  match rest, h with
  | [], _ => rfl
  | .operator op :: rest, _ =>
      rw [fillAfter_to_operator, fill_cons, fillAfter_operator]

theorem Resumes.stops {level min : Nat} {rest : List Token} (h : Resumes level rest)
    (below : ∀ op : Operation, op ≠ .negate → op.precedence ≤ level → op.precedence < min) :
    Stops min (fill rest) := by
  match rest, h with
  | [], _ => trivial
  | .operator op :: rest, h => exact below op h.1 h.2

theorem stops_negate {level : Nat} (low : level ≤ Operation.negate.precedence) {rest : List Token}
    (h : Resumes level rest) {pending : List Pending} :
    Stops (floor (⟨.negate, .absent⟩ :: pending)) (fill rest) := by
  refine h.stops fun op nonnegate le => ?_
  have differs := precedence_ne nonnegate
  have two : Operation.negate.precedence = 2 := rfl
  show op.precedence < Operation.negate.precedence
  omega

theorem stops_binary {op : Operation} (nonnegate : op ≠ .negate) {level : Nat}
    (le : level ≤ op.precedence) {left : Term} {rest : List Token} (h : Resumes level rest)
    {pending : List Pending} : Stops (floor (⟨op, left⟩ :: pending)) (fill rest) := by
  refine h.stops fun op' _ le' => ?_
  show op'.precedence < if op = .negate then _ else op.precedence + 1
  rw [if_neg nonnegate]
  omega

theorem scan_minus (pending : List Pending) (tokens : List Token) :
    scan pending none (fill (.operator .subtract :: tokens))
      = scan (⟨.negate, .absent⟩ :: pending) none (fill tokens) := by
  rw [fill_cons, fillAfter_operator]
  rfl

theorem scan_operand_tokens {x : Token} (operand : x.isOperand = true) {level : Nat}
    {rest : List Token} (h : Resumes level rest) (pending : List Pending) :
    scan pending none (fill (x :: rest)) = scan pending (some (leaf x)) (fill rest) := by
  rw [fill_cons, h.fillAfter x, scan_operand operand]

theorem scan_operandTokens (grouped : Bool) (text : String) {own : List Token} {surface : Term}
    {level : Nat} {rest : List Token} (h : Resumes level rest) (pending : List Pending)
    (bare : grouped = false →
      scan pending none (fill (own ++ rest)) = scan pending (some surface) (fill rest)) :
    scan pending none (fill (operandTokens grouped text own ++ rest))
      = scan pending (some (operandSurface grouped text surface)) (fill rest) := by
  cases grouped with
  | false => exact bare rfl
  | true => exact scan_operand_tokens rfl h pending

theorem scan_operator {op : Operation} (nonnegate : op ≠ .negate) {pending : List Pending}
    (within : floor pending ≤ op.precedence) (t : Term) (tokens : List Token) :
    scan pending (some t) (fill (.operator op :: tokens))
      = scan (⟨op, t⟩ :: pending) none (fill tokens) := by
  rw [fill_cons, fillAfter_operator]
  simp only [scan, climb_of_floor_le nonnegate within]

-- A negative literal is a minus sign before its magnitude.
theorem scan_literal (x : Float) {rest : List Token}
    (resumes : Resumes (leaf (.number x)).level rest) (pending : List Pending) :
    scan pending none (fill ((leaf (.number x)).tokens ++ rest))
      = scan pending (some (leaf (.number x)).surface) (fill rest) := by
  have tokens : (leaf (.number x)).tokens
      = if Decimal.isNegative x then [.operator .subtract, .number (-x)] else [.number x] := rfl
  have surface : (leaf (.number x)).surface
      = if Decimal.isNegative x then node (.operator .negate) absent (leaf (.number (-x)))
        else leaf (.number x) := rfl
  have level : (leaf (.number x)).level
      = if Decimal.isNegative x then Operation.negate.precedence
        else Operation.transform.precedence := rfl
  rw [level] at resumes
  rw [tokens, surface]
  by_cases negative : Decimal.isNegative x = true
  · rw [if_pos negative] at resumes
    rw [if_pos negative, if_pos negative, List.cons_append, scan_minus, List.cons_append,
      List.nil_append, scan_operand_tokens rfl resumes,
      scan_complete (stops_negate (Nat.le_refl _) resumes)]
  · rw [if_neg negative, if_neg negative]
    exact scan_operand_tokens rfl resumes pending

/-- An operator that enters, between its operands. -/
theorem scan_binary (onRight : List Token) (surface : Term) (h : op.isBinary = true)
    (hl : left.Legible) {pending : List Pending}
    (within : floor pending ≤ op.precedence) {rest : List Token}
    (resumes : Resumes op.precedence rest)
    (scanLeft : ∀ {pending}, left.Enters pending → ∀ {rest}, Resumes left.level rest →
      scan pending none (fill (left.tokens ++ rest)) = scan pending (some left.surface) (fill rest))
    (scanRight : ∀ leftSurface,
      scan (⟨op, leftSurface⟩ :: pending) none (fill (onRight ++ rest))
        = scan (⟨op, leftSurface⟩ :: pending) (some surface) (fill rest)) :
    scan pending none
        (fill (operandTokens (isGrouped op false left) left.text left.tokens
          ++ .operator op :: (onRight ++ rest)))
      = scan pending
          (some (node (.operator op)
            (operandSurface (isGrouped op false left) left.text left.surface) surface))
          (fill rest) := by
  have nonnegate := ne_negate_of_isBinary h
  -- the left operand resumes with the operator, which completes it
  have above : Resumes op.precedence (.operator op :: (onRight ++ rest)) :=
    ⟨nonnegate, Nat.le_refl _⟩
  have onLeft := scan_operandTokens (isGrouped op false left) left.text above pending
    fun bare => scanLeft (enters_left hl bare within) (above.mono (level_of_bare hl bare))
  rw [onLeft, scan_operator nonnegate within, scanRight,
    scan_complete (stops_binary nonnegate (Nat.le_refl _) resumes)]

-- A name or a key before its parentheses is an operand before the operator of application.
theorem fill_argument {own rest : List Token} {name raw : String} :
    fill (own ++ .name name :: .group raw :: rest)
      = fill (own ++ .name name :: .operator .transform :: .group raw :: rest) := by
  have tail : ∀ x, fillAfter x (.name name :: .group raw :: rest)
      = fillAfter x (.name name :: .operator .transform :: .group raw :: rest) := by
    intro x
    simp only [fillAfter]
    rfl
  have inner : ∀ (own : List Token) x, fillAfter x (own ++ .name name :: .group raw :: rest)
      = fillAfter x (own ++ .name name :: .operator .transform :: .group raw :: rest) := by
    intro own
    induction own with
    | nil => exact tail
    | cons y own ih =>
        intro x
        simp only [List.cons_append, fillAfter, ih]
  cases own with
  | nil => rfl
  | cons y own => exact congrArg (y :: ·) (inner own y)

/-- A function before its argument, once the function is read. -/
theorem scan_argument {pending : List Pending}
    (within : floor pending ≤ Operation.transform.precedence) {rest : List Token}
    (resumes : Resumes Operation.transform.precedence rest) (function : Term) (raw : String) :
    scan pending (some function) (fill (.operator .transform :: .group raw :: rest))
      = scan pending (some (node (.operator .transform) function (leaf (.group raw))))
          (fill rest) := by
  rw [scan_operator (by decide) within, scan_operand_tokens rfl resumes,
    scan_complete (stops_binary (by decide) (Nat.le_refl _) resumes)]

-- One pass over the tokens of a term completes its surface.
theorem scan_tokens {t : Term} (h : t.Legible) {pending : List Pending}
    (enters : t.Enters pending) {rest : List Token} (resumes : Resumes t.level rest) :
    scan pending none (fill (t.tokens ++ rest)) = scan pending (some t.surface) (fill rest) := by
  induction h generalizing pending rest with
  | number => exact scan_literal _ resumes pending
  | var h => exact scan_operand_tokens rfl resumes pending
  | @negate right hr ih =>
      have resumes : Resumes Operation.negate.precedence rest := resumes
      have onRight := scan_operandTokens (isGrouped .negate true right) right.text resumes
        (⟨.negate, .absent⟩ :: pending)
        fun bare => ih
          (enters_right hr bare (Nat.le_succ _) (by decide))
          (resumes.mono (level_of_bare hr bare))
      show scan pending none (fill (.operator .subtract :: (operandTokens _ _ _ ++ rest))) = _
      rw [scan_minus, onRight, scan_complete (stops_negate (Nat.le_refl _) resumes)]
      rfl
  | @binary op h left right hl hr apart alone ihl ihr =>
      have within : floor pending ≤ op.precedence :=
        enters op _ _ (surface_binary h) (ne_negate_of_isBinary h)
      have resumes : Resumes op.precedence rest := resumes
      rw [tokens_binary h, surface_binary h, List.append_assoc, List.cons_append]
      refine scan_binary _ _ h hl within resumes ihl fun leftSurface => ?_
      refine scan_operandTokens _ right.text resumes _ fun bare => ihr ?_
        (resumes.mono (level_of_bare hr bare))
      -- below an access, an operand without parentheses is one token
      cases access : op.isAccess with
      | true =>
          exact enters_of_standsAlone hr
            ((alone access).resolve_left (by rw [bare]; decide)) _
      | false =>
          have low : op.precedence ≤ Operation.power.precedence := by
            cases op <;>
              first | decide | exact absurd h (by decide) | exact absurd access (by decide)
          refine enters_right hr bare ?_ low
          show (if op = .negate then _ else _) ≤ _
          rw [if_neg (ne_negate_of_isBinary h)]
  | @key op access owner ho apart key hk iho =>
      have binary := Operation.isBinary_of_isAccess access
      have within : floor pending ≤ op.precedence :=
        enters op _ _ (surface_binary binary) (ne_negate_of_isBinary binary)
      have resumes : Resumes op.precedence rest := resumes
      rw [tokens_binary binary, surface_binary binary, List.append_assoc, List.cons_append]
      exact scan_binary _ _ binary ho within resumes iho
        fun leftSurface => scan_operand_tokens rfl resumes _
  | magnitude => exact scan_operand_tokens rfl resumes pending
  | @apply name h other argument ha ih =>
      have other := text_name_ne other
      have within : floor pending ≤ Operation.transform.precedence :=
        enters .transform _ _ (surface_apply other) (by decide)
      have resumes : Resumes Operation.transform.precedence rest := resumes
      have called : Resumes Operation.transform.precedence
          (.operator .transform :: .group argument.text :: rest) := ⟨by decide, Nat.le_refl _⟩
      rw [tokens_apply other, surface_apply other, List.append_assoc]
      show scan pending none (fill ([] ++ .name name :: .group argument.text :: rest)) = _
      rw [fill_argument, List.nil_append, scan_operand_tokens rfl called,
        scan_argument within resumes]
      rfl
  | @method op access owner ho apart name h argument ha iho iha =>
      have binary := Operation.isBinary_of_isAccess access
      have other := text_access_ne access owner (leaf (.name name))
      have same : op.precedence = Operation.transform.precedence := by
        cases op <;> first | rfl | cases access
      have within : floor pending ≤ Operation.transform.precedence :=
        enters .transform _ _ (surface_apply other) (by decide)
      have resumes : Resumes Operation.transform.precedence rest := resumes
      have called : Resumes op.precedence
          (.operator .transform :: .group argument.text :: rest) := by
        rw [same]
        exact ⟨by decide, Nat.le_refl _⟩
      rw [tokens_apply other, surface_apply other, tokens_binary binary, surface_binary binary,
        List.append_assoc, List.append_assoc, List.cons_append]
      show scan pending none (fill (_ ++ .operator op :: .name name :: .group argument.text :: rest))
        = _
      rw [List.append_cons, fill_argument, ← List.append_cons]
      have read := scan_binary [.name name] (leaf (.name name)) binary ho
        (by rw [same]; exact within) called iho fun leftSurface => scan_operand_tokens rfl called _
      exact read.trans (scan_argument within resumes _ _)

theorem build_joined {t : Term} (h : t.Legible) {lexed : List Token}
    (joined : joinKeys lexed = t.tokens) (unsigned : Unsigned lexed) :
    Spine.build lexed = .ok (Tree.empty.plant t.surface) := by
  have scanned : scan [] none (fill (t.tokens ++ [])) = some t.surface := by
    have enters : t.Enters [] := fun _ _ _ _ _ => Nat.zero_le _
    have ends : Resumes t.level [] := trivial
    rw [scan_tokens h enters ends]
    rfl
  refine ok_of_toOption ?_
  rw [Spine.build_eq_scan unsigned, Spine.reading, normalise, joined, ← List.append_nil t.tokens,
    scanned]
  rfl

/-! ## Reducing the surface -/

theorem surface_ne_absent {t : Term} (h : t.Legible) : t.surface ≠ absent := by
  cases h with
  | number =>
      show (if _ then _ else _) ≠ absent
      split <;> nofun
  | var | negate | magnitude => nofun
  | binary h =>
      rw [surface_binary h]
      nofun
  | key access =>
      rw [surface_binary (Operation.isBinary_of_isAccess access)]
      nofun
  | @apply name h other =>
      rw [surface_apply (text_name_ne other)]
      nofun
  | method access =>
      rw [surface_apply (text_access_ne access _ _)]
      nofun

theorem tokens_ne_nil {t : Term} (h : t.Legible) : t.tokens ≠ [] := by
  cases h with
  | number =>
      show (if _ then _ else _) ≠ []
      split <;> nofun
  | var | negate | magnitude => nofun
  | binary h =>
      rw [tokens_binary h]
      exact List.append_ne_nil_of_right_ne_nil _ nofun
  | key access =>
      rw [tokens_binary (Operation.isBinary_of_isAccess access)]
      exact List.append_ne_nil_of_right_ne_nil _ nofun
  | @apply name h other =>
      rw [tokens_apply (text_name_ne other)]
      exact List.append_ne_nil_of_right_ne_nil _ nofun
  | method access =>
      rw [tokens_apply (text_access_ne access _ _)]
      exact List.append_ne_nil_of_right_ne_nil _ nofun

theorem reduce_group (expand : String → Except Failure Tree) {text : String} {t : Term}
    (expanded : expand text = .ok (Tree.empty.plant t)) :
    (leaf (.group text)).reduce expand = .ok t := by
  show (expand text).map (fun inside => inside.term Tree.first) = _
  rw [expanded]
  exact congrArg Except.ok (Tree.Has.term_plant t)

variable {expand : String → Except Failure Tree}

theorem reduce_operandSurface (grouped : Bool) {t : Term}
    (group : grouped = true → expand t.text = .ok (Tree.empty.plant t.fold))
    (bare : grouped = false → t.surface.reduce expand = .ok t.fold) :
    (operandSurface grouped t.text t.surface).reduce expand = .ok t.fold := by
  cases grouped with
  | false => exact bare rfl
  | true => exact reduce_group expand (group rfl)

theorem length_le_enclose (grouped : Bool) (text : String) :
    text.length ≤ (enclose grouped text).length := by
  cases grouped with
  | false => exact Nat.le_refl _
  | true =>
      show text.length ≤ ("(" ++ text ++ ")").length
      rw [String.length_append, String.length_append]
      omega

-- Raw text is shorter than the text around it.
theorem length_lt_enclose {grouped : Bool} (text : String) (h : grouped = true) :
    text.length < (enclose grouped text).length := by
  rw [h]
  show text.length < ("(" ++ text ++ ")").length
  rw [String.length_append, String.length_append]
  have closed : (")" : String).length = 1 := rfl
  omega

theorem length_operands (h : op.isBinary = true) (left right : Term) :
    (enclose (isGrouped op false left) left.text).length
        ≤ (node (.operator op) left right).text.length
      ∧ (enclose (isGrouped op true right) right.text).length
        ≤ (node (.operator op) left right).text.length := by
  rw [text_binary h, String.length_append, String.length_append]
  omega

theorem length_argument {function : Term} (other : function.text ≠ "abs") (right : Term) :
    function.text.length ≤ (node (.operator .transform) function right).text.length
      ∧ right.text.length < (node (.operator .transform) function right).text.length := by
  have closed : (")" : String).length = 1 := rfl
  rw [text_apply other, String.length_append, String.length_append, String.length_append]
  omega

theorem reduce_operand {grouped : Bool} {t : Term} {bound : Nat} (h : t.Legible)
    (short : (enclose grouped t.text).length ≤ bound)
    (expands : ∀ s : Term, s.Legible → s.text.length < bound →
      expand s.text = .ok (Tree.empty.plant s.fold))
    (bare : t.text.length ≤ bound → t.surface.reduce expand = .ok t.fold) :
    (operandSurface grouped t.text t.surface).reduce expand = .ok t.fold := by
  refine reduce_operandSurface grouped (fun enclosed => expands t h ?_) fun _ => bare ?_
  · exact Nat.lt_of_lt_of_le (length_lt_enclose t.text enclosed) short
  · exact Nat.le_trans (length_le_enclose grouped t.text) short

theorem reduce_binary (op : Operation) {left right l r : Term} (hl : left.reduce expand = .ok l)
    (hr : right.reduce expand = .ok r) :
    (node (.operator op) left right).reduce expand = .ok (folded op l r) := by
  rw [Term.reduce, hl, hr]
  rfl

theorem reduce_name (name : String) :
    (leaf (.name name)).reduce expand = .ok (leaf (.name name)) :=
  rfl

/-- Reducing the surface of a term folds the term, if shorter texts are read as folded terms. -/
theorem reduce_surface {t : Term} (h : t.Legible) {bound : Nat}
    (expands : ∀ s : Term, s.Legible → s.text.length < bound →
      expand s.text = .ok (Tree.empty.plant s.fold))
    (short : t.text.length ≤ bound) : t.surface.reduce expand = .ok t.fold := by
  induction h with
  | @number x finite =>
      show (if Decimal.isNegative x then node (.operator .negate) absent (leaf (.number (-x)))
        else leaf (.number x)).reduce expand = .ok (leaf (.number x))
      split
      · show Except.ok (leaf (.number (- -x))) = _
        rw [Decimal.neg_neg finite]
      · rfl
  | var h => rfl
  | @negate right hr ih =>
      have short : ("-" ++ enclose (isGrouped .negate true right) right.text).length ≤ bound :=
        short
      rw [String.length_append] at short
      have absent : (absent : Term).reduce expand = .ok .absent := rfl
      exact reduce_binary .negate absent (reduce_operand hr (by omega) expands ih)
  | @binary op h left right hl hr apart alone ihl ihr =>
      obtain ⟨shortLeft, shortRight⟩ := length_operands h left right
      rw [surface_binary h]
      exact reduce_binary op (reduce_operand hl (Nat.le_trans shortLeft short) expands ihl)
        (reduce_operand hr (Nat.le_trans shortRight short) expands ihr)
  | @key op access owner ho apart key hk iho =>
      have binary := Operation.isBinary_of_isAccess access
      have within := (length_operands binary owner (leaf (.name key))).1
      rw [surface_binary binary]
      exact reduce_binary op (reduce_operand ho (Nat.le_trans within short) expands iho)
        (reduce_name key)
  | @magnitude argument ha clear ih =>
      have short : ("|" ++ argument.text ++ "|").length ≤ bound := short
      have bar : ("|" : String).length = 1 := rfl
      rw [String.length_append, String.length_append] at short
      have inside := expands argument ha (by omega)
      show (expand argument.text).map (fun inside => node (.operator .transform)
        (leaf (.name Reduction.magnitudeFunction)) (inside.term Tree.first)) = _
      rw [inside]
      exact congrArg (fun t => Except.ok (node (.operator .transform) (leaf (.name "abs")) t))
        (Tree.Has.term_plant argument.fold)
  | @apply name h other argument ha ih =>
      have other := text_name_ne other
      have within := (length_argument other argument).2
      rw [surface_apply other]
      exact reduce_binary .transform (reduce_name name)
        (reduce_group expand (expands argument ha (Nat.lt_of_lt_of_le within short)))
  | @method op access owner ho apart name h argument ha iho iha =>
      have binary := Operation.isBinary_of_isAccess access
      have other := text_access_ne access owner (leaf (.name name))
      obtain ⟨withinFunction, within⟩ := length_argument other argument
      have withinOwner := (length_operands binary owner (leaf (.name name))).1
      have onFunction := reduce_binary op
        (reduce_operand ho (Nat.le_trans withinOwner (Nat.le_trans withinFunction short)) expands
          iho) (reduce_name name)
      rw [surface_apply other, surface_binary binary]
      exact reduce_binary .transform onFunction
        (reduce_group expand (expands argument ha (Nat.lt_of_lt_of_le within short)))

end Term

namespace Term

/-! ## Arithmetic -/

/-- Arithmetic over literals of either sign, variables and functions other than `abs`, which has
bars for parentheses. -/
inductive IsArithmetic : Term → Prop where
  | number {x : Float} (finite : x.isFinite = true) : IsArithmetic (leaf (.number x))
  | var {name : String} (h : Cursor.IsVariable name.toList) : IsArithmetic (leaf (.var name))
  | binary {op : Operation} (h : op.isArithmetic = true ∨ op = .power) {left right : Term}
      (hl : left.IsArithmetic) (hr : right.IsArithmetic) :
      IsArithmetic (node (.operator op) left right)
  | negate {right : Term} (hr : right.IsArithmetic) :
      IsArithmetic (node (.operator .negate) absent right)
  | apply {name : String} (h : IsFunctionName name) (other : name ≠ "abs") {argument : Term}
      (ha : argument.IsArithmetic) :
      IsArithmetic (node (.operator .transform) (leaf (.name name)) argument)

theorem IsArithmetic.legible {t : Term} (h : t.IsArithmetic)
    (back : ∀ x ∈ t.literals, Decimal.ReadsBack (Decimal.magnitude x)) : t.Legible := by
  induction h with
  | number finite => exact .number finite (back _ List.mem_cons_self)
  | var h => exact .var h
  | @binary op h left right _ _ ihl ihr =>
      have none : op.isAccess = false := by
        cases op <;> first | rfl | exact absurd h (by decide)
      refine .binary (Operation.isBinary_of_isArithmetic h)
        (ihl fun x hx => back x (List.mem_append.mpr (.inl hx)))
        (ihr fun x hx => back x (List.mem_append.mpr (.inr hx))) ?_ ?_
      · rintro rfl
        cases none
      · rw [none]
        nofun
  | negate _ ih => exact .negate (ih back)
  | apply h other _ ih => exact .apply h other (ih back)

end Term

namespace Expression

open Term

theorem joins_whole {t : Term} (h : t.Legible) : Scan.Joins false t.text.toList t.tokens := by
  have joins := joins_text h (.end _)
  rw [List.append_nil, List.append_nil] at joins
  exact joins

-- No legible term has an empty text.
theorem length_pos {t : Term} (h : t.Legible) : 0 < t.text.length := by
  obtain ⟨lexed, lexes, joined⟩ := joins_whole h
  refine Nat.lt_of_lt_of_le (List.length_pos_of_ne_nil ?_) lexes.short
  rintro rfl
  rw [Grammar.joinAfter_false, Grammar.joinKeys] at joined
  exact tokens_ne_nil h joined.symm

/-- A text with the tokens of a legible term is parsed to the folded term. -/
theorem parseWithin_joined (depth : Nat) : ∀ {text : String} {t : Term}, t.Legible →
    Scan.Joins false text.toList t.tokens → t.text.length ≤ depth →
    parseWithin depth text = .ok (Tree.empty.plant t.fold) := by
  induction depth with
  | zero =>
      intro text t h _ short
      exact absurd (length_pos h) (Nat.not_lt.mpr short)
  | succ depth ih =>
      intro text t h joins short
      obtain ⟨lexed, lexes, joined⟩ := joins
      obtain ⟨scanned, whole⟩ := lexes.ofText
      have built : build text = .ok (Tree.empty.plant t.surface) := by
        refine build_of_scan whole (build_joined h ?_ (Scan.spoken_ofText whole).unsigned)
        rw [scanned]
        exact joined
      have reduced : t.surface.reduce (parseWithin depth) = .ok t.fold :=
        reduce_surface h
          (fun s hs shorter => ih hs (joins_whole hs) (Nat.le_of_lt_succ shorter)) short
      rw [parseWithin_succ (rooted_parseWithin depth) (surface_ne_absent h) built, reduced]
      rfl

/-- The text of a legible term is parsed to the folded term. -/
theorem parse_legible {t : Term} (h : t.Legible) :
    parse t.text = .ok (Tree.empty.plant t.fold) :=
  parseWithin_joined _ h (joins_whole h) (Nat.le_refl _)

/-- A blank in front changes nothing. -/
theorem parse_legible_blank {t : Term} (h : t.Legible) :
    parse (" " ++ t.text) = .ok (Tree.empty.plant t.fold) := by
  refine parseWithin_joined _ h ?_ ?_
  · rw [String.toList_append]
    exact (joins_whole h).blank
  · rw [String.length_append]
    exact Nat.le_add_left _ _

/-! ## Arithmetic -/

/-- Parsing undoes writing, up to folding. -/
theorem parse_text (t : Tree) (root : NodeId) (h : (t.term root).IsArithmetic)
    (back : ∀ x ∈ (t.term root).literals, Decimal.ReadsBack (Decimal.magnitude x)) :
    parse (t.text root) = .ok (Tree.empty.plant (t.term root).fold) :=
  parse_legible (h.legible back)

/-- Signs of both kinds before a variable, under a power and inside a function. -/
def signs : Term :=
  node (.operator .subtract) (leaf (.var "a"))
    (node (.operator .multiply)
      (node (.operator .negate) absent (leaf (.var "b")))
      (node (.operator .power) (leaf (.number (-2)))
        (node (.operator .transform) (leaf (.name "sin"))
          (node (.operator .add) (leaf (.var "x_1")) (leaf (.number 0.5))))))

theorem isArithmetic_signs : signs.IsArithmetic := by
  have a : Cursor.IsVariable "a".toList := .letter (by decide +kernel)
  have b : Cursor.IsVariable "b".toList := .letter (by decide +kernel)
  have x : Cursor.IsVariable "x_1".toList :=
    .subscript (by decide +kernel) (List.all_eq_true.mp (by decide +kernel))
  have sin : IsFunctionName "sin" :=
    ⟨⟨'s', ['i', 'n'], rfl, by decide +kernel⟩, List.all_eq_true.mp (by decide +kernel)⟩
  exact .binary (by decide) (.var a) (.binary (by decide) (.negate (.var b))
    (.binary (by decide) (.number (by decide +kernel))
      (.apply sin (by decide) (.binary (by decide) (.var x) (.number (by decide +kernel))))))

theorem parse_text_signs :
    ((Tree.empty.plant signs).term Tree.first).IsArithmetic ∧
    (∀ x ∈ ((Tree.empty.plant signs).term Tree.first).literals,
      Decimal.ReadsBack (Decimal.magnitude x)) ∧
    (Tree.empty.plant signs).text Tree.first = "a - -b * (-2)^sin(x_1 + 0.5)" ∧
    parse ((Tree.empty.plant signs).text Tree.first)
      = .ok (Tree.empty.plant ((Tree.empty.plant signs).term Tree.first).fold) := by
  have arithmetic : ((Tree.empty.plant signs).term Tree.first).IsArithmetic := by
    rw [Tree.Has.term_plant]
    exact isArithmetic_signs
  have back : ∀ x ∈ ((Tree.empty.plant signs).term Tree.first).literals,
      Decimal.ReadsBack (Decimal.magnitude x) := by
    rw [Tree.Has.term_plant]
    have two : Decimal.readUnsigned? (Decimal.text (Decimal.magnitude (-2))).toList
        = some (Decimal.magnitude (-2)) := by decide +kernel
    have half : Decimal.readUnsigned? (Decimal.text (Decimal.magnitude 0.5)).toList
        = some (Decimal.magnitude 0.5) := by decide +kernel
    intro x hx
    have hx : x ∈ [-2, 0.5] := hx
    rcases List.mem_cons.mp hx with rfl | hx
    · exact two
    · rw [List.mem_singleton.mp hx]
      exact half
  have text : (Tree.empty.plant signs).text Tree.first = "a - -b * (-2)^sin(x_1 + 0.5)" := by
    rw [Tree.text, Tree.Has.term_plant]
    decide +kernel
  exact ⟨arithmetic, back, text, parse_text _ Tree.first arithmetic back⟩

end Expression

end FormulaLang
