import FormulaLang.Proofs.Evaluation.Valuation
import FormulaLang.Proofs.Tree.Substitution

/-!
Terms that have the same values.  What an operator gives depends on its operands only by their
values and by the names that they are; so a variable may be replaced by a term that has its value,
and operators over literals may be folded.
-/

namespace FormulaLang

variable {H : Type} [HostObject H]

namespace Term

/-! ## Values of operators -/

variable {env : Environment H} {bindings : Bindings H} {left right : Term} {v : Value H}

theorem value_negate_iff :
    (node (.operator .negate) left right).value env bindings = .ok v ↔
      ∃ x, right.value env bindings = .ok x ∧ env.negate x = .ok v := by
  rw [value, mapError_ok_iff, bind_ok_iff]

theorem value_property_iff :
    (node (.operator .property) left right).value env bindings = .ok v ↔
      ∃ owner, left.value env bindings = .ok owner ∧
        ∃ name, right.nameOperand Failure.solving = .ok name ∧
          env.propertyAfresh owner name = .ok v := by
  simp only [value, mapError_ok_iff, bind_ok_iff]

theorem value_transform_iff :
    (node (.operator .transform) left right).value env bindings = .ok v ↔
      ∃ name, left.nameOperand Failure.solving = .ok name ∧
        ∃ x, right.value env bindings = .ok x ∧ env.transform name x = .ok v := by
  simp only [value, mapError_ok_iff, bind_ok_iff]

theorem value_binary_iff {op : Operation} (arithmetic : op.isArithmetic = true ∨ op = .power) :
    (node (.operator op) left right).value env bindings = .ok v ↔
      ∃ x, left.value env bindings = .ok x ∧
        ∃ y, right.value env bindings = .ok y ∧ env.binary op x y = .ok v := by
  cases op with
  | negate | property | index | transform => simp [Operation.isArithmetic] at arithmetic
  | _ => simp only [value, mapError_ok_iff, bind_ok_iff]

-- A name has no value.
theorem not_named_of_value {t : Term} (valued : t.value env bindings = .ok v) (name : String)
    (l r : Term) : t ≠ node (.name name) l r := by
  rintro rfl
  cases valued

-- The key is a name taken literally, or else evaluated.
theorem value_index_iff :
    (node (.operator .index) left right).value env bindings = .ok v ↔
      ∃ owner, left.value env bindings = .ok owner ∧
        ((∃ key, right.nameOperand Failure.solving = .ok key ∧
            env.index owner (.string key) = .ok v) ∨
          ∃ key, right.value env bindings = .ok key ∧ env.index owner key = .ok v) := by
  obtain ⟨key, l, r, rfl⟩ | evaluated := right.name_or_evaluated
  · have unvalued : ∀ k, (node (.name key) l r).value env bindings ≠ .ok k :=
      fun k valued => not_named_of_value valued key l r rfl
    simp only [value, mapError_ok_iff, bind_ok_iff]
    refine exists_congr fun owner => and_congr_right fun _ => ?_
    constructor
    · rintro ⟨k, same, indexed⟩
      cases same
      exact .inl ⟨key, rfl, indexed⟩
    · rintro (⟨k, same, indexed⟩ | ⟨k, valued, -⟩)
      · cases same
        exact ⟨_, rfl, indexed⟩
      · cases valued
  · simp only [value_index env bindings left evaluated, mapError_ok_iff, bind_ok_iff]
    refine exists_congr fun owner => and_congr_right fun _ => ?_
    refine ⟨.inr, ?_⟩
    rintro (⟨key, isName, -⟩ | valued)
    · obtain ⟨l, r, same⟩ := nameOperand_ok_iff.mp isName
      exact absurd same (evaluated key l r)
    · exact valued

/-! ## The same values -/

/-- Two terms have the same values, each for bindings of its own, and are the same names. -/
structure Agrees (env : Environment H) (bindings bindings' : Bindings H) (t t' : Term) :
    Prop where
  value : ∀ v, t.value env bindings = .ok v ↔ t'.value env bindings' = .ok v
  name : ∀ name, t.nameOperand Failure.solving = .ok name ↔
    t'.nameOperand Failure.solving = .ok name

variable {bindings' bindings'' : Bindings H} {t t' t'' left' right' : Term}

theorem Agrees.refl (t : Term) : t.Agrees env bindings bindings t :=
  ⟨fun _ => .rfl, fun _ => .rfl⟩

theorem Agrees.trans (h : Agrees env bindings bindings' t t')
    (h' : Agrees env bindings' bindings'' t' t'') : Agrees env bindings bindings'' t t'' :=
  ⟨fun v => (h.value v).trans (h'.value v), fun name => (h.name name).trans (h'.name name)⟩

-- Operands may be exchanged for others of the same values and names.
theorem Agrees.operator (hl : Agrees env bindings bindings' left left')
    (hr : Agrees env bindings bindings' right right') (op : Operation) :
    Agrees env bindings bindings' (node (.operator op) left right)
      (node (.operator op) left' right') where
  value v := by
    cases op with
    | negate => simp only [value_negate_iff, hr.value]
    | property => simp only [value_property_iff, hl.value, hr.name]
    | index => simp only [value_index_iff, hl.value, hr.value, hr.name]
    | transform => simp only [value_transform_iff, hl.name, hr.value]
    | _ =>
      have arithmetic {op : Operation} (h : op.isArithmetic = true ∨ op = .power) :
          (node (.operator op) left right).value env bindings = .ok v ↔
            (node (.operator op) left' right').value env bindings' = .ok v := by
        simp only [value_binary_iff h, hl.value, hr.value]
      exact arithmetic (by simp [Operation.isArithmetic])
  name name := ⟨nofun, nofun⟩

-- The operands of anything else have no part in its value.
theorem Agrees.leaf {token : Token} (plain : token.operation? = none)
    (bound : ∀ name, token = .var name → bindings.lookup name = bindings'.lookup name)
    (left right left' right' : Term) :
    Agrees env bindings bindings' (node token left right) (node token left' right') where
  value v := by
    cases token with
    | operator op => cases plain
    | var name =>
      simp only [Term.value, mapError_ok_iff, bound name rfl]
    | _ => simp only [Term.value, mapError_ok_iff]
  name name := by
    cases token with
    | operator op => cases plain
    | _ => exact .rfl

/-! ## Substitution -/

/-- A variable that is bound to the value of a term may be replaced by the term. -/
theorem subst_agrees {name : String} {sub : Term} {x : Value H}
    (valued : sub.value env bindings = .ok x) (t : Term) :
    Agrees env bindings (Keyed.insert name x bindings) (t.subst name sub) t := by
  induction t with
  | absent => exact ⟨fun _ => ⟨nofun, nofun⟩, fun _ => ⟨nofun, nofun⟩⟩
  | node token left right hl hr =>
    cases token with
    | operator op => exact hl.operator hr op
    | number x | name text | group raw | magnitude raw =>
      exact Agrees.leaf rfl (fun _ e => by cases e) _ _ _ _
    | var v =>
      unfold subst put
      dsimp only
      split
      case isTrue same =>
        subst same
        refine ⟨fun w => ?_, fun key => ⟨fun named => ?_, fun named => ?_⟩⟩
        · simp only [value, mapError_ok_iff, Keyed.lookup_insert, if_true, valued]
        · obtain ⟨l, r, rfl⟩ := nameOperand_ok_iff.mp named
          cases valued
        · cases named
      case isFalse differs =>
        refine Agrees.leaf rfl (fun other e => ?_) _ _ _ _
        cases e
        rw [Keyed.lookup_insert, if_neg differs]

/-! ## Folding -/

theorem value_of_number? {t : Term} {x : Float} (h : t.number? = some x) :
    t.value env bindings = .ok (.number x) := by
  unfold number? at h
  split at h
  case h_1 =>
    cases h
    rfl
  case h_2 => cases h

-- The value of an operator over literals is what solving it gives.
theorem value_of_value? {op : Operation} {x : Float} (h : value? op left right = some x) :
    (node (.operator op) left right).value env bindings = .ok (.number x) := by
  unfold value? at h
  split at h
  case isTrue negation =>
    obtain ⟨b, hb, h⟩ := Option.bind_eq_some_iff.mp h
    subst negation
    cases h
    exact value_negate_iff.mpr ⟨_, value_of_number? hb, rfl⟩
  case isFalse =>
    split at h
    case isTrue arithmetic =>
      obtain ⟨a, ha, h⟩ := Option.bind_eq_some_iff.mp h
      obtain ⟨b, hb, h⟩ := Option.bind_eq_some_iff.mp h
      refine (value_binary_iff arithmetic).mpr ⟨_, value_of_number? ha, _, value_of_number? hb, ?_⟩
      simp only [Environment.binary, h]
    case isFalse => cases h

theorem folded_agrees (op : Operation) (left right : Term) :
    Agrees env bindings bindings (folded op left right) (node (.operator op) left right) := by
  unfold folded
  split
  case h_2 => exact .refl _
  case h_1 x found =>
    refine ⟨fun v => ?_, fun name => ⟨nofun, nofun⟩⟩
    rw [value_of_value? found]
    exact Iff.rfl

/-- Folding keeps the values of a term. -/
theorem fold_agrees (t : Term) : Agrees env bindings bindings t.fold t := by
  induction t with
  | absent => exact .refl _
  | node token left right hl hr =>
    cases token with
    | operator op => exact (folded_agrees op _ _).trans (hl.operator hr op)
    | _ => exact Agrees.leaf rfl (fun _ _ => rfl) _ _ _ _

end Term

end FormulaLang
