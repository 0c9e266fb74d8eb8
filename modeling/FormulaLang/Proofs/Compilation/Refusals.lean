import FormulaLang.Proofs.Compilation.PartialApplication
import FormulaLang.Proofs.Evaluation.Substitution
import FormulaLang.Proofs.Typing.Names

/-!
What the compiler refuses.  Where the language has only its own types and the usual numbers, a term
that cannot be compiled has no value either, whatever its variables are bound to: a static type is
the type of every value, and what is refused for a type fails for each of its values.
-/

namespace FormulaLang

variable {H : Type} [HostObject H]

/-! ## The usual environment -/

/-- An environment in which nothing is declared of types but what the language declares of its own,
and in which only numbers, and host objects that have one, stand for numbers. -/
structure Environment.IsUsual (env : Environment H) : Prop where
  described : ∀ type d, env.types.descriptor? type = some d →
    d = TypeRegistry.builtinDescriptor type
  number : ∀ v, env.provider.toNumber? v = Provider.usualNumber? v

namespace Environment.IsUsual

variable {env : Environment H}

theorem conversion? (h : env.IsUsual) (source target : TypeInfo) :
    env.types.conversion? source target = none := by
  rw [← Option.not_isSome_iff_eq_none, Option.isSome_iff_exists]
  rintro ⟨c, found⟩
  obtain ⟨type, d, -, described, listed, -⟩ := TypeRegistry.conversion?_listed found
  obtain rfl := h.described type d described
  cases type <;> cases listed

theorem negation? (h : env.IsUsual) (type : TypeInfo) : env.types.negation? type = none := by
  unfold TypeRegistry.negation?
  cases described : env.types.descriptor? type with
  | none => rfl
  | some d =>
    obtain rfl := h.described type d described
    cases type <;> rfl

-- The results of operators are of the language's own types.
theorem plan?_result (h : env.IsUsual) {op : Operation} {left right : TypeInfo} {p : Plan H}
    (found : env.types.plan? op left right = some p) : p.result ∈ TypeInfo.builtins := by
  obtain ⟨left', right', -, -, ⟨-, -, -, result⟩ | ⟨o, listed, -, result⟩⟩ :=
    TypeRegistry.plan?_cases found
  · rw [result]
    decide
  · obtain ⟨type, d, -, described, offered, -⟩ := TypeRegistry.overload?_listed listed
    obtain rfl := h.described type d described
    rw [result]
    cases type with
    | string =>
      cases offered with
      | head => exact (by decide : TypeInfo.string ∈ TypeInfo.builtins)
      | tail _ rest => cases rest
    | _ => cases offered

-- Nothing of the language's own types but a number stands for a number.
theorem toNumber?_of_own (h : env.IsUsual) {v : Value H} (own : v.typeInfo ∈ TypeInfo.builtins)
    (other : v.typeInfo ≠ .number) : env.toNumber? v = none := by
  have unread : Provider.usualNumber? v = none := by
    cases v with
    | number x => exact absurd rfl other
    | host object => simp [Value.typeInfo, TypeInfo.builtins] at own
    | _ => rfl
  simp only [toNumber?, h.number, unread, h.conversion?]

end Environment.IsUsual

/-! ## Refused operators -/

namespace CompilerInput

variable {c : CompilerInput H} {left right operand : Compiled H} {v w x y : Value H} {e : Failure}

theorem negate_of_refused (usual : c.env.IsUsual) (own : operand.type ∈ TypeInfo.builtins)
    (refused : c.negateCode operand = .error e) (typed : v.Has operand.type) :
    c.env.negate v ≠ .ok w := by
  unfold negateCode at refused
  split at refused
  case h_1 | h_2 => cases refused
  case h_3 notNumber notAny =>
    have type : v.typeInfo = operand.type :=
      Value.typeInfo_of_has typed (beq_eq_false_iff_ne.mpr notAny)
    have other : v.typeInfo ≠ .number := type ▸ notNumber
    have unread := usual.toNumber?_of_own (type ▸ own) other
    cases v with
    | number x => exact absurd rfl other
    | _ => simp [Environment.negate, usual.negation?, unread]

theorem binary_of_refused (usual : c.env.IsUsual) {op : Operation}
    (ownLeft : left.type ∈ TypeInfo.builtins) (ownRight : right.type ∈ TypeInfo.builtins)
    (refused : c.binaryCode op left right = .error e) (hx : x.Has left.type)
    (hy : y.Has right.type) : c.env.binary op x y ≠ .ok w := by
  unfold binaryCode at refused
  dsimp only at refused
  split at refused
  case isTrue => cases refused
  case isFalse known =>
    rw [Bool.or_eq_true, not_or, Bool.not_eq_true, Bool.not_eq_true] at known
    have typeLeft := Value.typeInfo_of_has hx known.1
    have typeRight := Value.typeInfo_of_has hy known.2
    rw [← typeLeft] at ownLeft refused
    rw [← typeRight] at ownRight refused
    split at refused
    case h_2 => split at refused <;> cases refused
    case h_1 unplanned =>
      -- one of the operands is no number, and does not stand for one either
      have mixed : x.typeInfo ≠ .number ∨ y.typeInfo ≠ .number := by
        by_contra numbers
        rw [not_or, not_not, not_not] at numbers
        simp [TypeRegistry.plan?, numbers] at unplanned
      rcases mixed with other | other
      · have unread := usual.toNumber?_of_own ownLeft other
        cases x with
        | number a => exact absurd rfl other
        | _ => simp [Environment.binary, unplanned, unread]
      · have unread := usual.toNumber?_of_own ownRight other
        cases y with
        | number b => exact absurd rfl other
        | _ => cases readLeft : c.env.toNumber? x <;>
            simp [Environment.binary, unplanned, readLeft, unread]

-- Refused are owners without entries, and keys of a sequence that are no numbers.
theorem refused_indexCode {owner key : Compiled H} (refused : indexCode owner key = .error e) :
    owner.type ∈ [.number, .bool, .string] ∨
      owner.type = .sequence ∧ key.type ∈ [.string, .bool, .map] := by
  unfold indexCode at refused
  dsimp only at refused
  split at refused <;> simp_all

theorem index_of_refused (usual : c.env.IsUsual) {owner key : Compiled H}
    (refused : indexCode owner key = .error e) (hv : v.Has owner.type) (hx : x.Has key.type) :
    c.env.index v x ≠ .ok w := by
  intro indexed
  obtain ⟨u, found, -⟩ := ok_of_map indexed
  rcases refused_indexCode refused with scalar | ⟨sequence, other⟩
  · have known : ∀ type ∈ [TypeInfo.number, .bool, .string], type.isAny = false := by decide
    rw [← Value.typeInfo_of_has hv (known _ scalar)] at scalar
    cases v with
    | number | bool | string => cases found
    | _ => simp [Value.typeInfo] at scalar
  · rw [sequence] at hv
    have type := Value.typeInfo_of_has hv rfl
    have keys : ∀ type ∈ [TypeInfo.string, .bool, .map],
        type.isAny = false ∧ type ∈ TypeInfo.builtins ∧ type ≠ .number := by
      decide
    obtain ⟨known, own, notNumber⟩ := keys _ other
    rw [← Value.typeInfo_of_has hx known] at own notNumber
    have unread := usual.toNumber?_of_own own notNumber
    cases v with
    | sequence items => simp [Environment.entry, unread] at found
    | _ => cases type

theorem transform_of_refused {name : String} (refused : c.transformCode name operand = .error e)
    (typed : v.Has operand.type) : c.env.transform name v ≠ .ok w := by
  unfold transformCode at refused
  split at refused
  case h_1 unknown => simp [Environment.transform, unknown]
  case h_2 overloads known =>
    split at refused
    case isTrue => cases refused
    case isFalse typedOperand =>
      split at refused
      case h_2 => cases refused
      case h_1 unselected =>
        have type := Value.typeInfo_of_has typed (Bool.not_eq_true _ ▸ typedOperand)
        simp [Environment.transform, known, Environment.dispatch, type, unselected]

/-! ## Static types of built code -/

theorem own_variableCode (fresh : c.initial = [])
    (own : ∀ p ∈ c.specification.parameters, p.2 ∈ TypeInfo.builtins) {name : String}
    {compiled : Compiled H} (built : c.variableCode name = .ok compiled) :
    compiled.type ∈ TypeInfo.builtins := by
  unfold variableCode at built
  split at built
  case h_1 place type placed typed =>
    rw [fresh] at built
    cases built
    exact own _ (Keyed.mem_of_lookup typed)
  case h_2 => cases built

theorem own_negateCode {compiled : Compiled H} (own : operand.type ∈ TypeInfo.builtins)
    (built : c.negateCode operand = .ok compiled) : compiled.type ∈ TypeInfo.builtins := by
  unfold negateCode at built
  split at built
  case h_1 | h_2 =>
    cases built
    exact own
  case h_3 =>
    split at built
    · cases built
      exact own
    · cases built

theorem own_binaryCode (usual : c.env.IsUsual) {op : Operation} {compiled : Compiled H}
    (built : c.binaryCode op left right = .ok compiled) : compiled.type ∈ TypeInfo.builtins := by
  unfold binaryCode at built
  dsimp only at built
  split at built
  case isTrue =>
    cases built
    exact .head _
  case isFalse =>
    split at built
    case h_1 => cases built
    case h_2 plan planned =>
      split at built
      · cases built
        exact .tail _ (.head _)
      · cases built
        exact usual.plan?_result planned

theorem own_indexCode {owner key compiled : Compiled H}
    (built : indexCode owner key = .ok compiled) : compiled.type ∈ TypeInfo.builtins := by
  unfold indexCode at built
  dsimp only at built
  split at built
  case h_7 =>
    cases built
    exact .head _
  all_goals cases built

theorem own_normalizedType (type : TypeInfo) :
    Compiled.normalizedType type ∈ TypeInfo.builtins := by
  unfold Compiled.normalizedType
  split <;> decide

theorem own_transformCode {name : String} {compiled : Compiled H}
    (built : c.transformCode name operand = .ok compiled) :
    compiled.type ∈ TypeInfo.builtins := by
  unfold transformCode at built
  split at built
  case h_1 => cases built
  case h_2 =>
    split at built
    case isTrue =>
      cases built
      exact .head _
    case isFalse =>
      split at built
      case h_1 => cases built
      case h_2 t _ =>
        cases built
        exact own_normalizedType t.output

-- A member that is refused is missed by every value of the type.
theorem settles_propertyCode (owner : Compiled H) (name : String) :
    (c.propertyCode owner name).Settles c.env.types
      (fun compiled => compiled.type ∈ TypeInfo.builtins)
      fun _ => ∀ v w, v.Has owner.type → c.env.propertyAfresh v name ≠ .ok w := by
  unfold propertyCode
  split
  case isTrue => exact Solve.settles_pure (.head _)
  case isFalse known =>
    refine (c.env.member_settles owner.type name).bind (fun _ => False.elim) ?_
    intro result resolved
    cases result with
    | ok m => exact Solve.settles_pure (own_normalizedType m.type)
    | error cause =>
      refine Solve.settles_throw fun v w typed => ?_
      have type := Value.typeInfo_of_has typed (Bool.not_eq_true _ ▸ known)
      simp [Environment.propertyAfresh, type, resolved]

end CompilerInput

-- A bound variable is declared.
theorem Bindings.Fit.declared {parameters : List (String × TypeInfo)} {bindings : Bindings H}
    (h : Fit parameters bindings) {name : String} {v : Value H}
    (bound : bindings.lookup name = some v) :
    ∃ place type, (parameters.map Prod.fst).findIdx? (· == name) = some place ∧
      parameters.lookup name = some type := by
  induction h with
  | nil => cases bound
  | @cons p b ps bs hb rest ih =>
    obtain ⟨n, type⟩ := p
    obtain ⟨n', w⟩ := b
    obtain ⟨rfl, -⟩ := hb
    rw [Keyed.lookup_cons] at bound ⊢
    rw [List.map_cons, List.findIdx?_cons]
    by_cases here : name = n'
    · subst here
      exact ⟨0, type, by simp, by simp⟩
    · rw [if_neg here] at bound ⊢
      obtain ⟨place, type', placed, typed⟩ := ih bound
      have differs : (n' == name) = false := beq_eq_false_iff_ne.mpr fun e => here e.symm
      exact ⟨place + 1, type', by simp [differs, placed], typed⟩

/-! ## Terms -/

namespace Term

open Solve

variable {c : CompilerInput H} {left right : Term}

/-- Whatever the variables are bound to, the term has no value. -/
def IsBarren (c : CompilerInput H) (t : Term) : Prop :=
  ∀ inputs bindings, c.Binds inputs bindings → ∀ v, t.value c.env bindings ≠ .ok v

/-- Code of one of the language's own types, which every value of the term has. -/
structure Types (c : CompilerInput H) (t : Term) (compiled : Compiled H) : Prop where
  own : compiled.type ∈ TypeInfo.builtins
  typed : ∀ inputs bindings, c.Binds inputs bindings →
    ∀ v, t.value c.env bindings = .ok v → v.Has compiled.type

theorem isBarren_var {name : String} {e : Failure} (refused : c.variableCode name = .error e)
    (left right : Term) : IsBarren c (node (.var name) left right) := by
  intro inputs bindings bound v valued
  simp only [value, mapError_ok_iff] at valued
  split at valued
  case h_2 => cases valued
  case h_1 w found =>
    obtain ⟨place, type, placed, typed⟩ := bound.fit.declared found
    have position : c.specification.position? name = some place := placed
    have declared : c.specification.type? name = some type := typed
    simp only [CompilerInput.variableCode, position, declared] at refused
    split at refused <;> cases refused

/-- Building ends with code of one of the language's own types, unless the term has no value. -/
def BuildsOwn (c : CompilerInput H) (m : Solve H (Compiled H)) (t : Term) : Prop :=
  m.Settles c.env.types (fun compiled => compiled.type ∈ TypeInfo.builtins) fun _ => t.IsBarren c

theorem BuildsOwn.mapFailure {m : Solve H (Compiled H)} {t : Term} (h : BuildsOwn c m t)
    (f : Failure → Failure) : BuildsOwn c (Solve.mapFailure f m) t :=
  Settles.mapFailure h fun _ barren => barren

theorem BuildsOwn.within {m : Solve H (Compiled H)} {t : Term} (h : BuildsOwn c m t)
    (text : String) :
    BuildsOwn c (do
      let compiled ← m
      return compiled.within text) t :=
  h.bind (fun _ => id) fun _ own => settles_pure own

/-- Compiling yields code of a known type, unless the term has no value. -/
def Settled (c : CompilerInput H) (t : Term) : Prop :=
  (t.compile c).Settles c.env.types (t.Types c) fun _ => t.IsBarren c

-- The values of compiled code are typed anyway.
theorem settled_of_own (honest : c.env.Honest) {t : Term} (h : BuildsOwn c (t.compile c) t) :
    t.Settled c :=
  (h.and (t.compile_builds honest.typed (negationsStay_of_honest honest t))).imp
    (fun _ ⟨own, sound⟩ => ⟨own, fun inputs bindings bound => (sound inputs bindings bound).typed⟩)
    fun _ barren => barren

theorem buildsOwn_negate (usual : c.env.IsUsual) (hr : right.Settled c) :
    BuildsOwn c ((node (.operator .negate) left right).compile c)
      (node (.operator .negate) left right) := by
  rw [compile]
  refine BuildsOwn.mapFailure (hr.bind ?_ fun operand types => BuildsOwn.within ?_ _) _
  · intro _ barren inputs bindings bound v valued
    obtain ⟨x, operand, -⟩ := value_negate_iff.mp valued
    exact barren inputs bindings bound x operand
  · refine (gives_ofExcept _).settles ?_ ?_
    · exact fun compiled built => CompilerInput.own_negateCode types.own built
    · intro e refused inputs bindings bound v valued
      obtain ⟨x, operand, negated⟩ := value_negate_iff.mp valued
      exact CompilerInput.negate_of_refused usual types.own refused
        (types.typed inputs bindings bound x operand) negated

theorem buildsOwn_binary (usual : c.env.IsUsual) {op : Operation}
    (arithmetic : op.isArithmetic = true ∨ op = .power) (hl : left.Settled c)
    (hr : right.Settled c) {text : String} :
    BuildsOwn c (do
      let x ← left.compile c
      let y ← right.compile c
      let compiled ← Solve.ofExcept (c.binaryCode op x y)
      return compiled.within text) (node (.operator op) left right) := by
  refine hl.bind ?_ fun x typesLeft => hr.bind ?_ fun y typesRight => BuildsOwn.within ?_ _
  · intro _ barren inputs bindings bound v valued
    obtain ⟨x, first, -⟩ := (value_binary_iff arithmetic).mp valued
    exact barren inputs bindings bound x first
  · intro _ barren inputs bindings bound v valued
    obtain ⟨-, -, y, second, -⟩ := (value_binary_iff arithmetic).mp valued
    exact barren inputs bindings bound y second
  · refine (gives_ofExcept _).settles ?_ ?_
    · exact fun compiled built => CompilerInput.own_binaryCode usual built
    · intro e refused inputs bindings bound v valued
      obtain ⟨x, first, y, second, combined⟩ := (value_binary_iff arithmetic).mp valued
      exact CompilerInput.binary_of_refused usual typesLeft.own typesRight.own refused
        (typesLeft.typed inputs bindings bound x first)
        (typesRight.typed inputs bindings bound y second) combined

theorem buildsOwn_property (hl : left.Settled c) :
    BuildsOwn c ((node (.operator .property) left right).compile c)
      (node (.operator .property) left right) := by
  rw [compile]
  refine BuildsOwn.mapFailure (hl.bind ?_ fun owner types => ?_) _
  · intro _ barren inputs bindings bound v valued
    obtain ⟨x, owner, -⟩ := value_property_iff.mp valued
    exact barren inputs bindings bound x owner
  refine ((gives_ofExcept _).settles (fun _ named => named) fun e unnamed => ?_).bind (fun _ => id)
    fun name named => BuildsOwn.within ?_ _
  · intro inputs bindings bound v valued
    obtain ⟨x, -, name, named, -⟩ := value_property_iff.mp valued
    rw [nameOperand_ok named] at unnamed
    cases unnamed
  · refine (CompilerInput.settles_propertyCode owner name).imp (fun _ own => own) ?_
    intro _ refused inputs bindings bound v valued
    obtain ⟨x, owner, name', named', read⟩ := value_property_iff.mp valued
    rw [nameOperand_ok named'] at named
    cases named
    exact refused x v (types.typed inputs bindings bound x owner) read

theorem buildsOwn_index (usual : c.env.IsUsual) (hl : left.Settled c) (hr : right.Settled c) :
    BuildsOwn c ((node (.operator .index) left right).compile c)
      (node (.operator .index) left right) := by
  -- the key, however it is compiled, and what it gives
  have indexed {key : Solve H (Compiled H)} {r : Bindings H → Except Failure (Value H)}
      (settled : key.Settles c.env.types
        (fun k => ∀ inputs bindings, c.Binds inputs bindings →
          ∀ v, r bindings = .ok v → v.Has k.type)
        fun _ => ∀ inputs bindings, c.Binds inputs bindings → ∀ v, r bindings ≠ .ok v)
      (gives : ∀ bindings v, (node (.operator .index) left right).value c.env bindings = .ok v →
        ∃ x, left.value c.env bindings = .ok x ∧ ∃ k, r bindings = .ok k ∧ c.env.index x k = .ok v)
      (text : String) : BuildsOwn c (do
        let owner ← left.compile c
        let k ← key
        let compiled ← Solve.ofExcept (CompilerInput.indexCode owner k)
        return compiled.within text) (node (.operator .index) left right) := by
    refine hl.bind ?_ fun owner types => settled.bind ?_ fun k typed => BuildsOwn.within ?_ _
    · intro _ barren inputs bindings bound v valued
      obtain ⟨x, owner, -⟩ := gives bindings v valued
      exact barren inputs bindings bound x owner
    · intro _ barren inputs bindings bound v valued
      obtain ⟨-, -, k, key, -⟩ := gives bindings v valued
      exact barren inputs bindings bound k key
    · refine (gives_ofExcept _).settles ?_ ?_
      · exact fun compiled built => CompilerInput.own_indexCode built
      · intro e refused inputs bindings bound v valued
        obtain ⟨x, owner, k, key, read⟩ := gives bindings v valued
        exact CompilerInput.index_of_refused usual refused
          (types.typed inputs bindings bound x owner) (typed inputs bindings bound k key) read
  rw [compile]
  refine BuildsOwn.mapFailure ?_ _
  split
  case h_1 key l r =>
    refine indexed (r := fun _ => .ok (.string key)) (settles_pure ?_) ?_ _
    · intro inputs bindings bound v same
      cases same
      exact .inr rfl
    · intro bindings v valued
      obtain ⟨x, owner, ⟨key', named, read⟩ | ⟨k, key, -⟩⟩ := value_index_iff.mp valued
      · cases named
        exact ⟨x, owner, _, rfl, read⟩
      · cases key
  case h_2 evaluated =>
    have typed := hr.returns.imp fun k types => types.typed
    refine indexed (r := right.value c.env) ⟨typed, hr.fails⟩ ?_ _
    intro bindings v valued
    obtain ⟨x, owner, ⟨key, named, -⟩ | key⟩ := value_index_iff.mp valued
    · obtain ⟨l, r, rfl⟩ := nameOperand_ok_iff.mp named
      exact (evaluated _ _ _ rfl).elim
    · exact ⟨x, owner, key⟩

theorem buildsOwn_transform (hr : right.Settled c) :
    BuildsOwn c ((node (.operator .transform) left right).compile c)
      (node (.operator .transform) left right) := by
  rw [compile]
  refine BuildsOwn.mapFailure ?_ _
  refine ((gives_ofExcept _).settles (fun _ named => named) fun e unnamed => ?_).bind (fun _ => id)
    fun name named => hr.bind ?_ fun argument types => BuildsOwn.within ?_ _
  · intro inputs bindings bound v valued
    obtain ⟨name, named, -⟩ := value_transform_iff.mp valued
    rw [nameOperand_ok named] at unnamed
    cases unnamed
  · intro _ barren inputs bindings bound v valued
    obtain ⟨-, -, x, argument, -⟩ := value_transform_iff.mp valued
    exact barren inputs bindings bound x argument
  · refine (gives_ofExcept _).settles ?_ ?_
    · exact fun compiled built => CompilerInput.own_transformCode built
    · intro e refused inputs bindings bound v valued
      obtain ⟨name', named', x, argument, applied⟩ := value_transform_iff.mp valued
      rw [nameOperand_ok named'] at named
      cases named
      exact CompilerInput.transform_of_refused refused
        (types.typed inputs bindings bound x argument) applied

/-- In the usual environment, with all inputs to come, a term is compiled or has no value. -/
theorem settled (usual : c.env.IsUsual) (honest : c.env.Honest) (fresh : c.initial = [])
    (own : ∀ p ∈ c.specification.parameters, p.2 ∈ TypeInfo.builtins) (t : Term) :
    t.Settled c := by
  induction t with
  | absent => exact settles_throw fun _ _ _ _ h => by cases h
  | node token left right hl hr =>
    refine settled_of_own honest ?_
    cases token with
    | number x =>
      rw [compile]
      exact BuildsOwn.mapFailure (settles_pure (.tail _ (.head _))) _
    | name text | group raw | magnitude raw =>
      rw [compile]
      exact BuildsOwn.mapFailure (settles_throw fun _ _ _ _ h => by cases h) _
    | var name =>
      rw [compile]
      refine BuildsOwn.mapFailure ((gives_ofExcept _).settles ?_ ?_) _
      · exact fun compiled built => CompilerInput.own_variableCode fresh own built
      · exact fun e refused => isBarren_var refused left right
    | operator op =>
      cases op with
      | negate => exact buildsOwn_negate usual hr
      | property => exact buildsOwn_property hl
      | index => exact buildsOwn_index usual hl hr
      | transform => exact buildsOwn_transform hr
      | _ => exact (buildsOwn_binary usual (by simp [Operation.isArithmetic]) hl hr).mapFailure _

end Term

/-! ## Formulas -/

namespace Formula

theorem compile_settles {env : Environment H} (usual : env.IsUsual) (honest : env.Honest)
    {f : Formula} (own : ∀ p ∈ f.specification.parameters, p.2 ∈ TypeInfo.builtins) :
    (f.compile env []).Settles env.types (fun _ => True)
      fun _ => ∀ inputs v, f.result env [] inputs ≠ .ok v := by
  unfold compile
  rw [CompilerInput.prepare_nil]
  have settled : f.term.Settled ⟨env, f.specification, []⟩ :=
    Term.settled usual honest rfl own f.term
  refine Solve.Settles.bind settled ?_ fun compiled _ => Solve.settles_pure trivial
  intro _ barren inputs v valued
  obtain ⟨bindings, w, many, prepared, evaluated, -⟩ := result_ok_iff.mp valued
  have fit : bindings.Fit f.specification.parameters :=
    prepared.fit (fun _ _ _ _ => honest.typed.bindInput) (many.trans_eq (Nat.zero_add _))
  exact barren (bindings.map Prod.snd) bindings ⟨fit, rfl⟩ w evaluated

end Formula

end FormulaLang
