import FormulaLang.Compilation

/-!
Declared types.  A host application declares the types of what its operators, conversions, members,
negations and transforms return.  Where the declared types are true, operator plans, resolved
members and bound inputs yield values of the types that are announced for them.
-/

namespace FormulaLang

variable {H : Type}

/-! ## What resolution finds -/

namespace TypeRegistry

variable {r : TypeRegistry H}

-- An overload is listed by one of its two types, and takes exactly these.
theorem overload?_listed {op : Operation} {left right : TypeInfo} {o : Overload H}
    (h : r.overload? op left right = some o) :
    ∃ type d, type ∈ [left, right] ∧ r.descriptor? type = some d ∧ o ∈ d.operators ∧
      o.op = op ∧ o.left = left ∧ o.right = right := by
  obtain ⟨d, listed, found⟩ := List.exists_of_findSome?_eq_some h
  obtain ⟨type, mem, described⟩ := List.mem_filterMap.mp listed
  have exact := List.find?_some found
  have offered := List.mem_of_find?_eq_some found
  simp only [decide_eq_true_eq] at exact
  simp only [TypeDescriptor.operatorsFor, List.mem_filter, decide_eq_true_eq] at offered
  exact ⟨type, d, mem, described, offered.1, offered.2, exact⟩

-- A conversion is listed by one of its two types, and leads from the one to the other.
theorem conversion?_listed {source target : TypeInfo} {c : Conversion H}
    (h : r.conversion? source target = some c) :
    ∃ type d, type ∈ [source, target] ∧ r.descriptor? type = some d ∧ c ∈ d.conversions ∧
      c.source = source ∧ c.target = target := by
  obtain ⟨d, listed, found⟩ := List.exists_of_findSome?_eq_some h
  obtain ⟨type, mem, described⟩ := List.mem_filterMap.mp listed
  have exact := List.find?_some found
  simp only [decide_eq_true_eq] at exact
  exact ⟨type, d, mem, described, List.mem_of_find?_eq_some found, exact⟩

theorem step?_self (type : TypeInfo) : r.step? type type = some none := by
  have accepted : type.accepts type = true := by simp [TypeInfo.accepts]
  rw [step?, if_pos accepted]

-- A plan converts its operands to two types, and then either calculates with numbers or calls
-- the overload for exactly these types.
theorem plan?_cases {op : Operation} {left right : TypeInfo} {p : Plan H}
    (h : r.plan? op left right = some p) :
    ∃ left' right', r.step? left left' = some p.left? ∧ r.step? right right' = some p.right? ∧
      ((left' = .number ∧ right' = .number ∧ p.kind = .native op ∧ p.result = .number) ∨
        ∃ o, r.overload? op left' right' = some o ∧ p.kind = .overload o.apply ∧
          p.result = o.result) := by
  unfold plan? at h
  split at h
  case isTrue numbers =>
    obtain ⟨rfl, rfl⟩ := numbers
    cases h
    exact ⟨.number, .number, step?_self _, step?_self _, .inl ⟨rfl, rfl, rfl, rfl⟩⟩
  case isFalse =>
    split at h
    case h_1 o found =>
      cases h
      exact ⟨left, right, step?_self _, step?_self _, .inr ⟨o, found, rfl, rfl⟩⟩
    case h_2 =>
      obtain ⟨coercion, -, h⟩ := Option.bind_eq_some_iff.mp h
      obtain ⟨leftStep, hl, h⟩ := Option.bind_eq_some_iff.mp h
      obtain ⟨rightStep, hr, h⟩ := Option.bind_eq_some_iff.mp h
      split at h
      case isTrue numbers =>
        cases h
        exact ⟨_, _, hl, hr, .inl ⟨numbers.1, numbers.2, rfl, rfl⟩⟩
      case isFalse =>
        obtain ⟨o, found, h⟩ := Option.bind_eq_some_iff.mp h
        cases h
        exact ⟨_, _, hl, hr, .inr ⟨o, found, rfl, rfl⟩⟩

theorem eq_number_of_step? {source : TypeInfo} (h : r.step? source .number = some none) :
    source = .number := by
  unfold step? at h
  split at h
  case isTrue accepted =>
    cases source with
    | number => rfl
    | _ => exact absurd accepted (by simp [TypeInfo.accepts])
  case isFalse =>
    obtain ⟨c, -, h⟩ := Option.map_eq_some_iff.mp h
    cases h

-- A plan that calculates with numbers and converts nothing is for two numbers.
theorem plan?_native {op : Operation} {left right : TypeInfo} {p : Plan H}
    (h : r.plan? op left right = some p) (native : p.isNative = true)
    (uncoerced : p.isCoerced = false) : left = .number ∧ right = .number := by
  obtain ⟨left', right', hl, hr, ⟨rfl, rfl, -, -⟩ | ⟨o, -, kind, -⟩⟩ := plan?_cases h
  · simp only [Plan.isCoerced, Bool.or_eq_false_iff, Option.isSome_eq_false_iff,
      Option.isNone_iff_eq_none] at uncoerced
    rw [uncoerced.1] at hl
    rw [uncoerced.2] at hr
    exact ⟨eq_number_of_step? hl, eq_number_of_step? hr⟩
  · rw [Plan.isNative, kind] at native
    cases native

end TypeRegistry

theorem MemberLookup.found_of_toResult {lookup : MemberLookup H} {owner : TypeInfo}
    {name : String} {m : Member H} (h : lookup.toResult owner name = .ok m) :
    lookup = .found m := by
  cases lookup with
  | found m' => cases h; rfl
  | _ => cases h

-- The declared member that is found is one of those declared.
theorem Member.mem_of_declared {members : List (Member H)} {name : String} {m : Member H}
    (h : declared members name = .found m) : m ∈ members := by
  unfold declared at h
  split at h
  case h_1 m' exact =>
    cases h
    exact List.mem_of_find?_eq_some exact
  case h_2 =>
    split at h
    case h_2 m' only =>
      cases h
      have mem : m ∈ members.filter fun m => foldCase m.name == foldCase name := by
        rw [only]
        exact List.mem_singleton.mpr rfl
      exact (List.mem_filter.mp mem).1
    all_goals cases h

-- The overload that is selected is one of the candidates.
theorem Transform.mem_of_select? {candidates : List (Transform H)} {type : TypeInfo}
    {types : TypeRegistry H} {t : Transform H} (h : select? candidates type types = some t) :
    t ∈ candidates := by
  unfold select? at h
  rcases Option.or_eq_some_iff.mp h with exact | ⟨-, h⟩
  · exact List.mem_of_find?_eq_some exact
  · rcases Option.or_eq_some_iff.mp h with castable | ⟨-, first⟩
    · exact List.mem_of_find?_eq_some castable
    · exact List.mem_of_head? first

variable [HostObject H]

/-! ## Values of a type -/

/-- Whether a value is of a type; every value is of type `Any`. -/
def Value.Has (v : Value H) (type : TypeInfo) : Prop :=
  type = .any ∨ v.typeInfo = type

namespace Value

theorem has_any (v : Value H) : v.Has .any :=
  .inl rfl

theorem has_typeInfo (v : Value H) : v.Has v.typeInfo :=
  .inr rfl

theorem has_number (x : Float) : (number x : Value H).Has .number :=
  .inr rfl

theorem has_of_accepts {v : Value H} {type : TypeInfo} (h : type.accepts v.typeInfo = true) :
    v.Has type := by
  simp only [TypeInfo.accepts, Bool.or_eq_true, beq_iff_eq] at h
  exact h.imp id Eq.symm

theorem typeInfo_of_has {v : Value H} {type : TypeInfo} (h : v.Has type)
    (known : type.isAny = false) : v.typeInfo = type := by
  cases h with
  | inl any => rw [any] at known; cases known
  | inr same => exact same

-- Only numbers are of type `Number`.
theorem eq_number_of_typeInfo {v : Value H} (h : v.typeInfo = .number) :
    ∃ x, v = number x := by
  cases v with
  | number x => exact ⟨x, rfl⟩
  | _ => cases h

end Value

/-! ## Honest declarations -/

/-- What a description of a type declares is true: an operator, a conversion or a member that
returns a value returns one of its declared type, and the negation one of the type described. -/
structure TypeDescriptor.Honest (d : TypeDescriptor H) (type : TypeInfo) : Prop where
  operators : ∀ o ∈ d.operators, ∀ x y v, o.apply x y = .ok v → v.Has o.result
  conversions : ∀ c ∈ d.conversions, ∀ x v, c.apply x = .ok v → v.Has c.target
  members : ∀ m ∈ d.members, ∀ x v, m.get x = .ok v → v.Has m.type
  negation : ∀ f, d.negation? = some f → ∀ x v, f x = .ok v → v.Has type

/-- Every description is honest. -/
def TypeRegistry.Honest (r : TypeRegistry H) : Prop :=
  ∀ type d, r.descriptor? type = some d → d.Honest type

/-- A transform that returns a value returns one of its declared type. -/
def Transform.Honest (t : Transform H) : Prop :=
  ∀ x v, t.apply x = .ok v → v.Has t.output

/-- Every transform is honest. -/
def FunctionRegistry.Honest (r : FunctionRegistry H) : Prop :=
  ∀ name overloads, r.overloads? name = some overloads → ∀ t ∈ overloads, t.Honest

/-- Everything that a host application declares is true. -/
structure Environment.Honest (env : Environment H) : Prop where
  types : env.types.Honest
  functions : env.functions.Honest

/-- The declared types of operators, conversions and members are true; a negation declares none. -/
structure TypeDescriptor.Typed (d : TypeDescriptor H) : Prop where
  operators : ∀ o ∈ d.operators, ∀ x y v, o.apply x y = .ok v → v.Has o.result
  conversions : ∀ c ∈ d.conversions, ∀ x v, c.apply x = .ok v → v.Has c.target
  members : ∀ m ∈ d.members, ∀ x v, m.get x = .ok v → v.Has m.type

/-- The declared types of all descriptions are true. -/
def TypeRegistry.Typed (r : TypeRegistry H) : Prop :=
  ∀ type d, r.descriptor? type = some d → d.Typed

/-- Every type that a host application declares for a result is true.  Nothing is said of what
negations return. -/
structure Environment.Typed (env : Environment H) : Prop where
  types : env.types.Typed
  functions : env.functions.Honest

/-- The negation of a type, if one is declared, stays in the type. -/
def TypeRegistry.KeepsNegated (r : TypeRegistry H) (type : TypeInfo) : Prop :=
  ∀ f, r.negation? type = some f → ∀ x v, f x = .ok v → v.Has type

theorem TypeDescriptor.Honest.typed {d : TypeDescriptor H} {type : TypeInfo} (h : d.Honest type) :
    d.Typed :=
  ⟨h.operators, h.conversions, h.members⟩

theorem TypeRegistry.Honest.typed {r : TypeRegistry H} (h : r.Honest) : r.Typed :=
  fun type d described => (h type d described).typed

theorem Environment.Honest.typed {env : Environment H} (h : env.Honest) : env.Typed :=
  ⟨h.types.typed, h.functions⟩

-- Where all declarations are honest, negations stay in their types.
theorem TypeRegistry.Honest.keepsNegated {r : TypeRegistry H} (h : r.Honest) (type : TypeInfo) :
    r.KeepsNegated type := by
  intro f declared x v hv
  obtain ⟨d, described, negates⟩ := Option.bind_eq_some_iff.mp declared
  exact (h type d described).negation f negates x v hv

-- A member is the keyed entry of a map or the answer of a host object, of which no type is
-- known, or it is declared.
theorem Member.found_cases {r : TypeRegistry H} {owner : TypeInfo} {name : String} {m : Member H}
    (h : resolve r owner name = .found m) :
    (m = ofKey name ∨ m = ofHost name) ∨ ∃ d, r.descriptor? owner = some d ∧ m ∈ d.members := by
  unfold resolve at h
  split at h
  case h_1 => cases h
  case h_2 =>
    cases h
    exact .inl (.inl rfl)
  case h_3 =>
    dsimp only at h
    split at h
    case h_1 =>
      cases h
      exact .inl (.inr rfl)
    case h_2 =>
      split at h
      case h_1 d described => exact .inr ⟨d, described, mem_of_declared h⟩
      case h_2 => cases h

/-! ## Honest results -/

-- A plan that calculates with numbers yields numbers.
theorem Plan.apply_native {p : Plan H} {op : Operation} (kind : p.kind = .native op)
    {x y v : Value H} (h : p.apply x y = .ok v) : ∃ z, v = .number z := by
  unfold Plan.apply at h
  obtain ⟨x', -, h⟩ := ok_of_bind h
  obtain ⟨y', -, h⟩ := ok_of_bind h
  simp only [kind] at h
  split at h
  · split at h
    · cases h
      exact ⟨_, rfl⟩
    · cases h
  · cases h

-- A plan that calls an overload yields what the overload yields.
theorem Plan.apply_overload {p : Plan H} {f : Binary H} (kind : p.kind = .overload f)
    {x y v : Value H} (h : p.apply x y = .ok v) : ∃ x' y', f x' y' = .ok v := by
  unfold Plan.apply at h
  obtain ⟨x', -, h⟩ := ok_of_bind h
  obtain ⟨y', -, h⟩ := ok_of_bind h
  simp only [kind] at h
  exact ⟨x', y', h⟩

namespace TypeRegistry.Typed

variable {r : TypeRegistry H}

theorem conversion? (h : r.Typed) {source target : TypeInfo} {c : Conversion H}
    (found : r.conversion? source target = some c) {x v : Value H} (hv : c.apply x = .ok v) :
    v.Has target := by
  obtain ⟨type, d, -, described, listed, -, rfl⟩ := conversion?_listed found
  exact (h type d described).conversions c listed x v hv

-- What a plan yields is of the type that the plan announces.
theorem plan? (h : r.Typed) {op : Operation} {left right : TypeInfo} {p : Plan H}
    (found : r.plan? op left right = some p) {x y v : Value H} (hv : p.apply x y = .ok v) :
    v.Has p.result := by
  obtain ⟨left', right', -, -, ⟨-, -, kind, result⟩ | ⟨o, listed, kind, result⟩⟩ :=
    plan?_cases found
  · obtain ⟨z, rfl⟩ := Plan.apply_native kind hv
    rw [result]
    exact Value.has_number z
  · obtain ⟨x', y', applied⟩ := Plan.apply_overload kind hv
    obtain ⟨type, d, -, described, offered, -⟩ := overload?_listed listed
    rw [result]
    exact (h type d described).operators o offered x' y' v applied

-- A resolved member reads values of its type.
theorem resolve (h : r.Typed) {owner : TypeInfo} {name : String} {m : Member H}
    (found : Member.resolve r owner name = .found m) {x v : Value H} (hv : m.get x = .ok v) :
    v.Has m.type := by
  rcases Member.found_cases found with (rfl | rfl) | ⟨d, described, listed⟩
  · exact Value.has_any v
  · exact Value.has_any v
  · exact (h owner d described).members m listed x v hv

end TypeRegistry.Typed

namespace Environment

variable {env : Environment H}

-- Normalizing keeps what is known of a normalized type.
theorem has_normalize {v : Value H} {type : TypeInfo} (h : v.Has type) :
    (env.normalize v).Has (Compiled.normalizedType type) := by
  cases type with
  | number =>
    obtain ⟨x, rfl⟩ := Value.eq_number_of_typeInfo (Value.typeInfo_of_has h rfl)
    exact Value.has_number x
  | _ => exact Value.has_any _

-- A converted value is of the type asked for.
theorem Typed.convert (h : env.Typed) {v w : Value H} {target : TypeInfo}
    (hw : env.convert v target = .ok w) : w.Has target := by
  unfold Environment.convert at hw
  dsimp only at hw
  split at hw
  case isTrue accepted =>
    cases hw
    exact Value.has_of_accepts accepted
  case isFalse =>
    split at hw
    case h_1 c found => exact h.types.conversion? found hw
    case h_2 =>
      split at hw
      case isTrue number =>
        split at hw
        case h_1 x _ =>
          cases hw
          rw [number]
          exact Value.has_number x
        case h_2 => cases hw
      case isFalse => cases hw

-- A bound input is of the type declared for its variable.
theorem Typed.bindInput (h : env.Typed) {v w : Value H} {declared : TypeInfo}
    (hw : env.bindInput v declared = .ok w) : w.Has declared := by
  unfold Environment.bindInput at hw
  split at hw
  case isTrue any =>
    rw [eq_of_beq any]
    exact Value.has_any w
  case isFalse => exact h.convert hw

end Environment

end FormulaLang
