import FormulaLang.Proofs.Typing.Registration

/-!
Operator plans.  Whatever a plan calls takes the values that it is called with, and no operand is
converted in vain.  A plan is found when an overload applies to the two types, unless the search for
conversions ends at an overload that is for other types.
-/

namespace FormulaLang

variable {H : Type}

namespace TypeRegistry

variable {r : TypeRegistry H} {op : Operation} {left right : TypeInfo}

/-! ## Overloads that apply -/

/-- One of two types declares an overload that takes a value of its own on its side, and on the
other side something that a value of the other type can stand for. -/
def Applies (r : TypeRegistry H) (op : Operation) (left right : TypeInfo) : Prop :=
  (∃ d o, r.descriptor? left = some d ∧ o ∈ d.operatorsFor op ∧ o.left = left ∧
    r.castable right o.right = true) ∨
  ∃ d o, r.descriptor? right = some d ∧ o ∈ d.operatorsFor op ∧ o.right = right ∧
    r.castable left o.left = true

/-- Two types that an operator takes as they are: both are numbers, or one of them declares an
overload for exactly these. -/
def Combines (r : TypeRegistry H) (op : Operation) (left right : TypeInfo) : Prop :=
  (left = .number ∧ right = .number) ∨ ∃ o, r.overload? op left right = some o

/-- The overload of the left type at which the search for conversions ends. -/
def foundByLeft? (r : TypeRegistry H) (op : Operation) (left right : TypeInfo) :
    Option (Overload H) :=
  (r.descriptor? left).bind fun d =>
    (d.operatorsFor op).find? fun o => r.castable right o.right

/-- The overload of the right type at which the search ends when the left one has none. -/
def foundByRight? (r : TypeRegistry H) (op : Operation) (left right : TypeInfo) :
    Option (Overload H) :=
  (r.descriptor? right).bind fun d =>
    (d.operatorsFor op).find? fun o => r.castable left o.left

/-- The search ends at an overload that takes something else than the type by which it is declared,
and the types to convert to cannot be combined. -/
inductive Shadowed (r : TypeRegistry H) (op : Operation) (left right : TypeInfo) : Prop where
  | byLeft {o : Overload H} (found : r.foundByLeft? op left right = some o)
      (foreign : o.left ≠ left) (uncombined : ¬ r.Combines op left o.right)
  | byRight {o : Overload H} (none : r.foundByLeft? op left right = none)
      (found : r.foundByRight? op left right = some o) (foreign : o.right ≠ right)
      (uncombined : ¬ r.Combines op o.left right)

theorem coercion?_eq (r : TypeRegistry H) (op : Operation) (left right : TypeInfo) :
    r.coercion? op left right =
      ((r.foundByLeft? op left right).map fun o => ⟨left, o.right⟩).or
        ((r.foundByRight? op left right).map fun o => ⟨o.left, right⟩) := by
  unfold coercion? foundByLeft? foundByRight?
  rw [Option.map_bind, Option.map_bind]
  rfl

-- An overload that one of its own two types lists makes them combine.
theorem combines_of_listed {type : TypeInfo} {d : TypeDescriptor H} {o : Overload H}
    (described : r.descriptor? type = some d) (listed : o ∈ d.operatorsFor op)
    (own : type = o.left ∨ type = o.right) : r.Combines op o.left o.right := by
  have offered : d ∈ [o.left, o.right].filterMap r.descriptor? := by
    refine List.mem_filterMap.mpr ⟨type, ?_, described⟩
    rcases own with rfl | rfl
    · exact List.mem_cons_self
    · exact List.mem_cons_of_mem _ List.mem_cons_self
  have exact : ((d.operatorsFor op).find? fun o' => o'.left = o.left ∧ o'.right = o.right).isSome
      = true :=
    List.find?_isSome.mpr ⟨o, listed, by simp only [and_self, decide_true]⟩
  refine .inr (Option.isSome_iff_exists.mp ?_)
  exact List.findSome?_isSome_iff.mpr ⟨d, offered, exact⟩

theorem foundByLeft?_listed {o : Overload H} (h : r.foundByLeft? op left right = some o) :
    ∃ d, r.descriptor? left = some d ∧ o ∈ d.operatorsFor op ∧ r.castable right o.right = true := by
  obtain ⟨d, described, found⟩ := Option.bind_eq_some_iff.mp h
  have castable := List.find?_some found
  exact ⟨d, described, List.mem_of_find?_eq_some found, castable⟩

theorem foundByRight?_listed {o : Overload H} (h : r.foundByRight? op left right = some o) :
    ∃ d, r.descriptor? right = some d ∧ o ∈ d.operatorsFor op ∧ r.castable left o.left = true := by
  obtain ⟨d, described, found⟩ := Option.bind_eq_some_iff.mp h
  have castable := List.find?_some found
  exact ⟨d, described, List.mem_of_find?_eq_some found, castable⟩

-- Where an overload applies, the search ends at some overload.
theorem Applies.found (h : r.Applies op left right) :
    (∃ o, r.foundByLeft? op left right = some o) ∨ ∃ o, r.foundByRight? op left right = some o := by
  rcases h with ⟨d, o, described, listed, -, castable⟩ | ⟨d, o, described, listed, -, castable⟩
  · left
    rw [foundByLeft?, described]
    exact Option.isSome_iff_exists.mp (List.find?_isSome.mpr ⟨o, listed, castable⟩)
  · right
    rw [foundByRight?, described]
    exact Option.isSome_iff_exists.mp (List.find?_isSome.mpr ⟨o, listed, castable⟩)

theorem step?_of_castable {source target : TypeInfo} (h : r.castable source target = true) :
    ∃ step, r.step? source target = some step := by
  unfold step?
  split
  case isTrue => exact ⟨_, rfl⟩
  case isFalse refused =>
    rw [castable, Bool.or_eq_true] at h
    obtain ⟨c, found⟩ := Option.isSome_iff_exists.mp (h.resolve_left refused)
    rw [found]
    exact ⟨_, rfl⟩

-- Operands can be converted as the search says.
theorem steps_of_coercion? {c : Coercion} (h : r.coercion? op left right = some c) :
    (∃ step, r.step? left c.left = some step) ∧ ∃ step, r.step? right c.right = some step := by
  rw [coercion?_eq, Option.or_eq_some_iff] at h
  rcases h with byLeft | ⟨-, byRight⟩
  · obtain ⟨o, found, rfl⟩ := Option.map_eq_some_iff.mp byLeft
    obtain ⟨d, -, -, castable⟩ := foundByLeft?_listed found
    exact ⟨⟨_, step?_self left⟩, step?_of_castable castable⟩
  · obtain ⟨o, found, rfl⟩ := Option.map_eq_some_iff.mp byRight
    obtain ⟨d, -, -, castable⟩ := foundByRight?_listed found
    exact ⟨step?_of_castable castable, ⟨_, step?_self right⟩⟩

/-- A plan is found exactly when the types can be combined as they are, or as the search for
conversions says. -/
theorem plan?_isSome_iff :
    (r.plan? op left right).isSome = true ↔
      r.Combines op left right ∨
        ∃ c, r.coercion? op left right = some c ∧ r.Combines op c.left c.right := by
  constructor
  · intro h
    obtain ⟨p, found⟩ := Option.isSome_iff_exists.mp h
    unfold plan? at found
    split at found
    case isTrue numbers => exact .inl (.inl numbers)
    case isFalse =>
      split at found
      case h_1 o exact => exact .inl (.inr ⟨o, exact⟩)
      case h_2 =>
        obtain ⟨c, searched, found⟩ := Option.bind_eq_some_iff.mp found
        obtain ⟨leftStep, -, found⟩ := Option.bind_eq_some_iff.mp found
        obtain ⟨rightStep, -, found⟩ := Option.bind_eq_some_iff.mp found
        refine .inr ⟨c, searched, ?_⟩
        split at found
        case isTrue numbers => exact .inl numbers
        case isFalse =>
          obtain ⟨o, exact, -⟩ := Option.bind_eq_some_iff.mp found
          exact .inr ⟨o, exact⟩
  · intro h
    unfold plan?
    split
    case isTrue => rfl
    case isFalse other =>
      split
      case h_1 => rfl
      case h_2 unlisted =>
        -- nothing is for the types as they are, so it is the search that finds something
        have uncombined : ¬ r.Combines op left right := by
          rintro (numbers | ⟨o, exact⟩)
          · exact other numbers
          · rw [unlisted] at exact
            cases exact
        obtain ⟨c, searched, combined⟩ := h.resolve_left uncombined
        obtain ⟨⟨leftStep, hl⟩, rightStep, hr⟩ := steps_of_coercion? searched
        simp only [searched, hl, hr, Option.bind_eq_bind, Option.bind_some]
        split
        case isTrue => rfl
        case isFalse different =>
          obtain ⟨o, exact⟩ := combined.resolve_left different
          rw [exact]
          rfl

/-- Where an overload applies to two types, a plan is missing exactly when no overload is for the
types as they are and the search ends at one that is for other types. -/
theorem plan?_eq_none_iff_of_applies (h : r.Applies op left right) :
    r.plan? op left right = none ↔ ¬ r.Combines op left right ∧ r.Shadowed op left right := by
  rw [← Option.not_isSome_iff_eq_none, plan?_isSome_iff, not_or]
  refine and_congr_right fun _ => ?_
  rw [coercion?_eq]
  constructor
  · intro unplanned
    cases byLeft : r.foundByLeft? op left right with
    | some o =>
      rw [byLeft] at unplanned
      have uncombined : ¬ r.Combines op left o.right := fun combined => unplanned ⟨_, rfl, combined⟩
      refine .byLeft byLeft (fun own => uncombined ?_) uncombined
      obtain ⟨d, described, listed, -⟩ := foundByLeft?_listed byLeft
      rw [← own]
      exact combines_of_listed described listed (.inl own.symm)
    | none =>
      obtain ⟨o, byRight⟩ := h.found.resolve_left fun ⟨o, found⟩ => by
        rw [byLeft] at found
        cases found
      rw [byLeft, byRight] at unplanned
      have uncombined : ¬ r.Combines op o.left right := fun combined => unplanned ⟨_, rfl, combined⟩
      refine .byRight byLeft byRight (fun own => uncombined ?_) uncombined
      obtain ⟨d, described, listed, -⟩ := foundByRight?_listed byRight
      rw [← own]
      exact combines_of_listed described listed (.inr own.symm)
  · rintro (⟨found, -, uncombined⟩ | ⟨none, found, -, uncombined⟩) ⟨c, searched, combined⟩
    · rw [found] at searched
      cases searched
      exact uncombined combined
    · rw [none, found] at searched
      cases searched
      exact uncombined combined

/-! ## What plans do -/

/-- A conversion that returns a value returns one of the type that it is declared to convert to. -/
def Converts [HostObject H] (r : TypeRegistry H) : Prop :=
  ∀ type d, r.descriptor? type = some d → ∀ c ∈ d.conversions, ∀ x v, c.apply x = .ok v →
    v.Has c.target

end TypeRegistry

/-- What a plan for an operator on two types does with two values, given what it converts them to.
A parameter that takes the type of an operand leaves the operand unconverted. -/
inductive Plan.Performs [HostObject H] (p : Plan H) (r : TypeRegistry H) (op : Operation)
    (left right : TypeInfo) (x y x' y' : Value H) : Prop where
  /-- It calculates with two numbers, and without fail if the operator is arithmetic or a power. -/
  | calculates {a b : Float} (leftNumber : x' = .number a) (rightNumber : y' = .number b)
      (native : p.kind = .native op) (result : p.result = .number)
      (able : op.isArithmetic = true ∨ op = .power →
        ∃ z, op.onNumbers? a b = some z ∧ p.apply x y = .ok (.number z))
      (leftKept : TypeInfo.number.accepts left = true → p.left? = none)
      (rightKept : TypeInfo.number.accepts right = true → p.right? = none)
  /-- It calls an overload that one of its own two types lists, with values that it takes. -/
  | calls {type : TypeInfo} {d : TypeDescriptor H} {o : Overload H}
      (own : type = o.left ∨ type = o.right) (described : r.descriptor? type = some d)
      (listed : o ∈ d.operatorsFor op) (takesLeft : x'.Has o.left) (takesRight : y'.Has o.right)
      (overload : p.kind = .overload o.apply) (result : p.result = o.result)
      (applied : p.apply x y = o.apply x' y')
      (leftKept : o.left.accepts left = true → p.left? = none)
      (rightKept : o.right.accepts right = true → p.right? = none)

section

variable [HostObject H] {p : Plan H} {op : Operation}

-- Once its operands are converted, a plan does what its kind says.
theorem Plan.apply_overload_of_prepare {f : Binary H} (kind : p.kind = .overload f)
    {x y x' y' : Value H} (hx : Plan.prepare p.left? x = .ok x')
    (hy : Plan.prepare p.right? y = .ok y') : p.apply x y = f x' y' := by
  simp only [Plan.apply, hx, hy, kind, bind, Except.bind]

theorem Plan.apply_native_of_prepare {a b z : Float} (kind : p.kind = .native op) {x y : Value H}
    (hx : Plan.prepare p.left? x = .ok (.number a)) (hy : Plan.prepare p.right? y = .ok (.number b))
    (able : op.onNumbers? a b = some z) : p.apply x y = .ok (.number z) := by
  simp only [Plan.apply, hx, hy, kind, able, bind, Except.bind]

end

namespace TypeRegistry

variable [HostObject H] {r : TypeRegistry H} {op : Operation} {left right : TypeInfo} {p : Plan H}

theorem Typed.converts (h : r.Typed) : r.Converts :=
  fun type d described => (h type d described).conversions

-- A step makes a value of the one type a value of the other.
theorem Converts.prepare (h : r.Converts) {source target : TypeInfo} {convert? : Option (Unary H)}
    (step : r.step? source target = some convert?) {v w : Value H} (hv : v.Has source)
    (prepared : Plan.prepare convert? v = .ok w) : w.Has target := by
  unfold step? at step
  split at step
  case isTrue accepted =>
    cases step
    cases prepared
    simp only [TypeInfo.accepts, Bool.or_eq_true, beq_iff_eq] at accepted
    rcases accepted with rfl | rfl
    · exact Value.has_any v
    · exact hv
  case isFalse =>
    obtain ⟨c, found, same⟩ := Option.map_eq_some_iff.mp step
    cases same
    obtain ⟨type, d, -, described, listed, -, rfl⟩ := conversion?_listed found
    exact h type d described c listed v w prepared

omit [HostObject H] in
-- A step to a type that takes the other one as it is converts nothing.
theorem kept_of_step? {source target : TypeInfo} {convert? : Option (Unary H)}
    (step : r.step? source target = some convert?) (accepted : target.accepts source = true) :
    convert? = none := by
  rw [step?, if_pos accepted] at step
  exact (Option.some.inj step).symm

/-- A plan that is found for two types, applied to values of these types that it can convert, either
calculates with numbers or calls a listed overload whose parameters take the values passed; it
announces the result of what it does, and converts no operand that could be passed as it is. -/
theorem plan?_performs (converts : r.Converts) (found : r.plan? op left right = some p)
    {x y x' y' : Value H} (hx : x.Has left) (hy : y.Has right)
    (leftPrepared : Plan.prepare p.left? x = .ok x')
    (rightPrepared : Plan.prepare p.right? y = .ok y') :
    p.Performs r op left right x y x' y' := by
  obtain ⟨left', right', leftStep, rightStep, plan⟩ := plan?_cases found
  have hx' := converts.prepare leftStep hx leftPrepared
  have hy' := converts.prepare rightStep hy rightPrepared
  rcases plan with ⟨rfl, rfl, kind, result⟩ | ⟨o, listed, kind, result⟩
  · obtain ⟨a, rfl⟩ := Value.eq_number_of_typeInfo (Value.typeInfo_of_has hx' rfl)
    obtain ⟨b, rfl⟩ := Value.eq_number_of_typeInfo (Value.typeInfo_of_has hy' rfl)
    refine .calculates rfl rfl kind result (fun arithmetic => ?_) (kept_of_step? leftStep)
      (kept_of_step? rightStep)
    obtain ⟨z, able⟩ := Operation.onNumbers?_isSome arithmetic a b
    exact ⟨z, able, Plan.apply_native_of_prepare kind leftPrepared rightPrepared able⟩
  · obtain ⟨type, d, own, described, offered, rfl, rfl, rfl⟩ := overload?_listed listed
    have listed : o ∈ d.operatorsFor o.op :=
      List.mem_filter.mpr ⟨offered, by simp only [decide_true]⟩
    simp only [List.mem_cons, List.not_mem_nil, or_false] at own
    exact .calls own described listed hx' hy' kind result
      (Plan.apply_overload_of_prepare kind leftPrepared rightPrepared) (kept_of_step? leftStep)
      (kept_of_step? rightStep)

end TypeRegistry

/-! ## Spans -/

/-- A length with its unit. -/
structure Span where
  meters : Float

instance : HostObject Span where
  typeName _ := "Span"
  shown _ := "a span"
  toNumber? _ := none
  member? _ _ := none
  entry? _ _ := none
  identity s := s.meters.toBits.toNat

namespace Span

def type : TypeInfo := .host "Span"

def ofNumber : Unary Span
  | .number x => .ok (.host ⟨x⟩)
  | v => .error (.solving (.expectsNumber "span" v.typeInfo))

def area : Binary Span
  | .host s, .host t => .ok (.number (s.meters * t.meters))
  | v, _ => .error (.solving (.expectedHost v.typeInfo))

/-- The right one of two values. -/
def latter : Binary Span :=
  fun _ v => .ok v

/-- Spans that are multiplied, and that numbers can stand for. -/
def measured : TypeDescriptor Span :=
  (TypeDescriptor.bare type).withOperator .multiply type type .number area
    |>.withConversion .number type ofNumber

theorem typed_measured : measured.Typed := by
  have areas : ∀ x y v, area x y = .ok v → v.Has .number := by
    intro x y v h
    cases x <;> cases y <;> cases h
    exact Value.has_number _
  have spans : ∀ x v, ofNumber x = .ok v → v.Has type := by
    intro x v h
    cases x <;> cases h
    exact Value.has_typeInfo _
  have bare := TypeDescriptor.honest_bare (H := Span) type
  exact ((bare.withOperator areas).withConversion spans).typed

/-- A sum of a span and anything, and behind it the sum of a number and a span. -/
def wideFirst : TypeDescriptor Span :=
  (TypeDescriptor.bare type).withOperator .add type .any .any latter
    |>.withOperator .add .number type type latter

/-- The same sums the other way round. -/
def wideLast : TypeDescriptor Span :=
  (TypeDescriptor.bare type).withOperator .add .number type type latter
    |>.withOperator .add type .any .any latter

/-- The language's own types and spans. -/
def registry (d : TypeDescriptor Span) : TypeRegistry Span :=
  TypeRegistry.builtins.register d ["span"]

-- A number by a span: the number is converted, and the product of two spans is called.
theorem plan?_performs_number_by_span :
    ∃ p, (registry measured).plan? .multiply .number type = some p ∧
      p.Performs (registry measured) .multiply .number type (.number 2) (.host ⟨3⟩) (.host ⟨2⟩)
        (.host ⟨3⟩) := by
  have typed : (registry measured).Typed :=
    TypeRegistry.honest_builtins.typed.register typed_measured _
  exact ⟨_, rfl, TypeRegistry.plan?_performs typed.converts rfl (Value.has_number 2)
    (Value.has_typeInfo _) rfl rfl⟩

theorem applies_wideFirst : (registry wideFirst).Applies .add type type :=
  .inl ⟨wideFirst, _, rfl, List.mem_cons_self, rfl, rfl⟩

theorem applies_wideLast : (registry wideLast).Applies .add type type :=
  .inl ⟨wideLast, _, rfl, List.mem_cons_of_mem _ List.mem_cons_self, rfl, rfl⟩

theorem plan?_eq_none_iff_of_applies_wideFirst :
    (registry wideFirst).Applies .add type type ∧
      (registry wideFirst).plan? .add type type ≠ none := by
  refine ⟨applies_wideFirst, fun missing => ?_⟩
  obtain ⟨-, shadowed⟩ := (TypeRegistry.plan?_eq_none_iff_of_applies applies_wideFirst).mp missing
  cases shadowed with
  | byLeft found foreign =>
    cases found
    exact foreign rfl
  | byRight none => cases none

/-- The sum of a span and anything applies to two spans, but no plan is found for them when the sum
of a number and a span is declared first. -/
theorem plan?_misses_applicable :
    (registry wideLast).Applies .add type type ∧
      (registry wideLast).plan? .add type type = none :=
  ⟨applies_wideLast, rfl⟩

end Span

end FormulaLang
