import FormulaLang.Proofs.Compilation.PartialApplication

/-!
Compiled formulas and what is registered after they have been compiled.  Compiled code never looks
at the registered transforms: it has kept the overloads of the transforms that it applies.  The
types it does look at are those of the moment it is run, except where the types of operands were
known to the compiler.
-/

namespace FormulaLang

variable {H : Type}

/-! ## Other transforms -/

/-- The environment with the transforms of another registry. -/
def Environment.withFunctions (env : Environment H) (functions : FunctionRegistry H) :
    Environment H :=
  { env with functions }

namespace Term

/-- Two registries have the same overloads of each transform that the term applies. -/
def AppliesAlike (functions functions' : FunctionRegistry H) (t : Term) : Prop :=
  ∀ name l r argument,
    node (.operator .transform) (node (.name name) l r) argument ∈ t.evaluated →
      functions.overloads? name = functions'.overloads? name

theorem AppliesAlike.of_subset {functions functions' : FunctionRegistry H} {s t : Term}
    (h : t.AppliesAlike functions functions') (below : s.evaluated ⊆ t.evaluated) :
    s.AppliesAlike functions functions' :=
  fun name l r argument applied => h name l r argument (below applied)

variable [HostObject H]

-- The registry plays no part but for the overloads of the transforms that are applied.
theorem value_withFunctions {env : Environment H} {functions : FunctionRegistry H} {t : Term}
    (alike : t.AppliesAlike functions env.functions) (bindings : Bindings H) :
    t.value (env.withFunctions functions) bindings = t.value env bindings := by
  induction t with
  | absent => rfl
  | node token left right hl hr =>
    cases token with
    | operator op =>
      cases op with
      | negate =>
        rw [value, value, hr (alike.of_subset fun _ below => List.mem_cons_of_mem _ below)]
        rfl
      | property =>
        rw [value, value, hl (alike.of_subset fun _ below => List.mem_cons_of_mem _ below)]
        rfl
      | index =>
        have owner := hl (alike.of_subset (evaluated_owner left right))
        obtain ⟨key, l, r, rfl⟩ | evaluated := right.name_or_evaluated
        · rw [value, value, owner]
          rfl
        · have key := hr (alike.of_subset (evaluated_key left evaluated))
          rw [value_index _ _ _ evaluated, value_index _ _ _ evaluated, owner, key]
          rfl
      | transform =>
        have argument := hr (alike.of_subset fun _ below => List.mem_cons_of_mem _ below)
        rw [value, value, argument]
        cases named : left.nameOperand Failure.solving with
        | error e => rfl
        | ok name =>
          obtain ⟨l, r, rfl⟩ := nameOperand_ok_iff.mp named
          have same : (env.withFunctions functions).transform name = env.transform name := by
            funext v
            unfold Environment.transform
            rw [← alike name l r right (mem_evaluated_self _)]
            rfl
          show Except.mapError _ (right.value env bindings >>= _) = _
          rw [same]
          rfl
      | _ =>
        have x := hl (alike.of_subset fun _ below =>
          List.mem_cons_of_mem _ (List.mem_append_left _ below))
        have y := hr (alike.of_subset fun _ below =>
          List.mem_cons_of_mem _ (List.mem_append_right _ below))
        simp only [value, x, y]
        rfl
    | _ => rfl

end Term

/-! ## Code and the registered transforms -/

namespace Compiled

/-- Code that runs alike whatever transforms are registered. -/
def Resolved (compiled : Compiled H) : Prop :=
  ∀ frame functions,
    compiled.code ⟨frame.env.withFunctions functions, frame.inputs⟩ = compiled.code frame

variable {operand left right : Compiled H}

theorem Resolved.within (h : operand.Resolved) (text : String) : (operand.within text).Resolved :=
  fun frame functions => congrArg (Solve.mapFailure _) (h frame functions)

-- Code that goes on with the value of its operand by a rule that looks at no transform.
theorem Resolved.andThen (h : operand.Resolved) {f : Frame H → Value H → Solve H (Value H)}
    (rule : ∀ frame functions, f ⟨frame.env.withFunctions functions, frame.inputs⟩ = f frame)
    (type : TypeInfo) :
    (⟨fun frame => operand.code frame >>= f frame, type⟩ : Compiled H).Resolved := by
  intro frame functions
  show operand.code _ >>= f _ = _
  rw [h, rule]

theorem Resolved.andThen₂ (hl : left.Resolved) (hr : right.Resolved)
    {f : Frame H → Value H → Value H → Except Failure (Value H)}
    (rule : ∀ frame functions, f ⟨frame.env.withFunctions functions, frame.inputs⟩ = f frame)
    (type : TypeInfo) :
    (⟨fun frame => do
      let x ← left.code frame
      let y ← right.code frame
      Solve.ofExcept (f frame x y), type⟩ : Compiled H).Resolved := by
  intro frame functions
  dsimp only
  rw [hl, hr, rule]

/-- The types that the compiler knows of parts whose variables may be anything. -/
def IsLoose (compiled : Compiled H) : Prop :=
  compiled.type = .any ∨ compiled.type = .number

theorem isLoose_normalizedType (code : Code H) (type : TypeInfo) :
    (⟨code, normalizedType type⟩ : Compiled H).IsLoose := by
  cases type with
  | number => exact .inr rfl
  | _ => exact .inl rfl

end Compiled

variable [HostObject H]

namespace CompilerInput

variable {c : CompilerInput H}

theorem resolved_variableCode {name : String} {compiled : Compiled H}
    (built : c.variableCode name = .ok compiled) : compiled.Resolved := by
  unfold variableCode at built
  split at built
  · split at built <;> cases built <;> exact fun _ _ => rfl
  · cases built

theorem resolved_negateCode {operand compiled : Compiled H} (h : operand.Resolved)
    (built : c.negateCode operand = .ok compiled) : compiled.Resolved := by
  unfold negateCode at built
  split at built
  case h_3 =>
    split at built <;> cases built
    exact h.andThen (fun _ _ => rfl) _
  all_goals
    cases built
    exact h.andThen (fun _ _ => rfl) _

theorem resolved_binaryCode {op : Operation} {left right compiled : Compiled H} (hl : left.Resolved)
    (hr : right.Resolved) (built : c.binaryCode op left right = .ok compiled) :
    compiled.Resolved := by
  unfold binaryCode at built
  dsimp only at built
  split at built
  · cases built
    exact hl.andThen₂ hr (fun _ _ => rfl) _
  · split at built
    · cases built
    · split at built <;> cases built <;> exact hl.andThen₂ hr (fun _ _ => rfl) _

theorem resolved_propertyCode {owner : Compiled H} (name : String) (h : owner.Resolved) :
    (c.propertyCode owner name).Ensures c.env.types Compiled.Resolved := by
  unfold propertyCode
  split
  · refine (Solve.gives_pure _).ensures fun compiled built => ?_
    cases built
    exact h.andThen (fun _ _ => rfl) _
  · refine ((c.env.member_gives owner.type name).ensures fun _ h => h).bind fun result _ => ?_
    cases result with
    | error cause => exact (Solve.gives_throw _).ensures fun _ h => by cases h
    | ok m =>
      refine (Solve.gives_pure _).ensures fun compiled built => ?_
      cases built
      exact h.andThen (fun _ _ => rfl) _

theorem resolved_indexCode {owner key compiled : Compiled H} (ho : owner.Resolved)
    (hk : key.Resolved) (built : indexCode owner key = .ok compiled) : compiled.Resolved := by
  unfold indexCode at built
  dsimp only at built
  split at built <;> cases built
  exact ho.andThen₂ hk (fun _ _ => rfl) _

theorem resolved_transformCode {name : String} {argument compiled : Compiled H}
    (h : argument.Resolved) (built : c.transformCode name argument = .ok compiled) :
    compiled.Resolved := by
  unfold transformCode at built
  split at built
  · cases built
  · split at built
    · cases built
      exact h.andThen (fun _ _ => rfl) _
    · split at built <;> cases built
      exact h.andThen (fun _ _ => rfl) _

theorem keeps_resolved (c : CompilerInput H) : c.Keeps Compiled.Resolved where
  constant _ _ _ := rfl
  variableCode := resolved_variableCode
  within text h := h.within text
  negateCode := resolved_negateCode
  binaryCode := resolved_binaryCode
  propertyCode := resolved_propertyCode
  indexCode := resolved_indexCode
  transformCode := resolved_transformCode

end CompilerInput

namespace Formula

/-- A compiled formula is solved alike whatever transforms are registered. -/
theorem compile_resolved (env : Environment H) (f : Formula) (initial : List (Value H)) :
    (f.compile env initial).Ensures env.types fun fast => ∀ env' functions inputs,
      fast.solve (env'.withFunctions functions) inputs = fast.solve env' inputs := by
  refine ((Solve.gives_ofExcept _).ensures fun _ h => h).bind fun c prepared => ?_
  rw [← CompilerInput.env_of_prepare prepared]
  refine (f.term.compile_keeps c.keeps_resolved).bind fun compiled resolved => ?_
  refine (Solve.gives_pure _).ensures fun fast built env' functions inputs => ?_
  cases built
  unfold FastFormula.solve
  have code (bindings : Bindings H) :=
    resolved ⟨env', bindings.map Prod.snd⟩ functions
  simp only at code
  simp only [code]
  rfl

end Formula

/-! ## Operands of any type -/

namespace CompilerInput

variable {c : CompilerInput H} {operand left right compiled : Compiled H} (env : Environment H)

-- Each operator follows the rule of the environment that its code is run in.
theorem sound_negate_later (loose : operand.IsLoose) (built : c.negateCode operand = .ok compiled) :
    compiled.IsLoose ∧ ∀ inputs r, operand.Sound ⟨env, inputs⟩ r →
      compiled.Sound ⟨env, inputs⟩ (r >>= env.negate) := by
  unfold negateCode at built
  rcases loose with any | number
  · rw [any] at built
    cases built
    refine ⟨.inl rfl, fun inputs r h => ?_⟩
    exact h.andThen (fun v _ => Solve.gives_ofExcept _) (fun _ _ w _ => Value.has_any w) rfl
  · rw [number] at built
    cases built
    refine ⟨.inr rfl, fun inputs r h => ?_⟩
    refine h.andThen (fun v _ => Solve.gives_ofExcept _) (fun v hv w hw => ?_) rfl
    rw [number] at hv
    obtain ⟨x, rfl⟩ := Value.eq_number_of_typeInfo (Value.typeInfo_of_has hv rfl)
    cases hw
    exact Value.has_number _

theorem sound_binary_later {op : Operation} (arithmetic : op.isArithmetic = true ∨ op = .power)
    (looseL : left.IsLoose) (looseR : right.IsLoose)
    (built : c.binaryCode op left right = .ok compiled) :
    compiled.IsLoose ∧ ∀ inputs r s, left.Sound ⟨env, inputs⟩ r → right.Sound ⟨env, inputs⟩ s →
      compiled.Sound ⟨env, inputs⟩ (do
        let x ← r
        let y ← s
        env.binary op x y) := by
  unfold binaryCode at built
  dsimp only at built
  split at built
  case isTrue any =>
    cases built
    refine ⟨.inl rfl, fun inputs r s hl hr => ?_⟩
    exact hl.andThen₂ hr (fun _ _ _ _ => rfl) (fun _ _ _ _ w _ => Value.has_any w) rfl
  case isFalse known =>
    -- both types are known, so both are numbers, and their plan is native
    simp only [Bool.or_eq_true, not_or, Bool.not_eq_true] at known
    have numberL : left.type = .number := looseL.resolve_left fun any => by
      rw [any] at known
      cases known.1
    have numberR : right.type = .number := looseR.resolve_left fun any => by
      rw [any] at known
      cases known.2
    rw [numberL, numberR] at built
    cases built
    refine ⟨.inr rfl, fun inputs r s hl hr => ?_⟩
    have numbers (x y : Value H) (hx : x.Has left.type) (hy : y.Has right.type) :
        ∃ a b z, x = .number a ∧ y = .number b ∧ op.onNumbers? a b = some z := by
      rw [numberL] at hx
      rw [numberR] at hy
      obtain ⟨a, rfl⟩ := Value.eq_number_of_typeInfo (Value.typeInfo_of_has hx rfl)
      obtain ⟨b, rfl⟩ := Value.eq_number_of_typeInfo (Value.typeInfo_of_has hy rfl)
      obtain ⟨z, hz⟩ := Operation.onNumbers?_isSome arithmetic a b
      exact ⟨a, b, z, rfl, rfl, hz⟩
    refine hl.andThen₂ hr (fun x y hx hy => ?_) (fun x y hx hy w hw => ?_) rfl
    · obtain ⟨a, b, z, rfl, rfl, hz⟩ := numbers x y hx hy
      rw [Environment.binary_numbers hz]
      simp only [hz]
    · obtain ⟨a, b, z, rfl, rfl, hz⟩ := numbers x y hx hy
      rw [Environment.binary_numbers hz] at hw
      cases hw
      exact Value.has_number z

theorem sound_index_later (built : indexCode left right = .ok compiled) :
    compiled.IsLoose ∧ ∀ inputs r s, left.Sound ⟨env, inputs⟩ r → right.Sound ⟨env, inputs⟩ s →
      compiled.Sound ⟨env, inputs⟩ (r >>= fun owner => s >>= env.index owner) := by
  unfold indexCode at built
  dsimp only at built
  split at built
  case h_7 =>
    cases built
    refine ⟨.inl rfl, fun inputs r s hl hr => ?_⟩
    exact hl.andThen₂ hr (fun _ _ _ _ => rfl) (fun _ _ _ _ w _ => Value.has_any w) rfl
  all_goals cases built

theorem ensures_property_later (owner : Compiled H) (name : String)
    (alike : owner.type.isAny = false → ∀ m,
      Member.resolve c.env.types owner.type name = .found m →
        Member.resolve env.types owner.type name = .found m ∧
          ∀ x v, m.get x = .ok v → v.Has m.type) :
    (c.propertyCode owner name).Ensures c.env.types fun compiled =>
      compiled.IsLoose ∧ ∀ inputs r, owner.Sound ⟨env, inputs⟩ r →
        compiled.Sound ⟨env, inputs⟩ (r >>= fun v => env.propertyAfresh v name) := by
  unfold propertyCode
  split
  case isTrue any =>
    refine (Solve.gives_pure _).ensures fun compiled built => ?_
    cases built
    refine ⟨.inl rfl, fun inputs r h => ?_⟩
    exact h.andThen (fun v _ => env.property_gives v name) (fun _ _ w _ => Value.has_any w) rfl
  case isFalse known =>
    rw [Bool.not_eq_true] at known
    refine ((c.env.member_gives owner.type name).ensures fun _ h => h).bind fun result found => ?_
    cases result with
    | error cause => exact (Solve.gives_throw _).ensures fun _ h => by cases h
    | ok m =>
      obtain ⟨resolved, honest⟩ :=
        alike known m (MemberLookup.found_of_toResult (Except.ok.inj found))
      refine (Solve.gives_pure _).ensures fun compiled built => ?_
      cases built
      refine ⟨Compiled.isLoose_normalizedType _ _, fun inputs r h => ?_⟩
      have same (v : Value H) (hv : v.Has owner.type) :
          env.propertyAfresh v name = (m.get v).map env.normalize := by
        rw [Environment.propertyAfresh, Value.typeInfo_of_has hv known, resolved,
          MemberLookup.toResult]
      refine h.andThen (fun v hv => ?_) (fun v hv w hw => ?_) rfl
      · rw [same v hv]
        exact Solve.gives_ofExcept _
      · rw [same v hv] at hw
        obtain ⟨u, hu, rfl⟩ := ok_of_map hw
        exact Environment.has_normalize (honest v u hu)

-- The overloads are those that were registered when the code was built.
theorem sound_transform_later {name : String}
    (alike : operand.type.isAny = false → ∀ overloads t,
      c.env.functions.overloads? name = some overloads →
        Transform.select? overloads operand.type c.env.types = some t →
          Transform.select? overloads operand.type env.types = some t ∧ t.Honest)
    (built : c.transformCode name operand = .ok compiled) :
    compiled.IsLoose ∧ ∀ inputs r, operand.Sound ⟨env, inputs⟩ r →
      compiled.Sound ⟨env, inputs⟩
        (r >>= (env.withFunctions c.env.functions).transform name) := by
  unfold transformCode at built
  split at built
  case h_1 => cases built
  case h_2 overloads known =>
    have dispatched (v : Value H) : (env.withFunctions c.env.functions).transform name v =
        env.dispatch name overloads v := by
      unfold Environment.transform Environment.withFunctions
      rw [known]
      rfl
    split at built
    case isTrue any =>
      cases built
      refine ⟨.inl rfl, fun inputs r h => ?_⟩
      refine h.andThen (fun v _ => ?_) (fun _ _ w _ => Value.has_any w) rfl
      rw [dispatched]
      exact Solve.gives_ofExcept _
    case isFalse typed =>
      rw [Bool.not_eq_true] at typed
      split at built
      case h_1 => cases built
      case h_2 t selected =>
        cases built
        obtain ⟨still, honest⟩ := alike typed overloads t known selected
        refine ⟨Compiled.isLoose_normalizedType _ _, fun inputs r h => ?_⟩
        have same (v : Value H) (hv : v.Has operand.type) :
            (env.withFunctions c.env.functions).transform name v = env.call t v := by
          rw [dispatched, Environment.dispatch, Value.typeInfo_of_has hv typed, still]
        refine h.andThen (fun v hv => ?_) (fun v hv w hw => ?_) rfl
        · rw [same v hv]
          exact Solve.gives_ofExcept _
        · rw [same v hv] at hw
          obtain ⟨u, hu, rfl⟩ := ok_of_map hw
          exact Environment.has_normalize (honest _ u hu)

/-- Building ends with code of a loose type that gives the results `r` in a later environment. -/
def BuildsLater (c : CompilerInput H) (env : Environment H) (m : Solve H (Compiled H))
    (r : Bindings H → Except Failure (Value H)) : Prop :=
  m.Ensures c.env.types fun compiled => compiled.IsLoose ∧
    ∀ inputs bindings, c.Binds inputs bindings → compiled.Sound ⟨env, inputs⟩ (r bindings)

variable {env} {m : Solve H (Compiled H)} {r : Bindings H → Except Failure (Value H)}

theorem buildsLater_throw (e : Failure) : c.BuildsLater env (throw e) r :=
  (Solve.gives_throw e).ensures fun _ h => by cases h

theorem BuildsLater.mapFailure (h : c.BuildsLater env m r) (f : Failure → Failure) :
    c.BuildsLater env (Solve.mapFailure f m) r :=
  Solve.Ensures.mapFailure h f

theorem BuildsLater.within (h : c.BuildsLater env m r) (text : String) :
    c.BuildsLater env (do
      let compiled ← m
      return compiled.within text)
      fun bindings => (r bindings).mapError (Failure.within text) := by
  refine h.bind fun compiled ⟨loose, sound⟩ => ?_
  refine (Solve.gives_pure _).ensures fun _ built => ?_
  cases built
  exact ⟨loose, fun inputs bindings bound => (sound inputs bindings bound).within text⟩

theorem BuildsLater.negate (h : c.BuildsLater env m r) (text : String) :
    c.BuildsLater env (do
      let operand ← m
      let compiled ← Solve.ofExcept (c.negateCode operand)
      return compiled.within text) fun bindings =>
        Except.mapError (Failure.within text) (r bindings >>= env.negate) := by
  refine h.bind fun operand ⟨loose, sound⟩ => BuildsLater.within ?_ text
  refine (Solve.gives_ofExcept _).ensures fun compiled built => ?_
  obtain ⟨loose', later⟩ := sound_negate_later env loose built
  exact ⟨loose', fun inputs bindings bound => later inputs _ (sound inputs bindings bound)⟩

theorem BuildsLater.binary {n : Solve H (Compiled H)} {s : Bindings H → Except Failure (Value H)}
    {op : Operation} (arithmetic : op.isArithmetic = true ∨ op = .power)
    (h : c.BuildsLater env m r) (h' : c.BuildsLater env n s) (text : String) :
    c.BuildsLater env (do
      let x ← m
      let y ← n
      let compiled ← Solve.ofExcept (c.binaryCode op x y)
      return compiled.within text) fun bindings => Except.mapError (Failure.within text) (do
        let x ← r bindings
        let y ← s bindings
        env.binary op x y) := by
  refine h.bind fun x ⟨looseL, soundL⟩ => h'.bind fun y ⟨looseR, soundR⟩ =>
    BuildsLater.within ?_ text
  refine (Solve.gives_ofExcept _).ensures fun compiled built => ?_
  obtain ⟨loose, later⟩ := sound_binary_later env arithmetic looseL looseR built
  exact ⟨loose, fun inputs bindings bound =>
    later inputs _ _ (soundL inputs bindings bound) (soundR inputs bindings bound)⟩

theorem BuildsLater.property {t : Term} (transparent : m.Transparent c.env.types)
    (alike : ∀ name, t.nameOperand Failure.compiling = .ok name → ∀ owner,
      m.Gives c.env.types (.ok owner) → owner.type.isAny = false → ∀ found,
        Member.resolve c.env.types owner.type name = .found found →
          Member.resolve env.types owner.type name = .found found ∧
            ∀ x v, found.get x = .ok v → v.Has found.type)
    (h : c.BuildsLater env m r) (text : String) :
    c.BuildsLater env (do
      let owner ← m
      let name ← Solve.ofExcept (t.nameOperand Failure.compiling)
      let compiled ← c.propertyCode owner name
      return compiled.within text) fun bindings => Except.mapError (Failure.within text) (do
        let owner ← r bindings
        let name ← t.nameOperand Failure.solving
        env.propertyAfresh owner name) := by
  refine (h.gives transparent).bind fun owner ⟨⟨_, sound⟩, gives⟩ => ?_
  refine ((Solve.gives_ofExcept _).ensures fun _ h => h).bind fun name named => ?_
  refine BuildsLater.within (fun cache coherent => ?_) text
  obtain ⟨ensured, kept⟩ :=
    ensures_property_later env owner name (alike name named owner gives) cache coherent
  refine ⟨fun compiled built => ?_, kept⟩
  obtain ⟨loose, later⟩ := ensured compiled built
  refine ⟨loose, fun inputs bindings bound => ?_⟩
  rw [Term.nameOperand_ok named]
  exact later inputs _ (sound inputs bindings bound)

theorem BuildsLater.transform {t : Term} (transparent : m.Transparent c.env.types)
    (alike : ∀ name, t.nameOperand Failure.compiling = .ok name → ∀ argument,
      m.Gives c.env.types (.ok argument) → argument.type.isAny = false → ∀ overloads chosen,
        c.env.functions.overloads? name = some overloads →
          Transform.select? overloads argument.type c.env.types = some chosen →
            Transform.select? overloads argument.type env.types = some chosen ∧ chosen.Honest)
    (h : c.BuildsLater env m r) (text : String) :
    c.BuildsLater env (do
      let name ← Solve.ofExcept (t.nameOperand Failure.compiling)
      let argument ← m
      let compiled ← Solve.ofExcept (c.transformCode name argument)
      return compiled.within text) fun bindings => Except.mapError (Failure.within text) (do
        let name ← t.nameOperand Failure.solving
        r bindings >>= (env.withFunctions c.env.functions).transform name) := by
  refine ((Solve.gives_ofExcept _).ensures fun _ h => h).bind fun name named => ?_
  refine (h.gives transparent).bind fun argument ⟨⟨_, sound⟩, gives⟩ => BuildsLater.within ?_ text
  refine (Solve.gives_ofExcept _).ensures fun compiled built => ?_
  obtain ⟨loose, later⟩ := sound_transform_later env (alike name named argument gives) built
  refine ⟨loose, fun inputs bindings bound => ?_⟩
  rw [Term.nameOperand_ok named]
  exact later inputs _ (sound inputs bindings bound)

theorem BuildsLater.index {key : Solve H (Compiled H)} {s : Bindings H → Except Failure (Value H)}
    (h : c.BuildsLater env m r)
    (h' : key.Ensures c.env.types fun compiled => ∀ inputs bindings, c.Binds inputs bindings →
      compiled.Sound ⟨env, inputs⟩ (s bindings)) (text : String) :
    c.BuildsLater env (do
      let owner ← m
      let key ← key
      let compiled ← Solve.ofExcept (indexCode owner key)
      return compiled.within text) fun bindings => Except.mapError (Failure.within text) (do
        let owner ← r bindings
        s bindings >>= env.index owner) := by
  refine h.bind fun owner ⟨_, soundOwner⟩ => h'.bind fun key soundKey => BuildsLater.within ?_ text
  refine (Solve.gives_ofExcept _).ensures fun compiled built => ?_
  obtain ⟨loose, sound⟩ := sound_index_later env built
  exact ⟨loose, fun inputs bindings bound =>
    sound inputs _ _ (soundOwner inputs bindings bound) (soundKey inputs bindings bound)⟩

end CompilerInput

/-! ## Terms -/

namespace Term

open CompilerInput

/-- What the compiler decides of the term for operands of known types would be decided alike among
other types: the members that are read, and the overloads that are applied.  They return what they
are declared to return. -/
structure DecidedAlike (c : CompilerInput H) (types : TypeRegistry H) (t : Term) : Prop where
  members : ∀ owner name l r,
    node (.operator .property) owner (node (.name name) l r) ∈ t.evaluated →
      ∀ part, owner.Compiles c part → part.type.isAny = false →
        ∀ m, Member.resolve c.env.types part.type name = .found m →
          Member.resolve types part.type name = .found m ∧ ∀ x v, m.get x = .ok v → v.Has m.type
  overloads : ∀ name l r argument,
    node (.operator .transform) (node (.name name) l r) argument ∈ t.evaluated →
      ∀ part, argument.Compiles c part → part.type.isAny = false →
        ∀ overloads chosen, c.env.functions.overloads? name = some overloads →
          Transform.select? overloads part.type c.env.types = some chosen →
            Transform.select? overloads part.type types = some chosen ∧ chosen.Honest

variable {c : CompilerInput H} {types : TypeRegistry H} {s t : Term}

theorem DecidedAlike.of_subset (h : t.DecidedAlike c types)
    (below : s.evaluated ⊆ t.evaluated) : s.DecidedAlike c types where
  members owner name l r mem := h.members owner name l r (below mem)
  overloads name l r argument mem := h.overloads name l r argument (below mem)

-- What is decided among the types of the compiler is decided.
theorem decidedAlike_of_typed (typed : c.env.Typed) (t : Term) : t.DecidedAlike c c.env.types where
  members _ _ _ _ _ _ _ _ _ found := ⟨found, fun _ _ => typed.types.resolve found⟩
  overloads name _ _ _ _ _ _ _ overloads _ known selected :=
    ⟨selected, typed.functions name overloads known _ (Transform.mem_of_select? selected)⟩

/-- Compiling a term whose variables may be anything yields code that is sound in later
environments, with the transforms of the compiler. -/
theorem compile_later {env : Environment H}
    (loose : ∀ name compiled, c.variableCode name = .ok compiled → compiled.IsLoose)
    (alike : t.DecidedAlike c env.types) :
    c.BuildsLater env (t.compile c) (t.value (env.withFunctions c.env.functions)) := by
  induction t with
  | absent => exact buildsLater_throw _
  | node token left right hl hr =>
    cases token with
    | number x =>
      refine BuildsLater.mapFailure ((Solve.gives_pure _).ensures fun compiled built => ?_) _
      cases built
      exact ⟨.inr rfl, fun _ _ _ => Compiled.sound_constant (.number x) _⟩
    | name text | group raw | magnitude raw =>
      rw [compile]
      exact (buildsLater_throw _).mapFailure _
    | var name =>
      rw [compile]
      refine BuildsLater.mapFailure ((Solve.gives_ofExcept _).ensures fun compiled built => ?_) _
      refine ⟨loose name compiled built, fun inputs bindings bound => ?_⟩
      obtain ⟨v, found, sound⟩ := sound_variableCode bound built env
      simp only [value, found]
      exact sound
    | operator op =>
      cases op with
      | negate =>
        rw [compile]
        have operand := hr (alike.of_subset fun _ below => List.mem_cons_of_mem _ below)
        exact (operand.negate _).mapFailure _
      | property =>
        rw [compile]
        have owner := hl (alike.of_subset fun _ below => List.mem_cons_of_mem _ below)
        refine (owner.property (transparent_compile c left) (fun name named part => ?_)
          _).mapFailure _
        obtain ⟨l, r, rfl⟩ := nameOperand_ok_iff.mp named
        exact alike.members left name l r (mem_evaluated_self _) part
      | index =>
        rw [compile]
        have owner := hl (alike.of_subset (evaluated_owner left right))
        refine BuildsLater.mapFailure ?_ _
        -- a name on the right is a key, and everything else is compiled
        obtain ⟨key, l, r, rfl⟩ | evaluated := right.name_or_evaluated
        · refine owner.index (s := fun _ => .ok (.string key)) ?_ _
          refine (Solve.gives_pure _).ensures fun compiled built inputs bindings _ => ?_
          cases built
          exact Compiled.sound_constant _ _
        · have key := hr (alike.of_subset (evaluated_key left evaluated))
          simp only [value_index _ _ left evaluated]
          exact owner.index (key.imp fun _ => And.right) _
      | transform =>
        rw [compile]
        have argument := hr (alike.of_subset fun _ below => List.mem_cons_of_mem _ below)
        refine (argument.transform (transparent_compile c right) (fun name named part => ?_)
          _).mapFailure _
        obtain ⟨l, r, rfl⟩ := nameOperand_ok_iff.mp named
        exact alike.overloads name l r right (mem_evaluated_self _) part
      | _ =>
        have x := hl (alike.of_subset fun _ below =>
          List.mem_cons_of_mem _ (List.mem_append_left _ below))
        have y := hr (alike.of_subset fun _ below =>
          List.mem_cons_of_mem _ (List.mem_append_right _ below))
        exact (x.binary (by simp [Operation.isArithmetic]) y _).mapFailure _

end Term

/-! ## Formulas -/

namespace CompilerInput

-- Variables of any type that are not fixed.
theorem isLoose_variableCode {c : CompilerInput H} (free : c.initial = [])
    (loose : ∀ p ∈ c.specification.parameters, p.2 = .any) {name : String} {compiled : Compiled H}
    (built : c.variableCode name = .ok compiled) : compiled.IsLoose := by
  unfold variableCode at built
  split at built
  case h_1 place type placed typed =>
    rw [free] at built
    cases built
    exact .inl (loose _ (Keyed.mem_of_lookup typed))
  case h_2 => cases built

end CompilerInput

namespace Formula

/-- A compiled formula whose variables may be anything, solved in a later environment, gives what
the formula gives there with the transforms that it was compiled with. -/
theorem compile_later {env now : Environment H} {f : Formula}
    (loose : ∀ p ∈ f.specification.parameters, p.2 = .any)
    (alike : f.term.DecidedAlike ⟨env, f.specification, []⟩ now.types) :
    (f.compile env []).Ensures env.types fun fast => ∀ inputs,
      (fast.solve now inputs).Gives now.types
        (f.result (now.withFunctions env.functions) [] inputs) := by
  unfold compile
  rw [CompilerInput.prepare_nil]
  have known : ∀ name compiled, CompilerInput.variableCode ⟨env, f.specification, []⟩ name =
      .ok compiled → Compiled.IsLoose compiled :=
    fun name compiled => CompilerInput.isLoose_variableCode rfl loose
  refine Solve.Ensures.bind (Term.compile_later known alike) fun compiled ⟨_, sound⟩ => ?_
  refine (Solve.gives_pure _).ensures fun fast built inputs => ?_
  cases built
  unfold result
  refine (Solve.gives_ofExcept _).bind fun bindings bound => ?_
  obtain ⟨many, prepared⟩ := Bindings.ofInputs_ok_iff.mp (ok_of_mapError bound)
  have binds : (⟨env, f.specification, []⟩ : CompilerInput H).Binds (bindings.map Prod.snd)
      bindings :=
    { fit := prepared.fit (fun p mem v w _ => by
        rw [loose p mem]
        exact Value.has_any w) many
      values := rfl }
  have sound := sound _ _ binds
  exact (sound.gives.mapFailure _).bind fun v _ => Solve.gives_pure _

end Formula

end FormulaLang
