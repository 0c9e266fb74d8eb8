import FormulaLang.Proofs.Compilation.Agreement

/-!
Fixing the first inputs of a formula.  Inputs are prepared one by one, so that those fixed at
compilation and those given later are bound as if they had been given together.
-/

namespace FormulaLang

variable {H : Type} [HostObject H]

namespace Bindings

variable {env : Environment H}

/-- Inputs prepared for parameters, one for one. -/
def Prepared (env : Environment H) (parameters : List (String × TypeInfo))
    (inputs : List (Value H)) (bindings : Bindings H) : Prop :=
  List.Forall₂ (fun given b => b.1 = given.1.1 ∧ env.bindInput given.2 given.1.2 = .ok b.2)
    (parameters.zip inputs) bindings

-- How a refusal is worded has no part in what is prepared.
theorem prepare_ok_iff {parameters : List (String × TypeInfo)} {inputs : List (Value H)}
    {refusal : String → Cause → Failure} {bindings : Bindings H} :
    prepare env parameters inputs refusal = .ok bindings ↔
      Prepared env parameters inputs bindings := by
  unfold prepare Prepared
  induction parameters.zip inputs generalizing bindings with
  | nil =>
    rw [List.mapM_nil, List.forall₂_nil_left_iff]
    exact ⟨fun h => (Except.ok.inj h).symm, fun h => h ▸ rfl⟩
  | cons given rest ih =>
    obtain ⟨⟨name, type⟩, v⟩ := given
    rw [List.mapM_cons, List.forall₂_cons_left_iff]
    constructor
    · intro h
      obtain ⟨b, hb, h⟩ := ok_of_bind h
      obtain ⟨bs, hbs, h⟩ := ok_of_bind h
      cases h
      dsimp only at hb
      split at hb
      case h_1 w bound =>
        cases hb
        exact ⟨_, _, ⟨rfl, bound⟩, ih.mp hbs, rfl⟩
      case h_2 => cases hb
    · rintro ⟨⟨name', w⟩, bs, ⟨rfl, bound⟩, hbs, rfl⟩
      simp only [bound, ih.mpr hbs]
      rfl

-- Enough inputs, each of which can be prepared, are bound.
theorem ofInputs_ok_iff {parameters : List (String × TypeInfo)} {inputs : List (Value H)}
    {bindings : Bindings H} :
    ofInputs env parameters inputs = .ok bindings ↔
      parameters.length ≤ inputs.length ∧ Prepared env parameters inputs bindings := by
  unfold ofInputs
  split
  case isTrue few =>
    constructor
    · intro h; cases h
    · intro h; omega
  case isFalse enough =>
    rw [prepare_ok_iff]
    exact ⟨fun h => ⟨Nat.le_of_not_lt enough, h⟩, And.right⟩

namespace Prepared

variable {parameters others : List (String × TypeInfo)} {inputs rest : List (Value H)}
  {bindings bindings' : Bindings H}

-- Prepared inputs fit their parameters when each is prepared as a value of its type.
theorem fit (binds : ∀ p ∈ parameters, ∀ v w, env.bindInput v p.2 = .ok w → w.Has p.2)
    (enough : parameters.length ≤ inputs.length)
    (h : Prepared env parameters inputs bindings) : bindings.Fit parameters := by
  induction parameters generalizing inputs bindings with
  | nil =>
    cases h
    exact .nil
  | cons p parameters ih =>
    cases inputs with
    | nil => simp at enough
    | cons v inputs =>
      obtain ⟨b, bs, ⟨name, bound⟩, prepared, rfl⟩ := List.forall₂_cons_left_iff.mp h
      refine .cons ⟨name, binds p (.head _) v _ bound⟩ ?_
      exact ih (fun p mem => binds p (.tail _ mem)) (Nat.le_of_succ_le_succ enough) prepared

-- Prepared inputs go by the names of their parameters.
theorem keys_eq (enough : parameters.length ≤ inputs.length)
    (h : Prepared env parameters inputs bindings) :
    Keyed.keys bindings = Keyed.keys parameters := by
  have names : Keyed.keys bindings = Keyed.keys ((parameters.zip inputs).map Prod.fst) := by
    unfold Prepared at h
    generalize parameters.zip inputs = givens at h ⊢
    induction h with
    | nil => rfl
    | cons given _ ih => rw [Keyed.keys_cons, given.1, ih, List.map_cons, Keyed.keys_cons]
  rw [names, List.map_fst_zip enough]

theorem unique (h : Prepared env parameters inputs bindings)
    (h' : Prepared env parameters inputs bindings') : bindings = bindings' := by
  have same : prepare env parameters inputs (fun _ => .solving) = .ok bindings :=
    prepare_ok_iff.mpr h
  rw [prepare_ok_iff.mpr h'] at same
  exact (Except.ok.inj same).symm

theorem length_fixed (h : Prepared env (parameters.take inputs.length) inputs bindings)
    (enough : inputs.length ≤ parameters.length) : bindings.length = inputs.length := by
  rw [← List.Forall₂.length_eq h, List.length_zip, List.length_take]
  omega

-- Only as many parameters play a part as there are inputs.
theorem take (h : Prepared env parameters inputs bindings)
    (enough : inputs.length ≤ parameters.length) :
    Prepared env (parameters.take inputs.length) inputs bindings := by
  unfold Prepared at h ⊢
  rw [List.zip_eq_zip_take_min, Nat.min_eq_right enough, List.take_length] at h
  exact h

-- The inputs of one list of parameters and of another are prepared apart.
theorem append_iff (same : inputs.length = parameters.length) :
    Prepared env (parameters ++ others) (inputs ++ rest) bindings ↔
      ∃ first second, Prepared env parameters inputs first ∧ Prepared env others rest second ∧
        bindings = first ++ second := by
  unfold Prepared
  rw [List.zip_append same.symm]
  constructor
  · intro h
    have first := List.forall₂_take (parameters.zip inputs).length h
    have second := List.forall₂_drop (parameters.zip inputs).length h
    rw [List.take_left] at first
    rw [List.drop_left] at second
    exact ⟨_, _, first, second, (List.take_append_drop _ _).symm⟩
  · rintro ⟨first, second, h, h', rfl⟩
    exact List.rel_append h h'

end Prepared

end Bindings

-- Nothing has to be prepared to fix no input.
theorem CompilerInput.prepare_nil (env : Environment H) (s : Specification) :
    prepare env s [] = .ok ⟨env, s, []⟩ := by
  unfold prepare Bindings.prepare
  rw [List.zip_nil_right, List.mapM_nil]
  rfl

namespace Formula

/-- What a formula gives for bindings that are fixed and inputs that are not, without a cache. -/
def result (env : Environment H) (f : Formula) (fixed : Bindings H) (inputs : List (Value H)) :
    Except Failure (Value H) := do
  let bindings ←
    (Bindings.ofInputs env (f.specification.parameters.drop fixed.length) inputs).mapError
      (Failure.within f.expression)
  let v ← (f.term.value env (fixed ++ bindings)).mapError (Failure.withBindings bindings.snapshot)
  return env.normalize v

-- Solving by the tree fixes nothing.
theorem solve_gives (env : Environment H) (f : Formula) (inputs : List (Value H)) :
    (f.solve env inputs).Gives env.types (f.result env [] inputs) := by
  refine (Solve.gives_ofExcept _).bind fun bindings _ => ?_
  exact ((f.term.evaluate_gives env bindings).mapFailure _).bind fun v _ => Solve.gives_pure _

/-- A formula that has been compiled: the first inputs could be prepared, and solving it gives the
result for them. -/
structure Compiles (env : Environment H) (f : Formula) (initial : List (Value H))
    (fast : FastFormula H) : Prop where
  inputs : fast.inputs = f.specification.parameters.drop initial.length
  enough : initial.length ≤ f.specification.arity
  gives : ∃ fixed, Bindings.Prepared env (f.specification.parameters.take initial.length) initial
    fixed ∧ ∀ rest, (fast.solve env rest).Gives env.types (f.result env fixed rest)

-- Fixed inputs and bindings of the rest are bindings of all variables.
theorem binds_append {env : Environment H} (declared : env.Typed) {f : Formula}
    {initial inputs : List (Value H)} {fixed bindings : Bindings H}
    (given : Bindings.Prepared env (f.specification.parameters.take initial.length) initial fixed)
    (bound : Bindings.ofInputs env (f.specification.parameters.drop initial.length) inputs =
      .ok bindings) :
    (⟨env, f.specification, fixed.map Prod.snd⟩ : CompilerInput H).Binds
      (bindings.map Prod.snd) (fixed ++ bindings) where
  fit := by
    obtain ⟨many, prepared⟩ := Bindings.ofInputs_ok_iff.mp bound
    have enough : (f.specification.parameters.take initial.length).length ≤ initial.length := by
      rw [List.length_take]
      exact Nat.min_le_left _ _
    have first := given.fit (fun _ _ _ _ => declared.bindInput) enough
    have second := prepared.fit (fun _ _ _ _ => declared.bindInput) many
    have both := List.rel_append first second
    dsimp only at both
    rw [List.take_append_drop] at both
    exact both
  values := List.map_append

theorem compile_ensures {env : Environment H} (honest : env.Honest) (f : Formula)
    (initial : List (Value H)) :
    (f.compile env initial).Ensures env.types (f.Compiles env initial) := by
  refine ((Solve.gives_ofExcept _).ensures fun _ h => h).bind fun c prepared => ?_
  unfold CompilerInput.prepare at prepared
  split at prepared
  case isTrue => cases prepared
  case isFalse few =>
    have enough : initial.length ≤ f.specification.arity := Nat.le_of_not_lt few
    obtain ⟨fixed, ready, rfl⟩ := ok_of_map prepared
    have given := (Bindings.prepare_ok_iff.mp ready).take enough
    refine (Term.compile_builds (c := ⟨env, f.specification, fixed.map Prod.snd⟩) honest.typed
      (Term.negationsStay_of_honest honest _)).bind fun compiled agrees => ?_
    refine (Solve.gives_pure _).ensures fun fast built => ?_
    cases built
    refine ⟨rfl, enough, fixed, given, fun rest => ?_⟩
    have length : fixed.length = initial.length := given.length_fixed enough
    unfold result
    rw [length]
    refine (Solve.gives_ofExcept _).bind fun bindings bound => ?_
    -- inputs that cannot be bound are refused alike, so only bound ones are left
    have bound := ok_of_mapError bound
    have sound := agrees _ _ (binds_append honest.typed given bound)
    exact (sound.gives.mapFailure _).bind fun v _ => Solve.gives_pure _

-- A formula has a value when the inputs suffice, can be prepared, and its term has a value.
theorem result_ok_iff {env : Environment H} {f : Formula} {fixed : Bindings H}
    {inputs : List (Value H)} {v : Value H} :
    f.result env fixed inputs = .ok v ↔
      ∃ bindings u, f.specification.arity ≤ fixed.length + inputs.length ∧
        Bindings.Prepared env (f.specification.parameters.drop fixed.length) inputs bindings ∧
        f.term.value env (fixed ++ bindings) = .ok u ∧ env.normalize u = v := by
  unfold result
  constructor
  · intro h
    obtain ⟨bindings, bound, h⟩ := ok_of_bind h
    obtain ⟨u, valued, h⟩ := ok_of_bind h
    obtain ⟨many, prepared⟩ := Bindings.ofInputs_ok_iff.mp (ok_of_mapError bound)
    rw [List.length_drop] at many
    refine ⟨bindings, u, ?_, prepared, ok_of_mapError valued, Except.ok.inj h⟩
    unfold Specification.arity
    omega
  · rintro ⟨bindings, u, many, prepared, valued, rfl⟩
    have suffice : (f.specification.parameters.drop fixed.length).length ≤ inputs.length := by
      unfold Specification.arity at many
      rw [List.length_drop]
      omega
    rw [Bindings.ofInputs_ok_iff.mpr ⟨suffice, prepared⟩]
    show (f.term.value env (fixed ++ bindings)).mapError _ >>= _ = _
    rw [valued]
    rfl

/-- Fixed inputs give the values that they give when they are not fixed. -/
theorem result_fixed_iff {env : Environment H} {f : Formula} {initial rest : List (Value H)}
    {fixed : Bindings H} (enough : initial.length ≤ f.specification.arity)
    (given : Bindings.Prepared env (f.specification.parameters.take initial.length) initial fixed)
    (v : Value H) :
    f.result env fixed rest = .ok v ↔ f.result env [] (initial ++ rest) = .ok v := by
  have length : fixed.length = initial.length := given.length_fixed enough
  have split (bindings : Bindings H) :
      Bindings.Prepared env (f.specification.parameters.drop 0) (initial ++ rest) bindings ↔
        ∃ first second,
          Bindings.Prepared env (f.specification.parameters.take initial.length) initial first ∧
          Bindings.Prepared env (f.specification.parameters.drop initial.length) rest second ∧
          bindings = first ++ second := by
    rw [← Bindings.Prepared.append_iff, List.take_append_drop, List.drop_zero]
    rw [List.length_take]
    exact (Nat.min_eq_left enough).symm
  rw [result_ok_iff, result_ok_iff, length]
  constructor
  · rintro ⟨bindings, u, many, prepared, valued, rfl⟩
    refine ⟨fixed ++ bindings, u, ?_, (split _).mpr ⟨_, _, given, prepared, rfl⟩, valued, rfl⟩
    rw [List.length_append, List.length_nil]
    omega
  · rintro ⟨bindings, u, many, prepared, valued, rfl⟩
    -- the first inputs are prepared in one way only
    obtain ⟨first, second, given', later, rfl⟩ := (split _).mp prepared
    obtain rfl := given.unique given'
    rw [List.length_append, List.length_nil] at many
    exact ⟨second, u, by omega, later, valued, rfl⟩

end Formula

end FormulaLang
