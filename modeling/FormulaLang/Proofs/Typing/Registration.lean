import FormulaLang.Context
import FormulaLang.Proofs.Cache.Transparency
import FormulaLang.Proofs.Typing.Declared

/-!
Honesty is decided where things are declared.  The language's own types are honest, so the context
that a provider seeds is when the provider's types and transforms are; the standard provider's are.
-/

namespace FormulaLang

variable {H : Type}

theorem Transform.mem_replaceIn {t u : Transform H} {overloads : List (Transform H)}
    (h : u ∈ t.replaceIn overloads) : u = t ∨ u ∈ overloads := by
  induction overloads with
  | nil => exact .inl (List.mem_singleton.mp h)
  | cons other rest ih =>
    rw [Transform.replaceIn] at h
    split at h
    · exact (List.mem_cons.mp h).imp_right (List.mem_cons_of_mem _)
    · rcases List.mem_cons.mp h with rfl | later
      · exact .inr List.mem_cons_self
      · exact (ih later).imp_right (List.mem_cons_of_mem _)

namespace FunctionRegistry

-- What holds of every overload and of one more holds of all after that one is registered.
theorem overloads_register {r : FunctionRegistry H} {P : Transform H → Prop} {t : Transform H}
    (h : ∀ name overloads, r.overloads? name = some overloads → ∀ u ∈ overloads, P u) (one : P t) :
    ∀ name overloads, (r.register t).overloads? name = some overloads → ∀ u ∈ overloads, P u := by
  intro name overloads found u listed
  unfold overloads? FunctionRegistry.register at found
  dsimp only at found
  rw [Keyed.lookup_insert] at found
  split at found
  case isTrue same =>
    cases found
    rcases Transform.mem_replaceIn listed with rfl | before
    · exact one
    · cases known : r.overloads? t.name with
      | none => rw [known] at before; cases before
      | some others =>
        rw [known] at before
        exact h t.name others known u before
  case isFalse => exact h name overloads found u listed

-- So it holds of all overloads when it holds of everything that has been registered.
theorem overloads_foldl_register {P : Transform H → Prop} {declared : List (Transform H)}
    (all : ∀ t ∈ declared, P t) :
    ∀ name overloads, (declared.foldl FunctionRegistry.register empty).overloads? name =
      some overloads → ∀ u ∈ overloads, P u := by
  refine List.foldlRecOn (motive := fun r : FunctionRegistry H =>
    ∀ name overloads, r.overloads? name = some overloads → ∀ u ∈ overloads, P u) _ _ ?_
    fun r h t listed => overloads_register h (all t listed)
  intro name overloads found
  cases found

end FunctionRegistry

variable [HostObject H]

namespace TypeDescriptor

variable {d : TypeDescriptor H} {type : TypeInfo}

theorem honest_bare (type : TypeInfo) : (bare type : TypeDescriptor H).Honest type where
  operators o listed := absurd listed List.not_mem_nil
  conversions c listed := absurd listed List.not_mem_nil
  members m listed := absurd listed List.not_mem_nil
  negation f declared := by cases declared

theorem Honest.withMember (h : d.Honest type) {name : String} {target : TypeInfo}
    {get : Unary H} (honest : ∀ x v, get x = .ok v → v.Has target) :
    (d.withMember name target get).Honest type where
  operators := h.operators
  conversions := h.conversions
  members m listed := by
    rcases List.mem_append.mp listed with before | new
    · exact h.members m before
    · obtain rfl := List.mem_singleton.mp new
      exact honest
  negation := h.negation

theorem Honest.withOperator (h : d.Honest type) {op : Operation} {left right result : TypeInfo}
    {apply : Binary H} (honest : ∀ x y v, apply x y = .ok v → v.Has result) :
    (d.withOperator op left right result apply).Honest type where
  operators o listed := by
    rcases List.mem_append.mp listed with before | new
    · exact h.operators o before
    · obtain rfl := List.mem_singleton.mp new
      exact honest
  conversions := h.conversions
  members := h.members
  negation := h.negation

theorem Honest.withConversion (h : d.Honest type) {source target : TypeInfo}
    {apply : Unary H} (honest : ∀ x v, apply x = .ok v → v.Has target) :
    (d.withConversion source target apply).Honest type where
  operators := h.operators
  conversions c listed := by
    rcases List.mem_append.mp listed with before | new
    · exact h.conversions c before
    · obtain rfl := List.mem_singleton.mp new
      exact honest
  members := h.members
  negation := h.negation

-- A negation declares no type for what it returns.
theorem Typed.withNegation (h : d.Typed) (apply : Unary H) : (d.withNegation apply).Typed :=
  ⟨h.operators, h.conversions, h.members⟩

end TypeDescriptor

/-! ## Registries -/

namespace TypeRegistry

variable {r : TypeRegistry H}

theorem honest_empty : (empty : TypeRegistry H).Honest := by
  intro type d described
  cases described

theorem Honest.register (h : r.Honest) {d : TypeDescriptor H} (honest : d.Honest d.type)
    (aliases : List String) : (r.register d aliases).Honest := by
  intro type d' described
  rw [descriptor?_register] at described
  split at described
  case isTrue same =>
    cases described
    rw [same]
    exact honest
  case isFalse => exact h type d' described

theorem Typed.register (h : r.Typed) {d : TypeDescriptor H} (typed : d.Typed)
    (aliases : List String) : (r.register d aliases).Typed := by
  intro type d' described
  rw [descriptor?_register] at described
  split at described
  case isTrue =>
    cases described
    exact typed
  case isFalse => exact h type d' described

-- Aliases declare nothing.
theorem Honest.of_descriptors {r' : TypeRegistry H} (h : r.Honest)
    (same : r'.descriptors = r.descriptors) : r'.Honest := by
  intro type d described
  rw [descriptor?, same] at described
  exact h type d described

theorem Honest.foldl_register (h : r.Honest) {declared : List (TypeDescriptor H × List String)}
    (honest : ∀ entry ∈ declared, entry.1.Honest entry.1.type) :
    (declared.foldl (fun r (d, aliases) => r.register d aliases) r).Honest := by
  induction declared generalizing r with
  | nil => exact h
  | cons entry rest ih =>
    refine ih ?_ fun other listed => honest other (List.mem_cons_of_mem _ listed)
    exact h.register (honest entry List.mem_cons_self) entry.2

-- Lengths are numbers.
theorem has_lengthOf (x v : Value H) (h : lengthOf x = .ok v) : v.Has .number := by
  cases x with
  | string s | sequence items => cases h; exact Value.has_number _
  | _ => cases h

-- Texts are joined to a text.
theorem has_concatenate (x y v : Value H) (h : concatenate x y = .ok v) : v.Has .string := by
  unfold concatenate at h
  split at h
  case h_1 s t =>
    cases h
    exact .inr rfl
  case h_2 => cases h

theorem honest_builtinDescriptor (type : TypeInfo) :
    (builtinDescriptor type : TypeDescriptor H).Honest type := by
  have bare := TypeDescriptor.honest_bare (H := H) type
  cases type with
  | string => exact (bare.withMember has_lengthOf).withOperator has_concatenate
  | sequence => exact (bare.withMember has_lengthOf).withMember has_lengthOf
  | _ => exact bare

theorem type_builtinDescriptor (type : TypeInfo) :
    (builtinDescriptor type : TypeDescriptor H).type = type := by
  cases type <;> rfl

-- The language's own types are honest.
theorem honest_builtins : (builtins : TypeRegistry H).Honest := by
  unfold builtins
  have all (types : List TypeInfo) {r : TypeRegistry H} (h : r.Honest) :
      (types.foldl (fun r type => r.register (builtinDescriptor type) (builtinAliases type))
        r).Honest := by
    induction types generalizing r with
    | nil => exact h
    | cons type rest ih =>
      refine ih (h.register ?_ _)
      rw [type_builtinDescriptor]
      exact honest_builtinDescriptor type
  exact all _ honest_empty

end TypeRegistry

/-! ## Providers and contexts -/

theorem Transform.honest_numeric (name : String) (f : Float → Float) :
    (numeric name f : Transform H).Honest := by
  intro x v h
  cases x with
  | number a => cases h; exact Value.has_number _
  | _ => cases h

namespace Provider

theorem has_length (x v : Value H) (h : length x = .ok v) : v.Has .number := by
  obtain ⟨xs, -, rfl⟩ := ok_of_map h
  exact Value.has_number _

theorem has_normalized (x v : Value H) (h : normalized x = .ok v) : v.Has .sequence := by
  unfold normalized at h
  obtain ⟨xs, measured, h⟩ := ok_of_bind h
  dsimp only at h
  split at h
  · cases h
    cases x with
    | sequence items => exact .inr rfl
    | _ => cases measured
  · cases h
    exact .inr rfl

-- The standard transforms are honest.
theorem honest_standardTransforms : ∀ t ∈ (standardTransforms : List (Transform H)), t.Honest := by
  simp only [standardTransforms, List.mem_cons, List.not_mem_nil, or_false, forall_eq_or_imp,
    forall_eq, Transform.honest_numeric, true_and]
  exact ⟨has_length, has_normalized⟩

end Provider

namespace Context

/-- A provider whose types and transforms are honest seeds an honest context. -/
theorem honest_ofProvider {provider : Provider H} (config : Config)
    (types : ∀ entry ∈ provider.types, entry.1.Honest entry.1.type)
    (transforms : ∀ t ∈ provider.transforms, t.Honest) :
    (ofProvider provider config).env.Honest where
  types := by
    refine TypeRegistry.Honest.foldl_register ?_ types
    exact TypeRegistry.honest_builtins.of_descriptors rfl
  functions := FunctionRegistry.overloads_foldl_register transforms

theorem honest_standard (config : Config) :
    (ofProvider (Provider.standard : Provider H) config).env.Honest :=
  honest_ofProvider config (fun _ listed => absurd listed List.not_mem_nil)
    Provider.honest_standardTransforms

theorem typed_registerType {c : Context H} (h : c.env.Typed) {d : TypeDescriptor H}
    (typed : d.Typed) (aliases : List String) : (c.registerType d aliases).env.Typed where
  types := h.types.register typed aliases
  functions := h.functions

end Context

end FormulaLang
