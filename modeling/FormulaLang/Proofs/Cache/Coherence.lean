import FormulaLang.MemberCache

/-!
Coherence of the member cache: whatever it holds is what looking the member up afresh would find.
Every operation of the cache keeps it coherent, and a coherent cache answers as no cache would.
-/

namespace FormulaLang

variable {H : Type}

-- Registering a type changes no other type's description.
theorem TypeRegistry.descriptor?_register (types : TypeRegistry H) (d : TypeDescriptor H)
    (aliases : List String) (type : TypeInfo) :
    (types.register d aliases).descriptor? type =
      if type = d.type then some d else types.descriptor? type := by
  rw [descriptor?, register, enable, Keyed.lookup_insert]
  rfl

namespace MemberCache

/-- No cache: one that keeps nothing and counts nothing. -/
def off : MemberCache H :=
  ⟨0, [], .zero⟩

/-- The member kept for a name on a type; looking is not using. -/
def held? (c : MemberCache H) (owner : TypeInfo) (name : String) : Option (Member H) :=
  (c.bucket? owner).bind fun bucket => bucket.lookup name

/-! ## What each operation does to the entries -/

theorem bucket?_promote (c : MemberCache H) (owner other : TypeInfo)
    (bucket : Keyed String (Member H)) :
    (c.promote owner bucket).lookup other =
      if other = owner then some bucket else c.bucket? other := by
  rw [promote, Keyed.lookup_cons, Keyed.lookup_erase]
  by_cases h : other = owner
  · rw [if_pos h, if_pos h]
  · rw [if_neg h, if_neg h, if_neg h, bucket?]

-- Asking moves buckets and counts, and changes no entry.
theorem held?_get (c : MemberCache H) (owner : TypeInfo) (name : String) :
    (c.get owner name).2.held? = c.held? := by
  unfold get
  by_cases off : c.capacity = 0
  · rw [if_pos off]
  · rw [if_neg off]
    cases hb : c.bucket? owner with
    | none => rfl
    | some bucket =>
      have promoted (stats : CacheStats) :
          (⟨c.capacity, c.promote owner bucket, stats⟩ : MemberCache H).held? = c.held? := by
        funext other key
        simp only [held?, bucket?, bucket?_promote]
        split
        · rename_i h
          rw [h, ← bucket?, hb]
        · rfl
      dsimp only
      cases bucket.lookup name with
      | none => exact promoted _
      | some member => exact promoted _

-- What asking answers is an entry.
theorem held?_of_get {c : MemberCache H} {owner : TypeInfo} {name : String} {m : Member H}
    (h : (c.get owner name).1 = some m) : c.held? owner name = some m := by
  unfold get at h
  split at h
  · cases h
  · cases hb : c.bucket? owner with
    | none => simp only [hb] at h; cases h
    | some bucket =>
      simp only [hb] at h
      cases hm : bucket.lookup name with
      | none => simp only [hm] at h; cases h
      | some member =>
        simp only [hm] at h
        rw [held?, hb, Option.bind_some, hm, h]

theorem lookup_of_lookup_dropLast {κ β : Type} [DecidableEq κ] {t : Keyed κ β} {key : κ} {b : β}
    (h : t.dropLast.lookup key = some b) : t.lookup key = some b := by
  induction t with
  | nil => cases h
  | cons e rest ih =>
    cases rest with
    | nil => cases h
    | cons e' rest =>
      rw [List.dropLast_cons_cons, Keyed.lookup_cons] at h
      rw [Keyed.lookup_cons]
      split at h
      · rename_i here
        rw [if_pos here, h]
      · rename_i differs
        rw [if_neg differs, ih h]

-- Storing adds one entry; a bucket dropped for want of room takes entries away.
theorem held?_insert {c : MemberCache H} {owner other : TypeInfo} {name key : String}
    {member m : Member H} (h : (c.insert owner name member).held? other key = some m) :
    (other = owner ∧ key = name ∧ m = member) ∨ c.held? other key = some m := by
  -- a fresh bucket holds the new entry only
  have fresh {buckets : Keyed TypeInfo (Keyed String (Member H))} {stats : CacheStats}
      (kept : ∀ b, buckets.lookup other = some b → c.bucket? other = some b)
      (h : (⟨c.capacity, (owner, [(name, member)]) :: buckets, stats⟩ :
        MemberCache H).held? other key = some m) :
      (other = owner ∧ key = name ∧ m = member) ∨ c.held? other key = some m := by
    simp only [held?, bucket?, Keyed.lookup_cons] at h
    split at h
    · rename_i same
      rw [Option.bind_some, Keyed.lookup_cons] at h
      split at h
      · rename_i here
        cases h
        exact .inl ⟨same, here, rfl⟩
      · cases h
    · obtain ⟨bucket, hb, hm⟩ := Option.bind_eq_some_iff.mp h
      exact .inr (by rw [held?, kept bucket hb, Option.bind_some, hm])
  unfold insert at h
  split at h
  · exact .inr h
  · cases hb : c.bucket? owner with
    | some bucket =>
      simp only [hb, held?] at h
      rw [bucket?, bucket?_promote] at h
      split at h
      · rename_i same
        rw [Option.bind_some, Keyed.lookup_insert] at h
        split at h
        · rename_i here
          cases h
          exact .inl ⟨same, here, rfl⟩
        · exact .inr (by rw [held?, same, hb, Option.bind_some, h])
      · exact .inr h
    | none =>
      simp only [hb] at h
      split at h
      · exact fresh (fun _ found => found) h
      · exact fresh (fun _ found => lookup_of_lookup_dropLast found) h

theorem held?_evict {c : MemberCache H} {owner other : TypeInfo} {key : String} {m : Member H}
    (h : (c.evict owner).2.held? other key = some m) :
    other ≠ owner ∧ c.held? other key = some m := by
  simp only [evict, held?, bucket?, Keyed.lookup_erase] at h
  split at h
  · cases h
  · rename_i differs
    exact ⟨differs, h⟩

/-! ## Coherence -/

variable [HostObject H]

/-- Every entry is the member that resolving the name on the type finds. -/
def Coherent (types : TypeRegistry H) (c : MemberCache H) : Prop :=
  ∀ owner name m, c.held? owner name = some m → Member.resolve types owner name = .found m

theorem coherent_of_no_buckets (types : TypeRegistry H) {c : MemberCache H}
    (h : c.buckets = []) : c.Coherent types := by
  intro owner name m found
  rw [held?, bucket?, h] at found
  cases found

theorem coherent_off (types : TypeRegistry H) : (off : MemberCache H).Coherent types :=
  coherent_of_no_buckets types rfl

theorem coherent_ofConfig (types : TypeRegistry H) (config : CacheConfig) :
    (ofConfig config).Coherent types :=
  coherent_of_no_buckets types rfl

theorem Coherent.clear (types : TypeRegistry H) (c : MemberCache H) : c.clear.Coherent types :=
  coherent_of_no_buckets types rfl

theorem Coherent.evict {types : TypeRegistry H} {c : MemberCache H} (h : c.Coherent types)
    (owner : TypeInfo) : (c.evict owner).2.Coherent types :=
  fun other name m found => h other name m (held?_evict found).2

-- A lookup answers as resolving afresh does, and keeps the cache coherent.
theorem Coherent.lookup {types : TypeRegistry H} {c : MemberCache H} (h : c.Coherent types)
    (owner : TypeInfo) (name : String) :
    (c.lookup types owner name).1 = Member.resolve types owner name ∧
      (c.lookup types owner name).2.Coherent types := by
  -- asking may move a bucket to the front, which no entry shows
  have asked : (c.get owner name).2.Coherent types := by
    intro other key m found
    rw [held?_get] at found
    exact h other key m found
  unfold MemberCache.lookup
  rcases hg : c.get owner name with ⟨_ | m, c'⟩
  · simp only [hg] at asked
    cases hr : Member.resolve types owner name with
    | found m =>
      -- only a member that was found is stored
      refine ⟨rfl, ?_⟩
      intro other key m' found
      rcases held?_insert found with ⟨rfl, rfl, rfl⟩ | found
      · exact hr
      · exact asked other key m' found
    | missing => exact ⟨rfl, asked⟩
    | ambiguous candidates => exact ⟨rfl, asked⟩
    | deferred => exact ⟨rfl, asked⟩
  · simp only [hg] at asked
    have entry := held?_of_get (show (c.get owner name).1 = some m by rw [hg])
    exact ⟨(h owner name m entry).symm, asked⟩

/-! ## Registering a type -/

-- Resolving looks at the description of the owner's type only.
theorem resolve_congr {types types' : TypeRegistry H} {owner : TypeInfo}
    (h : types'.descriptor? owner = types.descriptor? owner) (name : String) :
    Member.resolve types' owner name = Member.resolve types owner name := by
  unfold Member.resolve
  rw [h]

-- Forgetting the members of a type that is registered anew keeps the cache coherent.
theorem Coherent.register {types : TypeRegistry H} {c : MemberCache H} (h : c.Coherent types)
    (d : TypeDescriptor H) (aliases : List String) :
    (c.evict d.type).2.Coherent (types.register d aliases) := by
  intro owner name m found
  obtain ⟨differs, kept⟩ := held?_evict found
  have same : (types.register d aliases).descriptor? owner = types.descriptor? owner := by
    rw [TypeRegistry.descriptor?_register, if_neg differs]
  rw [resolve_congr same]
  exact h owner name m kept

-- Aliases play no part in resolving members.
theorem Coherent.of_descriptors {types types' : TypeRegistry H} {c : MemberCache H}
    (h : c.Coherent types) (same : types'.descriptors = types.descriptors) :
    c.Coherent types' := by
  intro owner name m found
  have described : types'.descriptor? owner = types.descriptor? owner := by
    simp only [TypeRegistry.descriptor?, same]
  rw [resolve_congr described]
  exact h owner name m found

end MemberCache

end FormulaLang
