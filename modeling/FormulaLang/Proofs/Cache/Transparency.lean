import FormulaLang.Environment
import FormulaLang.Proofs.Cache.Coherence

/-!
Solving does not depend on the member cache.  A solve gives a result when it ends with it from
every coherent cache and leaves the cache coherent.  Solves that give results compose like the
results themselves, so that what is solved with a cache can be computed without one.
-/

namespace FormulaLang

variable {H α β : Type}

namespace Solve

/-- Runs a solve from a cache. -/
def exec (m : Solve H α) (c : MemberCache H) : Except Failure α × MemberCache H :=
  m.run.run c

theorem exec_bind (m : Solve H α) (f : α → Solve H β) (c : MemberCache H) :
    (m >>= f).exec c =
      match m.exec c with
      | (.ok a, c) => (f a).exec c
      | (.error e, c) => (.error e, c) := by
  simp only [exec, ExceptT.run_bind, StateT.run_bind]
  rcases StateT.run (ExceptT.run m) c with ⟨r, c'⟩
  cases r <;> rfl

theorem exec_mapFailure (f : Failure → Failure) (m : Solve H α) (c : MemberCache H) :
    (mapFailure f m).exec c = ((m.exec c).1.mapError f, (m.exec c).2) := by
  simp only [exec, mapFailure, ExceptT.run_mk, StateT.run_bind]
  rcases StateT.run (ExceptT.run m) c with ⟨r, c'⟩
  cases r <;> rfl

/-! ## Results that no cache changes -/

variable [HostObject H] {types : TypeRegistry H}

/-- From every coherent cache the result is `r`, and the cache stays coherent. -/
def Gives (types : TypeRegistry H) (m : Solve H α) (r : Except Failure α) : Prop :=
  ∀ c : MemberCache H, c.Coherent types → (m.exec c).1 = r ∧ (m.exec c).2.Coherent types

theorem gives_ofExcept (r : Except Failure α) : (ofExcept r : Solve H α).Gives types r :=
  fun _ h => ⟨rfl, h⟩

theorem gives_pure (a : α) : (pure a : Solve H α).Gives types (.ok a) :=
  gives_ofExcept (.ok a)

theorem gives_throw (e : Failure) : (throw e : Solve H α).Gives types (.error e) :=
  gives_ofExcept (.error e)

theorem Gives.mapFailure {m : Solve H α} {r : Except Failure α} (h : m.Gives types r)
    (f : Failure → Failure) : (mapFailure f m).Gives types (r.mapError f) := by
  intro c coherent
  obtain ⟨result, kept⟩ := h c coherent
  rw [exec_mapFailure, result]
  exact ⟨rfl, kept⟩

-- What follows a solve starts from a coherent cache, so that only its result matters.
theorem Gives.bind {m : Solve H α} {r : Except Failure α} (hm : m.Gives types r)
    {f : α → Solve H β} {g : α → Except Failure β}
    (hf : ∀ a, r = .ok a → (f a).Gives types (g a)) : (m >>= f).Gives types (r >>= g) := by
  intro c coherent
  obtain ⟨result, kept⟩ := hm c coherent
  rw [exec_bind]
  rcases hr : m.exec c with ⟨r', c'⟩
  simp only [hr] at result kept
  subst result
  cases r' with
  | error e => exact ⟨rfl, kept⟩
  | ok a => exact hf a rfl c' kept

-- After a solve that gives a value the rest goes on with this value.
theorem Gives.bind_ok {m : Solve H α} {a : α} (hm : m.Gives types (.ok a)) {f : α → Solve H β}
    {r : Except Failure β} (hf : (f a).Gives types r) : (m >>= f).Gives types r := by
  have rest : (m >>= f).Gives types (Except.ok a >>= fun _ => r) := by
    refine hm.bind fun b hb => ?_
    cases hb
    exact hf
  exact rest

/-- From every coherent cache a value that is returned has a property, and the cache stays
coherent. -/
def Ensures (types : TypeRegistry H) (m : Solve H α) (P : α → Prop) : Prop :=
  ∀ c : MemberCache H, c.Coherent types →
    (∀ a, (m.exec c).1 = .ok a → P a) ∧ (m.exec c).2.Coherent types

theorem Gives.ensures {m : Solve H α} {r : Except Failure α} (h : m.Gives types r) {P : α → Prop}
    (hP : ∀ a, r = .ok a → P a) : m.Ensures types P := by
  intro c coherent
  obtain ⟨result, kept⟩ := h c coherent
  rw [result]
  exact ⟨hP, kept⟩

theorem Ensures.mapFailure {m : Solve H α} {P : α → Prop} (h : m.Ensures types P)
    (f : Failure → Failure) : (mapFailure f m).Ensures types P := by
  intro c coherent
  obtain ⟨ensured, kept⟩ := h c coherent
  rw [exec_mapFailure]
  exact ⟨fun a ha => ensured a (ok_of_mapError ha), kept⟩

theorem Ensures.bind {m : Solve H α} {P : α → Prop} (hm : m.Ensures types P) {f : α → Solve H β}
    {Q : β → Prop} (hf : ∀ a, P a → (f a).Ensures types Q) : (m >>= f).Ensures types Q := by
  intro c coherent
  obtain ⟨ensured, kept⟩ := hm c coherent
  rw [exec_bind]
  rcases hr : m.exec c with ⟨r, c'⟩
  simp only [hr] at ensured kept
  cases r with
  | error e => exact ⟨fun b hb => (by cases hb), kept⟩
  | ok a => exact hf a (ensured a rfl) c' kept

-- There is at most one such result.
theorem Gives.unique {m : Solve H α} {r r' : Except Failure α} (h : m.Gives types r)
    (h' : m.Gives types r') : r = r' := by
  have coherent : (MemberCache.off : MemberCache H).Coherent types := MemberCache.coherent_off types
  rw [← (h _ coherent).1, (h' _ coherent).1]

/-! ## Solves that may fail -/

/-- From every coherent cache a value that is returned has one property and a failure another, and
the cache stays coherent. -/
structure Settles (types : TypeRegistry H) (m : Solve H α) (P : α → Prop) (Q : Failure → Prop) :
    Prop where
  returns : m.Ensures types P
  fails : ∀ c : MemberCache H, c.Coherent types → ∀ e, (m.exec c).1 = .error e → Q e

theorem Gives.settles {m : Solve H α} {r : Except Failure α} (h : m.Gives types r) {P : α → Prop}
    {Q : Failure → Prop} (returns : ∀ a, r = .ok a → P a) (fails : ∀ e, r = .error e → Q e) :
    m.Settles types P Q where
  returns := h.ensures returns
  fails c coherent e failed := fails e ((h c coherent).1.symm.trans failed)

theorem settles_throw {P : α → Prop} {Q : Failure → Prop} {e : Failure} (known : Q e) :
    (throw e : Solve H α).Settles types P Q :=
  (gives_throw e).settles (fun _ h => by cases h) fun _ h => Except.error.inj h ▸ known

theorem settles_pure {P : α → Prop} {Q : Failure → Prop} {a : α} (known : P a) :
    (pure a : Solve H α).Settles types P Q :=
  (gives_pure a).settles (fun _ h => Except.ok.inj h ▸ known) fun _ h => by cases h

theorem Settles.mapFailure {m : Solve H α} {P : α → Prop} {Q Q' : Failure → Prop}
    (h : m.Settles types P Q) {f : Failure → Failure} (changed : ∀ e, Q e → Q' (f e)) :
    (mapFailure f m).Settles types P Q' where
  returns := h.returns.mapFailure f
  fails c coherent e failed := by
    rw [exec_mapFailure] at failed
    cases result : (m.exec c).1 with
    | ok a =>
      rw [result] at failed
      cases failed
    | error e' =>
      rw [result] at failed
      cases failed
      exact changed e' (h.fails c coherent e' result)

theorem Settles.bind {m : Solve H α} {P : α → Prop} {Q Q' : Failure → Prop}
    (h : m.Settles types P Q) {f : α → Solve H β} {P' : β → Prop} (early : ∀ e, Q e → Q' e)
    (hf : ∀ a, P a → (f a).Settles types P' Q') : (m >>= f).Settles types P' Q' where
  returns := h.returns.bind fun a ha => (hf a ha).returns
  fails c coherent e failed := by
    obtain ⟨ensured, kept⟩ := h.returns c coherent
    have stopped := h.fails c coherent
    rw [exec_bind] at failed
    generalize m.exec c = result at *
    obtain ⟨_ | a, c'⟩ := result
    · cases failed
      exact early e (stopped e rfl)
    · exact (hf a (ensured a rfl)).fails c' kept e failed

theorem Settles.imp {m : Solve H α} {P P' : α → Prop} {Q Q' : Failure → Prop}
    (h : m.Settles types P Q) (returns : ∀ a, P a → P' a) (fails : ∀ e, Q e → Q' e) :
    m.Settles types P' Q' where
  returns c coherent :=
    ⟨fun a ha => returns a ((h.returns c coherent).1 a ha), (h.returns c coherent).2⟩
  fails c coherent e failed := fails e (h.fails c coherent e failed)

-- What is ensured anyway may be added.
theorem Settles.and {m : Solve H α} {P R : α → Prop} {Q : Failure → Prop}
    (h : m.Settles types P Q) (h' : m.Ensures types R) :
    m.Settles types (fun a => P a ∧ R a) Q where
  returns c coherent :=
    ⟨fun a ha => ⟨(h.returns c coherent).1 a ha, (h' c coherent).1 a ha⟩,
      (h.returns c coherent).2⟩
  fails := h.fails

/-! ## Transparent solves -/

/-- There is a result that no cache changes. -/
def Transparent (types : TypeRegistry H) (m : Solve H α) : Prop :=
  ∃ r, m.Gives types r

theorem transparent_ofExcept (r : Except Failure α) :
    (ofExcept r : Solve H α).Transparent types :=
  ⟨r, gives_ofExcept r⟩

theorem transparent_throw (e : Failure) : (throw e : Solve H α).Transparent types :=
  ⟨_, gives_throw e⟩

theorem Transparent.mapFailure {m : Solve H α} (h : m.Transparent types)
    (f : Failure → Failure) : (mapFailure f m).Transparent types := by
  obtain ⟨r, gives⟩ := h
  exact ⟨_, gives.mapFailure f⟩

theorem Transparent.bind {m : Solve H α} (hm : m.Transparent types) {f : α → Solve H β}
    (hf : ∀ a, (f a).Transparent types) : (m >>= f).Transparent types := by
  obtain ⟨r, gives⟩ := hm
  exact ⟨_, gives.bind fun a _ => (hf a).choose_spec⟩

-- After a result that is known, only what follows its value has to be transparent.
theorem Gives.bind_transparent {m : Solve H α} {r : Except Failure α} (hm : m.Gives types r)
    {f : α → Solve H β} (hf : ∀ a, r = .ok a → (f a).Transparent types) :
    (m >>= f).Transparent types := by
  cases r with
  | error e => exact ⟨_, hm.bind (g := fun _ => .error e) fun a ha => by cases ha⟩
  | ok a =>
    obtain ⟨s, gives⟩ := hf a rfl
    exact ⟨s, hm.bind_ok gives⟩

-- A transparent solve keeps the cache coherent.
theorem Transparent.coherent {m : Solve H α} (h : m.Transparent types) {c : MemberCache H}
    (coherent : c.Coherent types) : (m.exec c).2.Coherent types := by
  obtain ⟨r, gives⟩ := h
  exact (gives c coherent).2

end Solve

/-! ## Members through the cache -/

namespace Environment

variable [HostObject H] (env : Environment H)

/-- The normalized member of a value, resolved afresh. -/
def propertyAfresh (owner : Value H) (name : String) : Except Failure (Value H) :=
  match (Member.resolve env.types owner.typeInfo name).toResult owner.typeInfo name with
  | .ok m => (m.get owner).map env.normalize
  | .error cause => .error (.solving cause)

theorem exec_member (owner : TypeInfo) (name : String) (c : MemberCache H) :
    (env.member owner name).exec c =
      (.ok ((c.lookup env.types owner name).1.toResult owner name),
        (c.lookup env.types owner name).2) :=
  rfl

theorem member_gives (owner : TypeInfo) (name : String) :
    (env.member owner name).Gives env.types
      (.ok ((Member.resolve env.types owner name).toResult owner name)) := by
  intro c coherent
  obtain ⟨resolved, kept⟩ := coherent.lookup owner name
  rw [exec_member, resolved]
  exact ⟨rfl, kept⟩

-- Looking for a member does not fail: it tells what comes of resolving it.
theorem member_settles (owner : TypeInfo) (name : String) :
    (env.member owner name).Settles env.types
      (fun result => (Member.resolve env.types owner name).toResult owner name = result)
      fun _ => False :=
  (env.member_gives owner name).settles (fun _ => Except.ok.inj) fun _ h => by cases h

-- Once a member is resolved the cache plays no further part in reading it.
theorem property_gives (owner : Value H) (name : String) :
    (env.property owner name).Gives env.types (env.propertyAfresh owner name) := by
  refine (env.member_gives owner.typeInfo name).bind_ok ?_
  unfold propertyAfresh
  cases (Member.resolve env.types owner.typeInfo name).toResult owner.typeInfo name with
  | ok m => exact Solve.gives_ofExcept _
  | error cause => exact Solve.gives_ofExcept _

end Environment

end FormulaLang
