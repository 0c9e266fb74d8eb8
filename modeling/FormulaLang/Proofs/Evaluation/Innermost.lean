import FormulaLang.Proofs.Compilation.Causes
import FormulaLang.Proofs.Context.Agreement
import Mathlib.Data.List.TakeWhile

/-!
Where a solve failed.  A term evaluates its operands one after the other and then does its own
part, so that there is one term, the innermost, whose operands give values and which fails itself.
Every term around it is told of the failure on its way out, and the text of the innermost one is
the first to be attached.
-/

namespace FormulaLang

variable {H α β : Type}

namespace Failure

-- An expression that has been named stays.
theorem within_within (e : Failure) (inner outer : String) :
    (e.within inner).within outer = e.within inner := by
  cases e <;> simp [within]

theorem expression?_within {e : Failure} (none : e.expression? = none) (text : String) :
    (e.within text).expression? = some text := by
  cases e <;> simp_all [within, expression?]

theorem bindings?_within (e : Failure) (text : String) :
    (e.within text).bindings? = e.bindings? := by
  cases e <;> rfl

theorem expression?_withBindings (e : Failure) (snapshot : Snapshot) :
    (e.withBindings snapshot).expression? = e.expression? := by
  cases e <;> rfl

theorem bindings?_withBindings {e : Failure} (solving : e.stage = "solve") (snapshot : Snapshot) :
    (e.withBindings snapshot).bindings? = e.bindings?.or (some snapshot) := by
  cases e with
  | solve cause expression bindings => rfl
  | _ => exact absurd solving (by simp [stage])

theorem stage_withBindings (e : Failure) (snapshot : Snapshot) :
    (e.withBindings snapshot).stage = e.stage := by
  cases e <;> rfl

end Failure

/-! ## Failures of a solve from a cache -/

/-- Whatever a cached member fails with is permitted. -/
def MemberCache.Permits (c : MemberCache H) (Q : Failure → Prop) : Prop :=
  ∀ owner name m, c.held? owner name = some m → ∀ v e, m.get v = .error e → Q e

namespace Solve

/-- From a cache whose members fail as permitted a solve fails as permitted and leaves such a
cache. -/
def Confined (Q : Failure → Prop) (m : Solve H α) : Prop :=
  ∀ c : MemberCache H, c.Permits Q →
    (m.exec c).2.Permits Q ∧ ∀ e, (m.exec c).1 = .error e → Q e

variable {Q : Failure → Prop}

theorem confined_ofExcept {r : Except Failure α} (fails : ∀ e, r = .error e → Q e) :
    (ofExcept r : Solve H α).Confined Q :=
  fun _ held => ⟨held, fails⟩

theorem confined_pure (a : α) : (pure a : Solve H α).Confined Q :=
  confined_ofExcept (r := .ok a) fun _ h => by cases h

theorem confined_throw {e : Failure} (permitted : Q e) : (throw e : Solve H α).Confined Q :=
  confined_ofExcept (r := .error e) fun _ h => Except.error.inj h ▸ permitted

theorem Confined.bind {m : Solve H α} (hm : m.Confined Q) {f : α → Solve H β}
    (hf : ∀ a, (f a).Confined Q) : (m >>= f).Confined Q := by
  intro c held
  obtain ⟨kept, fails⟩ := hm c held
  rw [exec_bind]
  rcases hr : m.exec c with ⟨r, c'⟩
  simp only [hr] at kept fails
  cases r with
  | error e =>
    refine ⟨kept, fun e' same => ?_⟩
    cases same
    exact fails e rfl
  | ok a => exact hf a c' kept

/-! ### One solve for each item of a list -/

theorem exec_mapM_cons (f : α → Solve H β) (u : α) (rest : List α) (c : MemberCache H) :
    ((u :: rest).mapM f).exec c =
      match (f u).exec c with
      | (.ok v, c) => (((rest.mapM f).exec c).1.map (v :: ·), ((rest.mapM f).exec c).2)
      | (.error e, c) => (.error e, c) := by
  rw [List.mapM_cons, exec_bind]
  rcases (f u).exec c with ⟨_ | v, c₁⟩
  · rfl
  · dsimp only
    rw [exec_bind]
    rcases (rest.mapM f).exec c₁ with ⟨_ | vs, c₂⟩ <;> rfl

variable {f : α → Solve H β} {u : α} {rest : List α} {c c' : MemberCache H}

theorem exec_mapM_cons_ok_iff {vs : List β} :
    ((u :: rest).mapM f).exec c = (.ok vs, c') ↔
      ∃ v c₁ ws, (f u).exec c = (.ok v, c₁) ∧ (rest.mapM f).exec c₁ = (.ok ws, c') ∧
        vs = v :: ws := by
  rw [exec_mapM_cons]
  constructor
  · intro h
    rcases first : (f u).exec c with ⟨_ | v, c₁⟩
    · rw [first] at h
      cases h
    · rw [first] at h
      obtain ⟨all, same⟩ := Prod.mk.inj h
      obtain ⟨ws, others, rfl⟩ := ok_of_map all
      exact ⟨v, c₁, ws, rfl, Prod.ext others same, rfl⟩
  · rintro ⟨v, c₁, ws, first, others, rfl⟩
    rw [first]
    dsimp only
    rw [others]
    rfl

theorem exec_mapM_cons_error_iff {e : Failure} :
    ((u :: rest).mapM f).exec c = (.error e, c') ↔
      (f u).exec c = (.error e, c') ∨
        ∃ v c₁, (f u).exec c = (.ok v, c₁) ∧ (rest.mapM f).exec c₁ = (.error e, c') := by
  rw [exec_mapM_cons]
  constructor
  · intro h
    rcases first : (f u).exec c with ⟨_ | v, c₁⟩
    · rw [first] at h
      cases h
      exact .inl rfl
    · rw [first] at h
      obtain ⟨failed, same⟩ := Prod.mk.inj h
      exact .inr ⟨v, c₁, rfl, Prod.ext (error_of_map failed) same⟩
  · rintro (first | ⟨v, c₁, first, others⟩)
    · rw [first]
    · rw [first]
      dsimp only
      rw [others]
      rfl

-- The first solve that fails ends all.
theorem exec_mapM_error {us : List α} {e : Failure}
    (h : (us.mapM f).exec c = (.error e, c')) :
    ∃ before u after vs c₁, us = before ++ u :: after ∧
      (before.mapM f).exec c = (.ok vs, c₁) ∧ (f u).exec c₁ = (.error e, c') := by
  induction us generalizing c with
  | nil => cases h
  | cons u rest ih =>
    rcases exec_mapM_cons_error_iff.mp h with first | ⟨v, c₁, first, later⟩
    · exact ⟨[], u, rest, [], c, rfl, rfl, first⟩
    · obtain ⟨before, w, after, vs, c₂, rfl, passed, failed⟩ := ih later
      exact ⟨u :: before, w, after, v :: vs, c₂, rfl,
        exec_mapM_cons_ok_iff.mpr ⟨v, c₁, vs, first, passed, rfl⟩, failed⟩

-- One that fails behind others that do not fails for all.
theorem exec_mapM_fails {before : List α} {c₁ : MemberCache H} {vs : List β} {e : Failure}
    (passed : (before.mapM f).exec c = (.ok vs, c₁)) (failed : (f u).exec c₁ = (.error e, c'))
    (after : List α) : ((before ++ u :: after).mapM f).exec c = (.error e, c') := by
  induction before generalizing c vs with
  | nil =>
    cases passed
    exact exec_mapM_cons_error_iff.mpr (.inl failed)
  | cons w rest ih =>
    obtain ⟨v, c₂, ws, first, others, -⟩ := exec_mapM_cons_ok_iff.mp passed
    exact exec_mapM_cons_error_iff.mpr (.inr ⟨v, c₂, first, ih others⟩)

-- So there is one place at which solves fail.
theorem exec_mapM_fails_once {before before' after after' : List α} {u' : α}
    {c₁ c₁' c₂ : MemberCache H} {vs vs' : List β} {e e' : Failure}
    (passed : (before.mapM f).exec c = (.ok vs, c₁)) (failed : (f u).exec c₁ = (.error e, c₁'))
    (passed' : (before'.mapM f).exec c = (.ok vs', c₂))
    (failed' : (f u').exec c₂ = (.error e', c'))
    (same : before ++ u :: after = before' ++ u' :: after') : u = u' ∧ c₁ = c₂ := by
  rcases List.append_eq_append_iff.mp same with
    ⟨_ | ⟨w, more⟩, rfl, rest⟩ | ⟨_ | ⟨w, more⟩, rfl, rest⟩
  · rw [List.append_nil, passed] at passed'
    exact ⟨(List.cons.inj rest).1, (Prod.mk.inj passed').2⟩
  · obtain rfl := (List.cons.inj rest).1
    rw [exec_mapM_fails passed failed more] at passed'
    cases passed'
  · rw [List.append_nil, passed'] at passed
    exact ⟨(List.cons.inj rest).1.symm, (Prod.mk.inj passed).2.symm⟩
  · obtain rfl := (List.cons.inj rest).1
    rw [exec_mapM_fails passed' failed' more] at passed
    cases passed

-- What each solve keeps all of them keep.
theorem exec_mapM_keeps {us : List α} {P : MemberCache H → Prop}
    (keeps : ∀ u ∈ us, ∀ c, P c → P ((f u).exec c).2) (h : P c) :
    P ((us.mapM f).exec c).2 := by
  induction us generalizing c with
  | nil => exact h
  | cons u rest ih =>
    have here := keeps u List.mem_cons_self c h
    rw [exec_mapM_cons]
    rcases first : (f u).exec c with ⟨_ | v, c₁⟩
    · rw [first] at here
      exact here
    · rw [first] at here
      exact ih (fun w listed => keeps w (List.mem_cons_of_mem _ listed)) here

end Solve

namespace MemberCache

variable [HostObject H] {env : Environment H} {Q : Failure → Prop}

-- A member that is found is a cached one or a resolved one, and so is one that is cached then.
theorem Permits.lookup {c : MemberCache H} (held : c.Permits Q) (h : env.Permits Q)
    (owner : TypeInfo) (name : String) :
    (c.lookup env.types owner name).2.Permits Q ∧
      ∀ m, (c.lookup env.types owner name).1 = .found m → ∀ v e, m.get v = .error e → Q e := by
  have asked : (c.get owner name).2.Permits Q := by
    intro other key m there
    rw [held?_get] at there
    exact held other key m there
  unfold MemberCache.lookup
  split
  case h_1 m c' answered =>
    rw [answered] at asked
    refine ⟨asked, fun m' found => ?_⟩
    cases found
    exact held owner name m (held?_of_get (by rw [answered]))
  case h_2 c' unanswered =>
    rw [unanswered] at asked
    split
    case h_1 m resolved =>
      constructor
      · intro other key m' there
        rcases held?_insert there with ⟨-, -, rfl⟩ | before
        · exact fun v e => h.resolved resolved
        · exact asked other key m' before
      · rintro m' ⟨⟩ v e
        exact h.resolved resolved
    case h_2 other unresolved =>
      exact ⟨asked, fun m found => absurd found (unresolved m)⟩

end MemberCache

namespace Environment

variable [HostObject H] {env : Environment H} {Q : Failure → Prop}

theorem confined_property (h : env.Permits Q) (owner : Value H) (name : String) :
    (env.property owner name).Confined Q := by
  intro c held
  obtain ⟨kept, found⟩ := held.lookup h owner.typeInfo name
  have member : (env.member owner.typeInfo name).exec c =
      (.ok ((c.lookup env.types owner.typeInfo name).1.toResult owner.typeInfo name),
        (c.lookup env.types owner.typeInfo name).2) := rfl
  rw [property, Solve.exec_bind, member]
  dsimp only
  split
  case h_1 m there =>
    exact Solve.confined_ofExcept
      (fun e failed =>
        found m (MemberLookup.found_of_toResult there) owner e (error_of_map failed)) _ kept
  case h_2 cause unresolved =>
    exact Solve.confined_throw (h.own cause (shaped_toResult unresolved)) _ kept

end Environment

namespace Term

/-- The operands whose values a term wants, in their order.  The names of members and functions and
literal keys are not evaluated, and what is no name cannot be applied to anything. -/
def wanted : Term → List Term
  | node (.operator .negate) _ right => [right]
  | node (.operator .property) left _ => [left]
  | node (.operator .index) left (node (.name _) _ _) => [left]
  | node (.operator .transform) (node (.name _) _ _) right => [right]
  | node (.operator .transform) _ _ => []
  | node (.operator _) left right => [left, right]
  | _ => []

/-- The operands that a term has evaluated: those that it wants, up to one that is not there. -/
def operands (t : Term) : List Term :=
  t.wanted.takeWhile (· ≠ absent)

theorem wanted_index (left : Term) {right : Term}
    (evaluated : ∀ key l r, right = node (.name key) l r → False) :
    (node (.operator .index) left right).wanted = [left, right] := by
  cases right with
  | absent => rfl
  | node token l r =>
    cases token with
    | name key => exact absurd rfl (evaluated key l r)
    | _ => rfl

theorem wanted_transform {left : Term} {e : Failure} (right : Term)
    (unnamed : left.nameOperand Failure.solving = .error e) :
    (node (.operator .transform) left right).wanted = [] := by
  cases left with
  | absent => rfl
  | node token l r =>
    cases token with
    | name text => cases unnamed
    | _ => rfl

variable {Q : Failure → Prop}

theorem permits_nameOperand (any : ∀ cause, Q (.solving cause)) {t : Term} {e : Failure}
    (unnamed : t.nameOperand Failure.solving = .error e) : Q e := by
  unfold nameOperand at unnamed
  split at unnamed
  case h_2 => cases unnamed
  all_goals
    cases unnamed
    exact any _

variable [HostObject H] {env : Environment H} {bindings : Bindings H}

/-- The solve evaluates some terms, one after the other, and from then on it fails as permitted. -/
inductive Asks (env : Environment H) (bindings : Bindings H) (Q : Failure → Prop) :
    List Term → Solve H (Value H) → Prop
  | done {m : Solve H (Value H)} (confined : m.Confined Q) : Asks env bindings Q [] m
  | next {u : Term} {us : List Term} {f : Value H → Solve H (Value H)}
      (rest : ∀ v, Asks env bindings Q us (f v)) :
      Asks env bindings Q (u :: us) (u.evaluate env bindings >>= f)

namespace Asks

variable {us : List Term} {m : Solve H (Value H)} {c c' : MemberCache H}

theorem one {f : Value H → Except Failure (Value H)} (fails : ∀ v e, f v = .error e → Q e)
    (u : Term) :
    Asks env bindings Q [u] (u.evaluate env bindings >>= fun v => Solve.ofExcept (f v)) :=
  .next fun v => .done (Solve.confined_ofExcept (fails v))

theorem two {f : Value H → Value H → Except Failure (Value H)}
    (fails : ∀ x y e, f x y = .error e → Q e) (u w : Term) :
    Asks env bindings Q [u, w] (do
      let x ← u.evaluate env bindings
      let y ← w.evaluate env bindings
      Solve.ofExcept (f x y)) :=
  .next fun x => .next fun y => .done (Solve.confined_ofExcept (fails x y))

-- It ends where a term is not there.
theorem takeWhile (any : ∀ cause, Q (.solving cause)) (h : Asks env bindings Q us m) :
    Asks env bindings Q (us.takeWhile (· ≠ absent)) m := by
  induction h with
  | done confined => exact .done confined
  | @next u us f rest ih =>
    cases u with
    | absent => exact .done (Solve.confined_throw (any .missingOperand))
    | node token left right => exact .next ih

theorem exec_error (h : Asks env bindings Q us m) {e : Failure}
    (failed : (us.mapM (evaluate env bindings)).exec c = (.error e, c')) :
    m.exec c = (.error e, c') := by
  induction h generalizing c with
  | done => cases failed
  | next rest ih =>
    rw [Solve.exec_bind]
    rcases Solve.exec_mapM_cons_error_iff.mp failed with first | ⟨v, c₁, first, later⟩
    · rw [first]
    · rw [first]
      exact ih v later

theorem exec_ok (h : Asks env bindings Q us m) {vs : List (Value H)}
    (passed : (us.mapM (evaluate env bindings)).exec c = (.ok vs, c')) :
    ∃ act : Solve H (Value H), act.Confined Q ∧ m.exec c = act.exec c' := by
  induction h generalizing c vs with
  | done confined =>
    cases passed
    exact ⟨_, confined, rfl⟩
  | next rest ih =>
    obtain ⟨v, c₁, ws, first, others, -⟩ := Solve.exec_mapM_cons_ok_iff.mp passed
    rw [Solve.exec_bind, first]
    exact ih v others

end Asks

-- A term asks for the values that it wants and does its own part with them.
theorem evaluate_asks_wanted (bindings : Bindings H) (h : env.Permits Q)
    (any : ∀ cause, Q (.solving cause)) {t : Term} (there : t ≠ absent) :
    ∃ m, t.evaluate env bindings = Solve.mapFailure (Failure.within t.text) m ∧
      Asks env bindings Q t.wanted m := by
  cases t with
  | absent => exact absurd rfl there
  | node token left right =>
    cases token with
    | number x => exact ⟨_, rfl, Asks.done (Solve.confined_pure _)⟩
    | name text | group raw | magnitude raw =>
      exact ⟨_, rfl, Asks.done (Solve.confined_throw (any _))⟩
    | var name =>
      refine ⟨_, rfl, Asks.done ?_⟩
      split
      · exact Solve.confined_pure _
      · exact Solve.confined_throw (any _)
    | operator op =>
      cases op with
      | negate =>
        exact ⟨_, rfl, Asks.one (fun v e => h.negate) right⟩
      | property =>
        refine ⟨_, rfl, .next fun owner => .done ?_⟩
        exact (Solve.confined_ofExcept fun e => permits_nameOperand any).bind fun name =>
          env.confined_property h owner name
      | index =>
        obtain ⟨key, l, r, rfl⟩ | evaluated := right.name_or_evaluated
        · exact ⟨_, rfl, Asks.one (fun owner e => h.index) left⟩
        · rw [wanted_index left evaluated, evaluate]
          refine ⟨_, rfl, ?_⟩
          split
          · exact absurd rfl (evaluated _ _ _)
          · exact Asks.two (fun owner key e => h.index) left right
      | transform =>
        cases named : left.nameOperand Failure.solving with
        | ok name =>
          obtain ⟨l, r, rfl⟩ := nameOperand_ok_iff.mp named
          exact ⟨_, rfl, Asks.one (fun v e => h.application) right⟩
        | error e =>
          rw [wanted_transform right named, evaluate, named]
          exact ⟨_, rfl, Asks.done (Solve.confined_throw (permits_nameOperand any named))⟩
      | _ => exact ⟨_, rfl, Asks.two (fun x y e => h.binary) left right⟩

theorem evaluate_asks (bindings : Bindings H) (h : env.Permits Q)
    (any : ∀ cause, Q (.solving cause)) {t : Term} (there : t ≠ absent) :
    ∃ m, t.evaluate env bindings = Solve.mapFailure (Failure.within t.text) m ∧
      Asks env bindings Q t.operands m := by
  obtain ⟨m, evaluates, asks⟩ := evaluate_asks_wanted bindings h any there
  exact ⟨m, evaluates, asks.takeWhile any⟩

theorem mem_operands {token : Token} {left right u : Term}
    (h : u ∈ (node token left right).operands) : u ≠ absent ∧ (u = left ∨ u = right) := by
  refine ⟨by simpa using List.mem_takeWhile_imp h, ?_⟩
  have mem := (List.takeWhile_sublist _).subset h
  unfold wanted at mem
  split at mem <;> simp_all

/-- Where the evaluation of a term stops that starts from a cache: at the term itself if its
operands have values, and otherwise where the first operand stops that has none. -/
inductive StopsAt (env : Environment H) (bindings : Bindings H) :
    Term → MemberCache H → Term → Prop
  | here {t : Term} {c c' c'' : MemberCache H} {vs : List (Value H)} {e : Failure}
      (passed : (t.operands.mapM (evaluate env bindings)).exec c = (.ok vs, c'))
      (failed : (t.evaluate env bindings).exec c = (.error e, c'')) : StopsAt env bindings t c t
  | operand {t u s : Term} {before after : List Term} {c c' : MemberCache H}
      {vs : List (Value H)} (split : t.operands = before ++ u :: after)
      (passed : (before.mapM (evaluate env bindings)).exec c = (.ok vs, c'))
      (stops : StopsAt env bindings u c' s) : StopsAt env bindings t c s

/-- A term that fails stops somewhere, and its failure is that of the term where it stops. -/
theorem evaluate_stops (bindings : Bindings H) (h : env.Permits Q)
    (any : ∀ cause, Q (.solving cause)) {t : Term} (there : t ≠ absent) (c : MemberCache H)
    (held : c.Permits Q) :
    ((t.evaluate env bindings).exec c).2.Permits Q ∧
      ∀ e, ((t.evaluate env bindings).exec c).1 = .error e →
        ∃ s own, StopsAt env bindings t c s ∧ Q own ∧ e = own.within s.text := by
  induction t generalizing c with
  | absent => exact absurd rfl there
  | node token left right hl hr =>
    have ih : ∀ u ∈ (node token left right).operands, ∀ c, c.Permits Q →
        ((u.evaluate env bindings).exec c).2.Permits Q ∧
          ∀ e, ((u.evaluate env bindings).exec c).1 = .error e →
            ∃ s own, StopsAt env bindings u c s ∧ Q own ∧ e = own.within s.text := by
      intro u listed
      obtain ⟨present, rfl | rfl⟩ := mem_operands listed
      · exact hl present
      · exact hr present
    -- operands leave a cache as it should be, however many of them are evaluated
    have keeps (us : List Term) (some : us ⊆ (node token left right).operands) :
        ((us.mapM (evaluate env bindings)).exec c).2.Permits Q :=
      Solve.exec_mapM_keeps (P := (·.Permits Q)) (fun u listed c held =>
        (ih u (some listed) c held).1) held
    obtain ⟨m, evaluates, asks⟩ := evaluate_asks bindings h any there
    have outcome := Solve.exec_mapFailure (Failure.within (node token left right).text) m c
    rw [← evaluates] at outcome
    have kept := keeps _ (List.Subset.refl _)
    rcases ran : ((node token left right).operands.mapM (evaluate env bindings)).exec c with
      ⟨e | vs, c'⟩
    · rw [ran] at kept
      rw [outcome, asks.exec_error ran]
      refine ⟨kept, ?_⟩
      rintro e' ⟨⟩
      obtain ⟨before, u, after, vs, c₁, split, passed, failed⟩ := Solve.exec_mapM_error ran
      have reached : c₁.Permits Q := by
        have before := keeps before (split ▸ List.subset_append_left _ _)
        rwa [passed] at before
      obtain ⟨s, own, stops, permitted, rfl⟩ :=
        (ih u (by simp [split]) c₁ reached).2 e (by rw [failed])
      exact ⟨s, own, .operand split passed stops, permitted, Failure.within_within _ _ _⟩
    · rw [ran] at kept
      obtain ⟨act, confined, same⟩ := asks.exec_ok ran
      obtain ⟨after, fails⟩ := confined c' kept
      rw [outcome, same]
      refine ⟨after, fun e failed => ?_⟩
      obtain ⟨own, part, rfl⟩ := error_of_mapError failed
      have stops : ((node token left right).evaluate env bindings).exec c =
          (.error (own.within (node token left right).text), (act.exec c').2) := by
        rw [outcome, same, part]
        rfl
      exact ⟨_, own, .here ran stops, fails own part, rfl⟩

namespace StopsAt

variable {t s s' : Term} {c : MemberCache H}

-- A term stops only when it fails.
theorem failed (h : StopsAt env bindings t c s) :
    ∃ e c', (t.evaluate env bindings).exec c = (.error e, c') := by
  induction h with
  | here passed failed => exact ⟨_, _, failed⟩
  | @operand t u s before after c c₁ vs split passed stops ih =>
    obtain ⟨e, c', failed⟩ := ih
    have there : t ≠ absent := by
      rintro rfl
      exact absurd split (by simp [operands, wanted])
    have anything : env.Permits fun _ => True := by constructor <;> simp
    obtain ⟨m, evaluates, asks⟩ := evaluate_asks bindings anything (fun _ => trivial) there
    have fails := Solve.exec_mapM_fails passed failed after
    rw [← split] at fails
    rw [evaluates, Solve.exec_mapFailure, asks.exec_error fails]
    exact ⟨_, _, rfl⟩

-- It stops at one place.
theorem unique (h : StopsAt env bindings t c s) (h' : StopsAt env bindings t c s') : s' = s := by
  induction h with
  | here passed failed =>
    cases h' with
    | here => rfl
    | @operand _ _ _ _ after _ _ _ split' passed' stops' =>
      obtain ⟨e, c', failed'⟩ := stops'.failed
      rw [split', Solve.exec_mapM_fails passed' failed' after] at passed
      cases passed
  | @operand _ _ _ _ after _ _ _ split passed stops ih =>
    obtain ⟨e, c', failed⟩ := stops.failed
    cases h' with
    | here passed' =>
      rw [split, Solve.exec_mapM_fails passed failed after] at passed'
      cases passed'
    | operand split' passed' stops' =>
      obtain ⟨e', c'', failed'⟩ := stops'.failed
      obtain ⟨rfl, rfl⟩ := Solve.exec_mapM_fails_once passed failed passed' failed'
        (split.symm.trans split')
      exact ih stops'

end StopsAt

end Term

/-! ## Solves -/

namespace Environment

/-- Some function that a host application has supplied fails so, a declared one or that of a cached
member. -/
inductive HostFails (env : Environment H) (cache : MemberCache H) : Failure → Prop where
  | member {type d m v e} (described : env.types.descriptor? type = some d)
      (listed : m ∈ d.members) (failed : m.get v = .error e) : HostFails env cache e
  | operator {type d o x y e} (described : env.types.descriptor? type = some d)
      (listed : o ∈ d.operators) (failed : o.apply x y = .error e) : HostFails env cache e
  | negation {type d f v e} (described : env.types.descriptor? type = some d)
      (declared : d.negation? = some f) (failed : f v = .error e) : HostFails env cache e
  | conversion {type d c v e} (described : env.types.descriptor? type = some d)
      (listed : c ∈ d.conversions) (failed : c.apply v = .error e) : HostFails env cache e
  | transform {name overloads t v e} (known : env.functions.overloads? name = some overloads)
      (listed : t ∈ overloads) (failed : t.apply v = .error e) : HostFails env cache e
  | cached {owner name m v e} (held : cache.held? owner name = some m)
      (failed : m.get v = .error e) : HostFails env cache e

/-- A failure as it arises, of a rule or of a function of the host application. -/
def Arises (env : Environment H) (cache : MemberCache H) (e : Failure) : Prop :=
  (∃ cause, e = .solving cause) ∨ env.HostFails cache e

theorem permits_arises (env : Environment H) (cache : MemberCache H) :
    env.Permits (env.Arises cache) where
  own cause _ := .inl ⟨cause, rfl⟩
  member described listed failed := .inr (.member described listed failed)
  operator described listed failed := .inr (.operator described listed failed)
  negation described declared failed := .inr (.negation described declared failed)
  conversion described listed failed := .inr (.conversion described listed failed)
  transform known listed failed := .inr (.transform known listed failed)

-- What the rules' failures and those of the host application have, every failure has.
theorem Arises.of_host {env : Environment H} {cache : MemberCache H} {e : Failure}
    (h : env.Arises cache e) {P : Failure → Prop} (rules : ∀ cause, P (.solving cause))
    (host : ∀ own, env.HostFails cache own → P own) : P e := by
  rcases h with ⟨cause, rfl⟩ | own
  · exact rules cause
  · exact host e own

end Environment

namespace Term

variable [HostObject H]

theorem exec_solve {env : Environment H} {s : Specification} {inputs : List (Value H)}
    {bindings : Bindings H} (bound : Bindings.ofInputs env s.parameters inputs = .ok bindings)
    (t : Term) (c : MemberCache H) :
    ((t.solve env s inputs).exec c).1 = (((t.evaluate env bindings).exec c).1.map
      env.normalize).mapError (Failure.withBindings bindings.snapshot) := by
  rw [solve, bound, Solve.exec_bind]
  change ((_ >>= _ : Solve H (Value H)).exec c).1 = _
  rw [Solve.exec_bind, Solve.exec_mapFailure]
  rcases (t.evaluate env bindings).exec c with ⟨_ | v, c'⟩ <;> rfl

/-- A solve whose inputs can be bound fails for the innermost term that fails, and reports each
variable with its value unless a function of the host application has recorded inputs of its own.
A solve whose inputs cannot be bound fails as a whole. -/
theorem solve_fails_innermost (env : Environment H) (cache : MemberCache H) {t : Term}
    (there : t ≠ absent) (s : Specification) (inputs : List (Value H))
    (unnamed : ∀ own, env.HostFails cache own → own.expression? = none) :
    (∀ bindings, Bindings.ofInputs env s.parameters inputs = .ok bindings →
      Keyed.keys bindings.snapshot = s.variableNames ∧
        ∀ e, ((t.solve env s inputs).exec cache).1 = .error e →
          (∃ u, StopsAt env bindings t cache u ∧
            (∀ u', StopsAt env bindings t cache u' → u' = u) ∧ e.expression? = some u.text) ∧
          ((∀ own, env.HostFails cache own → own.bindings? = none) →
            e.stage = "solve" → e.bindings? = some bindings.snapshot)) ∧
      ∀ refusal, Bindings.ofInputs env s.parameters inputs = .error refusal →
        ∃ e, ((t.solve env s inputs).exec cache).1 = .error e ∧
          e.expression? = some t.text ∧ e.bindings? = none := by
  constructor
  · intro bindings bound
    constructor
    · obtain ⟨enough, prepared⟩ := Bindings.ofInputs_ok_iff.mp bound
      rw [Specification.variableNames, ← prepared.keys_eq enough]
      simp [Bindings.snapshot, Keyed.keys]
    · intro e failed
      rw [exec_solve bound] at failed
      obtain ⟨inner, evaluated, rfl⟩ := error_of_mapError failed
      obtain ⟨-, stops⟩ := evaluate_stops bindings (env.permits_arises cache)
        (fun cause => .inl ⟨cause, rfl⟩) there cache
        fun owner name m held v e failed => .inr (.cached held failed)
      obtain ⟨u, own, stop, arises, rfl⟩ := stops inner (error_of_map evaluated)
      refine ⟨⟨u, stop, fun u' stop' => stop.unique stop', ?_⟩, fun unrecorded solving => ?_⟩
      · have bare : own.expression? = none := arises.of_host (fun _ => rfl) unnamed
        rw [Failure.expression?_withBindings, Failure.expression?_within bare]
      · have bare : own.bindings? = none := arises.of_host (fun _ => rfl) unrecorded
        rw [Failure.stage_withBindings] at solving
        rw [Failure.bindings?_withBindings solving, Failure.bindings?_within, bare, Option.none_or]
  · intro refusal refused
    obtain ⟨cause, rfl, -⟩ := Bindings.refusal_of_ofInputs refused
    refine ⟨(Failure.solving cause).within t.text, ?_, rfl, rfl⟩
    rw [solve, refused]
    rfl

/-- A transform that always fails in the same way, and nothing else. -/
def refusing (own : Failure) : Environment Empty :=
  ⟨.empty, FunctionRegistry.empty.register ⟨"boom", .any, .any, fun _ => .error own⟩, .standard⟩

theorem eq_of_refusing {own e : Failure} (h : (refusing own).HostFails .off e) : e = own := by
  cases h with
  | transform known listed failed =>
    refine FunctionRegistry.overloads_register (r := .empty)
      (P := fun t => ∀ v e, t.apply v = .error e → e = own)
      (fun name overloads found => by cases found) ?_ _ _ known _ listed _ _ failed
    rintro v e ⟨⟩
    rfl
  | cached held => cases held
  | _ described => cases described

/-- `x + boom(y)` -/
def sumRefused : Term :=
  node (.operator .add) (leaf (.var "x"))
    (node (.operator .transform) (leaf (.name "boom")) (leaf (.var "y")))

def sumSpecification : Specification :=
  ⟨"f", [("x", .any), ("y", .any)], true, by decide⟩

def sumInputs : List (Value Empty) :=
  [.string "a", .string "b"]

def sumBindings : Bindings Empty :=
  [("x", .string "a"), ("y", .string "b")]

theorem solve_fails_innermost_boom :
    let env := refusing (.solving (.custom "no"))
    sumRefused ≠ absent ∧ (∀ own, env.HostFails .off own → own.expression? = none) ∧
      (∀ own, env.HostFails .off own → own.bindings? = none) ∧
      Bindings.ofInputs env sumSpecification.parameters sumInputs = .ok sumBindings ∧
      ∃ e u, ((sumRefused.solve env sumSpecification sumInputs).exec .off).1 = .error e ∧
        StopsAt env sumBindings sumRefused .off u ∧ e.expression? = some u.text ∧
        e.expression? = some "boom(y)" ∧
        e.bindings? = some [("x", "\"a\""), ("y", "\"b\"")] ∧
        -- with one input too few the whole term is to blame
        ∃ e', ((sumRefused.solve env sumSpecification [.string "a"]).exec .off).1 = .error e' ∧
          e'.expression? = some sumRefused.text ∧ e'.bindings? = none := by
  intro env
  have there : sumRefused ≠ absent := by decide
  have unnamed (own : Failure) (h : env.HostFails .off own) : own.expression? = none := by
    rw [eq_of_refusing h]
    rfl
  have unrecorded (own : Failure) (h : env.HostFails .off own) : own.bindings? = none := by
    rw [eq_of_refusing h]
    rfl
  have bound : Bindings.ofInputs env sumSpecification.parameters sumInputs = .ok sumBindings := rfl
  obtain ⟨named, -⟩ :=
    solve_fails_innermost env .off there sumSpecification sumInputs unnamed
  obtain ⟨-, blamed⟩ :=
    solve_fails_innermost env .off there sumSpecification [.string "a"] unnamed
  have failed : ((sumRefused.solve env sumSpecification sumInputs).exec .off).1 = .error
      (.solve (.custom "no") (some "boom(y)") (some [("x", "\"a\""), ("y", "\"b\"")])) := by rfl
  obtain ⟨-, fails⟩ := named sumBindings bound
  obtain ⟨⟨u, stops, -, text⟩, recorded⟩ := fails _ failed
  exact ⟨there, unnamed, unrecorded, bound, _, u, failed, stops, text, rfl,
    recorded unrecorded rfl, blamed _ rfl⟩

/-- Inputs that a transform has recorded with its failure are reported instead of those of the
solve. -/
theorem solve_reports_recorded :
    let env := refusing (.solve (.custom "no") none (some [("x", "mine")]))
    (∀ own, env.HostFails .off own → own.expression? = none) ∧
      Bindings.ofInputs env sumSpecification.parameters sumInputs = .ok sumBindings ∧
      sumBindings.snapshot = [("x", "\"a\""), ("y", "\"b\"")] ∧
      ∃ e, ((sumRefused.solve env sumSpecification sumInputs).exec .off).1 = .error e ∧
        e.stage = "solve" ∧ e.expression? = some "boom(y)" ∧
        e.bindings? = some [("x", "mine")] ∧ e.bindings? ≠ some sumBindings.snapshot := by
  intro env
  refine ⟨fun own h => ?_, rfl, rfl,
    .solve (.custom "no") (some "boom(y)") (some [("x", "mine")]), rfl, rfl, rfl, rfl, by decide⟩
  rw [eq_of_refusing h]
  rfl

end Term

end FormulaLang
