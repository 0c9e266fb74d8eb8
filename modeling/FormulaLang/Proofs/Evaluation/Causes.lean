import FormulaLang.Evaluation
import FormulaLang.Proofs.Compilation.Subterms
import FormulaLang.Proofs.Reduction.WellFormed
import FormulaLang.Proofs.Typing.Declared

/-!
Causes that a well-formed tree does not give.  Solving a well-formed term never meets a name in the
place of a value, raw text or an operand that is not there, so that such a cause can only be the
word of a declared function.  That a variable is not bound is said only where one is evaluated that
is not.
-/

namespace FormulaLang

/-- Whether the cause says that a tree is misshapen: a name where a value is needed, text that has
not been read, an operand that is not there. -/
def Cause.isMisshapen : Cause → Bool
  | notAValue _ | unexpandedGroup | missingOperand => true
  | _ => false

/-- Whether the cause is found in a tree: it is misshapen, or has a variable that there is none
of. -/
def Cause.isOfTree : Cause → Bool
  | unboundVariable _ | unknownVariable _ => true
  | cause => cause.isMisshapen

theorem Cause.isOfTree_of_isMisshapen {cause : Cause} (h : cause.isMisshapen = true) :
    cause.isOfTree = true := by
  cases cause <;> first | rfl | cases h

theorem Cause.shaped_of_not_isOfTree {cause : Cause} (h : cause.isOfTree = false) :
    cause.isMisshapen = false := by
  cases cause <;> first | rfl | cases h

theorem Failure.cause_within (e : Failure) (text : String) : (e.within text).cause = e.cause := by
  cases e <;> rfl

theorem Failure.cause_withBindings (e : Failure) (snapshot : Snapshot) :
    (e.withBindings snapshot).cause = e.cause := by
  cases e <;> rfl

variable {H : Type}

namespace Environment

/-- Some function that a host application has declared fails with the cause. -/
inductive Raises (env : Environment H) : Cause → Prop where
  | member {type : TypeInfo} {d : TypeDescriptor H} {m : Member H} {v : Value H} {e : Failure}
      (described : env.types.descriptor? type = some d) (listed : m ∈ d.members)
      (failed : m.get v = .error e) : Raises env e.cause
  | operator {type : TypeInfo} {d : TypeDescriptor H} {o : Overload H} {x y : Value H}
      {e : Failure} (described : env.types.descriptor? type = some d) (listed : o ∈ d.operators)
      (failed : o.apply x y = .error e) : Raises env e.cause
  | negation {type : TypeInfo} {d : TypeDescriptor H} {f : Unary H} {v : Value H} {e : Failure}
      (described : env.types.descriptor? type = some d) (declared : d.negation? = some f)
      (failed : f v = .error e) : Raises env e.cause
  | conversion {type : TypeInfo} {d : TypeDescriptor H} {c : Conversion H} {v : Value H}
      {e : Failure} (described : env.types.descriptor? type = some d) (listed : c ∈ d.conversions)
      (failed : c.apply v = .error e) : Raises env e.cause
  | transform {name : String} {overloads : List (Transform H)} {t : Transform H} {v : Value H}
      {e : Failure} (known : env.functions.overloads? name = some overloads)
      (listed : t ∈ overloads) (failed : t.apply v = .error e) : Raises env e.cause

/-- A cause that says that a tree is misshapen has been raised by a declared function. -/
def Accounts (env : Environment H) (e : Failure) : Prop :=
  e.cause.isMisshapen = true → env.Raises e.cause

/-- A cause that is found in trees has been raised by a declared function. -/
def Explains (env : Environment H) (e : Failure) : Prop :=
  e.cause.isOfTree = true → env.Raises e.cause

variable {env : Environment H} {e : Failure}

theorem Explains.accounts (h : env.Explains e) : env.Accounts e :=
  fun misshapen => h (Cause.isOfTree_of_isMisshapen misshapen)

-- Every cause of another kind is explained.
theorem explains_of_shaped (h : e.cause.isOfTree = false) : env.Explains e := by
  intro found
  rw [h] at found
  cases found

theorem shaped_toResult {lookup : MemberLookup H} {owner : TypeInfo} {name : String} {cause : Cause}
    (h : lookup.toResult owner name = .error cause) : cause.isOfTree = false := by
  cases lookup with
  | found m => cases h
  | _ =>
    cases h
    rfl

/-! ## The rules of the environment -/

/-- Some failures that are permitted: among them are those of the declared functions, and those
that the rules have of their own, which know nothing of trees and variables. -/
structure Permits (env : Environment H) (Q : Failure → Prop) : Prop where
  own : ∀ cause, cause.isOfTree = false → Q (.solving cause)
  member : ∀ {type d m v e}, env.types.descriptor? type = some d → m ∈ d.members →
    m.get v = .error e → Q e
  operator : ∀ {type d o x y e}, env.types.descriptor? type = some d → o ∈ d.operators →
    o.apply x y = .error e → Q e
  negation : ∀ {type d f v e}, env.types.descriptor? type = some d → d.negation? = some f →
    f v = .error e → Q e
  conversion : ∀ {type d c v e}, env.types.descriptor? type = some d → c ∈ d.conversions →
    c.apply v = .error e → Q e
  transform : ∀ {name overloads t v e}, env.functions.overloads? name = some overloads →
    t ∈ overloads → t.apply v = .error e → Q e

theorem permits_explains (env : Environment H) : env.Permits env.Explains where
  own _ shaped := explains_of_shaped shaped
  member described listed failed _ := .member described listed failed
  operator described listed failed _ := .operator described listed failed
  negation described declared failed _ := .negation described declared failed
  conversion described listed failed _ := .conversion described listed failed
  transform known listed failed _ := .transform known listed failed

namespace Permits

variable {Q : Failure → Prop} (h : env.Permits Q)

include h

theorem step? {source target : TypeInfo} {convert? : Option (Unary H)} {v : Value H}
    (step : env.types.step? source target = some convert?)
    (failed : Plan.prepare convert? v = .error e) : Q e := by
  unfold TypeRegistry.step? at step
  split at step
  case isTrue =>
    cases step
    cases failed
  case isFalse =>
    obtain ⟨c, found, same⟩ := Option.map_eq_some_iff.mp step
    cases same
    obtain ⟨type, d, -, described, listed, -⟩ := TypeRegistry.conversion?_listed found
    exact h.conversion described listed failed

theorem negation? {type : TypeInfo} {f : Unary H} {v : Value H}
    (declared : env.types.negation? type = some f) (failed : f v = .error e) : Q e := by
  obtain ⟨d, described, negates⟩ := Option.bind_eq_some_iff.mp declared
  exact h.negation described negates failed

theorem item {items : List (Value H)} {position : Float}
    (failed : Environment.item items position = .error e) : Q e := by
  unfold Environment.item at failed
  dsimp only at failed
  split at failed
  · split at failed
    · cases failed
    · cases failed
      exact h.own _ rfl
  · cases failed
    exact h.own _ rfl

variable [HostObject H]

theorem plan {op : Operation} {left right : TypeInfo} {p : Plan H}
    (found : env.types.plan? op left right = some p) {x y : Value H}
    (failed : p.apply x y = .error e) : Q e := by
  obtain ⟨left', right', stepLeft, stepRight, plan⟩ := TypeRegistry.plan?_cases found
  unfold Plan.apply at failed
  obtain failed | ⟨x', -, failed⟩ := error_of_bind failed
  · exact h.step? stepLeft failed
  obtain failed | ⟨y', -, failed⟩ := error_of_bind failed
  · exact h.step? stepRight failed
  rcases plan with ⟨-, -, kind, -⟩ | ⟨o, listed, kind, -⟩
  · simp only [kind] at failed
    split at failed
    · split at failed
      · cases failed
      · cases failed
        exact h.own _ rfl
    · cases failed
      exact h.own _ rfl
  · simp only [kind] at failed
    obtain ⟨type, d, -, described, offered, -⟩ := TypeRegistry.overload?_listed listed
    exact h.operator described offered failed

theorem negate {v : Value H} (failed : env.negate v = .error e) : Q e := by
  unfold Environment.negate at failed
  split at failed
  case h_1 => cases failed
  case h_2 =>
    split at failed
    case h_1 f declared => exact h.negation? declared failed
    case h_2 =>
      split at failed
      · cases failed
      · cases failed
        exact h.own _ rfl

theorem binary {op : Operation} {x y : Value H} (failed : env.binary op x y = .error e) :
    Q e := by
  unfold Environment.binary at failed
  dsimp only at failed
  split at failed
  case h_1 => cases failed
  case h_2 =>
    split at failed
    case h_1 plan planned => exact h.plan planned failed
    case h_2 =>
      split at failed
      · split at failed
        · cases failed
        · cases failed
          exact h.own _ rfl
      · cases failed
        exact h.own _ rfl

theorem index {owner key : Value H} (failed : env.index owner key = .error e) : Q e := by
  have failed := error_of_map failed
  unfold entry at failed
  split at failed
  case h_1 =>
    split at failed
    · exact h.item failed
    · cases failed
      exact h.own _ rfl
  case h_2 | h_3 =>
    split at failed
    · cases failed
    · cases failed
      exact h.own _ rfl
  case h_4 =>
    cases failed
    exact h.own _ rfl

theorem resolved {owner : TypeInfo} {name : String} {m : Member H}
    (found : Member.resolve env.types owner name = .found m) {v : Value H}
    (failed : m.get v = .error e) : Q e := by
  rcases Member.found_cases found with (rfl | rfl) | ⟨d, described, listed⟩
  · cases v with
    | map entries =>
      simp only [Member.ofKey] at failed
      split at failed
      · cases failed
      · cases failed
        exact h.own _ rfl
    | _ =>
      cases failed
      exact h.own _ rfl
  · cases v with
    | host object =>
      simp only [Member.ofHost] at failed
      split at failed
      · cases failed
      · cases failed
        exact h.own _ rfl
    | _ =>
      cases failed
      exact h.own _ rfl
  · exact h.member described listed failed

theorem property {owner : Value H} {name : String}
    (failed : env.propertyAfresh owner name = .error e) : Q e := by
  unfold propertyAfresh at failed
  split at failed
  case h_1 m found =>
    exact h.resolved (MemberLookup.found_of_toResult found) (error_of_map failed)
  case h_2 cause unresolved =>
    cases failed
    exact h.own _ (shaped_toResult unresolved)

-- The type of an argument may be known to another environment than the overloads.
theorem call {name : String} {overloads : List (Transform H)} {t : Transform H}
    (known : env.functions.overloads? name = some overloads) (listed : t ∈ overloads)
    (env' : Environment H) {v : Value H} (failed : env'.call t v = .error e) : Q e :=
  h.transform known listed (error_of_map failed)

theorem dispatch {name : String} {overloads : List (Transform H)}
    (known : env.functions.overloads? name = some overloads) (env' : Environment H) {v : Value H}
    (failed : env'.dispatch name overloads v = .error e) : Q e := by
  unfold Environment.dispatch at failed
  split at failed
  case h_1 t selected => exact h.call known (Transform.mem_of_select? selected) env' failed
  case h_2 =>
    cases failed
    exact h.own _ rfl

theorem application {name : String} {v : Value H}
    (failed : env.transform name v = .error e) : Q e := by
  unfold Environment.transform at failed
  split at failed
  case h_1 overloads known => exact h.dispatch known env failed
  case h_2 =>
    cases failed
    exact h.own _ rfl

end Permits

end Environment

/-! ## Terms -/

namespace Term

open Solve

variable [HostObject H] {env : Environment H} {bindings : Bindings H} {t : Term}

-- An operand that is there and no name is said to be none.
theorem expectedName_of_nameOperand {stage : Cause → Failure} {e : Failure} (there : t ≠ absent)
    (h : t.nameOperand stage = .error e) : ∃ token, e = stage (.expectedName token) := by
  unfold nameOperand at h
  split at h
  case h_1 => exact absurd rfl there
  case h_2 => cases h
  case h_3 =>
    cases h
    exact ⟨_, rfl⟩

/-- Evaluating a well-formed term.  A variable that is not bound fails where it is evaluated, and
every other cause that is found in trees is the word of a declared function. -/
theorem evaluate_explained {Q : Cause → Prop} (hu : t.IsValue)
    (explained : ∀ e, env.Explains e → Q e.cause)
    (unbound : ∀ name left right, node (.var name) left right ∈ t.evaluated →
      bindings.lookup name = none → Q (.unboundVariable name)) :
    (t.evaluate env bindings).Settles env.types (fun _ => True) fun e => Q e.cause := by
  have rule {r : Except Failure (Value H)} (fails : ∀ e, r = .error e → env.Explains e) :
      (Solve.ofExcept r : Solve H (Value H)).Settles env.types (fun _ => True) fun e => Q e.cause :=
    (gives_ofExcept r).settles (fun _ _ => trivial) fun e failed => explained e (fails e failed)
  have name {s : Term} (there : s ≠ absent) :
      (Solve.ofExcept (s.nameOperand Failure.solving) : Solve H String).Settles env.types
        (fun _ => True) fun e => Q e.cause := by
    refine (gives_ofExcept _).settles (fun _ _ => trivial) fun e unnamed => ?_
    obtain ⟨token, rfl⟩ := expectedName_of_nameOperand there unnamed
    exact explained _ (Environment.explains_of_shaped rfl)
  induction t with
  | absent => exact absurd rfl hu.present
  | node token left right hl hr =>
    have fits := hu.wellFormed.1
    have within {m : Solve H (Value H)}
        (h : m.Settles env.types (fun _ => True) fun e => Q e.cause) (text : String) :
        (Solve.mapFailure (Failure.within text) m).Settles env.types (fun _ => True)
          fun e => Q e.cause :=
      h.mapFailure fun e known => by rwa [Failure.cause_within]
    -- what is unbound below the term is unbound in it
    have below {s : Term} (part : s.evaluated ⊆ (node token left right).evaluated) :
        ∀ name l r, node (.var name) l r ∈ s.evaluated → bindings.lookup name = none →
          Q (.unboundVariable name) :=
      fun name l r mem => unbound name l r (part mem)
    cases token with
    | number x =>
      rw [evaluate]
      exact within (settles_pure trivial) _
    | name text => cases hu.unnamed
    | group raw | magnitude raw => cases fits.expanded
    | var name =>
      rw [evaluate]
      refine within ?_ _
      cases found : bindings.lookup name with
      | some v => exact settles_pure trivial
      | none => exact settles_throw (unbound name left right (mem_evaluated_self _) found)
    | operator op =>
      cases op with
      | negate =>
        have operand := hr (hu.right (.inl rfl)) (below fun s mem => List.mem_cons_of_mem _ mem)
        exact within (operand.bind (fun _ => id) fun v _ =>
          rule fun e => env.permits_explains.negate) _
      | property =>
        have owner := hl (hu.left (by decide)) (below fun s mem => List.mem_cons_of_mem _ mem)
        refine within (owner.bind (fun _ => id) fun v _ => ?_) _
        refine (name (fits.operand _ rfl)).bind (fun _ => id) fun name _ => ?_
        exact (env.property_gives v name).settles (fun _ _ => trivial)
          fun e failed => explained e (env.permits_explains.property failed)
      | index =>
        have owner := hl (hu.left (by decide)) (below (evaluated_owner left right))
        rw [evaluate]
        refine within (owner.bind (fun _ => id) fun v _ => ?_) _
        -- a name on the right is a key, and everything else is evaluated
        split
        case h_1 =>
          exact (settles_pure (P := fun _ => True) trivial).bind (fun _ => id) fun k _ =>
            rule fun e => env.permits_explains.index
        case h_2 evaluated =>
          have key := hr (hu.right (.inr (not_isName evaluated)))
            (below (evaluated_key left evaluated))
          exact key.bind (fun _ => id) fun k _ => rule fun e => env.permits_explains.index
      | transform =>
        have argument := hr (hu.right (.inl rfl)) (below fun s mem => List.mem_cons_of_mem _ mem)
        refine within ((name ?_).bind (fun _ => id) fun name _ => ?_) _
        · exact mt (fits.negation _ rfl).mp (by decide)
        · exact argument.bind (fun _ => id) fun v _ =>
            rule fun e => env.permits_explains.application
      | _ =>
        have x := hl (hu.left (by decide))
          (below fun s mem => List.mem_cons_of_mem _ (List.mem_append_left _ mem))
        have y := hr (hu.right (.inl rfl))
          (below fun s mem => List.mem_cons_of_mem _ (List.mem_append_right _ mem))
        exact within (x.bind (fun _ => id) fun x _ => y.bind (fun _ => id) fun y _ =>
          rule fun e => env.permits_explains.binary) _

end Term

end FormulaLang
