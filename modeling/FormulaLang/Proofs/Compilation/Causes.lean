import FormulaLang.Proofs.Compilation.Transparency
import FormulaLang.Proofs.Evaluation.Causes

/-!
Compiling well-formed terms.  The compiler does not find them misshapen either, and knows every
variable of which the specification does; compiled code says of a tree that it is misshapen only in
the words of a function that was declared when it was compiled or when it is run.
-/

namespace FormulaLang

variable {H : Type}

/-- A cause that says that a tree is misshapen has been raised by a function of an environment or of
the one that the code is run in. -/
def Frame.Accounts (frame : Frame H) (env : Environment H) (e : Failure) : Prop :=
  e.cause.isMisshapen = true → env.Raises e.cause ∨ frame.env.Raises e.cause

variable {env : Environment H} {frame : Frame H} {e : Failure}

theorem Environment.Explains.compiled (h : env.Explains e) : frame.Accounts env e :=
  fun misshapen => .inl (h.accounts misshapen)

theorem Environment.Explains.run (h : frame.env.Explains e) : frame.Accounts env e :=
  fun misshapen => .inr (h.accounts misshapen)

-- A variable of a specification has a place and a type.
theorem Specification.placed_of_mem {s : Specification} {name : String}
    (known : name ∈ s.variableNames) :
    ∃ place type, s.position? name = some place ∧ s.type? name = some type := by
  have placed : (s.position? name).isSome = true := by
    rw [position?, List.findIdx?_isSome, List.any_eq_true]
    exact ⟨name, known, beq_self_eq_true name⟩
  obtain ⟨place, placed⟩ := Option.isSome_iff_exists.mp placed
  obtain ⟨type, typed⟩ := Keyed.lookup_of_mem_keys known
  exact ⟨place, type, placed, typed⟩

variable [HostObject H]

/-! ## Code -/

namespace Compiled

/-- Running the code accounts for its failures, in whatever environment it is run. -/
def Accounted (env : Environment H) (compiled : Compiled H) : Prop :=
  ∀ frame, (compiled.code frame).Settles frame.env.types (fun _ => True) (frame.Accounts env)

variable {operand left right : Compiled H}

theorem accounted_constant (v : Value H) : (constant v).Accounted env :=
  fun _ => Solve.settles_pure trivial

theorem accounted_input (name : String) (place : Nat) (type : TypeInfo) :
    (input name place type).Accounted env := by
  intro frame
  unfold input
  dsimp only
  split
  · exact Solve.settles_pure trivial
  · have explained : env.Explains (.solving (.missingInput name)) :=
      Environment.explains_of_shaped rfl
    exact Solve.settles_throw explained.compiled

theorem Accounted.within (h : operand.Accounted env) (text : String) :
    (operand.within text).Accounted env := by
  intro frame
  refine (h frame).mapFailure fun e accounted => ?_
  unfold Frame.Accounts
  rw [Failure.cause_within]
  exact accounted

-- Code that goes on with the value of its operand.
theorem Accounted.andThen (h : operand.Accounted env) {f : Frame H → Value H → Solve H (Value H)}
    (rest : ∀ frame v, (f frame v).Settles frame.env.types (fun _ => True) (frame.Accounts env))
    (type : TypeInfo) :
    (⟨fun frame => operand.code frame >>= f frame, type⟩ : Compiled H).Accounted env :=
  fun frame => (h frame).bind (fun _ => id) fun v _ => rest frame v

-- A rule applied to the value of the operand.
theorem Accounted.apply (h : operand.Accounted env)
    {f : Frame H → Value H → Except Failure (Value H)}
    (fails : ∀ frame v e, f frame v = .error e → frame.Accounts env e) (type : TypeInfo) :
    (⟨fun frame => operand.code frame >>= fun v => Solve.ofExcept (f frame v), type⟩ :
      Compiled H).Accounted env :=
  h.andThen (fun frame v => (Solve.gives_ofExcept _).settles (fun _ _ => trivial) (fails frame v))
    type

-- A rule applied to the values of two operands.
theorem Accounted.apply₂ (hl : left.Accounted env) (hr : right.Accounted env)
    {f : Frame H → Value H → Value H → Except Failure (Value H)}
    (fails : ∀ frame x y e, f frame x y = .error e → frame.Accounts env e) (type : TypeInfo) :
    (⟨fun frame => do
      let x ← left.code frame
      let y ← right.code frame
      Solve.ofExcept (f frame x y), type⟩ : Compiled H).Accounted env :=
  fun frame => (hl frame).bind (fun _ => id) fun x _ => (hr frame).bind (fun _ => id) fun y _ =>
    (Solve.gives_ofExcept _).settles (fun _ _ => trivial) (fails frame x y)

end Compiled

/-! ## Building -/

namespace CompilerInput

variable {c : CompilerInput H} {left right operand compiled : Compiled H}

/-- Building ends with code that accounts for its failures, or with a failure of some causes. -/
def BuildsUnless (c : CompilerInput H) (Q : Cause → Prop) (m : Solve H (Compiled H)) : Prop :=
  m.Settles c.env.types (fun compiled => compiled.Accounted c.env) fun e => Q e.cause

/-- Causes that are not found in a tree. -/
def Apart (cause : Cause) : Prop :=
  cause.isOfTree = false

-- Only a variable that the specification does not have cannot be compiled.
theorem buildsUnless_variableCode (name : String) {Q : Cause → Prop}
    (unknown : name ∉ c.specification.variableNames → Q (.unknownVariable name)) :
    c.BuildsUnless Q (Solve.ofExcept (c.variableCode name)) := by
  unfold variableCode
  split
  · split
    · exact Solve.settles_pure (Compiled.accounted_constant _)
    · exact Solve.settles_pure (Compiled.accounted_input _ _ _)
  · next unplaced =>
      refine Solve.settles_throw (unknown fun known => ?_)
      obtain ⟨place, type, placed, typed⟩ := Specification.placed_of_mem known
      exact unplaced place type placed typed

theorem buildsUnless_negateCode (h : operand.Accounted c.env) :
    c.BuildsUnless Apart (Solve.ofExcept (c.negateCode operand)) := by
  unfold negateCode
  split
  case h_1 | h_2 =>
    exact Solve.settles_pure
      (h.apply (fun frame v e failed => (frame.env.permits_explains.negate failed).run) _)
  case h_3 =>
    split
    case h_1 f declared =>
      exact Solve.settles_pure
        (h.apply (fun _ _ _ failed =>
          (c.env.permits_explains.negation? declared failed).compiled) _)
    case h_2 => exact Solve.settles_throw rfl

theorem buildsUnless_binaryCode (op : Operation) (hl : left.Accounted c.env)
    (hr : right.Accounted c.env) :
    c.BuildsUnless Apart (Solve.ofExcept (c.binaryCode op left right)) := by
  unfold binaryCode
  dsimp only
  split
  case isTrue =>
    exact Solve.settles_pure
      (hl.apply₂ hr (fun frame _ _ _ failed => (frame.env.permits_explains.binary failed).run) _)
  case isFalse =>
    split
    case h_1 => exact Solve.settles_throw rfl
    case h_2 plan planned =>
      split
      · refine Solve.settles_pure (hl.apply₂ hr (fun frame x y e failed => ?_) _)
        split at failed
        · split at failed
          · cases failed
          · cases failed
            have accounted : c.env.Explains (.solving (.unsupportedOperator op)) :=
              Environment.explains_of_shaped rfl
            exact accounted.compiled
        · exact (frame.env.permits_explains.binary failed).run
      · refine Solve.settles_pure (hl.apply₂ hr (fun _ _ _ _ failed => ?_) _)
        exact (c.env.permits_explains.plan planned failed).compiled

theorem buildsUnless_propertyCode (name : String) (h : operand.Accounted c.env) :
    c.BuildsUnless Apart (c.propertyCode operand name) := by
  unfold propertyCode
  split
  case isTrue =>
    refine Solve.settles_pure (h.andThen (fun frame v => ?_) _)
    exact (frame.env.property_gives v name).settles (fun _ _ => trivial)
      fun _ failed => (frame.env.permits_explains.property failed).run
  case isFalse =>
    refine (c.env.member_settles operand.type name).bind (fun _ => False.elim) ?_
    intro result resolved
    cases result with
    | error cause => exact Solve.settles_throw (Environment.shaped_toResult resolved)
    | ok m =>
      have member := MemberLookup.found_of_toResult resolved
      exact Solve.settles_pure (h.apply
        (fun _ _ _ failed =>
          (c.env.permits_explains.resolved member (error_of_map failed)).compiled) _)

theorem buildsUnless_indexCode (hl : left.Accounted c.env) (hr : right.Accounted c.env) :
    c.BuildsUnless Apart (Solve.ofExcept (indexCode left right)) := by
  unfold indexCode
  dsimp only
  split
  case h_7 =>
    exact Solve.settles_pure
      (hl.apply₂ hr (fun frame _ _ _ failed => (frame.env.permits_explains.index failed).run) _)
  all_goals exact Solve.settles_throw rfl

theorem buildsUnless_transformCode (name : String) (h : operand.Accounted c.env) :
    c.BuildsUnless Apart (Solve.ofExcept (c.transformCode name operand)) := by
  unfold transformCode
  split
  case h_1 => exact Solve.settles_throw rfl
  case h_2 overloads known =>
    split
    case isTrue =>
      exact Solve.settles_pure (h.apply
        (fun frame _ _ failed =>
          (c.env.permits_explains.dispatch known frame.env failed).compiled) _)
    case isFalse =>
      split
      case h_1 => exact Solve.settles_throw rfl
      case h_2 t selected =>
        have listed := Transform.mem_of_select? selected
        refine Solve.settles_pure (h.apply (fun frame _ _ failed => ?_) _)
        exact (c.env.permits_explains.call known listed frame.env failed).compiled

variable {m : Solve H (Compiled H)} {Q Q' : Cause → Prop}

theorem BuildsUnless.imp (h : c.BuildsUnless Q m) (causes : ∀ cause, Q cause → Q' cause) :
    c.BuildsUnless Q' m :=
  Solve.Settles.imp h (fun _ => id) fun e => causes e.cause

theorem BuildsUnless.mapFailure (h : c.BuildsUnless Q m) (text : String) :
    c.BuildsUnless Q (Solve.mapFailure (Failure.within text) m) :=
  Solve.Settles.mapFailure h fun e known => by rwa [Failure.cause_within]

theorem BuildsUnless.within (h : c.BuildsUnless Q m) (text : String) :
    c.BuildsUnless Q (do
      let compiled ← m
      return compiled.within text) :=
  Solve.Settles.bind h (fun _ => id) fun _ accounted => Solve.settles_pure (accounted.within text)

theorem BuildsUnless.bind (h : c.BuildsUnless Q m) {f : Compiled H → Solve H (Compiled H)}
    (hf : ∀ compiled : Compiled H, compiled.Accounted c.env → c.BuildsUnless Q (f compiled)) :
    c.BuildsUnless Q (m >>= f) :=
  Solve.Settles.bind h (fun _ => id) hf

end CompilerInput

/-! ## Terms -/

namespace Term

open CompilerInput

variable {c : CompilerInput H} {t : Term}

/-- Compiling a well-formed term.  A variable that the specification does not have is refused where
it is evaluated, and nothing else that is refused is found in the tree. -/
theorem compile_explained {Q : Cause → Prop} (hu : t.IsValue)
    (shaped : ∀ cause, Apart cause → Q cause)
    (unknown : ∀ name left right, node (.var name) left right ∈ t.evaluated →
      name ∉ c.specification.variableNames → Q (.unknownVariable name)) :
    c.BuildsUnless Q (t.compile c) := by
  have name {s : Term} (there : s ≠ absent) {f : String → Solve H (Compiled H)}
      (hf : ∀ name, c.BuildsUnless Q (f name)) :
      c.BuildsUnless Q (Solve.ofExcept (s.nameOperand Failure.compiling) >>= f) := by
    have named : (Solve.ofExcept (s.nameOperand Failure.compiling) : Solve H String).Settles
        c.env.types (fun _ => True) fun e => Q e.cause := by
      refine (Solve.gives_ofExcept _).settles (fun _ _ => trivial) fun e unnamed => ?_
      obtain ⟨token, rfl⟩ := expectedName_of_nameOperand there unnamed
      exact shaped _ rfl
    exact named.bind (fun _ => id) fun name _ => hf name
  -- the code of an operator
  have code {m : Solve H (Compiled H)} (h : c.BuildsUnless Apart m) (text : String) :
      c.BuildsUnless Q (do
        let compiled ← m
        return compiled.within text) :=
    (h.imp shaped).within text
  induction t with
  | absent => exact absurd rfl hu.present
  | node token left right hl hr =>
    have fits := hu.wellFormed.1
    -- what is unknown below the term is unknown in it
    have below {s : Term} (part : s.evaluated ⊆ (node token left right).evaluated) :
        ∀ name l r, node (.var name) l r ∈ s.evaluated →
          name ∉ c.specification.variableNames → Q (.unknownVariable name) :=
      fun name l r mem => unknown name l r (part mem)
    cases token with
    | number x =>
      rw [compile]
      exact BuildsUnless.mapFailure (Solve.settles_pure (Compiled.accounted_constant _)) _
    | name text => cases hu.unnamed
    | group raw | magnitude raw => cases fits.expanded
    | var name =>
      rw [compile]
      exact BuildsUnless.mapFailure
        (buildsUnless_variableCode name (unknown name left right (mem_evaluated_self _))) _
    | operator op =>
      cases op with
      | negate =>
        have operand := hr (hu.right (.inl rfl)) (below fun s mem => List.mem_cons_of_mem _ mem)
        refine BuildsUnless.mapFailure (operand.bind fun x hx => ?_) _
        exact code (buildsUnless_negateCode hx) _
      | property =>
        have owner := hl (hu.left (by decide)) (below fun s mem => List.mem_cons_of_mem _ mem)
        refine BuildsUnless.mapFailure (owner.bind fun x hx => ?_) _
        exact name (fits.operand _ rfl) fun name => code (buildsUnless_propertyCode name hx) _
      | index =>
        have owner := hl (hu.left (by decide)) (below (evaluated_owner left right))
        rw [compile]
        refine BuildsUnless.mapFailure (owner.bind fun x hx => ?_) _
        -- a name on the right is a key, and everything else is compiled
        split
        case h_1 key _ _ =>
          exact code (buildsUnless_indexCode hx (Compiled.accounted_constant _)) _
        case h_2 evaluated =>
          have key := hr (hu.right (.inr (not_isName evaluated)))
            (below (evaluated_key left evaluated))
          exact key.bind fun k hk => code (buildsUnless_indexCode hx hk) _
      | transform =>
        have argument := hr (hu.right (.inl rfl)) (below fun s mem => List.mem_cons_of_mem _ mem)
        refine BuildsUnless.mapFailure (name ?_ fun name => ?_) _
        · exact mt (fits.negation _ rfl).mp (by decide)
        · exact argument.bind fun x hx => code (buildsUnless_transformCode name hx) _
      | _ =>
        have x := hl (hu.left (by decide))
          (below fun s mem => List.mem_cons_of_mem _ (List.mem_append_left _ mem))
        have y := hr (hu.right (.inl rfl))
          (below fun s mem => List.mem_cons_of_mem _ (List.mem_append_right _ mem))
        exact BuildsUnless.mapFailure (x.bind fun x hx => y.bind fun y hy =>
          code (buildsUnless_binaryCode _ hx hy) _) _

end Term

/-! ## Formulas -/

namespace Bindings

-- An input that cannot be prepared is refused as the refusal says.
theorem refusal_of_prepare {parameters : List (String × TypeInfo)} {inputs : List (Value H)}
    {refusal : String → Cause → Failure} (h : prepare env parameters inputs refusal = .error e) :
    ∃ name cause, e = refusal name cause := by
  unfold prepare at h
  generalize parameters.zip inputs = givens at h
  induction givens with
  | nil =>
    rw [List.mapM_nil] at h
    cases h
  | cons given rest ih =>
    obtain ⟨⟨name, type⟩, v⟩ := given
    rw [List.mapM_cons] at h
    obtain h | ⟨b, -, h⟩ := error_of_bind h
    · dsimp only at h
      split at h
      · cases h
      · cases h
        exact ⟨_, _, rfl⟩
    · obtain h | ⟨bs, -, h⟩ := error_of_bind h
      · exact ih h
      · cases h

-- Too few inputs and an input that cannot be prepared are no fault of a tree.
theorem refusal_of_ofInputs {parameters : List (String × TypeInfo)} {inputs : List (Value H)}
    (h : ofInputs env parameters inputs = .error e) :
    ∃ cause, e = .solving cause ∧ cause.isOfTree = false := by
  unfold ofInputs at h
  split at h
  · cases h
    exact ⟨_, rfl, rfl⟩
  · obtain ⟨name, cause, rfl⟩ := refusal_of_prepare h
    exact ⟨_, rfl, rfl⟩

theorem shaped_ofInputs {parameters : List (String × TypeInfo)} {inputs : List (Value H)}
    {text : String}
    (h : (ofInputs env parameters inputs).mapError (Failure.within text) = .error e) :
    e.cause.isOfTree = false := by
  cases bound : ofInputs env parameters inputs with
  | ok bindings =>
    rw [bound] at h
    cases h
  | error e' =>
    obtain ⟨cause, rfl, shaped⟩ := refusal_of_ofInputs bound
    rw [bound] at h
    cases h
    exact shaped

end Bindings

-- Binding inputs, running something with them and normalizing its value.
theorem run_settles {Q : Cause → Prop} {types : TypeRegistry H} (env : Environment H)
    (parameters : List (String × TypeInfo)) (inputs : List (Value H)) (text : String)
    (shaped : ∀ cause, CompilerInput.Apart cause → Q cause)
    {run : Bindings H → Solve H (Value H)}
    (runs : ∀ bindings, Bindings.ofInputs env parameters inputs = .ok bindings →
      (run bindings).Settles types (fun _ => True) fun e => Q e.cause) :
    Solve.Settles types (do
      let bindings ← Solve.ofExcept <|
        (Bindings.ofInputs env parameters inputs).mapError (Failure.within text)
      let v ← Solve.mapFailure (Failure.withBindings bindings.snapshot) (run bindings)
      return env.normalize v) (fun _ => True) fun e => Q e.cause := by
  refine Solve.Settles.bind ((Solve.gives_ofExcept _).settles
    (P := fun bindings => Bindings.ofInputs env parameters inputs = .ok bindings)
    (Q := fun e => Q e.cause) (fun _ => ok_of_mapError)
    fun e refused => shaped _ (Bindings.shaped_ofInputs refused)) (fun _ => id)
    fun bindings bound => ?_
  refine Solve.Settles.bind ((runs bindings bound).mapFailure fun e known => ?_) (fun _ => id)
    fun v _ => Solve.settles_pure trivial
  rwa [Failure.cause_withBindings]

namespace Formula

variable {f : Formula} {Q : Cause → Prop}

/-- Solving a formula of a well-formed term fails for an unbound variable where one is evaluated,
and for every other cause that is found in trees in the words of a declared function. -/
theorem solve_explained (hu : f.term.IsValue) (env : Environment H) (inputs : List (Value H))
    (explained : ∀ e, env.Explains e → Q e.cause)
    (unbound : ∀ bindings, Bindings.ofInputs env f.specification.parameters inputs = .ok bindings →
      ∀ name left right, .node (.var name) left right ∈ f.term.evaluated →
        bindings.lookup name = none → Q (.unboundVariable name)) :
    (f.solve env inputs).Settles env.types (fun _ => True) fun e => Q e.cause := by
  refine run_settles env _ inputs _ (fun cause apart => ?_) fun bindings bound =>
    Term.evaluate_explained hu explained (unbound bindings bound)
  exact explained (.solving cause) (Environment.explains_of_shaped apart)

/-- Solving a formula of a well-formed term. -/
theorem solve_accounted (hu : f.term.IsValue) (env : Environment H) (inputs : List (Value H)) :
    (f.solve env inputs).Settles env.types (fun _ => True) env.Accounts :=
  solve_explained (Q := fun cause => cause.isMisshapen = true → env.Raises cause) hu env inputs
    (fun _ explained => explained.accounts) nofun

/-- Compiling a formula of a well-formed term fails for an unknown variable where one is evaluated,
and for no other cause that is found in trees; and what is compiled accounts for its failures. -/
theorem compile_explained (hu : f.term.IsValue) (env : Environment H) (initial : List (Value H))
    (shaped : ∀ cause, CompilerInput.Apart cause → Q cause)
    (unknown : ∀ name left right, .node (.var name) left right ∈ f.term.evaluated →
      name ∉ f.specification.variableNames → Q (.unknownVariable name)) :
    (f.compile env initial).Settles env.types
      (fun fast => ∀ env' inputs, (fast.solve env' inputs).Settles env'.types (fun _ => True)
        fun e => e.cause.isMisshapen = true → env.Raises e.cause ∨ env'.Raises e.cause)
      fun e => Q e.cause := by
  have prepared : (Solve.ofExcept (CompilerInput.prepare env f.specification initial) :
      Solve H (CompilerInput H)).Settles env.types
      (fun c => c.env = env ∧ c.specification = f.specification) fun e => Q e.cause := by
    refine (Solve.gives_ofExcept _).settles (fun c prepares => ?_) fun e refused => ?_
    · exact ⟨CompilerInput.env_of_prepare prepares, CompilerInput.specification_of_prepare prepares⟩
    · unfold CompilerInput.prepare at refused
      split at refused
      · cases refused
        exact shaped _ rfl
      · obtain ⟨name, cause, rfl⟩ := Bindings.refusal_of_prepare (error_of_map refused)
        exact shaped _ rfl
  refine prepared.bind (fun _ => id) fun c ⟨same, declared⟩ => ?_
  subst same
  rw [← declared] at unknown
  refine Solve.Settles.bind (Term.compile_explained hu shaped unknown) (fun _ => id)
    fun compiled accounted => ?_
  refine Solve.settles_pure fun env' inputs => ?_
  refine run_settles (Q := fun cause => cause.isMisshapen = true →
    c.env.Raises cause ∨ env'.Raises cause) env' _ inputs _ (fun cause apart misshapen => ?_)
    fun bindings _ => accounted ⟨env', bindings.map Prod.snd⟩
  rw [Cause.shaped_of_not_isOfTree apart] at misshapen
  cases misshapen

/-- Compiling a formula of a well-formed term, and solving what is compiled. -/
theorem compile_accounted (hu : f.term.IsValue) (env : Environment H) (initial : List (Value H)) :
    (f.compile env initial).Settles env.types
      (fun fast => ∀ env' inputs, (fast.solve env' inputs).Settles env'.types (fun _ => True)
        fun e => e.cause.isMisshapen = true → env.Raises e.cause ∨ env'.Raises e.cause)
      fun e => e.cause.isMisshapen = false :=
  compile_explained (Q := fun cause => cause.isMisshapen = false) hu env initial
    (fun _ => Cause.shaped_of_not_isOfTree) fun _ _ _ _ _ => rfl

end Formula

end FormulaLang
