import FormulaLang.Formula
import FormulaLang.Proofs.Compilation.Soundness
import FormulaLang.Proofs.Compilation.Subterms
import FormulaLang.Proofs.Evaluation.Valuation
import Mathlib.Data.List.Forall2

/-!
Solving compiled agrees with solving by the tree.  Compiled code is sound for the value of its term,
for all inputs that are bound as declared; and inputs are bound alike, whether the first of them are
fixed at compilation or not.
-/

namespace FormulaLang

variable {H : Type} [HostObject H]

/-! ## Bound inputs -/

/-- Parameters are bound in order, each to a value of its type. -/
def Bindings.Fit (parameters : List (String × TypeInfo)) (bindings : Bindings H) : Prop :=
  List.Forall₂ (fun p b => b.1 = p.1 ∧ b.2.Has p.2) parameters bindings

-- A bound variable stands at its place, with a value of its type.
theorem Bindings.Fit.lookup {parameters : List (String × TypeInfo)} {bindings : Bindings H}
    (h : Fit parameters bindings) {name : String} {place : Nat} {type : TypeInfo}
    (placed : (parameters.map Prod.fst).findIdx? (· == name) = some place)
    (typed : parameters.lookup name = some type) :
    ∃ v, bindings.lookup name = some v ∧ (bindings.map Prod.snd)[place]? = some v ∧
      v.Has type := by
  induction h generalizing place with
  | nil => cases typed
  | @cons p b ps bs hb rest ih =>
    obtain ⟨n, t⟩ := p
    obtain ⟨n', v⟩ := b
    obtain ⟨rfl, hv⟩ := hb
    rw [List.map_cons, List.findIdx?_cons] at placed
    rw [Keyed.lookup_cons] at typed
    by_cases here : name = n'
    · subst here
      simp only [beq_self_eq_true, if_true, Option.some.injEq] at placed typed
      subst placed typed
      refine ⟨v, ?_, rfl, hv⟩
      rw [Keyed.lookup_cons, if_pos rfl]
    · have differs : (n' == name) = false := beq_eq_false_iff_ne.mpr fun e => here e.symm
      rw [if_neg here] at typed
      simp only [differs] at placed
      obtain ⟨place', found, rfl⟩ := Option.map_eq_some_iff.mp placed
      obtain ⟨w, bound, kept, hw⟩ := ih found typed
      refine ⟨w, ?_, kept, hw⟩
      rw [Keyed.lookup_cons, if_neg here, bound]

namespace CompilerInput

/-- The fixed inputs followed by the others are what the variables are bound to. -/
structure Binds (c : CompilerInput H) (inputs : List (Value H)) (bindings : Bindings H) :
    Prop where
  fit : bindings.Fit c.specification.parameters
  values : bindings.map Prod.snd = c.initial ++ inputs

variable {c : CompilerInput H} {inputs : List (Value H)} {bindings : Bindings H}

-- A fixed input is a constant, and every other is found that many places further left, whatever
-- the code is run in.
theorem sound_variableCode (h : c.Binds inputs bindings) {name : String} {compiled : Compiled H}
    (built : c.variableCode name = .ok compiled) (env : Environment H) :
    ∃ v, bindings.lookup name = some v ∧ compiled.Sound ⟨env, inputs⟩ (.ok v) := by
  unfold variableCode at built
  split at built
  case h_2 => cases built
  case h_1 place type placed typed =>
    obtain ⟨v, bound, given, hv⟩ := h.fit.lookup placed typed
    refine ⟨v, bound, ?_⟩
    rw [h.values] at given
    split at built
    case h_1 w fixed =>
      cases built
      rw [List.getElem?_append_left (List.getElem?_eq_some_iff.mp fixed).1, fixed] at given
      cases given
      exact Compiled.sound_constant v _
    case h_2 free =>
      cases built
      rw [List.getElem?_append_right (List.getElem?_eq_none_iff.mp free)] at given
      exact Compiled.sound_input given hv name

end CompilerInput

/-! ## Building code -/

-- The name of a member or function does not depend on the stage.
theorem Term.nameOperand_ok {stage stage' : Cause → Failure} {t : Term} {name : String}
    (h : t.nameOperand stage = .ok name) : t.nameOperand stage' = .ok name :=
  nameOperand_ok_iff.mpr (nameOperand_ok_iff.mp h)

namespace CompilerInput

/-- Building ends with code for the results `r`, whatever the variables are bound to. -/
def Builds (c : CompilerInput H) (m : Solve H (Compiled H))
    (r : Bindings H → Except Failure (Value H)) : Prop :=
  m.Ensures c.env.types fun compiled =>
    ∀ inputs bindings, c.Binds inputs bindings → compiled.Sound ⟨c.env, inputs⟩ (r bindings)

variable {c : CompilerInput H} {m n : Solve H (Compiled H)}
variable {r s : Bindings H → Except Failure (Value H)}

-- Nothing is said of code that is not built.
theorem builds_throw (e : Failure) : c.Builds (throw e) r :=
  (Solve.gives_throw e).ensures fun _ h => by cases h

theorem builds_constant (v : Value H) : c.Builds (pure (.constant v)) fun _ => .ok v := by
  refine (Solve.gives_pure _).ensures fun compiled built inputs bindings _ => ?_
  cases built
  exact Compiled.sound_constant v _

-- Failures of the code name the text of the operator.
theorem Builds.within (h : c.Builds m r) (text : String) :
    c.Builds (do
      let compiled ← m
      return compiled.within text) fun bindings => (r bindings).mapError (Failure.within text) := by
  refine h.bind fun compiled sound => ?_
  refine (Solve.gives_pure _).ensures fun _ built inputs bindings bound => ?_
  cases built
  exact (sound inputs bindings bound).within text

theorem Builds.negate (transparent : m.Transparent c.env.types)
    (keeps : ∀ operand, m.Gives c.env.types (.ok operand) →
      operand.type = .number ∨ c.env.types.KeepsNegated operand.type)
    (h : c.Builds m r) (text : String) :
    c.Builds (do
      let operand ← m
      let compiled ← Solve.ofExcept (c.negateCode operand)
      return compiled.within text) fun bindings =>
        Except.mapError (Failure.within text) (r bindings >>= c.env.negate) := by
  refine (h.gives transparent).bind fun operand ⟨sound, gives⟩ => Builds.within ?_ text
  refine (Solve.gives_ofExcept _).ensures fun compiled built inputs bindings bound => ?_
  exact sound_negateCode (keeps operand gives) built (sound inputs bindings bound)

theorem Builds.binary (declared : c.env.Typed) {op : Operation}
    (arithmetic : op.isArithmetic = true ∨ op = .power) (h : c.Builds m r) (h' : c.Builds n s)
    (text : String) :
    c.Builds (do
      let x ← m
      let y ← n
      let compiled ← Solve.ofExcept (c.binaryCode op x y)
      return compiled.within text) fun bindings => Except.mapError (Failure.within text) (do
        let x ← r bindings
        let y ← s bindings
        c.env.binary op x y) := by
  refine h.bind fun x soundL => h'.bind fun y soundR => Builds.within ?_ text
  refine (Solve.gives_ofExcept _).ensures fun compiled built inputs bindings bound => ?_
  exact sound_binaryCode declared arithmetic built (soundL inputs bindings bound)
    (soundR inputs bindings bound)

theorem Builds.index (h : c.Builds m r) (h' : c.Builds n s) (text : String) :
    c.Builds (do
      let owner ← m
      let key ← n
      let compiled ← Solve.ofExcept (indexCode owner key)
      return compiled.within text) fun bindings => Except.mapError (Failure.within text) (do
        let owner ← r bindings
        s bindings >>= c.env.index owner) := by
  refine h.bind fun owner soundOwner => h'.bind fun key soundKey => Builds.within ?_ text
  refine (Solve.gives_ofExcept _).ensures fun compiled built inputs bindings bound => ?_
  exact sound_indexCode built (soundOwner inputs bindings bound) (soundKey inputs bindings bound)

theorem Builds.property (declared : c.env.Typed) (h : c.Builds m r) (t : Term) (text : String) :
    c.Builds (do
      let owner ← m
      let name ← Solve.ofExcept (t.nameOperand Failure.compiling)
      let compiled ← c.propertyCode owner name
      return compiled.within text) fun bindings => Except.mapError (Failure.within text) (do
        let owner ← r bindings
        let name ← t.nameOperand Failure.solving
        c.env.propertyAfresh owner name) := by
  refine h.bind fun owner sound => ?_
  refine ((Solve.gives_ofExcept _).ensures fun _ h => h).bind fun name named => ?_
  refine Builds.within (fun cache coherent => ?_) text
  obtain ⟨ensured, kept⟩ := ensures_propertyCode declared owner name cache coherent
  refine ⟨fun compiled built inputs bindings bound => ?_, kept⟩
  rw [Term.nameOperand_ok named]
  exact ensured compiled built inputs _ (sound inputs bindings bound)

theorem Builds.transform (declared : c.env.Typed) (h : c.Builds m r) (t : Term) (text : String) :
    c.Builds (do
      let name ← Solve.ofExcept (t.nameOperand Failure.compiling)
      let argument ← m
      let compiled ← Solve.ofExcept (c.transformCode name argument)
      return compiled.within text) fun bindings => Except.mapError (Failure.within text) (do
        let name ← t.nameOperand Failure.solving
        r bindings >>= c.env.transform name) := by
  refine ((Solve.gives_ofExcept _).ensures fun _ h => h).bind fun name named => ?_
  refine h.bind fun argument sound => Builds.within ?_ text
  refine (Solve.gives_ofExcept _).ensures fun compiled built inputs bindings bound => ?_
  rw [Term.nameOperand_ok named]
  exact sound_transformCode declared built (sound inputs bindings bound)

end CompilerInput

/-! ## Terms -/

namespace Term

variable {c : CompilerInput H}

/-- What is compiled agrees with the value of the term. -/
theorem compile_builds (declared : c.env.Typed) {t : Term} (stay : t.NegationsStay c) :
    c.Builds (t.compile c) (t.value c.env) := by
  induction t with
  | absent => exact CompilerInput.builds_throw _
  | node token left right hl hr =>
    cases token with
    | number x =>
      rw [compile]
      exact Solve.Ensures.mapFailure (CompilerInput.builds_constant (.number x)) _
    | name text | group raw | magnitude raw =>
      rw [compile]
      exact Solve.Ensures.mapFailure (CompilerInput.builds_throw _) _
    | var name =>
      rw [compile]
      refine ((Solve.gives_ofExcept _).ensures fun compiled built => ?_).mapFailure _
      intro inputs bindings bound
      obtain ⟨v, found, sound⟩ := CompilerInput.sound_variableCode bound built c.env
      simp only [value, found]
      exact sound
    | operator op =>
      cases op with
      | negate =>
        rw [compile]
        have operand := hr (stay.of_subset fun _ below => List.mem_cons_of_mem _ below)
        have keeps := stay left right (mem_evaluated_self _)
        exact (operand.negate (transparent_compile c right) keeps _).mapFailure _
      | property =>
        rw [compile]
        have owner := hl (stay.of_subset fun _ below => List.mem_cons_of_mem _ below)
        exact Solve.Ensures.mapFailure (owner.property declared right _) _
      | index =>
        rw [compile]
        refine Solve.Ensures.mapFailure ?_ _
        have owner := hl (stay.of_subset (evaluated_owner left right))
        -- a name on the right is a key, and everything else is compiled
        obtain ⟨key, l, r, rfl⟩ | evaluated := right.name_or_evaluated
        · exact owner.index (CompilerInput.builds_constant (.string key)) _
        · simp only [value_index c.env _ left evaluated]
          have key := hr (stay.of_subset (evaluated_key left evaluated))
          exact owner.index key _
      | transform =>
        rw [compile]
        have argument := hr (stay.of_subset fun _ below => List.mem_cons_of_mem _ below)
        exact Solve.Ensures.mapFailure (argument.transform declared left _) _
      | _ =>
        have x := hl (stay.of_subset fun _ below =>
          List.mem_cons_of_mem _ (List.mem_append_left _ below))
        have y := hr (stay.of_subset fun _ below =>
          List.mem_cons_of_mem _ (List.mem_append_right _ below))
        exact Solve.Ensures.mapFailure (x.binary declared (by simp [Operation.isArithmetic]) y _) _

end Term

end FormulaLang
