import FormulaLang.Proofs.Compilation.Later
import FormulaLang.Proofs.Context.Agreement

/-!
Formulas that have been compiled in a context that then changes.  Where the types of operands are
not known, a compiled formula goes by the types registered when it is solved; but the transforms it
applies are those that it was compiled with.
-/

namespace FormulaLang

variable {H : Type} [HostObject H]

theorem Formula.result_withFunctions {env : Environment H} {functions : FunctionRegistry H}
    {f : Formula} (alike : f.term.AppliesAlike functions env.functions) (inputs : List (Value H)) :
    f.result (env.withFunctions functions) [] inputs = f.result env [] inputs := by
  unfold result
  simp only [Term.value_withFunctions alike]
  rfl

namespace Context

/-- The context with the transforms of another registry. -/
def withFunctions (c : Context H) (functions : FunctionRegistry H) : Context H :=
  { c with env := c.env.withFunctions functions }

/-- Solving a compiled formula after anything has been done to its context.  The transforms that are
registered by then play no part.  If the variables may be anything, and the types of the moment do
not change what was decided for operands of known types, the compiled formula gives what the formula
gives with the transforms of the time of compiling; so it gives what the formula gives as long as
each transform that it applies still has the overloads that it had. -/
theorem solve_compiled_later {c c' : Context H} (h : c.Reachable) (h' : c'.Reachable) {f : Formula}
    {fast : FastFormula H} (compiled : (c.run fun env => f.compile env []).1 = .ok fast) :
    (∀ functions inputs, ((c'.withFunctions functions).run fun env => fast.solve env inputs).1 =
      (c'.run fun env => fast.solve env inputs).1) ∧
    ((∀ p ∈ f.specification.parameters, p.2 = .any) →
      f.term.DecidedAlike ⟨c.env, f.specification, []⟩ c'.env.types → ∀ inputs,
        (c'.run fun env => fast.solve env inputs).1 =
          ((c'.withFunctions c.env.functions).run fun env => f.solve env inputs).1 ∧
        (f.term.AppliesAlike c.env.functions c'.env.functions →
          (c'.run fun env => fast.solve env inputs).1 =
            (c'.run fun env => f.solve env inputs).1)) := by
  constructor
  · intro functions inputs
    have resolved := (f.compile_resolved c.env [] c.members h.coherent).1 fast compiled
    unfold withFunctions run
    dsimp only
    rw [resolved]
    rfl
  · intro loose alike inputs
    have gives :=
      (Formula.compile_later loose alike c.members h.coherent).1 fast compiled inputs
    have fastResult : (c'.run fun env => fast.solve env inputs).1 =
        f.result (c'.env.withFunctions c.env.functions) [] inputs :=
      h'.run_of_gives gives
    constructor
    · rw [fastResult]
      exact (f.solve_gives (c'.env.withFunctions c.env.functions) inputs c'.members
        h'.coherent).1.symm
    · intro same
      rw [fastResult, Formula.result_withFunctions same]
      exact (h'.run_of_gives (f.solve_gives c'.env inputs)).symm

/-- A transform of something of any type, times the same transform of a number. -/
def scaled : String :=
  "abs(x) * abs(2)"

/-- An overload for texts. -/
def absOfText : Transform Empty :=
  ⟨"abs", .string, .number, fun _ => .ok (.number 7)⟩

/-- The standard context once texts have an absolute value. -/
def later : Context Empty :=
  usual.registerTransform absOfText

theorem reachable_later : later.Reachable :=
  .registerTransform _ (.ofProvider _ _)

theorem solve_compiled_later_scaled :
    ∃ f fast, usual.parse scaled = .ok f ∧ (usual.run fun env => f.compile env []).1 = .ok fast ∧
      ∀ inputs, (later.run fun env => fast.solve env inputs).1 =
        ((later.withFunctions usual.env.functions).run fun env => f.solve env inputs).1 := by
  have accepted : ((usual.parse scaled).toOption.any fun f =>
      f.specification.parameters.all (fun p => p.2 == .any) &&
        (usual.run fun env => f.compile env []).1.isOk) = true := by
    decide +kernel
  cases parsed : usual.parse scaled with
  | error e =>
    rw [parsed] at accepted
    cases accepted
  | ok f =>
    rw [parsed, Except.toOption, Option.any_some, Bool.and_eq_true, List.all_eq_true] at accepted
    obtain ⟨loose, compiles⟩ := accepted
    cases compiled : (usual.run fun env => f.compile env []).1 with
    | error e =>
      rw [compiled] at compiles
      cases compiles
    | ok fast =>
      have typed : usual.env.Typed := (honest_standard Config.standard).typed
      have start : usual.Reachable := .ofProvider _ _
      have agrees := (solve_compiled_later start reachable_later compiled).2
        (fun p mem => beq_iff_eq.mp (loose p mem)) (Term.decidedAlike_of_typed typed _)
      exact ⟨f, fast, rfl, compiled, fun inputs => (agrees inputs).1⟩

-- The overload for texts is not found by what was compiled before it was registered.
theorem compiled_misses_later_overload :
    ∃ f fast, usual.parse "abs(x)" = .ok f ∧
      (∀ p ∈ f.specification.parameters, p.2 = .any) ∧
      (usual.run fun env => f.compile env []).1 = .ok fast ∧
      (later.run fun env => f.solve env [.string "x"]).1.isOk = true ∧
      (later.run fun env => fast.solve env [.string "x"]).1.isOk = false := by
  have runs : ((usual.parse "abs(x)").toOption.any fun f =>
      f.specification.parameters.all (fun p => p.2 == .any) &&
        ((usual.run fun env => f.compile env []).1.toOption.any fun fast =>
          (later.run fun env => f.solve env [.string "x"]).1.isOk &&
            !(later.run fun env => fast.solve env [.string "x"]).1.isOk)) = true := by
    decide +kernel
  cases parsed : usual.parse "abs(x)" with
  | error e =>
    rw [parsed] at runs
    cases runs
  | ok f =>
    rw [parsed, Except.toOption, Option.any_some, Bool.and_eq_true, List.all_eq_true] at runs
    obtain ⟨loose, runs⟩ := runs
    cases compiled : (usual.run fun env => f.compile env []).1 with
    | error e =>
      rw [compiled] at runs
      cases runs
    | ok fast =>
      rw [compiled, Except.toOption, Option.any_some, Bool.and_eq_true, Bool.not_eq_true'] at runs
      exact ⟨f, fast, rfl, fun p mem => beq_iff_eq.mp (loose p mem), compiled, runs⟩

end Context

end FormulaLang
