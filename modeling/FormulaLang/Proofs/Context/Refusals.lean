import FormulaLang.Proofs.Compilation.Refusals
import FormulaLang.Proofs.Context.Composition
import FormulaLang.Proofs.Printing.Declaration

/-!
Formulas that cannot be compiled in a context of the standard provider.  Their variables are of the
language's own types, so what the compiler refuses cannot be solved by the tree either, for any
inputs.
-/

namespace FormulaLang

variable {H : Type} [HostObject H]

/-! ## The types of variables -/

theorem Specification.any_infer (t : Tree) (root : NodeId) :
    ∀ p ∈ (infer t root).parameters, p.2 = .any := by
  unfold infer
  refine List.foldlRecOn
    (motive := fun s : Specification => ∀ p ∈ s.parameters, p.2 = .any) _ _ nofun fun s h id _ => ?_
  split
  · split
    · intro p mem
      unfold Specification.mention Keyed.insertNew at mem
      split at mem
      · exact h p mem
      · rcases List.mem_append.mp mem with mem | mem
        · exact h p mem
        · rw [List.mem_singleton.mp mem]
    · exact h
  · exact h

theorem Formula.own_of_specify {types : TypeRegistry H} (builtin : types.IsBuiltin)
    {declared? : Option String} {t : Tree} {f : Formula}
    (h : specify types declared? t = .ok f) :
    ∀ p ∈ f.specification.parameters, p.2 ∈ TypeInfo.builtins := by
  intro p mem
  unfold specify at h
  split at h
  case h_1 =>
    obtain ⟨s, declared, rfl⟩ := ok_of_map h
    rcases (Specification.declared_parse declared).types p mem with any | ⟨text, found⟩
    · rw [any]
      exact .head _
    · exact builtin.mem_of_find found
  case h_2 =>
    cases h
    rw [Specification.any_infer t _ p mem]
    exact .head _

namespace Context

variable {config : Config}

theorem isUsual_standard (config : Config) :
    (ofProvider (Provider.standard : Provider H) config).env.IsUsual where
  described type d h := by
    cases type <;> cases h <;> rfl
  number _ := rfl

/-- What a context of the standard provider cannot compile it cannot solve.  A formula that is
parsed or composed there and then refused by the compiler fails for every list of inputs, whatever
the member caches have learned in between. -/
theorem solve_of_refused {c c' : Context H} (h : c.Reachable) (h' : c'.Reachable)
    (standard : c.env = (ofProvider Provider.standard config).env) (same : c'.env = c.env)
    {f : Formula} (read : c.Reads f) {e : Failure}
    (refused : (c.run fun env => f.compile env []).1 = .error e) (inputs : List (Value H)) :
    ∃ e', (c'.run fun env => f.solve env inputs).1 = .error e' := by
  have usual : c.env.IsUsual := by
    rw [standard]
    exact isUsual_standard config
  have honest : c.env.Honest := by
    rw [standard]
    exact honest_standard config
  have builtin : c.env.types.IsBuiltin := by
    rw [standard]
    exact TypeRegistry.isBuiltin_builtins config.typeDeduction
  obtain ⟨declared?, t, specified⟩ := read.specified
  have barren := (Formula.compile_settles usual honest
    (Formula.own_of_specify builtin specified)).fails c.members h.coherent e refused
  have solved : (c'.run fun env => f.solve env inputs).1 = f.result c.env [] inputs := by
    refine h'.run_of_gives ?_
    rw [same]
    exact f.solve_gives c.env inputs
  rw [solved]
  cases result : f.result c.env [] inputs with
  | error e' => exact ⟨e', rfl⟩
  | ok v => exact absurd result (barren inputs v)

/-- A number plus the entry of a sequence under a literal key. -/
def namedEntry : String :=
  "f(s: list, x) = x + s:first"

theorem solve_of_refused_namedEntry :
    ∃ f e, usual.parse namedEntry = .ok f ∧
      (usual.run fun env => f.compile env []).1 = .error e ∧
      ∀ inputs, ∃ e', (usual.run fun env => f.solve env inputs).1 = .error e' := by
  have refuses : ((usual.parse namedEntry).toOption.any fun f =>
      !(usual.run fun env => f.compile env []).1.isOk) = true := by
    decide +kernel
  cases parsed : usual.parse namedEntry with
  | error e =>
    rw [parsed] at refuses
    cases refuses
  | ok f =>
    rw [parsed] at refuses
    cases refused : (usual.run fun env => f.compile env []).1 with
    | ok fast => simp [Except.toOption, refused, Except.isOk, Except.toBool] at refuses
    | error e =>
      have start : usual.Reachable := .ofProvider _ _
      exact ⟨f, e, rfl, refused, solve_of_refused start start rfl rfl (.parse parsed) refused⟩

end Context

end FormulaLang
