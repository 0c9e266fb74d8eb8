import FormulaLang.Proofs.Context.Reachable
import FormulaLang.Proofs.Typing.Registration

/-!
Two ways to solve a formula in a context.  As long as the registries stay as they are, and their
declarations are honest, it makes no difference whether a formula is solved by its tree or compiled
first, whatever the member caches have learned in between.
-/

namespace FormulaLang

variable {H : Type} [HostObject H]

namespace Context

-- A result that no cache changes is what a reachable context yields.
theorem Reachable.run_of_gives {α : Type} {c : Context H} (h : c.Reachable)
    {m : Environment H → Solve H α} {r : Except Failure α}
    (gives : (m c.env).Gives c.env.types r) : (c.run m).1 = r :=
  (gives c.members h.coherent).1

-- What is compiled in a reachable context of honest declarations.
theorem Reachable.compiles {c : Context H} (h : c.Reachable) (honest : c.env.Honest) {f : Formula}
    {initial : List (Value H)} {fast : FastFormula H}
    (compiled : (c.run fun env => f.compile env initial).1 = .ok fast) :
    f.Compiles c.env initial fast :=
  (f.compile_ensures honest initial c.members h.coherent).1 fast compiled

/-- A compiled formula gives what the formula gives: the same value or the same failure, with its
cause, expression and inputs.  The formula may be compiled, solved compiled and solved by its tree
in contexts that have different histories and the same registries. -/
theorem solve_compiled {c c₁ c₂ : Context H} (h : c.Reachable) (h₁ : c₁.Reachable)
    (h₂ : c₂.Reachable) (same₁ : c₁.env = c.env) (same₂ : c₂.env = c.env)
    (honest : c.env.Honest) {f : Formula} {fast : FastFormula H}
    (compiled : (c.run fun env => f.compile env []).1 = .ok fast) (inputs : List (Value H)) :
    (c₁.run fun env => fast.solve env inputs).1 = (c₂.run fun env => f.solve env inputs).1 := by
  obtain ⟨fixed, given, gives⟩ := (h.compiles honest compiled).gives
  obtain rfl : fixed = [] := List.length_eq_zero_iff.mp (given.length_fixed (Nat.zero_le _))
  have fastResult : (c₁.run fun env => fast.solve env inputs).1 = f.result c.env [] inputs := by
    refine h₁.run_of_gives ?_
    rw [same₁]
    exact gives inputs
  have treeResult : (c₂.run fun env => f.solve env inputs).1 = f.result c.env [] inputs := by
    refine h₂.run_of_gives ?_
    rw [same₂]
    exact f.solve_gives c.env inputs
  rw [fastResult, treeResult]

/-- No host object asks for anything. -/
instance : HostObject Empty where
  typeName := nofun
  shown := nofun
  toNumber? := nofun
  member? := nofun
  entry? := nofun
  identity := nofun

/-- The standard context, without host types. -/
def usual : Context Empty :=
  ofProvider Provider.standard Config.standard

/-- The length of one text after another; the type of the first is not declared. -/
def joinedLength : Formula where
  specification := ⟨"joined", [("s", .any), ("t", .string)], true, by decide⟩
  tree :=
    Tree.empty.plant <|
      .node (.operator .property)
        (.node (.operator .add) (.leaf (.var "s")) (.leaf (.var "t")))
        (.leaf (.name "Length"))

theorem solve_compiled_joinedLength :
    ∃ fast, (usual.run fun env => joinedLength.compile env []).1 = .ok fast ∧
      (usual.run fun env => fast.solve env [.string "ab", .string "c"]).1 =
        ((usual.run fun env => joinedLength.compile env []).2.run fun env =>
          joinedLength.solve env [.string "ab", .string "c"]).1 := by
  have start : usual.Reachable := .ofProvider _ _
  refine ⟨_, rfl, ?_⟩
  exact solve_compiled start start (start.compile joinedLength []) rfl rfl
    (honest_standard Config.standard) rfl _

/-- A formula compiled with its first inputs fixed expects as many inputs as the formula bound to
them, and has the same values. -/
theorem solve_partially_compiled {c c₁ c₂ : Context H} (h : c.Reachable) (h₁ : c₁.Reachable)
    (h₂ : c₂.Reachable) (same₁ : c₁.env = c.env) (same₂ : c₂.env = c.env)
    (honest : c.env.Honest) {f : Formula} {initial : List (Value H)} {fast : FastFormula H}
    (compiled : (c.run fun env => f.compile env initial).1 = .ok fast) :
    fast.arity = (BoundFormula.mk f initial).arity ∧
      ∀ rest v, (c₁.run fun env => fast.solve env rest).1 = .ok v ↔
        (c₂.run fun env => (BoundFormula.mk f initial).solve env rest).1 = .ok v := by
  have compiles := h.compiles honest compiled
  constructor
  · rw [FastFormula.arity, compiles.inputs, List.length_drop]
    rfl
  · intro rest v
    obtain ⟨fixed, given, gives⟩ := compiles.gives
    have fastResult : (c₁.run fun env => fast.solve env rest).1 = f.result c.env fixed rest := by
      refine h₁.run_of_gives ?_
      rw [same₁]
      exact gives rest
    have boundResult : (c₂.run fun env => (BoundFormula.mk f initial).solve env rest).1 =
        f.result c.env [] (initial ++ rest) := by
      refine h₂.run_of_gives ?_
      rw [same₂]
      exact f.solve_gives c.env (initial ++ rest)
    rw [fastResult, boundResult]
    exact Formula.result_fixed_iff compiles.enough given v

-- Once the first input is a text the sum is one of texts, and its length is known.
theorem solve_partially_compiled_joinedLength :
    ∃ fast, (usual.run fun env => joinedLength.compile env [.string "ab"]).1 = .ok fast ∧
      fast.arity = 1 ∧
      ∀ v, (usual.run fun env => fast.solve env [.string "c"]).1 = .ok v ↔
        (usual.run fun env =>
          (BoundFormula.mk joinedLength [.string "ab"]).solve env [.string "c"]).1 = .ok v := by
  have start : usual.Reachable := .ofProvider _ _
  obtain ⟨fast, compiled⟩ : ∃ fast,
      (usual.run fun env => joinedLength.compile env [.string "ab"]).1 = .ok fast := ⟨_, rfl⟩
  have agrees := solve_partially_compiled start start start rfl rfl
    (honest_standard Config.standard) compiled
  exact ⟨fast, compiled, agrees.1, fun v => agrees.2 [.string "c"] v⟩

end Context

end FormulaLang
