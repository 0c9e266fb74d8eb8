import FormulaLang.Proofs.Context.WellFormed
import FormulaLang.Proofs.Inference.Parsed

/-!
Inferred specifications.  The variables that inference counts in a formula are all that solving and
compiling it read, each is a variable of its tree, and for a formula that is parsed they come in the
order in which the text first mentions them.
-/

namespace FormulaLang

variable {H : Type}

-- Where nothing is declared, the whole source is the expression.
theorem Expression.splitDeclaration_of_undeclared {source : String}
    (undeclared : (splitDeclaration source).1 = none) : (splitDeclaration source).2 = source := by
  revert undeclared
  unfold splitDeclaration
  dsimp only
  split
  next => exact fun _ => rfl
  next => nofun

namespace Context

variable {c : Context H} {f : Formula}

/-! ## Formulas without a declared specification -/

/-- The formulas that a context makes of texts that do not declare their variables. -/
inductive ReadsUndeclared (c : Context H) : Formula → Prop where
  | parse {source : String} {f : Formula}
      (undeclared : (Expression.splitDeclaration source).1 = none) (h : c.parse source = .ok f) :
      ReadsUndeclared c f
  | compose {declarations : List String} {last : String} {f : Formula}
      (undeclared : (Expression.splitDeclaration last).1 = none)
      (h : c.compose (declarations ++ [last]) = .ok f) : ReadsUndeclared c f

namespace ReadsUndeclared

theorem reads (h : c.ReadsUndeclared f) : c.Reads f := by
  cases h with
  | parse undeclared h => exact .parse h
  | compose undeclared h => exact .compose h

theorem specification (h : c.ReadsUndeclared f) :
    f.specification = Specification.infer f.tree Tree.first := by
  -- without a declaration the specification is inferred from the tree
  have inferred {declared? : Option String} {t : Tree} (undeclared : declared? = none)
      (specified : Formula.specify c.env.types declared? t = .ok f) :
      f.specification = Specification.infer f.tree Tree.first := by
    subst undeclared
    cases specified
    rfl
  cases h with
  | parse undeclared h =>
    obtain ⟨t, -, h⟩ := ok_of_bind h
    exact inferred undeclared h
  | compose undeclared h =>
    unfold Context.compose Formula.compose at h
    rw [List.reverse_append] at h
    obtain ⟨main, -, h⟩ := ok_of_bind h
    obtain ⟨⟨t, root⟩, -, h⟩ := ok_of_bind h
    obtain ⟨root', -, h⟩ := ok_of_bind h
    exact inferred undeclared h

theorem any (h : c.ReadsUndeclared f) : ∀ p ∈ f.specification.parameters, p.2 = .any := by
  rw [h.specification]
  exact Specification.any_infer _ _

theorem counted (h : c.ReadsUndeclared f) :
    Specification.counted f.tree Tree.first = f.term.mentioned true := by
  rw [h.reads.planted]
  exact Tree.Has.counted_plant f.term

theorem variableNames (h : c.ReadsUndeclared f) :
    f.specification.variableNames = (Specification.counted f.tree Tree.first).eraseDups := by
  rw [h.specification]
  exact Specification.variableNames_infer _ _

-- Every variable that is evaluated is inferred.
theorem known (h : c.ReadsUndeclared f) {name : String} {left right : Term}
    (mem : .node (.var name) left right ∈ f.term.evaluated) :
    name ∈ f.specification.variableNames := by
  rw [h.variableNames, List.mem_eraseDups, h.counted]
  exact Term.mem_mentioned_of_evaluated mem

-- Every variable that is inferred is a leaf.
theorem leaf (h : c.ReadsUndeclared f) {name : String}
    (known : name ∈ f.specification.variableNames) :
    ∃ id ∈ f.tree.postOrder Tree.first, f.tree.token? id = some (.var name)
      ∧ f.tree.left? id = none ∧ f.tree.right? id = none := by
  rw [h.variableNames, List.mem_eraseDups] at known
  obtain ⟨id, mem, counted⟩ := List.mem_filterMap.mp known
  have token := Specification.token?_of_counted? counted
  exact ⟨id, mem, token, h.reads.wellFormed.leaves id _ token rfl⟩

end ReadsUndeclared

-- The variables that count in a parsed formula are those that its text mentions.
theorem counted_of_parse {source : String}
    (undeclared : (Expression.splitDeclaration source).1 = none) (h : c.parse source = .ok f) :
    Specification.counted f.tree Tree.first = (Expression.mentions source).map Mention.name := by
  have read := (ReadsUndeclared.parse undeclared h).counted
  obtain ⟨parsed, -⟩ := Formula.of_parse h
  rw [Expression.splitDeclaration_of_undeclared undeclared] at parsed
  exact read.trans (Expression.mentioned_parse parsed)

end Context

/-! ## Bound inputs -/

variable [HostObject H]

namespace Bindings

variable {env : Environment H}

-- Inputs of any type are only normalized.
theorem prepared_of_any {parameters : List (String × TypeInfo)}
    (any : ∀ p ∈ parameters, p.2 = .any) (inputs : List (Value H)) :
    Prepared env parameters inputs
      ((parameters.zip inputs).map fun given => (given.1.1, env.normalize given.2)) := by
  refine List.forall₂_map_right_iff.mpr (List.forall₂_same.mpr fun given mem => ⟨rfl, ?_⟩)
  rw [any _ (List.of_mem_zip mem).1]
  rfl

-- Enough inputs for variables of any type bind each of them.
theorem bound_of_any {s : Specification} (any : ∀ p ∈ s.parameters, p.2 = .any)
    {inputs : List (Value H)} {bindings : Bindings H}
    (bound : ofInputs env s.parameters inputs = .ok bindings) {name : String}
    (known : name ∈ s.variableNames) : ∃ v, bindings.lookup name = some v := by
  obtain ⟨enough, prepared⟩ := ofInputs_ok_iff.mp bound
  have fit : bindings.Fit s.parameters :=
    prepared.fit (fun p mem v w _ => any p mem ▸ Value.has_any w) enough
  obtain ⟨place, type, placed, typed⟩ := Specification.placed_of_mem known
  obtain ⟨v, found, -⟩ := fit.lookup placed typed
  exact ⟨v, found⟩

end Bindings

namespace Context

variable {c : Context H} {f : Formula}

-- Whatever inputs are bound, they bind every variable that is evaluated.
theorem ReadsUndeclared.bound (h : c.ReadsUndeclared f) {env : Environment H}
    {inputs : List (Value H)} {bindings : Bindings H}
    (binds : Bindings.ofInputs env f.specification.parameters inputs = .ok bindings) {name : String}
    {left right : Term} (mem : .node (.var name) left right ∈ f.term.evaluated) :
    ∃ v, bindings.lookup name = some v :=
  Bindings.bound_of_any h.any binds (h.known mem)

/-- Inference is sound, complete and in the order of the text.  When a formula of which the
variables are not declared is solved with enough inputs, they can be bound and every variable that is
evaluated is bound, and no failure is for an unbound variable but in the words of a declared
function; compiling it never fails for an unknown variable.  Every variable that is inferred is a
leaf of the tree.  And the variables of a parsed formula are those that its text mentions, each where
it is first mentioned, from left to right. -/
theorem inferred_variables (h : c.ReadsUndeclared f) :
    (∀ c₁ : Context H, c₁.Reachable →
      (∀ inputs : List (Value H), f.arity ≤ inputs.length →
        (∃ bindings, Bindings.ofInputs c₁.env f.specification.parameters inputs = .ok bindings ∧
          ∀ name left right, .node (.var name) left right ∈ f.term.evaluated →
            ∃ v, bindings.lookup name = some v) ∧
        ∀ e name, (c₁.run fun env => f.solve env inputs).1 = .error e →
          e.cause = .unboundVariable name → c₁.env.Raises e.cause) ∧
      ∀ initial e name, (c₁.run fun env => f.compile env initial).1 = .error e →
        e.cause ≠ .unknownVariable name) ∧
    (∀ name ∈ f.specification.variableNames, ∃ id ∈ f.tree.postOrder Tree.first,
      f.tree.token? id = some (.var name) ∧ f.tree.left? id = none ∧ f.tree.right? id = none) ∧
    ∀ source, (Expression.splitDeclaration source).1 = none → c.parse source = .ok f →
      Specification.counted f.tree Tree.first = (Expression.mentions source).map Mention.name ∧
        f.specification.variableNames
          = ((Expression.mentions source).map Mention.name).eraseDups ∧
        (Expression.mentions source).Pairwise (fun m n => m.stop < n.stop) ∧
        ∀ m ∈ Expression.mentions source, m.StandsIn source.toList := by
  have value := h.reads.isFinished.isValue
  refine ⟨fun c₁ h₁ => ⟨fun inputs enough => ⟨?_, ?_⟩, ?_⟩, fun name => h.leaf, ?_⟩
  · have prepared : Bindings.Prepared c₁.env f.specification.parameters inputs _ :=
      Bindings.prepared_of_any h.any inputs
    have binds := Bindings.ofInputs_ok_iff.mpr ⟨enough, prepared⟩
    exact ⟨_, binds, fun name left right => h.bound binds⟩
  · have solves := Formula.solve_explained
      (Q := fun cause => ∀ name, cause = .unboundVariable name → c₁.env.Raises cause) value
      c₁.env inputs
      (fun e explained name cause => explained (by rw [cause]; rfl))
      (fun bindings binds name left right mem unbound => by
        obtain ⟨v, found⟩ := h.bound binds mem
        rw [unbound] at found
        cases found)
    intro e name failed
    exact solves.fails c₁.members h₁.coherent e failed name
  · intro initial e name failed
    have compiles := Formula.compile_explained
      (Q := fun cause => cause ≠ .unknownVariable name) value c₁.env initial
      (fun cause apart same => by rw [same] at apart; cases apart)
      (fun name left right mem unknown => absurd (h.known mem) unknown)
    exact compiles.fails c₁.members h₁.coherent e failed
  · intro source undeclared parsed
    have counted := counted_of_parse undeclared parsed
    exact ⟨counted, counted ▸ h.variableNames, Expression.mentions_stand source⟩

/-- Members, keys, products, and variables in parentheses and between bars. -/
def mixedVariables : String :=
  "a.b c.(d) + |x_1:e - (f a)| (g)"

theorem inferred_variables_mixed :
    ∃ f, usual.parse mixedVariables = .ok f ∧
      f.specification.variableNames = ["a", "x_1", "f", "g"] ∧
      (∀ inputs : List (Value Empty), 4 ≤ inputs.length → ∀ e name,
        (usual.run fun env => f.solve env inputs).1 = .error e →
          e.cause = .unboundVariable name → usual.env.Raises e.cause) ∧
      ∀ e name, (usual.run fun env => f.compile env []).1 = .error e →
        e.cause ≠ .unknownVariable name := by
  have accepted : (usual.parse mixedVariables).isOk = true := by decide +kernel
  cases parsed : usual.parse mixedVariables with
  | error e =>
    rw [parsed] at accepted
    cases accepted
  | ok f =>
    have undeclared : (Expression.splitDeclaration mixedVariables).1 = none := by decide +kernel
    obtain ⟨runs, -, ordered⟩ := inferred_variables (.parse undeclared parsed)
    obtain ⟨solves, compiles⟩ := runs usual (.ofProvider _ _)
    obtain ⟨-, names, -⟩ := ordered _ undeclared parsed
    have mentioned : ((Expression.mentions mixedVariables).map Mention.name).eraseDups
        = ["a", "x_1", "f", "g"] := by
      decide +kernel
    rw [mentioned] at names
    have arity : f.arity = 4 := (List.length_map _).symm.trans (congrArg List.length names)
    refine ⟨f, rfl, names, fun inputs enough => ?_, compiles []⟩
    exact (solves inputs (arity ▸ enough)).2

end Context

end FormulaLang
