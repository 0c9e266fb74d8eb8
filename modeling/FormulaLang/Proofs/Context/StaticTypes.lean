import FormulaLang.Proofs.Context.Reachable
import FormulaLang.Proofs.Typing.Registration

/-!
Static types.  The type that the compiler gives a part of a formula is the type of every value of
this part, as long as the declared negations that the part uses stay in their types.  A negation
declares no type for its result, and one that leaves its type is compiled under the wrong type.
-/

namespace FormulaLang

variable {H : Type} [HostObject H]

namespace Formula

-- What is compiled of a formula, part by part.
theorem compile_parts {env : Environment H} (f : Formula) (initial : List (Value H)) :
    (f.compile env initial).Ensures env.types fun fast =>
      fast.inputs = f.specification.parameters.drop initial.length ∧
        ∃ c, CompilerInput.prepare env f.specification initial = .ok c ∧
          ∀ s ∈ f.term.evaluated, ∃ compiled, s.Compiles c compiled := by
  refine ((Solve.gives_ofExcept _).ensures fun _ h => h).bind fun c prepared => ?_
  have parts := f.term.compile_evaluated c
  rw [CompilerInput.env_of_prepare prepared] at parts
  refine parts.bind fun compiled parts => ?_
  refine (Solve.gives_pure _).ensures fun fast built => ?_
  cases built
  exact ⟨rfl, c, prepared, parts⟩

-- Prepared inputs and the bindings of the rest are what the compiled code is run with.
theorem binds_of_prepare {env : Environment H} (declared : env.Typed) {f : Formula}
    {initial inputs : List (Value H)} {c : CompilerInput H} {bindings : Bindings H}
    (prepared : CompilerInput.prepare env f.specification initial = .ok c)
    (bound : Bindings.ofInputs env (f.specification.parameters.drop initial.length) inputs =
      .ok bindings) :
    ∃ all, c.Binds (bindings.map Prod.snd) all := by
  unfold CompilerInput.prepare at prepared
  split at prepared
  case isTrue => cases prepared
  case isFalse few =>
    obtain ⟨fixed, ready, rfl⟩ := ok_of_map prepared
    have given := (Bindings.prepare_ok_iff.mp ready).take (Nat.le_of_not_lt few)
    exact ⟨_, binds_append declared given bound⟩

end Formula

namespace Context

/-- Every part of a compiled formula that is evaluated has been compiled to code of a static type;
and where this type is known, and the negations that the part uses stay in their types, a value of
the code is of this type. -/
theorem static_types {c : Context H} (h : c.Reachable) (declared : c.env.Typed) {f : Formula}
    {initial : List (Value H)} {fast : FastFormula H}
    (compiled : (c.run fun env => f.compile env initial).1 = .ok fast) :
    ∃ compiler, CompilerInput.prepare c.env f.specification initial = .ok compiler ∧
      ∀ s ∈ f.term.evaluated, ∃ part, s.Compiles compiler part ∧
        (s.NegationsStay compiler → part.type.isAny = false →
          ∀ inputs bindings, Bindings.ofInputs c.env fast.inputs inputs = .ok bindings →
            ∀ v, (c.run fun env => part.code ⟨env, bindings.map Prod.snd⟩).1 = .ok v →
              v.typeInfo = part.type) := by
  obtain ⟨rest, ⟨env, specification, fixed⟩, prepared, parts⟩ :=
    (f.compile_parts initial c.members h.coherent).1 fast compiled
  obtain rfl : env = c.env := CompilerInput.env_of_prepare prepared
  refine ⟨_, prepared, fun s evaluated => ?_⟩
  obtain ⟨part, built⟩ := parts s evaluated
  refine ⟨part, built, fun stay known inputs bindings bound v valued => ?_⟩
  rw [rest] at bound
  obtain ⟨all, binds⟩ := Formula.binds_of_prepare declared prepared bound
  have coherent := h.coherent
  have sound := (Term.compile_builds (c := ⟨c.env, specification, fixed⟩) declared stay
    c.members coherent).1 part (built c.members coherent).1 _ all binds
  have result := (sound.gives c.members coherent).1
  exact Value.typeInfo_of_has (sound.typed v (result.symm.trans valued)) known

end Context

/-! ## Debts -/

/-- A sum that is owed. -/
structure Debt where
  amount : Float

instance : HostObject Debt where
  typeName _ := "Debt"
  shown _ := "a debt"
  toNumber? _ := none
  member? _ _ := none
  entry? _ _ := none
  identity d := d.amount.toBits.toNat

namespace Debt

def type : TypeInfo := .host "Debt"

/-- The sum of two debts. -/
def join : Binary Debt
  | .host d, .host e => .ok (.number (d.amount + e.amount))
  | v, _ => .error (.solving (.expectedHost v.typeInfo))

/-- What is left of a number after a debt. -/
def settle : Binary Debt
  | .number x, .host d => .ok (.number (x - d.amount))
  | v, _ => .error (.solving (.expectedHost v.typeInfo))

/-- A debt as a number: a negated debt is a debt no longer. -/
def due : Unary Debt
  | .host d => .ok (.number (-d.amount))
  | v => .error (.solving (.expectedHost v.typeInfo))

def descriptor : TypeDescriptor Debt :=
  ((TypeDescriptor.bare type).withOperator .add type type .number join
    |>.withOperator .add .number type .number settle).withNegation due

theorem typed_descriptor : descriptor.Typed := by
  have sums : ∀ x y v, join x y = .ok v → v.Has .number := by
    intro x y v h
    cases x <;> cases y <;> cases h
    exact Value.has_number _
  have rests : ∀ x y v, settle x y = .ok v → v.Has .number := by
    intro x y v h
    cases x <;> cases y <;> cases h
    exact Value.has_number _
  refine TypeDescriptor.Typed.withNegation ?_ due
  have bare := TypeDescriptor.honest_bare (H := Debt) type
  exact ((bare.withOperator sums).withOperator rests).typed

/-- The standard context with debts. -/
def debts : Context Debt :=
  (Context.ofProvider Provider.standard Config.standard).registerType descriptor ["debt"]

theorem reachable_debts : debts.Reachable :=
  .registerType _ _ (.ofProvider _ _)

theorem typed_debts : debts.env.Typed :=
  Context.typed_registerType (Context.honest_standard _).typed typed_descriptor _

def owed : Term := .leaf (.var "d")

/-- The sum of a debt and itself, negated. -/
def doubled : Term :=
  .node (.operator .negate) .absent (.node (.operator .add) owed owed)

def negated : Term := .node (.operator .negate) .absent owed

def cleared : Term := .node (.operator .add) negated owed

/-- A formula of one debt. -/
def formula (t : Term) : Formula where
  specification := ⟨"f", [("d", type)], true, by decide⟩
  tree := Tree.empty.plant t

/-- What a formula of one debt is compiled against. -/
def compiler (t : Term) : CompilerInput Debt :=
  ⟨debts.env, (formula t).specification, []⟩

-- Two debts make a number, and numbers are negated natively.
theorem negationsStay_doubled : doubled.NegationsStay (compiler doubled) := by
  intro left operand negation compiled built
  have sum : operand = .node (.operator .add) owed owed := by
    have only : left = .absent ∧ operand = .node (.operator .add) owed owed := by
      simpa [doubled, owed, Term.evaluated, Term.leaf] using negation
    exact only.2
  subst sum
  have known := built.unique (Term.compiles_of_off rfl)
  cases known
  exact .inl rfl

theorem static_types_doubled :
    ∃ part, doubled.Compiles (compiler doubled) part ∧ part.type = .number ∧
      ∀ v, (debts.run fun env => part.code ⟨env, [.host ⟨3⟩]⟩).1 = .ok v → v.typeInfo = .number := by
  have compiled : (debts.run fun env => (formula doubled).compile env []).1 = .ok _ := rfl
  obtain ⟨c, prepared, parts⟩ := Context.static_types reachable_debts typed_debts compiled
  cases prepared
  obtain ⟨part, built, sound⟩ := parts doubled (Term.mem_evaluated_self doubled)
  have number : part.type = .number := by
    have known := built.unique (Term.compiles_of_off rfl)
    cases known
    rfl
  have checked := sound negationsStay_doubled (by rw [number]; rfl) [.host ⟨3⟩] _ rfl
  rw [number] at checked
  exact ⟨part, built, number, checked⟩

/-- A negated debt is compiled as a debt, and is a number: its sum with a debt is compiled as one of
two debts, which fails, where solving by the tree finds the sum of a number and a debt. -/
theorem negated_leaves_static_type :
    debts.Reachable ∧ debts.env.Typed ∧
      ∃ fast part,
        (debts.run fun env => (formula cleared).compile env []).1 = .ok fast ∧
          negated ∈ (formula cleared).term.evaluated ∧
          negated.Compiles (compiler cleared) part ∧ part.type = type ∧
          (debts.run fun env => part.code ⟨env, [.host ⟨3⟩]⟩).1 = .ok (.number (-3)) ∧
          (debts.run fun env => (formula cleared).solve env [.host ⟨3⟩]).1 = .ok (.number (-6)) ∧
          ∀ v, (debts.run fun env => fast.solve env [.host ⟨3⟩]).1 ≠ .ok v :=
  ⟨reachable_debts, typed_debts, _, _, rfl, .tail _ (.head _), Term.compiles_of_off rfl, rfl, rfl, rfl,
    nofun⟩

end Debt

end FormulaLang
