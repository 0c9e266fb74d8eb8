import FormulaLang.Evaluation
import FormulaLang.Proofs.Cache.Transparency

/-!
The value of a term, defined without the member cache.  Evaluation gives this value from every
coherent cache.
-/

namespace FormulaLang

variable {H : Type} [HostObject H]

namespace Term

/-- The value of a term, with every member resolved afresh. -/
def value (env : Environment H) (bindings : Bindings H) : Term → Except Failure (Value H)
  | absent => .error (.solving .missingOperand)
  | node token left right =>
      Except.mapError (Failure.within (node token left right).text) <|
        match token with
        | .number x => .ok (.number x)
        | .var name =>
            match bindings.lookup name with
            | some v => .ok v
            | none => .error (.solving (.unboundVariable name))
        | .name text => .error (.solving (.notAValue text))
        | .group _ | .magnitude _ => .error (.solving .unexpandedGroup)
        | .operator .negate => right.value env bindings >>= env.negate
        | .operator .property => do
            let owner ← left.value env bindings
            let name ← right.nameOperand Failure.solving
            env.propertyAfresh owner name
        | .operator .index => do
            let owner ← left.value env bindings
            let key : Except Failure (Value H) :=
              match right with
              | node (.name key) _ _ => .ok (.string key)
              | right => right.value env bindings
            key >>= env.index owner
        | .operator .transform => do
            let name ← left.nameOperand Failure.solving
            right.value env bindings >>= env.transform name
        | .operator op => do
            let x ← left.value env bindings
            let y ← right.value env bindings
            env.binary op x y

-- Only a name is read as one, at whatever stage.
theorem nameOperand_ok_iff {stage : Cause → Failure} {t : Term} {name : String} :
    t.nameOperand stage = .ok name ↔ ∃ l r, t = node (.name name) l r := by
  constructor
  · intro h
    unfold nameOperand at h
    split at h
    case h_2 =>
      cases h
      exact ⟨_, _, rfl⟩
    all_goals cases h
  · rintro ⟨l, r, rfl⟩
    rfl

-- The right operand of an index is a literal key, or it is evaluated.
theorem name_or_evaluated (t : Term) : (∃ key l r, t = node (.name key) l r) ∨
    ∀ key l r, t = node (.name key) l r → False := by
  by_cases named : ∃ key l r, t = node (.name key) l r
  · exact .inl named
  · exact .inr fun key l r same => named ⟨key, l, r, same⟩

-- An index whose right operand is no literal key.
theorem value_index (env : Environment H) (bindings : Bindings H) (left : Term) {right : Term}
    (evaluated : ∀ key l r, right = node (.name key) l r → False) :
    (node (.operator .index) left right).value env bindings =
      Except.mapError (Failure.within (node (.operator .index) left right).text) (do
        let owner ← left.value env bindings
        let key ← right.value env bindings
        env.index owner key) := by
  rw [value]
  exact evaluated

/-- Evaluation looks at its operands through the cache in their order, and gives what their values
give. -/
theorem evaluate_gives (env : Environment H) (bindings : Bindings H) (t : Term) :
    (t.evaluate env bindings).Gives env.types (t.value env bindings) := by
  induction t with
  | absent => exact Solve.gives_throw _
  | node token left right hl hr =>
    cases token with
    | number x => exact (Solve.gives_pure _).mapFailure _
    | name text | group raw | magnitude raw => exact (Solve.gives_throw _).mapFailure _
    | var name =>
      rw [evaluate, value]
      refine Solve.Gives.mapFailure ?_ _
      cases List.lookup name bindings with
      | some v => exact Solve.gives_pure v
      | none => exact Solve.gives_throw _
    | operator op =>
      have binary : (do
          let x ← left.evaluate env bindings
          let y ← right.evaluate env bindings
          Solve.ofExcept (env.binary op x y) : Solve H (Value H)).Gives env.types (do
            let x ← left.value env bindings
            let y ← right.value env bindings
            env.binary op x y) :=
        hl.bind fun x _ => hr.bind fun y _ => Solve.gives_ofExcept _
      cases op with
      | negate => exact (hr.bind fun v _ => Solve.gives_ofExcept (env.negate v)).mapFailure _
      | property =>
        refine Solve.Gives.mapFailure ?_ _
        refine hl.bind fun owner _ => ?_
        exact (Solve.gives_ofExcept _).bind fun name _ => env.property_gives owner name
      | index =>
        have indexed {key : Solve H (Value H)} {r : Except Failure (Value H)}
            (h : key.Gives env.types r) :
            (do
              let owner ← left.evaluate env bindings
              let k ← key
              Solve.ofExcept (env.index owner k) : Solve H (Value H)).Gives env.types
              (left.value env bindings >>= fun owner => r >>= env.index owner) :=
          hl.bind fun owner _ => h.bind fun k _ => Solve.gives_ofExcept _
        rw [evaluate]
        -- a name on the right is a key, and everything else is evaluated
        obtain ⟨key, l, r, rfl⟩ | evaluated := right.name_or_evaluated
        · rw [value]
          exact (indexed (Solve.gives_pure (Value.string key))).mapFailure _
        · rw [value_index env bindings left evaluated]
          split
          · exact absurd rfl (evaluated _ _ _)
          · exact (indexed hr).mapFailure _
      | transform =>
        refine Solve.Gives.mapFailure ?_ _
        refine (Solve.gives_ofExcept _).bind fun name _ => ?_
        exact hr.bind fun v _ => Solve.gives_ofExcept (env.transform name v)
      | _ => exact binary.mapFailure _

end Term

end FormulaLang
