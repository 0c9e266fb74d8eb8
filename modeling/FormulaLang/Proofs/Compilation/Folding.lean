import FormulaLang.Proofs.Context.Agreement
import FormulaLang.Proofs.Evaluation.Substitution
import FormulaLang.Proofs.Reduction.Expanded

/-!
Folding is not observed.  From every member cache, coherent or not, a folded term is evaluated to
the values of the term and compiled to code with the values of its code.  What is registered has no
part in this: numbers are combined and negated natively before anything else is looked for.
-/

namespace FormulaLang

variable {H α β γ δ : Type}

/-! ## Solves that match -/

/-- Two results that are related values, or both of them failures. -/
inductive Paired (R : α → β → Prop) : Except Failure α → Except Failure β → Prop where
  | ok {a : α} {b : β} (h : R a b) : Paired R (.ok a) (.ok b)
  | error (e e' : Failure) : Paired R (.error e) (.error e')

-- How failures are changed plays no part.
theorem paired_mapError (r : Except Failure α) (f g : Failure → Failure) :
    Paired Eq (r.mapError f) (r.mapError g) := by
  cases r with
  | ok a => exact .ok rfl
  | error e => exact .error _ _

namespace Solve

/-- From every cache two solves end with related values, or both fail, and leave the same cache. -/
def Matches (R : α → β → Prop) (m : Solve H α) (n : Solve H β) : Prop :=
  ∀ cache, Paired R (m.exec cache).1 (n.exec cache).1 ∧ (m.exec cache).2 = (n.exec cache).2

variable {R : α → β → Prop} {m : Solve H α} {n : Solve H β}

theorem matches_ofExcept {r : Except Failure α} {s : Except Failure β} (h : Paired R r s) :
    Matches R (ofExcept r : Solve H α) (ofExcept s) :=
  fun _ => ⟨h, rfl⟩

theorem matches_pure {a : α} {b : β} (h : R a b) : Matches R (pure a : Solve H α) (pure b) :=
  matches_ofExcept (.ok h)

theorem matches_throw (e e' : Failure) : Matches R (throw e : Solve H α) (throw e') :=
  matches_ofExcept (.error e e')

theorem Matches.refl {R : α → α → Prop} (h : ∀ a, R a a) (m : Solve H α) : Matches R m m := by
  intro cache
  refine ⟨?_, rfl⟩
  cases (m.exec cache).1 with
  | ok a => exact .ok (h a)
  | error e => exact .error e e

theorem Matches.trans {o : Solve H γ} {S : β → γ → Prop} {T : α → γ → Prop}
    (trans : ∀ a b c, R a b → S b c → T a c) (h : Matches R m n) (h' : Matches S n o) :
    Matches T m o := by
  intro cache
  obtain ⟨first, kept⟩ := h cache
  obtain ⟨second, kept'⟩ := h' cache
  refine ⟨?_, kept.trans kept'⟩
  generalize (m.exec cache).1 = x, (n.exec cache).1 = y, (o.exec cache).1 = z at first second
  cases first with
  | ok related => cases second with | ok related' => exact .ok (trans _ _ _ related related')
  | error => cases second with | error => exact .error _ _

theorem Matches.mapFailure (h : Matches R m n) (f g : Failure → Failure) :
    Matches R (mapFailure f m) (mapFailure g n) := by
  intro cache
  obtain ⟨ends, kept⟩ := h cache
  rw [exec_mapFailure, exec_mapFailure]
  refine ⟨?_, kept⟩
  generalize (m.exec cache).1 = x, (n.exec cache).1 = y at ends
  cases ends with
  | ok related => exact .ok related
  | error e e' => exact .error _ _

theorem Matches.bind {S : γ → δ → Prop} {f : α → Solve H γ} {g : β → Solve H δ}
    (h : Matches R m n) (hf : ∀ a b, R a b → Matches S (f a) (g b)) :
    Matches S (m >>= f) (n >>= g) := by
  intro cache
  obtain ⟨ends, kept⟩ := h cache
  rw [exec_bind, exec_bind]
  generalize m.exec cache = x, n.exec cache = y at ends kept
  obtain ⟨r, cache'⟩ := x
  obtain ⟨s, cache''⟩ := y
  obtain rfl : cache' = cache'' := kept
  cases ends with
  | ok related => exact hf _ _ related cache'
  | error e e' => exact ⟨.error e e', rfl⟩

-- Solves that match return the same values.
theorem Matches.ok_iff {n : Solve H α} (h : Matches Eq m n) (cache : MemberCache H) (a : α) :
    (m.exec cache).1 = .ok a ↔ (n.exec cache).1 = .ok a := by
  obtain ⟨ends, -⟩ := h cache
  generalize (m.exec cache).1 = x, (n.exec cache).1 = y at ends
  cases ends with
  | ok same => rw [same]
  | error => exact ⟨nofun, nofun⟩

end Solve

/-- Code of one static type whose runs match. -/
structure Compiled.Matches (compiled compiled' : Compiled H) : Prop where
  type : compiled.type = compiled'.type
  code : ∀ frame, (compiled.code frame).Matches Eq (compiled'.code frame)

namespace Compiled

variable {a b c : Compiled H}

theorem Matches.refl (a : Compiled H) : a.Matches a :=
  ⟨rfl, fun _ => Solve.Matches.refl (fun _ => rfl) _⟩

theorem Matches.trans (h : a.Matches b) (h' : b.Matches c) : a.Matches c :=
  ⟨h.type.trans h'.type, fun frame =>
    (h.code frame).trans (fun _ _ _ same same' => same.trans same') (h'.code frame)⟩

theorem Matches.within [HostObject H] (h : a.Matches b) (text text' : String) :
    (a.within text).Matches (b.within text') :=
  ⟨h.type, fun frame => (h.code frame).mapFailure _ _⟩

end Compiled

variable [HostObject H]

/-! ## Compiled operators -/

namespace CompilerInput

variable {c : CompilerInput H} {left left' right right' : Compiled H}

theorem matches_negateCode (h : right.Matches right') :
    Paired Compiled.Matches (c.negateCode right) (c.negateCode right') := by
  have going (f : Frame H → Value H → Except Failure (Value H)) (type : TypeInfo) :
      (⟨fun frame => right.code frame >>= fun v => Solve.ofExcept (f frame v), type⟩ :
        Compiled H).Matches
        ⟨fun frame => right'.code frame >>= fun v => Solve.ofExcept (f frame v), type⟩ := by
    refine ⟨rfl, fun frame => (h.code frame).bind fun v w same => ?_⟩
    rw [same]
    exact Solve.Matches.refl (fun _ => rfl) _
  unfold negateCode
  rw [h.type]
  cases right'.type with
  | number | any => exact .ok (going _ _)
  | bool | string | sequence | map | host =>
    dsimp only
    cases c.env.types.negation? _ with
    | none => exact .error _ _
    | some f => exact .ok (going _ _)

theorem matches_binaryCode (op : Operation) (hl : left.Matches left') (hr : right.Matches right') :
    Paired Compiled.Matches (c.binaryCode op left right) (c.binaryCode op left' right') := by
  have going (f : Frame H → Value H → Value H → Except Failure (Value H)) (type : TypeInfo) :
      (⟨fun frame => do
        let x ← left.code frame
        let y ← right.code frame
        Solve.ofExcept (f frame x y), type⟩ : Compiled H).Matches
        ⟨fun frame => do
          let x ← left'.code frame
          let y ← right'.code frame
          Solve.ofExcept (f frame x y), type⟩ := by
    refine ⟨rfl, fun frame => (hl.code frame).bind fun x x' sameL => ?_⟩
    refine (hr.code frame).bind fun y y' sameR => ?_
    rw [sameL, sameR]
    exact Solve.Matches.refl (fun _ => rfl) _
  unfold binaryCode
  dsimp only
  rw [hl.type, hr.type]
  split
  · exact .ok (going _ _)
  · cases c.env.types.plan? op left'.type right'.type with
    | none => exact .error _ _
    | some plan =>
      dsimp only
      split
      · exact .ok (going _ _)
      · exact .ok (going _ _)

theorem matches_propertyCode (name : String) (h : left.Matches left') :
    (c.propertyCode left name).Matches Compiled.Matches (c.propertyCode left' name) := by
  unfold propertyCode
  rw [h.type]
  split
  · refine Solve.matches_pure ⟨rfl, fun frame => (h.code frame).bind fun v w same => ?_⟩
    rw [same]
    exact Solve.Matches.refl (fun _ => rfl) _
  · refine (Solve.Matches.refl (fun _ => rfl) (c.env.member left'.type name)).bind ?_
    rintro found _ rfl
    cases found with
    | error cause => exact Solve.matches_throw _ _
    | ok m =>
      refine Solve.matches_pure ⟨rfl, fun frame => (h.code frame).bind fun v w same => ?_⟩
      rw [same]
      exact Solve.Matches.refl (fun _ => rfl) _

theorem matches_indexCode (hl : left.Matches left') (hr : right.Matches right') :
    Paired Compiled.Matches (indexCode left right) (indexCode left' right') := by
  unfold indexCode
  dsimp only
  rw [hl.type, hr.type]
  split
  case h_7 =>
    refine .ok ⟨rfl, fun frame => (hl.code frame).bind fun v v' sameL => ?_⟩
    refine (hr.code frame).bind fun k k' sameR => ?_
    rw [sameL, sameR]
    exact Solve.Matches.refl (fun _ => rfl) _
  all_goals exact .error _ _

theorem matches_transformCode (name : String) (h : right.Matches right') :
    Paired Compiled.Matches (c.transformCode name right) (c.transformCode name right') := by
  have going (f : Frame H → Value H → Except Failure (Value H)) (type : TypeInfo) :
      (⟨fun frame => right.code frame >>= fun v => Solve.ofExcept (f frame v), type⟩ :
        Compiled H).Matches
        ⟨fun frame => right'.code frame >>= fun v => Solve.ofExcept (f frame v), type⟩ := by
    refine ⟨rfl, fun frame => (h.code frame).bind fun v w same => ?_⟩
    rw [same]
    exact Solve.Matches.refl (fun _ => rfl) _
  unfold transformCode
  rw [h.type]
  cases c.env.functions.overloads? name with
  | none => exact .error _ _
  | some overloads =>
    dsimp only
    split
    · exact .ok (going _ _)
    · cases Transform.select? overloads right'.type c.env.types with
      | none => exact .error _ _
      | some t => exact .ok (going _ _)

end CompilerInput

/-! ## Terms -/

namespace Term

variable {left left' right right' t t' t'' : Term}

/-- Neither way of solving tells two terms apart: they are the same names, their evaluations match,
and they are compiled to code that matches. -/
structure Matches (H : Type) [HostObject H] (t t' : Term) : Prop where
  name : ∀ stage, Paired Eq (t.nameOperand stage) (t'.nameOperand stage)
  evaluate : ∀ (env : Environment H) bindings,
    (t.evaluate env bindings).Matches Eq (t'.evaluate env bindings)
  compile : ∀ c : CompilerInput H, (t.compile c).Matches Compiled.Matches (t'.compile c)

theorem Matches.refl (t : Term) : Matches H t t where
  name stage := by
    cases t.nameOperand stage with
    | ok name => exact .ok rfl
    | error e => exact .error e e
  evaluate _ _ := Solve.Matches.refl (fun _ => rfl) _
  compile _ := Solve.Matches.refl Compiled.Matches.refl _

theorem Matches.trans (h : Matches H t t') (h' : Matches H t' t'') : Matches H t t'' where
  name stage := by
    have first := h.name stage
    have second := h'.name stage
    generalize t.nameOperand stage = x, t'.nameOperand stage = y, t''.nameOperand stage = z
      at first second
    cases first with
    | ok same => cases second with | ok same' => exact .ok (same.trans same')
    | error => cases second with | error => exact .error _ _
  evaluate env bindings :=
    (h.evaluate env bindings).trans (fun _ _ _ same same' => same.trans same')
      (h'.evaluate env bindings)
  compile c := (h.compile c).trans (fun _ _ _ same same' => same.trans same') (h'.compile c)

-- A key is taken literally on both sides or on neither.
theorem Matches.key (h : Matches H right right') :
    (∃ key l r l' r', right = node (.name key) l r ∧ right' = node (.name key) l' r') ∨
      (∀ key l r, right = node (.name key) l r → False) ∧
        ∀ key l r, right' = node (.name key) l r → False := by
  have names := h.name Failure.solving
  generalize isLeft : right.nameOperand Failure.solving = x,
    isRight : right'.nameOperand Failure.solving = y at names
  cases names with
  | ok same =>
    subst same
    obtain ⟨l, r, rfl⟩ := nameOperand_ok_iff.mp isLeft
    obtain ⟨l', r', rfl⟩ := nameOperand_ok_iff.mp isRight
    exact .inl ⟨_, l, r, l', r', rfl, rfl⟩
  | error =>
    refine .inr ⟨?_, ?_⟩
    · rintro key l r rfl
      cases isLeft
    · rintro key l r rfl
      cases isRight

theorem evaluate_index (env : Environment H) (bindings : Bindings H) (left : Term) {right : Term}
    (evaluated : ∀ key l r, right = node (.name key) l r → False) :
    (node (.operator .index) left right).evaluate env bindings =
      Solve.mapFailure (Failure.within (node (.operator .index) left right).text) (do
        let owner ← left.evaluate env bindings
        let key ← right.evaluate env bindings
        Solve.ofExcept (env.index owner key)) := by
  rw [evaluate]
  split
  · exact (evaluated _ _ _ rfl).elim
  · rfl

theorem compile_index (c : CompilerInput H) (left : Term) {right : Term}
    (evaluated : ∀ key l r, right = node (.name key) l r → False) :
    (node (.operator .index) left right).compile c =
      Solve.mapFailure (Failure.within (node (.operator .index) left right).text) (do
        let owner ← left.compile c
        let key ← right.compile c
        let compiled ← Solve.ofExcept (CompilerInput.indexCode owner key)
        return compiled.within (node (.operator .index) left right).text) := by
  rw [compile]
  split
  · exact (evaluated _ _ _ rfl).elim
  · rfl

-- Operands may be exchanged for others that match.
theorem Matches.operator (hl : Matches H left left') (hr : Matches H right right')
    (op : Operation) :
    Matches H (node (.operator op) left right) (node (.operator op) left' right') where
  name stage := .error _ _
  evaluate env bindings := by
    have evaluated := hl.evaluate env bindings
    have evaluated' := hr.evaluate env bindings
    have going {r : Except Failure (Value H)} :
        (Solve.ofExcept r : Solve H (Value H)).Matches Eq (Solve.ofExcept r) :=
      Solve.Matches.refl (fun _ => rfl) _
    cases op with
    | negate =>
      refine Solve.Matches.mapFailure (evaluated'.bind ?_) _ _
      rintro x _ rfl
      exact going
    | property =>
      refine Solve.Matches.mapFailure (evaluated.bind ?_) _ _
      rintro owner _ rfl
      refine (Solve.matches_ofExcept (hr.name _)).bind ?_
      rintro name _ rfl
      exact Solve.Matches.refl (fun _ => rfl) _
    | index =>
      have indexed {key key' : Solve H (Value H)} (matching : key.Matches Eq key') :
          (do
            let owner ← left.evaluate env bindings
            let k ← key
            Solve.ofExcept (env.index owner k) : Solve H (Value H)).Matches Eq (do
              let owner ← left'.evaluate env bindings
              let k ← key'
              Solve.ofExcept (env.index owner k)) := by
        refine evaluated.bind ?_
        rintro owner _ rfl
        refine matching.bind ?_
        rintro key _ rfl
        exact going
      obtain ⟨key, l, r, l', r', rfl, rfl⟩ | ⟨named, named'⟩ := hr.key
      · rw [Term.evaluate, Term.evaluate]
        exact (indexed (Solve.matches_pure rfl)).mapFailure _ _
      · rw [evaluate_index _ _ _ named, evaluate_index _ _ _ named']
        exact (indexed evaluated').mapFailure _ _
    | transform =>
      refine Solve.Matches.mapFailure ((Solve.matches_ofExcept (hl.name _)).bind ?_) _ _
      rintro name _ rfl
      refine evaluated'.bind ?_
      rintro x _ rfl
      exact going
    | _ =>
      refine Solve.Matches.mapFailure (evaluated.bind ?_) _ _
      rintro x _ rfl
      refine evaluated'.bind ?_
      rintro y _ rfl
      exact going
  compile c := by
    have compiled := hl.compile c
    have compiled' := hr.compile c
    cases op with
    | negate =>
      refine Solve.Matches.mapFailure (compiled'.bind fun x x' operand => ?_) _ _
      refine (Solve.matches_ofExcept (CompilerInput.matches_negateCode operand)).bind ?_
      exact fun y y' built => Solve.matches_pure (built.within _ _)
    | property =>
      refine Solve.Matches.mapFailure (compiled.bind fun x x' owner => ?_) _ _
      refine (Solve.matches_ofExcept (hr.name _)).bind ?_
      rintro name _ rfl
      refine (CompilerInput.matches_propertyCode name owner).bind ?_
      exact fun y y' built => Solve.matches_pure (built.within _ _)
    | index =>
      have indexed {key key' : Solve H (Compiled H)} (matching : key.Matches Compiled.Matches key')
          (text text' : String) :
          (do
            let owner ← left.compile c
            let k ← key
            let compiled ← Solve.ofExcept (CompilerInput.indexCode owner k)
            return compiled.within text : Solve H (Compiled H)).Matches Compiled.Matches (do
              let owner ← left'.compile c
              let k ← key'
              let compiled ← Solve.ofExcept (CompilerInput.indexCode owner k)
              return compiled.within text') := by
        refine compiled.bind fun x x' owner => ?_
        refine matching.bind fun k k' key => ?_
        refine (Solve.matches_ofExcept (CompilerInput.matches_indexCode owner key)).bind ?_
        exact fun y y' built => Solve.matches_pure (built.within _ _)
      obtain ⟨key, l, r, l', r', rfl, rfl⟩ | ⟨named, named'⟩ := hr.key
      · rw [Term.compile, Term.compile]
        exact (indexed (Solve.matches_pure (.refl _)) _ _).mapFailure _ _
      · rw [compile_index _ _ named, compile_index _ _ named']
        exact (indexed compiled' _ _).mapFailure _ _
    | transform =>
      refine Solve.Matches.mapFailure ((Solve.matches_ofExcept (hl.name _)).bind ?_) _ _
      rintro name _ rfl
      refine compiled'.bind fun x x' argument => ?_
      refine (Solve.matches_ofExcept (CompilerInput.matches_transformCode name argument)).bind ?_
      exact fun y y' built => Solve.matches_pure (built.within _ _)
    | _ =>
      refine Solve.Matches.mapFailure (compiled.bind fun x x' first => ?_) _ _
      refine compiled'.bind fun y y' second => ?_
      refine (Solve.matches_ofExcept (CompilerInput.matches_binaryCode _ first second)).bind ?_
      exact fun y y' built => Solve.matches_pure (built.within _ _)

-- The operands of anything else have no part in solving.
theorem Matches.leaf {token : Token} (plain : token.operation? = none)
    (left right left' right' : Term) :
    Matches H (node token left right) (node token left' right') where
  name stage := by
    cases token with
    | operator op => cases plain
    | name text => exact .ok rfl
    | _ => exact .error _ _
  evaluate env bindings := by
    cases token with
    | operator op => cases plain
    | _ => exact Solve.Matches.mapFailure (Solve.Matches.refl (fun _ => rfl) _) _ _
  compile c := by
    cases token with
    | operator op => cases plain
    | _ => exact Solve.Matches.mapFailure (Solve.Matches.refl Compiled.Matches.refl _) _ _

/-! ## Folding -/

-- A literal is evaluated, and compiled, to its number.
theorem number?_matches {x : Float} (h : t.number? = some x) :
    Matches H t (.leaf (.number x)) := by
  unfold number? at h
  split at h
  case h_1 =>
    cases h
    exact .leaf rfl _ _ _ _
  case h_2 => cases h

-- A number is negated natively, whatever is registered for numbers.
theorem negate_matches (left : Term) (x : Float) :
    Matches H (node (.operator .negate) left (.leaf (.number x))) (.leaf (.number (-x))) where
  name _ := .error _ _
  evaluate _ _ _ := ⟨.ok rfl, rfl⟩
  compile _ _ := ⟨.ok ⟨rfl, fun _ _ => ⟨.ok rfl, rfl⟩⟩, rfl⟩

-- Numbers are combined natively, whatever is registered for numbers.
theorem binary_matches {op : Operation} (arithmetic : op.isArithmetic = true ∨ op = .power)
    {x y z : Float} (native : op.onNumbers? x y = some z) :
    Matches H (node (.operator op) (.leaf (.number x)) (.leaf (.number y)))
      (.leaf (.number z)) := by
  cases op with
  | negate | property | index | transform => simp [Operation.isArithmetic] at arithmetic
  | _ =>
    cases native
    exact ⟨fun _ => .error _ _, fun _ _ _ => ⟨.ok rfl, rfl⟩,
      fun _ _ => ⟨.ok ⟨rfl, fun _ _ => ⟨.ok rfl, rfl⟩⟩, rfl⟩⟩

theorem matches_folded (op : Operation) (left right : Term) :
    Matches H (node (.operator op) left right) (folded op left right) := by
  unfold folded
  split
  case h_2 => exact .refl _
  case h_1 z found =>
    unfold value? at found
    split at found
    case isTrue negation =>
      subst negation
      obtain ⟨x, literal, found⟩ := Option.bind_eq_some_iff.mp found
      cases found
      exact ((Matches.refl left).operator (number?_matches literal) .negate).trans
        (negate_matches left x)
    case isFalse =>
      split at found
      case isTrue arithmetic =>
        obtain ⟨x, literal, found⟩ := Option.bind_eq_some_iff.mp found
        obtain ⟨y, literal', native⟩ := Option.bind_eq_some_iff.mp found
        exact ((number?_matches literal).operator (number?_matches literal') op).trans
          (binary_matches arithmetic native)
      case isFalse => cases found

/-- Neither way of solving tells a term from the folded one. -/
theorem matches_fold (t : Term) : Matches H t t.fold := by
  induction t with
  | absent => exact .refl _
  | node token left right hl hr =>
    cases token with
    | operator op => exact (hl.operator hr op).trans (matches_folded op _ _)
    | _ => exact .leaf rfl _ _ _ _

end Term

/-! ## Formulas -/

/-- Compiled formulas that expect the same inputs and whose solves match. -/
structure FastFormula.Matches (f f' : FastFormula H) : Prop where
  inputs : f.inputs = f'.inputs
  solve : ∀ env values, (f.solve env values).Matches Eq (f'.solve env values)

namespace Formula

variable {f f' : Formula}

theorem solve_matches (same : f.specification = f'.specification)
    (h : Term.Matches H f.term f'.term) (env : Environment H) (inputs : List (Value H)) :
    (f.solve env inputs).Matches Eq (f'.solve env inputs) := by
  unfold solve Term.solve
  rw [same]
  refine (Solve.matches_ofExcept (paired_mapError _ _ _)).bind ?_
  rintro bindings _ rfl
  refine ((h.evaluate env bindings).mapFailure _ _).bind ?_
  rintro v _ rfl
  exact Solve.matches_pure rfl

theorem compile_matches (same : f.specification = f'.specification)
    (h : Term.Matches H f.term f'.term) (env : Environment H) (initial : List (Value H)) :
    (f.compile env initial).Matches FastFormula.Matches (f'.compile env initial) := by
  unfold compile
  rw [same]
  refine (Solve.Matches.refl (fun _ => rfl) _).bind ?_
  rintro c _ rfl
  refine (h.compile c).bind fun compiled compiled' matching => Solve.matches_pure ⟨rfl, ?_⟩
  intro env values
  refine (Solve.matches_ofExcept (paired_mapError _ _ _)).bind ?_
  rintro bindings _ rfl
  refine ((matching.code _).mapFailure _ _).bind ?_
  rintro v _ rfl
  exact Solve.matches_pure rfl

end Formula

namespace Tree

/-- Reducing a tree without raw text leaves a tree of the folded term. -/
theorem reduce_term {t : Tree} {L : Layout} {root : NodeId} (held : t.Has (L.slots none))
    (isRoot : L.root? = some root) (expanded : L.term.IsExpanded) :
    ∃ root' t', Expression.reduce t root = (.ok root', t') ∧
      t'.term root' = (t.term root).fold := by
  have rooted : Reduction.Rooted Expression.parse :=
    fun raw _ read => Expression.rooted_parseWithin raw.length raw _ read
  have compacted := reduce_held rooted held isRoot
  rw [expanded.reduce_eq] at compacted
  have read : t.term root = L.term := by
    cases L with
    | absent => cases isRoot
    | node id token l r =>
      cases isRoot
      exact Has.term (held.congr (add_zero _).symm)
  rw [read]
  cases reduced : (t.reduce Expression.parse root).1 with
  | error e =>
    simp only [reduced] at compacted
    cases compacted
  | ok root' =>
    simp only [reduced] at compacted
    refine ⟨root', (Expression.reduce t root).2, Prod.ext reduced rfl, ?_⟩
    have planted : Tree.empty.plant ((Expression.reduce t root).2.term root') =
        Tree.empty.plant L.term.fold :=
      Except.ok.inj compacted
    have terms := congrArg (fun t => t.term Tree.first) planted
    simpa only [Has.term_plant] using terms

end Tree

namespace Expression

/-- Reducing a tree without raw text is not observed.  The terms before and after match, and so do
formulas of them under one specification: solved by their trees they have the same values, and if
one of them can be compiled then both can, to formulas that expect the same inputs and have the same
values. -/
theorem reduce_matches {t : Tree} {L : Layout} {root : NodeId} (held : t.Has (L.slots none))
    (isRoot : L.root? = some root) (expanded : L.term.IsExpanded) :
    ∃ root' t', reduce t root = (.ok root', t') ∧
      Term.Matches H (t.term root) (t'.term root') ∧
      ∀ s : Specification,
        (∀ (env : Environment H) inputs cache v,
          ((Formula.solve env ⟨s, t'.compact root'⟩ inputs).exec cache).1 = .ok v ↔
            ((Formula.solve env ⟨s, t.compact root⟩ inputs).exec cache).1 = .ok v) ∧
        ∀ (env : Environment H) initial,
          (Formula.compile env ⟨s, t.compact root⟩ initial).Matches FastFormula.Matches
            (Formula.compile env ⟨s, t'.compact root'⟩ initial) := by
  obtain ⟨root', t', reduced, folded⟩ := Tree.reduce_term held isRoot expanded
  have matching : Term.Matches H (t.term root) (t'.term root') := by
    rw [folded]
    exact Term.matches_fold _
  refine ⟨root', t', reduced, matching, fun s => ?_⟩
  have terms : Term.Matches H (Formula.term ⟨s, t.compact root⟩)
      (Formula.term ⟨s, t'.compact root'⟩) := by
    unfold Formula.term Tree.compact
    rw [Tree.Has.term_plant, Tree.Has.term_plant]
    exact matching
  refine ⟨fun env inputs cache v => ?_, Formula.compile_matches rfl terms⟩
  have solved : (Formula.solve env ⟨s, t.compact root⟩ inputs).Matches Eq
      (Formula.solve env ⟨s, t'.compact root'⟩ inputs) :=
    Formula.solve_matches (by rfl) terms env inputs
  exact (solved.ok_iff cache v).symm

/-- A variable times the negative of a sum of literals. -/
def product : Term :=
  .node (.operator .multiply) (.leaf (.var "x")) <|
    .node (.operator .negate) .absent <|
      .node (.operator .add) (.leaf (.number 2)) (.leaf (.number 3))

/-- The usual environment with an addition and a negation of its own for numbers. -/
def overloaded : Environment Empty :=
  let zero := Value.number 0
  let d := (TypeDescriptor.bare .number).withOperator .add .number .number .number
    fun _ _ => .ok zero
  (Context.usual.registerType (d.withNegation fun _ => .ok zero) []).env

/-- A declaration of one number. -/
def ofNumber : Specification :=
  ⟨"f", [("x", .number)], true, by decide⟩

-- What is registered for numbers has no part in the value of the product, folded or not.
theorem reduce_matches_product :
    ∃ root' t', reduce (Tree.empty.plant product) Tree.first = (.ok root', t') ∧
      ∀ cache v,
        ((Formula.solve overloaded ⟨ofNumber, t'.compact root'⟩ [.number 7]).exec cache).1 = .ok v ↔
          v = .number (7 * -(2 + 3)) := by
  have isRoot : (Layout.ofTerm Tree.empty.size product).root? = some Tree.first := rfl
  have expanded : product.IsExpanded := by
    simp [product, Term.IsExpanded, Term.leaf, Token.isUnexpanded]
  obtain ⟨root', t', reduced, -, solves⟩ := reduce_matches (H := Empty)
    (((Tree.Has.empty Tree.empty).plant product).congr (add_zero _)) isRoot
    ((Layout.term_ofTerm _ _).symm ▸ expanded)
  refine ⟨root', t', reduced, fun cache v => ?_⟩
  have valued : ((Formula.solve overloaded ⟨ofNumber, (Tree.empty.plant product).compact Tree.first⟩
      [.number 7]).exec cache).1 = .ok (.number (7 * -(2 + 3))) := rfl
  rw [(solves ofNumber).1, valued, Except.ok.injEq, eq_comm]

end Expression

end FormulaLang
