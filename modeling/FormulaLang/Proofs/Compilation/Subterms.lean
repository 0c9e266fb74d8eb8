import FormulaLang.Proofs.Compilation.Transparency
import FormulaLang.Proofs.Typing.Declared

/-!
The compiled parts of a term.  Compiling a term compiles every term below it that is evaluated, each
of them to code of its own, and it does not get far when one of them cannot be compiled.
-/

namespace FormulaLang

variable {H : Type} [HostObject H]

namespace Solve

variable {α : Type} {types : TypeRegistry H}

-- The value that a transparent solve returns is the one it returns from every coherent cache.
theorem Ensures.gives {m : Solve H α} {P : α → Prop} (h : m.Ensures types P)
    (transparent : m.Transparent types) : m.Ensures types fun a => P a ∧ m.Gives types (.ok a) := by
  obtain ⟨r, gives⟩ := transparent
  intro c coherent
  obtain ⟨ensured, kept⟩ := h c coherent
  refine ⟨fun a ha => ⟨ensured a ha, ?_⟩, kept⟩
  rw [← ha, (gives c coherent).1]
  exact gives

theorem Ensures.imp {m : Solve H α} {P Q : α → Prop} (h : m.Ensures types P)
    (implies : ∀ a, P a → Q a) : m.Ensures types Q := by
  intro c coherent
  obtain ⟨ensured, kept⟩ := h c coherent
  exact ⟨fun a ha => implies a (ensured a ha), kept⟩

-- What holds anyway also holds after a transparent solve.
theorem Transparent.ensures {m : Solve H α} (h : m.Transparent types) {P : Prop} (hP : P) :
    m.Ensures types fun _ => P := by
  obtain ⟨r, gives⟩ := h
  exact gives.ensures fun _ _ => hP

end Solve

namespace Term

/-- The term and the terms below it that evaluating it evaluates.  The names of members and
functions are not among them, and neither are literal keys. -/
def evaluated : Term → List Term
  | absent => [absent]
  | node token left right =>
      node token left right ::
        match token with
        | .number _ | .var _ | .name _ | .group _ | .magnitude _ => []
        | .operator .negate | .operator .transform => right.evaluated
        | .operator .property => left.evaluated
        | .operator .index =>
            left.evaluated ++
              match right with
              | node (.name _) _ _ => []
              | right => right.evaluated
        | .operator _ => left.evaluated ++ right.evaluated

theorem mem_evaluated_self (t : Term) : t ∈ t.evaluated := by
  cases t with
  | absent => exact List.mem_singleton_self _
  | node token left right =>
    unfold evaluated
    exact List.mem_cons_self

theorem evaluated_owner (owner key : Term) :
    owner.evaluated ⊆ (node (.operator .index) owner key).evaluated := by
  intro s mem
  unfold evaluated
  exact List.mem_cons_of_mem _ (List.mem_append_left _ mem)

theorem evaluated_key (owner : Term) {key : Term}
    (evaluated : ∀ name l r, key = node (.name name) l r → False) :
    key.evaluated ⊆ (node (.operator .index) owner key).evaluated := by
  intro s mem
  unfold Term.evaluated
  refine List.mem_cons_of_mem _ (List.mem_append_right _ ?_)
  split
  · exact absurd rfl (evaluated _ _ _)
  · exact mem

-- A literal key is not evaluated.
theorem evaluated_index {owner key s : Term}
    (mem : s ∈ (node (.operator .index) owner key).evaluated) :
    s = node (.operator .index) owner key ∨ s ∈ owner.evaluated
      ∨ s ∈ key.evaluated ∧ ∀ name l r, key = node (.name name) l r → False := by
  unfold evaluated at mem
  refine (List.mem_cons.mp mem).imp_right fun operand => ?_
  refine (List.mem_append.mp operand).imp_right fun inKey => ?_
  split at inKey
  next => cases inKey
  next evaluated => exact ⟨inKey, evaluated⟩

/-- Compiling a term yields `compiled`, whatever members are cached. -/
def Compiles (c : CompilerInput H) (t : Term) (compiled : Compiled H) : Prop :=
  (t.compile c).Gives c.env.types (.ok compiled)

variable {c : CompilerInput H}

-- It is enough to compile without a cache.
theorem compiles_of_off {t : Term} {compiled : Compiled H}
    (built : ((t.compile c).exec .off).1 = .ok compiled) : t.Compiles c compiled := by
  obtain ⟨r, gives⟩ := t.transparent_compile c
  have off := (gives _ (MemberCache.coherent_off c.env.types)).1
  rw [built] at off
  rw [Compiles, off]
  exact gives

/-- Whatever is evaluated in a term that can be compiled can be compiled on its own. -/
theorem compile_evaluated (c : CompilerInput H) (t : Term) :
    (t.compile c).Ensures c.env.types fun _ =>
      ∀ s ∈ t.evaluated, ∃ compiled, s.Compiles c compiled := by
  have built (r : Except Failure (Compiled H)) (text : String) :
      (do
        let compiled ← Solve.ofExcept r
        return compiled.within text : Solve H (Compiled H)).Transparent c.env.types :=
    (Solve.transparent_ofExcept r).bind fun _ => Solve.transparent_ofExcept (.ok _)
  induction t with
  | absent => exact (Solve.gives_throw _).ensures fun _ h => by cases h
  | node token left right hl hr =>
    have below : ((node token left right).compile c).Ensures c.env.types fun _ =>
        ∀ s ∈ (node token left right).evaluated,
          s = node token left right ∨ ∃ compiled, s.Compiles c compiled := by
      cases token with
      | operator op =>
        cases op with
        | negate =>
          rw [compile]
          refine (hr.bind fun operand parts => (built _ _).ensures ?_).mapFailure _
          intro s mem
          exact (List.mem_cons.mp mem).imp_right (parts s)
        | property =>
          rw [compile]
          refine Solve.Ensures.mapFailure ?_ _
          refine hl.bind fun owner parts => ?_
          refine Solve.Transparent.ensures ?_ ?_
          · exact (Solve.transparent_ofExcept _).bind fun name =>
              (CompilerInput.transparent_lookup owner name).bind fun _ =>
                Solve.transparent_ofExcept (.ok _)
          · intro s mem
            exact (List.mem_cons.mp mem).imp_right (parts s)
        | index =>
          rw [compile]
          refine Solve.Ensures.mapFailure ?_ _
          refine hl.bind fun owner partsL => ?_
          -- a name on the right is a key, and everything else is compiled
          split
          · refine Solve.Ensures.bind ((Solve.gives_pure _).ensures fun _ h => h) fun key _ => ?_
            refine (built _ _).ensures fun s mem => (evaluated_index mem).imp_right fun operand => ?_
            exact operand.elim (partsL s) fun inKey => absurd rfl (inKey.2 _ _ _)
          · refine hr.bind fun key partsR => ?_
            refine (built _ _).ensures fun s mem => (evaluated_index mem).imp_right fun operand => ?_
            exact operand.elim (partsL s) fun inKey => partsR s inKey.1
        | transform =>
          rw [compile]
          refine Solve.Ensures.mapFailure ?_ _
          refine ((Solve.gives_ofExcept _).ensures fun _ h => h).bind fun name _ => ?_
          refine hr.bind fun argument parts => (built _ _).ensures ?_
          intro s mem
          exact (List.mem_cons.mp mem).imp_right (parts s)
        | _ =>
          refine Solve.Ensures.mapFailure ?_ _
          refine hl.bind fun x partsL => hr.bind fun y partsR => (built _ _).ensures ?_
          intro s mem
          refine (List.mem_cons.mp mem).imp_right fun operand => ?_
          exact (List.mem_append.mp operand).elim (partsL s) (partsR s)
      | _ =>
        refine (transparent_compile c _).ensures fun s mem => .inl ?_
        exact List.mem_singleton.mp mem
    refine (below.gives (transparent_compile c _)).imp fun compiled both s mem => ?_
    obtain ⟨parts, whole⟩ := both
    rcases parts s mem with rfl | part
    · exact ⟨compiled, whole⟩
    · exact part

/-! ## Negations of declared types -/

/-- Each negation that compiling the term resolves by the type of the operand stays in this type.
Numbers are negated natively. -/
def NegationsStay (c : CompilerInput H) (t : Term) : Prop :=
  ∀ left operand, node (.operator .negate) left operand ∈ t.evaluated →
    ∀ compiled, operand.Compiles c compiled →
      compiled.type = .number ∨ c.env.types.KeepsNegated compiled.type

theorem negationsStay_of_honest (honest : c.env.Honest) (t : Term) : t.NegationsStay c :=
  fun _ _ _ compiled _ => .inr (honest.types.keepsNegated compiled.type)

theorem NegationsStay.of_subset {s t : Term} (h : t.NegationsStay c)
    (below : s.evaluated ⊆ t.evaluated) : s.NegationsStay c :=
  fun left operand negated => h left operand (below negated)

end Term

end FormulaLang
