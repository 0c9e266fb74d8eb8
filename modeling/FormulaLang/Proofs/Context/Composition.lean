import FormulaLang.Proofs.Context.Agreement
import FormulaLang.Proofs.Evaluation.Substitution
import FormulaLang.Proofs.Reduction.Expanded

/-!
Composition.  A formula put together from declarations is solved like its last source after the
declarations have been evaluated one after the other, each in the bindings that those before it
leave.  Declarations may repeat a name, use the name that they declare, and shadow the inputs.
-/

namespace FormulaLang

/-- A term with declarations put in, those that come last first. -/
def Term.lets (declared : List (String × Tree)) (t : Term) : Term :=
  declared.foldr (fun d t => t.subst d.1 (d.2.term Tree.first)) t

namespace Formula

/-! ## Putting declarations in -/

variable {H : Type} {types : TypeRegistry H}

theorem parse_of_parseDeclaration {source name : String} {sub : Tree}
    (h : parseDeclaration source types = .ok (name, sub)) :
    ∃ expression, Expression.parse expression = .ok sub := by
  unfold parseDeclaration at h
  split at h
  case h_1 => cases h
  case h_2 declared expression split =>
    obtain ⟨s, -, h⟩ := ok_of_bind h
    dsimp only at h
    split at h
    · cases h
    · split at h
      · cases h
      · obtain ⟨t, parsed, h⟩ := ok_of_bind h
        cases h
        exact ⟨expression, parsed⟩

theorem declares_of_substituteAll {sources : List String} {result result' : Tree × NodeId}
    (composed : substituteAll types sources result = .ok result') :
    ∃ declared, List.Forall₂ (fun source d => parseDeclaration source types = .ok d) sources
      declared := by
  induction sources generalizing result with
  | nil => exact ⟨[], .nil⟩
  | cons source rest ih =>
    obtain ⟨d, declares, composed⟩ := ok_of_bind composed
    obtain ⟨declared, all⟩ := ih composed
    exact ⟨d :: declared, .cons declares all⟩

/-- Declarations that are put in one after the other leave a tree of the term with all of them. -/
theorem substituteAll_held {sources : List String} {declared : List (String × Tree)}
    (declares : List.Forall₂ (fun source d => parseDeclaration source types = .ok d) sources declared)
    {t : Tree} {root : NodeId} {L : Layout} (h : t.Has (L.slots none)) (isRoot : L.root? = some root)
    (expanded : L.term.IsExpanded) :
    ∃ t' root', ∃ L' : Layout, substituteAll types sources (t, root) = .ok (t', root')
      ∧ t'.Has (L'.slots none) ∧ L'.root? = some root' ∧ L'.term.IsExpanded
      ∧ L'.term = Term.lets declared.reverse L.term := by
  induction declares generalizing t root L with
  | nil => exact ⟨t, root, L, rfl, h, isRoot, expanded, rfl⟩
  | @cons source d rest declared declares all ih =>
    obtain ⟨name, sub⟩ := d
    obtain ⟨expression, parsed⟩ := parse_of_parseDeclaration declares
    have there := Expression.rooted_parseWithin _ _ _ parsed
    obtain ⟨t₁, L₁, root₁, substituted, isRoot₁, term, held⟩ :=
      substitute_held (S := 0) there (h.congr (add_zero _).symm) isRoot
    have expanded₁ : L₁.term.IsExpanded := by
      rw [term]
      exact expanded.subst (Expression.isExpanded_parseWithin parsed) name
    obtain ⟨t', root', L', composed, held', isRoot', expanded', whole⟩ :=
      ih (held.congr (add_zero _)) isRoot₁ expanded₁
    refine ⟨t', root', L', ?_, held', isRoot', expanded', ?_⟩
    · rw [substituteAll, declares]
      dsimp only [bind, Except.bind]
      rw [substituted]
      exact composed
    · rw [whole, term, Term.lets, Term.lets, List.reverse_cons, List.foldr_append]
      rfl

theorem tree_of_specify {declared? : Option String} {t : Tree} {f : Formula}
    (h : specify types declared? t = .ok f) : f.tree = t := by
  unfold specify at h
  split at h
  · obtain ⟨s, -, rfl⟩ := ok_of_map h
    rfl
  · cases h
    rfl

/-- Declarations and a last source that are read compose to the last source with the declarations
put in, folded. -/
theorem compose_eq {declarations : List String} {declared : List (String × Tree)} {last : String}
    {main : Tree}
    (declares : List.Forall₂ (fun source d => parseDeclaration source types = .ok d) declarations
      declared)
    (parsed : Expression.parse (Expression.splitDeclaration last).2 = .ok main) :
    compose (declarations ++ [last]) types
      = specify types (Expression.splitDeclaration last).1
          (Tree.empty.plant (Term.lets declared (main.term Tree.first)).fold) := by
  obtain ⟨inner, built, u, -, -, -, -, there, rfl⟩ := Expression.parseWithin_cases parsed
  have planted : (Tree.empty.plant u).Has ((Layout.ofTerm Tree.first u).slots none) :=
    ((Tree.Has.empty Tree.empty).plant u).congr (add_zero _)
  have isRoot : (Layout.ofTerm Tree.first u).root? = some Tree.first := by
    cases u with
    | absent => exact absurd rfl there
    | node token left right => rfl
  have whole : (Layout.ofTerm Tree.first u).term = (Tree.empty.plant u).term Tree.first := by
    rw [Layout.term_ofTerm, Tree.Has.term_plant]
  have expanded := Expression.isExpanded_parseWithin parsed
  rw [← whole] at expanded
  obtain ⟨t, root, L, substituted, held, isRoot', expanded', term⟩ :=
    substituteAll_held (List.forall₂_reverse_iff.mpr declares) planted isRoot expanded
  rw [List.reverse_reverse, whole] at term
  have rooted : Reduction.Rooted Expression.parse :=
    fun raw _ read => Expression.rooted_parseWithin raw.length raw _ read
  have compacted := Tree.reduce_held rooted held isRoot'
  rw [expanded'.reduce_eq, term] at compacted
  have backwards : (declarations ++ [last]).reverse = last :: declarations.reverse :=
    List.reverse_concat ..
  rw [compose, backwards]
  dsimp only
  rw [parsed]
  dsimp only [bind, Except.bind]
  rw [substituted]
  obtain ⟨root', reduced, compacted⟩ := ok_of_bind compacted
  have reduced : (Expression.reduce t root).1 = .ok root' := reduced
  dsimp only
  rw [reduced]
  exact congrArg (specify types _) (Except.ok.inj compacted)

/-- A composed formula is the last source with the declarations put in, folded. -/
theorem compose_term {sources : List String} {f : Formula} (composed : compose sources types = .ok f) :
    ∃ declarations last declared main, sources = declarations ++ [last]
      ∧ List.Forall₂ (fun source d => parseDeclaration source types = .ok d) declarations declared
      ∧ Expression.parse (Expression.splitDeclaration last).2 = .ok main
      ∧ f.term = (Term.lets declared (main.term Tree.first)).fold := by
  have split := composed
  unfold compose at split
  split at split
  case h_1 => cases split
  case h_2 last reversed backwards =>
  obtain rfl : sources = reversed.reverse ++ [last] := by
    rw [← List.reverse_cons, ← backwards, List.reverse_reverse]
  dsimp only at split
  obtain ⟨main, parsed, split⟩ := ok_of_bind split
  obtain ⟨result, substituted, -⟩ := ok_of_bind split
  obtain ⟨declared, declares⟩ := declares_of_substituteAll substituted
  have declares := List.forall₂_reverse_iff.mpr declares
  refine ⟨reversed.reverse, last, declared.reverse, main, rfl, declares, parsed, ?_⟩
  rw [compose_eq declares parsed] at composed
  rw [Formula.term, tree_of_specify composed, Tree.Has.term_plant]

end Formula

namespace Context

variable {H : Type} {c : Context H}

/-! ## Formulas of a context -/

/-- The formulas that a context makes of texts. -/
inductive Reads (c : Context H) : Formula → Prop where
  | parse {source : String} {f : Formula} (h : c.parse source = .ok f) : Reads c f
  | compose {sources : List String} {f : Formula} (h : c.compose sources = .ok f) : Reads c f

-- Either way the specification is declared or inferred.
theorem Reads.specified {f : Formula} (h : c.Reads f) :
    ∃ declared? t, Formula.specify c.env.types declared? t = .ok f := by
  cases h with
  | parse h =>
    obtain ⟨t, -, h⟩ := ok_of_bind h
    exact ⟨_, t, h⟩
  | @compose sources f h =>
    unfold Context.compose Formula.compose at h
    split at h
    case h_1 => cases h
    case h_2 =>
      dsimp only at h
      obtain ⟨main, -, h⟩ := ok_of_bind h
      obtain ⟨⟨t, root⟩, -, h⟩ := ok_of_bind h
      obtain ⟨root', -, h⟩ := ok_of_bind h
      exact ⟨_, _, h⟩

/-! ## Evaluating declarations -/

variable [HostObject H]

/-- Declarations have values when they are evaluated one after the other, each in the bindings that
those before it leave, and each binds its name to its value. -/
inductive Declares (c : Context H) : List (String × Tree) → Bindings H → Bindings H → Prop where
  | nil (bindings : Bindings H) : Declares c [] bindings bindings
  | cons {name : String} {t : Tree} {rest : List (String × Tree)} {bindings bindings' : Bindings H}
      {v : Value H}
      (valued : (c.run fun env => (t.term Tree.first).evaluate env bindings).1 = .ok v)
      (declares : Declares c rest (Keyed.insert name v bindings) bindings') :
      Declares c ((name, t) :: rest) bindings bindings'

-- In a reachable context, evaluating yields the value.
theorem Reachable.evaluates (h : c.Reachable) (t : Term) (bindings : Bindings H) :
    (c.run fun env => t.evaluate env bindings).1 = t.value c.env bindings :=
  h.run_of_gives (t.evaluate_gives c.env bindings)

theorem Declares.agrees {declared : List (String × Tree)} {bindings bindings' : Bindings H}
    (h : c.Declares declared bindings bindings') (reachable : c.Reachable) (t : Term) :
    Term.Agrees c.env bindings bindings' (t.lets declared) t := by
  induction h with
  | nil => exact .refl t
  | cons valued declares ih =>
    rw [reachable.evaluates] at valued
    exact (Term.subst_agrees valued _).trans ih

/-- Where all declarations have values, a composed formula has the values that its last source has
in the bindings that the declarations leave. -/
theorem evaluate_composed {composer : Context H} {sources : List String} {f : Formula}
    (composed : composer.compose sources = .ok f) :
    ∃ declarations last declared main, sources = declarations ++ [last]
      ∧ List.Forall₂ (fun source d => Formula.parseDeclaration source composer.env.types = .ok d)
          declarations declared
      ∧ Expression.parse (Expression.splitDeclaration last).2 = .ok main
      ∧ ∀ c : Context H, c.Reachable → ∀ bindings bindings',
          c.Declares declared bindings bindings' → ∀ v,
            (c.run fun env => f.term.evaluate env bindings).1 = .ok v ↔
              (c.run fun env => (main.term Tree.first).evaluate env bindings').1 = .ok v := by
  obtain ⟨declarations, last, declared, main, split, declares, parsed, term⟩ :=
    Formula.compose_term composed
  refine ⟨declarations, last, declared, main, split, declares, parsed, ?_⟩
  intro c reachable bindings bindings' evaluated v
  rw [reachable.evaluates, reachable.evaluates, term, (Term.fold_agrees _).value]
  exact (evaluated.agrees reachable _).value v

/-- An operator over two variables. -/
def between (op : Operation) (left right : String) : Tree :=
  Tree.empty.plant (.node (.operator op) (.leaf (.var left)) (.leaf (.var right)))

/-- A parameter that is declared, and declared again from itself. -/
def shadowing : List String := ["x = x - y", "x = x * x", "f(x, y) = x / y"]

theorem parseDeclaration_shadowing :
    Formula.parseDeclaration "x = x - y" usual.env.types = .ok ("x", between .subtract "x" "y") ∧
      Formula.parseDeclaration "x = x * x" usual.env.types = .ok ("x", between .multiply "x" "x") :=
  ⟨ok_of_toOption (by decide +kernel), ok_of_toOption (by decide +kernel)⟩

theorem parse_shadowing :
    Expression.parse (Expression.splitDeclaration "f(x, y) = x / y").2 =
      .ok (between .divide "x" "y") :=
  ok_of_toOption (by decide +kernel)

-- Each declaration changes what the next one finds.
theorem declares_shadowing :
    usual.Declares [("x", between .subtract "x" "y"), ("x", between .multiply "x" "x")]
      [("x", .number 5), ("y", .number 2)]
      [("x", .number ((5 - 2) * (5 - 2))), ("y", .number 2)] :=
  .cons rfl (.cons rfl (.nil _))

theorem evaluate_composed_shadowing :
    ∃ f, usual.compose shadowing = .ok f ∧
      (usual.run fun env => f.term.evaluate env [("x", .number 5), ("y", .number 2)]).1 =
        .ok (.number ((5 - 2) * (5 - 2) / 2)) := by
  have accepted : (usual.compose shadowing).isOk = true := by decide +kernel
  cases composed : usual.compose shadowing with
  | error e =>
    rw [composed] at accepted
    cases accepted
  | ok f =>
    refine ⟨f, rfl, ?_⟩
    obtain ⟨declarations, last, declared, main, split, declares, parsed, agrees⟩ :=
      evaluate_composed composed
    have ends := List.append_inj'
      (show ["x = x - y", "x = x * x"] ++ ["f(x, y) = x / y"] = declarations ++ [last] from split) rfl
    obtain ⟨rfl, same⟩ := ends
    obtain rfl := List.singleton_inj.mp same
    cases declares with
    | cons readFirst declares =>
    cases declares with
    | cons readSecond declares =>
    cases declares
    rw [parseDeclaration_shadowing.1] at readFirst
    rw [parseDeclaration_shadowing.2] at readSecond
    rw [parse_shadowing] at parsed
    cases readFirst
    cases readSecond
    cases parsed
    exact (agrees usual (.ofProvider _ _) _ _ declares_shadowing _).mpr rfl

end Context

end FormulaLang
