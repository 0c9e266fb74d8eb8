import FormulaLang.Proofs.Context.WellFormed

/-!
The names of declarations.  Any letters, digits and underscores can be declared, but only a letter
with or without a subscript is read as one variable.  A declaration with such a name is put in
wherever later sources mention it; no source can mention another one, and it has no effect.
-/

namespace FormulaLang

/-! ## Names that are read as variables -/

namespace Scan

open Cursor

-- Nothing follows the name of a variable that stands alone.
theorem lexes_variable {name : String} (h : IsVariable name.toList) :
    Lexes name.toList [.var name] := by
  have reads : Reads (name.toList ++ []) (.var (String.ofList name.toList)) [] :=
    reads_variable h nofun
  obtain ⟨letter, tail, spelled, alphabetic⟩ := h.first
  rw [String.ofList_toList] at reads
  rw [spelled] at reads ⊢
  rw [← List.append_nil (letter :: tail)]
  exact .chunk (not_isBlank_of_isAlphabetic alphabetic) reads .nil

/-- A name alone is read as one variable exactly if it is a letter with or without a subscript. -/
theorem tokens_eq_var_iff (name : String) :
    ((ofText name).tokens = [.var name] ∧ (ofText name).failure? = none) ↔
      IsVariable name.toList := by
  refine ⟨fun ⟨single, whole⟩ => ?_, fun h => (lexes_variable h).ofText⟩
  have spoken := spoken_ofText whole
  rw [single] at spoken
  cases spoken with
  | var isVariable => exact isVariable
  | raw unexpanded => cases unexpanded

end Scan

/-! ## Variables that no text has -/

namespace Term

-- All variables of a written term are letters with or without subscripts.
theorem Written.subst_eq_self {t : Term} (h : t.Written) {name : String}
    (other : ¬ Cursor.IsVariable name.toList) (sub : Term) : t.subst name sub = t := by
  have key (text : String) : (leaf (.name text)).subst name sub = leaf (.name text) := rfl
  induction h with
  | number => rfl
  | @var v isVariable =>
    show put name sub (.var v) absent absent = _
    have apart : v ≠ name := fun same => other (same ▸ isVariable)
    rw [put, if_neg apart]
    rfl
  | @raw token unexpanded =>
    cases token with
    | group | magnitude => rfl
    | _ => cases unexpanded
  | negate _ ih => exact congrArg (node _ absent) ih
  | binary _ _ _ ihl ihr => exact congrArg₂ (node _) ihl ihr
  | key _ _ _ iho => exact congrArg₂ (node _) iho (key _)
  | apply _ _ ih => exact congrArg₂ (node _) (key _) ih
  | method _ _ _ _ iho iha => exact congrArg₂ (node _) (congrArg₂ (node _) iho (key _)) iha

-- The declarations that come last are put in first.
theorem lets_append (before after : List (String × Tree)) (t : Term) :
    t.lets (before ++ after) = (t.lets after).lets before :=
  List.foldr_append ..

end Term

/-! ## Mentions of declarations -/

namespace Formula

variable {H : Type} {types : TypeRegistry H}

-- One of the declarations, with what is declared before and after it.
theorem declares_around {front later : List String} {source : String}
    {declared : List (String × Tree)}
    (h : List.Forall₂ (fun source d => parseDeclaration source types = .ok d)
      (front ++ source :: later) declared) :
    ∃ before name sub after, declared = before ++ (name, sub) :: after
      ∧ List.Forall₂ (fun source d => parseDeclaration source types = .ok d) front before
      ∧ parseDeclaration source types = .ok (name, sub)
      ∧ List.Forall₂ (fun source d => parseDeclaration source types = .ok d) later after := by
  induction front generalizing declared with
  | nil =>
    cases h with
    | @cons _ d _ after declares all => exact ⟨[], d.1, d.2, after, rfl, .nil, declares, all⟩
  | cons first front ih =>
    cases h with
    | @cons _ d _ rest declares all =>
      obtain ⟨before, name, sub, after, rfl, earlier, here, all⟩ := ih all
      exact ⟨d :: before, name, sub, after, rfl, .cons declares earlier, here, all⟩

/-- The name of a declaration alone, after the declaration, is the declared expression. -/
theorem compose_name {front : List String} {source name : String} {sub : Tree}
    {before : List (String × Tree)} (isVariable : Cursor.IsVariable name.toList)
    (earlier : List.Forall₂ (fun source d => parseDeclaration source types = .ok d) front before)
    (declares : parseDeclaration source types = .ok (name, sub)) :
    ∃ g, compose (front ++ [source, name]) types = .ok g
      ∧ g.term = ((sub.term Tree.first).lets before).fold := by
  have plain : ∀ c ∈ name.toList, c ≠ '=' := by
    rintro c mem rfl
    exact absurd (isVariable.words _ mem) (by decide +kernel)
  have split := Expression.splitDeclaration_of_not_equals plain
  have parsed : Expression.parse (Expression.splitDeclaration name).2
      = .ok (Tree.empty.plant (.leaf (.var name))) := by
    rw [split]
    exact Expression.parse_legible (.var isVariable)
  have declares := List.rel_append earlier (.cons declares .nil)
  have composed := compose_eq declares parsed
  rw [List.append_assoc, split, Tree.Has.term_plant, Term.lets_append] at composed
  have put : (Term.leaf (.var name)).lets [(name, sub)] = sub.term Tree.first := if_pos rfl
  rw [put] at composed
  exact ⟨_, composed, Tree.Has.term_plant _⟩

/-- Each declaration of a composed formula is put in for the variables of its name in the sources
after it.  If the name is a letter with or without a subscript, then alone it is read as one variable
and composed to what is declared; any other name is not read so, and without its declaration the
composed formula is the same. -/
theorem compose_mentions {sources : List String} {f : Formula}
    (composed : compose sources types = .ok f) {front later : List String} {source last : String}
    (split : sources = front ++ source :: (later ++ [last])) :
    ∃ before name sub after main,
      List.Forall₂ (fun source d => parseDeclaration source types = .ok d) front before
      ∧ parseDeclaration source types = .ok (name, sub)
      ∧ List.Forall₂ (fun source d => parseDeclaration source types = .ok d) later after
      ∧ Expression.parse (Expression.splitDeclaration last).2 = .ok main
      ∧ f.term = ((((main.term Tree.first).lets after).subst name (sub.term Tree.first)).lets
          before).fold
      ∧ (((Scan.ofText name).tokens = [.var name] ∧ (Scan.ofText name).failure? = none) ↔
          Cursor.IsVariable name.toList)
      ∧ (Cursor.IsVariable name.toList → ∃ g, compose (front ++ [source, name]) types = .ok g
          ∧ g.term = ((sub.term Tree.first).lets before).fold)
      ∧ (¬ Cursor.IsVariable name.toList →
          compose sources types = compose (front ++ (later ++ [last])) types) := by
  obtain ⟨declarations, last', declared, main, same, declares, parsed, term⟩ :=
    compose_term composed
  have ends : (front ++ source :: later) ++ [last] = declarations ++ [last'] := by
    rw [← same, split, List.append_assoc]
    rfl
  obtain ⟨rfl, alike⟩ := List.append_inj' ends rfl
  obtain rfl := List.singleton_inj.mp alike
  obtain ⟨before, name, sub, after, rfl, earlier, here, all⟩ := declares_around declares
  rw [Term.lets_append] at term
  refine ⟨before, name, sub, after, main, earlier, here, all, parsed, term,
    Scan.tokens_eq_var_iff name, fun isVariable => compose_name isVariable earlier here,
    fun other => ?_⟩
  have written : ((main.term Tree.first).lets after).Written :=
    ((Expression.isFinished_parse parsed).lets (Context.isFinished_declared all)).1
  have unused :
      (main.term Tree.first).lets ((name, sub) :: after) = (main.term Tree.first).lets after :=
    written.subst_eq_self other _
  have without := compose_eq (List.rel_append earlier all) parsed
  rw [List.append_assoc, Term.lets_append] at without
  rw [same, compose_eq declares parsed, Term.lets_append, unused, without]

/-- A declared name with a subscript, that uses another declaration. -/
def subscripted : List String := ["a = x", "r_1 = a + 2", "3r_1"]

theorem parseDeclaration_subscripted :
    parseDeclaration "a = x" Context.usual.env.types
        = .ok ("a", Tree.empty.plant (.leaf (.var "x")))
      ∧ parseDeclaration "r_1 = a + 2" Context.usual.env.types
        = .ok ("r_1", Tree.empty.plant
            (.node (.operator .add) (.leaf (.var "a")) (.leaf (.number 2)))) :=
  ⟨ok_of_toOption (by decide +kernel), ok_of_toOption (by decide +kernel)⟩

theorem compose_mentions_subscripted :
    ∃ f, compose subscripted Context.usual.env.types = .ok f
      ∧ subscripted = ["a = x"] ++ "r_1 = a + 2" :: ([] ++ ["3r_1"])
      ∧ (Scan.ofText "r_1").tokens = [.var "r_1"]
      ∧ ∃ g, compose ["a = x", "r_1 = a + 2", "r_1"] Context.usual.env.types = .ok g
        ∧ g.expression = "x + 2" := by
  have accepted : (compose subscripted Context.usual.env.types).isOk = true := by decide +kernel
  cases composed : compose subscripted Context.usual.env.types with
  | error e =>
    rw [composed] at accepted
    cases accepted
  | ok f =>
    obtain ⟨before, name, sub, after, main, earlier, here, -, -, -, single, referred, -⟩ :=
      compose_mentions composed (show subscripted = ["a = x"] ++ _ :: ([] ++ ["3r_1"]) from rfl)
    rw [parseDeclaration_subscripted.2] at here
    cases here
    cases earlier with
    | cons first none =>
    cases none
    rw [parseDeclaration_subscripted.1] at first
    cases first
    have isVariable : Cursor.IsVariable "r_1".toList :=
      .subscript (by decide +kernel) (List.all_eq_true.mp (by decide +kernel))
    obtain ⟨g, composed', term⟩ := referred isVariable
    refine ⟨f, rfl, rfl, (single.mpr isVariable).1, g, composed', ?_⟩
    rw [expression, term]
    decide +kernel

/-- A name of several letters can be declared, but it is read as a product of as many variables, so
the declaration is of no use. -/
theorem declared_name_is_product :
    parseDeclaration "rate = 2" Context.usual.env.types
        = .ok ("rate", Tree.empty.plant (.leaf (.number 2)))
      ∧ (Scan.ofText "rate").tokens = [.var "r", .var "a", .var "t", .var "e"]
      ∧ ((compose ["rate = 2", "3rate"] Context.usual.env.types).map fun f =>
          (f.expression, f.specification.variableNames))
        = .ok ("3 * r * a * t * e", ["r", "a", "t", "e"]) :=
  ⟨ok_of_toOption (by decide +kernel), by decide +kernel, ok_of_toOption (by decide +kernel)⟩

end Formula

end FormulaLang
