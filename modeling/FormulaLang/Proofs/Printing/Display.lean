import FormulaLang.Context
import FormulaLang.Proofs.Context.Agreement
import FormulaLang.Proofs.Printing.Declaration
import FormulaLang.Proofs.Printing.RoundTrip
import FormulaLang.Proofs.Printing.Written

/-!
Specifications and formulas are read back from their texts.  A declared specification always is.
What is parsed as an expression is written, expanded and folded, so if it is clear its text denotes
it, and its specification is declared or inferred once more.
-/

namespace FormulaLang

namespace Expression

/-! ## Expressions -/

-- What is parsed is planted.
theorem planted_of_parse {text : String} {t : Tree} (h : parse text = .ok t) :
    t = Tree.empty.plant (t.term Tree.first) := by
  obtain ⟨inner, term, u, -, -, -, -, -, rfl⟩ := parseWithin_cases h
  rw [Tree.Has.term_plant]

theorem legible_of_parse {text : String} {t : Tree} (h : parse text = .ok t)
    (clear : (t.term Tree.first).isClear = true)
    (back : ∀ x ∈ (t.term Tree.first).literals, Decimal.ReadsBack (Decimal.magnitude x)) :
    (t.term Tree.first).Legible :=
  (written_parseWithin h).legible (isExpanded_parseWithin h) clear back

-- Folding a parsed term again changes nothing.
theorem plant_fold_of_parse {text : String} {t : Tree} (h : parse text = .ok t) :
    Tree.empty.plant (t.term Tree.first).fold = t := by
  rw [fold_parseWithin h, ← planted_of_parse h]

/-! ## Declarations -/

theorem splitDeclaration_of_equals {front : String} (h : ∀ c ∈ front.toList, c ≠ '=')
    (back : String) : splitDeclaration (front ++ "=" ++ back) = (some front, back) := by
  have cs : (front ++ "=" ++ back).toList = front.toList ++ '=' :: back.toList := by
    rw [String.append_assoc, String.toList_append, String.toList_append]
    rfl
  have other : ∀ c ∈ front.toList, decide (c ≠ '=') = true := fun c hc => decide_eq_true (h c hc)
  unfold splitDeclaration
  dsimp only
  rw [cs, List.dropWhile_append_of_pos other, List.takeWhile_append_of_pos other]
  show (some (String.ofList (front.toList ++ [])), String.ofList back.toList) = _
  rw [List.append_nil, String.ofList_toList, String.ofList_toList]

theorem splitDeclaration_of_not_equals {source : String} (h : ∀ c ∈ source.toList, c ≠ '=') :
    splitDeclaration source = (none, source) := by
  have dropped : source.toList.dropWhile (fun c => decide (c ≠ '=')) = [] :=
    List.dropWhile_eq_nil_iff.mpr fun c hc => decide_eq_true (h c hc)
  unfold splitDeclaration
  dsimp only
  rw [dropped]

end Expression

namespace Specification

/-! ## Specifications -/

/-- Writing undoes reading: a specification that has been read is explicit, and it is read again
from its text. -/
theorem parse_text_of_parse {H : Type} [HostObject H] {deduction : Bool} {text : String}
    {s : Specification}
    (h : parse text { (TypeRegistry.builtins : TypeRegistry H) with deduction } = .ok s) :
    parse s.text { (TypeRegistry.builtins : TypeRegistry H) with deduction } = .ok s
      ∧ s.explicit = true := by
  have declared := declared_parse h
  exact ⟨declared.parse_own_text (TypeRegistry.isBuiltin_builtins deduction).recalls,
    declared.explicit⟩

/-- The language's own types, found by their aliases only. -/
def strictTypes : TypeRegistry Empty :=
  { (TypeRegistry.builtins : TypeRegistry Empty) with deduction := false }

/-- A declaration without a name, with an empty subscript, blanks inside a type name and a comma
behind the last variable. -/
def looseDeclaration : String :=
  " ( x_ , y : i n t , z_1 2: List,) "

theorem parse_text_of_parse_loose :
    ∃ s, parse looseDeclaration strictTypes = .ok s ∧ s.name = "" ∧
      s.text = "(x_, y: Number, z_12: Sequence)" ∧
      parse "(x_, y: Number, z_12: Sequence)" strictTypes = .ok s ∧ s.explicit = true := by
  have read : ((parse looseDeclaration strictTypes).map fun s => (s.name, s.text))
      = .ok ("", "(x_, y: Number, z_12: Sequence)") :=
    ok_of_toOption (by decide +kernel)
  obtain ⟨s, parsed, shown⟩ := ok_of_map read
  obtain ⟨unnamed, text⟩ := Prod.mk.inj shown
  have again := parse_text_of_parse parsed
  rw [text] at again
  exact ⟨s, parsed, unnamed, text, again⟩

theorem explicit_infer (t : Tree) (root : NodeId) : (infer t root).explicit = false := by
  unfold infer
  refine List.foldlRecOn (motive := fun s : Specification => s.explicit = false) _ _ rfl
    fun s h id _ => ?_
  split
  · split
    · exact h
    · exact h
  · exact h

end Specification

namespace Formula

variable {H : Type} {types : TypeRegistry H}

/-! ## Formulas -/

/-- A parsed formula has the tree of its expression, and a specification that was declared or else
is inferred from the tree. -/
theorem of_parse {source : String} {f : Formula} (h : parse source types = .ok f) :
    Expression.parse (Expression.splitDeclaration source).2 = .ok f.tree
      ∧ (f.specification.Declared types
        ∨ f.specification = Specification.infer f.tree Tree.first) := by
  obtain ⟨t, parsed, specified⟩ := ok_of_bind h
  unfold specify at specified
  split at specified
  · obtain ⟨s, declared, rfl⟩ := ok_of_map specified
    exact ⟨parsed, .inl (Specification.declared_parse declared)⟩
  · cases specified
    exact ⟨parsed, .inr rfl⟩

theorem parse_declared {f : Formula} (recalls : types.Recalls)
    (declared : f.specification.Declared types)
    (whole : Expression.parse (" " ++ f.expression) = .ok f.tree) : parse f.text types = .ok f := by
  have text : f.text = f.specification.text ++ " " ++ "=" ++ (" " ++ f.expression) := by
    have sign : " = " = " " ++ ("=" ++ " ") := rfl
    rw [Formula.text, if_pos declared.explicit, sign]
    simp only [String.append_assoc]
  have front : ∀ c ∈ (f.specification.text ++ " ").toList, c ≠ '=' := by
    intro c hc
    rw [String.toList_append] at hc
    rcases List.mem_append.mp hc with hc | hc
    · exact declared.not_equals (declared.nameable recalls) c hc
    · rw [List.mem_singleton.mp hc]
      decide
  rw [parse, text, Expression.splitDeclaration_of_equals front]
  dsimp only [bind, Except.bind]
  rw [whole]
  dsimp only [specify]
  rw [declared.parse_text_blank recalls]
  rfl

theorem parse_inferred {source : String} {t : Tree} (plain : ∀ c ∈ source.toList, c ≠ '=')
    (whole : Expression.parse source = .ok t) :
    parse source types = .ok ⟨Specification.infer t Tree.first, t⟩ := by
  rw [parse, Expression.splitDeclaration_of_not_equals plain]
  dsimp only [bind, Except.bind]
  rw [whole]
  rfl

/-- A formula that is clear is read back from its text. -/
theorem parse_text_of_clear {source : String} {f : Formula} (recalls : types.Recalls)
    (parsed : parse source types = .ok f) (clear : f.term.isClear = true)
    (back : ∀ x ∈ f.term.literals, Decimal.ReadsBack (Decimal.magnitude x)) :
    parse f.text types = .ok f := by
  obtain ⟨read, specified⟩ := of_parse parsed
  have legible := Expression.legible_of_parse read clear back
  have same := Expression.plant_fold_of_parse read
  rcases specified with declared | inferred
  · exact parse_declared recalls declared ((Expression.parse_legible_blank legible).trans
      (congrArg Except.ok same))
  · have text : f.text = f.expression := by
      rw [Formula.text, inferred, Specification.explicit_infer, if_neg Bool.false_ne_true]
    have whole : f = ⟨Specification.infer f.tree Tree.first, f.tree⟩ := by rw [← inferred]
    rw [text, whole]
    exact parse_inferred (Term.bracketed_text legible).not_equals
      ((Expression.parse_legible legible).trans (congrArg Except.ok same))

end Formula

namespace Context

variable {H : Type} [HostObject H]

theorem isBuiltin_ofProvider (config : Config) :
    (ofProvider (Provider.standard : Provider H) config).env.types.IsBuiltin :=
  TypeRegistry.isBuiltin_builtins config.typeDeduction

/-- Displaying a formula undoes parsing it, up to texts that would be read as something else. -/
theorem parse_display (config : Config) {source : String} {f : Formula}
    (parsed : (ofProvider (Provider.standard : Provider H) config).parse source = .ok f)
    (clear : f.term.isClear = true)
    (back : ∀ x ∈ f.term.literals, Decimal.ReadsBack (Decimal.magnitude x)) :
    (ofProvider (Provider.standard : Provider H) config).parse f.text = .ok f :=
  Formula.parse_text_of_clear (isBuiltin_ofProvider config).recalls parsed clear back

/-- A declared formula with a magnitude, computed and literal keys, a function and literals to
fold. -/
def mixed : String :=
  "f(s: list, x) = s:(x - 1):|x|.Length * sgn(x) / (2 - 5)"

/-- The folded term of `mixed`. -/
def mixedTerm : Term :=
  .node (.operator .divide)
    (.node (.operator .multiply)
      (.node (.operator .property)
        (.node (.operator .index)
          (.node (.operator .index) (.leaf (.var "s"))
            (.node (.operator .subtract) (.leaf (.var "x")) (.leaf (.number 1))))
          (.node (.operator .transform) (.leaf (.name "abs")) (.leaf (.var "x"))))
        (.leaf (.name "Length")))
      (.node (.operator .transform) (.leaf (.name "sgn")) (.leaf (.var "x"))))
    (.leaf (.number (-3)))

theorem parse_mixed :
    Expression.parse (Expression.splitDeclaration mixed).2 = .ok (Tree.empty.plant mixedTerm) :=
  ok_of_toOption (by decide +kernel)

theorem parse_display_mixed :
    ∃ f, usual.parse mixed = .ok f ∧ f.term.isClear = true ∧
      (∀ x ∈ f.term.literals, Decimal.ReadsBack (Decimal.magnitude x)) ∧
      usual.parse f.text = .ok f := by
  have accepted : (usual.parse mixed).isOk = true := by decide +kernel
  cases parsed : usual.parse mixed with
  | error e =>
    rw [parsed] at accepted
    cases accepted
  | ok f =>
    have term : f.term = mixedTerm := by
      have same := (Formula.of_parse parsed).1.symm.trans parse_mixed
      rw [Formula.term, Except.ok.inj same, Tree.Has.term_plant]
    have clear : f.term.isClear = true := by
      rw [term]
      decide +kernel
    have back : ∀ x ∈ f.term.literals, Decimal.ReadsBack (Decimal.magnitude x) := by
      rw [term]
      show ∀ x ∈ mixedTerm.literals,
        Decimal.readUnsigned? (Decimal.text (Decimal.magnitude x)).toList
          = some (Decimal.magnitude x)
      decide +kernel
    exact ⟨f, rfl, clear, back, parse_display Config.standard parsed clear back⟩

/-- The entry of a map at a computed key. -/
def signedKey : Term :=
  .node (.operator .index) (.leaf (.var "a"))
    (.node (.operator .transform) (.leaf (.name "sgn")) (.leaf (.var "x")))

/-- The application of a member, as the text of `signedKey` is read. -/
def signedMember : Term :=
  .node (.operator .transform)
    (.node (.operator .index) (.leaf (.var "a")) (.leaf (.name "sgn"))) (.leaf (.var "x"))

/-- The variables of both. -/
def mapAndNumber : Specification :=
  ⟨"", [("a", .any), ("x", .any)], false, by decide⟩

/-- A map with one entry, and a number whose sign is the key of it. -/
def mapWithKey : List (Value Empty) :=
  [.map [("1", .number 20)], .number 2]

-- An application is no key in parentheses when it is written, so its name is read as the key.
set_option maxRecDepth 4000 in
theorem parse_display_misread :
    ∃ f g, usual.parse "a:(sgn(x))" = .ok f ∧ f.text = "a:sgn(x)" ∧ usual.parse f.text = .ok g ∧
      (usual.run fun env => f.solve env mapWithKey).1 = .ok (.number 20) ∧
      ∀ v, (usual.run fun env => g.solve env mapWithKey).1 ≠ .ok v := by
  have plain : ∀ source : String, source.toList.all (· != '=') = true →
      ∀ c ∈ source.toList, c ≠ '=' :=
    fun source all c hc => bne_iff_ne.mp (List.all_eq_true.mp all c hc)
  have read : Expression.parse "a:(sgn(x))" = .ok (Tree.empty.plant signedKey) :=
    ok_of_toOption (by decide +kernel)
  have reread : Expression.parse "a:sgn(x)" = .ok (Tree.empty.plant signedMember) :=
    ok_of_toOption (by decide +kernel)
  have text : (Formula.mk (Specification.infer (Tree.empty.plant signedKey) Tree.first)
      (Tree.empty.plant signedKey)).text = "a:sgn(x)" := by
    decide +kernel
  have parsed : usual.parse "a:(sgn(x))" = .ok _ :=
    Formula.parse_inferred (plain _ (by decide +kernel)) read
  have reparsed : usual.parse "a:sgn(x)" = .ok _ :=
    Formula.parse_inferred (plain _ (by decide +kernel)) reread
  rw [← text] at reparsed
  refine ⟨_, _, parsed, text, reparsed, ?_, ?_⟩
  · have inferred : Specification.infer (Tree.empty.plant signedKey) Tree.first
        = mapAndNumber := rfl
    simp only [Formula.solve, Formula.term, Tree.Has.term_plant, inferred]
    rfl
  · have inferred : Specification.infer (Tree.empty.plant signedMember) Tree.first
        = mapAndNumber := rfl
    simp only [Formula.solve, Formula.term, Tree.Has.term_plant, inferred]
    nofun

end Context

end FormulaLang
