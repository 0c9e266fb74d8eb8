import FormulaLang.Proofs.Compilation.Causes
import FormulaLang.Proofs.Context.Refusals
import FormulaLang.Proofs.Printing.Display
import FormulaLang.Proofs.Reduction.WellFormed

/-!
Formulas have well-formed trees, whether they are parsed or composed: putting a term in the place of
a variable keeps the shape of what texts denote, and reducing leaves nothing to expand or fold.  So
they are never found misshapen when they are solved or compiled.
-/

namespace FormulaLang

/-! ## Terms that texts denote -/

namespace Term

theorem fits_leaf {token : Token} (expanded : token.isUnexpanded = false)
    (plain : token.operation? = none) : Fits token absent absent where
  expanded := expanded
  leaf _ := ⟨rfl, rfl⟩
  negation op same := by rw [same] at plain; cases plain
  operand op same := by rw [same] at plain; cases plain
  function := nofun
  key := nofun
  unfolded op same := by rw [same] at plain; cases plain

theorem fits_operator {op : Operation} {left right : Term} (negation : left = absent ↔ op = .negate)
    (operand : right ≠ absent) (function : left.isName = true → op = .transform)
    (key : right.isName = true → op.isAccess = true) (unfolded : value? op left right = none) :
    Fits (.operator op) left right where
  expanded := rfl
  leaf plain := by cases plain
  negation op' same := by cases same; exact negation
  operand _ _ := operand
  function isName := congrArg Token.operator (function isName)
  key isName := ⟨op, rfl, key isName⟩
  unfolded op' same := by cases same; exact unfolded

theorem Written.not_absent {t : Term} (h : t.Written) : t ≠ absent := by
  rintro rfl
  cases h

theorem Written.not_name {t : Term} (h : t.Written) : t.isName = false := by
  cases h with
  | @raw token unexpanded => cases token <;> first | rfl | cases unexpanded
  | _ => rfl

theorem ne_of_isBinary {op : Operation} (h : op.isBinary = true) :
    op ≠ .negate ∧ op ≠ .transform := by
  constructor <;> rintro rfl <;> cases h

-- Expanded and folded terms that texts denote are well formed.
theorem Written.wellFormed {t : Term} (h : t.Written) (expanded : t.IsExpanded)
    (folded : t.fold = t) : t.WellFormed := by
  have name (text : String) : (leaf (.name text)).WellFormed :=
    ⟨fits_leaf rfl rfl, trivial, trivial⟩
  -- a function or a key, which is a name, and what it is a name for
  have access {op : Operation} (access : op.isAccess = true) {owner : Term} (ho : owner.Written)
      (text : String) (unfolded : value? op owner (leaf (.name text)) = none) :
      Fits (.operator op) owner (leaf (.name text)) :=
    have binary := ne_of_isBinary (Operation.isBinary_of_isAccess access)
    fits_operator (iff_of_false ho.not_absent binary.1) nofun
      (fun isName => by rw [ho.not_name] at isName; cases isName) (fun _ => access) unfolded
  induction h with
  | number x => exact ⟨fits_leaf rfl rfl, trivial, trivial⟩
  | var _ => exact ⟨fits_leaf rfl rfl, trivial, trivial⟩
  | raw unexpanded => exact absurd (unexpanded.symm.trans expanded.1) Bool.noConfusion
  | negate hr ihr =>
    obtain ⟨-, foldedRight, unfolded⟩ := unfolded_of_fold folded
    refine ⟨fits_operator (iff_of_true rfl rfl) hr.not_absent nofun (fun isName => ?_) unfolded,
      trivial, ihr expanded.2.2 foldedRight⟩
    rw [hr.not_name] at isName
    cases isName
  | binary binary hl hr ihl ihr =>
    obtain ⟨foldedLeft, foldedRight, unfolded⟩ := unfolded_of_fold folded
    refine ⟨fits_operator (iff_of_false hl.not_absent (ne_of_isBinary binary).1) hr.not_absent
      (fun isName => ?_) (fun isName => ?_) unfolded, ihl expanded.2.1 foldedLeft,
      ihr expanded.2.2 foldedRight⟩
    · rw [hl.not_name] at isName
      cases isName
    · rw [hr.not_name] at isName
      cases isName
  | key isAccess ho _ iho =>
    obtain ⟨foldedOwner, -, unfolded⟩ := unfolded_of_fold folded
    exact ⟨access isAccess ho _ unfolded, iho expanded.2.1 foldedOwner, name _⟩
  | apply _ ha iha =>
    obtain ⟨-, foldedArgument, unfolded⟩ := unfolded_of_fold folded
    refine ⟨fits_operator (iff_of_false nofun nofun) ha.not_absent (fun _ => rfl)
      (fun isName => ?_) unfolded, name _, iha expanded.2.2 foldedArgument⟩
    rw [ha.not_name] at isName
    cases isName
  | method isAccess ho _ ha iho iha =>
    obtain ⟨foldedFunction, foldedArgument, unfolded⟩ := unfolded_of_fold folded
    obtain ⟨foldedOwner, -, unfoldedFunction⟩ := unfolded_of_fold foldedFunction
    refine ⟨fits_operator (iff_of_false nofun nofun) ha.not_absent nofun (fun isName => ?_)
      unfolded, ⟨access isAccess ho _ unfoldedFunction, iho expanded.2.1.2.1 foldedOwner, name _⟩,
      iha expanded.2.2 foldedArgument⟩
    rw [ha.not_name] at isName
    cases isName

theorem Written.subst {t sub : Term} (h : t.Written) (hsub : sub.Written) (name : String) :
    (t.subst name sub).Written := by
  induction h with
  | number x => exact .number x
  | @var v h =>
    show (put name sub (.var v) absent absent).Written
    unfold put
    dsimp only
    split
    · exact hsub
    · exact .var h
  | @raw token unexpanded =>
    cases token with
    | group raw | magnitude raw => exact .raw rfl
    | _ => cases unexpanded
  | negate _ ih => exact .negate ih
  | binary binary _ _ ihl ihr => exact .binary binary ihl ihr
  | key access _ hk iho => exact .key access iho hk
  | apply h _ ih => exact .apply h ih
  | method access _ h _ iho iha => exact .method access iho h iha

/-- What is parsed: a term that a text denotes, with nothing left to expand or fold. -/
structure IsFinished (t : Term) : Prop where
  written : t.Written
  expanded : t.IsExpanded
  folded : t.fold = t

namespace IsFinished

variable {t : Term}

-- Folding finishes an expanded term.
theorem of_expanded (written : t.Written) (expanded : t.IsExpanded) : t.fold.IsFinished := by
  -- there is no raw text, so it does not matter that none can be read
  let expand (_ : String) : Except Failure Tree := .error (.reading .emptyFormula)
  have reduced : t.reduce expand = .ok t.fold := expanded.reduce_eq expand
  exact ⟨written.reduce (fun _ _ read => by cases read) reduced,
    isExpanded_reduce (fun _ _ read => by cases read) reduced,
    fold_reduce (fun _ _ read => by cases read) reduced⟩

theorem lets (h : t.IsFinished) {declared : List (String × Tree)}
    (finished : ∀ d ∈ declared, (d.2.term Tree.first).IsFinished) :
    (t.lets declared).Written ∧ (t.lets declared).IsExpanded := by
  induction declared with
  | nil => exact ⟨h.written, h.expanded⟩
  | cons d rest ih =>
    obtain ⟨written, expanded⟩ := ih fun d mem => finished d (.tail _ mem)
    have sub := finished d (.head _)
    exact ⟨written.subst sub.written d.1, expanded.subst sub.expanded d.1⟩

theorem isValue (h : t.IsFinished) : t.IsValue where
  wellFormed := h.written.wellFormed h.expanded h.folded
  present := h.written.not_absent
  unnamed := h.written.not_name

end IsFinished

end Term

theorem Expression.isFinished_parse {text : String} {t : Tree} (h : parse text = .ok t) :
    (t.term Tree.first).IsFinished :=
  ⟨written_parseWithin h, isExpanded_parseWithin h, fold_parseWithin h⟩

namespace Context

variable {H : Type} {c : Context H} {f : Formula}

/-! ## Formulas -/

-- The tree of a formula holds its term and nothing else.
theorem Reads.planted (h : c.Reads f) : f.tree = Tree.empty.plant f.term := by
  cases h with
  | parse h =>
    obtain ⟨t, parsed, h⟩ := ok_of_bind h
    rw [Formula.term, Formula.tree_of_specify h]
    exact Expression.planted_of_parse parsed
  | compose h =>
    unfold Context.compose Formula.compose at h
    split at h
    case h_1 => cases h
    case h_2 =>
      dsimp only at h
      obtain ⟨main, -, h⟩ := ok_of_bind h
      obtain ⟨⟨t, root⟩, -, h⟩ := ok_of_bind h
      obtain ⟨root', -, h⟩ := ok_of_bind h
      rw [Formula.term, Formula.tree_of_specify h, Tree.compact, Tree.Has.term_plant]

theorem isFinished_declared {types : TypeRegistry H} {sources : List String}
    {declared : List (String × Tree)}
    (h : List.Forall₂ (fun source d => Formula.parseDeclaration source types = .ok d) sources
      declared) : ∀ d ∈ declared, (d.2.term Tree.first).IsFinished := by
  induction h with
  | nil => nofun
  | cons declares _ ih =>
    intro d mem
    cases mem with
    | head =>
      obtain ⟨expression, parsed⟩ := Formula.parse_of_parseDeclaration declares
      exact Expression.isFinished_parse parsed
    | tail _ mem => exact ih d mem

theorem Reads.isFinished (h : c.Reads f) : f.term.IsFinished := by
  cases h with
  | parse h =>
    obtain ⟨t, parsed, h⟩ := ok_of_bind h
    rw [Formula.term, Formula.tree_of_specify h]
    exact Expression.isFinished_parse parsed
  | compose h =>
    obtain ⟨declarations, last, declared, main, -, declares, parsed, term⟩ :=
      Formula.compose_term h
    rw [term]
    obtain ⟨written, expanded⟩ :=
      (Expression.isFinished_parse parsed).lets (isFinished_declared declares)
    exact .of_expanded written expanded

theorem Reads.wellFormed (h : c.Reads f) : f.tree.WellFormed := by
  rw [h.planted]
  exact Tree.wellFormed_plant h.isFinished.isValue

variable [HostObject H]

/-! ## The standard provider -/

theorem shaped_components {v : Value H} {e : Failure} (h : Provider.components v = .error e) :
    e.cause.isMisshapen = false := by
  unfold Provider.components at h
  split at h
  case h_1 items =>
    induction items with
    | nil => cases h
    | cons item rest ih =>
      rw [List.mapM_cons] at h
      obtain h | ⟨x, -, h⟩ := error_of_bind h
      · split at h
        · cases h
        · cases h
          rfl
      · obtain h | ⟨xs, -, h⟩ := error_of_bind h
        · exact ih h
        · cases h
  case h_2 =>
    cases h
    rfl

theorem shaped_standardTransforms : ∀ t ∈ (Provider.standardTransforms : List (Transform H)),
    ∀ v e, t.apply v = .error e → e.cause.isMisshapen = false := by
  have numeric (name : String) (f : Float → Float) (v : Value H) (e : Failure)
      (h : (Transform.numeric name f).apply v = .error e) : e.cause.isMisshapen = false := by
    cases v <;> cases h <;> rfl
  have length (v : Value H) (e : Failure) (h : Provider.length v = .error e) :
      e.cause.isMisshapen = false :=
    shaped_components (error_of_map h)
  have normalized (v : Value H) (e : Failure) (h : Provider.normalized v = .error e) :
      e.cause.isMisshapen = false := by
    obtain h | ⟨xs, -, h⟩ := error_of_bind h
    · exact shaped_components h
    · dsimp only at h
      split at h <;> cases h
  simp only [Provider.standardTransforms, List.mem_cons, List.not_mem_nil, or_false,
    forall_eq_or_imp, forall_eq]
  exact ⟨numeric _ _, numeric _ _, numeric _ _, numeric _ _, numeric _ _, numeric _ _, numeric _ _,
    numeric _ _, numeric _ _, numeric _ _, numeric _ _, numeric _ _, length, normalized⟩

-- What the language and the standard provider declare never says that a tree is misshapen.
theorem shaped_of_raises {config : Config} {cause : Cause}
    (h : (ofProvider (Provider.standard : Provider H) config).env.Raises cause) :
    cause.isMisshapen = false := by
  have described {type : TypeInfo} {d : TypeDescriptor H}
      (h : (ofProvider Provider.standard config).env.types.descriptor? type = some d) :
      d = TypeRegistry.builtinDescriptor type :=
    (isUsual_standard config).described type d h
  have length {v : Value H} {e : Failure} (h : TypeRegistry.lengthOf v = .error e) :
      e.cause.isMisshapen = false := by
    cases v <;> cases h <;> rfl
  have concatenate {x y : Value H} {e : Failure} (h : TypeRegistry.concatenate x y = .error e) :
      e.cause.isMisshapen = false := by
    unfold TypeRegistry.concatenate at h
    split at h
    · cases h
    · cases h
      rfl
  cases h with
  | @member type d m v e found listed failed =>
    cases described found
    cases type with
    | string =>
      cases List.mem_singleton.mp listed
      exact length failed
    | sequence =>
      rcases List.mem_cons.mp listed with rfl | listed
      · exact length failed
      · cases List.mem_singleton.mp listed
        exact length failed
    | _ => cases listed
  | @operator type d o x y e found listed failed =>
    cases described found
    cases type with
    | string =>
      cases List.mem_singleton.mp listed
      exact concatenate failed
    | _ => cases listed
  | @negation type d f v e found declared failed =>
    cases described found
    cases type <;> cases declared
  | @conversion type d c v e found listed failed =>
    cases described found
    cases type <;> cases listed
  | transform known listed failed =>
    exact FunctionRegistry.overloads_foldl_register shaped_standardTransforms _ _ known _ listed _ _
      failed

/-! ## Well-formed formulas -/

/-- What texts are read as is well formed, be it a lone expression, a formula or the composition of
declarations.  Solving such a formula, by its tree or compiled, does not fail because a tree is
misshapen, unless a declared function says so itself; and compiling it never does. -/
theorem wellFormed_of_reads :
    (∀ text t, Expression.parse text = .ok t → t.WellFormed) ∧
      ∀ (c : Context H) (f : Formula), c.Reads f → f.tree.WellFormed ∧
        ∀ c₁ : Context H, c₁.Reachable →
          (∀ inputs e, (c₁.run fun env => f.solve env inputs).1 = .error e →
            e.cause.isMisshapen = true → c₁.env.Raises e.cause) ∧
          ∀ initial,
            (∀ e, (c₁.run fun env => f.compile env initial).1 = .error e →
              e.cause.isMisshapen = false) ∧
            ∀ fast, (c₁.run fun env => f.compile env initial).1 = .ok fast →
              ∀ c₂ : Context H, c₂.Reachable → ∀ inputs e,
                (c₂.run fun env => fast.solve env inputs).1 = .error e →
                  e.cause.isMisshapen = true → c₁.env.Raises e.cause ∨ c₂.env.Raises e.cause := by
  constructor
  · intro text t parsed
    rw [Expression.planted_of_parse parsed]
    exact Tree.wellFormed_plant (Expression.isFinished_parse parsed).isValue
  · intro c f read
    refine ⟨read.wellFormed, fun c₁ h₁ => ?_⟩
    have value := read.isFinished.isValue
    constructor
    · intro inputs
      exact (Formula.solve_accounted value c₁.env inputs).fails c₁.members h₁.coherent
    · intro initial
      have compiles := Formula.compile_accounted value c₁.env initial
      refine ⟨compiles.fails c₁.members h₁.coherent, fun fast compiled c₂ h₂ inputs => ?_⟩
      have accounted := (compiles.returns c₁.members h₁.coherent).1 fast compiled
      exact (accounted c₂.env inputs).fails c₂.members h₂.coherent

/-- A group with something to fold, and a magnitude. -/
def grouped : String :=
  "f(x, y) = (x + 2 * 3) ^ |y - x|"

theorem wellFormed_of_reads_grouped :
    ∃ f, usual.parse grouped = .ok f ∧ f.tree.WellFormed ∧
      (∀ inputs e, (usual.run fun env => f.solve env inputs).1 = .error e →
        e.cause.isMisshapen = false) ∧
      ∀ e, (usual.run fun env => f.compile env []).1 = .error e → e.cause.isMisshapen = false := by
  have accepted : (usual.parse grouped).isOk = true := by decide +kernel
  cases parsed : usual.parse grouped with
  | error e =>
    rw [parsed] at accepted
    cases accepted
  | ok f =>
    obtain ⟨wellFormed, runs⟩ := wellFormed_of_reads.2 usual f (.parse parsed)
    obtain ⟨solves, compiles⟩ := runs usual (.ofProvider _ _)
    refine ⟨f, rfl, wellFormed, fun inputs e failed => ?_, (compiles []).1⟩
    rw [← Bool.not_eq_true]
    intro misshapen
    rw [shaped_of_raises (solves inputs e failed misshapen)] at misshapen
    cases misshapen

end Context

end FormulaLang
