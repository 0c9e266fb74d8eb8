import FormulaLang.Proofs.Scanning.Spoken
import FormulaLang.Proofs.Typing.Names
import FormulaLang.Specification

/-!
Reading back a declared specification.  Its variables are written with their types, those of type
`Any` without, and every type is written by its own name.
-/

namespace FormulaLang

variable {H : Type}

namespace Specification

open Cursor

/-! ## What is declared -/

/-- A specification as it is read: the names are spelled as names and variables, and every type but
`Any` has been found by a name. -/
structure Declared (types : TypeRegistry H) (s : Specification) : Prop where
  explicit : s.explicit = true
  name : ∀ c ∈ s.name.toList, isWord c = true
  spelled : ∀ p ∈ s.parameters, IsVariable p.1.toList
  types : ∀ p ∈ s.parameters, p.2 = .any ∨ ∃ text, types.find text = .ok p.2

variable {types : TypeRegistry H}

/-- A specification with more variables behind its own. -/
structure Extends (s : Specification) (added : Keyed String TypeInfo) (s' : Specification) :
    Prop where
  name : s'.name = s.name
  explicit : s'.explicit = s.explicit
  parameters : s'.parameters = s.parameters ++ added

theorem of_declare {s s' : Specification} {name : String} {type : TypeInfo}
    (h : s.declare name type = .ok s') : s.Extends [(name, type)] s' := by
  unfold declare at h
  split at h
  next => cases h
  next fresh =>
    cases h
    exact ⟨rfl, rfl, if_neg fresh⟩

theorem declare_of_not_mem {s : Specification} {name : String} (type : TypeInfo)
    (fresh : name ∉ s.variableNames) :
    ∃ s', s.declare name type = .ok s' ∧ s.Extends [(name, type)] s' := by
  have declared : s.declare name type = .ok _ := if_neg fresh
  exact ⟨_, declared, of_declare declared⟩

theorem of_readType {variableName : String} {c : Cursor} {type : TypeInfo}
    (h : (readType types variableName c).1 = .ok type) :
    type = .any ∨ ∃ text, types.find text = .ok type := by
  unfold readType at h
  dsimp only at h
  split at h
  · split at h
    · cases h
    · exact .inr ⟨_, ok_of_mapError h⟩
  · cases h
    exact .inl rfl

theorem Declared.declare {s s' : Specification} (h : s.Declared types) {name : String}
    {type : TypeInfo} (spelled : IsVariable name.toList)
    (found : type = .any ∨ ∃ text, types.find text = .ok type)
    (declared : s.declare name type = .ok s') : s'.Declared types := by
  obtain ⟨sameName, sameExplicit, parameters⟩ := of_declare declared
  refine ⟨sameExplicit ▸ h.explicit, sameName ▸ h.name, ?_, ?_⟩
  · intro p hp
    rw [parameters] at hp
    rcases List.mem_append.mp hp with hp | hp
    · exact h.spelled p hp
    · rw [List.mem_singleton.mp hp]
      exact spelled
  · intro p hp
    rw [parameters] at hp
    rcases List.mem_append.mp hp with hp | hp
    · exact h.types p hp
    · rw [List.mem_singleton.mp hp]
      exact found

/-- Reading variables declares them. -/
theorem Declared.readVariables {count : Nat} {s s' : Specification} {c after : Cursor}
    (h : s.Declared types) (read : readVariables types count s c = .ok (s', after)) :
    s'.Declared types := by
  induction count generalizing s c with
  | zero => cases read
  | succ count ih =>
      rw [Specification.readVariables] at read
      dsimp only at read
      split at read
      · cases read
        exact h
      · obtain ⟨name, spelled, read⟩ := ok_of_bind read
        obtain ⟨type, found, read⟩ := ok_of_bind read
        obtain ⟨s'', declared, read⟩ := ok_of_bind read
        have next := h.declare (isVariable_variableName spelled) (of_readType found) declared
        split at read
        · exact ih next read
        · cases read
          exact next
        · cases read
        · cases read

theorem words_name (c : Cursor) : ∀ ch ∈ c.name.1.toList, isWord ch = true := by
  intro ch hch
  have hch : ch ∈ (String.ofList _).toList := hch
  rw [String.toList_ofList] at hch
  exact (List.mem_filter.mp hch).2

theorem declared_named {name : String} (words : ∀ c ∈ name.toList, isWord c = true) :
    (named name).Declared types :=
  ⟨rfl, words, nofun, nofun⟩

theorem declared_parse {text : String} {s : Specification} (h : parse text types = .ok s) :
    s.Declared types := by
  have read : Specification.read types text = .ok s := ok_of_mapError h
  unfold Specification.read at read
  dsimp only at read
  have start : (named (Cursor.ofText text).skipBlanks.name.1).Declared types :=
    declared_named (words_name _)
  split at read
  · cases read
    exact start
  · obtain ⟨⟨s', after⟩, listed, read⟩ := ok_of_bind read
    have declared := start.readVariables listed
    dsimp only at read
    split at read
    · cases read
      exact declared
    · cases read
  · cases read

/-! ## Reading back -/

/-- A variable as it is declared. -/
def parameterText : String × TypeInfo → String
  | (name, .any) => name
  | (name, type) => name ++ ": " ++ type.name

theorem text_eq (s : Specification) :
    s.text = if s.parameters.isEmpty then s.name
      else s.name ++ "(" ++ ", ".intercalate (s.parameters.map parameterText) ++ ")" :=
  rfl

/-- Whether a text goes on with a sign of the list of variables. -/
def Stops (rest : List Char) : Prop :=
  ∃ ch tail, rest = ch :: tail ∧ (ch = ',' ∨ ch = ')')

theorem Stops.dropWhile {rest : List Char} (h : Stops rest) :
    rest.dropWhile Text.isBlank = rest := by
  obtain ⟨ch, tail, rfl, rfl | rfl⟩ := h <;> rfl

theorem typeNameSpan_append {cs rest : List Char} (spelled : ∀ c ∈ cs, isWord c = true ∨ c = '.')
    (stops : Stops rest) : typeNameSpan 0 (cs ++ rest) = (cs, rest) := by
  induction cs with
  | nil =>
      obtain ⟨ch, tail, rfl, stop⟩ := stops
      have none : typeNameStep? 0 ch = none := by
        rcases stop with rfl | rfl <;> decide +kernel
      rw [List.nil_append, typeNameSpan, none]
  | cons c cs ih =>
      have within : typeNameStep? 0 c = some 0 := by
        rcases spelled c List.mem_cons_self with word | rfl
        · have notOpen : c ≠ '<' := Text.ne_of_kind word (by decide +kernel)
          simp only [typeNameStep?, notOpen, word, Bool.or_true, Bool.true_or, Nat.lt_irrefl,
            decide_false, Bool.and_false, Bool.false_eq_true, if_false, if_true, gt_iff_lt]
        · decide +kernel
      rw [List.cons_append, typeNameSpan, within]
      dsimp only
      rw [ih fun d hd => spelled d (List.mem_cons_of_mem c hd)]

theorem not_isBlank_of_spelled {ch : Char} (spelled : isWord ch = true ∨ ch = '.') :
    Text.isBlank ch = false := by
  rcases spelled with word | rfl
  · cases blank : Text.isBlank ch with
    | false => rfl
    | true =>
        rw [not_isWord_of_isBlank blank] at word
        cases word
  · decide

theorem typeName_append {c : Cursor} {name : String} {rest : List Char}
    (spelled : ∀ c ∈ name.toList, isWord c = true ∨ c = '.') (stops : Stops rest)
    (h : c.rest = name.toList ++ rest) : c.typeName.1 = name ∧ c.typeName.2.rest = rest := by
  have ink : name.toList.filter (fun ch => !Text.isBlank ch) = name.toList := by
    refine List.filter_eq_self.mpr fun ch hch => ?_
    rw [not_isBlank_of_spelled (spelled ch hch)]
    rfl
  unfold typeName
  rw [h, typeNameSpan_append spelled stops]
  dsimp only
  rw [ink, String.ofList_toList]
  exact ⟨rfl, rfl⟩

/-- Whether a text goes on behind the name of a variable: with its type, or with the next sign of
the list. -/
def Resumes (rest : List Char) : Prop :=
  ∃ ch tail, rest = ch :: tail ∧ (ch = ':' ∨ ch = ',' ∨ ch = ')')

theorem Stops.resumes {rest : List Char} (h : Stops rest) : Resumes rest := by
  obtain ⟨ch, tail, same, stop⟩ := h
  exact ⟨ch, tail, same, .inr stop⟩

theorem variableName_append {c : Cursor} {name : String} {rest : List Char}
    (spelled : IsVariable name.toList) (resumes : Resumes rest)
    (h : c.rest = name.toList ++ rest) :
    c.variableName.1 = .ok name ∧ c.variableName.2.rest = rest := by
  obtain ⟨sign, tail, rfl, kind⟩ := resumes
  have facts : Text.isBlank sign = false ∧ isWord sign = false ∧ sign ≠ '_' := by
    rcases kind with rfl | rfl | rfl <;> decide +kernel
  obtain ⟨ink, noWord, other⟩ := facts
  have dropped : (sign :: tail).dropWhile Text.isBlank = sign :: tail := by
    rw [List.dropWhile_cons, ink]
    rfl
  cases spelled' : name.toList with
  | nil =>
      rw [spelled'] at spelled
      cases spelled
  | cons letter cs =>
      rw [spelled'] at spelled h
      have own : name = String.ofList (letter :: cs) := by
        rw [← spelled', String.ofList_toList]
      cases spelled with
      | letter alphabetic =>
          have plain : (sign :: tail).head? ≠ some '_' := fun same => other (Option.some.inj same)
          rw [variableName_of_plain h alphabetic plain]
          exact ⟨congrArg Except.ok own.symm, step_rest h⟩
      | @subscript letter alphabetic cs words =>
          have h : c.rest = letter :: '_' :: (cs ++ sign :: tail) := h
          have ends : Ends isWord (sign :: tail) := by
            intro c' tail' same
            rw [dropped] at same
            cases same
            exact noWord
          obtain ⟨text, after⟩ := run_append (fun ch => not_isWord_of_isBlank) words ends
          have left := congrArg (beyond isWord) (step_rest (step_rest h))
          rw [variableName_of_subscript h alphabetic, text]
          exact ⟨congrArg Except.ok own.symm, left.trans (after.trans dropped)⟩

/-- What stands behind the name of a variable. -/
def typeText : TypeInfo → String
  | .any => ""
  | type => ": " ++ type.name

theorem parameterText_eq (p : String × TypeInfo) : parameterText p = p.1 ++ typeText p.2 := by
  obtain ⟨name, type⟩ := p
  cases type with
  | any => exact String.append_empty.symm
  | _ => exact String.append_assoc

theorem typeText_of_ne {type : TypeInfo} (other : type ≠ .any) :
    typeText type = ": " ++ type.name := by
  cases type <;> first | rfl | exact absurd rfl other

/-- Whether a type is read as it is written. -/
def Nameable (types : TypeRegistry H) (type : TypeInfo) : Prop :=
  type ≠ .any → TypeRegistry.IsTypeName type.name ∧ types.find type.name = .ok type

theorem readType_append (variableName : String) {type : TypeInfo} {c : Cursor} {rest : List Char}
    (nameable : Nameable types type) (stops : Stops rest)
    (h : c.rest = (typeText type).toList ++ rest) :
    (readType types variableName c).1 = .ok type
      ∧ (readType types variableName c).2.rest = rest := by
  by_cases any : type = .any
  · subst any
    have skipped : c.skipBlanks.rest = rest := by
      show c.rest.dropWhile Text.isBlank = _
      rw [h]
      exact stops.dropWhile
    have other : c.skipBlanks.peek? ≠ some ':' := by
      obtain ⟨ch, tail, rfl, stop⟩ := stops
      rw [peek?, skipped]
      rcases stop with rfl | rfl <;> rintro ⟨⟩
    unfold readType
    dsimp only
    rw [if_neg other]
    exact ⟨rfl, skipped⟩
  · obtain ⟨⟨there, spelled⟩, found⟩ := nameable any
    have whole : c.rest = ':' :: ' ' :: (type.name.toList ++ rest) := by
      rw [h, typeText_of_ne any, String.toList_append]
      rfl
    have skipped : c.skipBlanks.rest = ':' :: ' ' :: (type.name.toList ++ rest) :=
      skipBlanks_rest whole (by decide)
    have colon : c.skipBlanks.peek? = some ':' := by
      rw [peek?, skipped]
      rfl
    have named : c.skipBlanks.step.skipBlanks.rest = type.name.toList ++ rest := by
      show c.skipBlanks.step.rest.dropWhile Text.isBlank = _
      rw [step_rest skipped]
      cases typed : type.name.toList with
      | nil => exact absurd (String.toList_eq_nil_iff.mp typed) there
      | cons ch tail =>
          have ink := not_isBlank_of_spelled (spelled ch (typed ▸ List.mem_cons_self))
          have blank : Text.isBlank ' ' = true := rfl
          rw [List.dropWhile_cons, if_pos blank, List.cons_append, List.dropWhile_cons, ink]
          rfl
    obtain ⟨read, after⟩ := typeName_append spelled stops named
    have some : type.name.isEmpty = false := String.isEmpty_eq_false_iff.mpr there
    unfold readType
    dsimp only
    rw [if_pos colon]
    rw [read, some, found]
    exact ⟨rfl, after⟩

/-- A variable and the sign behind it. -/
theorem readVariables_parameter (count : Nat) {s : Specification} {p : String × TypeInfo}
    {c : Cursor} {sign : Char} {rest : List Char} (spelled : IsVariable p.1.toList)
    (nameable : Nameable types p.2) (fresh : p.1 ∉ s.variableNames) (stop : sign = ',' ∨ sign = ')')
    (h : c.rest.dropWhile Text.isBlank = (parameterText p).toList ++ sign :: rest) :
    ∃ s' c', s.Extends [p] s' ∧ c'.rest = rest ∧ readVariables types (count + 1) s c =
      if sign = ',' then readVariables types count s' c' else .ok (s', c') := by
  obtain ⟨name, type⟩ := p
  have stops : Stops (sign :: rest) := ⟨sign, rest, rfl, stop⟩
  have skipped : c.skipBlanks.rest
      = name.toList ++ ((typeText type).toList ++ sign :: rest) := by
    show c.rest.dropWhile Text.isBlank = _
    rw [h, parameterText_eq, String.toList_append, List.append_assoc]
  have notClosed : c.skipBlanks.peek? ≠ some ')' := by
    obtain ⟨letter, tail, same, alphabetic⟩ := spelled.first
    rw [peek?, skipped, show name.toList = letter :: tail from same]
    rintro ⟨⟩
    exact absurd alphabetic (by decide +kernel)
  have resumes : Resumes ((typeText type).toList ++ sign :: rest) := by
    by_cases any : type = .any
    · subst any
      exact stops.resumes
    · rw [typeText_of_ne any, String.toList_append]
      exact ⟨':', _, rfl, .inl rfl⟩
  obtain ⟨named, after⟩ := variableName_append spelled resumes skipped
  obtain ⟨typed, after⟩ := readType_append name nameable stops after
  obtain ⟨s', declared, extended⟩ := declare_of_not_mem type fresh
  have skippedAfter : (readType types name c.skipBlanks.variableName.2).2.skipBlanks.rest
      = sign :: rest := by
    show List.dropWhile _ _ = _
    rw [after]
    exact stops.dropWhile
  refine ⟨s', (readType types name c.skipBlanks.variableName.2).2.skipBlanks.step, extended, ?_, ?_⟩
  · exact step_rest skippedAfter
  · rw [readVariables]
    dsimp only
    rw [if_neg notClosed, named]
    dsimp only [bind, Except.bind]
    rw [typed]
    dsimp only
    rw [declared]
    dsimp only
    rw [peek?, skippedAfter]
    rcases stop with rfl | rfl
    · rfl
    · rfl

/-- Variables as they are declared. -/
def parametersText (parameters : Keyed String TypeInfo) : String :=
  ", ".intercalate (parameters.map parameterText)

theorem parametersText_cons_cons (p q : String × TypeInfo) (ps : Keyed String TypeInfo) :
    parametersText (p :: q :: ps) = parameterText p ++ (", " ++ parametersText (q :: ps)) := by
  rw [parametersText, List.map_cons, List.map_cons, String.intercalate_cons_cons,
    String.append_assoc]
  rfl

theorem parametersText_first {p : String × TypeInfo} (spelled : IsVariable p.1.toList)
    (ps : Keyed String TypeInfo) :
    ∃ letter tail, (parametersText (p :: ps)).toList = letter :: tail
      ∧ Text.isAlphabetic letter = true := by
  obtain ⟨letter, tail, name, alphabetic⟩ := spelled.first
  have one : ∃ tail, (parameterText p).toList = letter :: tail := by
    rw [parameterText_eq, String.toList_append, name]
    exact ⟨_, rfl⟩
  obtain ⟨tail', one⟩ := one
  cases ps with
  | nil =>
      rw [parametersText, List.map_singleton, String.intercalate_singleton]
      exact ⟨letter, tail', one, alphabetic⟩
  | cons q ps =>
      rw [parametersText_cons_cons, String.toList_append, one]
      exact ⟨letter, _, rfl, alphabetic⟩

/-- A list of variables up to the parenthesis behind it. -/
theorem readVariables_append {parameters : Keyed String TypeInfo} (there : parameters ≠ [])
    {s : Specification} {count : Nat} {c : Cursor} {rest : List Char}
    (spelled : ∀ p ∈ parameters, IsVariable p.1.toList)
    (nameable : ∀ p ∈ parameters, Nameable types p.2)
    (fresh : (s.variableNames ++ Keyed.keys parameters).Nodup)
    (enough : (parametersText parameters).length < count)
    (h : c.rest.dropWhile Text.isBlank = (parametersText parameters).toList ++ ')' :: rest) :
    ∃ s' c', s.Extends parameters s' ∧ c'.rest = rest
      ∧ readVariables types count s c = .ok (s', c') := by
  obtain ⟨count, rfl⟩ : ∃ n, count = n + 1 := ⟨count - 1, by omega⟩
  induction parameters generalizing s count c with
  | nil => exact absurd rfl there
  | cons p ps ih =>
      have notMem : p.1 ∉ s.variableNames := by
        intro mem
        exact (List.nodup_append.mp fresh).2.2 p.1 mem p.1 List.mem_cons_self rfl
      have one := spelled p List.mem_cons_self
      have typed := nameable p List.mem_cons_self
      cases ps with
      | nil =>
          rw [parametersText, List.map_singleton, String.intercalate_singleton] at h
          obtain ⟨s', c', extended, after, read⟩ :=
            readVariables_parameter count one typed notMem (.inr rfl) h
          exact ⟨s', c', extended, after, read⟩
      | cons next ps =>
          have length : (", " : String).length = 2 := rfl
          have comma : ∀ r : String, (", " ++ r).toList = ',' :: ' ' :: r.toList := by
            intro r
            rw [String.toList_append]
            rfl
          rw [parametersText_cons_cons, String.length_append, String.length_append] at enough
          rw [parametersText_cons_cons, String.toList_append, comma, List.append_assoc,
            List.cons_append, List.cons_append] at h
          obtain ⟨s', c', extended, after, read⟩ :=
            readVariables_parameter count one typed notMem (.inl rfl) h
          obtain ⟨count, rfl⟩ : ∃ n, count = n + 1 := ⟨count - 1, by omega⟩
          have fresh' : (s'.variableNames ++ Keyed.keys (next :: ps)).Nodup := by
            rw [variableNames, extended.parameters, Keyed.keys_append, List.append_assoc]
            exact fresh
          have after' : c'.rest.dropWhile Text.isBlank
              = (parametersText (next :: ps)).toList ++ ')' :: rest := by
            obtain ⟨letter, tail, first, alphabetic⟩ :=
              parametersText_first (spelled next (List.mem_cons_of_mem p List.mem_cons_self)) ps
            have blank : Text.isBlank ' ' = true := rfl
            rw [after, List.dropWhile_cons,
              if_pos blank, first, List.cons_append, List.dropWhile_cons,
              not_isBlank_of_isAlphabetic alphabetic]
            rfl
          obtain ⟨s'', c'', extended', after'', read'⟩ :=
            ih nofun (fun q hq => spelled q (List.mem_cons_of_mem p hq))
              (fun q hq => nameable q (List.mem_cons_of_mem p hq)) fresh' after' count (by omega)
          refine ⟨s'', c'', ⟨?_, ?_, ?_⟩, after'', read.trans read'⟩
          · rw [extended'.name, extended.name]
          · rw [extended'.explicit, extended.explicit]
          · rw [extended'.parameters, extended.parameters, List.append_assoc]
            rfl

theorem name_append {c : Cursor} {name : String} {rest : List Char}
    (words : ∀ c ∈ name.toList, isWord c = true) (ends : Ends isWord rest)
    (h : c.rest = name.toList ++ rest) :
    c.skipBlanks.name.1 = name ∧ c.skipBlanks.name.2.rest = rest.dropWhile Text.isBlank := by
  have apart : ∀ ch, Text.isBlank ch = true → isWord ch = false := fun ch => not_isWord_of_isBlank
  cases spelled : name.toList with
  | nil =>
      have skipped : c.skipBlanks.rest = [] ++ rest.dropWhile Text.isBlank := by
        show c.rest.dropWhile Text.isBlank = _
        rw [h, spelled, List.nil_append, List.nil_append]
      have ends : Ends isWord (rest.dropWhile Text.isBlank) := by
        rw [Ends, List.dropWhile_idempotent]
        exact ends
      obtain ⟨read, after⟩ := spanLoose_append apart (List.forall_mem_nil _) ends skipped
      rw [← spelled, String.ofList_toList] at read
      rw [List.dropWhile_idempotent] at after
      exact ⟨read, after⟩
  | cons ch cs =>
      have word : isWord ch = true := words ch (spelled ▸ List.mem_cons_self)
      have skipped : c.skipBlanks.rest = name.toList ++ rest := by
        rw [spelled, List.cons_append] at h ⊢
        exact skipBlanks_rest h (not_isBlank_of_spelled (.inl word))
      obtain ⟨read, after⟩ := spanLoose_append apart words ends skipped
      rw [String.ofList_toList] at read
      exact ⟨read, after⟩

-- A specification is its name and its variables.
theorem eq_of_extends {s s' : Specification} (explicit : s.explicit = true)
    (h : (named s.name).Extends s.parameters s') : s' = s := by
  obtain ⟨name, parameters, explicit', nodup⟩ := s
  obtain ⟨name', parameters', explicit'', nodup'⟩ := s'
  obtain ⟨sameName, sameExplicit, same⟩ := h
  cases sameName
  cases sameExplicit
  cases same
  cases explicit
  rfl

/-- Whether a text is made of blanks. -/
def IsBlankText (tail : String) : Prop :=
  ∀ c ∈ tail.toList, Text.isBlank c = true

theorem IsBlankText.dropWhile {tail : String} (h : IsBlankText tail) :
    tail.toList.dropWhile Text.isBlank = [] :=
  List.dropWhile_eq_nil_iff.mpr h

theorem IsBlankText.ends {tail : String} (h : IsBlankText tail) {p : Char → Bool} :
    Ends p tail.toList := by
  intro c rest same
  rw [h.dropWhile] at same
  cases same

theorem text_of_nil {s : Specification} (empty : s.parameters = []) : s.text = s.name := by
  rw [text_eq, empty, List.isEmpty_nil, if_pos rfl]

theorem text_of_cons {s : Specification} (there : s.parameters ≠ []) :
    s.text = s.name ++ ("(" ++ (parametersText s.parameters ++ ")")) := by
  rw [text_eq, List.isEmpty_eq_false_iff.mpr there, if_neg Bool.false_ne_true, String.append_assoc,
    String.append_assoc]
  rfl

theorem read_named {s : Specification} (h : s.Declared types) (empty : s.parameters = [])
    {tail : String} (blank : IsBlankText tail) : read types (s.text ++ tail) = .ok s := by
  have whole : (Cursor.ofText (s.name ++ tail)).rest = s.name.toList ++ tail.toList :=
    String.toList_append
  obtain ⟨own, after⟩ := name_append h.name blank.ends whole
  have finished : (Cursor.ofText (s.name ++ tail)).skipBlanks.name.2.skipBlanks.peek? = none := by
    show (List.dropWhile _ _).head? = none
    rw [after, blank.dropWhile]
    rfl
  unfold read
  dsimp only
  rw [text_of_nil empty, finished, own]
  refine congrArg Except.ok (eq_of_extends h.explicit ⟨rfl, rfl, ?_⟩)
  rw [empty]
  rfl

theorem read_listed {s : Specification} (h : s.Declared types) (there : s.parameters ≠ [])
    (nameable : ∀ p ∈ s.parameters, Nameable types p.2) {tail : String}
    (blank : IsBlankText tail) : read types (s.text ++ tail) = .ok s := by
  have whole : (Cursor.ofText (s.text ++ tail)).rest
      = s.name.toList ++ '(' :: ((parametersText s.parameters).toList ++ ')' :: tail.toList) := by
    show (s.text ++ tail).toList = _
    rw [text_of_cons there, String.toList_append, String.toList_append, String.toList_append,
      String.toList_append, List.append_assoc, List.append_assoc, List.append_assoc]
    rfl
  have opens : Ends isWord
      ('(' :: ((parametersText s.parameters).toList ++ ')' :: tail.toList)) := by
    intro c rest same
    cases same
    decide +kernel
  obtain ⟨own, after⟩ := name_append h.name opens whole
  have ahead : (Cursor.ofText (s.text ++ tail)).skipBlanks.name.2.skipBlanks.rest
      = '(' :: ((parametersText s.parameters).toList ++ ')' :: tail.toList) := by
    show List.dropWhile _ _ = _
    rw [after]
    rfl
  have peeked :
      (Cursor.ofText (s.text ++ tail)).skipBlanks.name.2.skipBlanks.peek? = some '(' := by
    rw [peek?, ahead]
    rfl
  have listed : (Cursor.ofText (s.text ++ tail)).skipBlanks.name.2.skipBlanks.step.rest.dropWhile
      Text.isBlank = (parametersText s.parameters).toList ++ ')' :: tail.toList := by
    obtain ⟨p, ps, parameters⟩ := List.exists_cons_of_ne_nil there
    obtain ⟨letter, rest, first, alphabetic⟩ :=
      parametersText_first (h.spelled p (parameters ▸ List.mem_cons_self)) ps
    rw [step_rest ahead, parameters, first, List.cons_append, List.dropWhile_cons,
      not_isBlank_of_isAlphabetic alphabetic]
    rfl
  have enough : (parametersText s.parameters).length < (s.text ++ tail).length + 1 := by
    rw [text_of_cons there]
    simp only [String.length_append]
    omega
  obtain ⟨s', c', extended, after, isRead⟩ :=
    readVariables_append there h.spelled nameable (s := named s.name) s.parameters_nodup enough
      listed
  have finished : c'.skipBlanks.isFinished = true := by
    show List.isEmpty (List.dropWhile _ _) = true
    rw [after, blank.dropWhile]
    rfl
  unfold read
  dsimp only
  rw [peeked, own]
  dsimp only [bind, Except.bind]
  rw [isRead]
  dsimp only
  rw [finished]
  exact congrArg Except.ok (eq_of_extends h.explicit extended)

theorem Declared.nameable {s : Specification} (h : s.Declared types) (recalls : types.Recalls) :
    ∀ p ∈ s.parameters, Nameable types p.2 := by
  intro p hp other
  obtain ⟨text, found⟩ := (h.types p hp).resolve_left other
  exact ⟨recalls.spelled found, recalls.back found⟩

/-- A declared specification is read as it is written, whatever blanks stand behind it. -/
theorem Declared.parse_text_append {s : Specification} (h : s.Declared types)
    (recalls : types.Recalls) {tail : String} (blank : IsBlankText tail) :
    parse (s.text ++ tail) types = .ok s := by
  rw [parse, mapError_ok_iff]
  by_cases empty : s.parameters = []
  · exact read_named h empty blank
  · exact read_listed h empty (h.nameable recalls) blank

theorem Declared.parse_text_blank {s : Specification} (h : s.Declared types)
    (recalls : types.Recalls) : parse (s.text ++ " ") types = .ok s := by
  refine h.parse_text_append recalls fun c hc => ?_
  rw [List.mem_singleton.mp hc]
  rfl

theorem Declared.parse_own_text {s : Specification} (h : s.Declared types)
    (recalls : types.Recalls) : parse s.text types = .ok s := by
  have nothing : IsBlankText "" := nofun
  have read := h.parse_text_append recalls nothing
  rwa [String.append_empty] at read

/-! ## Brackets -/

theorem bracketed_typeText {type : TypeInfo} (nameable : Nameable types type) {barred : Bool} :
    Bracketed barred (typeText type).toList := by
  by_cases any : type = .any
  · subst any
    exact .nil
  · rw [typeText_of_ne any, String.toList_append]
    refine .char (by decide) nofun (.char (by decide) nofun (Bracketed.of_all fun c hc => ?_))
    rcases (nameable any).1.2 c hc with word | rfl
    · exact isPlain_of_isWord word
    · decide

theorem bracketed_parametersText {parameters : Keyed String TypeInfo}
    (spelled : ∀ p ∈ parameters, IsVariable p.1.toList)
    (nameable : ∀ p ∈ parameters, Nameable types p.2) {barred : Bool} :
    Bracketed barred (parametersText parameters).toList := by
  have one : ∀ p ∈ parameters, Bracketed barred (parameterText p).toList := by
    intro p hp
    rw [parameterText_eq, String.toList_append]
    exact (Bracketed.of_words (spelled p hp).words).append (bracketed_typeText (nameable p hp))
  induction parameters with
  | nil => exact .nil
  | cons p ps ih =>
      have rest := ih (fun q hq => spelled q (List.mem_cons_of_mem p hq))
        (fun q hq => nameable q (List.mem_cons_of_mem p hq))
        (fun q hq => one q (List.mem_cons_of_mem p hq))
      cases ps with
      | nil =>
          rw [parametersText, List.map_singleton, String.intercalate_singleton]
          exact one p List.mem_cons_self
      | cons q ps =>
          rw [parametersText_cons_cons, String.toList_append, String.toList_append]
          exact (one p List.mem_cons_self).append
            (.char (by decide) nofun (.char (by decide) nofun rest))

/-- A declared specification has no sign that ends a declaration. -/
theorem Declared.not_equals {s : Specification} (h : s.Declared types)
    (nameable : ∀ p ∈ s.parameters, Nameable types p.2) : ∀ c ∈ s.text.toList, c ≠ '=' := by
  have bracketed : Bracketed false s.text.toList := by
    by_cases empty : s.parameters = []
    · rw [text_of_nil empty]
      exact Bracketed.of_words h.name
    · have inside : Bracketed false (parametersText s.parameters).toList :=
        bracketed_parametersText h.spelled nameable
      rw [text_of_cons empty, String.toList_append, String.toList_append, String.toList_append]
      exact (Bracketed.of_words h.name).append inside.parenthesised
  exact bracketed.not_equals

end Specification

end FormulaLang
