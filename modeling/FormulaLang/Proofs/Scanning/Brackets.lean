import FormulaLang.Proofs.Scanning.Characters

/-!
Texts in which every parenthesis has its partner.  Such a text is the inside of a group when it
stands in parentheses, and the inside of a magnitude when it stands in bars and has no bar of its
own outside parentheses.
-/

namespace FormulaLang.Cursor

/-- Whether a character is neither a parenthesis nor the sign that ends a declaration. -/
def isPlain (c : Char) : Bool :=
  c != '(' && c != ')' && c != '='

theorem ne_of_isPlain {c : Char} (plain : isPlain c = true) : c ≠ '(' ∧ c ≠ ')' ∧ c ≠ '=' := by
  simp only [isPlain, Bool.and_eq_true, bne_iff_ne] at plain
  exact ⟨plain.1.1, plain.1.2, plain.2⟩

-- A kind that the signs do not belong to has plain characters only.
theorem isPlain_of_kind {p : Char → Bool}
    (outside : p '(' = false ∧ p ')' = false ∧ p '=' = false ∧ p '|' = false) {c : Char}
    (h : p c = true) : isPlain c = true ∧ c ≠ '|' := by
  obtain ⟨opens, closes, ends, bar⟩ := outside
  refine ⟨?_, Text.ne_of_kind h bar⟩
  simp only [isPlain, Bool.and_eq_true, bne_iff_ne]
  exact ⟨⟨Text.ne_of_kind h opens, Text.ne_of_kind h closes⟩, Text.ne_of_kind h ends⟩

theorem isPlain_of_isWord {c : Char} (word : isWord c = true) : isPlain c = true ∧ c ≠ '|' :=
  isPlain_of_kind (by decide +kernel) word

/-- Plain characters and groups in parentheses; `barred` tells whether a bar may stand outside the
parentheses. -/
inductive Bracketed : Bool → List Char → Prop where
  | nil {barred : Bool} : Bracketed barred []
  | char {barred : Bool} {c : Char} {cs : List Char} (plain : isPlain c = true)
      (bar : c = '|' → barred = true) (h : Bracketed barred cs) : Bracketed barred (c :: cs)
  | group {barred inner : Bool} {cs rest : List Char} (inside : Bracketed inner cs)
      (h : Bracketed barred rest) : Bracketed barred ('(' :: (cs ++ ')' :: rest))

namespace Bracketed

variable {barred : Bool} {cs rest : List Char}

theorem mono {barred' : Bool} (h : Bracketed barred cs) (le : barred = true → barred' = true) :
    Bracketed barred' cs := by
  induction h with
  | nil => exact .nil
  | char plain bar _ ih => exact .char plain (fun hc => le (bar hc)) (ih le)
  | group inside _ _ ih => exact .group inside (ih le)

theorem append (h : Bracketed barred cs) (hrest : Bracketed barred rest) :
    Bracketed barred (cs ++ rest) := by
  induction h with
  | nil => exact hrest
  | char plain bar _ ih => exact .char plain bar (ih hrest)
  | group inside _ _ ih =>
      rw [List.cons_append, List.append_assoc, List.cons_append]
      exact .group inside (ih hrest)

theorem of_all (h : ∀ c ∈ cs, isPlain c = true ∧ c ≠ '|') : Bracketed barred cs := by
  induction cs with
  | nil => exact .nil
  | cons c cs ih =>
      obtain ⟨plain, bar⟩ := h c List.mem_cons_self
      exact .char plain (fun hc => absurd hc bar) (ih fun d hd => h d (List.mem_cons_of_mem c hd))

theorem of_words (words : ∀ c ∈ cs, isWord c = true) : Bracketed barred cs :=
  of_all fun c hc => isPlain_of_isWord (words c hc)

theorem parenthesised (h : Bracketed barred cs) : Bracketed false ('(' :: (cs ++ [')'])) :=
  .group h .nil

theorem not_equals (h : Bracketed barred cs) : ∀ c ∈ cs, c ≠ '=' := by
  induction h with
  | nil => nofun
  | char plain _ _ ih =>
      intro c hc
      rcases List.mem_cons.mp hc with rfl | hc
      · exact (ne_of_isPlain plain).2.2
      · exact ih c hc
  | group _ _ ihInside ih =>
      intro c hc
      rcases List.mem_cons.mp hc with rfl | hc
      · decide
      · rcases List.mem_append.mp hc with hc | hc
        · exact ihInside c hc
        · rcases List.mem_cons.mp hc with rfl | hc
          · decide
          · exact ih c hc

end Bracketed

/-! ## Splitting -/

/-- A split with more characters in front of the raw text. -/
def before (front : List Char) (split? : Option (List Char × List Char)) :
    Option (List Char × List Char) :=
  split?.map fun (raw, rest) => (front ++ raw, rest)

theorem before_nil (split? : Option (List Char × List Char)) : before [] split? = split? := by
  cases split? <;> rfl

theorem before_before (front front' : List Char) (split? : Option (List Char × List Char)) :
    before front (before front' split?) = before (front ++ front') split? := by
  cases split? with
  | none => rfl
  | some split => exact congrArg (fun cs => some (cs, split.2)) (List.append_assoc _ _ _).symm

variable {c : Char} {barred : Bool} {cs : List Char}

theorem splitGroup?_open (depth : Nat) (rest : List Char) :
    splitGroup? depth ('(' :: rest) = before ['('] (splitGroup? (depth + 1) rest) :=
  rfl

theorem splitGroup?_close (depth : Nat) (rest : List Char) :
    splitGroup? (depth + 1) (')' :: rest) = before [')'] (splitGroup? depth rest) :=
  rfl

theorem splitGroup?_plain (plain : isPlain c = true) (depth : Nat) (rest : List Char) :
    splitGroup? depth (c :: rest) = before [c] (splitGroup? depth rest) := by
  obtain ⟨notOpen, notClosed, -⟩ := ne_of_isPlain plain
  simp only [splitGroup?, notOpen, notClosed, if_false]
  rfl

/-- The search for the end of a group passes over a bracketed text. -/
theorem Bracketed.splitGroup? (h : Bracketed barred cs) (depth : Nat) (rest : List Char) :
    Cursor.splitGroup? depth (cs ++ rest) = before cs (Cursor.splitGroup? depth rest) := by
  induction h generalizing depth rest with
  | nil => exact (before_nil _).symm
  | char plain _ _ ih =>
      rw [List.cons_append, splitGroup?_plain plain, ih, before_before]
      rfl
  | group _ _ ihInside ih =>
      rw [List.cons_append, List.append_assoc, splitGroup?_open, ihInside, List.cons_append,
        splitGroup?_close, ih, before_before, before_before, before_before,
        List.append_assoc, List.append_assoc]
      rfl

theorem splitMagnitude?_open (depth : Nat) (rest : List Char) :
    splitMagnitude? depth ('(' :: rest) = before ['('] (splitMagnitude? (depth + 1) rest) :=
  rfl

theorem splitMagnitude?_close (depth : Nat) (rest : List Char) :
    splitMagnitude? (depth + 1) (')' :: rest) = before [')'] (splitMagnitude? depth rest) :=
  rfl

theorem splitMagnitude?_plain (plain : isPlain c = true) {depth : Nat}
    (bar : c = '|' → depth ≠ 0) (rest : List Char) :
    splitMagnitude? depth (c :: rest) = before [c] (splitMagnitude? depth rest) := by
  obtain ⟨notOpen, notClosed, -⟩ := ne_of_isPlain plain
  have passes : (c = '|' && depth = 0) = false := by
    rw [← Bool.not_eq_true, Bool.and_eq_true, decide_eq_true_eq, decide_eq_true_eq]
    exact fun h => bar h.1 h.2
  simp only [splitMagnitude?, notOpen, notClosed, passes, if_false, Bool.false_eq_true]
  rfl

/-- The search for the end of a magnitude passes over a bracketed text if a bar outside its
parentheses would be inside others. -/
theorem Bracketed.splitMagnitude? (h : Bracketed barred cs) {depth : Nat}
    (deep : barred = true → depth ≠ 0) (rest : List Char) :
    Cursor.splitMagnitude? depth (cs ++ rest) = before cs (Cursor.splitMagnitude? depth rest) := by
  induction h generalizing depth rest with
  | nil => exact (before_nil _).symm
  | char plain bar _ ih =>
      rw [List.cons_append, splitMagnitude?_plain plain (fun hc => deep (bar hc)), ih deep,
        before_before]
      rfl
  | group _ _ ihInside ih =>
      rw [List.cons_append, List.append_assoc, splitMagnitude?_open,
        ihInside fun _ => Nat.succ_ne_zero depth, List.cons_append, splitMagnitude?_close, ih deep,
        before_before, before_before, before_before, List.append_assoc, List.append_assoc]
      rfl

end FormulaLang.Cursor
