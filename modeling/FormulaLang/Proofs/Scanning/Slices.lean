import FormulaLang.Proofs.Scanning.Spoken

/-!
Reading a text loses nothing.  Each reading moves the cursor over a slice of the text, and the slice
without the blanks in front of it spells the token read from it.  Which parentheses and bars close
is said by counting alone, apart from the search for them.
-/

namespace FormulaLang

namespace Cursor

open Text

/-! ## Moving -/

/-- A cursor is moved over characters of its text, one after the other. -/
def Reaches (c after : Cursor) : Prop :=
  ∃ taken, c.rest = taken ++ after.rest ∧ after.offset = c.offset + byteLength taken

/-- A cursor stands in a text, between two of its characters. -/
def IsWithin (text : String) (c : Cursor) : Prop :=
  ∃ taken, text.toList = taken ++ c.rest ∧ c.offset = byteLength taken

/-- The cursor after some readings of tokens, failed ones included. -/
def afterReading : Nat → Cursor → Cursor
  | 0, c => c
  | count + 1, c => (afterReading count c).token.2

section

variable {c d e : Cursor} {taken rest : List Char} {text : String}

theorem Reaches.refl (c : Cursor) : Reaches c c :=
  ⟨[], rfl, rfl⟩

theorem Reaches.trans (h : Reaches c d) (h' : Reaches d e) : Reaches c e := by
  obtain ⟨taken, slice, offset⟩ := h
  obtain ⟨taken', slice', offset'⟩ := h'
  refine ⟨taken ++ taken', ?_, ?_⟩
  · rw [slice, slice', List.append_assoc]
  · rw [offset', offset, byteLength_append, Nat.add_assoc]

theorem reaches_past (h : c.rest = taken ++ rest) : Reaches c (c.past taken rest) :=
  ⟨taken, h, rfl⟩

theorem reaches_span (p : Char → Bool) (c : Cursor) : Reaches c (c.span p).2 :=
  reaches_past List.takeWhile_append_dropWhile.symm

theorem reaches_skipBlanks (c : Cursor) : Reaches c c.skipBlanks :=
  reaches_span isBlank c

theorem reaches_step (c : Cursor) : Reaches c c.step :=
  reaches_past (List.take_append_drop 1 c.rest).symm

-- Raw text without its end is read to the end of the text.
theorem reaches_closed {cause : Cause} {close : Char} {split? : Option (List Char × List Char)}
    (slice : ∀ raw rest, split? = some (raw, rest) → c.rest = raw ++ close :: rest) :
    Reaches c (c.closed cause split?).2 := by
  cases split? with
  | none => exact reaches_past (List.append_nil _).symm
  | some split =>
      obtain ⟨raw, rest⟩ := split
      have ahead : c.rest = (raw ++ [close]) ++ rest := by
        rw [slice raw rest rfl, List.append_assoc]
        rfl
      have taken : c.rest.take (raw.length + 1) = raw ++ [close] := by
        rw [ahead]
        exact List.take_left' List.length_append
      refine reaches_past ?_
      rw [taken]
      exact ahead

theorem reaches_group (c : Cursor) : Reaches c c.group.2 :=
  reaches_closed fun _ _ => closes_splitGroup?.slice

theorem reaches_magnitude (c : Cursor) : Reaches c c.magnitude.2 :=
  reaches_closed fun _ _ => closes_splitMagnitude?.slice

theorem reaches_variableName (c : Cursor) : Reaches c c.variableName.2 := by
  unfold variableName
  split
  · exact .refl c
  · split
    · dsimp only
      split
      · exact ((reaches_step c).trans (reaches_step _)).trans (reaches_span _ _)
      · exact reaches_step c
    · exact .refl c

theorem reaches_number (c : Cursor) : Reaches c c.number.2 := by
  have text : Reaches c c.numericText.2 := reaches_span _ c
  unfold number
  dsimp only
  split <;> exact text

/-- Reading a token moves the cursor on in its text, whether it succeeds or not. -/
theorem reaches_token (c : Cursor) : Reaches c c.token.2 := by
  have skipped := reaches_skipBlanks c
  have stepped := skipped.trans (reaches_step _)
  cases ahead : c.skipBlanks.rest with
  | nil =>
      rw [token_of_nil ahead]
      exact skipped
  | cons ch rest =>
      cases found : Operation.ofChar? ch with
      | some op =>
          rw [token_of_operator ahead found]
          exact stepped
      | none =>
          by_cases opens : ch = '('
          · subst opens
            rw [token_of_group ahead]
            exact stepped.trans (reaches_group _)
          by_cases bar : ch = '|'
          · subst bar
            rw [token_of_magnitude ahead]
            exact stepped.trans (reaches_magnitude _)
          by_cases alphabetic : isAlphabetic ch = true
          · by_cases uncalled : Uncalled (ch :: rest)
            · rw [token_of_uncalled ahead alphabetic uncalled]
              exact skipped.trans (reaches_variableName _)
            · rw [token_of_called ahead alphabetic uncalled]
              exact skipped.trans (reaches_span _ _)
          by_cases digit : ch.isDigit = true
          · rw [token_of_digit ahead digit]
            exact skipped.trans (reaches_number _)
          · unfold Cursor.token
            dsimp only
            rw [ahead]
            dsimp only
            rw [found]
            dsimp only
            rw [if_neg opens, if_neg bar, if_neg alphabetic, if_neg digit]
            exact skipped

theorem IsWithin.reaches (h : c.IsWithin text) (moved : Reaches c d) : d.IsWithin text := by
  obtain ⟨taken, slice, offset⟩ := h
  obtain ⟨taken', slice', offset'⟩ := moved
  refine ⟨taken ++ taken', ?_, ?_⟩
  · rw [slice, slice', List.append_assoc]
  · rw [offset', offset, byteLength_append]

theorem isWithin_afterReading (text : String) (count : Nat) :
    (afterReading count (ofText text)).IsWithin text := by
  induction count with
  | zero => exact ⟨[], rfl, rfl⟩
  | succ count ih => exact ih.reaches (reaches_token _)

theorem byteLength_pos (there : taken ≠ []) : 0 < byteLength taken := by
  cases taken with
  | nil => exact absurd rfl there
  | cons ch cs => exact Nat.add_pos_left ch.utf8Size_pos _

theorem offset_lt_of_token {token : Token} {after : Cursor}
    (read : c.token = (.ok (some token), after)) : c.offset < after.offset := by
  have moved := reaches_token c
  rw [read] at moved
  obtain ⟨taken, slice, offset⟩ := moved
  have offset : after.offset = c.offset + byteLength taken := offset
  rcases cuts_of_token read with ⟨⟨⟩, -⟩ | ⟨token, ⟨⟩, cut⟩
  have shorter : after.rest.length < c.rest.length := Scan.length_of_cuts cut
  have there : taken ≠ [] := by
    rintro rfl
    rw [slice, List.nil_append] at shorter
    exact Nat.lt_irrefl _ shorter
  have := byteLength_pos there
  omega

theorem blank_of_token {after : Cursor} (read : c.token = (.ok none, after)) :
    ∀ ch ∈ c.rest, isBlank ch = true := by
  rcases cuts_of_token read with ⟨-, none⟩ | ⟨token, ⟨⟩, -⟩
  exact List.dropWhile_eq_nil_iff.mp none

end

/-! ## Parentheses -/

/-- No more parentheses are closed than are opened before, `spare` of them apart. -/
def Covered (spare : Nat) (cs : List Char) : Prop :=
  ∀ front, front <+: cs → front.count ')' ≤ spare + front.count '('

/-- The parentheses of a text pair up in it. -/
def Balanced (cs : List Char) : Prop :=
  Covered 0 cs ∧ cs.count '(' = cs.count ')'

/-- At the end of a text, a parenthesis in it is still open. -/
def IsInside (cs : List Char) : Prop :=
  ∃ front back, cs = front ++ '(' :: back ∧ Covered 0 back

section

variable {spare depth : Nat} {ch : Char} {cs raw after : List Char}

theorem covered_nil (spare : Nat) : Covered spare [] := by
  intro front among
  rw [List.prefix_nil.mp among]
  exact Nat.zero_le _

theorem Covered.mono {spare' : Nat} (h : Covered spare cs) (le : spare ≤ spare') :
    Covered spare' cs := by
  intro front among
  have := h front among
  omega

theorem covered_cons : Covered spare (ch :: cs) ↔
    ∀ front, front <+: cs →
      (ch :: front).count ')' ≤ spare + (ch :: front).count '(' := by
  constructor
  · exact fun h front among => h _ (List.cons_prefix_cons.mpr ⟨rfl, among⟩)
  · intro h front among
    rcases List.prefix_cons_iff.mp among with rfl | ⟨front', rfl, among'⟩
    · exact Nat.zero_le _
    · exact h front' among'

theorem covered_open : Covered spare ('(' :: cs) ↔ Covered (spare + 1) cs := by
  rw [covered_cons]
  refine forall_congr' fun front => forall_congr' fun _ => ?_
  rw [List.count_cons_of_ne (by decide), List.count_cons_self]
  omega

theorem covered_close : Covered (spare + 1) (')' :: cs) ↔ Covered spare cs := by
  rw [covered_cons]
  refine forall_congr' fun front => forall_congr' fun _ => ?_
  rw [List.count_cons_self, List.count_cons_of_ne (by decide)]
  omega

theorem not_covered_close : ¬ Covered 0 (')' :: cs) := by
  intro h
  exact absurd (h [')'] (List.cons_prefix_cons.mpr ⟨rfl, List.nil_prefix⟩)) (by decide)

theorem covered_other (opens : ch ≠ '(') (closes : ch ≠ ')') :
    Covered spare (ch :: cs) ↔ Covered spare cs := by
  rw [covered_cons]
  refine forall_congr' fun front => forall_congr' fun _ => ?_
  rw [List.count_cons_of_ne closes, List.count_cons_of_ne opens]

-- The search for the end of a group stops where one more is closed than was opened.
theorem covered_of_splitGroup? (split : splitGroup? depth cs = some (raw, after)) :
    Covered depth raw ∧ raw.count ')' = depth + raw.count '(' := by
  induction cs generalizing depth raw with
  | nil => cases split
  | cons ch cs ih =>
      by_cases opens : ch = '('
      · subst opens
        rw [splitGroup?_open] at split
        obtain ⟨inside, found, rfl⟩ := before_eq_some split
        obtain ⟨covered, counts⟩ := ih found
        refine ⟨covered_open.mpr covered, ?_⟩
        show List.count ')' ('(' :: inside) = depth + List.count '(' ('(' :: inside)
        rw [List.count_cons_of_ne (by decide), List.count_cons_self]
        omega
      by_cases closes : ch = ')'
      · subst closes
        cases depth with
        | zero =>
            cases split
            exact ⟨covered_nil 0, rfl⟩
        | succ depth =>
            rw [splitGroup?_close] at split
            obtain ⟨inside, found, rfl⟩ := before_eq_some split
            obtain ⟨covered, counts⟩ := ih found
            refine ⟨covered_close.mpr covered, ?_⟩
            show List.count ')' (')' :: inside) = depth + 1 + List.count '(' (')' :: inside)
            rw [List.count_cons_self, List.count_cons_of_ne (by decide)]
            omega
      · have step : splitGroup? depth (ch :: cs) = before [ch] (splitGroup? depth cs) := by
          simp only [splitGroup?, opens, closes, if_false]
          rfl
        rw [step] at split
        obtain ⟨inside, found, rfl⟩ := before_eq_some split
        obtain ⟨covered, counts⟩ := ih found
        refine ⟨(covered_other opens closes).mpr covered, ?_⟩
        show List.count ')' (ch :: inside) = depth + List.count '(' (ch :: inside)
        rw [List.count_cons_of_ne closes, List.count_cons_of_ne opens]
        exact counts

/-- The inside of a group is balanced, and no shorter text before a `)` in it is. -/
theorem balanced_of_splitGroup? (split : splitGroup? 0 cs = some (raw, after)) :
    Balanced raw ∧ ∀ front back, raw = front ++ ')' :: back → ¬ Balanced front := by
  obtain ⟨covered, counts⟩ := covered_of_splitGroup? split
  refine ⟨⟨covered, by omega⟩, ?_⟩
  rintro front back rfl ⟨-, even⟩
  have closed := covered (front ++ [')']) ⟨back, by rw [List.append_assoc]; rfl⟩
  rw [List.count_append, List.count_append] at closed
  have one : List.count ')' [')'] = 1 := rfl
  have none : List.count '(' [')'] = 0 := rfl
  omega

/-- At the end of a text that is inside `depth` parentheses, one of these or one in the text is
still open. -/
def IsEnclosed (depth : Nat) (cs : List Char) : Prop :=
  IsInside cs ∨ ∃ spare, depth = spare + 1 ∧ Covered spare cs

theorem not_isInside_nil : ¬ IsInside [] := by
  rintro ⟨front, back, none, -⟩
  cases front <;> cases none

theorem isInside_cons : IsInside (ch :: cs) ↔ IsInside cs ∨ ch = '(' ∧ Covered 0 cs := by
  constructor
  · rintro ⟨front, back, slice, covered⟩
    cases front with
    | nil =>
        cases slice
        exact .inr ⟨rfl, covered⟩
    | cons _ front =>
        cases slice
        exact .inl ⟨front, back, rfl, covered⟩
  · rintro (⟨front, back, rfl, covered⟩ | ⟨rfl, covered⟩)
    · exact ⟨ch :: front, back, rfl, covered⟩
    · exact ⟨[], cs, rfl, covered⟩

theorem isEnclosed_zero : IsEnclosed 0 cs ↔ IsInside cs :=
  or_iff_left (by rintro ⟨spare, ⟨⟩, -⟩)

theorem isEnclosed_nil : IsEnclosed depth [] ↔ depth ≠ 0 := by
  constructor
  · rintro (inside | ⟨spare, rfl, -⟩)
    · exact absurd inside not_isInside_nil
    · exact Nat.succ_ne_zero spare
  · intro deep
    exact .inr ⟨depth - 1, by omega, covered_nil _⟩

theorem isEnclosed_open : IsEnclosed depth ('(' :: cs) ↔ IsEnclosed (depth + 1) cs := by
  constructor
  · rintro (inside | ⟨spare, rfl, covered⟩)
    · rcases isInside_cons.mp inside with inside | ⟨-, covered⟩
      · exact .inl inside
      · exact .inr ⟨depth, rfl, covered.mono (Nat.zero_le _)⟩
    · exact .inr ⟨spare + 1, rfl, covered_open.mp covered⟩
  · rintro (inside | ⟨spare, same, covered⟩)
    · exact .inl (isInside_cons.mpr (.inl inside))
    · cases same
      cases depth with
      | zero => exact .inl (isInside_cons.mpr (.inr ⟨rfl, covered⟩))
      | succ depth => exact .inr ⟨depth, rfl, covered_open.mpr covered⟩

theorem isEnclosed_close : IsEnclosed depth (')' :: cs) ↔ IsEnclosed (depth - 1) cs := by
  constructor
  · rintro (inside | ⟨spare, rfl, covered⟩)
    · rcases isInside_cons.mp inside with inside | ⟨⟨⟩, -⟩
      exact .inl inside
    · cases spare with
      | zero => exact absurd covered not_covered_close
      | succ spare => exact .inr ⟨spare, rfl, covered_close.mp covered⟩
  · rintro (inside | ⟨spare, same, covered⟩)
    · exact .inl (isInside_cons.mpr (.inl inside))
    · exact .inr ⟨spare + 1, by omega, covered_close.mpr covered⟩

theorem isEnclosed_other (opens : ch ≠ '(') (closes : ch ≠ ')') :
    IsEnclosed depth (ch :: cs) ↔ IsEnclosed depth cs := by
  refine or_congr ?_ (exists_congr fun spare => and_congr_right fun _ =>
    covered_other opens closes)
  rw [isInside_cons]
  exact or_iff_left fun h => opens h.1

-- One character on, with the depth that it leads to.
theorem enclosed_cons {depth' : Nat}
    (shifts : ∀ cs, IsEnclosed depth (ch :: cs) ↔ IsEnclosed depth' cs) (bar : ch = '|' → depth ≠ 0)
    (h : ¬ IsEnclosed depth' raw
      ∧ ∀ front back, raw = front ++ '|' :: back → IsEnclosed depth' front) :
    ¬ IsEnclosed depth (ch :: raw)
      ∧ ∀ front back, ch :: raw = front ++ '|' :: back → IsEnclosed depth front := by
  refine ⟨mt (shifts raw).mp h.1, fun front back slice => ?_⟩
  cases front with
  | nil =>
      cases slice
      exact isEnclosed_nil.mpr (bar rfl)
  | cons _ front =>
      cases slice
      exact (shifts front).mpr (h.2 front back rfl)

-- The search for the end of a magnitude stops at the first bar that no parenthesis encloses.
theorem enclosed_of_splitMagnitude? (split : splitMagnitude? depth cs = some (raw, after)) :
    ¬ IsEnclosed depth raw
      ∧ ∀ front back, raw = front ++ '|' :: back → IsEnclosed depth front := by
  induction cs generalizing depth raw with
  | nil => cases split
  | cons ch cs ih =>
      by_cases opens : ch = '('
      · subst opens
        rw [splitMagnitude?_open] at split
        obtain ⟨inside, found, rfl⟩ := before_eq_some split
        exact enclosed_cons (fun _ => isEnclosed_open) nofun (ih found)
      by_cases closes : ch = ')'
      · subst closes
        have split : before [')'] (splitMagnitude? (depth - 1) cs) = some (raw, after) := split
        obtain ⟨inside, found, rfl⟩ := before_eq_some split
        exact enclosed_cons (fun _ => isEnclosed_close) nofun (ih found)
      by_cases bar : ch = '|' ∧ depth = 0
      · obtain ⟨rfl, rfl⟩ := bar
        cases split
        refine ⟨mt isEnclosed_nil.mp (absurd rfl), fun front _ slice => ?_⟩
        cases front <;> cases slice
      · have step : splitMagnitude? depth (ch :: cs) = before [ch] (splitMagnitude? depth cs) := by
          have passes : (ch = '|' && depth = 0) = false := by
            rw [← Bool.not_eq_true, Bool.and_eq_true, decide_eq_true_eq, decide_eq_true_eq]
            exact bar
          simp only [splitMagnitude?, opens, closes, passes, if_false, Bool.false_eq_true]
          rfl
        rw [step] at split
        obtain ⟨inside, found, rfl⟩ := before_eq_some split
        exact enclosed_cons (fun _ => isEnclosed_other opens closes)
          (fun same none => bar ⟨same, none⟩) (ih found)

/-- The bar that closes a magnitude is the first one outside parentheses. -/
theorem isInside_of_splitMagnitude? (split : splitMagnitude? 0 cs = some (raw, after)) :
    ¬ IsInside raw ∧ ∀ front back, raw = front ++ '|' :: back → IsInside front := by
  simp only [← isEnclosed_zero]
  exact enclosed_of_splitMagnitude? split

end

end Cursor

/-! ## Spelling -/

/-- The raw text between parentheses or bars. -/
def Token.raw? : Token → Option String
  | group raw | magnitude raw => some raw
  | _ => none

/-- How a token is spelled, blanks left out where they have no meaning. -/
inductive Token.Spells : List Char → Token → Prop where
  | operator {op : Operation} (binary : op.isBinary = true) :
      Spells op.symbol.toList (.operator op)
  | group {raw : List Char} (balanced : Cursor.Balanced raw)
      (shortest : ∀ front back, raw = front ++ ')' :: back → ¬ Cursor.Balanced front) :
      Spells ('(' :: (raw ++ [')'])) (.group (String.ofList raw))
  | magnitude {raw : List Char} (outside : ¬ Cursor.IsInside raw)
      (first : ∀ front back, raw = front ++ '|' :: back → Cursor.IsInside front) :
      Spells ('|' :: (raw ++ ['|'])) (.magnitude (String.ofList raw))
  | name {slice : List Char} {name : String} (isName : Term.IsFunctionName name)
      (ink : name.toList = slice.filter fun ch => !Text.isBlank ch) :
      Spells slice (.name name)
  | var {slice : List Char} {name : String} (isVariable : Cursor.IsVariable name.toList)
      (ink : name.toList = slice.filter fun ch => !Text.isBlank ch) :
      Spells slice (.var name)
  | number {slice numeral : List Char} {x : Float} (isNumeral : Decimal.IsNumeral numeral)
      (ink : numeral = slice.filter fun ch => !Text.isBlank ch)
      (value : Decimal.readUnsigned? numeral = some x) :
      Spells slice (.number x)

namespace Cursor

open Text

variable {cs after : List Char} {token : Token}

-- Without blanks, what a run passes over is the run.
theorem filter_takeWhile {p : Char → Bool} (apart : ∀ ch, isBlank ch = true → p ch = false)
    (rest : List Char) :
    ((rest.takeWhile (isPassed p)).filter fun ch => !isBlank ch) = run p rest := by
  refine List.filter_congr fun ch mem => ?_
  have passed := List.all_eq_true.mp List.all_takeWhile ch mem
  cases blank : isBlank ch with
  | true => exact (apart ch blank).symm
  | false =>
      rw [isPassed, blank, Bool.or_false] at passed
      exact passed.symm

theorem filter_cons_ink {ch : Char} (ink : isBlank ch = false) (cs : List Char) :
    ((ch :: cs).filter fun ch => !isBlank ch) = ch :: cs.filter fun ch => !isBlank ch :=
  List.filter_cons_of_pos (by rw [ink]; rfl)

theorem symbol_of_ofChar? {ch : Char} {op : Operation} (found : Operation.ofChar? ch = some op) :
    op.symbol.toList = [ch] := by
  unfold Operation.ofChar? at found
  split at found <;> cases found <;> decide

/-- What a token is read from spells it. -/
theorem Cuts.spells (h : Cuts cs token after) :
    ∃ slice, cs = slice ++ after ∧ Token.Spells slice token := by
  cases h with
  | @operator ch op found rest =>
      refine ⟨[ch], rfl, ?_⟩
      rw [← symbol_of_ofChar? found]
      exact .operator (Operation.isBinary_of_ofChar? found)
  | @group rest raw after split =>
      obtain ⟨balanced, shortest⟩ := balanced_of_splitGroup? split
      refine ⟨_, ?_, .group balanced shortest⟩
      rw [closes_splitGroup?.slice split, List.cons_append, List.append_assoc]
      rfl
  | @magnitude rest raw after split =>
      obtain ⟨outside, first⟩ := isInside_of_splitMagnitude? split
      refine ⟨_, ?_, .magnitude outside first⟩
      rw [closes_splitMagnitude?.slice split, List.cons_append, List.append_assoc]
      rfl
  | @name letter alphabetic rest called =>
      refine ⟨letter :: rest.takeWhile (isPassed isWord),
        congrArg (letter :: ·) List.takeWhile_append_dropWhile.symm,
        .name (isFunctionName_run alphabetic rest) ?_⟩
      rw [String.toList_ofList, filter_cons_ink (not_isBlank_of_isAlphabetic alphabetic),
        filter_takeWhile fun _ => not_isWord_of_isBlank]
  | @letter letter alphabetic rest uncalled plain =>
      refine ⟨[letter], rfl, .var (by rw [String.toList_ofList]; exact .letter alphabetic) ?_⟩
      rw [String.toList_ofList, filter_cons_ink (not_isBlank_of_isAlphabetic alphabetic)]
      rfl
  | @subscript letter alphabetic rest uncalled =>
      refine ⟨letter :: '_' :: rest.takeWhile (isPassed isWord),
        congrArg (letter :: '_' :: ·) List.takeWhile_append_dropWhile.symm, .var ?_ ?_⟩
      · rw [String.toList_ofList]
        exact .subscript alphabetic fun ch => isWord_of_mem_run
      · rw [String.toList_ofList, filter_cons_ink (not_isBlank_of_isAlphabetic alphabetic),
          filter_cons_ink (by decide +kernel), filter_takeWhile fun _ => not_isWord_of_isBlank]
  | @number digit isDigit rest x value =>
      refine ⟨digit :: rest.takeWhile (isPassed Decimal.isNumeric),
        congrArg (digit :: ·) List.takeWhile_append_dropWhile.symm,
        .number ⟨⟨_, _, rfl, isDigit⟩, ?_⟩ ?_ value⟩
      · intro ch mem
        rcases List.mem_cons.mp mem with rfl | mem
        · exact Decimal.isNumeric_of_isDigit isDigit
        · exact (List.mem_filter.mp mem).2
      · rw [filter_cons_ink (not_isBlank_of_isDigit isDigit),
          filter_takeWhile fun _ => not_isNumeric_of_isBlank]

end Cursor

/-! ## A whole text -/

namespace Scan

open Cursor Text

/-- A text that starts `start` bytes into another is cut, slice after slice, to its end.  Each slice
is blanks and the spelling of a token, and each token is known with the place behind its slice. -/
inductive Slices : Nat → List Char → List Lexeme → Prop where
  | nil {start : Nat} {cs : List Char} (blank : ∀ ch ∈ cs, isBlank ch = true) : Slices start cs []
  | cons {start : Nat} {blanks slice rest : List Char} {token : Token} {lexemes : List Lexeme}
      (blank : ∀ ch ∈ blanks, isBlank ch = true)
      (ink : ∃ ch tail, slice = ch :: tail ∧ isBlank ch = false) (spells : token.Spells slice)
      (h : Slices (start + byteLength (blanks ++ slice)) rest lexemes) :
      Slices start ((blanks ++ slice) ++ rest)
        (⟨token, start + byteLength (blanks ++ slice)⟩ :: lexemes)

theorem CutUp.slices {total start : Nat} {cs : List Char} {lexemes : List Lexeme}
    (h : CutUp total cs lexemes) (within : start + byteLength cs = total) :
    Slices start cs lexemes := by
  induction h generalizing start with
  | nil blank => exact .nil (List.dropWhile_eq_nil_iff.mp blank)
  | @cons cs after token lexemes cut _ ih =>
      obtain ⟨slice, ahead, spells⟩ := cut.spells
      obtain ⟨taken, some, same⟩ := cut.slice
      obtain ⟨ch, tail, front, ink⟩ := not_isBlank_of_cuts cut
      obtain ⟨blanks, blank, whole⟩ : ∃ blanks, (∀ ch ∈ blanks, isBlank ch = true)
          ∧ cs = (blanks ++ slice) ++ after := by
        refine ⟨cs.takeWhile isBlank, List.all_eq_true.mp List.all_takeWhile, ?_⟩
        rw [List.append_assoc, ← ahead, List.takeWhile_append_dropWhile]
      have there : ∃ ch tail, slice = ch :: tail ∧ isBlank ch = false := by
        rw [ahead] at same front
        rw [← List.append_cancel_right same] at some
        cases slice with
        | nil => exact absurd rfl some
        | cons ch tail =>
            cases front
            exact ⟨_, _, rfl, ink⟩
      have stop : total - byteLength after = start + byteLength (blanks ++ slice) := by
        rw [← within, whole, byteLength_append, ← Nat.add_assoc, Nat.add_sub_cancel_right]
      rw [stop, whole]
      refine .cons blank there spells (ih ?_)
      rw [← within, whole, byteLength_append (blanks ++ slice), Nat.add_assoc]

/-- Raw text is shorter than the text that it is read from, by the signs around it at least. -/
theorem Slices.raw_length {start : Nat} {cs : List Char} {lexemes : List Lexeme}
    (h : Slices start cs lexemes) :
    ∀ lexeme ∈ lexemes, ∀ raw ∈ lexeme.token.raw?, raw.length < cs.length := by
  induction h with
  | nil => nofun
  | @cons start blanks slice rest token lexemes _ _ spells _ ih =>
      intro lexeme mem raw inside
      rw [List.length_append, List.length_append]
      rcases List.mem_cons.mp mem with rfl | mem
      · have inside : token.raw? = some raw := inside
        cases spells with
        | group | magnitude =>
            cases inside
            simp only [String.length_ofList, List.length_cons, List.length_append]
            omega
        | operator | name | var | number => cases inside
      · have := ih lexeme mem raw inside
        omega

/-- What is read from a text to its end are the slices that the tokens are spelled by. -/
theorem slices_of_yields {text : String} {lexemes : List Lexeme}
    (h : Yields (Cursor.ofText text) lexemes) : Slices 0 text.toList lexemes :=
  h.cutUp.slices rfl

end Scan

end FormulaLang
