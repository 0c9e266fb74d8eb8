import FormulaLang.Proofs.Printing.Legible

/-!
Scanning a written term.  A text is scanned to tokens up to the joining of texts that follow an
access: a key is scanned letter by letter, and is one name afterwards.
-/

namespace FormulaLang

/-! ## Joined tokens -/

namespace Grammar

/-- Whether a list ends or goes on with a token that is no text. -/
def Breaks (tokens : List Token) : Prop :=
  ∀ x tail, tokens = x :: tail → x.isText = false

theorem breaks_cons {x : Token} (h : x.isText = false) (tail : List Token) : Breaks (x :: tail) := by
  rintro _ _ ⟨⟩
  exact h

-- Joining leaves the first token.
theorem Breaks.of_joinKeys {tokens : List Token} (h : Breaks (joinKeys tokens)) :
    Breaks tokens := by
  rintro x tail rfl
  exact h x _ (joinKeys_cons x tail)

theorem joinAfter_of_breaks {tokens : List Token} (h : Breaks tokens) (access : Bool) :
    joinAfter access tokens = joinKeys tokens := by
  cases tokens with
  | nil =>
      cases access <;> rfl
  | cons token rest => exact joinAfter_of_not_text (h token rest rfl) access rest

-- Texts in a row after an access are one name.
theorem joinAfter_texts (texts : List Token) (there : texts ≠ [])
    (all : ∀ u ∈ texts, u.isText = true) {tokens : List Token} (h : Breaks tokens) :
    joinAfter true (texts ++ tokens)
      = .name (String.join (texts.filterMap Token.text?)) :: joinKeys tokens := by
  have stop : tokens.takeWhile Token.isText = [] ∧ tokens.dropWhile Token.isText = tokens := by
    cases tokens with
    | nil => exact ⟨rfl, rfl⟩
    | cons token rest =>
        have plain := h token rest rfl
        rw [List.takeWhile_cons, List.dropWhile_cons, plain]
        exact ⟨rfl, rfl⟩
  have taken : (texts ++ tokens).takeWhile Token.isText = texts := by
    rw [List.takeWhile_append_of_pos all, stop.1, List.append_nil]
  have dropped : (texts ++ tokens).dropWhile Token.isText = tokens := by
    rw [List.dropWhile_append_of_pos all, stop.2]
  have some : texts.isEmpty = false := List.isEmpty_eq_false_iff.mpr there
  rw [joinAfter, taken, dropped, some]
  rfl

end Grammar

namespace Scan

open Grammar Cursor

/-- A text is scanned to tokens, texts after an access joined; `after` tells whether the text itself
follows an access. -/
def Joins (after : Bool) (cs : List Char) (tokens : List Token) : Prop :=
  ∃ lexed, Lexes cs lexed ∧ joinAfter after lexed = tokens

variable {after : Bool} {ch : Char} {cs rest : List Char} {token : Token} {tokens : List Token}

theorem Joins.nil : Joins false [] [] :=
  ⟨[], .nil, by rw [joinAfter_false, joinKeys]⟩

theorem Joins.blank (h : Joins after cs tokens) : Joins after (' ' :: cs) tokens := by
  obtain ⟨lexed, lexes, joined⟩ := h
  exact ⟨lexed, lexes.blank, joined⟩

theorem Joins.cons (plain : token.isText = false) (ink : Text.isBlank ch = false)
    (reads : Reads (ch :: cs) token rest) (h : Joins token.isAccess rest tokens)
    (shorter : rest.length ≤ cs.length) : Joins after (ch :: cs) (token :: tokens) := by
  obtain ⟨lexed, lexes, joined⟩ := h
  refine ⟨token :: lexed, lexes.cons ink reads shorter, ?_⟩
  rw [joinAfter_of_not_text plain, joinKeys_cons, joined]

-- After an access, a token that is no text is read as it is elsewhere.
theorem Joins.keyed (h : Joins false cs (token :: tokens)) (plain : token.isText = false) :
    Joins true cs (token :: tokens) := by
  obtain ⟨lexed, lexes, joined⟩ := h
  have breaks : Breaks lexed := by
    refine Breaks.of_joinKeys ?_
    rw [← joinAfter_false, joined]
    exact breaks_cons plain tokens
  refine ⟨lexed, lexes, ?_⟩
  rw [joinAfter_of_breaks breaks, ← joined, joinAfter_false]

theorem Joins.operator {op : Operation} (found : Operation.ofChar? ch = some op)
    (h : Joins op.isAccess rest tokens) : Joins after (ch :: rest) (.operator op :: tokens) :=
  .cons rfl (not_isBlank_of_operator (operator_of_ofChar? found)) (reads_operator found _) h
    (Nat.le_refl _)

theorem Joins.group {barred : Bool} (h : Joins false rest tokens)
    (bracketed : Bracketed barred cs) :
    Joins after ('(' :: (cs ++ ')' :: rest)) (.group (String.ofList cs) :: tokens) := by
  refine .cons rfl (by decide) (reads_group bracketed rest) h ?_
  rw [List.length_append, List.length_cons]
  omega

theorem Joins.magnitude (h : Joins false rest tokens) (bracketed : Bracketed false cs) :
    Joins after ('|' :: (cs ++ '|' :: rest)) (.magnitude (String.ofList cs) :: tokens) := by
  refine .cons rfl (by decide) (reads_magnitude bracketed rest) h ?_
  rw [List.length_append, List.length_cons]
  omega

theorem Joins.numeral {x : Float} (h : Joins false rest tokens) (numeral : Decimal.IsNumeral cs)
    (value : Decimal.readUnsigned? cs = some x) (ends : Ends Decimal.isNumeric rest) :
    Joins after (cs ++ rest) (.number x :: tokens) := by
  have read := reads_number numeral value ends
  obtain ⟨d, tail, rfl, digit⟩ := numeral.first
  refine .cons rfl (not_isBlank_of_isDigit digit) read h ?_
  show rest.length ≤ (tail ++ rest).length
  rw [List.length_append]
  exact Nat.le_add_left _ _

theorem Joins.variable {name : String} (h : Joins false rest tokens)
    (var : IsVariable name.toList) (pauses : Pauses rest) :
    Joins false (name.toList ++ rest) (.var name :: tokens) := by
  obtain ⟨lexed, lexes, joined⟩ := h
  have read := reads_variable var pauses
  rw [String.ofList_toList] at read
  obtain ⟨letter, tail, hname, alphabetic⟩ := var.first
  rw [hname] at read ⊢
  refine ⟨.var name :: lexed, lexes.chunk (not_isBlank_of_isAlphabetic alphabetic) read, ?_⟩
  rw [joinAfter_false, joinKeys_operand rfl, ← joined, joinAfter_false]

-- A name before parentheses is one token, after an access as elsewhere.
theorem Joins.name {name : String} (h : Joins false ('(' :: rest) tokens) (breaks : Breaks tokens)
    (called : Term.IsFunctionName name) :
    Joins after (name.toList ++ '(' :: rest) (.name name :: tokens) := by
  obtain ⟨lexed, lexes, joined⟩ := h
  rw [joinAfter_false] at joined
  obtain ⟨⟨letter, tail, hname, alphabetic⟩, words⟩ := called
  have read := reads_name rest hname alphabetic words
  rw [String.ofList_toList] at read
  have apart : Breaks lexed := Breaks.of_joinKeys (joined ▸ breaks)
  refine ⟨.name name :: lexed, ?_, ?_⟩
  · rw [hname] at read ⊢
    exact lexes.chunk (not_isBlank_of_isAlphabetic alphabetic) read
  · cases after with
    | false => rw [joinAfter_false, joinKeys_operand rfl, joined]
    | true =>
        have one := joinAfter_texts [.name name] nofun
          (fun u hu => by rw [List.mem_singleton.mp hu]; rfl) apart
        rw [joined] at one
        refine one.trans ?_
        simp only [List.filterMap_cons, List.filterMap_nil, Token.text?, String.join_cons,
          String.join_nil, String.append_empty]

-- The letters of a key are variables in a row.
theorem lexes_key {lexed : List Token} (key : Term.IsKey cs) (pauses : Pauses rest)
    (lexes : Lexes rest lexed) :
    ∃ texts, texts ≠ [] ∧ (∀ u ∈ texts, u.isText = true)
      ∧ String.join (texts.filterMap Token.text?) = String.ofList cs
      ∧ Lexes (cs ++ rest) (texts ++ lexed) := by
  induction key with
  | @var cs var =>
      have read := reads_variable var pauses
      obtain ⟨letter, tail, rfl, alphabetic⟩ := var.first
      refine ⟨[.var (String.ofList (letter :: tail))], List.cons_ne_nil _ _, ?_, ?_, ?_⟩
      · intro u hu
        rw [List.mem_singleton.mp hu]
        rfl
      · simp only [List.filterMap_cons, List.filterMap_nil, Token.text?, String.join_cons,
          String.join_nil, String.append_empty]
      · exact lexes.chunk (not_isBlank_of_isAlphabetic alphabetic) read
  | @letter ch alphabetic cs key ih =>
      obtain ⟨texts, there, all, joined, lexes⟩ := ih
      have uncalled : Uncalled (cs ++ rest) := (uncalled_words key.words rest).mpr pauses.uncalled
      have other : (cs ++ rest).head? ≠ some '_' := by
        obtain ⟨letter, tail, rfl, alphabetic⟩ := key.first
        rintro ⟨⟩
        exact absurd alphabetic (by decide +kernel)
      refine ⟨.var (String.singleton ch) :: texts, List.cons_ne_nil _ _, ?_, ?_, ?_⟩
      · intro u hu
        rcases List.mem_cons.mp hu with rfl | hu
        · rfl
        · exact all u hu
      · show String.join (String.singleton ch :: texts.filterMap Token.text?) = _
        rw [String.join_cons, joined, ← String.toList_inj]
        simp only [String.toList_append, String.toList_singleton, String.toList_ofList,
          List.singleton_append]
      · exact lexes.cons (not_isBlank_of_isAlphabetic alphabetic)
          (reads_letter alphabetic other uncalled) (Nat.le_refl _)

theorem Joins.key {key : String} (h : Joins false rest tokens) (breaks : Breaks tokens)
    (pauses : Pauses rest) (isKey : Term.IsKey key.toList) :
    Joins true (key.toList ++ rest) (.name key :: tokens) := by
  obtain ⟨lexed, lexes, joined⟩ := h
  rw [joinAfter_false] at joined
  have apart : Breaks lexed := Breaks.of_joinKeys (joined ▸ breaks)
  obtain ⟨texts, there, all, whole, lexes⟩ := lexes_key isKey pauses lexes
  refine ⟨texts ++ lexed, lexes, ?_⟩
  rw [joinAfter_texts texts there all apart, whole, joined, String.ofList_toList]

end Scan

/-! ## Scanning a term -/

namespace Term

open Scan Cursor Grammar

variable {op : Operation} {left right : Term} {rest : List Char} {tokens : List Token}

/-- What may follow a term: an operator or the end, and no point after a numeral. -/
structure Follows (numeral : Bool) (rest : List Char) (tokens : List Token) : Prop where
  pauses : Pauses rest
  ends : numeral = true → Ends Decimal.isNumeric rest
  breaks : Breaks tokens
  joins : Joins false rest tokens

theorem Follows.end (numeral : Bool) : Follows numeral [] [] where
  pauses := nofun
  ends _ := nofun
  breaks := nofun
  joins := .nil

theorem Follows.mono {numeral numeral' : Bool} (h : Follows numeral rest tokens)
    (le : numeral' = true → numeral = true) : Follows numeral' rest tokens :=
  ⟨h.pauses, fun hn => h.ends (le hn), h.breaks, h.joins⟩

theorem joins_between {after : Bool} (h : op.isBinary = true)
    (joins : Joins op.isAccess rest tokens) :
    Joins after ((between op).toList ++ rest) (.operator op :: tokens) := by
  cases op with
  | add | subtract | multiply | divide | modulo =>
      exact (Joins.operator (by rfl) joins.blank).blank
  | power | property | index => exact Joins.operator rfl joins
  | negate | transform => cases h

-- An operator follows its left operand; a point does not follow a numeral.
theorem follows_between {numeral : Bool} (h : op.isBinary = true)
    (apart : op = .property → numeral = false) (joins : Joins op.isAccess rest tokens) :
    Follows numeral ((between op).toList ++ rest) (.operator op :: tokens) where
  pauses := by
    intro c tail hc
    cases op with
    | add | subtract | multiply | divide | modulo | power | property | index =>
        cases hc
        exact ⟨_, rfl⟩
    | negate | transform => cases h
  ends := by
    rintro rfl c tail hc
    cases op with
    | add | subtract | multiply | divide | modulo | power | index =>
        cases hc
        rfl
    | property => cases apart rfl
    | negate | transform => cases h
  breaks := breaks_cons rfl _
  joins := joins_between h joins

theorem joins_operand {after barred : Bool} (grouped : Bool) {text : String} (own : List Token)
    (bracketed : Bracketed barred text.toList) (joins : Joins false rest tokens)
    (bare : grouped = false → Joins after (text.toList ++ rest) (own ++ tokens)) :
    Joins after ((enclose grouped text).toList ++ rest)
      (operandTokens grouped text own ++ tokens) := by
  cases grouped with
  | false => exact bare rfl
  | true =>
      have group : Joins after _ _ := joins.group bracketed
      rw [String.ofList_toList] at group
      rw [toList_enclose, List.cons_append, List.append_assoc]
      exact group

/-- An operator with what follows it, after its left operand. -/
theorem joins_binary (h : op.isBinary = true) (hl : left.Legible) (apart : IsApart op left)
    (onLeft : ∀ {rest tokens}, Follows left.endsInNumeral rest tokens →
      Joins false (left.text.toList ++ rest) (left.tokens ++ tokens))
    (onRight : Joins op.isAccess rest tokens) :
    Joins false
      ((enclose (isGrouped op false left) left.text).toList ++ ((between op).toList ++ rest))
      (operandTokens (isGrouped op false left) left.text left.tokens ++ .operator op :: tokens) :=
  joins_operand _ _ (bracketed_text hl) (joins_between h onRight) fun bare =>
    onLeft (follows_between h (fun point => apart point bare) onRight)

theorem joins_literal {after : Bool} {x : Float} (finite : x.isFinite = true)
    (back : Decimal.ReadsBack (Decimal.magnitude x)) (follows : Follows true rest tokens) :
    Joins after ((leaf (.number x)).text.toList ++ rest)
      ((leaf (.number x)).tokens ++ tokens) := by
  show Joins after ((Decimal.text x).toList ++ rest)
    ((if Decimal.isNegative x then [.operator .subtract, .number (-x)] else [.number x]) ++ tokens)
  cases sign : Decimal.isNegative x with
  | false =>
      rw [Decimal.magnitude, sign] at back
      exact follows.joins.numeral (Decimal.isNumeral_text finite sign) back (follows.ends rfl)
  | true =>
      rw [Decimal.magnitude, sign] at back
      rw [Decimal.text_of_negative finite sign, String.toList_append, List.append_assoc]
      refine Joins.operator rfl (follows.joins.numeral ?_ back (follows.ends rfl))
      exact Decimal.isNumeral_text (Decimal.isFinite_neg finite)
        (Decimal.isNegative_neg finite sign)

theorem joins_apply {argument : Term} (ha : argument.Legible) {name : String}
    (called : IsFunctionName name) (joins : Joins false rest tokens) {after : Bool} :
    Joins after (name.toList ++ ((enclose true argument.text).toList ++ rest))
      (.name name :: .group argument.text :: tokens) := by
  have group : Joins false ((enclose true argument.text).toList ++ rest)
      (.group argument.text :: tokens) :=
    joins_operand true [] (bracketed_text ha) joins nofun
  rw [toList_enclose, List.cons_append] at group ⊢
  exact group.name (breaks_cons rfl _) called

-- A term that stands alone starts with a token that is no text.
theorem tokens_of_standsAlone {t : Term} (h : t.Legible) (alone : t.standsAlone = true) :
    ∃ x tail, t.tokens = x :: tail ∧ x.isText = false := by
  cases h with
  | @number x finite =>
      show ∃ y tail, (if Decimal.isNegative x then _ else _) = y :: tail ∧ _
      split
      · exact ⟨_, _, rfl, rfl⟩
      · exact ⟨_, _, rfl, rfl⟩
  | magnitude ha clear => exact ⟨_, _, rfl, rfl⟩
  | apply h other ha => exact absurd (beq_iff_eq.mp alone) other
  | method access ho apart h ha => exact absurd (beq_iff_eq.mp alone) (text_access_ne access _ _)
  | @binary op h =>
      cases op <;> first | cases alone | cases h
  | @key op access =>
      cases op <;> first | cases alone | cases access
  | var | negate => cases alone

/-- The text of a legible term is scanned to its tokens. -/
theorem joins_text {t : Term} (h : t.Legible) {rest : List Char} {tokens : List Token}
    (follows : Follows t.endsInNumeral rest tokens) :
    Joins false (t.text.toList ++ rest) (t.tokens ++ tokens) := by
  induction h generalizing rest tokens with
  | number finite back => exact joins_literal finite back follows
  | var h => exact follows.joins.variable h follows.pauses
  | @negate right hr ih =>
      have onRight := joins_operand (isGrouped .negate true right) right.tokens
        (bracketed_text hr) follows.joins fun bare => ih (follows.mono fun numeral => by
          show (!isGrouped .negate true right && right.endsInNumeral) = true
          rw [bare, numeral]
          rfl)
      show Joins false (("-" ++ enclose _ _).toList ++ rest) (_ :: (operandTokens _ _ _ ++ tokens))
      rw [String.toList_append, List.append_assoc]
      exact Joins.operator rfl onRight
  | @binary op h left right hl hr apart alone ihl ihr =>
      have numeral : (node (.operator op) left right).endsInNumeral
          = (!isGrouped op true right && right.endsInNumeral) := by
        cases op <;> first | rfl | cases h
      have onRight : Joins op.isAccess
          ((enclose (isGrouped op true right) right.text).toList ++ rest)
          (operandTokens (isGrouped op true right) right.text right.tokens ++ tokens) := by
        refine joins_operand _ _ (bracketed_text hr) follows.joins fun bare => ?_
        have read := ihr (follows.mono fun ends => by
          rw [numeral, bare, ends]
          rfl)
        cases access : op.isAccess with
        | false => exact read
        | true =>
            obtain ⟨x, tail, same, plain⟩ := tokens_of_standsAlone hr
              ((alone access).resolve_left (by rw [bare]; decide))
            rw [same] at read ⊢
            exact read.keyed plain
      rw [text_binary h, tokens_binary h, String.toList_append, String.toList_append,
        List.append_assoc, List.append_assoc, List.append_assoc, List.cons_append]
      exact joins_binary h hl apart ihl onRight
  | @key op access owner ho apart key hk iho =>
      have binary := Operation.isBinary_of_isAccess access
      have onRight : Joins op.isAccess (key.toList ++ rest) (.name key :: tokens) := by
        rw [access]
        exact follows.joins.key follows.breaks follows.pauses hk
      rw [text_binary binary, tokens_binary binary, String.toList_append, String.toList_append,
        List.append_assoc, List.append_assoc, List.append_assoc, List.cons_append]
      exact joins_binary binary ho apart iho onRight
  | @magnitude argument ha clear ih =>
      have bracketed := bracketed_text ha
      rw [clear] at bracketed
      have read : Joins false _ _ := follows.joins.magnitude bracketed
      rw [String.ofList_toList] at read
      rw [toList_magnitude, List.cons_append, List.append_assoc]
      exact read
  | @apply name h other argument ha ih =>
      have other := text_name_ne other
      rw [text_apply other, tokens_apply other, String.append_assoc, String.append_assoc,
        String.toList_append, List.append_assoc]
      exact joins_apply ha h follows.joins
  | @method op access owner ho apart name h argument ha iho iha =>
      have binary := Operation.isBinary_of_isAccess access
      have other := text_access_ne access owner (leaf (.name name))
      rw [text_apply other, tokens_apply other, String.append_assoc, String.append_assoc,
        String.toList_append, text_binary binary, tokens_binary binary, String.toList_append,
        String.toList_append, List.append_assoc, List.append_assoc, List.append_assoc,
        List.append_assoc, List.append_assoc, List.cons_append]
      exact joins_binary binary ho apart iho (joins_apply ha h follows.joins)

end Term

end FormulaLang
