import FormulaLang.Proofs.Building.Precedence
import FormulaLang.Proofs.Scanning.Reads
import FormulaLang.Term

/-!
Terms that are written legibly, and the tokens of their texts.  An operand in parentheses is one
token, a group of raw text, a negative literal is a minus sign and the literal without it, and the
texts after an access are one name.
-/

namespace FormulaLang

/-- The absolute value of a finite double. -/
def Decimal.magnitude (x : Float) : Float :=
  if isNegative x then -x else x

/-- Whether the text of a double is read as the same double. -/
def Decimal.ReadsBack (x : Float) : Prop :=
  readUnsigned? (text x).toList = some x

namespace Term

/-- The literals of a term. -/
def literals : Term → List Float
  | absent => []
  | node (.number x) left right => x :: (left.literals ++ right.literals)
  | node _ left right => left.literals ++ right.literals

/-! ## Legible terms -/

/-- Whether a bar is written outside parentheses. -/
def showsBar : Term → Bool
  | node (.operator .transform) function _ => function.text == "abs" || function.showsBar
  | node (.operator op) left right =>
      (!isGrouped op false left && left.showsBar) || (!isGrouped op true right && right.showsBar)
  | _ => false

/-- Whether the last token of the text is a numeral. -/
def endsInNumeral : Term → Bool
  | node (.number _) _ _ => true
  | node (.operator .transform) _ _ => false
  | node (.operator op) _ right => !isGrouped op true right && right.endsInNumeral
  | _ => false

/-- Whether a term without parentheses is read after an access as what it is: a literal, a literal
key or a magnitude. -/
def standsAlone : Term → Bool
  | node (.number _) _ _ | node (.name _) _ _ => true
  | node (.operator .transform) function _ => function.text == "abs"
  | _ => false

/-- Whether no point would be read as a radix point: a numeral does not stand before it. -/
def IsApart (op : Operation) (owner : Term) : Prop :=
  op = .property → isGrouped op false owner = false → owner.endsInNumeral = false

/-- Terms that are read as they are written: no bar stands inside bars, no point follows a numeral,
and a computed key is in parentheses unless it is a literal or a magnitude. -/
inductive Legible : Term → Prop where
  | number {x : Float} (finite : x.isFinite = true)
      (back : Decimal.ReadsBack (Decimal.magnitude x)) : Legible (leaf (.number x))
  | var {name : String} (h : Cursor.IsVariable name.toList) : Legible (leaf (.var name))
  | negate {right : Term} (hr : right.Legible) : Legible (node (.operator .negate) absent right)
  | binary {op : Operation} (h : op.isBinary = true) {left right : Term} (hl : left.Legible)
      (hr : right.Legible) (apart : IsApart op left)
      (alone : op.isAccess = true → isGrouped op true right = true ∨ right.standsAlone = true) :
      Legible (node (.operator op) left right)
  | key {op : Operation} (access : op.isAccess = true) {owner : Term} (ho : owner.Legible)
      (apart : IsApart op owner) {key : String} (hk : IsKey key.toList) :
      Legible (node (.operator op) owner (leaf (.name key)))
  | magnitude {argument : Term} (ha : argument.Legible) (clear : argument.showsBar = false) :
      Legible (node (.operator .transform) (leaf (.name "abs")) argument)
  | apply {name : String} (h : IsFunctionName name) (other : name ≠ "abs") {argument : Term}
      (ha : argument.Legible) :
      Legible (node (.operator .transform) (leaf (.name name)) argument)
  | method {op : Operation} (access : op.isAccess = true) {owner : Term} (ho : owner.Legible)
      (apart : IsApart op owner) {name : String} (h : IsFunctionName name) {argument : Term}
      (ha : argument.Legible) :
      Legible (node (.operator .transform) (node (.operator op) owner (leaf (.name name))) argument)

/-- The tokens of an operand. -/
def operandTokens (grouped : Bool) (text : String) (tokens : List Token) : List Token :=
  if grouped then [.group text] else tokens

/-- The tokens of the text of a term, texts after an access joined. -/
def tokens : Term → List Token
  | absent => []
  | node (.number x) _ _ =>
      if Decimal.isNegative x then [.operator .subtract, .number (-x)] else [.number x]
  | node (.operator .transform) function argument =>
      if function.text = "abs" then [.magnitude argument.text]
      else function.tokens ++ [.group argument.text]
  | node (.operator .negate) _ right =>
      .operator .subtract :: operandTokens (isGrouped .negate true right) right.text right.tokens
  | node (.operator op) left right =>
      operandTokens (isGrouped op false left) left.text left.tokens
        ++ .operator op :: operandTokens (isGrouped op true right) right.text right.tokens
  | node token _ _ => [token]

/-! ## Texts of operators -/

/-- An operator between its operands, as it is written. -/
def between (op : Operation) : String :=
  if op.isArithmetic then " " ++ op.symbol ++ " " else op.symbol

variable {op : Operation} {left right : Term}

theorem text_binary (h : op.isBinary = true) :
    (node (.operator op) left right).text
      = enclose (isGrouped op false left) left.text ++ between op
        ++ enclose (isGrouped op true right) right.text := by
  cases op <;> first | rfl | cases h

theorem tokens_binary (h : op.isBinary = true) :
    (node (.operator op) left right).tokens
      = operandTokens (isGrouped op false left) left.text left.tokens
        ++ .operator op :: operandTokens (isGrouped op true right) right.text right.tokens := by
  cases op <;> first | rfl | cases h

theorem text_apply {function : Term} (other : function.text ≠ "abs") :
    (node (.operator .transform) function right).text
      = function.text ++ "(" ++ right.text ++ ")" := by
  rw [text, if_neg other]

theorem tokens_apply {function : Term} (other : function.text ≠ "abs") :
    (node (.operator .transform) function right).tokens
      = function.tokens ++ [.group right.text] := by
  rw [tokens, if_neg other]

theorem toList_magnitude (argument : Term) :
    (node (.operator .transform) (leaf (.name "abs")) argument).text.toList
      = '|' :: (argument.text.toList ++ ['|']) := by
  show ("|" ++ argument.text ++ "|").toList = _
  rw [String.toList_append, String.toList_append]
  rfl

theorem text_name_ne {name : String} (other : name ≠ "abs") :
    (leaf (.name name)).text ≠ "abs" :=
  other

-- The text of an access has the sign of the access in it.
theorem text_access_ne (access : op.isAccess = true) (left right : Term) :
    (node (.operator op) left right).text ≠ "abs" := by
  intro same
  have sign : ∃ c ∈ op.symbol.toList, c ∉ "abs".toList := by
    cases op <;> first | exact ⟨_, List.mem_singleton_self _, by decide⟩ | cases access
  have bare : between op = op.symbol := by
    cases op <;> first | rfl | cases access
  obtain ⟨c, mem, none⟩ := sign
  rw [← same, text_binary (Operation.isBinary_of_isAccess access), bare] at none
  simp only [String.toList_append, List.mem_append, mem, or_true, true_or, not_true_eq_false] at none

/-! ## Parentheses and bars -/

open Cursor

theorem toList_enclose (text : String) :
    (enclose true text).toList = '(' :: (text.toList ++ [')']) := by
  rw [enclose, if_pos rfl, String.toList_append, String.toList_append]
  rfl

theorem bracketed_enclose {grouped barred : Bool} {text : String}
    (h : Bracketed barred text.toList) :
    Bracketed (!grouped && barred) (enclose grouped text).toList := by
  cases grouped with
  | false => exact h
  | true =>
      rw [toList_enclose]
      exact h.parenthesised

theorem bracketed_between (op : Operation) {barred : Bool} :
    Bracketed barred (between op).toList := by
  refine Bracketed.of_all fun c hc => ?_
  have all : (between op).toList.all (fun c => isPlain c && c != '|') = true := by
    cases op <;> decide
  have here := List.all_eq_true.mp all c hc
  rw [Bool.and_eq_true, bne_iff_ne] at here
  exact here

theorem bracketed_numeral {cs : List Char} (numeral : Decimal.IsNumeral cs) {barred : Bool} :
    Bracketed barred cs :=
  Bracketed.of_all fun c hc => isPlain_of_kind (by decide) (numeral.all c hc)

-- The text of a literal is a numeral, or one after a minus sign.
theorem bracketed_number {x : Float} (finite : x.isFinite = true) {barred : Bool} :
    Bracketed barred (Decimal.text x).toList := by
  cases sign : Decimal.isNegative x with
  | false => exact bracketed_numeral (Decimal.isNumeral_text finite sign)
  | true =>
      rw [Decimal.text_of_negative finite sign, String.toList_append]
      refine .char (by decide) nofun (bracketed_numeral ?_)
      exact Decimal.isNumeral_text (Decimal.isFinite_neg finite)
        (Decimal.isNegative_neg finite sign)

theorem bracketed_binary (h : op.isBinary = true) (hl : Bracketed left.showsBar left.text.toList)
    (hr : Bracketed right.showsBar right.text.toList) :
    Bracketed (node (.operator op) left right).showsBar
      (node (.operator op) left right).text.toList := by
  have shows : (node (.operator op) left right).showsBar
      = ((!isGrouped op false left && left.showsBar)
        || (!isGrouped op true right && right.showsBar)) := by
    cases op <;> first | rfl | cases h
  rw [shows, text_binary h, String.toList_append, String.toList_append]
  refine (Bracketed.append ?_ (bracketed_between op)).append ?_
  · exact (bracketed_enclose hl).mono fun h => by rw [h, Bool.true_or]
  · exact (bracketed_enclose hr).mono fun h => by rw [h, Bool.or_true]

theorem bracketed_apply {function : Term} (other : function.text ≠ "abs") {barred : Bool}
    (hf : Bracketed function.showsBar function.text.toList)
    (ha : Bracketed barred right.text.toList) :
    Bracketed (node (.operator .transform) function right).showsBar
      (node (.operator .transform) function right).text.toList := by
  have group : Bracketed _ (enclose true right.text).toList := bracketed_enclose ha
  rw [text_apply other, String.append_assoc, String.append_assoc, String.toList_append]
  refine (hf.append (group.mono nofun)).mono fun h => ?_
  rw [showsBar, h, Bool.or_true]

theorem bracketed_text {t : Term} (h : t.Legible) : Bracketed t.showsBar t.text.toList := by
  induction h with
  | number finite => exact bracketed_number finite
  | var h => exact Bracketed.of_words h.words
  | @negate right _ ih =>
      have shows : (node (.operator .negate) absent right).showsBar
          = (!isGrouped .negate true right && right.showsBar) := rfl
      show Bracketed _ ("-" ++ enclose _ _).toList
      rw [shows, String.toList_append]
      exact .char (by decide) nofun (bracketed_enclose ih)
  | binary h _ _ _ _ ihl ihr => exact bracketed_binary h ihl ihr
  | key access _ _ hk iho =>
      exact bracketed_binary (Operation.isBinary_of_isAccess access) iho
        (Bracketed.of_words hk.words)
  | @magnitude argument _ _ ih =>
      rw [toList_magnitude]
      exact .char (by decide) (fun _ => rfl)
        ((ih.mono fun _ => rfl).append (.char (by decide) (fun _ => rfl) .nil))
  | apply h other _ ih => exact bracketed_apply other (Bracketed.of_words h.2) ih
  | method access _ _ h _ iho ih =>
      exact bracketed_apply (text_access_ne access _ _)
        (bracketed_binary (Operation.isBinary_of_isAccess access) iho (Bracketed.of_words h.2)) ih

end Term

end FormulaLang
