import FormulaLang.Proofs.Printing.Tokens
import FormulaLang.Proofs.Reduction.Expanded
import FormulaLang.Proofs.Reduction.Thinned

/-!
Chains of accesses.  A variable with accesses behind it, written tightly, is read as these accesses,
each of what stands before it.  Two signs have another meaning first: a digit among the letters of a
key is a numeral that multiplies, and a point right behind a position is its radix point.
-/

namespace FormulaLang

/-- An access behind what it accesses: of a member, of an entry by its literal key, or of a position
written in digits. -/
inductive Access where
  | member (name : String)
  | entry (key : String)
  | position (digits : String)
deriving DecidableEq, Repr

namespace Access

def op : Access → Operation
  | member _ => .property
  | entry _ | position _ => .index

/-- What is written behind the operator. -/
def keyText : Access → String
  | member name => name
  | entry key => key
  | position digits => digits

def text (a : Access) : String :=
  a.op.symbol ++ a.keyText

/-- What the key is: a name, or the number nearest to the digits. -/
def key : Access → Token
  | member name => .name name
  | entry key => .name key
  | position digits => .number (Decimal.nearest (Decimal.digitsValue digits.toList) 0)

/-- The access of an owner. -/
def on (owner : Term) (a : Access) : Term :=
  .node (.operator a.op) owner (.leaf a.key)

/-- A letter and any letters, digits and `_`, or digits. -/
def IsIdentified : Access → Prop
  | member name => Term.IsFunctionName name
  | entry key => Term.IsFunctionName key
  | position digits => digits.toList ≠ [] ∧ ∀ c ∈ digits.toList, c.isDigit = true

/-- Digits, or letters with other characters of names only from a `_` on. -/
def IsPlain : Access → Prop
  | member name => Term.IsKey name.toList
  | entry key => Term.IsKey key.toList
  | position digits => digits.toList ≠ [] ∧ ∀ c ∈ digits.toList, c.isDigit = true

/-- Whether an access may directly follow another: no point follows a position. -/
def Precedes : Access → Access → Prop
  | position _, member _ => False
  | _, _ => True

/-- A variable with accesses behind it, as a text. -/
def chainText (owner : String) (accesses : List Access) : String :=
  owner ++ String.join (accesses.map text)

/-- The accesses of a variable, one after the other. -/
def chain (owner : String) (accesses : List Access) : Term :=
  accesses.foldl on (.leaf (.var owner))

/-- The tokens of accesses. -/
def tokens (accesses : List Access) : List Token :=
  accesses.flatMap fun a => [.operator a.op, a.key]

variable {a : Access} {accesses : List Access} {owner : String}

theorem isAccess_op (a : Access) : a.op.isAccess = true := by
  cases a <;> rfl

theorem isOperand_key (a : Access) : a.key.isOperand = true := by
  cases a <;> rfl

theorem tokens_cons (a : Access) (accesses : List Access) :
    tokens (a :: accesses) = .operator a.op :: a.key :: tokens accesses :=
  rfl

/-! ## Scanning -/

open Scan Cursor Grammar

/-- The characters of accesses. -/
def characters (accesses : List Access) : List Char :=
  accesses.flatMap fun a => a.text.toList

theorem toList_chainText (owner : String) (accesses : List Access) :
    (chainText owner accesses).toList = owner.toList ++ characters accesses := by
  rw [chainText, String.toList_append, characters]
  congr 1
  induction accesses with
  | nil => rfl
  | cons a rest ih =>
    rw [List.map_cons, String.join_cons, String.toList_append, ih, List.flatMap_cons]

/-- The character an access starts with. -/
def sign : Access → Char
  | member _ => '.'
  | entry _ | position _ => ':'

theorem ofChar?_sign (a : Access) : Operation.ofChar? a.sign = some a.op := by
  cases a <;> rfl

theorem text_toList (a : Access) : a.text.toList = a.sign :: a.keyText.toList := by
  have symbol : a.op.symbol.toList = [a.sign] := by
    cases a <;> simp [op, Operation.symbol, sign]
  rw [text, String.toList_append, symbol, List.singleton_append]

theorem not_isBlank_sign (a : Access) : Text.isBlank a.sign = false :=
  not_isBlank_of_operator (operator_of_ofChar? (ofChar?_sign a))

theorem characters_cons (a : Access) (accesses : List Access) :
    characters (a :: accesses) = a.sign :: (a.keyText.toList ++ characters accesses) := by
  rw [characters, List.flatMap_cons, text_toList, List.cons_append]
  rfl

theorem pauses_characters (accesses : List Access) : Pauses (characters accesses) := by
  intro c tail ahead
  cases accesses with
  | nil => cases ahead
  | cons a rest =>
    rw [characters_cons, List.dropWhile_cons, not_isBlank_sign] at ahead
    cases ahead
    exact ⟨_, ofChar?_sign a⟩

theorem breaks_tokens (accesses : List Access) : Breaks (tokens accesses) := by
  cases accesses with
  | nil => nofun
  | cons a rest => exact breaks_cons rfl _

-- A position is not followed by a point, so its digits end where they end.
theorem ends_characters {digits : String}
    (apart : (position digits :: accesses).IsChain Precedes) :
    Ends Decimal.isNumeric (characters accesses) := by
  intro c tail ahead
  cases accesses with
  | nil => cases ahead
  | cons a rest =>
    have apart : Precedes (position digits) a := (List.isChain_cons_cons.mp apart).1
    rw [characters_cons, List.dropWhile_cons, not_isBlank_sign] at ahead
    cases ahead
    cases a with
    | member name => exact apart.elim
    | entry key | position digits => rfl

theorem readUnsigned?_digits {cs : List Char} (there : cs ≠ [])
    (digits : ∀ c ∈ cs, c.isDigit = true) :
    Decimal.readUnsigned? cs = some (Decimal.nearest (Decimal.digitsValue cs) 0) := by
  have whole : cs.takeWhile Char.isDigit = cs := List.takeWhile_eq_self_iff.mpr digits
  have rest : cs.dropWhile Char.isDigit = [] := List.dropWhile_eq_nil_iff.mpr digits
  have split : Decimal.splitNumeral? cs = some (cs, [], []) := by
    unfold Decimal.splitNumeral?
    rw [whole, rest]
    cases cs with
    | nil => exact absurd rfl there
    | cons c cs => rfl
  rw [Decimal.readUnsigned?, split]
  show some (Decimal.nearest (Decimal.digitsValue (cs ++ [])) 0) = _
  rw [List.append_nil]

/-- Accesses behind anything that pauses there are scanned to their tokens. -/
theorem joins_characters (plain : ∀ a ∈ accesses, a.IsPlain)
    (apart : accesses.IsChain Precedes) :
    Joins false (characters accesses) (tokens accesses) := by
  induction accesses with
  | nil => exact .nil
  | cons a rest ih =>
    have behind := ih (fun b mem => plain b (.tail _ mem)) apart.tail
    have key : Joins true (a.keyText.toList ++ characters rest) (a.key :: tokens rest) := by
      have here : a.IsPlain := plain a (.head _)
      cases a with
      | member name =>
        exact behind.key (breaks_tokens rest) (pauses_characters rest) here
      | entry key =>
        exact behind.key (breaks_tokens rest) (pauses_characters rest) here
      | position digits =>
        obtain ⟨there, all⟩ := here
        exact behind.numeral (Decimal.isNumeral_of_digits there all)
          (readUnsigned?_digits there all) (ends_characters apart)
    rw [characters_cons, tokens_cons]
    rw [← isAccess_op a] at key
    exact .operator (ofChar?_sign a) key

theorem joins_chain (isVariable : IsVariable owner.toList) (plain : ∀ a ∈ accesses, a.IsPlain)
    (apart : accesses.IsChain Precedes) :
    Joins false (chainText owner accesses).toList (.var owner :: tokens accesses) := by
  rw [toList_chainText]
  exact (joins_characters plain apart).variable isVariable (pauses_characters accesses)

/-! ## Reading -/

-- Between operands and operators nothing is put in.
theorem fill_tokens {x : Token} (operand : x.isOperand = true) (accesses : List Access) :
    fill (x :: tokens accesses) = x :: tokens accesses := by
  induction accesses generalizing x with
  | nil => rfl
  | cons a rest ih =>
    rw [tokens_cons, fill_cons, fillAfter_to_operator, ih (isOperand_key a)]

-- Every access completes the one before it.
theorem scan_accesses (owner : Term) (accesses : List Access) :
    Grammar.scan [] (some owner) (tokens accesses) = some (accesses.foldl on owner) := by
  induction accesses generalizing owner with
  | nil => rfl
  | cons a rest ih =>
    have complete : Stops (floor [⟨a.op, owner⟩]) (tokens rest) := by
      cases rest with
      | nil => trivial
      | cons b rest =>
        show b.op.precedence < floor [⟨a.op, owner⟩]
        cases a <;> cases b <;> exact Nat.lt_succ_self _
    rw [tokens_cons]
    show Grammar.scan [⟨a.op, owner⟩] none (a.key :: tokens rest) = _
    rw [scan_operand (isOperand_key a), scan_complete complete]
    exact ih (on owner a)

theorem scan_chain (owner : String) (accesses : List Access) :
    Grammar.scan [] none (fill (.var owner :: tokens accesses)) = some (chain owner accesses) := by
  rw [fill_tokens rfl, scan_operand rfl]
  exact scan_accesses _ accesses

-- Accesses are neither raw text nor arithmetic.
theorem settled_chain (owner : String) (accesses : List Access) :
    (chain owner accesses).IsExpanded ∧ (chain owner accesses).fold = chain owner accesses
      ∧ chain owner accesses ≠ .absent := by
  have settled : ∀ t : Term, t.IsExpanded ∧ t.fold = t ∧ t ≠ .absent →
      (accesses.foldl on t).IsExpanded ∧ (accesses.foldl on t).fold = accesses.foldl on t
        ∧ accesses.foldl on t ≠ .absent := by
    induction accesses with
    | nil => exact fun _ h => h
    | cons a rest ih =>
      rintro t ⟨expanded, folded, -⟩
      refine ih (on t a) ⟨⟨rfl, expanded, ?_⟩, ?_, nofun⟩
      · cases a <;> exact ⟨rfl, trivial, trivial⟩
      · cases a <;> exact congrArg (Term.node _ · _) folded
  exact settled _ ⟨⟨rfl, trivial, trivial⟩, rfl, nofun⟩

end Access

namespace Expression

open Access

/-- A chain of accesses is parsed to these accesses, the first one innermost, when no digit stands
among the letters of a key and no point behind a position. -/
theorem parse_accesses {owner : String} (isVariable : Cursor.IsVariable owner.toList)
    {accesses : List Access} (plain : ∀ a ∈ accesses, a.IsPlain)
    (apart : accesses.IsChain Precedes) :
    parse (chainText owner accesses) = .ok (Tree.empty.plant (chain owner accesses)) := by
  obtain ⟨lexed, lexes, joined⟩ := joins_chain isVariable plain apart
  obtain ⟨scanned, whole⟩ := lexes.ofText
  obtain ⟨expanded, folded, there⟩ := settled_chain owner accesses
  have built : build (chainText owner accesses)
      = .ok (Tree.empty.plant (chain owner accesses)) := by
    refine build_of_scan whole (ok_of_toOption ?_)
    have unsigned := (Scan.spoken_ofText whole).unsigned
    rw [Grammar.joinAfter_false] at joined
    rw [Spine.build_eq_scan unsigned, Spine.reading, Grammar.normalise, scanned, joined, scan_chain]
    rfl
  obtain ⟨depth, deep⟩ : ∃ depth, (chainText owner accesses).length = depth + 1 :=
    ⟨_, (Nat.succ_pred_eq_of_pos (length_pos_of_build built)).symm⟩
  rw [parse, deep, parseWithin_succ (rooted_parseWithin depth) there built,
    expanded.reduce_eq, folded]
  rfl

theorem parse_accesses_mixed :
    Cursor.IsVariable "a_1".toList
    ∧ (∀ a ∈ [member "Length", .entry "k_2x", .position "007", .entry "b"], a.IsPlain)
    ∧ [member "Length", .entry "k_2x", .position "007", .entry "b"].IsChain Precedes
    ∧ chainText "a_1" [.member "Length", .entry "k_2x", .position "007", .entry "b"]
        = "a_1.Length:k_2x:007:b"
    ∧ parse (chainText "a_1" [.member "Length", .entry "k_2x", .position "007", .entry "b"])
        = .ok (Tree.empty.plant
            (chain "a_1" [.member "Length", .entry "k_2x", .position "007", .entry "b"])) := by
  have owner : Cursor.IsVariable "a_1".toList :=
    .subscript (by decide +kernel) (List.all_eq_true.mp (by decide +kernel))
  have b : Term.IsKey "b".toList := .var (.letter (by decide +kernel))
  have k : Term.IsKey "k_2x".toList :=
    .var (.subscript (by decide +kernel) (List.all_eq_true.mp (by decide +kernel)))
  have Length : Term.IsKey "Length".toList :=
    .letter (by decide +kernel) <| .letter (by decide +kernel) <| .letter (by decide +kernel) <|
      .letter (by decide +kernel) <| .letter (by decide +kernel) <|
      .var (.letter (by decide +kernel))
  have position : (Access.position "007").IsPlain :=
    ⟨by decide +kernel, List.all_eq_true.mp (by decide +kernel)⟩
  have plain : ∀ a ∈ [member "Length", .entry "k_2x", .position "007", .entry "b"], a.IsPlain := by
    intro a mem
    simp only [List.mem_cons, List.not_mem_nil, or_false] at mem
    rcases mem with rfl | rfl | rfl | rfl
    exacts [Length, k, position, b]
  have apart : [member "Length", .entry "k_2x", .position "007", .entry "b"].IsChain Precedes := by
    simp [Precedes]
  exact ⟨owner, plain, apart, by decide +kernel, parse_accesses owner plain apart⟩

/-- A digit among the letters of a key starts a factor, and a point behind a position is its radix
point. -/
theorem parse_digit_in_key :
    Cursor.IsVariable "a".toList
    ∧ (member "x1").IsIdentified ∧ chainText "a" [.member "x1"] = "a.x1"
    ∧ (parse "a.x1").toOption = some (Tree.empty.plant
        (.node (.operator .multiply) (chain "a" [.member "x"]) (.leaf (.number 1))))
    ∧ (parse "a.x1").toOption ≠ some (Tree.empty.plant (chain "a" [.member "x1"]))
    ∧ (position "0").IsIdentified ∧ (member "b").IsIdentified
    ∧ chainText "a" [.position "0", .member "b"] = "a:0.b"
    ∧ (parse "a:0.b").toOption = some (Tree.empty.plant
        (.node (.operator .multiply) (chain "a" [.position "0"]) (.leaf (.var "b"))))
    ∧ (parse "a:0.b").toOption
        ≠ some (Tree.empty.plant (chain "a" [.position "0", .member "b"])) := by
  have x1 : Term.IsFunctionName "x1" :=
    ⟨⟨'x', ['1'], rfl, by decide +kernel⟩, List.all_eq_true.mp (by decide +kernel)⟩
  have b : Term.IsFunctionName "b" :=
    ⟨⟨'b', [], rfl, by decide +kernel⟩, List.all_eq_true.mp (by decide +kernel)⟩
  have zero : (position "0").IsIdentified :=
    ⟨by decide +kernel, List.all_eq_true.mp (by decide +kernel)⟩
  exact ⟨.letter (by decide +kernel), x1, by decide +kernel, by decide +kernel, by decide +kernel,
    zero, b, by decide +kernel, by decide +kernel, by decide +kernel⟩

end Expression

end FormulaLang
