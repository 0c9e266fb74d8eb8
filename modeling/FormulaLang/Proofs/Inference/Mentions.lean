import FormulaLang.Proofs.Scanning.Lexemes

/-!
Where variables are written.  Whether a letter in a text is a variable of the formula is told by the
lexemes in front of it: it is none behind a point or a colon, nor alone in parentheses behind a
point.
Raw text is gone through where it stands, so the variables come in the order of the text.
-/

namespace FormulaLang

open Cursor Text

/-- A variable where it is written: its name, and the place behind it in the whole text. -/
structure Mention where
  name : String
  stop : Nat
deriving DecidableEq, Repr

/-- What the lexemes in front of a text make of it. -/
inductive Front where
  /-- A value, such as a variable is. -/
  | value
  /-- The name of a member, which may stand in parentheses. -/
  | member
  /-- A key, or the rest of a key or of the name of a member. -/
  | key
deriving DecidableEq, Repr

namespace Front

/-- What stands behind a token. -/
def behind (front : Front) : Token → Front
  | .operator .property => member
  | .operator .index => key
  | .var _ | .name _ => if front = value then value else key
  | _ => value

/-- What stands in parentheses. -/
def inParentheses : Front → Front
  | member => member
  | _ => value

end Front

namespace Expression

/-- The variables of a token that ends at a place; `inside` goes through the raw text that starts at
a place, which ends before the character that closes it. -/
def mentionsOf (inside : Front → Nat → String → List Mention) (front : Front) (stop : Nat) :
    Token → List Mention
  | .var v => if front = .value then [⟨v, stop⟩] else []
  | .group raw => inside front.inParentheses (stop - 1 - byteLength raw.toList) raw
  | .magnitude raw => inside .value (stop - 1 - byteLength raw.toList) raw
  | _ => []

/-- The variables among lexemes of a text that starts at `base`. -/
def mentionsAmong (inside : Front → Nat → String → List Mention) (base : Nat) :
    Front → List Lexeme → List Mention
  | _, [] => []
  | front, ⟨token, stop⟩ :: rest =>
      mentionsOf inside front (base + stop) token
        ++ mentionsAmong inside base (front.behind token) rest

/-- The variables of a text that starts at `base`, in which raw text is nested at most `depth` deep.
What stands in front of parentheses matters for a single lexeme in them only. -/
def mentionsWithin : Nat → Front → Nat → String → List Mention
  | 0, _, _, _ => []
  | depth + 1, front, base, text =>
      let scan := Scan.ofText text
      match scan.failure? with
      | some _ => []
      | none =>
          mentionsAmong (mentionsWithin depth) base
            (if scan.lexemes.length = 1 then front else .value) scan.lexemes

/-- The variables that a text mentions where it needs values, from left to right. -/
def mentions (text : String) : List Mention :=
  mentionsWithin text.length .value 0 text

example : (mentions "a.b c.(d) + |x_1:e - (f)|").map Mention.name = ["a", "x_1", "f"] := by
  decide +kernel

end Expression

/-! ## Places -/

namespace Mention

/-- A variable is written at its place, with blanks in it or not. -/
def StandsIn (m : Mention) (source : List Char) : Prop :=
  ∃ front letter tail back, source = front ++ (letter :: tail) ++ back
    ∧ isAlphabetic letter = true
    ∧ byteLength (front ++ letter :: tail) = m.stop
    ∧ m.name.toList = (letter :: tail).filter fun ch => !isBlank ch

/-- Variables are written at their places, one behind the other, in a part of a text. -/
structure StandIn (source : List Char) (low high : Nat) (ms : List Mention) : Prop where
  ascending : ms.Pairwise fun m n => m.stop < n.stop
  bounds : ∀ m ∈ ms, low < m.stop ∧ m.stop ≤ high
  stand : ∀ m ∈ ms, m.StandsIn source

namespace StandIn

variable {source : List Char} {low mid high : Nat} {ms ns : List Mention}

theorem nil : StandIn source low high [] where
  ascending := .nil
  bounds := nofun
  stand := nofun

theorem mono {low' high' : Nat} (h : StandIn source low high ms) (hl : low' ≤ low)
    (hh : high ≤ high') : StandIn source low' high' ms where
  ascending := h.ascending
  bounds m hm := by
    have := h.bounds m hm
    omega
  stand := h.stand

theorem append (hm : StandIn source low mid ms) (hn : StandIn source mid high ns)
    (hl : low ≤ mid) (hh : mid ≤ high) : StandIn source low high (ms ++ ns) where
  ascending := by
    refine List.pairwise_append.mpr ⟨hm.ascending, hn.ascending, fun m memM n memN => ?_⟩
    have := hm.bounds m memM
    have := hn.bounds n memN
    omega
  bounds m mem := by
    rcases List.mem_append.mp mem with mem | mem
    · have := hm.bounds m mem
      omega
    · have := hn.bounds m mem
      omega
  stand m mem := (List.mem_append.mp mem).elim (hm.stand m) (hn.stand m)

end StandIn

end Mention

namespace Cursor

variable {cs after : List Char}

theorem Cuts.var {name : String} (h : Cuts cs (.var name) after) :
    ∃ letter tail, cs = (letter :: tail) ++ after ∧ isAlphabetic letter = true
      ∧ name.toList = (letter :: tail).filter fun ch => !isBlank ch := by
  have first : ∀ {letter : Char} (_ : isAlphabetic letter = true) (tail : List Char),
      (letter :: tail).filter (fun ch => !isBlank ch)
        = letter :: tail.filter fun ch => !isBlank ch := by
    intro letter alphabetic tail
    refine List.filter_cons_of_pos ?_
    rw [not_isBlank_of_isAlphabetic alphabetic]
    rfl
  cases h with
  | letter alphabetic uncalled plain =>
      refine ⟨_, [], rfl, alphabetic, ?_⟩
      rw [String.toList_ofList, first alphabetic]
      rfl
  | @subscript letter alphabetic rest uncalled =>
      refine ⟨letter, '_' :: rest.takeWhile (isPassed isWord),
        congrArg (letter :: '_' :: ·) List.takeWhile_append_dropWhile.symm, alphabetic, ?_⟩
      have underscore : isBlank '_' = false := by decide +kernel
      rw [String.toList_ofList, first alphabetic,
        List.filter_cons_of_pos (by rw [underscore]; rfl), run]
      refine congrArg (letter :: '_' :: ·) (List.filter_congr fun ch mem => ?_)
      -- what is passed over is a character of names or a blank
      have passed := List.all_eq_true.mp List.all_takeWhile ch mem
      cases blank : isBlank ch with
      | true => exact not_isWord_of_isBlank blank
      | false =>
          rw [isPassed, blank, Bool.or_false] at passed
          exact passed

theorem Cuts.group_slice {raw : String} (h : Cuts cs (.group raw) after) :
    cs = '(' :: (raw.toList ++ ')' :: after) := by
  cases h with
  | group split =>
      rw [String.toList_ofList]
      exact congrArg _ (closes_splitGroup?.slice split)

theorem Cuts.magnitude_slice {raw : String} (h : Cuts cs (.magnitude raw) after) :
    cs = '|' :: (raw.toList ++ '|' :: after) := by
  cases h with
  | magnitude split =>
      rw [String.toList_ofList]
      exact congrArg _ (closes_splitMagnitude?.slice split)

end Cursor

namespace Expression

open Mention

variable {source : List Char} {inside : Front → Nat → String → List Mention}

/-- The variables of a text that has its place in another. -/
def Places (source : List Char) (inside : Front → Nat → String → List Mention) : Prop :=
  ∀ (state : Front) (front back : List Char) (text : String),
    source = front ++ text.toList ++ back →
    StandIn source (byteLength front) (byteLength front + byteLength text.toList)
      (inside state (byteLength front) text)

theorem byteLength_cons (ch : Char) (cs : List Char) :
    byteLength (ch :: cs) = ch.utf8Size + byteLength cs :=
  rfl

-- Raw text between signs of one byte starts where its length and the closing sign say.
theorem Places.raw (places : Places source inside) (state : Front) {front back : List Char}
    {opening closing : Char} (single : opening.utf8Size = 1 ∧ closing.utf8Size = 1) {raw : String}
    {stop : Nat} (slice : source = front ++ opening :: (raw.toList ++ [closing]) ++ back)
    (ends : byteLength (front ++ opening :: (raw.toList ++ [closing])) = stop) :
    StandIn source (byteLength front) stop
      (inside state (stop - 1 - byteLength raw.toList) raw) := by
  have length : byteLength front + (1 + (byteLength raw.toList + 1)) = stop := by
    rw [← ends, byteLength_append, byteLength_cons, byteLength_append, byteLength_cons, single.1,
      single.2]
    rfl
  have start : byteLength (front ++ [opening]) = stop - 1 - byteLength raw.toList := by
    rw [byteLength_append, byteLength_cons, single.1]
    show byteLength front + (1 + 0) = _
    omega
  have stand := places state (front ++ [opening]) (closing :: back) raw (by
    rw [slice, List.append_assoc, List.append_assoc, List.append_assoc, List.cons_append,
      List.append_assoc]
    rfl)
  rw [start] at stand
  exact stand.mono (by omega) (by omega)

theorem mentionsOf_stand (places : Places source inside) {taken after : List Char} {token : Token}
    (cut : Cuts (taken ++ after) token after) (state : Front) {front back : List Char} {stop : Nat}
    (slice : source = front ++ taken ++ back) (ends : byteLength (front ++ taken) = stop) :
    StandIn source (byteLength front) stop (mentionsOf inside state stop token) := by
  cases token with
  | var v =>
      obtain ⟨letter, tail, same, alphabetic, spelled⟩ := cut.var
      obtain rfl := List.append_cancel_right same
      rw [mentionsOf]
      split
      next =>
        have behind : byteLength front < stop := by
          have positive := letter.utf8Size_pos
          rw [← ends, byteLength_append, byteLength_cons]
          omega
        refine ⟨List.pairwise_singleton _ _, fun m hm => ?_, fun m hm => ?_⟩
        · rw [List.mem_singleton.mp hm]
          exact ⟨behind, Nat.le_refl _⟩
        · rw [List.mem_singleton.mp hm]
          exact ⟨front, letter, tail, back, slice, alphabetic, ends, spelled⟩
      next => exact .nil
  | group raw =>
      have same : taken ++ after = '(' :: (raw.toList ++ [')']) ++ after := by
        rw [cut.group_slice, List.cons_append, List.append_assoc]
        rfl
      obtain rfl := List.append_cancel_right same
      exact places.raw _ (by decide) slice ends
  | magnitude raw =>
      have same : taken ++ after = '|' :: (raw.toList ++ ['|']) ++ after := by
        rw [cut.magnitude_slice, List.cons_append, List.append_assoc]
        rfl
      obtain rfl := List.append_cancel_right same
      exact places.raw _ (by decide) slice ends
  | _ => exact .nil

theorem mentionsAmong_stand (places : Places source inside) {total base : Nat} {cs : List Char}
    {lexemes : List Lexeme} (h : Scan.CutUp total cs lexemes) (state : Front)
    {front back : List Char} (slice : source = front ++ cs ++ back)
    (start : byteLength front + byteLength cs = base + total) (fits : byteLength cs ≤ total) :
    StandIn source (byteLength front) (base + total)
      (mentionsAmong inside base state lexemes) := by
  induction h generalizing front state with
  | nil => exact .nil
  | @cons cs after token lexemes cut h ih =>
      obtain ⟨taken, -, split⟩ := cut.slice
      have whole : cs = cs.takeWhile isBlank ++ (taken ++ after) := by
        rw [← split, List.takeWhile_append_dropWhile]
      generalize cs.takeWhile isBlank = blanks at whole
      rw [split] at cut
      -- what stands before the token, the token, and what stands behind it
      have slice : source = (front ++ blanks) ++ taken ++ (after ++ back) := by
        rw [slice, whole]
        simp only [List.append_assoc]
      have lengths : byteLength cs = byteLength blanks + (byteLength taken + byteLength after) := by
        rw [whole, byteLength_append, byteLength_append]
      have ends : byteLength ((front ++ blanks) ++ taken) = base + (total - byteLength after) := by
        rw [byteLength_append, byteLength_append]
        omega
      have blanked : byteLength front ≤ byteLength (front ++ blanks) := by
        rw [byteLength_append]
        omega
      have taking : byteLength (front ++ blanks) ≤ byteLength ((front ++ blanks) ++ taken) := by
        rw [byteLength_append _ taken]
        omega
      have own := (mentionsOf_stand places cut state slice ends).mono blanked (Nat.le_refl _)
      have behind : source = ((front ++ blanks) ++ taken) ++ after ++ back := by
        rw [slice]
        simp only [List.append_assoc]
      have rest := ih (state.behind token) behind (by omega) (by omega)
      rw [ends] at rest
      exact own.append rest (by omega) (by omega)

theorem mentionsWithin_stand (source : List Char) (depth : Nat) :
    Places source (mentionsWithin depth) := by
  induction depth with
  | zero => exact fun _ _ _ _ _ => .nil
  | succ depth ih =>
      intro state front back text slice
      rw [mentionsWithin]
      split
      next => exact .nil
      next whole =>
        exact mentionsAmong_stand ih (Scan.cutUp_ofText whole) _ slice rfl (Nat.le_refl _)

/-- The variables that a text mentions are written in it, each behind the one before it. -/
theorem mentions_stand (text : String) :
    (mentions text).Pairwise (fun m n => m.stop < n.stop)
      ∧ ∀ m ∈ mentions text, m.StandsIn text.toList := by
  have stand := mentionsWithin_stand text.toList text.length .value [] [] text
    (List.append_nil _).symm
  exact ⟨stand.ascending, stand.stand⟩

end Expression

end FormulaLang
