import FormulaLang.Proofs.Building.Precedence
import Mathlib.Data.List.Forall2

/-!
Tokens that differ in their raw texts only.  Where a token is placed does not depend on the raw text
in it, so lists of such tokens are built to terms of the same shape.
-/

namespace FormulaLang

/-- Two tokens that are the same, or raw texts between the same signs that are related. -/
inductive Token.Alike (related : String → String → Prop) : Token → Token → Prop where
  | same {token : Token} (expanded : token.isUnexpanded = false) : Alike related token token
  | group {raw raw' : String} (h : related raw raw') : Alike related (.group raw) (.group raw')
  | magnitude {raw raw' : String} (h : related raw raw') :
      Alike related (.magnitude raw) (.magnitude raw')

/-- Two terms of the same shape whose tokens are alike. -/
inductive Term.Alike (related : String → String → Prop) : Term → Term → Prop where
  | absent : Alike related .absent .absent
  | node {token token' : Token} (ht : token.Alike related token') {left left' right right' : Term}
      (hl : Alike related left left') (hr : Alike related right right') :
      Alike related (.node token left right) (.node token' left' right')

variable {related : String → String → Prop}

namespace Token.Alike

variable {x x' y y' : Token}

theorem isText_eq (h : x.Alike related x') : x.isText = x'.isText := by
  cases h <;> rfl

theorem isOperand_eq (h : x.Alike related x') : x.isOperand = x'.isOperand := by
  cases h <;> rfl

theorem isUnexpanded_eq (h : x.Alike related x') : x.isUnexpanded = x'.isUnexpanded := by
  cases h <;> rfl

theorem isAccess_eq (h : x.Alike related x') : x.isAccess = x'.isAccess := by
  cases h <;> rfl

theorem text?_eq (h : x.Alike related x') : x.text? = x'.text? := by
  cases h <;> rfl

theorem between?_eq (hx : x.Alike related x') (hy : y.Alike related y') :
    Grammar.between? x y = Grammar.between? x' y' := by
  rw [Grammar.between?, Grammar.between?, Grammar.between, Grammar.between, hx.isOperand_eq,
    hy.isOperand_eq, hx.isText_eq, hy.isUnexpanded_eq]

end Token.Alike

namespace Grammar

open List (Forall₂)

variable {tokens tokens' : List Token}

theorem texts_alike (h : Forall₂ (Token.Alike related) tokens tokens') :
    (tokens.takeWhile Token.isText).filterMap Token.text?
        = (tokens'.takeWhile Token.isText).filterMap Token.text?
      ∧ (tokens.takeWhile Token.isText).isEmpty = (tokens'.takeWhile Token.isText).isEmpty
      ∧ Forall₂ (Token.Alike related) (tokens.dropWhile Token.isText)
        (tokens'.dropWhile Token.isText) := by
  induction h with
  | nil => exact ⟨rfl, rfl, .nil⟩
  | @cons x x' rest rest' hx h ih =>
      cases isText : x.isText with
      | false =>
          have isText' := hx.isText_eq.symm.trans isText
          rw [List.takeWhile_cons, List.takeWhile_cons, List.dropWhile_cons, List.dropWhile_cons,
            isText, isText']
          exact ⟨rfl, rfl, .cons hx h⟩
      | true =>
          have isText' := hx.isText_eq.symm.trans isText
          rw [List.takeWhile_cons, List.takeWhile_cons, List.dropWhile_cons, List.dropWhile_cons,
            isText, isText']
          refine ⟨?_, rfl, ih.2.2⟩
          simp only [if_true, List.filterMap_cons, hx.text?_eq, ih.1]

theorem joinKeys_alike (h : Forall₂ (Token.Alike related) tokens tokens') :
    Forall₂ (Token.Alike related) (joinKeys tokens) (joinKeys tokens') := by
  fun_induction joinKeys tokens generalizing tokens' with
  | case1 =>
      cases h
      rw [joinKeys]
      exact .nil
  | case2 token rest joined ih =>
      cases h with
      | cons hx h =>
          obtain ⟨texts, isEmpty, behind⟩ := texts_alike h
          rw [joinKeys, ← hx.isAccess_eq, ← isEmpty, if_pos joined, ← texts]
          exact .cons hx (.cons (.same rfl) (ih behind))
  | case3 token rest joined ih =>
      cases h with
      | cons hx h =>
          obtain ⟨texts, isEmpty, behind⟩ := texts_alike h
          rw [joinKeys, ← hx.isAccess_eq, ← isEmpty, if_neg joined]
          exact .cons hx (ih h)

theorem fillAfter_alike (h : Forall₂ (Token.Alike related) tokens tokens') {x x' : Token}
    (hx : x.Alike related x') :
    Forall₂ (Token.Alike related) (fillAfter x tokens) (fillAfter x' tokens') := by
  induction h generalizing x x' with
  | nil => exact .nil
  | cons hy _ ih =>
      rw [fillAfter, fillAfter, hx.between?_eq hy]
      split
      next => exact .cons (.same rfl) (.cons hy (ih hy))
      next => exact .cons hy (ih hy)

theorem normalise_alike (h : Forall₂ (Token.Alike related) tokens tokens') :
    Forall₂ (Token.Alike related) (normalise tokens) (normalise tokens') := by
  have joined := joinKeys_alike h
  rw [normalise, normalise]
  generalize joinKeys tokens = keys, joinKeys tokens' = keys' at joined
  cases joined with
  | nil => exact .nil
  | cons hx h => exact .cons hx (fillAfter_alike h hx)

/-- Two operators that are the same, with left operands that are alike. -/
structure PendingAlike (related : String → String → Prop) (f f' : Pending) : Prop where
  op : f.op = f'.op
  left : f.left.Alike related f'.left

variable {pending pending' : List Pending} {t t' : Term}

theorem climb_alike (h : Forall₂ (PendingAlike related) pending pending')
    (ht : t.Alike related t') (op : Operation) :
    Forall₂ (PendingAlike related) (Spine.climb op pending t).1 (Spine.climb op pending' t').1
      ∧ (Spine.climb op pending t).2.Alike related (Spine.climb op pending' t').2 := by
  induction h generalizing t t' with
  | nil => exact ⟨.nil, ht⟩
  | @cons f f' rest rest' hf h ih =>
      rw [Spine.climb, Spine.climb, ← hf.op]
      split
      next => exact ih (.node (.same rfl) hf.left ht)
      next => exact ⟨.cons hf h, ht⟩

theorem close_alike (h : Forall₂ (PendingAlike related) pending pending')
    (ht : t.Alike related t') :
    (Spine.close pending t).Alike related (Spine.close pending' t') := by
  induction h generalizing t t' with
  | nil => exact ht
  | @cons f f' rest rest' hf h ih =>
      rw [Spine.close, Spine.close, ← hf.op]
      exact ih (.node (.same rfl) hf.left ht)

theorem leaf_alike {x x' : Token} (h : x.Alike related x') :
    (Term.leaf x).Alike related (Term.leaf x') :=
  .node h .absent .absent

-- A pass over alike tokens reads a term alike.
theorem scan_alike (h : Forall₂ (Token.Alike related) tokens tokens')
    (hp : Forall₂ (PendingAlike related) pending pending') {u : Term} :
    (∀ t t', t.Alike related t' → scan pending (some t) tokens = some u →
      ∃ u', scan pending' (some t') tokens' = some u' ∧ u.Alike related u') ∧
    (scan pending none tokens = some u →
      ∃ u', scan pending' none tokens' = some u' ∧ u.Alike related u') := by
  induction h generalizing pending pending' with
  | nil =>
      refine ⟨?_, nofun⟩
      rintro t t' ht ⟨⟩
      exact ⟨_, rfl, close_alike hp ht⟩
  | @cons x x' rest rest' hx h ih =>
      rcases operator_or_operand x with ⟨op, rfl⟩ | operand
      · cases hx
        constructor
        · intro t t' ht read
          obtain ⟨climbed, closed⟩ := climb_alike hp ht op
          have awaiting : PendingAlike related ⟨op, (Spine.climb op pending t).2⟩
              ⟨op, (Spine.climb op pending' t').2⟩ := ⟨rfl, closed⟩
          exact (ih (.cons awaiting climbed)).2 read
        · intro read
          obtain ⟨rfl, read⟩ := scan_awaited read
          have awaiting : PendingAlike related ⟨.negate, .absent⟩ ⟨.negate, .absent⟩ :=
            ⟨rfl, .absent⟩
          exact (ih (.cons awaiting hp)).2 read
      · have operand' : x'.isOperand = true := hx.isOperand_eq.symm.trans operand
        constructor
        · intro t t' ht read
          rw [scan_two_operands operand] at read
          cases read
        · intro read
          rw [scan_operand operand] at read
          rw [scan_operand operand']
          exact (ih hp).1 _ _ (leaf_alike hx) read

end Grammar

end FormulaLang
