import FormulaLang.Expression
import FormulaLang.Proofs.Building.Precedence
import FormulaLang.Proofs.Reduction.Refinement
import FormulaLang.Proofs.Scanning.Lexemes
import FormulaLang.Proofs.Scanning.Spoken

/-!
Parsing, step by step: the tokens of a text are built along a spine to a term, and this term is
reduced.  What is parsed always has a root.
-/

namespace FormulaLang

namespace Spine

/-! ## Building leaves a root -/

theorem close_ne_absent {pending : List Pending} {t : Term} (h : pending ≠ [] ∨ t ≠ .absent) :
    close pending t ≠ .absent := by
  induction pending generalizing t with
  | nil =>
      rcases h with h | h
      · exact absurd rfl h
      · exact h
  | cons f rest ih => exact ih (.inr nofun)

/-- Whether something has been placed. -/
def Started (s : Spine) : Prop :=
  s.pending ≠ [] ∨ s.operand? ≠ none

theorem whole_ne_absent {s : Spine} (h : s.Started) : s.whole ≠ .absent := by
  refine close_ne_absent (h.imp id fun operand => ?_)
  cases hoperand : s.operand? with
  | none => exact absurd hoperand operand
  | some token => nofun

theorem started_start (token : Token) : (start token).Started := by
  cases token with
  | operator op => cases op <;> exact .inl nofun
  | _ => exact .inr nofun

theorem started_placeOperator {s s' : Spine} {op : Operation} (h : s.placeOperator op = .ok s') :
    s'.Started := by
  unfold placeOperator at h
  cases hoperand : s.operand? with
  | none =>
      rw [hoperand] at h
      dsimp only at h
      split at h
      · obtain ⟨_, -, h⟩ := ok_of_bind h
        cases h
        exact .inl nofun
      · cases h
  | some token =>
      rw [hoperand] at h
      cases h
      exact .inl nofun

theorem started_placeOperand {s s' : Spine} {token : Token} {op : Operation}
    (h : s.placeOperand token op = .ok s') : s'.Started := by
  unfold placeOperand at h
  cases hoperand : s.operand? with
  | none =>
      rw [hoperand] at h
      obtain ⟨_, -, h⟩ := ok_of_bind h
      cases h
      exact .inr nofun
  | some x =>
      rw [hoperand] at h
      obtain ⟨_, -, h⟩ := ok_of_bind h
      cases h
      exact .inr nofun

theorem started_place {s s' : Spine} {token : Token} (h : s.place token = .ok s') :
    s'.Started := by
  have byText : ∀ text, s.placeText token text = .ok s' → s'.Started := by
    intro text h
    unfold placeText at h
    split at h
    · cases h
      exact .inr nofun
    · exact started_placeOperand h
    · exact started_placeOperand h
  cases token with
  | operator op => exact started_placeOperator h
  | var text => exact byText text h
  | name text => exact byText text h
  | number x => exact started_placeOperand h
  | group raw => exact started_placeOperand h
  | magnitude raw => exact started_placeOperand h

theorem started_run {s s' : Spine} (started : s.Started) (tokens : List Token)
    (h : s.run tokens = .ok s') : s'.Started := by
  induction tokens generalizing s with
  | nil =>
      cases h
      exact started
  | cons token rest ih =>
      rw [run] at h
      obtain ⟨placed, hplaced, h⟩ := ok_of_bind h
      exact ih (started_place hplaced) h

-- A built tree holds one term, which has a root.
theorem build_planted {tokens : List Token} {t : Tree} (h : build tokens = .ok t) :
    ∃ term, term ≠ .absent ∧ t = Tree.empty.plant term := by
  cases tokens with
  | nil => cases h
  | cons token rest =>
      have h : ((start token).run rest >>= finish) = .ok t := h
      obtain ⟨s, hrun, h⟩ := ok_of_bind h
      have started : s.Started := started_run (started_start token) rest hrun
      unfold finish at h
      split at h
      · cases h
      · cases h
        exact ⟨s.whole, whole_ne_absent started, rfl⟩

end Spine

namespace Expression

open Reduction

/-! ## One text -/

theorem build_eq (text : String) :
    build text = Builder.empty.pushAll (Scan.ofText text).tokens >>= fun builder =>
      match (Scan.ofText text).failure? with
      | some e => .error e
      | none => builder.finish :=
  rfl

theorem build_of_scan {text : String} {t : Tree} (whole : (Scan.ofText text).failure? = none)
    (built : Spine.build (Scan.ofText text).tokens = .ok t) : build text = .ok t := by
  rw [build_eq, whole]
  exact (Builder.build_eq _).trans built

theorem scan_of_build {text : String} {t : Tree} (h : build text = .ok t) :
    (Scan.ofText text).failure? = none ∧ Spine.build (Scan.ofText text).tokens = .ok t := by
  rw [build_eq] at h
  cases whole : (Scan.ofText text).failure? with
  | some e =>
      rw [whole] at h
      obtain ⟨builder, -, h⟩ := ok_of_bind h
      cases h
  | none =>
      rw [whole] at h
      refine ⟨rfl, ?_⟩
      rw [← Builder.build_eq]
      exact h

theorem build_planted {text : String} {t : Tree} (h : build text = .ok t) :
    ∃ term, term ≠ .absent ∧ t = Tree.empty.plant term :=
  Spine.build_planted (scan_of_build h).2

/-- A text is built to a term exactly when it can be cut up and one pass over its normalised tokens
reads the term. -/
theorem build_eq_ok_iff {text : String} {term : Term} :
    build text = .ok (Tree.empty.plant term) ↔
      ∃ lexemes, Scan.CutUp (Cursor.byteLength text.toList) text.toList lexemes
        ∧ Grammar.scan [] none (Grammar.normalise (lexemes.map Lexeme.token)) = some term := by
  constructor
  · intro h
    obtain ⟨whole, built⟩ := scan_of_build h
    have read := Spine.build_eq_scan (Scan.spoken_ofText whole).unsigned
    rw [built, Spine.reading] at read
    obtain ⟨t, scanned, same⟩ := Option.map_eq_some_iff.mp read.symm
    have whole' : t = term := by
      rw [← Tree.Has.term_plant t, same, Tree.Has.term_plant]
    exact ⟨_, Scan.cutUp_ofText whole, whole' ▸ scanned⟩
  · rintro ⟨lexemes, cutUp, scanned⟩
    obtain ⟨same, whole⟩ := cutUp.ofText
    refine build_of_scan whole ?_
    have read := Spine.build_eq_scan (Scan.spoken_ofText whole).unsigned
    rw [Scan.tokens, same, Spine.reading, scanned] at read
    rw [Scan.tokens, same]
    cases built : Spine.build (lexemes.map Lexeme.token) with
    | error e =>
        rw [built] at read
        cases read
    | ok t =>
        rw [built] at read
        exact congrArg Except.ok (Option.some.inj read)

-- A text whose tokens are built to a term is parsed to the reduced term.
theorem parseWithin_succ {depth : Nat} {text : String} {term : Term}
    (rooted : Rooted (parseWithin depth)) (there : term ≠ .absent)
    (built : build text = .ok (Tree.empty.plant term)) :
    parseWithin (depth + 1) text
      = ((term.reduce (parseWithin depth)).map Tree.empty.plant).mapError
          (Failure.within (Text.trim text)) := by
  rw [parseWithin, built, ← Tree.reduce_plant rooted there]
  rfl

-- What is parsed has a root.
theorem rooted_parseWithin (depth : Nat) : Rooted (parseWithin depth) := by
  induction depth with
  | zero => nofun
  | succ depth ih =>
      intro text t h
      cases built : build text with
      | error e =>
          rw [parseWithin, built] at h
          cases h
      | ok t' =>
          obtain ⟨term, there, rfl⟩ := build_planted built
          rw [parseWithin_succ ih there built] at h
          obtain ⟨u, reduced, rfl⟩ := ok_of_map (ok_of_mapError h)
          rw [Tree.Has.term_plant]
          exact reduce_ne_absent ih there reduced

-- A text is parsed by building the term of its tokens and reducing it.
theorem parseWithin_cases {depth : Nat} {text : String} {t : Tree}
    (h : parseWithin depth text = .ok t) :
    ∃ inner term u, depth = inner + 1 ∧ build text = .ok (Tree.empty.plant term)
      ∧ term ≠ .absent ∧ term.reduce (parseWithin inner) = .ok u ∧ u ≠ .absent
      ∧ t = Tree.empty.plant u := by
  cases depth with
  | zero => cases h
  | succ inner =>
      cases built : build text with
      | error e =>
          rw [parseWithin, built] at h
          cases h
      | ok t' =>
          obtain ⟨term, there, rfl⟩ := build_planted built
          rw [parseWithin_succ (rooted_parseWithin inner) there built] at h
          obtain ⟨u, reduced, rfl⟩ := ok_of_map (ok_of_mapError h)
          have rooted := reduce_ne_absent (rooted_parseWithin inner) there reduced
          exact ⟨inner, term, u, rfl, rfl, there, reduced, rooted, rfl⟩

end Expression

end FormulaLang
