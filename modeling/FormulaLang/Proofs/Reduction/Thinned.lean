import FormulaLang.Proofs.Reduction.Parsing
import FormulaLang.Proofs.Scanning.Thinned

/-!
Blanks in an expression are insignificant: a text that can be parsed is parsed to the same tree
without any of its blanks, wherever they stand.
-/

namespace FormulaLang

namespace Term

variable {related : String → String → Prop} {expand expand' : String → Except Failure Tree}

-- A node whose raw text is expanded alike settles alike.
theorem settle_alike (expands : ∀ raw raw' inside, related raw raw' → expand raw = .ok inside →
    expand' raw' = .ok inside) {token token' : Token} (ht : token.Alike related token')
    {left right u : Term} (settled : settle expand token left right = .ok u) :
    settle expand' token' left right = .ok u := by
  cases ht with
  | @same token expanded =>
      cases token with
      | group | magnitude => cases expanded
      | number | var | name | operator => exact settled
  | group h =>
      obtain ⟨inside, read, rfl⟩ := ok_of_map settled
      rw [settle, expands _ _ inside h read]
      rfl
  | magnitude h =>
      obtain ⟨inside, read, rfl⟩ := ok_of_map settled
      rw [settle, expands _ _ inside h read]
      rfl

/-- Terms alike whose raw texts are expanded alike are reduced to the same term. -/
theorem Alike.reduce (expands : ∀ raw raw' inside, related raw raw' → expand raw = .ok inside →
    expand' raw' = .ok inside) {t t' u : Term} (h : t.Alike related t')
    (reduced : t.reduce expand = .ok u) : t'.reduce expand' = .ok u := by
  induction h generalizing u with
  | absent =>
      cases reduced
      rfl
  | node ht _ _ ihl ihr =>
      obtain ⟨l, hl, reduced⟩ := ok_of_bind reduced
      obtain ⟨r, hr, settled⟩ := ok_of_bind reduced
      rw [Term.reduce, ihl hl, ihr hr]
      exact settle_alike expands ht settled

end Term

namespace Expression

open Grammar

-- A text is built to a term alike without some of its blanks.
theorem build_thinned {text text' : String} {term : Term}
    (thinned : Thinned text.toList text'.toList)
    (h : build text = .ok (Tree.empty.plant term)) :
    ∃ term', build text' = .ok (Tree.empty.plant term')
      ∧ term.Alike (Thinned.Narrower text'.length) term' := by
  obtain ⟨lexemes, cutUp, scanned⟩ := build_eq_ok_iff.mp h
  obtain ⟨lexemes', cutUp', alike⟩ := cutUp.thinned thinned
    (Cursor.byteLength text'.toList) (Nat.le_refl text'.length)
  obtain ⟨term', scanned', same⟩ := (scan_alike (normalise_alike alike) .nil).2 scanned
  exact ⟨term', build_eq_ok_iff.mpr ⟨lexemes', cutUp', scanned'⟩, same⟩

theorem length_pos_of_build {text : String} {t : Tree} (h : build text = .ok t) :
    0 < text.length := by
  rw [Nat.pos_iff_ne_zero]
  intro none
  rw [String.length_eq_zero_iff.mp none] at h
  cases h

theorem parseWithin_thinned (depth : Nat) : ∀ {depth' : Nat} {text text' : String} {t : Tree},
    Thinned text.toList text'.toList → parseWithin depth text = .ok t → text'.length ≤ depth' →
    parseWithin depth' text' = .ok t := by
  induction depth with
  | zero => nofun
  | succ depth ih =>
      intro depth' text text' t thinned parsed enough
      obtain ⟨inner, term, u, same, built, there, reduced, -, rfl⟩ := parseWithin_cases parsed
      cases same
      obtain ⟨term', built', alike⟩ := build_thinned thinned built
      have there' : term' ≠ .absent := by
        cases alike with
        | absent => exact there
        | node => nofun
      obtain ⟨inner', rfl⟩ : ∃ n, depth' = n + 1 :=
        ⟨depth' - 1, by have := length_pos_of_build built'; omega⟩
      rw [parseWithin_succ (rooted_parseWithin inner') there' built']
      have reduced' : term'.reduce (parseWithin inner') = .ok u := by
        refine alike.reduce (fun raw raw' inside narrower read => ?_) reduced
        exact ih narrower.1 read (Nat.le_of_lt_succ (Nat.lt_of_lt_of_le narrower.2 enough))
      rw [reduced']
      rfl

/-- A text that can be parsed is parsed to the same tree without any of its blanks. -/
theorem parse_thinned {text text' : String} {t : Tree}
    (thinned : Thinned text.toList text'.toList) (h : parse text = .ok t) :
    parse text' = .ok t :=
  parseWithin_thinned _ thinned h (Nat.le_refl _)

/-- Blanks of several kinds in a name, a variable and a numeral, around operators, and inside raw
text. -/
def spread : String :=
  " s in\t( | a_\u2003 1 | + 2 . 5 ( x ) )\u00a0"

theorem parse_thinned_spread :
    ∃ t, parse spread = .ok t ∧ parse "sin(|a_1|+2.5(x))" = .ok t := by
  have thinned : Thinned spread.toList "sin(|a_1|+2.5(x))".toList := by
    have same : "sin(|a_1|+2.5(x))".toList = spread.toList.filter fun ch => !Text.isBlank ch := by
      decide +kernel
    rw [same]
    exact .withoutBlanks _
  have accepted : (parse spread).isOk = true := by decide +kernel
  cases parsed : parse spread with
  | error e =>
      rw [parsed] at accepted
      cases accepted
  | ok t => exact ⟨t, rfl, parse_thinned thinned parsed⟩

end Expression

end FormulaLang
