import FormulaLang.Cursor

/-!
The tokens of a text, up to its end or to the first that cannot be read.
-/

namespace FormulaLang

/-- A token and the place after it. -/
structure Lexeme where
  token : Token
  stop : Nat
deriving Repr

/-- The tokens read, the failure that stopped the reading, and the place where it ended. -/
structure Scan where
  lexemes : List Lexeme
  failure? : Option Failure
  final : Cursor
deriving Repr

namespace Scan

def tokens (s : Scan) : List Token :=
  s.lexemes.map Lexeme.token

/-- Reads at most `count` tokens. -/
def upTo : Nat → Cursor → Scan
  | 0, c => ⟨[], none, c⟩
  | count + 1, c =>
      match c.token with
      | (.ok (some token), after) =>
          let s := upTo count after
          ⟨⟨token, after.offset⟩ :: s.lexemes, s.failure?, s.final⟩
      | (.ok none, after) => ⟨[], none, after⟩
      | (.error e, after) => ⟨[], some e, after⟩

/-- Reads every token.  A text has no more tokens than characters, since each takes one. -/
def ofText (text : String) : Scan :=
  upTo text.length (Cursor.ofText text)

end Scan

end FormulaLang
