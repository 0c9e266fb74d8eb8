import FormulaLang.Json.Basic

/-!
Writing JSON text without blanks.
-/

namespace FormulaLang.Json

/-- How one character is written in a text. -/
def escapedChar (c : Char) : List Char :=
  if c = '"' || c = '\\' then ['\\', c]
  else if c = '\n' then ['\\', 'n']
  else if c = '\r' then ['\\', 'r']
  else if c = '\t' then ['\\', 't']
  else if c.toNat = 8 then ['\\', 'b']
  else if c.toNat = 12 then ['\\', 'f']
  else if c.toNat < 32 then
    ['\\', 'u', '0', '0', Nat.digitChar (c.toNat / 16), Nat.digitChar (c.toNat % 16)]
  else [c]

def quote (s : String) : String :=
  "\"" ++ String.ofList (s.toList.flatMap escapedChar) ++ "\""

/-- A text or key; one that stands for no characters is written as an empty one. -/
def quote? (text? : Option String) : String :=
  quote (text?.getD "")

mutual

def text : Json → String
  | null => "null"
  | bool b => if b then "true" else "false"
  | number lexeme => lexeme
  | string text? => quote? text?
  | array items => "[" ++ ",".intercalate (itemTexts items) ++ "]"
  | object entries => "\x7b" ++ ",".intercalate (entryTexts entries) ++ "\x7d"

def itemTexts : List Json → List String
  | [] => []
  | j :: rest => j.text :: itemTexts rest

def entryTexts : List (Option String × Json) → List String
  | [] => []
  | (key?, value) :: rest => (quote? key? ++ ":" ++ value.text) :: entryTexts rest

end

end FormulaLang.Json
