import FormulaLang.Text.Quoted
import FormulaLang.Value.Basic

/-!
Values as text: `Value.text` is what messages show, and `Value.detail` also tells the types apart.
-/

namespace FormulaLang.Value

variable {H : Type} [HostObject H]

mutual

/-- A value as messages show it.  Texts stand between quotes as they are. -/
def text : Value H → String
  | number x => Decimal.text x
  | bool b => if b then "true" else "false"
  | string s => "\"" ++ s ++ "\""
  | sequence items => "[" ++ ", ".intercalate (itemTexts items) ++ "]"
  | map entries => "\x7b" ++ ", ".intercalate (entryTexts entries) ++ "\x7d"
  | host object => HostObject.shown object

def itemTexts : List (Value H) → List String
  | [] => []
  | v :: rest => v.text :: itemTexts rest

def entryTexts : List (String × Value H) → List String
  | [] => []
  | (key, v) :: rest => (key ++ ": " ++ v.text) :: entryTexts rest

end

mutual

/-- A value with its types, and with every character of its texts visible. -/
def detail : Value H → String
  | number x => "Number(" ++ Decimal.text x ++ ")"
  | bool b => "Bool(" ++ (if b then "true" else "false") ++ ")"
  | string s => "String(" ++ Text.quoted s ++ ")"
  | sequence items => "[" ++ ", ".intercalate (itemDetails items) ++ "]"
  | map entries => "\x7b" ++ ", ".intercalate (entryDetails entries) ++ "\x7d"
  | host object => "Opaque(" ++ HostObject.shown object ++ ")"

def itemDetails : List (Value H) → List String
  | [] => []
  | v :: rest => v.detail :: itemDetails rest

def entryDetails : List (String × Value H) → List String
  | [] => []
  | (key, v) :: rest => (Text.quoted key ++ ": " ++ v.detail) :: entryDetails rest

end

/-- The key that an index operand stands for in a map. -/
def keyText : Value H → String
  | string s => s
  | v => v.text

end FormulaLang.Value
