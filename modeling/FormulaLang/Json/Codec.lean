import FormulaLang.Config
import FormulaLang.Json.Reading
import FormulaLang.Json.Writing
import FormulaLang.Specification
import FormulaLang.Value.Text

/-!
Values, types, specifications, settings and failures as JSON documents.
-/

namespace FormulaLang

namespace Operation

/-- An operator is written by its name. -/
def toJson (op : Operation) : Json :=
  .ofString op.name

end Operation

namespace Failure

/-- A failure is written as a record of its stage, its parts and the whole report. -/
def toJson (e : Failure) : Json :=
  let optional {α : Type} (f : α → Json) (x? : Option α) : Json := (x?.map f).getD .null
  let pair : String × String → Json := fun (name, value) =>
    .array [.ofString name, .ofString value]
  .ofEntries
    [ ("error", .ofString e.stage),
      ("message", .ofString e.message),
      ("expression", optional .ofString e.expression?),
      ("bindings", optional (fun bindings => .array (bindings.map pair)) e.bindings?),
      ("display", .ofString e.report) ]

end Failure

namespace TypeInfo

/-- A type is written by its name, and a host type as an object with the key `Host`. -/
def toJson : TypeInfo → Json
  | host name => .ofEntries [("Host", .ofString name)]
  | ty => .ofString ty.name

/-- Reads a type.  The language's own types may also be keys of `null`. -/
def ofJson? : Json → Option TypeInfo
  | .string text? => text?.bind ofName?
  | .object [(some "Host", name)] => name.toString?.map host
  | .object [(some key, .null)] => ofName? key
  | _ => none

end TypeInfo

namespace Specification

/-- A specification is written as a record of its name, its variables and its origin. -/
def toJson (s : Specification) : Json :=
  .ofEntries
    [ ("name", .ofString s.name),
      ("variables", .ofEntries (s.parameters.map fun (name, type) => (name, type.toJson))),
      ("explicit", .bool s.explicit) ]

/-- Reads a specification.  A repeated variable keeps its first place and takes its last type. -/
def ofJson? (j : Json) : Option Specification := do
  match ← j.toRecord? ["name", "variables", "explicit"] with
  | [name, parameters, explicit] =>
      let name ← name.toString?
      let entries ← parameters.toEntries?
      let typed ← entries.mapM fun (name, type) => (TypeInfo.ofJson? type).map fun t => (name, t)
      let explicit ← explicit.toBool?
      return ⟨name, Keyed.ofList typed, explicit, Keyed.nodup_keys_ofList typed⟩
  | _ => none

end Specification

namespace CacheConfig

/-- Settings of the cache are written as a record. -/
def toJson (c : CacheConfig) : Json :=
  .ofEntries [("capacity", .ofNat c.capacity), ("enabled", .bool c.enabled)]

/-- Reads settings of the cache. -/
def ofJson? (j : Json) : Option CacheConfig := do
  match ← j.toRecord? ["capacity", "enabled"] with
  | [capacity, enabled] => return ⟨← capacity.toNat?, ← enabled.toBool?⟩
  | _ => none

end CacheConfig

namespace Config

/-- Settings of a context are written as a record. -/
def toJson (c : Config) : Json :=
  .ofEntries [("cache", c.cache.toJson), ("type_deduction", .bool c.typeDeduction)]

/-- Reads settings of a context. -/
def ofJson? (j : Json) : Option Config := do
  match ← j.toRecord? ["cache", "type_deduction"] with
  | [cache, typeDeduction] => return ⟨← CacheConfig.ofJson? cache, ← typeDeduction.toBool?⟩
  | _ => none

end Config

namespace Value

variable {H : Type} [HostObject H]

mutual

/-- A value is written as the document it resembles most; host objects are written as they are
shown. -/
def toJson : Value H → Json
  | number x => .ofFloat x
  | bool b => .bool b
  | string s => .ofString s
  | sequence items => .array (itemDocuments items)
  | map entries => .object (entryDocuments entries)
  | host object => .ofString (HostObject.shown object)

def itemDocuments : List (Value H) → List Json
  | [] => []
  | v :: rest => v.toJson :: itemDocuments rest

def entryDocuments : List (String × Value H) → List (Option String × Json)
  | [] => []
  | (key, v) :: rest => (some key, v.toJson) :: entryDocuments rest

end

/-- Adds an entry to a map with ascending keys; the last value of a key counts. -/
def insertAscending (key : String) (v : Value H) :
    List (String × Value H) → List (String × Value H)
  | [] => [(key, v)]
  | (k, w) :: rest =>
      if key = k then (key, v) :: rest
      else if key < k then (key, v) :: (k, w) :: rest
      else (k, w) :: insertAscending key v rest

mutual

/-- The value of a document: `null` is the empty sequence, and objects become maps with their keys
in ascending order.  Texts that stand for no characters and numbers out of range have no value. -/
def ofJson? : Json → Option (Value H)
  | .null => some (sequence [])
  | .bool b => some (bool b)
  | .number lexeme => (Json.toFloat? (.number lexeme)).map number
  | .string text? => text?.map string
  | .array items => (itemsOfJson? items).map sequence
  | .object entries => (entriesOfJson? [] entries).map map

def itemsOfJson? : List Json → Option (List (Value H))
  | [] => some []
  | j :: rest => do
      let v ← ofJson? j
      let vs ← itemsOfJson? rest
      return v :: vs

/-- Adds the values of entries to a map with ascending keys. -/
def entriesOfJson? (before : List (String × Value H)) :
    List (Option String × Json) → Option (List (String × Value H))
  | [] => some before
  | (key?, j) :: rest => do
      let key ← key?
      let v ← ofJson? j
      entriesOfJson? (insertAscending key v before) rest

end

end Value

end FormulaLang
