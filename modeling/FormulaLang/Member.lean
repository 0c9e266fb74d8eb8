import FormulaLang.TypeRegistry

/-!
Finding the member of a name on a type.  Maps expose their keys.  A declared member is found by
its exact name, or else regardless of the case of ASCII letters; host types fall back to what
their objects answer.
-/

namespace FormulaLang

/-- The outcome of looking for a member. -/
inductive MemberLookup (H : Type) where
  | found (member : Member H)
  | missing
  /-- Several declared members fit. -/
  | ambiguous (candidates : List String)
  /-- The owner's type is not known. -/
  | deferred

namespace MemberLookup

variable {H : Type}

/-- The member found, or why there is none. -/
def toResult (lookup : MemberLookup H) (owner : TypeInfo) (name : String) :
    Except Cause (Member H) :=
  match lookup with
  | found member => .ok member
  | missing => .error (.missingMember name owner.name)
  | ambiguous candidates => .error (.ambiguousMember name owner candidates)
  | deferred => .error (.deferredMember name owner)

def summary : MemberLookup H → String
  | found member => "Found(" ++ member.describe ++ ")"
  | missing => "Missing"
  | ambiguous candidates =>
      "Ambiguous([" ++ ", ".intercalate (candidates.map Text.quoted) ++ "])"
  | deferred => "Deferred"

end MemberLookup

namespace Member

variable {H : Type} [HostObject H]

/-- The entry of a map under a key. -/
def ofKey (key : String) : Member H :=
  ⟨key, .any, fun
    | .map entries =>
        match entries.lookup key with
        | some v => .ok v
        | none => .error (.solving (.missingMember key TypeInfo.map.name))
    | v => .error (.solving (.expectedMap v.typeInfo))⟩

/-- The member that a host object answers for. -/
def ofHost (name : String) : Member H :=
  ⟨name, .any, fun
    | .host object =>
        match HostObject.member? object name with
        | some v => .ok v
        | none => .error (.solving (.missingMember name (HostObject.typeName object)))
    | v => .error (.solving (.expectedHost v.typeInfo))⟩

/-- A text with its ASCII letters in lowercase. -/
def foldCase (name : String) : String :=
  name.map Char.toLower

def declared (members : List (Member H)) (name : String) : MemberLookup H :=
  match members.find? fun m => m.name == name with
  | some m => .found m
  | none =>
      match members.filter fun m => foldCase m.name == foldCase name with
      | [] => .missing
      | [m] => .found m
      | several => .ambiguous (several.map Member.name)

/-- The member of a name on a type. -/
def resolve (types : TypeRegistry H) (owner : TypeInfo) (name : String) : MemberLookup H :=
  match owner with
  | .any => .deferred
  | .map => .found (ofKey name)
  | _ =>
      let lookup :=
        match types.descriptor? owner with
        | some d => declared d.members name
        | none => .missing
      match lookup, owner with
      | .missing, .host _ => .found (ofHost name)
      | lookup, _ => lookup

end Member

end FormulaLang
