import FormulaLang.Cursor
import FormulaLang.Proofs.Typing.Registration

/-!
Names of types.  Each of the language's own types is found by its own name, and so is every type
that a formula names as long as the host application has added none.
-/

namespace FormulaLang

variable {H : Type}

namespace TypeRegistry

/-- Characters of names and points, at least one. -/
def IsTypeName (name : String) : Prop :=
  name ≠ "" ∧ ∀ c ∈ name.toList, Cursor.isWord c = true ∨ c = '.'

/-- Every type that a name stands for is found by its own name. -/
structure Recalls (r : TypeRegistry H) : Prop where
  spelled : ∀ {text type}, r.find text = .ok type → IsTypeName type.name
  back : ∀ {text type}, r.find text = .ok type → r.find type.name = .ok type

/-! ## The language's own types -/

/-- Writes the aliases of the language's own types. -/
def enterAliases (table : Keyed String TypeInfo) (type : TypeInfo) : Keyed String TypeInfo :=
  (builtinAliases type).foldl (fun table name => Keyed.insert (aliasKey name) type table) table

theorem aliases_foldl_register [HostObject H] (types : List TypeInfo) (r : TypeRegistry H) :
    (types.foldl (fun r type => r.register (builtinDescriptor type) (builtinAliases type))
      r).aliases = types.foldl enterAliases r.aliases := by
  induction types generalizing r with
  | nil => rfl
  | cons type rest ih =>
      have same : (builtinDescriptor type : TypeDescriptor H).type = type :=
        type_builtinDescriptor type
      have entered : (r.register (builtinDescriptor type) (builtinAliases type)).aliases
          = enterAliases r.aliases type := by
        show (builtinAliases type).foldl (fun table name => Keyed.insert (aliasKey name)
          (builtinDescriptor type : TypeDescriptor H).type table) r.aliases = _
        rw [same]
        rfl
      rw [List.foldl_cons, ih, List.foldl_cons, entered]

theorem aliases_builtins [HostObject H] :
    (builtins : TypeRegistry H).aliases = TypeInfo.builtins.foldl enterAliases [] :=
  aliases_foldl_register _ _

-- Aliases stand for the language's own types, and among them are the names of the types.
theorem aliases_own :
    (∀ entry ∈ TypeInfo.builtins.foldl enterAliases [], entry.2 ∈ TypeInfo.builtins) ∧
      ∀ type ∈ TypeInfo.builtins,
        (TypeInfo.builtins.foldl enterAliases []).lookup (aliasKey type.name) = some type := by
  decide +kernel

/-- The language's own types and no others; names of types may be deduced or not. -/
structure IsBuiltin [HostObject H] (r : TypeRegistry H) : Prop where
  aliases : r.aliases = TypeInfo.builtins.foldl enterAliases []
  described : r.described = TypeInfo.builtins.map builtinDescriptor

theorem isBuiltin_builtins [HostObject H] (deduction : Bool) :
    ({ (builtins : TypeRegistry H) with deduction }).IsBuiltin where
  aliases := by
    dsimp only
    exact aliases_builtins
  described := rfl

theorem find_of_alias {r : TypeRegistry H} {name : String} {type : TypeInfo}
    (h : r.aliases.lookup (aliasKey name) = some type) : r.find name = .ok type := by
  rw [find, h]

theorem mem_described_of_deduce {r : TypeRegistry H} {name : String} {type : TypeInfo}
    (h : r.deduce name = .ok type) : ∃ d ∈ r.described, d.type = type := by
  unfold deduce at h
  dsimp only at h
  split at h
  next => cases h
  next d found =>
    cases h
    have filtered : d ∈ [d] := List.mem_singleton_self d
    rw [← found] at filtered
    exact ⟨d, (List.mem_filter.mp filtered).1, rfl⟩
  next => cases h

namespace IsBuiltin

variable [HostObject H] {r : TypeRegistry H}

-- Aliases and descriptions are of the language's own types.
theorem mem_of_find (h : r.IsBuiltin) {name : String} {type : TypeInfo}
    (found : r.find name = .ok type) : type ∈ TypeInfo.builtins := by
  unfold find at found
  split at found
  next entry =>
    cases found
    rw [h.aliases] at entry
    exact aliases_own.1 _ (Keyed.mem_of_lookup entry)
  next =>
    split at found
    next =>
      obtain ⟨d, mem, rfl⟩ := mem_described_of_deduce found
      rw [h.described] at mem
      obtain ⟨type, own, rfl⟩ := List.mem_map.mp mem
      rw [type_builtinDescriptor]
      exact own
    next => cases found

theorem recalls (h : r.IsBuiltin) : r.Recalls where
  spelled := by
    intro name type found
    have all : ∀ type ∈ TypeInfo.builtins, type.name ≠ ""
        ∧ (type.name.toList.all fun c => Cursor.isWord c || c == '.') = true := by
      decide +kernel
    obtain ⟨there, spelled⟩ := all type (h.mem_of_find found)
    refine ⟨there, fun c hc => ?_⟩
    have here := List.all_eq_true.mp spelled c hc
    rw [Bool.or_eq_true, beq_iff_eq] at here
    exact here
  back := by
    intro name type found
    refine find_of_alias ?_
    rw [h.aliases]
    exact aliases_own.2 type (h.mem_of_find found)

end IsBuiltin

end TypeRegistry

end FormulaLang
