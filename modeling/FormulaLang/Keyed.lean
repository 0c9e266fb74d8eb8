/-!
Tables from keys to values that remember the order in which keys arrived.  A table is a list of
pairs with distinct keys; writing to a present key keeps its place.  The main statements say what
each operation does to `List.lookup` and to the keys.
-/

namespace FormulaLang

/-- A table in order of arrival. -/
abbrev Keyed (κ β : Type) := List (κ × β)

namespace Keyed

def keys {κ β : Type} (t : Keyed κ β) : List κ :=
  t.map Prod.fst

@[simp] theorem keys_nil {κ β : Type} : keys ([] : Keyed κ β) = [] := rfl

@[simp] theorem keys_cons {κ β : Type} (entry : κ × β) (t : Keyed κ β) :
    keys (entry :: t) = entry.1 :: keys t := rfl

theorem keys_append {κ β : Type} (s t : Keyed κ β) : keys (s ++ t) = keys s ++ keys t := by
  simp [keys]

variable {κ β : Type} [DecidableEq κ]

/-- Writes `value` at `key`: in place when the key is present, at the end otherwise. -/
def insert (key : κ) (value : β) : Keyed κ β → Keyed κ β
  | [] => [(key, value)]
  | (k, v) :: rest =>
      if k = key then (key, value) :: rest else (k, v) :: insert key value rest

/-- Writes `value` at `key` unless the key is present. -/
def insertNew (key : κ) (value : β) (t : Keyed κ β) : Keyed κ β :=
  if key ∈ keys t then t else t ++ [(key, value)]

def erase (key : κ) (t : Keyed κ β) : Keyed κ β :=
  t.filter fun entry => entry.1 ≠ key

/-- Writes the pairs one after the other. -/
def ofList (entries : List (κ × β)) : Keyed κ β :=
  entries.foldl (fun t entry => insert entry.1 entry.2 t) []

theorem keys_insert (key : κ) (value : β) (t : Keyed κ β) :
    keys (insert key value t) = if key ∈ keys t then keys t else keys t ++ [key] := by
  induction t with
  | nil => simp [insert]
  | cons entry rest ih =>
    obtain ⟨k, v⟩ := entry
    by_cases h : k = key
    · subst h; simp [insert]
    · have h' : key ≠ k := fun e => h e.symm
      simp only [insert, if_neg h, keys_cons, ih, List.mem_cons, h', false_or]
      split <;> simp

theorem keys_erase (key : κ) (t : Keyed κ β) :
    keys (erase key t) = (keys t).filter fun k => k ≠ key := by
  rw [keys, keys, List.filter_map]
  rfl

theorem nodup_keys_insert (key : κ) (value : β) {t : Keyed κ β} (h : (keys t).Nodup) :
    (keys (insert key value t)).Nodup := by
  rw [keys_insert]
  split
  · exact h
  · rename_i absent
    rw [List.nodup_append]
    exact ⟨h, List.nodup_cons.mpr ⟨by simp, List.nodup_nil⟩, by
      intro a ha b hb e
      simp only [List.mem_singleton] at hb
      exact absent (hb ▸ e ▸ ha)⟩

theorem nodup_keys_insertNew (key : κ) (value : β) {t : Keyed κ β} (h : (keys t).Nodup) :
    (keys (insertNew key value t)).Nodup := by
  unfold insertNew
  split
  · exact h
  · rename_i absent
    rw [keys_append, List.nodup_append]
    exact ⟨h, List.nodup_cons.mpr ⟨by simp, List.nodup_nil⟩, by
      intro a ha b hb e
      simp only [keys_cons, keys_nil, List.mem_singleton] at hb
      exact absent (hb ▸ e ▸ ha)⟩

theorem nodup_keys_ofList (entries : List (κ × β)) : (keys (ofList entries)).Nodup := by
  suffices h : ∀ (t : Keyed κ β), (keys t).Nodup →
      (keys (entries.foldl (fun t entry => insert entry.1 entry.2 t) t)).Nodup by
    exact h [] List.nodup_nil
  induction entries with
  | nil => intro t h; exact h
  | cons entry rest ih => intro t h; exact ih _ (nodup_keys_insert _ _ h)

theorem lookup_cons (key k : κ) (value : β) (t : Keyed κ β) :
    ((key, value) :: t).lookup k = if k = key then some value else t.lookup k := by
  by_cases h : k = key
  · subst h; simp
  · rw [if_neg h, List.lookup_cons, beq_false_of_ne h]

theorem mem_of_lookup {t : Keyed κ β} {key : κ} {value : β} (h : t.lookup key = some value) :
    (key, value) ∈ t := by
  induction t with
  | nil => cases h
  | cons entry rest ih =>
    rw [lookup_cons] at h
    split at h
    next same =>
      cases h
      rw [same]
      exact List.mem_cons_self
    next => exact List.mem_cons_of_mem _ (ih h)

theorem lookup_of_mem_keys {t : Keyed κ β} {key : κ} (h : key ∈ keys t) :
    ∃ value, t.lookup key = some value := by
  induction t with
  | nil => cases h
  | cons entry rest ih =>
    rw [lookup_cons]
    split
    next => exact ⟨_, rfl⟩
    next other => exact ih ((List.mem_cons.mp h).resolve_left other)

theorem lookup_insert (key k : κ) (value : β) (t : Keyed κ β) :
    (insert key value t).lookup k = if k = key then some value else t.lookup k := by
  induction t with
  | nil => simp [insert, lookup_cons]
  | cons entry rest ih =>
    obtain ⟨k', v⟩ := entry
    by_cases h : k' = key
    · subst h
      simp only [insert, if_pos, lookup_cons]
      split <;> rfl
    · simp only [insert, if_neg h, lookup_cons, ih]
      by_cases hk : k = k'
      · subst hk; simp [h]
      · simp [hk]

theorem lookup_erase (key k : κ) (t : Keyed κ β) :
    (erase key t).lookup k = if k = key then none else t.lookup k := by
  induction t with
  | nil => simp [erase]
  | cons entry rest ih =>
    obtain ⟨k', v⟩ := entry
    by_cases h : k' = key
    · subst h
      have drop : erase k' ((k', v) :: rest) = erase k' rest := by simp [erase]
      rw [drop, ih, lookup_cons]
      split <;> rfl
    · have keep : erase key ((k', v) :: rest) = (k', v) :: erase key rest := by
        simp [erase, h]
      rw [keep, lookup_cons, lookup_cons, ih]
      by_cases hk : k = k'
      · subst hk; simp [h]
      · simp [hk]

end Keyed

end FormulaLang
