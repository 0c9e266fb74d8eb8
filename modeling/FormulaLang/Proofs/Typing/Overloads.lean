import FormulaLang.Transform
import Mathlib.Data.List.DropRight
import Mathlib.Data.List.Induction
import Mathlib.Data.List.Nodup

/-!
The overloads of a name as its history made them.  An input type has the callable that was
registered for it last, unless that has been removed since, and the input types of a name stand in
the order in which they were first registered since they were last removed.  Dispatch among the
overloads goes by that order.
-/

namespace FormulaLang

/-! ## Names that differ in case -/

namespace Text

theorem eq_sigma_of_toNat {c : Char} (h : c.toNat = 0x3A3) : c = 'Σ' := by
  rw [← Char.ofNat_toNat c, h]

theorem lowercase_sigma : lowercase 'Σ' = ['σ'] := by
  decide +kernel

theorem lowercaseFrom_cons (before rest : List Char) (c : Char) :
    lowercaseFrom before (c :: rest) =
      (if c = 'Σ' ∧ startsCased before = true ∧ startsCased rest = false then ['ς']
        else lowercase c) ++ lowercaseFrom (c :: before) rest := by
  rw [lowercaseFrom]
  congr 1
  by_cases sigma : c.toNat = 0x3A3
  · rw [if_pos sigma, eq_sigma_of_toNat sigma, lowercase_sigma]
    cases startsCased before <;> cases startsCased rest <;> rfl
  · have other : c ≠ 'Σ' := fun same => sigma (same ▸ rfl)
    rw [if_neg sigma, if_neg fun h => other h.1]

/-- A text of the characters `cs`, behind those of `before`, has a word that ends in a capital
sigma.  The characters of `before` come nearest first. -/
def FinalSigma (before cs : List Char) : Prop :=
  ∃ front back, cs = front ++ 'Σ' :: back ∧ startsCased (front.reverse ++ before) = true ∧
    startsCased back = false

theorem not_finalSigma_of_not_mem {before cs : List Char} (h : 'Σ' ∉ cs) :
    ¬ FinalSigma before cs := by
  rintro ⟨front, back, rfl, -⟩
  exact h (by simp)

-- Without a final sigma each character has its own lowercase form.
theorem lowercaseFrom_eq_flatMap {before cs : List Char} (h : ¬ FinalSigma before cs) :
    lowercaseFrom before cs = cs.flatMap lowercase := by
  induction cs generalizing before with
  | nil => rfl
  | cons c rest ih =>
    have here : ¬ (c = 'Σ' ∧ startsCased before = true ∧ startsCased rest = false) :=
      fun ⟨sigma, inside, ends⟩ => h ⟨[], rest, by rw [sigma]; rfl, inside, ends⟩
    have later : ¬ FinalSigma (c :: before) rest := by
      rintro ⟨front, back, rfl, inside, ends⟩
      exact h ⟨c :: front, back, rfl, by simpa using inside, ends⟩
    rw [lowercaseFrom_cons, if_neg here, ih later, List.flatMap_cons]

/-- The two small sigmas as one letter. -/
def oneSigma (c : Char) : Char :=
  if c = 'ς' then 'σ' else c

theorem map_oneSigma_lowercaseFrom (before cs : List Char) :
    (lowercaseFrom before cs).map oneSigma = (cs.flatMap lowercase).map oneSigma := by
  induction cs generalizing before with
  | nil => rfl
  | cons c rest ih =>
    rw [lowercaseFrom_cons, List.flatMap_cons, List.map_append, List.map_append, ih]
    congr 1
    split
    case isTrue final =>
      rw [final.1, lowercase_sigma]
      rfl
    case isFalse => rfl

end Text

namespace FunctionRegistry

/-- Names with the same letters but for their case. -/
def AlikeInCase (a b : String) : Prop :=
  a.toList.flatMap Text.lowercase = b.toList.flatMap Text.lowercase

instance (a b : String) : Decidable (AlikeInCase a b) :=
  inferInstanceAs (Decidable (_ = _))

/-- The letters of a name without case, the two small sigmas being one. -/
def letters (name : String) : List Char :=
  (name.toList.flatMap Text.lowercase).map Text.oneSigma

theorem key_eq_of_alikeInCase {a b : String} (alike : AlikeInCase a b)
    (ha : ¬ Text.FinalSigma [] a.toList) (hb : ¬ Text.FinalSigma [] b.toList) : key a = key b := by
  rw [key, key, Text.lowercaseText, Text.lowercaseText, Text.lowercaseFrom_eq_flatMap ha,
    Text.lowercaseFrom_eq_flatMap hb, alike]

theorem letters_eq_of_key {a b : String} (h : key a = key b) : letters a = letters b := by
  have same : Text.lowercaseFrom [] a.toList = Text.lowercaseFrom [] b.toList :=
    String.ofList_injective h
  rw [letters, letters, ← Text.map_oneSigma_lowercaseFrom [], same,
    Text.map_oneSigma_lowercaseFrom]

end FunctionRegistry

/-! ## Histories -/

/-- A call that changes the registered overloads. -/
inductive RegistryCall (H : Type) where
  | register (t : Transform H)
  | remove (name : String) (input? : Option TypeInfo)

namespace RegistryCall

open FunctionRegistry

variable {H : Type}

/-- The name that a call is about. -/
def name : RegistryCall H → String
  | register t => t.name
  | remove name _ => name

/-- The overload that a call registers under a name for an input type. -/
def given? (name : String) (input : TypeInfo) : RegistryCall H → Option (Transform H)
  | register t => if key t.name = key name ∧ t.input = input then some t else none
  | remove _ _ => none

/-- Whether a call removes what a name has for an input type. -/
def drops (name : String) (input : TypeInfo) : RegistryCall H → Bool
  | register _ => false
  | remove other input? => key other = key name && input?.all (input = ·)

/-- The calls since the last one that removed what a name has for an input type. -/
def sinceDropped (calls : List (RegistryCall H)) (name : String) (input : TypeInfo) :
    List (RegistryCall H) :=
  calls.rtakeWhile fun call => !call.drops name input

/-- What was registered last under a name for an input type, if it has not been removed. -/
def latest? (calls : List (RegistryCall H)) (name : String) (input : TypeInfo) :
    Option (Transform H) :=
  (sinceDropped calls name input).reverse.findSome? (given? name input)

/-- The number of calls before the first registration under a name for an input type since the
last removal. -/
def firstAt (calls : List (RegistryCall H)) (name : String) (input : TypeInfo) : Nat :=
  calls.length - (sinceDropped calls name input).length +
    (sinceDropped calls name input).findIdx fun call => (call.given? name input).isSome

variable {calls : List (RegistryCall H)} {call : RegistryCall H} {name : String} {input : TypeInfo}

theorem sinceDropped_append (calls : List (RegistryCall H)) (call : RegistryCall H) (name : String)
    (input : TypeInfo) : sinceDropped (calls ++ [call]) name input =
      if call.drops name input = true then [] else sinceDropped calls name input ++ [call] := by
  rw [sinceDropped, List.rtakeWhile_concat]
  cases call.drops name input <;> rfl

theorem length_sinceDropped_le (calls : List (RegistryCall H)) (name : String)
    (input : TypeInfo) : (sinceDropped calls name input).length ≤ calls.length :=
  (List.rtakeWhile_suffix _ calls).length_le

theorem latest?_append (calls : List (RegistryCall H)) (call : RegistryCall H) (name : String)
    (input : TypeInfo) : latest? (calls ++ [call]) name input =
      if call.drops name input = true then none
      else (call.given? name input).or (latest? calls name input) := by
  rw [latest?, sinceDropped_append]
  split
  case isTrue => rfl
  case isFalse =>
    rw [List.reverse_append, List.findSome?_append, List.reverse_singleton,
      List.findSome?_singleton, latest?]

-- An overload that is there was given by one of the calls since the last removal.
theorem exists_given_of_latest (known : (latest? calls name input).isSome = true) :
    ∃ call ∈ sinceDropped calls name input, (call.given? name input).isSome = true := by
  rw [latest?, List.findSome?_isSome_iff] at known
  obtain ⟨call, listed, given⟩ := known
  exact ⟨call, List.mem_reverse.mp listed, given⟩

theorem firstAt_lt (known : (latest? calls name input).isSome = true) :
    firstAt calls name input < calls.length := by
  have found := List.findIdx_lt_length_of_exists (exists_given_of_latest known)
  have few := length_sinceDropped_le calls name input
  unfold firstAt
  omega

-- A call that removes nothing leaves the place of what is there.
theorem firstAt_append (known : (latest? calls name input).isSome = true)
    (kept : call.drops name input = false) :
    firstAt (calls ++ [call]) name input = firstAt calls name input := by
  have found := List.findIdx_lt_length_of_exists (exists_given_of_latest known)
  rw [firstAt, sinceDropped_append, kept, if_neg Bool.false_ne_true, List.findIdx_append,
    if_pos found, firstAt, List.length_append, List.length_append, List.length_singleton]
  omega

-- What was not there can only be given a place behind all others.
theorem le_firstAt_append (new : latest? calls name input = none)
    (kept : call.drops name input = false) :
    calls.length ≤ firstAt (calls ++ [call]) name input := by
  have missing : ∀ call ∈ sinceDropped calls name input,
      (call.given? name input).isSome = false := by
    intro call listed
    rw [latest?, List.findSome?_eq_none_iff] at new
    rw [new call (List.mem_reverse.mpr listed)]
    rfl
  have few := length_sinceDropped_le calls name input
  rw [firstAt, sinceDropped_append, kept, if_neg Bool.false_ne_true, List.findIdx_append,
    List.findIdx_eq_length_of_false missing, if_neg (Nat.lt_irrefl _), List.length_append,
    List.length_append, List.length_singleton]
  omega

end RegistryCall

/-! ## Overloads -/

namespace Transform

variable {H : Type}

theorem replaceIn_ne_nil (t : Transform H) (l : List (Transform H)) : t.replaceIn l ≠ [] := by
  cases l with
  | nil => exact List.cons_ne_nil _ _
  | cons other rest =>
    rw [replaceIn]
    split <;> exact List.cons_ne_nil _ _

theorem find?_replaceIn (t : Transform H) (l : List (Transform H)) (input : TypeInfo) :
    (t.replaceIn l).find? (fun u => u.input = input) =
      if t.input = input then some t else l.find? fun u => u.input = input := by
  induction l with
  | nil => by_cases same : t.input = input <;> simp [replaceIn, same]
  | cons other rest ih =>
    rw [replaceIn]
    by_cases place : other.input = t.input
    · rw [if_pos place]
      by_cases same : t.input = input <;> simp [place, same]
    · rw [if_neg place, List.find?_cons, List.find?_cons, ih]
      by_cases same : t.input = input
      · have later : other.input ≠ input := fun h => place (h.trans same.symm)
        simp [later, same]
      · simp [same]

theorem inputs_replaceIn (t : Transform H) (l : List (Transform H)) :
    (t.replaceIn l).map input =
      if t.input ∈ l.map input then l.map input else l.map input ++ [t.input] := by
  induction l with
  | nil => rfl
  | cons other rest ih =>
    rw [replaceIn]
    by_cases place : other.input = t.input
    · simp [place]
    · rw [if_neg place, List.map_cons, ih, List.map_cons]
      have member : t.input ∈ other.input :: rest.map input ↔ t.input ∈ rest.map input :=
        List.mem_cons.trans (or_iff_right fun same => place same.symm)
      by_cases later : t.input ∈ rest.map input
      · rw [if_pos later, if_pos (member.mpr later)]
      · rw [if_neg later, if_neg fun h => later (member.mp h), List.cons_append]

variable {l : List (Transform H)} {type : TypeInfo} {types : TypeRegistry H} {t : Transform H}

/-- What is picked among overloads for values of a type. -/
inductive Picks (types : TypeRegistry H) (type : TypeInfo) (l : List (Transform H))
    (t : Transform H) : Prop
  /-- The one for exactly this type, wherever it stands. -/
  | exact (listed : t ∈ l) (same : t.input = type)
  /-- Without one, the first that the type can be converted for. -/
  | castable {before after : List (Transform H)} (inexact : ∀ u ∈ l, u.input ≠ type)
      (place : l = before ++ t :: after) (fits : types.castable type t.input = true)
      (first : ∀ u ∈ before, types.castable type u.input = false)
  /-- Without either, the first. -/
  | fallback {after : List (Transform H)} (inexact : ∀ u ∈ l, u.input ≠ type)
      (unfit : ∀ u ∈ l, types.castable type u.input = false) (place : l = t :: after)

theorem find?_exact_iff (distinct : (l.map input).Nodup) :
    l.find? (fun u => u.input = type) = some t ↔ t ∈ l ∧ t.input = type := by
  constructor
  · intro found
    exact ⟨List.mem_of_find?_eq_some found, by simpa using List.find?_some found⟩
  · rintro ⟨listed, same⟩
    cases found : l.find? fun u => u.input = type with
    | none => exact absurd same (by simpa using List.find?_eq_none.mp found t listed)
    | some u =>
      have there : u.input = type := by simpa using List.find?_some found
      rw [List.inj_on_of_nodup_map distinct (List.mem_of_find?_eq_some found) listed
        (there.trans same.symm)]

theorem select?_eq_some_iff (distinct : (l.map input).Nodup) :
    select? l type types = some t ↔ Picks types type l t := by
  cases found : l.find? fun u => u.input = type with
  | some e =>
    obtain ⟨there, hits⟩ := (find?_exact_iff distinct).mp found
    rw [select?, found, Option.some_or]
    constructor
    · rintro ⟨⟩
      exact .exact there hits
    · rintro (⟨listed, same⟩ | ⟨inexact, -, -, -⟩ | ⟨inexact, -, -⟩)
      · rw [← found]
        exact (find?_exact_iff distinct).mpr ⟨listed, same⟩
      · exact absurd hits (inexact e there)
      · exact absurd hits (inexact e there)
  | none =>
    have inexact : ∀ u ∈ l, u.input ≠ type := fun u listed same =>
      List.find?_eq_none.mp found u listed (decide_eq_true same)
    rw [select?, found, Option.none_or]
    cases converted : l.find? fun u => types.castable type u.input with
    | some c =>
      obtain ⟨fits, before, after, place, first⟩ := List.find?_eq_some_iff_append.mp converted
      rw [Option.some_or]
      constructor
      · rintro ⟨⟩
        exact .castable inexact place fits fun u early => by simpa using first u early
      · rintro (⟨listed, same⟩ | ⟨-, place', fits', first'⟩ | ⟨-, unfit, -⟩)
        · exact absurd same (inexact t listed)
        · rw [← converted]
          exact List.find?_eq_some_iff_append.mpr
            ⟨fits', _, _, place', fun u early => by simp [first' u early]⟩
        · rw [unfit c (List.mem_of_find?_eq_some converted)] at fits
          cases fits
    | none =>
      have unfit : ∀ u ∈ l, types.castable type u.input = false := fun u listed =>
        eq_false_of_ne_true (List.find?_eq_none.mp converted u listed)
      rw [Option.none_or, List.head?_eq_some_iff]
      constructor
      · rintro ⟨after, place⟩
        exact .fallback inexact unfit place
      · rintro (⟨listed, same⟩ | ⟨-, rfl, fits, -⟩ | ⟨-, -, place⟩)
        · exact absurd same (inexact t listed)
        · rw [unfit t (by simp)] at fits
          cases fits
        · exact ⟨_, place⟩

-- Some overload is picked whenever there is one.
theorem select?_eq_none_iff : select? l type types = none ↔ l = [] := by
  constructor
  · intro none
    exact List.head?_eq_none_iff.mp (Option.or_eq_none_iff.mp (Option.or_eq_none_iff.mp none).2).2
  · rintro rfl
    rfl

end Transform

namespace FunctionRegistry

open RegistryCall

variable {H : Type}

/-- The registry after a call. -/
def after (r : FunctionRegistry H) : RegistryCall H → FunctionRegistry H
  | .register t => r.register t
  | .remove name input? => (r.remove name input?).2

/-- The registry after calls, one after the other. -/
def afterAll (r : FunctionRegistry H) (calls : List (RegistryCall H)) : FunctionRegistry H :=
  calls.foldl after r

/-- The overloads of a name, none if it is unknown. -/
def listed (r : FunctionRegistry H) (name : String) : List (Transform H) :=
  (r.overloads? name).getD []

theorem overloads?_register (r : FunctionRegistry H) (t : Transform H) (name : String) :
    (r.register t).overloads? name =
      if key name = key t.name then some (t.replaceIn (r.listed name)) else r.overloads? name := by
  rw [register, overloads?]
  dsimp only
  rw [Keyed.lookup_insert]
  by_cases same : key name = key t.name
  · rw [if_pos same, if_pos same, listed, overloads?, overloads?, same]
  · rw [if_neg same, if_neg same, overloads?]

/-- The overloads of a name, which is unknown when it has lost the last one. -/
def unlessEmpty (overloads : List (Transform H)) : Option (List (Transform H)) :=
  if overloads.isEmpty then none else some overloads

theorem unlessEmpty_ne_nil (overloads : List (Transform H)) :
    unlessEmpty overloads ≠ some [] := by
  cases overloads <;> simp [unlessEmpty]

theorem getD_unlessEmpty (overloads : List (Transform H)) :
    (unlessEmpty overloads).getD [] = overloads := by
  cases overloads <;> rfl

theorem remove_of_key {a b : String} (same : key a = key b) (r : FunctionRegistry H)
    (input? : Option TypeInfo) : r.remove a input? = r.remove b input? := by
  simp only [remove, overloads?, same]

theorem overloads?_remove_self (r : FunctionRegistry H) (name : String) (input? : Option TypeInfo) :
    (r.remove name input?).2.overloads? name =
      unlessEmpty ((r.listed name).filter fun t => !input?.all (t.input = ·)) := by
  unfold remove
  split
  case h_1 unknown =>
    rw [listed, unknown]
    rfl
  case h_2 =>
    rw [overloads?, Keyed.lookup_erase, if_pos rfl]
    simp [unlessEmpty]
  case h_3 overloads input known =>
    have kept : (overloads.filter fun t => !(some input).all (t.input = ·)) =
        overloads.filter fun t => t.input ≠ input := by
      simp
    rw [listed, known, Option.getD_some, kept, overloads?, unlessEmpty]
    dsimp only
    split
    · rw [Keyed.lookup_erase, if_pos rfl]
    · rw [Keyed.lookup_insert, if_pos rfl]

theorem overloads?_remove_other {r : FunctionRegistry H} {other name : String}
    (apart : key name ≠ key other) (input? : Option TypeInfo) :
    (r.remove other input?).2.overloads? name = r.overloads? name := by
  unfold remove
  split
  · rfl
  · rw [overloads?, Keyed.lookup_erase, if_neg apart, overloads?]
  · dsimp only
    split
    · rw [overloads?, Keyed.lookup_erase, if_neg apart, overloads?]
    · rw [overloads?, Keyed.lookup_insert, if_neg apart, overloads?]

/-- A call leaves the overloads of every name with another key. -/
theorem overloads?_after_other {r : FunctionRegistry H} {call : RegistryCall H} {name : String}
    (apart : key name ≠ key call.name) : (r.after call).overloads? name = r.overloads? name := by
  cases call with
  | register t => exact (overloads?_register r t name).trans (if_neg apart)
  | remove other input? => exact overloads?_remove_other apart input?

/-- What a registry keeps of its history under a name. -/
structure Recorded (calls : List (RegistryCall H)) (name : String) (r : FunctionRegistry H) :
    Prop where
  nonempty : r.overloads? name ≠ some []
  latest : ∀ input, (r.listed name).find? (fun t => t.input = input) = latest? calls name input
  ordered : ((r.listed name).map Transform.input).Pairwise fun i j =>
    firstAt calls name i < firstAt calls name j

namespace Recorded

variable {calls : List (RegistryCall H)} {call : RegistryCall H} {name : String}
  {r : FunctionRegistry H}

theorem start (name : String) : Recorded [] name (empty : FunctionRegistry H) where
  nonempty := nofun
  latest _ := rfl
  ordered := List.Pairwise.nil

-- An input type is listed when it has an overload.
theorem mem_inputs (h : Recorded calls name r) {input : TypeInfo} :
    input ∈ (r.listed name).map Transform.input ↔ (latest? calls name input).isSome = true := by
  rw [← h.latest input, List.find?_isSome, List.mem_map]
  simp

-- The order stays among the input types that a call leaves.
theorem ordered_append (h : Recorded calls name r) (call : RegistryCall H)
    {inputs : List TypeInfo}
    (left : inputs.Sublist ((r.listed name).map Transform.input))
    (kept : ∀ input ∈ inputs, call.drops name input = false) :
    inputs.Pairwise fun i j =>
      firstAt (calls ++ [call]) name i < firstAt (calls ++ [call]) name j := by
  refine (h.ordered.sublist left).imp_of_mem fun {i j} hi hj before => ?_
  rw [firstAt_append (h.mem_inputs.mp (left.subset hi)) (kept i hi),
    firstAt_append (h.mem_inputs.mp (left.subset hj)) (kept j hj)]
  exact before

-- A call under another key is no part of the history of a name.
theorem after_other (h : Recorded calls name r) (apart : key name ≠ key call.name) :
    Recorded (calls ++ [call]) name (r.after call) := by
  have same : (r.after call).overloads? name = r.overloads? name := overloads?_after_other apart
  have kept (input : TypeInfo) : call.drops name input = false := by
    cases call with
    | register t => rfl
    | remove other input? =>
      rw [drops, decide_eq_false (fun h => apart h.symm), Bool.false_and]
  have given (input : TypeInfo) : call.given? name input = none := by
    cases call with
    | register t => exact if_neg fun h => apart h.1.symm
    | remove other input? => rfl
  refine ⟨same ▸ h.nonempty, fun input => ?_, ?_⟩
  · rw [listed, same, latest?_append, kept, if_neg Bool.false_ne_true, given, Option.none_or]
    exact h.latest input
  · rw [listed, same]
    exact h.ordered_append call (List.Sublist.refl _) fun input _ => kept input

theorem after_register (h : Recorded calls name r) {t : Transform H}
    (same : key name = key t.name) : Recorded (calls ++ [.register t]) name (r.register t) := by
  have found : (r.register t).overloads? name = some (t.replaceIn (r.listed name)) :=
    (overloads?_register r t name).trans (if_pos same)
  have kept (input : TypeInfo) : (RegistryCall.register t).drops name input = false := rfl
  refine ⟨?_, fun input => ?_, ?_⟩
  · rw [found]
    exact fun h => t.replaceIn_ne_nil _ (Option.some.inj h)
  · rw [listed, found, Option.getD_some, Transform.find?_replaceIn, h.latest, latest?_append, kept,
      if_neg Bool.false_ne_true, given?]
    by_cases here : t.input = input
    · rw [if_pos here, if_pos ⟨same.symm, here⟩, Option.some_or]
    · rw [if_neg here, if_neg fun h => here h.2, Option.none_or]
  · rw [listed, found, Option.getD_some, Transform.inputs_replaceIn]
    have before := h.ordered_append (.register t) (List.Sublist.refl _) fun i _ => kept i
    split
    case isTrue => exact before
    case isFalse new =>
      rw [h.mem_inputs, Option.not_isSome_iff_eq_none] at new
      refine List.pairwise_append.mpr ⟨before, List.pairwise_singleton _ _, ?_⟩
      intro i listed j last
      obtain rfl := List.mem_singleton.mp last
      have there := h.mem_inputs.mp listed
      rw [firstAt_append there (kept i)]
      exact (firstAt_lt there).trans_le (le_firstAt_append new (kept t.input))

theorem after_remove (h : Recorded calls name r) {other : String} (same : key name = key other)
    (input? : Option TypeInfo) :
    Recorded (calls ++ [.remove other input?]) name (r.remove other input?).2 := by
  have found : (r.remove other input?).2.overloads? name =
      FunctionRegistry.unlessEmpty ((r.listed name).filter fun t => !input?.all (t.input = ·)) := by
    rw [← remove_of_key same, overloads?_remove_self]
  have dropped (input : TypeInfo) :
      (RegistryCall.remove (H := H) other input?).drops name input = input?.all (input = ·) := by
    rw [drops, same, decide_eq_true rfl, Bool.true_and]
  refine ⟨?_, fun input => ?_, ?_⟩
  · rw [found]
    exact unlessEmpty_ne_nil _
  · rw [listed, found, getD_unlessEmpty, List.find?_filter, latest?_append, dropped, given?,
      Option.none_or, ← h.latest input]
    split
    case isTrue gone =>
      refine List.find?_eq_none.mpr fun t _ both => ?_
      obtain ⟨left, here⟩ := of_decide_eq_true both
      rw [of_decide_eq_true here, gone] at left
      cases left
    case isFalse left =>
      congr 1
      funext t
      refine decide_eq_decide.mpr ⟨fun both => of_decide_eq_true both.2, fun here => ?_⟩
      rw [here, eq_false_of_ne_true left]
      exact ⟨rfl, decide_eq_true rfl⟩
  · rw [listed, found, getD_unlessEmpty]
    refine h.ordered_append _ (List.filter_sublist.map _) ?_
    intro input listed
    obtain ⟨t, left, rfl⟩ := List.mem_map.mp listed
    rw [dropped]
    simpa using (List.mem_filter.mp left).2

theorem afterAll (calls : List (RegistryCall H)) (name : String) :
    Recorded calls name ((empty : FunctionRegistry H).afterAll calls) := by
  induction calls using List.reverseRecOn with
  | nil => exact start name
  | append_singleton calls call ih =>
    rw [FunctionRegistry.afterAll, List.foldl_append]
    change Recorded (calls ++ [call]) name ((empty.afterAll calls).after call)
    by_cases same : key name = key call.name
    · cases call with
      | register t => exact ih.after_register same
      | remove other input? => exact ih.after_remove same input?
    · exact ih.after_other same

theorem distinct (h : Recorded calls name r) :
    ((r.listed name).map Transform.input).Nodup := by
  refine h.ordered.imp fun {i j} before => ?_
  rintro rfl
  exact absurd before (Nat.lt_irrefl _)

theorem mem_listed (h : Recorded calls name r) (t : Transform H) :
    t ∈ r.listed name ↔ latest? calls name t.input = some t := by
  rw [← h.latest, Transform.find?_exact_iff h.distinct, and_iff_left rfl]

theorem unknown_iff (h : Recorded calls name r) :
    r.overloads? name = none ↔ ∀ input, latest? calls name input = none := by
  constructor
  · intro unknown input
    rw [← h.latest input, listed, unknown]
    rfl
  · intro never
    rw [Option.eq_none_iff_forall_ne_some]
    rintro (_ | ⟨t, rest⟩) known
    · exact h.nonempty known
    · have there : t ∈ r.listed name := by
        rw [listed, known]
        exact List.mem_cons_self
      rw [h.mem_listed, never] at there
      cases there

end Recorded

/-- The overloads of a name that a history leaves. -/
structure FollowsHistory (calls : List (RegistryCall H)) (name : String)
    (l : List (Transform H)) : Prop where
  present : l ≠ []
  distinct : (l.map Transform.input).Nodup
  ordered : (l.map Transform.input).Pairwise fun i j => firstAt calls name i < firstAt calls name j
  latest : ∀ t, t ∈ l ↔ latest? calls name t.input = some t

namespace Recorded

variable {calls : List (RegistryCall H)} {name : String} {r : FunctionRegistry H}

theorem followsHistory (h : Recorded calls name r) {l : List (Transform H)}
    (known : r.overloads? name = some l) : FollowsHistory calls name l := by
  have same : r.listed name = l := by rw [listed, known, Option.getD_some]
  exact ⟨fun empty => h.nonempty (empty ▸ known), same ▸ h.distinct, same ▸ h.ordered,
    same ▸ h.mem_listed⟩

-- Dispatch fails only for an unknown name.
theorem resolve?_eq_none_iff (h : Recorded calls name r) {type : TypeInfo}
    {types : TypeRegistry H} :
    r.resolve? name type types = none ↔ r.overloads? name = none := by
  rw [resolve?, Option.bind_eq_none_iff]
  constructor
  · intro nothing
    rw [Option.eq_none_iff_forall_ne_some]
    intro l known
    exact (h.followsHistory known).present (Transform.select?_eq_none_iff.mp (nothing l known))
  · intro unknown l known
    rw [unknown] at known
    cases known

theorem resolve?_eq_some_iff (h : Recorded calls name r) {type : TypeInfo}
    {types : TypeRegistry H} {t : Transform H} : r.resolve? name type types = some t ↔
      ∃ l, r.overloads? name = some l ∧ Transform.Picks types type l t := by
  rw [resolve?, Option.bind_eq_some_iff]
  exact exists_congr fun l => and_congr_right fun known =>
    Transform.select?_eq_some_iff (h.followsHistory known).distinct

end Recorded

/-- After any calls, the overloads of a name are what its history left, and dispatch goes by them.
Names that are alike in case share their overloads unless a capital sigma ends a word of them.  A
call affects no name with another key, and names of one key have the same letters. -/
theorem dispatch_follows_history (calls : List (RegistryCall H)) (name : String) :
    let r := (empty : FunctionRegistry H).afterAll calls
    (r.overloads? name = none ↔ ∀ input, latest? calls name input = none) ∧
      (∀ l, r.overloads? name = some l → FollowsHistory calls name l) ∧
      (∀ other, AlikeInCase name other → ¬ Text.FinalSigma [] name.toList →
        ¬ Text.FinalSigma [] other.toList → r.overloads? other = r.overloads? name) ∧
      (∀ call : RegistryCall H, key call.name ≠ key name →
        (r.after call).overloads? name = r.overloads? name) ∧
      (∀ other, key other = key name → letters other = letters name) ∧
      ∀ type types, (r.resolve? name type types = none ↔ r.overloads? name = none) ∧
        ∀ t, r.resolve? name type types = some t ↔
          ∃ l, r.overloads? name = some l ∧ Transform.Picks types type l t := by
  intro r
  have h : Recorded calls name r := Recorded.afterAll calls name
  refine ⟨h.unknown_iff, fun l known => h.followsHistory known, ?_,
    fun call apart => overloads?_after_other apart.symm, fun other => letters_eq_of_key,
    fun type types => ⟨h.resolve?_eq_none_iff, fun t => h.resolve?_eq_some_iff⟩⟩
  intro other alike plain plain'
  rw [overloads?, overloads?, key_eq_of_alikeInCase alike plain plain']

/-- Two overloads are registered, one of them twice, and the first is removed and comes back. -/
def sqrtRun : List (RegistryCall Empty) :=
  let callable (name : String) (input output : TypeInfo) : RegistryCall Empty :=
    .register ⟨name, input, output, fun v => .ok v⟩
  [callable "Sqrt" .number .number, callable "sqrt" .string .any, callable "SQRT" .string .string,
    .remove "sqrt" (some .number), callable "sqrt" .number .number]

theorem dispatch_follows_history_sqrt :
    let r := (empty : FunctionRegistry Empty).afterAll sqrtRun
    AlikeInCase "sqrt" "SQRT" ∧ ¬ Text.FinalSigma [] "sqrt".toList ∧
      ¬ Text.FinalSigma [] "SQRT".toList ∧ key "abs" ≠ key "sqrt" ∧ key "Sqrt" = key "sqrt" ∧
      letters "Sqrt" = letters "sqrt" ∧
      ∃ l, r.overloads? "sqrt" = some l ∧ l.map Transform.describe =
          ["SQRT(String) -> String", "sqrt(Number) -> Number"] ∧
        FollowsHistory sqrtRun "sqrt" l ∧ r.overloads? "SQRT" = some l ∧
        (r.after (.remove "abs" none)).overloads? "sqrt" = some l ∧
        ∃ t, r.resolve? "sqrt" .bool .empty = some t ∧ Transform.Picks .empty .bool l t := by
  have plain : ¬ Text.FinalSigma [] "sqrt".toList := Text.not_finalSigma_of_not_mem (by decide)
  have plain' : ¬ Text.FinalSigma [] "SQRT".toList := Text.not_finalSigma_of_not_mem (by decide)
  have alike : AlikeInCase "sqrt" "SQRT" := by decide +kernel
  have apart : key "abs" ≠ key "sqrt" := by decide +kernel
  have same : key "Sqrt" = key "sqrt" := by decide +kernel
  intro r
  obtain ⟨-, history, shared, others, spelled, dispatch⟩ := dispatch_follows_history sqrtRun "sqrt"
  obtain ⟨l, known⟩ : ∃ l, r.overloads? "sqrt" = some l :=
    Option.isSome_iff_exists.mp (by decide +kernel)
  have described : (r.overloads? "sqrt").map (List.map Transform.describe) =
      some ["SQRT(String) -> String", "sqrt(Number) -> Number"] := by decide +kernel
  obtain ⟨t, picked⟩ : ∃ t, r.resolve? "sqrt" .bool .empty = some t :=
    Option.isSome_iff_exists.mp (by decide +kernel)
  refine ⟨alike, plain, plain', apart, same, spelled _ same, l, known, ?_, history l known,
    (shared "SQRT" alike plain plain').trans known, (others (.remove "abs" none) apart).trans known,
    t, picked, ?_⟩
  · rw [known] at described
    exact Option.some.inj described
  · obtain ⟨l', known', picks⟩ := ((dispatch .bool .empty).2 t).mp picked
    rw [Option.some.inj (known.symm.trans known')]
    exact picks

-- A capital sigma at the end of a name has the final form as its small one, so that a name and its
-- spelling with small letters throughout can be two names.
theorem final_sigma_splits_name :
    let r := (empty : FunctionRegistry Empty).afterAll
      [.register ⟨"ΑΣ", .number, .number, fun v => .ok v⟩]
    AlikeInCase "ΑΣ" "ασ" ∧ r.contains "ΑΣ" = true ∧ r.contains "ασ" = false := by
  decide +kernel

end FunctionRegistry

end FormulaLang
