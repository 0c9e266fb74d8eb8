import FormulaLang.Proofs.Cache.Coherence
import FormulaLang.Proofs.Context.Agreement
import Mathlib.Data.List.DropRight
import Mathlib.Data.List.Induction

/-!
The member cache keeps the buckets that were used last.  A bucket is used when a member is asked of
its type or stored in it, found or not.  Over any run of calls the buckets stand in the order of
their last use, so that the one dropped for want of room is the one that has been idle longest, and
the statistics count what has happened since the cache was cleared.
-/

namespace FormulaLang

/-- A call of the cache.  Each lookup brings the types under which it resolves members. -/
inductive CacheCall (H : Type) where
  | get (owner : TypeInfo) (name : String)
  | insert (owner : TypeInfo) (name : String) (member : Member H)
  | lookup (types : TypeRegistry H) (owner : TypeInfo) (name : String)
  | evict (owner : TypeInfo)
  | clear
  | contains (owner : TypeInfo)
  | size
  | stats

namespace CacheCall

variable {H : Type}

/-- The type whose bucket a call uses, if there is one. -/
def used? : CacheCall H → Option TypeInfo
  | get owner _ | insert owner _ _ | lookup _ owner _ => some owner
  | evict _ | clear | contains _ | size | stats => none

/-- Whether a call asks for a member. -/
def asks : CacheCall H → Bool
  | get .. | lookup .. => true
  | _ => false

/-- Whether a call drops every bucket. -/
def clears : CacheCall H → Bool
  | clear => true
  | _ => false

/-- Whether a call only asks about the cache. -/
def inspects : CacheCall H → Bool
  | contains _ | size | stats => true
  | _ => false

/-- The number of calls since the last one that used the bucket of a type. -/
def idle (calls : List (CacheCall H)) (owner : TypeInfo) : Nat :=
  calls.reverse.findIdx fun call => decide (call.used? = some owner)

theorem idle_append (calls : List (CacheCall H)) (call : CacheCall H) (owner : TypeInfo) :
    idle (calls ++ [call]) owner =
      if call.used? = some owner then 0 else idle calls owner + 1 := by
  simp only [idle, List.reverse_append, List.reverse_singleton, List.singleton_append,
    List.findIdx_cons]
  by_cases used : call.used? = some owner
  · simp [used]
  · simp [used]

end CacheCall

namespace MemberCache

open CacheCall

variable {H : Type}

/-- The types that have a bucket, the one used last in front. -/
def owners (c : MemberCache H) : List TypeInfo :=
  Keyed.keys c.buckets

theorem contains_iff {c : MemberCache H} {owner : TypeInfo} :
    c.contains owner = true ↔ owner ∈ c.owners := by
  rw [contains, Option.isSome_iff_exists]
  constructor
  · rintro ⟨bucket, found⟩
    exact List.mem_map_of_mem (Keyed.mem_of_lookup found)
  · exact Keyed.lookup_of_mem_keys

theorem contains_eq_decide (c : MemberCache H) (owner : TypeInfo) :
    c.contains owner = decide (owner ∈ c.owners) := by
  rw [Bool.eq_iff_iff, contains_iff, decide_eq_true_eq]

theorem not_contains_iff {c : MemberCache H} {owner : TypeInfo} :
    c.contains owner = false ↔ owner ∉ c.owners := by
  rw [← contains_iff, Bool.not_eq_true]

/-! ## The order of the buckets -/

/-- A type put in front of the others. -/
def touched (owner : TypeInfo) (owners : List TypeInfo) : List TypeInfo :=
  owner :: owners.filter (· ≠ owner)

/-- A type put in front of the others, the last of which makes room for it if it is new and there
are `capacity` of them. -/
def placed (capacity : Nat) (owner : TypeInfo) (owners : List TypeInfo) : List TypeInfo :=
  if owner ∈ owners then touched owner owners
  else if owners.length < capacity then owner :: owners
  else owner :: owners.dropLast

theorem touched_touched (owner : TypeInfo) (owners : List TypeInfo) :
    touched owner (touched owner owners) = touched owner owners := by
  simp [touched, List.filter_filter]

theorem mem_touched {owner other : TypeInfo} {owners : List TypeInfo} (h : other ∈ owners) :
    other ∈ touched owner owners := by
  by_cases same : other = owner
  · simp [touched, same]
  · simp [touched, same, h]

theorem length_touched_le {owner : TypeInfo} {owners : List TypeInfo} (h : owner ∈ owners) :
    (touched owner owners).length ≤ owners.length := by
  have fewer : (owners.filter (· ≠ owner)).length < owners.length :=
    List.length_filter_lt_length_iff_exists.mpr ⟨owner, h, by simp⟩
  rw [touched, List.length_cons]
  omega

-- Whatever is placed stands in front of others that were there before.
theorem placed_eq_cons (capacity : Nat) (owner : TypeInfo) (owners : List TypeInfo) :
    ∃ rest, placed capacity owner owners = owner :: rest ∧ rest.Sublist owners ∧ owner ∉ rest := by
  by_cases there : owner ∈ owners
  · exact ⟨_, if_pos there, List.filter_sublist, by simp⟩
  · by_cases fits : owners.length < capacity
    · exact ⟨owners, by rw [placed, if_neg there, if_pos fits], List.Sublist.refl _, there⟩
    · refine ⟨owners.dropLast, by rw [placed, if_neg there, if_neg fits],
        List.dropLast_sublist _, fun last => there ((List.dropLast_sublist _).subset last)⟩

theorem length_placed_le {capacity : Nat} {owner : TypeInfo} {owners : List TypeInfo}
    (room : 0 < capacity) (h : owners.length ≤ capacity) :
    (placed capacity owner owners).length ≤ capacity := by
  unfold placed
  split
  · exact (length_touched_le ‹_›).trans h
  · split
    · rw [List.length_cons]
      omega
    · rw [List.length_cons, List.length_dropLast]
      omega

theorem subset_placed {capacity : Nat} {owner : TypeInfo} {owners : List TypeInfo}
    (fits : owner ∈ owners ∨ owners.length < capacity) :
    owners ⊆ placed capacity owner owners := by
  intro other mem
  unfold placed
  by_cases there : owner ∈ owners
  · rw [if_pos there]
    exact mem_touched mem
  · rw [if_neg there, if_pos (fits.resolve_left there)]
    exact List.mem_cons_of_mem owner mem

-- Where there is no room, the last one makes room.
theorem placed_full {capacity : Nat} {owner : TypeInfo} {owners : List TypeInfo}
    (room : 0 < capacity) (full : ¬(owner ∈ owners ∨ owners.length < capacity)) :
    ∃ rest last, owners = rest ++ [last] ∧ placed capacity owner owners = owner :: rest := by
  obtain ⟨absent, tight⟩ := not_or.mp full
  have some : owners ≠ [] := by
    rintro rfl
    exact tight room
  refine ⟨owners.dropLast, owners.getLast some, (List.dropLast_concat_getLast some).symm, ?_⟩
  rw [placed, if_neg absent, if_neg tight]

theorem length_pushed (owner : TypeInfo) {capacity : Nat} {owners : List TypeInfo}
    (room : 0 < capacity) (distinct : owners.Nodup) :
    (owners.filter fun other => !decide (other ∈ placed capacity owner owners)).length =
      (!decide (owner ∈ owners) && decide (capacity ≤ owners.length)).toNat := by
  have stay {front : List TypeInfo} (kept : front ⊆ placed capacity owner owners) :
      front.filter (fun other => !decide (other ∈ placed capacity owner owners)) = [] := by
    rw [List.filter_eq_nil_iff]
    intro other mem
    rw [decide_eq_true (kept mem)]
    nofun
  by_cases fits : owner ∈ owners ∨ owners.length < capacity
  · rw [stay (subset_placed fits)]
    rcases fits with there | fits
    · rw [decide_eq_true there]
      rfl
    · rw [decide_eq_false (Nat.not_le.mpr fits), Bool.and_false]
      rfl
  · obtain ⟨rest, last, whole, result⟩ := placed_full room fits
    obtain ⟨absent, tight⟩ := not_or.mp fits
    have apart : last ∉ owner :: rest := by
      rw [whole] at absent distinct
      rintro mem
      rcases List.mem_cons.mp mem with rfl | mem
      · exact absent (List.mem_append_right _ List.mem_cons_self)
      · exact (List.nodup_append.mp distinct).2.2 last mem last List.mem_cons_self rfl
    have goes : [last].filter (fun other => !decide (other ∈ placed capacity owner owners))
        = [last] :=
      List.filter_eq_self.mpr fun other mem => by
        rw [List.mem_singleton.mp mem, result, decide_eq_false apart]
        rfl
    have stays : rest ⊆ placed capacity owner owners :=
      result ▸ List.subset_cons_self owner rest
    have parts := congrArg
      (List.filter fun other => !decide (other ∈ placed capacity owner owners)) whole
    rw [parts, List.filter_append, stay stays, goes, decide_eq_false absent,
      decide_eq_true (Nat.not_lt.mp tight)]
    rfl

theorem owners_promote (c : MemberCache H) (owner : TypeInfo)
    (bucket : Keyed String (Member H)) :
    Keyed.keys (c.promote owner bucket) = touched owner c.owners := by
  rw [promote, Keyed.keys_cons, Keyed.keys_erase]
  rfl

theorem mem_owners_of_bucket? {c : MemberCache H} {owner : TypeInfo}
    {bucket : Keyed String (Member H)} (h : c.bucket? owner = some bucket) :
    owner ∈ c.owners :=
  contains_iff.mp (Option.isSome_of_eq_some h)

theorem not_mem_owners_of_bucket? {c : MemberCache H} {owner : TypeInfo}
    (h : c.bucket? owner = none) : owner ∉ c.owners := by
  rw [← not_contains_iff, contains, h]
  rfl

-- A lookup asks for the member, and may store one if there was none.
theorem lookup_cases [HostObject H] (c : MemberCache H) (types : TypeRegistry H)
    (owner : TypeInfo) (name : String) :
    (c.lookup types owner name).2 = (c.get owner name).2 ∨
      ∃ member, (c.get owner name).1 = none ∧
        (c.lookup types owner name).2 = (c.get owner name).2.insert owner name member := by
  unfold lookup
  rcases c.get owner name with ⟨_ | member, c'⟩
  · cases Member.resolve types owner name with
    | found member => exact .inr ⟨member, rfl, rfl⟩
    | missing | ambiguous candidates | deferred => exact .inl rfl
  · exact .inl rfl

theorem capacity_get (c : MemberCache H) (owner : TypeInfo) (name : String) :
    (c.get owner name).2.capacity = c.capacity := by
  unfold get
  split
  · rfl
  · split
    · rfl
    · dsimp only
      split <;> rfl

theorem capacity_insert (c : MemberCache H) (owner : TypeInfo) (name : String)
    (member : Member H) : (c.insert owner name member).capacity = c.capacity := by
  unfold insert
  split
  · rfl
  · split
    · rfl
    · dsimp only
      split <;> rfl

section Operations

variable {c : MemberCache H} {owner : TypeInfo} {name : String} (room : c.capacity ≠ 0)
include room

theorem owners_get : (c.get owner name).2.owners =
    if owner ∈ c.owners then touched owner c.owners else c.owners := by
  unfold get
  rw [if_neg room]
  cases found : c.bucket? owner with
  | none =>
    rw [if_neg (not_mem_owners_of_bucket? found)]
    rfl
  | some bucket =>
    rw [if_pos (mem_owners_of_bucket? found)]
    dsimp only
    cases bucket.lookup name with
    | none => exact owners_promote c owner bucket
    | some member => exact owners_promote c owner bucket

theorem owners_insert {member : Member H} :
    (c.insert owner name member).owners = placed c.capacity owner c.owners := by
  have sized : c.owners.length = c.buckets.length := List.length_map _
  unfold insert placed
  rw [if_neg room]
  cases found : c.bucket? owner with
  | some bucket =>
    rw [if_pos (mem_owners_of_bucket? found)]
    exact owners_promote c owner _
  | none =>
    rw [if_neg (not_mem_owners_of_bucket? found), sized]
    dsimp only
    split
    · rfl
    · exact congrArg (owner :: ·) List.map_dropLast

theorem held?_insert_self {member : Member H} :
    (c.insert owner name member).held? owner name = some member := by
  unfold insert
  rw [if_neg room]
  cases c.bucket? owner with
  | some bucket =>
    rw [held?, bucket?, bucket?_promote, if_pos rfl, Option.bind_some, Keyed.lookup_insert,
      if_pos rfl]
  | none =>
    dsimp only
    split <;>
      rw [held?, bucket?, Keyed.lookup_cons, if_pos rfl, Option.bind_some, Keyed.lookup_cons,
        if_pos rfl]

-- Asking first makes no difference.
theorem owners_insert_get {member : Member H} :
    ((c.get owner name).2.insert owner name member).owners =
      placed c.capacity owner c.owners := by
  have same := capacity_get c owner name
  rw [owners_insert (same ▸ room), same, owners_get room]
  by_cases there : owner ∈ c.owners
  · rw [if_pos there, placed, placed, if_pos there, if_pos (mem_touched there), touched_touched]
  · rw [if_neg there]

theorem owners_lookup [HostObject H] {types : TypeRegistry H} :
    (c.lookup types owner name).2.owners = placed c.capacity owner c.owners ∨
      owner ∉ c.owners ∧ (c.lookup types owner name).2.owners = c.owners := by
  rcases c.lookup_cases types owner name with only | ⟨member, -, stored⟩
  · rw [only, owners_get room]
    by_cases there : owner ∈ c.owners
    · exact .inl (by rw [placed, if_pos there, if_pos there])
    · exact .inr ⟨there, if_neg there⟩
  · rw [stored]
    exact .inl (owners_insert_get room)

end Operations

/-- What holds of a cache with room for `capacity` buckets after calls: there are no more than that,
and they stand in the order of their last use. -/
structure Ordered (capacity : Nat) (calls : List (CacheCall H)) (c : MemberCache H) : Prop where
  sized : c.capacity = capacity
  bounded : c.owners.length ≤ capacity
  recent : c.owners.Pairwise fun first second => idle calls first < idle calls second

namespace Ordered

variable {capacity : Nat} {calls : List (CacheCall H)} {c : MemberCache H} {call : CacheCall H}

theorem start (capacity : Nat) :
    (ofConfig ⟨capacity, true⟩ : MemberCache H).Ordered capacity [] := by
  have whole : (ofConfig ⟨capacity, true⟩ : MemberCache H).capacity = capacity := by
    show (if (true && decide (0 < capacity)) = true then capacity else 0) = capacity
    split
    · rfl
    · rename_i none
      simp only [Bool.true_and, decide_eq_true_eq] at none
      omega
  exact ⟨whole, Nat.zero_le _, List.Pairwise.nil⟩

theorem distinct (h : c.Ordered capacity calls) : c.owners.Nodup :=
  h.recent.imp fun before => by
    rintro rfl
    exact Nat.lt_irrefl _ before

-- Buckets that a call does not use stay in their order.
theorem idle_rest (h : c.Ordered capacity calls) {rest : List TypeInfo}
    (kept : rest.Sublist c.owners) (unused : ∀ owner ∈ rest, call.used? ≠ some owner) :
    rest.Pairwise fun first second =>
      idle (calls ++ [call]) first < idle (calls ++ [call]) second := by
  refine (h.recent.sublist kept).imp_of_mem fun {first second} mem mem' before => ?_
  rw [idle_append, idle_append, if_neg (unused _ mem), if_neg (unused _ mem')]
  omega

-- The bucket that a call uses comes in front of them.
theorem idle_cons (h : c.Ordered capacity calls) {owner : TypeInfo} {rest : List TypeInfo}
    (used : call.used? = some owner) (kept : rest.Sublist c.owners) (fresh : owner ∉ rest) :
    (owner :: rest).Pairwise
      fun first second => idle (calls ++ [call]) first < idle (calls ++ [call]) second := by
  have unused : ∀ other ∈ rest, call.used? ≠ some other := by
    intro other mem same
    exact fresh (Option.some.inj (used.symm.trans same) ▸ mem)
  refine List.pairwise_cons.mpr ⟨fun other mem => ?_, h.idle_rest kept unused⟩
  rw [idle_append, idle_append, if_pos used, if_neg (unused other mem)]
  omega

end Ordered

/-! ## What is counted -/

theorem stats_get (c : MemberCache H) (owner : TypeInfo) (name : String) (room : c.capacity ≠ 0) :
    (c.get owner name).2.stats =
      { c.stats with
        hits := c.stats.hits + (c.get owner name).1.isSome.toNat
        misses := c.stats.misses + (!(c.get owner name).1.isSome).toNat } := by
  unfold get
  rw [if_neg room]
  cases c.bucket? owner with
  | none => rfl
  | some bucket =>
    dsimp only
    cases bucket.lookup name with
    | none => rfl
    | some member => rfl

/-- Whether a call is given a member that the cache keeps. -/
def answers (c : MemberCache H) : CacheCall H → Bool
  | .get owner name | .lookup _ owner name => (c.get owner name).1.isSome
  | _ => false

theorem asks_of_answers {c : MemberCache H} {call : CacheCall H} (h : c.answers call = true) :
    call.asks = true := by
  cases call <;> first | rfl | cases h

/-- Whether a bucket for a type takes the place of another. -/
def pushesOut (c : MemberCache H) (owner : TypeInfo) : Bool :=
  !c.contains owner && decide (c.capacity ≤ c.owners.length)

theorem stats_insert (c : MemberCache H) (owner : TypeInfo) (name : String) (member : Member H)
    (room : c.capacity ≠ 0) :
    (c.insert owner name member).stats =
      { c.stats with evictions := c.stats.evictions + (c.pushesOut owner).toNat } := by
  have sized : c.owners.length = c.buckets.length := List.length_map _
  unfold insert pushesOut contains
  rw [if_neg room, sized]
  cases c.bucket? owner with
  | some bucket => rfl
  | none =>
    dsimp only
    split
    · rename_i fits
      rw [decide_eq_false (Nat.not_le.mpr fits)]
      rfl
    · rename_i full
      rw [decide_eq_true (Nat.not_lt.mp full)]
      rfl

/-! ## Runs -/

variable [HostObject H]

/-- The cache after a call. -/
def after (c : MemberCache H) : CacheCall H → MemberCache H
  | .get owner name => (c.get owner name).2
  | .insert owner name member => c.insert owner name member
  | .lookup types owner name => (c.lookup types owner name).2
  | .evict owner => (c.evict owner).2
  | .clear => c.clear
  | .contains _ | .size | .stats => c

/-- The cache after calls one after the other. -/
def afterAll (c : MemberCache H) (calls : List (CacheCall H)) : MemberCache H :=
  calls.foldl after c

theorem afterAll_append (c : MemberCache H) (calls : List (CacheCall H)) (call : CacheCall H) :
    c.afterAll (calls ++ [call]) = (c.afterAll calls).after call := by
  rw [afterAll, List.foldl_append]
  rfl

theorem capacity_after (c : MemberCache H) (call : CacheCall H) :
    (c.after call).capacity = c.capacity := by
  cases call with
  | get owner name => exact capacity_get c owner name
  | insert owner name member => exact capacity_insert c owner name member
  | lookup types owner name =>
    show (c.lookup types owner name).2.capacity = _
    rcases c.lookup_cases types owner name with only | ⟨member, -, stored⟩
    · rw [only, capacity_get]
    · rw [stored, capacity_insert, capacity_get]
  | evict _ | clear | contains _ | size | stats => rfl

/-- A call that uses the bucket of a type puts the type in front, or there is no such bucket and
nothing to put in one. -/
theorem owners_after_of_used {c : MemberCache H} (room : c.capacity ≠ 0) {call : CacheCall H}
    {owner : TypeInfo} (used : call.used? = some owner) :
    (c.after call).owners = placed c.capacity owner c.owners ∨
      owner ∉ c.owners ∧ (c.after call).owners = c.owners := by
  cases call with
  | get other name =>
    cases used
    have asked : (c.get owner name).2.owners = _ := owners_get room
    by_cases there : owner ∈ c.owners
    · rw [if_pos there] at asked
      exact .inl (asked.trans (if_pos there).symm)
    · rw [if_neg there] at asked
      exact .inr ⟨there, asked⟩
  | insert other name member =>
    cases used
    exact .inl (owners_insert room)
  | lookup types other name =>
    cases used
    exact owners_lookup room
  | evict _ | clear | contains _ | size | stats => cases used

namespace Ordered

variable {capacity : Nat} {calls : List (CacheCall H)} {c : MemberCache H}

theorem after (room : 0 < capacity) (h : c.Ordered capacity calls) (call : CacheCall H) :
    (c.after call).Ordered capacity (calls ++ [call]) := by
  have there : c.capacity ≠ 0 := by
    rw [h.sized]
    omega
  have still := (capacity_after c call).trans h.sized
  -- what is left of the buckets stays in its order
  have fewer (kept : (c.after call).owners.Sublist c.owners)
      (unused : ∀ owner ∈ (c.after call).owners, call.used? ≠ some owner) :
      (c.after call).Ordered capacity (calls ++ [call]) :=
    ⟨still, kept.length_le.trans h.bounded, h.idle_rest kept unused⟩
  cases used : call.used? with
  | some owner =>
    rcases owners_after_of_used there used with front | ⟨absent, same⟩
    · obtain ⟨rest, placed, kept, fresh⟩ := placed_eq_cons c.capacity owner c.owners
      refine ⟨still, ?_, ?_⟩
      · rw [front, h.sized]
        exact length_placed_le room h.bounded
      · rw [front, placed]
        exact h.idle_cons used kept fresh
    · refine fewer (same ▸ List.Sublist.refl _) fun other mem => ?_
      rw [same] at mem
      rintro here
      rw [used] at here
      exact absent (Option.some.inj here ▸ mem)
  | none =>
    refine fewer ?_ fun owner _ => by
      rw [used]
      nofun
    cases call with
    | get _ _ | insert _ _ _ | lookup _ _ _ => cases used
    | evict owner =>
      show (Keyed.keys (Keyed.erase owner c.buckets)).Sublist c.owners
      rw [Keyed.keys_erase]
      exact List.filter_sublist
    | clear => exact List.nil_sublist _
    | contains _ | size | stats => exact List.Sublist.refl _

theorem afterAll {start : MemberCache H} (room : 0 < capacity) (h : start.Ordered capacity [])
    (calls : List (CacheCall H)) : (start.afterAll calls).Ordered capacity calls := by
  induction calls using List.reverseRecOn with
  | nil => exact h
  | append_singleton calls call ih =>
    rw [afterAll_append]
    exact ih.after room call

end Ordered

/-! ## Statistics of a run -/

/-- The types that lose their buckets in a call that is not told to drop any. -/
def displaced (c : MemberCache H) : CacheCall H → List TypeInfo
  | .evict _ | .clear => []
  | call => c.owners.filter fun owner => !(c.after call).contains owner

theorem displaced_of_subset {c : MemberCache H} {call : CacheCall H}
    (kept : c.owners ⊆ (c.after call).owners) : c.displaced call = [] := by
  have all : (c.owners.filter fun owner => !(c.after call).contains owner) = [] := by
    rw [List.filter_eq_nil_iff]
    intro owner mem
    rw [contains_iff.mpr (kept mem)]
    nofun
  cases call with
  | evict _ | clear => rfl
  | _ => exact all

theorem length_displaced_of_placed {c : MemberCache H} {call : CacheCall H} {owner : TypeInfo}
    (room : c.capacity ≠ 0) (distinct : c.owners.Nodup) (used : call.used? = some owner)
    (front : (c.after call).owners = placed c.capacity owner c.owners) :
    (c.displaced call).length = (c.pushesOut owner).toNat := by
  have lost : (fun other => !(c.after call).contains other) =
      fun other => !decide (other ∈ placed c.capacity owner c.owners) := by
    funext other
    rw [← front, contains_eq_decide]
  have counted := length_pushed owner (Nat.pos_of_ne_zero room) distinct
  rw [← lost, ← contains_eq_decide] at counted
  cases call with
  | evict _ | clear | contains _ | size | stats => cases used
  | get _ _ | insert _ _ _ | lookup _ _ _ => exact counted

theorem stats_after {c : MemberCache H} (room : c.capacity ≠ 0) (distinct : c.owners.Nodup)
    {call : CacheCall H} (kept : call.clears = false) :
    (c.after call).stats =
      { hits := c.stats.hits + (c.answers call).toNat
        misses := c.stats.misses + (call.asks && !c.answers call).toNat
        evictions := c.stats.evictions + (c.displaced call).length } := by
  -- a member that is asked for displaces nothing
  have asked (call : CacheCall H) {owner : TypeInfo} {name : String}
      (same : c.after call = (c.get owner name).2) : c.displaced call = [] := by
    refine displaced_of_subset fun other mem => ?_
    rw [same, owners_get room]
    split
    · exact mem_touched mem
    · exact mem
  cases call with
  | get owner name =>
    show (c.get owner name).2.stats = _
    rw [stats_get c owner name room, asked _ rfl]
    rfl
  | insert owner name member =>
    have pushed : (c.displaced (.insert owner name member)).length = (c.pushesOut owner).toNat :=
      length_displaced_of_placed room distinct rfl (owners_insert room)
    show (c.insert owner name member).stats = _
    rw [stats_insert c owner name member room, pushed]
    rfl
  | lookup types owner name =>
    show (c.lookup types owner name).2.stats = _
    rcases c.lookup_cases types owner name with only | ⟨member, unknown, stored⟩
    · rw [only, stats_get c owner name room, asked (.lookup types owner name) only]
      rfl
    · have same := capacity_get c owner name
      have known : (c.get owner name).2.pushesOut owner = c.pushesOut owner := by
        unfold pushesOut
        rw [contains_eq_decide, contains_eq_decide, owners_get room, same]
        by_cases there : owner ∈ c.owners
        · rw [if_pos there, decide_eq_true there, decide_eq_true (mem_touched there)]
          rfl
        · rw [if_neg there]
      have front : (c.after (.lookup types owner name)).owners
          = placed c.capacity owner c.owners := by
        show (c.lookup types owner name).2.owners = _
        rw [stored, owners_insert_get room]
      have pushed := length_displaced_of_placed room distinct rfl front
      rw [stored, stats_insert _ owner name member (same ▸ room), known,
        stats_get c owner name room, pushed]
      rfl
  | evict owner => rfl
  | clear => cases kept
  | contains _ | size | stats =>
    rw [displaced_of_subset (List.Subset.refl _)]
    rfl

/-- The calls of a run, each with the cache that it meets. -/
def meetings (c : MemberCache H) : List (CacheCall H) → List (MemberCache H × CacheCall H)
  | [] => []
  | call :: calls => (c, call) :: (c.after call).meetings calls

theorem meetings_append (c : MemberCache H) (calls : List (CacheCall H)) (call : CacheCall H) :
    c.meetings (calls ++ [call]) = c.meetings calls ++ [(c.afterAll calls, call)] := by
  induction calls generalizing c with
  | nil => rfl
  | cons first calls ih =>
    rw [List.cons_append, meetings, ih]
    rfl

/-- The calls of a run since the last one that cleared the cache. -/
def sinceCleared (c : MemberCache H) (calls : List (CacheCall H)) :
    List (MemberCache H × CacheCall H) :=
  (c.meetings calls).rtakeWhile fun m => !m.2.clears

theorem sinceCleared_append (c : MemberCache H) (calls : List (CacheCall H))
    (call : CacheCall H) :
    c.sinceCleared (calls ++ [call]) =
      if call.clears then [] else c.sinceCleared calls ++ [(c.afterAll calls, call)] := by
  unfold sinceCleared
  rw [meetings_append]
  cases clears : call.clears with
  | true => exact List.rtakeWhile_concat_neg _ _ _ (by simp [clears])
  | false => exact List.rtakeWhile_concat_pos _ _ _ (by simp [clears])

/-- Statistics that count what has happened in calls. -/
structure Counts (stats : CacheStats) (calls : List (MemberCache H × CacheCall H)) : Prop where
  requests : stats.hits + stats.misses = calls.countP fun m => m.2.asks
  hits : stats.hits = calls.countP fun m => m.1.answers m.2
  evictions : stats.evictions = (calls.flatMap fun m => m.1.displaced m.2).length

theorem Counts.append {stats : CacheStats} {calls : List (MemberCache H × CacheCall H)}
    (h : Counts stats calls) (c : MemberCache H) (call : CacheCall H) :
    Counts
      { hits := stats.hits + (c.answers call).toNat
        misses := stats.misses + (call.asks && !c.answers call).toNat
        evictions := stats.evictions + (c.displaced call).length }
      (calls ++ [(c, call)]) where
  requests := by
    rw [List.countP_append, ← h.requests, List.countP_singleton]
    cases answers : c.answers call with
    | true =>
      simp only [asks_of_answers answers, Bool.toNat_true, Bool.not_true, Bool.and_false,
        Bool.toNat_false, if_true]
      omega
    | false =>
      cases call.asks with
      | true =>
        simp only [Bool.toNat_false, Bool.not_false, Bool.and_true, Bool.toNat_true, if_true]
        omega
      | false =>
        simp only [Bool.toNat_false, Bool.false_and, Bool.false_eq_true, if_false]
        omega
  hits := by
    rw [List.countP_append, ← h.hits, List.countP_singleton]
    cases c.answers call <;> rfl
  evictions := by
    rw [List.flatMap_append, List.length_append, ← h.evictions, List.flatMap_singleton]

/-! ## What a run does -/

/-- What it takes for a call to drop the bucket of a type for want of room: the cache is full, a
bucket for a new type is put into it, and of all buckets this one has been idle longest.  No other
is dropped. -/
structure GivesWay (capacity : Nat) (calls : List (CacheCall H)) (c : MemberCache H)
    (call : CacheCall H) (owner : TypeInfo) : Prop where
  full : c.size = capacity
  newcomer : ∃ fresh, call.used? = some fresh ∧ c.contains fresh = false ∧
    (c.after call).contains fresh = true
  oldest : ∀ other, c.contains other = true → other ≠ owner → idle calls other < idle calls owner
  alone : ∀ other, c.contains other = true → other ≠ owner → (c.after call).contains other = true

theorem Ordered.gives_way {capacity : Nat} {calls : List (CacheCall H)} {c : MemberCache H}
    (room : 0 < capacity) (h : c.Ordered capacity calls) {call : CacheCall H} {owner : TypeInfo}
    (held : owner ∈ c.owners) (lost : owner ∉ (c.after call).owners) :
    call = .evict owner ∨ call = .clear ∨ GivesWay capacity calls c call owner := by
  have there : c.capacity ≠ 0 := by
    rw [h.sized]
    omega
  cases used : call.used? with
  | none =>
    cases call with
    | get _ _ | insert _ _ _ | lookup _ _ _ => cases used
    | clear => exact .inr (.inl rfl)
    | contains _ | size | stats => exact absurd held lost
    | evict other =>
      have gone : owner ∉ Keyed.keys (Keyed.erase other c.buckets) := lost
      rw [Keyed.keys_erase, List.mem_filter] at gone
      have same : owner = other := by
        by_contra differs
        exact gone ⟨held, decide_eq_true differs⟩
      rw [same]
      exact .inl rfl
  | some fresh =>
    rcases owners_after_of_used there used with front | ⟨-, same⟩
    · by_cases fits : fresh ∈ c.owners ∨ c.owners.length < c.capacity
      · exact absurd (front ▸ subset_placed fits held) lost
      obtain ⟨rest, last, whole, result⟩ := placed_full (Nat.pos_of_ne_zero there) fits
      obtain ⟨absent, tight⟩ := not_or.mp fits
      rw [result] at front
      have isLast : owner = last := by
        rw [whole] at held
        rcases List.mem_append.mp held with inRest | inLast
        · exact absurd (front ▸ List.mem_cons_of_mem fresh inRest) lost
        · exact List.mem_singleton.mp inLast
      -- every other bucket stands before the last one
      have earlier : ∀ other, c.contains other = true → other ≠ owner → other ∈ rest := by
        intro other mem differs
        rw [contains_iff, whole] at mem
        refine (List.mem_append.mp mem).resolve_right fun inLast => ?_
        exact differs ((List.mem_singleton.mp inLast).trans isLast.symm)
      refine .inr (.inr ⟨?_, ⟨fresh, used, not_contains_iff.mpr absent, ?_⟩, ?_, ?_⟩)
      · have sized : c.owners.length = c.size := List.length_map _
        have bounded := h.bounded
        rw [h.sized] at tight
        omega
      · rw [contains_iff, front]
        exact List.mem_cons_self
      · intro other mem differs
        have recent := whole ▸ h.recent
        rw [isLast]
        exact (List.pairwise_append.mp recent).2.2 other (earlier other mem differs) last
          List.mem_cons_self
      · intro other mem differs
        rw [contains_iff, front]
        exact List.mem_cons_of_mem fresh (earlier other mem differs)
    · rw [same] at lost
      exact absurd held lost

theorem counts_afterAll {capacity : Nat} (room : 0 < capacity) {start : MemberCache H}
    (h : start.Ordered capacity []) (fresh : start.stats = .zero) (calls : List (CacheCall H)) :
    Counts (start.afterAll calls).stats (start.sinceCleared calls) := by
  induction calls using List.reverseRecOn with
  | nil =>
    show Counts start.stats []
    rw [fresh]
    exact ⟨rfl, rfl, rfl⟩
  | append_singleton calls call ih =>
    have ordered := h.afterAll room calls
    rw [afterAll_append, sinceCleared_append]
    cases clears : call.clears with
    | true =>
      cases call with
      | clear => exact ⟨rfl, rfl, rfl⟩
      | _ => cases clears
    | false =>
      have there : (start.afterAll calls).capacity ≠ 0 := by
        rw [ordered.sized]
        omega
      rw [stats_after there ordered.distinct clears]
      exact ih.append _ call

-- Calls that only ask about the cache can be left out.
theorem afterAll_filter (c : MemberCache H) (calls : List (CacheCall H)) :
    c.afterAll (calls.filter fun call => !call.inspects) = c.afterAll calls := by
  induction calls generalizing c with
  | nil => rfl
  | cons call calls ih =>
    cases call with
    | contains _ | size | stats => exact ih c
    | get _ _ | insert _ _ _ | lookup _ _ _ | evict _ | clear => exact ih _

/-- Over any run of an enabled cache there are never more buckets than it has room for.  What is
stored is there, and a bucket is dropped because the call says so, or it gives way to a bucket for a
new type as the one that has been idle longest.  Asking about the cache changes nothing, and the
statistics count the requests, those that were answered and the buckets that gave way since the
cache was cleared. -/
theorem keeps_last_used {capacity : Nat} (room : 0 < capacity) (calls : List (CacheCall H)) :
    let start : MemberCache H := ofConfig ⟨capacity, true⟩
    let c := start.afterAll calls
    c.size ≤ capacity ∧
      (∀ owner name member,
        (c.after (.insert owner name member)).held? owner name = some member) ∧
      (∀ call owner, c.contains owner = true → (c.after call).contains owner = false →
        call = .evict owner ∨ call = .clear ∨ GivesWay capacity calls c call owner) ∧
      start.afterAll (calls.filter fun call => !call.inspects) = c ∧
      Counts c.stats (start.sinceCleared calls) := by
  intro start c
  have ordered : c.Ordered capacity calls := (Ordered.start capacity).afterAll room calls
  have sized : c.owners.length = c.size := List.length_map _
  have there : c.capacity ≠ 0 := by
    rw [ordered.sized]
    omega
  refine ⟨sized ▸ ordered.bounded, fun owner name member => held?_insert_self there, ?_,
    afterAll_filter start calls, counts_afterAll room (Ordered.start capacity) rfl calls⟩
  intro call owner held lost
  exact ordered.gives_way room (contains_iff.mp held) (not_contains_iff.mp lost)

/-- Two types are used, the first once more by looking for a member that it has not got. -/
def touchedRun : List (CacheCall Empty) :=
  [.lookup .empty (.host "A") "x", .lookup .empty (.host "B") "x", .lookup .empty (.host "B") "x",
    .get (.host "A") "y", .contains (.host "B")]

/-- A member of a third type. -/
def thirdType : CacheCall Empty :=
  .lookup .empty (.host "C") "x"

theorem keeps_last_used_touched :
    0 < 2 ∧
      (let start : MemberCache Empty := ofConfig ⟨2, true⟩
       let c := start.afterAll touchedRun
       c.contains (.host "B") = true ∧ (c.after thirdType).contains (.host "B") = false ∧
         c.size ≤ 2 ∧ GivesWay 2 touchedRun c thirdType (.host "B") ∧
         c.stats = ⟨1, 3, 0⟩ ∧ Counts c.stats (start.sinceCleared touchedRun)) := by
  refine ⟨by decide, ?_⟩
  intro start c
  have held : c.contains (.host "B") = true := by decide +kernel
  have lost : (c.after thirdType).contains (.host "B") = false := by decide +kernel
  obtain ⟨bounded, -, drops, -, counts⟩ := keeps_last_used (by decide : 0 < 2) touchedRun
  refine ⟨held, lost, bounded, ?_, by decide +kernel, counts⟩
  rcases drops thirdType (.host "B") held lost with told | told | gives
  · cases told
  · cases told
  · exact gives

end MemberCache

end FormulaLang
