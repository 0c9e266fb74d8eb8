import FormulaLang.Proofs.Decimal.Comparison
import FormulaLang.Value.Equality

/-!
Laws of equality.  Exact equality and equality up to a tolerance go through two values alike and
differ in how they compare numbers, so their laws follow from those of doubles: both are symmetric,
exact equality is transitive and implies equality up to any tolerance, and a larger tolerance keeps
what a smaller one accepts.  Neither depends on the order of the entries of a map, at any depth.
-/

namespace FormulaLang

/-! ## Tables -/

namespace Keyed

variable {κ β : Type}

theorem mem_keys_of_mem {t : Keyed κ β} {key : κ} {value : β} (h : (key, value) ∈ t) :
    key ∈ keys t :=
  List.mem_map_of_mem h

-- Distinct keys that are all in a table of no more entries are all of its keys.
theorem mem_keys_of_length_le {s t : Keyed κ β} (distinct : (keys s).Nodup)
    (within : keys s ⊆ keys t) (length : t.length ≤ s.length) {key : κ} (mem : key ∈ keys t) :
    key ∈ keys s := by
  have length : (keys t).length ≤ (keys s).length := by
    rw [keys, keys, List.length_map, List.length_map]
    exact length
  exact ((distinct.subperm within).perm_of_length_le length).mem_iff.mpr mem

variable [DecidableEq κ]

theorem lookup_of_mem {t : Keyed κ β} (distinct : (keys t).Nodup) {key : κ} {value : β}
    (h : (key, value) ∈ t) : t.lookup key = some value := by
  induction t with
  | nil => cases h
  | cons entry rest ih =>
    obtain ⟨absent, distinct⟩ := List.nodup_cons.mp distinct
    rw [lookup_cons]
    rcases List.mem_cons.mp h with rfl | h
    · exact if_pos rfl
    · have other : key ≠ entry.1 := fun same => absent (same ▸ mem_keys_of_mem h)
      rw [if_neg other]
      exact ih distinct h

theorem mem_of_mem_insert {key : κ} {value : β} {t : Keyed κ β} {entry : κ × β}
    (h : entry ∈ insert key value t) : entry = (key, value) ∨ entry ∈ t := by
  induction t with
  | nil => exact .inl (List.mem_singleton.mp h)
  | cons first rest ih =>
    obtain ⟨k, v⟩ := first
    unfold insert at h
    split at h
    · rcases List.mem_cons.mp h with same | mem
      · exact .inl same
      · exact .inr (.tail _ mem)
    · rcases List.mem_cons.mp h with rfl | mem
      · exact .inr (.head _)
      · exact (ih mem).imp_right (.tail _)

theorem mem_of_mem_ofList {entries : List (κ × β)} {entry : κ × β} (h : entry ∈ ofList entries) :
    entry ∈ entries := by
  unfold ofList at h
  refine List.foldlRecOn (motive := fun t : Keyed κ β => ∀ e ∈ t, e ∈ entries) entries _
    (fun _ mem => (List.not_mem_nil mem).elim) (fun t among e mem => ?_) entry h
  intro e' here
  rcases mem_of_mem_insert here with rfl | before
  · exact mem
  · exact among e' before

end Keyed

namespace Value

variable {H : Type}

/-! ## Distinct keys -/

/-- The keys of a map are distinct, and those of every map inside. -/
inductive IsKeyed : Value H → Prop where
  | number (x : Float) : IsKeyed (number x)
  | bool (b : Bool) : IsKeyed (bool b)
  | string (text : String) : IsKeyed (string text)
  | sequence {items : List (Value H)} (all : ∀ v ∈ items, IsKeyed v) : IsKeyed (sequence items)
  | map {entries : List (String × Value H)} (distinct : (Keyed.keys entries).Nodup)
      (all : ∀ key v, (key, v) ∈ entries → IsKeyed v) : IsKeyed (map entries)
  | host (object : H) : IsKeyed (host object)

-- A map that is made from pairs has distinct keys, whatever the pairs are.
theorem isKeyed_ofEntries {entries : List (String × Value H)}
    (all : ∀ key v, (key, v) ∈ entries → IsKeyed v) : IsKeyed (ofEntries entries) :=
  .map (Keyed.nodup_keys_ofList entries) fun key v mem => all key v (Keyed.mem_of_mem_ofList mem)

variable [HostObject H]

/-! ## Comparisons -/

/-- What a comparison of values tells, if it compares numbers by `p`. -/
structure Compares (p : Float → Float → Bool) (r : Value H → Value H → Bool) : Prop where
  number : ∀ {x : Float} {b : Value H}, r (number x) b = true ↔
    ∃ y, b = .number y ∧ p x y = true
  bool : ∀ {a : Bool} {b : Value H}, r (bool a) b = true ↔ .bool a = b
  string : ∀ {s : String} {b : Value H}, r (string s) b = true ↔ .string s = b
  sequence : ∀ {xs : List (Value H)} {b : Value H}, r (sequence xs) b = true ↔
    ∃ ys, b = .sequence ys ∧ xs.length = ys.length ∧
      ∀ i (h : i < xs.length) (h' : i < ys.length), r xs[i] ys[i] = true
  map : ∀ {xs : List (String × Value H)} {b : Value H}, r (map xs) b = true ↔
    ∃ ys, b = .map ys ∧ xs.length = ys.length ∧
      ∀ key x, (key, x) ∈ xs → ∃ y, ys.lookup key = some y ∧ r x y = true
  host : ∀ {o : H} {b : Value H}, r (host o) b = true ↔
    ∃ o', b = .host o' ∧ HostObject.identity o = HostObject.identity o'

theorem sameItems_iff {xs ys : List (Value H)} :
    sameItems xs ys = true ↔ List.Forall₂ (fun x y => same x y = true) xs ys := by
  induction xs generalizing ys with
  | nil => cases ys <;> simp [sameItems]
  | cons x xs ih => cases ys <;> simp [sameItems, ih]

theorem approxItems_iff {t : Float} {xs ys : List (Value H)} :
    xs.length = ys.length ∧ approxItems t xs ys = true ↔
      List.Forall₂ (fun x y => approx t x y = true) xs ys := by
  induction xs generalizing ys with
  | nil => cases ys <;> simp [approxItems]
  | cons x xs ih => cases ys <;> simp [approxItems, ← ih, and_left_comm]

theorem sameEntries_eq (xs ys : List (String × Value H)) :
    sameEntries xs ys = xs.all fun e => (ys.lookup e.1).any (same e.2) := by
  induction xs with
  | nil => rfl
  | cons e rest ih =>
    rw [sameEntries, ih, List.all_cons]
    cases ys.lookup e.1 <;> rfl

theorem approxEntries_eq (t : Float) (xs ys : List (String × Value H)) :
    approxEntries t xs ys = xs.all fun e => (ys.lookup e.1).any (approx t e.2) := by
  induction xs with
  | nil => rfl
  | cons e rest ih =>
    rw [approxEntries, ih, List.all_cons]
    cases ys.lookup e.1 <;> rfl

theorem compares_same : Compares (· == ·) (same : Value H → Value H → Bool) where
  number {x b} := by cases b <;> simp [same]
  bool {a b} := by cases b <;> simp [same]
  string {s b} := by cases b <;> simp [same]
  sequence {xs b} := by
    cases b with
    | sequence ys => simp [same, sameItems_iff, List.forall₂_iff_get]
    | _ => simp [same]
  map {xs b} := by
    cases b with
    | map ys => simp [same, sameEntries_eq, Option.any_eq_true]
    | _ => simp [same]
  host {o b} := by cases b <;> simp [same]

theorem compares_approx (t : Float) : Compares (near t) (approx t : Value H → Value H → Bool) where
  number {x b} := by cases b <;> simp [approx, same]
  bool {a b} := by cases b <;> simp [approx, same]
  string {s b} := by cases b <;> simp [approx, same]
  sequence {xs b} := by
    cases b with
    | sequence ys => simp [approx, approxItems_iff, List.forall₂_iff_get]
    | _ => simp [approx, same]
  map {xs b} := by
    cases b with
    | map ys => simp [approx, approxEntries_eq, Option.any_eq_true]
    | _ => simp [approx, same]
  host {o b} := by cases b <;> simp [approx, same]

/-! ## Laws of comparisons -/

section

variable {p q : Float → Float → Bool} {r r' : Value H → Value H → Bool} {a b c : Value H}

theorem Compares.symm (h : Compares p r) (symmetric : ∀ x y, p x y = true → p y x = true)
    (ha : a.IsKeyed) (hb : b.IsKeyed) (alike : r a b = true) : r b a = true := by
  induction ha generalizing b with
  | number x =>
    obtain ⟨y, rfl, near⟩ := h.number.mp alike
    exact h.number.mpr ⟨x, rfl, symmetric x y near⟩
  | bool =>
    obtain rfl := h.bool.mp alike
    exact alike
  | string =>
    obtain rfl := h.string.mp alike
    exact alike
  | @sequence xs all ih =>
    obtain ⟨ys, rfl, length, items⟩ := h.sequence.mp alike
    cases hb with
    | sequence all' =>
    refine h.sequence.mpr ⟨xs, rfl, length.symm, fun i hi hi' => ?_⟩
    exact ih _ (List.getElem_mem hi') (all' _ (List.getElem_mem hi)) (items i hi' hi)
  | @map xs distinct all ih =>
    obtain ⟨ys, rfl, length, entries⟩ := h.map.mp alike
    cases hb with
    | map distinct' all' =>
    refine h.map.mpr ⟨xs, rfl, length.symm, fun key y mem => ?_⟩
    -- both have the same keys, since those of the first are in the second and there are as many
    have within : Keyed.keys xs ⊆ Keyed.keys ys := by
      intro k hk
      obtain ⟨⟨k, x⟩, mem, rfl⟩ := List.mem_map.mp hk
      obtain ⟨y, found, -⟩ := entries k x mem
      exact Keyed.mem_keys_of_mem (Keyed.mem_of_lookup found)
    have known := Keyed.mem_keys_of_length_le distinct within length.ge (Keyed.mem_keys_of_mem mem)
    obtain ⟨x, found⟩ := Keyed.lookup_of_mem_keys known
    have there := Keyed.mem_of_lookup found
    obtain ⟨y', found', alike⟩ := entries key x there
    cases found'.symm.trans (Keyed.lookup_of_mem distinct' mem)
    exact ⟨x, found, ih key x there (all' key y mem) alike⟩
  | host o =>
    obtain ⟨o', rfl, identity⟩ := h.host.mp alike
    exact h.host.mpr ⟨o, rfl, identity.symm⟩

theorem Compares.trans (h : Compares p r)
    (transitive : ∀ x y z, p x y = true → p y z = true → p x z = true) (ha : a.IsKeyed)
    (alike : r a b = true) (alike' : r b c = true) : r a c = true := by
  induction ha generalizing b c with
  | number x =>
    obtain ⟨y, rfl, near⟩ := h.number.mp alike
    obtain ⟨z, rfl, near'⟩ := h.number.mp alike'
    exact h.number.mpr ⟨z, rfl, transitive x y z near near'⟩
  | bool =>
    obtain rfl := h.bool.mp alike
    exact alike'
  | string =>
    obtain rfl := h.string.mp alike
    exact alike'
  | sequence all ih =>
    obtain ⟨ys, rfl, length, items⟩ := h.sequence.mp alike
    obtain ⟨zs, rfl, length', items'⟩ := h.sequence.mp alike'
    refine h.sequence.mpr ⟨zs, rfl, length.trans length', fun i hi hi' => ?_⟩
    have within := length ▸ hi
    exact ih _ (List.getElem_mem hi) (items i hi within) (items' i within hi')
  | map distinct all ih =>
    obtain ⟨ys, rfl, length, entries⟩ := h.map.mp alike
    obtain ⟨zs, rfl, length', entries'⟩ := h.map.mp alike'
    refine h.map.mpr ⟨zs, rfl, length.trans length', fun key x mem => ?_⟩
    obtain ⟨y, found, alike⟩ := entries key x mem
    obtain ⟨z, found', alike'⟩ := entries' key y (Keyed.mem_of_lookup found)
    exact ⟨z, found', ih key x mem alike alike'⟩
  | host o =>
    obtain ⟨o', rfl, identity⟩ := h.host.mp alike
    obtain ⟨o'', rfl, identity'⟩ := h.host.mp alike'
    exact h.host.mpr ⟨o'', rfl, identity.trans identity'⟩

/-- A comparison that accepts more numbers accepts more values. -/
theorem Compares.mono (h : Compares p r) (h' : Compares q r')
    (weaker : ∀ x y, p x y = true → q x y = true) (ha : a.IsKeyed) (alike : r a b = true) :
    r' a b = true := by
  induction ha generalizing b with
  | number x =>
    obtain ⟨y, rfl, near⟩ := h.number.mp alike
    exact h'.number.mpr ⟨y, rfl, weaker x y near⟩
  | bool => exact h'.bool.mpr (h.bool.mp alike)
  | string => exact h'.string.mpr (h.string.mp alike)
  | sequence all ih =>
    obtain ⟨ys, rfl, length, items⟩ := h.sequence.mp alike
    exact h'.sequence.mpr
      ⟨ys, rfl, length, fun i hi hi' => ih _ (List.getElem_mem hi) (items i hi hi')⟩
  | map distinct all ih =>
    obtain ⟨ys, rfl, length, entries⟩ := h.map.mp alike
    refine h'.map.mpr ⟨ys, rfl, length, fun key x mem => ?_⟩
    obtain ⟨y, found, alike⟩ := entries key x mem
    exact ⟨y, found, ih key x mem alike⟩
  | host => exact h'.host.mpr (h.host.mp alike)

theorem Compares.comm (h : Compares p r) (symmetric : ∀ x y, p x y = true → p y x = true)
    (ha : a.IsKeyed) (hb : b.IsKeyed) : r a b = r b a :=
  Bool.eq_iff_iff.mpr ⟨h.symm symmetric ha hb, h.symm symmetric hb ha⟩

end

/-! ## The order of entries -/

/-- Values that differ at most in the order of entries, in one map or in several of them. -/
inductive Reordered : Value H → Value H → Prop where
  | refl (v : Value H) : Reordered v v
  | trans {u v w : Value H} (h : Reordered u v) (h' : Reordered v w) : Reordered u w
  | entries {xs ys : List (String × Value H)} (h : xs.Perm ys) : Reordered (map xs) (map ys)
  | item (front back : List (Value H)) {v w : Value H} (h : Reordered v w) :
      Reordered (sequence (front ++ v :: back)) (sequence (front ++ w :: back))
  | entry (front back : List (String × Value H)) (key : String) {v w : Value H}
      (h : Reordered v w) :
      Reordered (map (front ++ (key, v) :: back)) (map (front ++ (key, w) :: back))

section

omit [HostObject H]

variable {v w : Value H}

theorem Reordered.symm (h : Reordered v w) : Reordered w v := by
  induction h with
  | refl v => exact .refl v
  | trans _ _ ih ih' => exact .trans ih' ih
  | entries h => exact .entries h.symm
  | item front back _ ih => exact .item front back ih
  | entry front back key _ ih => exact .entry front back key ih

theorem Reordered.isKeyed (h : Reordered v w) (hv : v.IsKeyed) : w.IsKeyed := by
  induction h with
  | refl => exact hv
  | trans _ _ ih ih' => exact ih' (ih hv)
  | entries h =>
    cases hv with
    | map distinct all =>
    exact .map ((h.map _).nodup distinct) fun key v mem => all key v (h.mem_iff.mpr mem)
  | @item front back v w _ ih =>
    cases hv with
    | sequence all =>
    refine .sequence fun u mem => ?_
    rcases List.mem_append.mp mem with mem | mem
    · exact all u (List.mem_append_left _ mem)
    · rcases List.mem_cons.mp mem with rfl | mem
      · exact ih (all v (List.mem_append_right _ (.head _)))
      · exact all u (List.mem_append_right _ (.tail _ mem))
  | @entry front back key v w _ ih =>
    cases hv with
    | map distinct all =>
    rw [Keyed.keys_append, Keyed.keys_cons] at distinct
    refine .map (by rw [Keyed.keys_append, Keyed.keys_cons]; exact distinct) fun k u mem => ?_
    rcases List.mem_append.mp mem with mem | mem
    · exact all k u (List.mem_append_left _ mem)
    · rcases List.mem_cons.mp mem with same | mem
      · cases same
        exact ih (all key v (List.mem_append_right _ (.head _)))
      · exact all k u (List.mem_append_right _ (.tail _ mem))

end

section

variable {p : Float → Float → Bool} {r : Value H → Value H → Bool} {v w c : Value H}

theorem Compares.sequence_of_items (h : Compares p r) {xs ys : List (Value H)}
    (items : List.Forall₂ (fun x y => ∀ c, r x c = true → r y c = true) xs ys)
    (alike : r (.sequence xs) c = true) : r (.sequence ys) c = true := by
  obtain ⟨zs, rfl, length, all⟩ := h.sequence.mp alike
  obtain ⟨length', imply⟩ := List.forall₂_iff_get.mp items
  refine h.sequence.mpr ⟨zs, rfl, length'.symm.trans length, fun i hi hi' => ?_⟩
  exact imply i (length' ▸ hi) hi _ (all i (length' ▸ hi) hi')

theorem Compares.map_of_entries (h : Compares p r) {xs ys : List (String × Value H)}
    (length : xs.length = ys.length)
    (entries : ∀ key y, (key, y) ∈ ys → ∃ x, (key, x) ∈ xs ∧ ∀ c, r x c = true → r y c = true)
    (alike : r (.map xs) c = true) : r (.map ys) c = true := by
  obtain ⟨zs, rfl, length', all⟩ := h.map.mp alike
  refine h.map.mpr ⟨zs, rfl, length.symm.trans length', fun key y mem => ?_⟩
  obtain ⟨x, mem', imply⟩ := entries key y mem
  obtain ⟨z, found, alike⟩ := all key x mem'
  exact ⟨z, found, imply z alike⟩

theorem Compares.of_reordered (h : Compares p r) (moved : Reordered v w)
    (alike : r v c = true) : r w c = true := by
  induction moved generalizing c with
  | refl => exact alike
  | trans _ _ ih ih' => exact ih' (ih alike)
  | entries perm =>
    exact h.map_of_entries perm.length_eq
      (fun key y mem => ⟨y, perm.mem_iff.mpr mem, fun _ alike => alike⟩) alike
  | item front back _ ih =>
    have same (items : List (Value H)) :
        List.Forall₂ (fun x y => ∀ c, r x c = true → r y c = true) items items :=
      List.forall₂_same.mpr fun _ _ _ alike => alike
    exact h.sequence_of_items (List.rel_append (same front) (.cons (fun _ => ih) (same back))) alike
  | @entry front back key v w _ ih =>
    refine h.map_of_entries (by simp) (fun k u mem => ?_) alike
    rcases List.mem_append.mp mem with mem | mem
    · exact ⟨u, List.mem_append_left _ mem, fun _ alike => alike⟩
    · rcases List.mem_cons.mp mem with same | mem
      · cases same
        exact ⟨v, List.mem_append_right _ (.head _), fun _ => ih⟩
      · exact ⟨u, List.mem_append_right _ (.tail _ mem), fun _ alike => alike⟩

/-- A comparison does not depend on the order of entries in its first value. -/
theorem Compares.reordered (h : Compares p r) (moved : Reordered v w) (c : Value H) :
    r v c = r w c :=
  Bool.eq_iff_iff.mpr ⟨h.of_reordered moved, h.of_reordered moved.symm⟩

end

/-! ## Doubles up to a tolerance -/

theorem near_symm {t x y : Float} (h : near t x y = true) : near t y x = true := by
  simp only [near, Bool.or_eq_true, Bool.and_eq_true, decide_eq_true_eq] at h ⊢
  rcases h with (⟨nan, nan'⟩ | same) | close
  · exact .inl (.inl ⟨nan', nan⟩)
  · exact .inl (.inr (Decimal.beq_symm same))
  · rw [Decimal.distance_comm] at close
    exact .inr close

theorem near_of_beq (t : Float) {x y : Float} (h : (x == y) = true) : near t x y = true := by
  rw [near, h, Bool.or_true, Bool.true_or]

theorem near_mono {s t x y : Float} (wider : s ≤ t) (h : near s x y = true) :
    near t x y = true := by
  simp only [near, Bool.or_eq_true, decide_eq_true_eq] at h ⊢
  exact h.imp_right fun close => Decimal.le_of_le_of_le close wider

/-! ## Equality of values -/

/-- Exact equality of values with distinct keys is symmetric and transitive and does not depend on
the order of entries.  Equality up to a tolerance is symmetric, holds of equal values whatever the
tolerance is, and is kept by a larger one. -/
theorem equality_laws {a b : Value H} (ha : a.IsKeyed) (hb : b.IsKeyed) :
    same a b = same b a
    ∧ (∀ c, same a b = true → same b c = true → same a c = true)
    ∧ (∀ a', Reordered a a' → same a b = same a' b ∧ same b a = same b a')
    ∧ ∀ t, approx t a b = approx t b a
      ∧ (same a b = true → approx t a b = true)
      ∧ ∀ s, s ≤ t → approx s a b = true → approx t a b = true := by
  have symmetric (x y : Float) (h : (x == y) = true) : (y == x) = true := Decimal.beq_symm h
  have transitive (x y z : Float) (h : (x == y) = true) (h' : (y == z) = true) :
      (x == z) = true := Decimal.beq_trans h h'
  refine ⟨compares_same.comm symmetric ha hb, fun c => compares_same.trans transitive ha,
    fun a' moved => ?_, fun t => ⟨?_, ?_, fun s wider => ?_⟩⟩
  · have left := compares_same.reordered moved b
    refine ⟨left, ?_⟩
    rw [compares_same.comm symmetric hb ha, left,
      compares_same.comm symmetric (moved.isKeyed ha) hb]
  · exact (compares_approx t).comm (fun _ _ => near_symm) ha hb
  · exact compares_same.mono (compares_approx t) (fun _ _ => near_of_beq t) ha
  · exact (compares_approx s).mono (compares_approx t) (fun _ _ => near_mono wider) ha

/-- A host object of which formulas know nothing but its identity. -/
structure Handle where
  id : Nat

instance : HostObject Handle where
  typeName _ := "Handle"
  shown _ := "a handle"
  toNumber? _ := none
  member? _ _ := none
  entry? _ _ := none
  identity h := h.id

/-- A map inside a sequence inside a map, with a number `x`. -/
def nested (x : Float) : Value Handle :=
  ofEntries [("x", .number x),
    ("ys", .sequence [.bool true, ofEntries [("u", .host ⟨7⟩), ("v", .string "t")]])]

/-- The entries of both maps in the other order. -/
def nestedBackwards (x : Float) : Value Handle :=
  ofEntries [("ys", .sequence [.bool true, ofEntries [("v", .string "t"), ("u", .host ⟨7⟩)]]),
    ("x", .number x)]

theorem isKeyed_nested (x : Float) : (nested x).IsKeyed := by
  have inner : (ofEntries [("u", .host ⟨7⟩), ("v", .string "t")] : Value Handle).IsKeyed := by
    refine isKeyed_ofEntries fun key v mem => ?_
    rcases List.mem_pair.mp mem with same | same <;> cases same
    · exact .host _
    · exact .string "t"
  refine isKeyed_ofEntries fun key v mem => ?_
  rcases List.mem_pair.mp mem with same | same <;> cases same
  · exact .number x
  · refine .sequence fun v mem => ?_
    rcases List.mem_pair.mp mem with rfl | rfl
    · exact .bool true
    · exact inner

theorem reordered_nested (x : Float) : Reordered (nested x) (nestedBackwards x) :=
  .trans (.entries (List.Perm.swap _ _ _))
    (.entry [] _ "ys" (.item [.bool true] [] (.entries (List.Perm.swap _ _ _))))

theorem equality_laws_nested :
    (nested 1).IsKeyed ∧ (nested 1.25).IsKeyed ∧ Reordered (nested 1) (nestedBackwards 1)
    ∧ same (nestedBackwards 1) (nested 1) = true
    ∧ same (nested 1.25) (nested 1) = false
    ∧ approx 0.5 (nested 1.25) (nested 1) = true := by
  have first := isKeyed_nested 1
  have second := isKeyed_nested 1.25
  have moved := reordered_nested 1
  have backwards : same (nestedBackwards 1) (nested 1) = true := by
    rw [← ((equality_laws first first).2.2.1 _ moved).1]
    decide +kernel
  have apart : same (nested 1.25) (nested 1) = false := by
    rw [(equality_laws second first).1]
    decide +kernel
  obtain ⟨symmetric, -, wider⟩ := (equality_laws second first).2.2.2 0.5
  have close : approx 0.25 (nested 1.25) (nested 1) = true := by decide +kernel
  exact ⟨first, second, moved, backwards, apart, wider 0.25 (by decide +kernel) close⟩

end Value

end FormulaLang
