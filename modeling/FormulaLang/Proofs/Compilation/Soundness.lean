import FormulaLang.Proofs.Cache.Transparency
import FormulaLang.Proofs.Typing.Declared

/-!
Compiled code and static types.  Compiled code is sound for a result when it gives this result from
every coherent cache and a returned value is of the type that is known of the code.  For each
operator: from sound operands the compiler builds code that is sound for what the operator does to
the values of its operands.
-/

namespace FormulaLang

variable {H : Type} [HostObject H]

namespace Compiled

/-- The code gives a result, and a value has the type of the code. -/
structure Sound (compiled : Compiled H) (frame : Frame H) (r : Except Failure (Value H)) :
    Prop where
  gives : (compiled.code frame).Gives frame.env.types r
  typed : ∀ v, r = .ok v → v.Has compiled.type

theorem sound_constant (v : Value H) (frame : Frame H) : (constant v).Sound frame (.ok v) where
  gives := Solve.gives_pure v
  typed w h := by
    cases h
    exact Value.has_typeInfo v

theorem sound_input {frame : Frame H} {place : Nat} {v : Value H} {type : TypeInfo}
    (given : frame.inputs[place]? = some v) (typed : v.Has type) (name : String) :
    (input name place type).Sound frame (.ok v) where
  gives := by
    simp only [input, given]
    exact Solve.gives_pure v
  typed w h := by
    cases h
    exact typed

theorem Sound.within {compiled : Compiled H} {frame : Frame H} {r : Except Failure (Value H)}
    (h : compiled.Sound frame r) (text : String) :
    (compiled.within text).Sound frame (r.mapError (Failure.within text)) where
  gives := h.gives.mapFailure _
  typed v hv := h.typed v (ok_of_mapError hv)

-- Code that goes on with the value of its operand.
theorem Sound.andThen {operand : Compiled H} {frame : Frame H} {r : Except Failure (Value H)}
    (h : operand.Sound frame r) {f : Value H → Solve H (Value H)}
    {g : Value H → Except Failure (Value H)} {type : TypeInfo}
    (same : ∀ v, v.Has operand.type → (f v).Gives frame.env.types (g v))
    (typed : ∀ v, v.Has operand.type → ∀ w, g v = .ok w → w.Has type) {code : Code H}
    (runs : code frame = operand.code frame >>= f) :
    (⟨code, type⟩ : Compiled H).Sound frame (r >>= g) where
  gives := by
    show (code frame).Gives _ _
    rw [runs]
    exact h.gives.bind fun v hv => same v (h.typed v hv)
  typed w hw := by
    obtain ⟨v, hv, hw⟩ := ok_of_bind hw
    exact typed v (h.typed v hv) w hw

-- Code that goes on with the values of two operands, the left one first.
theorem Sound.andThen₂ {left right : Compiled H} {frame : Frame H}
    {r s : Except Failure (Value H)} (hl : left.Sound frame r) (hr : right.Sound frame s)
    {f g : Value H → Value H → Except Failure (Value H)} {type : TypeInfo}
    (same : ∀ x y, x.Has left.type → y.Has right.type → f x y = g x y)
    (typed : ∀ x y, x.Has left.type → y.Has right.type → ∀ w, g x y = .ok w → w.Has type)
    {code : Code H}
    (runs : code frame = do
      let x ← left.code frame
      let y ← right.code frame
      Solve.ofExcept (f x y)) :
    (⟨code, type⟩ : Compiled H).Sound frame (do
      let x ← r
      let y ← s
      g x y) where
  gives := by
    show (code frame).Gives _ _
    rw [runs]
    refine hl.gives.bind fun x hx => ?_
    refine hr.gives.bind fun y hy => ?_
    rw [same x y (hl.typed x hx) (hr.typed y hy)]
    exact Solve.gives_ofExcept _
  typed w hw := by
    obtain ⟨x, hx, hw⟩ := ok_of_bind hw
    obtain ⟨y, hy, hw⟩ := ok_of_bind hw
    exact typed x y (hl.typed x hx) (hr.typed y hy) w hw

end Compiled

/-! ## The rules of the environment for known types -/

namespace Environment

variable {env : Environment H}

theorem negate_of_typeInfo {v : Value H} {type : TypeInfo} (h : v.typeInfo = type)
    (other : type ≠ .number) {f : Unary H} (declared : env.types.negation? type = some f) :
    env.negate v = f v := by
  subst h
  cases v with
  | number x => exact absurd rfl other
  | _ => simp only [negate, declared]

-- Values that are not both numbers are combined by the plan for their types.
theorem binary_of_plan? {op : Operation} {x y : Value H} {plan : Plan H}
    (found : env.types.plan? op x.typeInfo y.typeInfo = some plan)
    (other : ¬(x.typeInfo = .number ∧ y.typeInfo = .number)) :
    env.binary op x y = plan.apply x y := by
  unfold binary
  cases x with
  | number a =>
    cases y with
    | number b => exact absurd ⟨rfl, rfl⟩ other
    | _ => simp only [found]
  | _ => simp only [found]

-- Numbers are combined natively.
theorem binary_numbers {op : Operation} {a b z : Float} (h : op.onNumbers? a b = some z) :
    env.binary op (.number a) (.number b) = .ok (.number z) := by
  simp only [binary, h]

end Environment

/-! ## One lemma for each operator -/

namespace CompilerInput

variable {c : CompilerInput H} {inputs : List (Value H)} {r s : Except Failure (Value H)}

theorem sound_negateCode {operand compiled : Compiled H}
    (keeps : operand.type = .number ∨ c.env.types.KeepsNegated operand.type)
    (built : c.negateCode operand = .ok compiled) (h : operand.Sound ⟨c.env, inputs⟩ r) :
    compiled.Sound ⟨c.env, inputs⟩ (r >>= c.env.negate) := by
  -- the rule of the environment, under a type that is kept
  have dynamic (kept : ∀ v, v.Has operand.type → ∀ w, c.env.negate v = .ok w →
      w.Has operand.type) :
      (⟨fun frame => do
        let v ← operand.code frame
        Solve.ofExcept (frame.env.negate v), operand.type⟩ : Compiled H).Sound
          ⟨c.env, inputs⟩ (r >>= c.env.negate) :=
    h.andThen (fun v _ => Solve.gives_ofExcept _) kept rfl
  unfold negateCode at built
  split at built
  case h_1 number =>
    cases built
    refine dynamic fun v hv w hw => ?_
    rw [number] at hv ⊢
    obtain ⟨x, rfl⟩ := Value.eq_number_of_typeInfo (Value.typeInfo_of_has hv rfl)
    cases hw
    exact Value.has_number _
  case h_2 any =>
    cases built
    refine dynamic fun v hv w hw => ?_
    rw [any]
    exact Value.has_any w
  case h_3 type notNumber notAny =>
    split at built
    case h_2 => cases built
    case h_1 f declared =>
      cases built
      have known : operand.type.isAny = false := by
        rw [TypeInfo.isAny, beq_eq_false_iff_ne]
        exact notAny
      have same (v : Value H) (hv : v.Has operand.type) : c.env.negate v = f v :=
        Environment.negate_of_typeInfo (Value.typeInfo_of_has hv known) notNumber declared
      refine h.andThen (fun v hv => ?_) (fun v hv w hw => ?_) rfl
      · rw [same v hv]
        exact Solve.gives_ofExcept _
      · rw [same v hv] at hw
        exact keeps.resolve_left notNumber f declared v w hw

theorem sound_binaryCode (declared : c.env.Typed) {op : Operation}
    (arithmetic : op.isArithmetic = true ∨ op = .power) {left right compiled : Compiled H}
    (built : c.binaryCode op left right = .ok compiled)
    (hl : left.Sound ⟨c.env, inputs⟩ r) (hr : right.Sound ⟨c.env, inputs⟩ s) :
    compiled.Sound ⟨c.env, inputs⟩ (do
      let x ← r
      let y ← s
      c.env.binary op x y) := by
  unfold binaryCode at built
  dsimp only at built
  split at built
  case isTrue any =>
    cases built
    exact hl.andThen₂ hr (fun _ _ _ _ => rfl) (fun _ _ _ _ w _ => Value.has_any w) rfl
  case isFalse known =>
    simp only [Bool.or_eq_true, not_or, Bool.not_eq_true] at known
    have types (x y : Value H) (hx : x.Has left.type) (hy : y.Has right.type) :
        x.typeInfo = left.type ∧ y.typeInfo = right.type :=
      ⟨Value.typeInfo_of_has hx known.1, Value.typeInfo_of_has hy known.2⟩
    split at built
    case h_1 => cases built
    case h_2 plan found =>
      split at built
      case isTrue native =>
        cases built
        simp only [Bool.and_eq_true, Bool.not_eq_true'] at native
        obtain ⟨numberL, numberR⟩ := TypeRegistry.plan?_native found native.1 native.2
        have numbers (x y : Value H) (hx : x.Has left.type) (hy : y.Has right.type) :
            ∃ a b z, x = .number a ∧ y = .number b ∧ op.onNumbers? a b = some z := by
          obtain ⟨tx, ty⟩ := types x y hx hy
          obtain ⟨a, rfl⟩ := Value.eq_number_of_typeInfo (tx.trans numberL)
          obtain ⟨b, rfl⟩ := Value.eq_number_of_typeInfo (ty.trans numberR)
          obtain ⟨z, hz⟩ := Operation.onNumbers?_isSome arithmetic a b
          exact ⟨a, b, z, rfl, rfl, hz⟩
        refine hl.andThen₂ hr (fun x y hx hy => ?_) (fun x y hx hy w hw => ?_) rfl
        · obtain ⟨a, b, z, rfl, rfl, hz⟩ := numbers x y hx hy
          rw [Environment.binary_numbers hz]
          simp only [hz]
        · obtain ⟨a, b, z, rfl, rfl, hz⟩ := numbers x y hx hy
          rw [Environment.binary_numbers hz] at hw
          cases hw
          exact Value.has_number z
      case isFalse converted =>
        cases built
        have same (x y : Value H) (hx : x.Has left.type) (hy : y.Has right.type) :
            c.env.binary op x y = plan.apply x y := by
          obtain ⟨tx, ty⟩ := types x y hx hy
          refine Environment.binary_of_plan? ?_ ?_
          · rw [tx, ty]
            exact found
          -- two numbers have the native plan, which converts nothing
          · rintro ⟨nx, ny⟩
            rw [← tx, ← ty, nx, ny] at found
            cases found
            exact converted rfl
        refine hl.andThen₂ hr (fun x y hx hy => (same x y hx hy).symm)
          (fun x y hx hy w hw => ?_) rfl
        rw [same x y hx hy] at hw
        exact declared.types.plan? found hw

theorem sound_indexCode {owner key compiled : Compiled H}
    (built : indexCode owner key = .ok compiled)
    (ho : owner.Sound ⟨c.env, inputs⟩ r) (hk : key.Sound ⟨c.env, inputs⟩ s) :
    compiled.Sound ⟨c.env, inputs⟩ (r >>= fun owner => s >>= c.env.index owner) := by
  unfold indexCode at built
  dsimp only at built
  split at built
  case h_7 =>
    cases built
    exact ho.andThen₂ hk (fun _ _ _ _ => rfl) (fun _ _ _ _ w _ => Value.has_any w) rfl
  all_goals cases built

-- What a called transform returns is of its normalized type.
theorem has_call (declared : c.env.Typed) {name : String} {overloads : List (Transform H)}
    (known : c.env.functions.overloads? name = some overloads) {t : Transform H}
    (listed : t ∈ overloads) {v w : Value H} (hw : c.env.call t v = .ok w) :
    w.Has (Compiled.normalizedType t.output) := by
  obtain ⟨u, hu, rfl⟩ := ok_of_map hw
  exact Environment.has_normalize (declared.functions name overloads known t listed _ u hu)

theorem sound_transformCode (declared : c.env.Typed) {name : String}
    {argument compiled : Compiled H} (built : c.transformCode name argument = .ok compiled)
    (h : argument.Sound ⟨c.env, inputs⟩ r) :
    compiled.Sound ⟨c.env, inputs⟩ (r >>= c.env.transform name) := by
  unfold transformCode at built
  split at built
  case h_1 => cases built
  case h_2 overloads known =>
    have dispatched (v : Value H) :
        c.env.transform name v = c.env.dispatch name overloads v := by
      simp only [Environment.transform, known]
    split at built
    case isTrue any =>
      cases built
      refine h.andThen (fun v _ => ?_) (fun _ _ w _ => Value.has_any w) rfl
      rw [dispatched]
      exact Solve.gives_ofExcept _
    case isFalse typed =>
      split at built
      case h_1 => cases built
      case h_2 t selected =>
        cases built
        have same (v : Value H) (hv : v.Has argument.type) :
            c.env.transform name v = c.env.call t v := by
          have type := Value.typeInfo_of_has hv (Bool.not_eq_true _ ▸ typed)
          rw [dispatched, Environment.dispatch, type, selected]
        refine h.andThen (fun v hv => ?_) (fun v hv w hw => ?_) rfl
        · rw [same v hv]
          exact Solve.gives_ofExcept _
        · rw [same v hv] at hw
          exact has_call declared known (Transform.mem_of_select? selected) hw

-- The member is found when the code is built; values of the owner's type have no other.
theorem ensures_propertyCode (declared : c.env.Typed) (owner : Compiled H) (name : String) :
    (c.propertyCode owner name).Ensures c.env.types fun compiled =>
      ∀ inputs r, owner.Sound ⟨c.env, inputs⟩ r →
        compiled.Sound ⟨c.env, inputs⟩ (r >>= fun v => c.env.propertyAfresh v name) := by
  unfold propertyCode
  split
  case isTrue any =>
    refine (Solve.gives_pure _).ensures fun compiled built inputs r h => ?_
    cases built
    exact h.andThen (fun v _ => c.env.property_gives v name) (fun _ _ w _ => Value.has_any w) rfl
  case isFalse known =>
    refine ((c.env.member_gives owner.type name).ensures fun _ h => h).bind fun result found => ?_
    cases result with
    | error cause => exact (Solve.gives_throw _).ensures fun _ h => by cases h
    | ok m =>
      refine (Solve.gives_pure _).ensures fun compiled built inputs r h => ?_
      cases built
      have resolved := MemberLookup.found_of_toResult (Except.ok.inj found)
      have same (v : Value H) (hv : v.Has owner.type) :
          c.env.propertyAfresh v name = (m.get v).map c.env.normalize := by
        have type := Value.typeInfo_of_has hv (Bool.not_eq_true _ ▸ known)
        rw [Environment.propertyAfresh, type, resolved, MemberLookup.toResult]
      refine h.andThen (fun v hv => ?_) (fun v hv w hw => ?_) rfl
      · rw [same v hv]
        exact Solve.gives_ofExcept _
      · rw [same v hv] at hw
        obtain ⟨u, hu, rfl⟩ := ok_of_map hw
        exact Environment.has_normalize (declared.types.resolve resolved hu)

end CompilerInput

end FormulaLang
