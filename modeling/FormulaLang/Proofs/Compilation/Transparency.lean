import FormulaLang.Formula
import FormulaLang.Proofs.Cache.Transparency

/-!
Compiling is transparent, and so is running what has been compiled, in whatever environment it is
run: compiled code reads no cache but that of its frame.  Nothing is asked of the declarations of
the host application.
-/

namespace FormulaLang

variable {H : Type} [HostObject H]

namespace Compiled

/-- Code that is transparent in every frame. -/
def Transparent (compiled : Compiled H) : Prop :=
  ∀ frame, (compiled.code frame).Transparent frame.env.types

theorem transparent_constant (v : Value H) : (constant v).Transparent :=
  fun _ => Solve.transparent_ofExcept (.ok v)

theorem transparent_input (name : String) (place : Nat) (type : TypeInfo) :
    (input name place type : Compiled H).Transparent := by
  intro frame
  simp only [input]
  cases frame.inputs[place]? with
  | some v => exact Solve.transparent_ofExcept (.ok v)
  | none => exact Solve.transparent_throw _

theorem Transparent.within {compiled : Compiled H} (h : compiled.Transparent) (text : String) :
    (compiled.within text).Transparent :=
  fun frame => (h frame).mapFailure _

-- Code that goes on with the value of transparent code.
theorem Transparent.andThen {operand : Compiled H} (h : operand.Transparent)
    {f : Frame H → Value H → Solve H (Value H)}
    (hf : ∀ frame v, (f frame v).Transparent frame.env.types) (type : TypeInfo) :
    (⟨fun frame => operand.code frame >>= f frame, type⟩ : Compiled H).Transparent :=
  fun frame => (h frame).bind (hf frame)

-- Code that goes on with two values and then uses no cache.
theorem Transparent.andThen₂ {left right : Compiled H} (hl : left.Transparent)
    (hr : right.Transparent) (f : Frame H → Value H → Value H → Except Failure (Value H))
    (type : TypeInfo) :
    (⟨fun frame => do
      let x ← left.code frame
      let y ← right.code frame
      Solve.ofExcept (f frame x y), type⟩ : Compiled H).Transparent := by
  intro frame
  refine (hl frame).bind fun x => ?_
  exact (hr frame).bind fun y => Solve.transparent_ofExcept _

end Compiled

namespace CompilerInput

variable {c : CompilerInput H}

theorem transparent_variableCode {name : String} {compiled : Compiled H}
    (built : c.variableCode name = .ok compiled) : compiled.Transparent := by
  unfold variableCode at built
  split at built
  case h_2 => cases built
  case h_1 =>
    split at built
    case h_1 v _ =>
      cases built
      exact Compiled.transparent_constant v
    case h_2 =>
      cases built
      exact Compiled.transparent_input _ _ _

theorem transparent_negateCode {operand compiled : Compiled H} (h : operand.Transparent)
    (built : c.negateCode operand = .ok compiled) : compiled.Transparent := by
  unfold negateCode at built
  split at built
  case h_3 =>
    split at built
    case h_2 => cases built
    case h_1 f _ =>
      cases built
      exact h.andThen (fun _ v => Solve.transparent_ofExcept (f v)) _
  all_goals
    cases built
    exact h.andThen (fun frame v => Solve.transparent_ofExcept (frame.env.negate v)) _

theorem transparent_binaryCode {op : Operation} {left right compiled : Compiled H}
    (hl : left.Transparent) (hr : right.Transparent)
    (built : c.binaryCode op left right = .ok compiled) : compiled.Transparent := by
  unfold binaryCode at built
  dsimp only at built
  split at built
  case isTrue =>
    cases built
    exact hl.andThen₂ hr _ _
  case isFalse =>
    split at built
    case h_1 => cases built
    case h_2 =>
      split at built
      all_goals
        cases built
        exact hl.andThen₂ hr _ _

theorem transparent_indexCode {owner key compiled : Compiled H} (ho : owner.Transparent)
    (hk : key.Transparent) (built : indexCode owner key = .ok compiled) :
    compiled.Transparent := by
  unfold indexCode at built
  dsimp only at built
  split at built
  case h_7 =>
    cases built
    exact ho.andThen₂ hk _ _
  all_goals cases built

theorem transparent_transformCode {name : String} {argument compiled : Compiled H}
    (h : argument.Transparent) (built : c.transformCode name argument = .ok compiled) :
    compiled.Transparent := by
  unfold transformCode at built
  split at built
  case h_1 => cases built
  case h_2 =>
    split at built
    case isTrue =>
      cases built
      exact h.andThen (fun _ _ => Solve.transparent_ofExcept _) _
    case isFalse =>
      split at built
      case h_1 => cases built
      case h_2 =>
        cases built
        exact h.andThen (fun _ _ => Solve.transparent_ofExcept _) _

theorem transparent_propertyCode {owner : Compiled H} (h : owner.Transparent) (name : String) :
    (c.propertyCode owner name).Ensures c.env.types Compiled.Transparent := by
  unfold propertyCode
  split
  case isTrue =>
    refine (Solve.gives_pure _).ensures fun compiled built => ?_
    cases built
    exact h.andThen (fun frame v => ⟨_, frame.env.property_gives v name⟩) _
  case isFalse =>
    refine ((c.env.member_gives owner.type name).ensures fun _ h => h).bind fun result _ => ?_
    cases result with
    | error cause => exact (Solve.gives_throw _).ensures fun _ h => by cases h
    | ok m =>
      refine (Solve.gives_pure _).ensures fun compiled built => ?_
      cases built
      exact h.andThen (fun _ _ => Solve.transparent_ofExcept _) _

-- Whichever member is found, it is the one that every coherent cache finds.
theorem transparent_lookup (owner : Compiled H) (name : String) :
    (c.propertyCode owner name).Transparent c.env.types := by
  unfold propertyCode
  split
  case isTrue => exact Solve.transparent_ofExcept (.ok _)
  case isFalse =>
    refine Solve.Transparent.bind ⟨_, c.env.member_gives owner.type name⟩ fun result => ?_
    cases result with
    | error cause => exact Solve.transparent_throw _
    | ok m => exact Solve.transparent_ofExcept (.ok _)

-- What a formula is compiled against is the environment at hand.
theorem env_of_prepare {env : Environment H} {s : Specification} {initial : List (Value H)}
    (prepared : prepare env s initial = .ok c) : c.env = env := by
  unfold prepare at prepared
  split at prepared
  case isTrue => cases prepared
  case isFalse =>
    obtain ⟨bindings, -, rfl⟩ := ok_of_map prepared
    rfl

theorem specification_of_prepare {env : Environment H} {s : Specification}
    {initial : List (Value H)} (prepared : prepare env s initial = .ok c) :
    c.specification = s := by
  unfold prepare at prepared
  split at prepared
  case isTrue => cases prepared
  case isFalse =>
    obtain ⟨bindings, -, rfl⟩ := ok_of_map prepared
    rfl

/-- What building keeps: it holds of constants and inputs, and each operator passes it on from its
operands to the code that it is compiled to. -/
structure Keeps (c : CompilerInput H) (P : Compiled H → Prop) : Prop where
  constant : ∀ v, P (.constant v)
  variableCode : ∀ {name compiled}, c.variableCode name = .ok compiled → P compiled
  within : ∀ {compiled} (text : String), P compiled → P (compiled.within text)
  negateCode : ∀ {operand compiled}, P operand → c.negateCode operand = .ok compiled → P compiled
  binaryCode : ∀ {op left right compiled}, P left → P right →
    c.binaryCode op left right = .ok compiled → P compiled
  propertyCode : ∀ {owner} (name : String), P owner →
    (c.propertyCode owner name).Ensures c.env.types P
  indexCode : ∀ {owner key compiled}, P owner → P key → indexCode owner key = .ok compiled →
    P compiled
  transformCode : ∀ {name argument compiled}, P argument →
    c.transformCode name argument = .ok compiled → P compiled

namespace Keeps

variable {P : Compiled H → Prop}

theorem ensures_within (keeps : c.Keeps P) {m : Solve H (Compiled H)} (h : m.Ensures c.env.types P)
    (text : String) :
    Solve.Ensures c.env.types (do
      let compiled ← m
      return compiled.within text) P := by
  refine h.bind fun compiled kept => ?_
  refine (Solve.gives_pure _).ensures fun _ built => ?_
  cases built
  exact keeps.within text kept

theorem ensures_constant (keeps : c.Keeps P) (v : Value H) :
    (pure (.constant v) : Solve H (Compiled H)).Ensures c.env.types P := by
  refine (Solve.gives_pure _).ensures fun _ built => ?_
  cases built
  exact keeps.constant v

theorem ensures_index (keeps : c.Keeps P) {owner key : Solve H (Compiled H)}
    (ho : owner.Ensures c.env.types P) (hk : key.Ensures c.env.types P) (text : String) :
    Solve.Ensures c.env.types (do
      let owner ← owner
      let key ← key
      let compiled ← Solve.ofExcept (CompilerInput.indexCode owner key)
      return compiled.within text) P := by
  refine ho.bind fun owner kept => hk.bind fun key kept' => keeps.ensures_within ?_ text
  exact (Solve.gives_ofExcept _).ensures fun _ built => keeps.indexCode kept kept' built

end Keeps

theorem keeps_transparent (c : CompilerInput H) : c.Keeps Compiled.Transparent where
  constant := Compiled.transparent_constant
  variableCode := transparent_variableCode
  within text h := h.within text
  negateCode := transparent_negateCode
  binaryCode := transparent_binaryCode
  propertyCode name h := transparent_propertyCode h name
  indexCode := transparent_indexCode
  transformCode := transparent_transformCode

end CompilerInput

namespace Term

open CompilerInput

/-- What building keeps holds of all code that compiling yields, and the cache is kept coherent. -/
theorem compile_keeps {c : CompilerInput H} {P : Compiled H → Prop} (keeps : c.Keeps P) (t : Term) :
    (t.compile c).Ensures c.env.types P := by
  induction t with
  | absent => exact (Solve.gives_throw _).ensures fun _ h => by cases h
  | node token left right hl hr =>
    cases token with
    | number x =>
      rw [compile]
      exact (keeps.ensures_constant _).mapFailure _
    | name text | group raw | magnitude raw =>
      rw [compile]
      exact ((Solve.gives_throw _).ensures fun _ h => by cases h).mapFailure _
    | var name =>
      rw [compile]
      exact ((Solve.gives_ofExcept _).ensures fun _ => keeps.variableCode).mapFailure _
    | operator op =>
      cases op with
      | negate =>
        rw [compile]
        refine (hr.bind fun operand kept => keeps.ensures_within ?_ _).mapFailure _
        exact (Solve.gives_ofExcept _).ensures fun _ => keeps.negateCode kept
      | property =>
        rw [compile]
        refine Solve.Ensures.mapFailure ?_ _
        refine hl.bind fun owner kept => ?_
        refine ((Solve.gives_ofExcept _).ensures fun _ h => h).bind fun name _ => ?_
        exact keeps.ensures_within (keeps.propertyCode name kept) _
      | index =>
        rw [compile]
        refine Solve.Ensures.mapFailure ?_ _
        -- a name on the right is a key, and everything else is compiled
        split
        · exact keeps.ensures_index hl (keeps.ensures_constant _) _
        · exact keeps.ensures_index hl hr _
      | transform =>
        rw [compile]
        refine Solve.Ensures.mapFailure ?_ _
        refine ((Solve.gives_ofExcept _).ensures fun _ h => h).bind fun name _ => ?_
        refine hr.bind fun argument kept => keeps.ensures_within ?_ _
        exact (Solve.gives_ofExcept _).ensures fun _ => keeps.transformCode kept
      | _ =>
        refine Solve.Ensures.mapFailure ?_ _
        refine hl.bind fun x hx => hr.bind fun y hy => keeps.ensures_within ?_ _
        exact (Solve.gives_ofExcept _).ensures fun _ => keeps.binaryCode hx hy

-- The code itself does not depend on the cache either: looking up a member is transparent.
theorem transparent_compile (c : CompilerInput H) (t : Term) :
    (t.compile c).Transparent c.env.types := by
  induction t with
  | absent => exact Solve.transparent_throw _
  | node token left right hl hr =>
    have within {m : Solve H (Compiled H)} (h : m.Transparent c.env.types) (text : String) :
        (do
          let compiled ← m
          return compiled.within text : Solve H (Compiled H)).Transparent c.env.types :=
      h.bind fun compiled => Solve.transparent_ofExcept (.ok (compiled.within text))
    cases token with
    | number x =>
      rw [compile]
      exact (Solve.transparent_ofExcept (.ok _)).mapFailure _
    | name text | group raw | magnitude raw =>
      rw [compile]
      exact (Solve.transparent_throw _).mapFailure _
    | var name =>
      rw [compile]
      exact (Solve.transparent_ofExcept _).mapFailure _
    | operator op =>
      cases op with
      | negate =>
        rw [compile]
        exact (hr.bind fun operand => within (Solve.transparent_ofExcept _) _).mapFailure _
      | property =>
        rw [compile]
        refine Solve.Transparent.mapFailure ?_ _
        refine hl.bind fun owner => (Solve.transparent_ofExcept _).bind fun name => ?_
        exact within (transparent_lookup owner name) _
      | index =>
        rw [compile]
        refine Solve.Transparent.mapFailure ?_ _
        have indexed {key : Solve H (Compiled H)} (h : key.Transparent c.env.types)
            (text : String) : (do
              let owner ← left.compile c
              let key ← key
              let compiled ← Solve.ofExcept (indexCode owner key)
              return compiled.within text : Solve H (Compiled H)).Transparent c.env.types :=
          hl.bind fun owner => h.bind fun key => within (Solve.transparent_ofExcept _) text
        split
        · exact indexed (Solve.transparent_ofExcept (.ok _)) _
        · exact indexed hr _
      | transform =>
        rw [compile]
        refine Solve.Transparent.mapFailure ?_ _
        refine (Solve.transparent_ofExcept _).bind fun name => hr.bind fun argument => ?_
        exact within (Solve.transparent_ofExcept _) _
      | _ =>
        refine Solve.Transparent.mapFailure ?_ _
        exact hl.bind fun x => hr.bind fun y => within (Solve.transparent_ofExcept _) _

end Term

namespace Formula

-- Every coherent cache leads to the same compiled formula, or to the same failure.
theorem transparent_compile (env : Environment H) (f : Formula) (initial : List (Value H)) :
    (f.compile env initial).Transparent env.types := by
  refine Solve.Gives.bind_transparent (Solve.gives_ofExcept _) fun c prepared => ?_
  rw [← CompilerInput.env_of_prepare prepared]
  refine (f.term.transparent_compile c).bind fun compiled => ?_
  exact Solve.transparent_ofExcept (.ok _)

/-- A compiled formula is transparent in every environment. -/
theorem compile_transparent (env : Environment H) (f : Formula) (initial : List (Value H)) :
    (f.compile env initial).Ensures env.types fun fast =>
      ∀ (env' : Environment H) (inputs : List (Value H)),
        (fast.solve env' inputs).Transparent env'.types := by
  refine ((Solve.gives_ofExcept _).ensures fun _ h => h).bind fun c prepared => ?_
  rw [← CompilerInput.env_of_prepare prepared]
  refine (f.term.compile_keeps c.keeps_transparent).bind fun compiled transparent => ?_
  refine (Solve.gives_pure _).ensures fun fast built env' inputs => ?_
  cases built
  refine (Solve.transparent_ofExcept _).bind fun bindings => ?_
  refine ((transparent ⟨env', bindings.map Prod.snd⟩).mapFailure _).bind fun v => ?_
  exact Solve.transparent_ofExcept (.ok _)

end Formula

end FormulaLang
