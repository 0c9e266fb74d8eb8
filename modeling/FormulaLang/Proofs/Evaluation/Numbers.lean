import FormulaLang.Proofs.Context.Reachable

/-!
The numbers that values stand for.  A value without a declared type counts as the number that the
provider reads off it, or else as what a conversion makes of it; a value bound to a declared number
is converted if a conversion is declared, and only otherwise read by the provider.  The two agree on
a value unless it has both a number of its own and a conversion that makes something else of it.
-/

namespace FormulaLang

variable {H : Type} [HostObject H]

namespace Environment

/-- The conversion to a number that is declared for the type of a value. -/
def numericConversion? (env : Environment H) (v : Value H) : Option (Conversion H) :=
  env.types.conversion? v.typeInfo .number

/-- The number that a declared conversion makes of a value. -/
def converted? (env : Environment H) (v : Value H) : Option Float :=
  (env.numericConversion? v).bind fun c => (c.apply v).toOption.bind Value.number?

/-- A value that has a number of its own is not converted to anything else. -/
def ConvertsAlike (env : Environment H) (v : Value H) : Prop :=
  ∀ c x, env.numericConversion? v = some c → env.provider.toNumber? v = some x →
    c.apply v = .ok (.number x)

variable {env : Environment H} {v : Value H}

-- A conversion yields a number when its result is one.
omit [HostObject H] in
theorem number?_toOption {r : Except Failure (Value H)} {x : Float} :
    r.toOption.bind Value.number? = some x ↔ r = .ok (.number x) := by
  cases r with
  | error e => exact ⟨nofun, nofun⟩
  | ok w =>
    cases w with
    | number y => simp [Except.toOption, Value.number?]
    | _ => exact ⟨nofun, nofun⟩

theorem converted?_of_declared {c : Conversion H} (declared : env.numericConversion? v = some c)
    (x : Float) : env.converted? v = some x ↔ c.apply v = .ok (.number x) := by
  rw [converted?, declared, Option.bind_some]
  exact number?_toOption

/-- Without a declared type, the provider comes first. -/
theorem toNumber?_eq (env : Environment H) (v : Value H) :
    env.toNumber? v = (env.provider.toNumber? v).or (env.converted? v) := by
  unfold toNumber? converted? numericConversion?
  cases env.provider.toNumber? v with
  | some x => rfl
  | none =>
    cases env.types.conversion? v.typeInfo .number with
    | none => rfl
    | some c =>
      rw [Option.bind_some, Option.none_or]
      dsimp only
      cases c.apply v with
      | error e => rfl
      | ok w => rfl

-- Only a number is accepted as one.
theorem not_accepts_number (other : v.number? = none) :
    TypeInfo.number.accepts v.typeInfo = false := by
  cases v with
  | number x => cases other
  | _ => rfl

/-- With a number declared, a conversion comes first, whatever it makes of the value. -/
theorem bindInput_number (other : v.number? = none) :
    env.bindInput v .number =
      match env.numericConversion? v with
      | some c => c.apply v
      | none =>
          match env.provider.toNumber? v with
          | some x => .ok (.number x)
          | none => .error (.solving (.cannotConvert v.typeInfo .number)) := by
  have declared : TypeInfo.number.isAny = false := rfl
  simp only [bindInput, declared, convert, not_accepts_number other, Bool.false_eq_true, if_false,
    if_true]
  unfold numericConversion?
  cases found : env.types.conversion? v.typeInfo .number with
  | some c => rfl
  | none =>
    have unconverted : env.converted? v = none := by
      rw [converted?, numericConversion?, found]
      rfl
    have read : env.toNumber? v = env.provider.toNumber? v := by
      rw [toNumber?_eq, unconverted, Option.or_none]
    cases own : env.provider.toNumber? v with
    | none => simp only [read, own]
    | some x => simp only [read, own]

theorem bindInput_number_of_declared {c : Conversion H} (other : v.number? = none)
    (declared : env.numericConversion? v = some c) : env.bindInput v .number = c.apply v := by
  rw [bindInput_number other, declared]

theorem bindInput_number_of_undeclared (other : v.number? = none)
    (undeclared : env.numericConversion? v = none) (x : Float) :
    env.bindInput v .number = .ok (.number x) ↔ env.provider.toNumber? v = some x := by
  rw [bindInput_number other, undeclared]
  cases env.provider.toNumber? v with
  | none => exact ⟨nofun, nofun⟩
  | some y => simp

/-- A value that is no number counts as the number that the provider reads off it, or else as what a
conversion makes of it; it is bound to the number that a conversion makes of it, or, where none is
declared, to the one that the provider reads off it.  The two numbers are the same exactly where a
value with a number of its own is not converted to anything else. -/
theorem numbers_agree_iff (other : v.number? = none) :
    env.toNumber? v = (env.provider.toNumber? v).or (env.converted? v)
    ∧ (∀ x, env.bindInput v .number = .ok (.number x) ↔
        (if (env.numericConversion? v).isSome then env.converted? v
          else env.provider.toNumber? v) = some x)
    ∧ ((∀ x, env.bindInput v .number = .ok (.number x) ↔ env.toNumber? v = some x) ↔
        env.ConvertsAlike v) := by
  refine ⟨env.toNumber?_eq v, ?_⟩
  cases declared : env.numericConversion? v with
  | none =>
    have bound := bindInput_number_of_undeclared other declared
    have unconverted : env.converted? v = none := by
      rw [converted?, declared]
      rfl
    refine ⟨bound, fun _ c x found => ?_, fun _ x => ?_⟩
    · rw [declared] at found
      cases found
    · rw [bound, toNumber?_eq, unconverted, Option.or_none]
  | some c =>
    have bound (x : Float) :
        env.bindInput v .number = .ok (.number x) ↔ env.converted? v = some x := by
      rw [bindInput_number_of_declared other declared, converted?_of_declared declared]
    refine ⟨bound, fun agree c' x found read => ?_, fun alike x => ?_⟩
    · cases declared.symm.trans found
      rw [← converted?_of_declared declared, ← bound, agree, toNumber?_eq, read]
      rfl
    · rw [bound, toNumber?_eq]
      cases read : env.provider.toNumber? v with
      | none => rfl
      | some y =>
        rw [(converted?_of_declared declared y).mpr (alike c y declared read)]
        rfl

end Environment

/-! ## Prices -/

/-- A price, gross and net. -/
structure Price where
  gross : Float
  net : Float

instance : HostObject Price where
  typeName _ := "Price"
  shown _ := "a price"
  toNumber? p := some p.gross
  member? _ _ := none
  entry? _ _ := none
  identity p := p.gross.toBits.toNat

namespace Price

def type : TypeInfo := .host "Price"

def untaxed : Unary Price
  | .host p => .ok (.number p.net)
  | v => .error (.solving (.expectedHost v.typeInfo))

/-- The standard context with prices, which are converted to their net numbers. -/
def prices : Context Price :=
  (Context.ofProvider Provider.standard Config.standard).registerType
    ((TypeDescriptor.bare type).withConversion type .number untaxed) ["price"]

/-- The negated price, where its type is declared or not. -/
def refund (declared : TypeInfo) : Formula where
  specification := ⟨"refund", [("p", declared)], true, by simp⟩
  tree := Tree.empty.plant (.node (.operator .negate) .absent (.leaf (.var "p")))

theorem numbers_agree_iff_untaxed :
    (Value.host (⟨7, 7⟩ : Price)).number? = none ∧
      ∀ x, prices.env.bindInput (.host ⟨7, 7⟩) .number = .ok (.number x) ↔
        prices.env.toNumber? (.host ⟨7, 7⟩) = some x := by
  refine ⟨rfl, (Environment.numbers_agree_iff rfl).2.2.mpr fun c x declared read => ?_⟩
  cases declared
  cases read
  rfl

/-- A price with tax is bound to its net number where a number is declared, and counts as its gross
number where no type is: the same formula refunds less for a declared number. -/
theorem declared_number_is_net :
    prices.Reachable
    ∧ prices.env.toNumber? (.host ⟨7, 5⟩) = some 7
    ∧ prices.env.bindInput (.host ⟨7, 5⟩) .number = .ok (.number 5)
    ∧ (prices.run fun env => (refund .any).solve env [.host ⟨7, 5⟩]).1 = .ok (.number (-7))
    ∧ (prices.run fun env => (refund .number).solve env [.host ⟨7, 5⟩]).1 = .ok (.number (-5))
    ∧ ¬ ∀ x, prices.env.bindInput (.host ⟨7, 5⟩) .number = .ok (.number x) ↔
        prices.env.toNumber? (.host ⟨7, 5⟩) = some x := by
  have net : prices.env.bindInput (.host ⟨7, 5⟩) .number = .ok (.number 5) := rfl
  have gross : prices.env.toNumber? (.host ⟨7, 5⟩) = some 7 := rfl
  refine ⟨.registerType _ _ (.ofProvider _ _), gross, net, rfl, rfl, fun agree => ?_⟩
  have same := (agree 5).mp net
  rw [gross] at same
  exact absurd same (by decide)

end Price

end FormulaLang
