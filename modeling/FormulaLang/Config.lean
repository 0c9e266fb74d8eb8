/-!
Settings of a context: how many types the member cache serves, and whether names of types may be
deduced.
-/

namespace FormulaLang

/-- Settings of the member cache. -/
structure CacheConfig where
  /-- The number of types whose members are kept. -/
  capacity : Nat
  enabled : Bool
deriving DecidableEq, Repr

namespace CacheConfig

def standard : CacheConfig := ⟨100, true⟩

/-- For work on many host types. -/
def highPerformance : CacheConfig := ⟨1024, true⟩

/-- For little memory. -/
def lowMemory : CacheConfig := ⟨16, true⟩

/-- So small that types push each other out. -/
def testing : CacheConfig := ⟨2, true⟩

def disabled : CacheConfig := ⟨0, false⟩

def ofName? : String → Option CacheConfig
  | "default" => some standard
  | "high_performance" => some highPerformance
  | "low_memory" => some lowMemory
  | "testing" => some testing
  | "disabled" => some disabled
  | _ => none

/-- Whether members are kept at all. -/
def isActive (c : CacheConfig) : Bool :=
  c.enabled && 0 < c.capacity

end CacheConfig

/-- Settings of a context. -/
structure Config where
  cache : CacheConfig
  /-- Whether a name that is no alias may be that of a described type. -/
  typeDeduction : Bool
deriving DecidableEq, Repr

namespace Config

def standard : Config := ⟨.standard, true⟩

/-- Only aliases name types. -/
def strict : Config := { standard with typeDeduction := false }

/-- A cache so small that types push each other out. -/
def testing : Config := { standard with cache := .testing }

def ofName? : String → Option Config
  | "default" => some standard
  | "strict" => some strict
  | "testing" => some testing
  | _ => none

def withCache (c : Config) (cache : CacheConfig) : Config :=
  { c with cache }

end Config

namespace CacheConfig

def summary (c : CacheConfig) : String :=
  "CacheConfig \x7b capacity: " ++ toString c.capacity ++ ", enabled: " ++ toString c.enabled
    ++ " \x7d"

end CacheConfig

def Config.summary (c : Config) : String :=
  "FormulaConfig \x7b cache: " ++ c.cache.summary ++ ", type_deduction: "
    ++ toString c.typeDeduction ++ " \x7d"

end FormulaLang
