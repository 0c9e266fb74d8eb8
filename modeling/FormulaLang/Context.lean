import FormulaLang.Formula

/-!
A context: the registries, the member cache and the provider that formulas share, and the
operations of a host application on them.
-/

namespace FormulaLang

/-- Everything that formulas share. -/
structure Context (H : Type) where
  env : Environment H
  members : MemberCache H
  config : Config

namespace Context

variable {H : Type} [HostObject H]

/-- A context seeded by a provider. -/
def ofProvider (provider : Provider H) (config : Config) : Context H where
  env :=
    { types :=
        provider.types.foldl (fun r (d, aliases) => r.register d aliases)
          { TypeRegistry.builtins with deduction := config.typeDeduction }
      functions := provider.transforms.foldl FunctionRegistry.register .empty
      provider }
  members := .ofConfig config.cache
  config

/-- Runs a solve or a compilation; what the member cache learns is kept. -/
def run {α : Type} (c : Context H) (m : Environment H → Solve H α) :
    Except Failure α × Context H :=
  let (result, members) := (m c.env).run.run c.members
  (result, { c with members })

/-! ## Changes -/

def registerTransform (c : Context H) (t : Transform H) : Context H :=
  { c with env.functions := c.env.functions.register t }

/-- Removes a transform, or one of its overloads, and tells whether there was one. -/
def removeTransform (c : Context H) (name : String) (input? : Option TypeInfo) :
    Bool × Context H :=
  let (removed, functions) := c.env.functions.remove name input?
  (removed, { c with env.functions := functions })

/-- Adds or replaces a description of a type, and forgets the members known of it. -/
def registerType (c : Context H) (d : TypeDescriptor H) (aliases : List String) : Context H :=
  { c with
    env.types := c.env.types.register d aliases
    members := (c.members.evict d.type).2 }

/-- Lets aliases stand for a type. -/
def enableType (c : Context H) (type : TypeInfo) (aliases : List String) : Context H :=
  { c with env.types := c.env.types.enable type aliases }

/-- Drops the aliases of a type, and tells how many there were. -/
def disableType (c : Context H) (type : TypeInfo) : Nat × Context H :=
  let (removed, types) := c.env.types.disable type
  (removed, { c with env.types := types })

/-! ## Formulas -/

def parse (c : Context H) (source : String) : Except Failure Formula :=
  Formula.parse source c.env.types

/-- Composes declarations into the last source. -/
def compose (c : Context H) (sources : List String) : Except Failure Formula :=
  Formula.compose sources c.env.types

def solveSource (c : Context H) (source : String) (inputs : List (Value H)) :
    Except Failure (Value H) × Context H :=
  match c.parse source with
  | .ok f => c.run fun env => f.solve env inputs
  | .error e => (.error e, c)

def compileSource (c : Context H) (source : String) (initial : List (Value H)) :
    Except Failure (FastFormula H) × Context H :=
  match c.parse source with
  | .ok f => c.run fun env => f.compile env initial
  | .error e => (.error e, c)

def summary (c : Context H) : String :=
  "FormulaContext \x7b transforms: " ++ toString c.env.functions.size
    ++ ", members: " ++ c.members.summary ++ ", provider: " ++ c.env.provider.name
    ++ ", config: " ++ c.config.summary ++ " \x7d"

end Context

end FormulaLang
