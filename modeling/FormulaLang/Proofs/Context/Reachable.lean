import FormulaLang.Context
import FormulaLang.Proofs.Compilation.PartialApplication
import FormulaLang.Proofs.Compilation.Transparency

/-!
The contexts that a host application can get to.  Whatever it does to a context, the member cache
stays coherent with the registered types.
-/

namespace FormulaLang

variable {H : Type} [HostObject H]

namespace Context

/-- What a host application does to a context, in any order: it changes the registries, uses and
empties the member cache, solves and compiles formulas, and solves what has been compiled. -/
inductive Reachable : Context H → Prop where
  | ofProvider (provider : Provider H) (config : Config) : Reachable (ofProvider provider config)
  | registerTransform {c : Context H} (t : Transform H) (h : Reachable c) :
      Reachable (c.registerTransform t)
  | removeTransform {c : Context H} (name : String) (input? : Option TypeInfo) (h : Reachable c) :
      Reachable (c.removeTransform name input?).2
  | registerType {c : Context H} (d : TypeDescriptor H) (aliases : List String)
      (h : Reachable c) : Reachable (c.registerType d aliases)
  | enableType {c : Context H} (type : TypeInfo) (aliases : List String) (h : Reachable c) :
      Reachable (c.enableType type aliases)
  | disableType {c : Context H} (type : TypeInfo) (h : Reachable c) :
      Reachable (c.disableType type).2
  | lookup {c : Context H} (owner : TypeInfo) (name : String) (h : Reachable c) :
      Reachable { c with members := (c.members.lookup c.env.types owner name).2 }
  | evict {c : Context H} (owner : TypeInfo) (h : Reachable c) :
      Reachable { c with members := (c.members.evict owner).2 }
  | clear {c : Context H} (h : Reachable c) :
      Reachable { c with members := c.members.clear }
  | solve {c : Context H} (f : Formula) (inputs : List (Value H)) (h : Reachable c) :
      Reachable (c.run fun env => f.solve env inputs).2
  | compile {c : Context H} (f : Formula) (initial : List (Value H)) (h : Reachable c) :
      Reachable (c.run fun env => f.compile env initial).2
  | solveCompiled {c compiler : Context H} {f : Formula} {initial : List (Value H)}
      {fast : FastFormula H} (inputs : List (Value H)) (h : Reachable c)
      (h' : Reachable compiler)
      (compiled : (compiler.run fun env => f.compile env initial).1 = .ok fast) :
      Reachable (c.run fun env => fast.solve env inputs).2

-- Every reachable context has a coherent member cache.
theorem Reachable.coherent {c : Context H} (h : c.Reachable) : c.members.Coherent c.env.types := by
  induction h with
  | ofProvider provider config => exact MemberCache.coherent_ofConfig _ _
  | registerTransform t h ih => exact ih
  | removeTransform name input? h ih => exact ih
  | registerType d aliases h ih => exact ih.register d aliases
  | enableType type aliases h ih => exact ih.of_descriptors rfl
  | disableType type h ih => exact ih.of_descriptors rfl
  | lookup owner name h ih => exact (ih.lookup owner name).2
  | evict owner h ih => exact ih.evict owner
  | clear h ih => exact MemberCache.Coherent.clear _ _
  | @solve c f inputs h ih =>
    have solved : (f.solve c.env inputs).Transparent c.env.types := ⟨_, f.solve_gives c.env inputs⟩
    exact solved.coherent ih
  | @compile c f initial h ih =>
    exact (f.compile_transparent c.env initial c.members ih).2
  | @solveCompiled c compiler f initial fast inputs h h' compiled ih ih' =>
    obtain ⟨transparent, -⟩ := f.compile_transparent compiler.env initial compiler.members ih'
    exact (transparent fast compiled c.env inputs).coherent ih

end Context

end FormulaLang
