import FormulaLang.Proofs.Context.Reachable

/-!
Sessions: a context together with the formulas that a host application has read and compiled in it.
Two sessions that differ in their member caches only stay so under every command, and answer every
command alike; in particular no answer tells a cached session from one that keeps no member.
-/

namespace FormulaLang

variable {H : Type}

/-- What a host application asks of a context and of the formulas it has read and compiled, which it
names by the order in which it came by them. -/
inductive Command (H : Type) where
  | registerTransform (t : Transform H)
  | removeTransform (name : String) (input? : Option TypeInfo)
  | registerType (d : TypeDescriptor H) (aliases : List String)
  | enableType (type : TypeInfo) (aliases : List String)
  | disableType (type : TypeInfo)
  /-- Looks a member up through the cache. -/
  | lookup (owner : TypeInfo) (name : String)
  | evict (owner : TypeInfo)
  | clear
  | parse (source : String)
  | compose (sources : List String)
  | solve (place : Nat) (inputs : List (Value H))
  | compile (place : Nat) (initial : List (Value H))
  | solveCompiled (place : Nat) (inputs : List (Value H))
  | solveSource (source : String) (inputs : List (Value H))
  | compileSource (source : String) (initial : List (Value H))

/-- What a host application is told.  What only the cache knows is no answer. -/
inductive Answer (H : Type) where
  | done
  /-- There is no formula of this number. -/
  | unknown
  | removed (found : Bool)
  | dropped (aliases : Nat)
  | member (lookup : MemberLookup H)
  | formula (result : Except Failure Formula)
  | value (result : Except Failure (Value H))
  | fast (result : Except Failure (FastFormula H))

/-- A context and the formulas that have been read and compiled in it. -/
structure Session (H : Type) where
  context : Context H
  formulas : List Formula
  compiled : List (FastFormula H)

namespace Session

variable [HostObject H]

/-- A new session over what a provider supplies. -/
def start (provider : Provider H) (config : Config) : Session H :=
  ⟨.ofProvider provider config, [], []⟩

/-- Keeps a formula that could be read. -/
def keep (s : Session H) (result : Except Failure Formula) : Session H :=
  match result with
  | .ok f => { s with formulas := s.formulas ++ [f] }
  | .error _ => s

/-- Keeps a formula that could be compiled. -/
def keepCompiled (s : Session H) (result : Except Failure (FastFormula H)) : Session H :=
  match result with
  | .ok fast => { s with compiled := s.compiled ++ [fast] }
  | .error _ => s

/-- Tells a value, and goes on in the context that is left. -/
def solved (s : Session H) (outcome : Except Failure (Value H) × Context H) :
    Answer H × Session H :=
  (.value outcome.1, { s with context := outcome.2 })

/-- Tells what was compiled, keeps it, and goes on in the context that is left. -/
def built (s : Session H) (outcome : Except Failure (FastFormula H) × Context H) :
    Answer H × Session H :=
  (.fast outcome.1, { s with context := outcome.2 }.keepCompiled outcome.1)

/-- Follows one command. -/
def step (s : Session H) : Command H → Answer H × Session H
  | .registerTransform t => (.done, { s with context := s.context.registerTransform t })
  | .removeTransform name input? =>
      let (found, context) := s.context.removeTransform name input?
      (.removed found, { s with context })
  | .registerType d aliases => (.done, { s with context := s.context.registerType d aliases })
  | .enableType type aliases => (.done, { s with context := s.context.enableType type aliases })
  | .disableType type =>
      let (count, context) := s.context.disableType type
      (.dropped count, { s with context })
  | .lookup owner name =>
      let (lookup, members) := s.context.members.lookup s.context.env.types owner name
      (.member lookup, { s with context.members := members })
  | .evict owner => (.done, { s with context.members := (s.context.members.evict owner).2 })
  | .clear => (.done, { s with context.members := s.context.members.clear })
  | .parse source => (.formula (s.context.parse source), s.keep (s.context.parse source))
  | .compose sources => (.formula (s.context.compose sources), s.keep (s.context.compose sources))
  | .solve place inputs =>
      match s.formulas[place]? with
      | some f => s.solved (s.context.run fun env => f.solve env inputs)
      | none => (.unknown, s)
  | .compile place initial =>
      match s.formulas[place]? with
      | some f => s.built (s.context.run fun env => f.compile env initial)
      | none => (.unknown, s)
  | .solveCompiled place inputs =>
      match s.compiled[place]? with
      | some fast => s.solved (s.context.run fun env => fast.solve env inputs)
      | none => (.unknown, s)
  | .solveSource source inputs => s.solved (s.context.solveSource source inputs)
  | .compileSource source initial => s.built (s.context.compileSource source initial)

/-- Follows commands one after the other, and tells the answers in their order. -/
def run (s : Session H) : List (Command H) → List (Answer H) × Session H
  | [] => ([], s)
  | command :: rest =>
      let (answer, s) := s.step command
      let (answers, s) := s.run rest
      (answer :: answers, s)

end Session

/-! ## Contexts that differ in their caches -/

namespace Context

variable [HostObject H]

/-- Two contexts share all but their member caches, and what either cache holds is what resolving
finds. -/
structure Alike (c c' : Context H) : Prop where
  env : c.env = c'.env
  coherent : c.members.Coherent c.env.types
  coherent' : c'.members.Coherent c'.env.types

variable {c c' : Context H}

-- A transparent run ends alike in both.
theorem Alike.run {α : Type} (h : c.Alike c') {m : Environment H → Solve H α}
    (transparent : (m c.env).Transparent c.env.types) :
    (c.run m).1 = (c'.run m).1 ∧ (c.run m).2.Alike (c'.run m).2 := by
  obtain ⟨r, gives⟩ := transparent
  have gives' : (m c'.env).Gives c'.env.types r := h.env ▸ gives
  obtain ⟨result, kept⟩ := gives c.members h.coherent
  obtain ⟨result', kept'⟩ := gives' c'.members h.coherent'
  exact ⟨result.trans result'.symm, h.env, kept, kept'⟩

theorem Alike.solve (h : c.Alike c') (f : Formula) (inputs : List (Value H)) :
    (c.run fun env => f.solve env inputs).1 = (c'.run fun env => f.solve env inputs).1 ∧
      (c.run fun env => f.solve env inputs).2.Alike (c'.run fun env => f.solve env inputs).2 :=
  h.run ⟨_, f.solve_gives c.env inputs⟩

theorem Alike.compile (h : c.Alike c') (f : Formula) (initial : List (Value H)) :
    (c.run fun env => f.compile env initial).1 = (c'.run fun env => f.compile env initial).1 ∧
      (c.run fun env => f.compile env initial).2.Alike
        (c'.run fun env => f.compile env initial).2 :=
  h.run (f.transparent_compile c.env initial)

end Context

namespace FastFormula

variable [HostObject H]

/-- Whether solving a compiled formula depends on no cache, in whatever environment. -/
def Transparent (fast : FastFormula H) : Prop :=
  ∀ (env : Environment H) (inputs : List (Value H)), (fast.solve env inputs).Transparent env.types

end FastFormula

namespace Context

variable [HostObject H] {c c' : Context H}

-- What is compiled in a context with a coherent cache is transparent.
theorem Alike.transparent_compiled (h : c.Alike c') {f : Formula} {initial : List (Value H)}
    {fast : FastFormula H} (compiled : (c.run fun env => f.compile env initial).1 = .ok fast) :
    fast.Transparent :=
  (f.compile_transparent c.env initial c.members h.coherent).1 fast compiled

end Context

/-! ## Sessions that differ in their caches -/

namespace Session

variable [HostObject H]

/-- Two sessions share all but their member caches. -/
structure Alike (s s' : Session H) : Prop where
  context : s.context.Alike s'.context
  formulas : s.formulas = s'.formulas
  compiled : s.compiled = s'.compiled
  transparent : ∀ fast ∈ s.compiled, fast.Transparent

variable {s s' : Session H}

theorem alike_start (provider : Provider H) (config config' : Config)
    (same : config.typeDeduction = config'.typeDeduction) :
    (start provider config).Alike (start provider config') where
  context := by
    refine ⟨?_, MemberCache.coherent_ofConfig _ _, MemberCache.coherent_ofConfig _ _⟩
    simp only [start, Context.ofProvider, same]
  formulas := rfl
  compiled := rfl
  transparent fast listed := absurd listed List.not_mem_nil

/-- Two sessions answer alike and go on alike. -/
def AnswerAlike (outcome outcome' : Answer H × Session H) : Prop :=
  outcome.1 = outcome'.1 ∧ outcome.2.Alike outcome'.2

-- Only the context changes, and the answer is the same.
theorem Alike.goOn (h : s.Alike s') (answer : Answer H) {c c' : Context H} (alike : c.Alike c') :
    AnswerAlike (answer, { s with context := c }) (answer, { s' with context := c' }) :=
  ⟨rfl, alike, h.formulas, h.compiled, h.transparent⟩

theorem Alike.keep (h : s.Alike s') (result : Except Failure Formula) :
    (s.keep result).Alike (s'.keep result) := by
  cases result with
  | error e => exact h
  | ok f =>
    refine ⟨h.context, ?_, h.compiled, h.transparent⟩
    exact congrArg (· ++ [f]) h.formulas

theorem Alike.keepCompiled (h : s.Alike s') {result : Except Failure (FastFormula H)}
    (transparent : ∀ fast, result = .ok fast → fast.Transparent) :
    (s.keepCompiled result).Alike (s'.keepCompiled result) := by
  cases result with
  | error e => exact h
  | ok fast =>
    refine ⟨h.context, h.formulas, ?_, fun other listed => ?_⟩
    · exact congrArg (· ++ [fast]) h.compiled
    · rcases List.mem_append.mp listed with before | new
      · exact h.transparent other before
      · rw [List.mem_singleton.mp new]
        exact transparent fast rfl

theorem Alike.solved (h : s.Alike s') {outcome outcome' : Except Failure (Value H) × Context H}
    (ends : outcome.1 = outcome'.1 ∧ outcome.2.Alike outcome'.2) :
    AnswerAlike (s.solved outcome) (s'.solved outcome') :=
  ⟨congrArg Answer.value ends.1, ends.2, h.formulas, h.compiled, h.transparent⟩

theorem Alike.built (h : s.Alike s')
    {outcome outcome' : Except Failure (FastFormula H) × Context H}
    (ends : outcome.1 = outcome'.1 ∧ outcome.2.Alike outcome'.2)
    (transparent : ∀ fast, outcome.1 = .ok fast → fast.Transparent) :
    AnswerAlike (s.built outcome) (s'.built outcome') := by
  obtain ⟨result, c⟩ := outcome
  obtain ⟨result', c'⟩ := outcome'
  obtain ⟨same, alike⟩ := ends
  cases same
  have left : Alike { s with context := c } { s' with context := c' } :=
    ⟨alike, h.formulas, h.compiled, h.transparent⟩
  exact ⟨rfl, left.keepCompiled transparent⟩

-- A formula is read alike, since reading depends on the types only.
theorem Alike.parse (h : s.Alike s') (source : String) :
    s.context.parse source = s'.context.parse source := by
  rw [Context.parse, Context.parse, h.context.env]

theorem Alike.compose (h : s.Alike s') (sources : List String) :
    s.context.compose sources = s'.context.compose sources := by
  rw [Context.compose, Context.compose, h.context.env]

theorem Alike.solveSource (h : s.Alike s') (source : String) (inputs : List (Value H)) :
    (s.context.solveSource source inputs).1 = (s'.context.solveSource source inputs).1 ∧
      (s.context.solveSource source inputs).2.Alike
        (s'.context.solveSource source inputs).2 := by
  unfold Context.solveSource
  rw [h.parse source]
  cases s'.context.parse source with
  | ok f => exact h.context.solve f inputs
  | error e => exact ⟨rfl, h.context⟩

theorem Alike.compileSource (h : s.Alike s') (source : String) (initial : List (Value H)) :
    (s.context.compileSource source initial).1 = (s'.context.compileSource source initial).1 ∧
      (s.context.compileSource source initial).2.Alike
        (s'.context.compileSource source initial).2 := by
  unfold Context.compileSource
  rw [h.parse source]
  cases s'.context.parse source with
  | ok f => exact h.context.compile f initial
  | error e => exact ⟨rfl, h.context⟩

theorem Alike.transparent_compileSource (h : s.Alike s') {source : String}
    {initial : List (Value H)} {fast : FastFormula H}
    (compiled : (s.context.compileSource source initial).1 = .ok fast) : fast.Transparent := by
  unfold Context.compileSource at compiled
  cases parsed : s.context.parse source with
  | ok f =>
    rw [parsed] at compiled
    exact h.context.transparent_compiled compiled
  | error e =>
    rw [parsed] at compiled
    cases compiled

/-- One command keeps sessions alike, and is answered alike. -/
theorem Alike.step (h : s.Alike s') (command : Command H) :
    AnswerAlike (s.step command) (s'.step command) := by
  have env := h.context.env
  have coherent := h.context.coherent
  have coherent' := h.context.coherent'
  cases command with
  | registerTransform t =>
    refine h.goOn .done ⟨?_, coherent, coherent'⟩
    simp only [Context.registerTransform, env]
  | removeTransform name input? =>
    have removed : (s.context.removeTransform name input?).1 =
        (s'.context.removeTransform name input?).1 := by
      simp only [Context.removeTransform, env]
    refine ⟨congrArg Answer.removed removed, ⟨?_, coherent, coherent'⟩, h.formulas, h.compiled,
      h.transparent⟩
    simp only [Session.step, Context.removeTransform, env]
  | registerType d aliases =>
    refine h.goOn .done ⟨?_, coherent.register d aliases, coherent'.register d aliases⟩
    simp only [Context.registerType, env]
  | enableType type aliases =>
    refine h.goOn .done ⟨?_, coherent.of_descriptors rfl, coherent'.of_descriptors rfl⟩
    simp only [Context.enableType, env]
  | disableType type =>
    have dropped : (s.context.disableType type).1 = (s'.context.disableType type).1 := by
      simp only [Context.disableType, env]
    refine ⟨congrArg Answer.dropped dropped,
      ⟨?_, coherent.of_descriptors rfl, coherent'.of_descriptors rfl⟩, h.formulas, h.compiled,
      h.transparent⟩
    simp only [Session.step, Context.disableType, env]
  | lookup owner name =>
    obtain ⟨found, kept⟩ := coherent.lookup owner name
    obtain ⟨found', kept'⟩ := coherent'.lookup owner name
    have same := found.trans ((congrArg (Member.resolve ·.types owner name) env).trans found'.symm)
    exact ⟨congrArg Answer.member same, ⟨env, kept, kept'⟩, h.formulas, h.compiled, h.transparent⟩
  | evict owner => exact h.goOn .done ⟨env, coherent.evict owner, coherent'.evict owner⟩
  | clear =>
    exact h.goOn .done ⟨env, MemberCache.Coherent.clear _ _, MemberCache.Coherent.clear _ _⟩
  | parse source =>
    have read := h.parse source
    simp only [AnswerAlike, Session.step, read, true_and]
    exact h.keep _
  | compose sources =>
    have read := h.compose sources
    simp only [AnswerAlike, Session.step, read, true_and]
    exact h.keep _
  | solve place inputs =>
    simp only [Session.step, h.formulas]
    cases s'.formulas[place]? with
    | some f => exact h.solved (h.context.solve f inputs)
    | none => exact ⟨rfl, h⟩
  | compile place initial =>
    simp only [Session.step, h.formulas]
    cases s'.formulas[place]? with
    | some f =>
      exact h.built (h.context.compile f initial) fun _ => h.context.transparent_compiled
    | none => exact ⟨rfl, h⟩
  | solveCompiled place inputs =>
    simp only [Session.step, ← h.compiled]
    cases known : s.compiled[place]? with
    | some fast =>
      have transparent := h.transparent fast (List.mem_of_getElem? known)
      exact h.solved (h.context.run (transparent s.context.env inputs))
    | none => exact ⟨rfl, h⟩
  | solveSource source inputs => exact h.solved (h.solveSource source inputs)
  | compileSource source initial =>
    exact h.built (h.compileSource source initial) fun _ => h.transparent_compileSource

theorem Alike.run (h : s.Alike s') (commands : List (Command H)) :
    (s.run commands).1 = (s'.run commands).1 ∧ (s.run commands).2.Alike (s'.run commands).2 := by
  induction commands generalizing s s' with
  | nil => exact ⟨rfl, h⟩
  | cons command rest ih =>
    obtain ⟨answer, alike⟩ := h.step command
    obtain ⟨answers, alike⟩ := ih alike
    exact ⟨congrArg₂ List.cons answer answers, alike⟩

/-- No answer of a session depends on its member cache: a session of any cache configuration
answers as one that keeps no member.  At its end, and so after each command, whatever the cache
holds is the member that resolving the name on the type finds. -/
theorem run_without_cache (provider : Provider H) (config : Config) (commands : List (Command H)) :
    ((start provider config).run commands).1 =
        ((start provider (config.withCache .disabled)).run commands).1 ∧
      ∀ owner name m,
        ((start provider config).run commands).2.context.members.held? owner name = some m →
        Member.resolve ((start provider config).run commands).2.context.env.types owner name =
          .found m := by
  obtain ⟨answers, alike⟩ :=
    (alike_start provider config (config.withCache .disabled) rfl).run commands
  exact ⟨answers, alike.context.coherent⟩

end Session

end FormulaLang
