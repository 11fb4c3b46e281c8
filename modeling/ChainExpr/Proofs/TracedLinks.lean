import ChainExpr.Proofs.Chronicles
import ChainExpr.Proofs.Portable
import ChainExpr.Proofs.Resolution

namespace ChainExpr

mutual

/-- The interpreter and what stands below it with other settings, each with those for its home. -/
def Interpreter.withSettings (settings : Settings) : Interpreter → Interpreter
  | .mk equipment host =>
    .mk { equipment with config := settings ⟨equipment.tower, host.height⟩ } (host.withSettings settings)

def Host.withSettings (settings : Settings) : Host → Host
  | .rejecting => .rejecting
  | .delegating fallback => .delegating (fallback.withSettings settings)
  | .custom name answer => .custom name answer

end

namespace Interpreter

theorem level_withSettings (settings : Settings) (interpreter : Interpreter) :
    (interpreter.withSettings settings).level = interpreter.level := by
  induction interpreter using Interpreter.induction with
  | step equipment host ih =>
    rw [withSettings]
    cases host with
    | rejecting => rfl
    | delegating fallback => exact congrArg (· + 1) (ih fallback rfl)
    | custom name answer => rfl

theorem home_withSettings (settings : Settings) (interpreter : Interpreter) :
    (interpreter.withSettings settings).home = interpreter.home := by
  have hlevel := interpreter.level_withSettings settings
  cases interpreter
  exact congrArg (Home.mk _) hlevel

/-- The settings of a level are found at that level. -/
theorem atLevel_withSettings (settings : Settings) (interpreter : Interpreter) (level : Nat) :
    (interpreter.withSettings settings).atLevel level =
      (interpreter.atLevel level).withSettings settings := by
  induction interpreter using Interpreter.induction with
  | step equipment host ih =>
    cases host with
    | rejecting => rfl
    | custom name answer => rfl
    | delegating fallback =>
      have hlevel := level_withSettings settings fallback
      rw [withSettings, Host.withSettings, atLevel, Host.atLevel?, hlevel, atLevel, Host.atLevel?]
      by_cases hbelow : level ≤ fallback.level
      · rw [if_pos hbelow, if_pos hbelow]
        exact ih fallback rfl
      · rw [if_neg hbelow, if_neg hbelow, withSettings, Host.withSettings]

/-- The same interpreters stand in a tower under other settings. -/
theorem within_withSettings {settings : Settings} {tower interpreter : Interpreter}
    (h : (tower.withSettings settings).Within interpreter) :
    ∃ same, tower.Within same ∧ interpreter = same.withSettings settings := by
  induction tower using Interpreter.induction with
  | step equipment host ih =>
    rw [withSettings] at h
    rcases within_mk.mp h with rfl | ⟨fallback, hhost, hwithin⟩
    · exact ⟨_, .top, rfl⟩
    · cases host with
      | rejecting => cases hhost
      | custom name answer => cases hhost
      | delegating lower =>
        obtain rfl := Host.delegating.inj hhost
        obtain ⟨same, hsame, rfl⟩ := ih lower rfl hwithin
        exact ⟨same, within_mk.mpr (.inr ⟨lower, rfl, hsame⟩), rfl⟩

theorem config_withSettings (settings : Settings) (interpreter : Interpreter) :
    (interpreter.withSettings settings).site.equipment.config = settings interpreter.home := by
  cases interpreter
  rfl

theorem functions_withSettings (settings : Settings) (interpreter : Interpreter) :
    (interpreter.withSettings settings).site.equipment.functions = interpreter.functions := by
  cases interpreter
  rfl

theorem types_withSettings (settings : Settings) (interpreter : Interpreter) :
    (interpreter.withSettings settings).site.equipment.types = interpreter.types := by
  cases interpreter
  rfl

/-- Settings that are those which the interpreters have already change nothing. -/
theorem withSettings_eq_self {tower : Interpreter} {settings : Settings}
    (h : ∀ interpreter, tower.Within interpreter → settings interpreter.home = interpreter.config) :
    tower.withSettings settings = tower := by
  induction tower using Interpreter.induction with
  | step equipment host ih =>
    have hconfig : settings ⟨equipment.tower, host.height⟩ = equipment.config := h _ .top
    rw [withSettings, hconfig]
    cases host with
    | rejecting => rfl
    | custom name answer => rfl
    | delegating fallback =>
      have hfallback := ih fallback rfl fun interpreter hwithin =>
        h interpreter (within_mk.mpr (.inr ⟨fallback, rfl, hwithin⟩))
      rw [Host.withSettings, hfallback]

end Interpreter

namespace Towers

/-- The same towers with other settings. -/
def withSettings (towers : Towers) (settings : Settings) : Towers where
  top number := (towers.top number).withSettings settings
  found := by
    intro number interpreter hwithin
    obtain ⟨same, hsame, rfl⟩ := Interpreter.within_withSettings hwithin
    rw [Interpreter.home_withSettings, Interpreter.atLevel_withSettings,
      towers.found number same hsame]

theorem resident_withSettings (towers : Towers) (settings : Settings) (home : Home) :
    (towers.withSettings settings).resident home = (towers.resident home).withSettings settings :=
  (towers.top home.tower).atLevel_withSettings settings home.level

theorem withSettings_own (towers : Towers) :
    towers.withSettings (fun home => (towers.resident home).config) = towers := by
  have htop (number : Nat) :
      (towers.top number).withSettings (fun home => (towers.resident home).config) =
        towers.top number := by
    refine Interpreter.withSettings_eq_self fun interpreter hwithin => ?_
    rw [Within.resident ⟨number, hwithin⟩]
  cases towers
  simp only [withSettings, mk.injEq]
  exact funext htop

/-- The link is one that the interpreter at its home knows. Its arguments resolve, and its context is cast
as that interpreter casts it. -/
def CanLaunch (towers : Towers) (link : Launch) : Prop :=
  ∃ name definition given lists, (towers.resident link.home).functions.lookup name = some definition ∧
    link.function = definition.name ∧
    definition.Resolves (towers.resident link.home).types given lists link.arguments ∧
    (towers.resident link.home).types.cast link.context definition.acceptable =
      (link.attempts, link.outcome)

end Towers

/-- The observer to whom no link is announced, and what was set aside at one home counts as set aside at
another. -/
def View.unannounced (first second : Home) : View where
  move home := if home = first then second else home
  hidden entry :=
    match entry with
    | .log (.invokingLink ..) => true
    | _ => false
  hidden_kin := by
    intro entry entry' h
    cases h <;> rfl

/-- What an interpreter can be asked to evaluate on a context. -/
inductive Query
  | node (node : Node)
  | chain (chain : Chain)
  | document (document : Json)

def Query.task (query : Query) (interpreter : Interpreter) (context : Value) : Task Value :=
  match query with
  | .node root => interpreter.interpret root context
  | .chain links => interpreter.invokeChain links context
  | .document written => interpreter.interpretJson written context

section

variable {runs : Launch → Prop} {α : Type}

theorem Task.steady_emitAll {events : List Event} {rest : Settings → Task α}
    (apart : ∀ entry ∈ events, entry.ofLaunch = false) (later : Task.Steady runs rest) :
    Task.Steady runs fun settings => Task.emitAll events (rest settings) := by
  induction events with
  | nil => exact later
  | cons entry more ih =>
    obtain ⟨hentry, hmore⟩ := List.forall_mem_cons.mp apart
    exact .emit hentry (ih hmore)

namespace FunctionDefinition

/-- What binding and a failure of it emit are conversions and the failure. -/
theorem BindingEnds.apart {definition : FunctionDefinition} {types : TypeRegistry} {given : List String}
    {lists : List (List Value)} {events : List Event} {outcome : Except RuntimeError Arguments}
    (h : definition.BindingEnds types given lists events outcome) :
    ∀ entry ∈ events, entry.ofLaunch = false := by
  have hconversions (casts : List ArgumentCast) :
      ∀ entry ∈ casts.flatMap (ArgumentCast.conversions types), entry.ofLaunch = false := by
    intro entry hentry
    obtain ⟨cast, _, hcast⟩ := List.mem_flatMap.mp hentry
    obtain ⟨attempt, _, rfl⟩ := List.mem_map.mp hcast
    rfl
  cases h with
  | rejected => exact List.forall_mem_append.mpr ⟨hconversions _, by simp [Event.ofLaunch]⟩
  | bound => exact hconversions _

theorem steady_checkReturn (definition : FunctionDefinition) (value : Value) :
    Task.Steady runs fun _ => definition.checkReturn value := by
  rw [checkReturn]
  cases definition.returns with
  | none => exact .finish _
  | some expected =>
    dsimp only
    split
    · exact .finish _
    · exact .emit rfl (.finish _)

/-- The link that a function is launched by. -/
def launched (definition : FunctionDefinition) (types : TypeRegistry) (home : Home) (context : Value)
    (bound : Arguments) : Launch where
  home := home
  function := definition.name
  arguments := bound
  context := context
  attempts := (types.cast context definition.acceptable).1
  outcome := (types.cast context definition.acceptable).2

/-- What comes of a function once its context has been cast. -/
def afterwards (definition : FunctionDefinition) (bound : Arguments) :
    Except CastError Value → Task Value
  | .error error => .fail (.cast error)
  | .ok context =>
    (Task.onError (.routine definition.name (definition.implementation context bound) .finish)
      definition.failureEntry).bind definition.checkReturn

theorem invoke_launched (definition : FunctionDefinition) (types : TypeRegistry) (home : Home)
    (context : Value) (bound : Arguments) :
    definition.invoke types context bound =
      Task.emitAll ((types.cast context definition.acceptable).1.map .conversion ++
          [(definition.launched types home context bound).entrance])
        (definition.afterwards bound (types.cast context definition.acceptable).2) := by
  rw [Task.emitAll_append, invoke, Task.cast, launched, Launch.entrance]
  dsimp only
  cases (types.cast context definition.acceptable).2 with
  | error error => rfl
  | ok received => rfl

theorem failureEntry_apart (definition : FunctionDefinition) (error : RuntimeError) :
    (Event.log (definition.failureEntry error)).ofLaunch = false := by
  unfold failureEntry
  split
  · split
    · rfl
    · rfl
  · rfl

/-- The announcement of a link and its invocation are its launch and what follows. -/
theorem announce_launched {site : Site} {settings : Settings} {home : Home}
    (hconfig : site.equipment.config = settings home) (definition : FunctionDefinition)
    (types : TypeRegistry) (bound : Arguments) (context : Value) :
    site.announce definition bound context (definition.invoke types context bound) =
      Task.emitAll ((definition.launched types home context bound).events settings)
        (definition.afterwards bound (types.cast context definition.acceptable).2) := by
  have hannouncement :
      (definition.launched types home context bound).announcement settings =
        if (settings home).traceLinks then
          [.log (.invokingLink definition.name bound.names context.type)] else [] := rfl
  rw [Launch.events, Task.emitAll_append, hannouncement, Site.announce, hconfig,
    definition.invoke_launched types home]
  by_cases htraced : (settings home).traceLinks = true
  · rw [if_pos htraced, if_pos htraced]
    rfl
  · rw [if_neg htraced, if_neg htraced]
    rfl

theorem steady_afterwards (definition : FunctionDefinition) (bound : Arguments)
    (outcome : Except CastError Value) :
    Task.Steady runs fun _ => definition.afterwards bound outcome := by
  cases outcome with
  | error error => exact .finish _
  | ok received =>
    have hroutine : Task.Steady runs fun _ =>
        Task.routine definition.name (definition.implementation received bound) Task.finish :=
      .routine _ _ fun outcome => .finish outcome
    exact (hroutine.onError definition.failureEntry_apart).bind definition.steady_checkReturn

end FunctionDefinition

end

namespace Towers

variable {towers : Towers} {interpreter : Interpreter} {definition : FunctionDefinition}

/-- A link that is known resolves its arguments, and is launched if they are bound. -/
theorem steady_runLink (hwithin : towers.Within interpreter) {link : Link}
    (known : interpreter.functions.lookup link.function = some definition) (context : Value)
    (hvalues : Task.Steady towers.CanLaunch fun settings =>
      (interpreter.withSettings settings).site.interpretArguments link.arguments context) :
    Task.Steady towers.CanLaunch fun settings =>
      (interpreter.withSettings settings).site.runLink definition link context := by
  simp only [Site.runLink, Site.resolve, Interpreter.types_withSettings]
  cases hnames : definition.resolveNames (Entries.names link.arguments) with
  | error name => exact .emit rfl (.finish _)
  | ok names =>
    simp only [Task.bind_assoc]
    refine (hvalues.onError fun _ => rfl).bind fun lists => ?_
    obtain ⟨events, outcome, hends, hbinds⟩ :=
      FunctionDefinition.bindArguments_ends interpreter.types hnames lists
    simp only [hbinds, Task.emitAll_bind]
    refine Task.steady_emitAll hends.apart ?_
    cases hends with
    | rejected => exact .finish _
    | @bound bound resolves =>
      have hlaunched (settings : Settings) :=
        definition.announce_launched (interpreter.config_withSettings settings) interpreter.types bound
          context
      have hlegit : towers.CanLaunch
          (definition.launched interpreter.types interpreter.home context bound) := by
        refine ⟨link.function, definition, Entries.names link.arguments, lists, ?_⟩
        rw [FunctionDefinition.launched, hwithin.resident]
        exact ⟨known, rfl, resolves, rfl⟩
      change Task.Steady _ fun settings => Site.announce _ definition bound context
        (definition.invoke interpreter.types context bound)
      simp only [hlaunched]
      exact .launch hlegit (definition.steady_afterwards bound _)

/-- One interpreter is steady if its host is. -/
theorem steady_interpret_of_host (hwithin : towers.Within interpreter)
    (hhost : ∀ chain context, Task.Steady towers.CanLaunch fun settings =>
      (interpreter.withSettings settings).site.handOver chain context) (node : Node) :
    ∀ context, Task.Steady towers.CanLaunch fun settings =>
      (interpreter.withSettings settings).interpret node context := by
  let site (settings : Settings) : Site := (interpreter.withSettings settings).site
  refine @Node.induction_links
    (fun node => ∀ context, Task.Steady towers.CanLaunch fun settings =>
      (site settings).interpret node context)
    (fun links => ∀ context, Task.Steady towers.CanLaunch fun settings =>
      (site settings).runChain links context)
    ?expression ?deferred ?reference ?literal ?noLink ?link node
  case expression => exact fun links ih => ih
  case deferred =>
    intro links _ context
    have hhome (settings : Settings) : (site settings).home = interpreter.home :=
      interpreter.home_withSettings settings
    simp only [Site.interpret, hhome]
    exact .create fun serial => .finish _
  case reference => exact fun name context => .finish _
  case literal => exact fun value context => .finish _
  case noLink => exact fun context => .finish _
  case link =>
    intro name given rest hgiven hrest context
    have hlookup (settings : Settings) : (site settings).equipment.functions.lookup name =
        interpreter.functions.lookup name :=
      congrArg (·.lookup name) (interpreter.functions_withSettings settings)
    cases hfound : interpreter.functions.lookup name with
    | none =>
      have hunknown (settings : Settings) := @Site.runChain_unknown _ ⟨name, given⟩
        ((hlookup settings).trans hfound) rest context
      simp only [hunknown]
      exact .emit rfl (hhost _ context)
    | some definition =>
      have hknown (settings : Settings) := @Site.runChain_known _ ⟨name, given⟩
        definition ((hlookup settings).trans hfound) rest context
      simp only [hknown]
      have hvalues : Task.Steady towers.CanLaunch fun settings =>
          (site settings).interpretArguments given context := by
        simp only [Site.interpretArguments_eq]
        exact .join fun entry hentry => .join fun value hvalue => hgiven entry hentry value hvalue context
      exact (steady_runLink hwithin hfound context hvalues).bind hrest

/-- Everything that an interpreter of the towers evaluates is steady. -/
theorem steady_interpret (hwithin : towers.Within interpreter) (node : Node) (context : Value) :
    Task.Steady towers.CanLaunch fun settings =>
      (interpreter.withSettings settings).interpret node context := by
  induction interpreter using Interpreter.induction generalizing node context with
  | step equipment host ih =>
    refine steady_interpret_of_host hwithin (fun chain context => ?_) node context
    cases host with
    | rejecting => exact .emit rfl (.emit rfl (.finish _))
    | custom name answer => exact .emit rfl (.routine "" _ fun outcome => .finish outcome)
    | delegating fallback =>
      change Task.Steady _ fun settings =>
        .emit (.request (.delegating (fallback.withSettings settings).home) chain context)
          (.emit (.log (.delegating ((Chain.head? chain).getD "") chain.length))
            ((fallback.withSettings settings).invokeChain chain context))
      simp only [Interpreter.home_withSettings, Interpreter.invokeChain_eq]
      exact .emit rfl (.emit rfl (ih fallback rfl hwithin.under (.expression chain) context))

theorem steady_callTask (callee : Callable) (context : Value) :
    Task.Steady towers.CanLaunch fun settings =>
      (towers.withSettings settings).callTask callee context := by
  cases callee with
  | reference name => exact .finish _
  | deferred home serial chain =>
    simp only [callTask, resident_withSettings, Interpreter.invokeChain_eq]
    exact steady_interpret (within_resident home) (.expression chain) context

theorem steady_query (hwithin : towers.Within interpreter) (query : Query) (context : Value) :
    Task.Steady towers.CanLaunch fun settings =>
      query.task (interpreter.withSettings settings) context := by
  cases query with
  | node node => exact steady_interpret hwithin node context
  | chain chain =>
    simp only [Query.task, Interpreter.invokeChain_eq]
    exact steady_interpret hwithin (.expression chain) context
  | document document =>
    simp only [Query.task, Interpreter.interpretJson]
    cases Node.ofJson document with
    | error fragment => exact .finish _
    | ok node => exact steady_interpret hwithin node context

/-- A round of a steady task goes the same way under all settings. -/
theorem steady_poll (depth : Nat) {α : Type} {task : Settings → Task α}
    (h : Task.Steady towers.CanLaunch task) :
    Steadily towers.CanLaunch (Progress.Steady towers.CanLaunch) fun settings =>
      (towers.withSettings settings).poll depth (task settings) := by
  induction depth generalizing α with
  | zero => exact h.round fun _ _ c => ⟨_, c, .exhausted, .refl c, fun _ => rfl⟩
  | succ depth ih => exact h.round fun callee context => ih (steady_callTask callee context)

/-- So do as many rounds as there may be. -/
theorem steady_drive (depth rounds : Nat) {α : Type} {task : Settings → Task α}
    (h : Task.Steady towers.CanLaunch task) (chronicle : Chronicle) :
    ∃ ending later, chronicle.Leads towers.CanLaunch later ∧ ∀ settings,
      (towers.withSettings settings).drive depth rounds (task settings) (chronicle.under settings) =
        (ending, later.under settings) := by
  induction rounds generalizing task chronicle with
  | zero => exact ⟨.stalled, chronicle, .refl chronicle, fun _ => rfl⟩
  | succ rounds ih =>
    obtain ⟨progress, middle, hsame, hfirst, hround⟩ := steady_poll depth h chronicle
    cases hsame with
    | done outcome =>
      exact ⟨.done outcome, middle, hfirst, fun settings => by simp only [drive, hround]⟩
    | exhausted => exact ⟨.exhausted, middle, hfirst, fun settings => by simp only [drive, hround]⟩
    | pending rests =>
      obtain ⟨ending, later, hleads, hdrive⟩ := ih rests middle
      refine ⟨ending, later, hfirst.trans hleads, fun settings => ?_⟩
      simp only [drive, hround, hdrive]

/-- What can come of a link whose function is known: its arguments cannot be resolved, or they are bound and
with that it is launched, once. -/
inductive LaunchEnds (towers : Towers) (interpreter : Interpreter) (definition : FunctionDefinition)
    (link : Link) (context : Value) (world : World) : List Event → Except RuntimeError Value → World → Prop
  | unresolved {events : List Event} {error : RuntimeError} {world' : World}
      (fails : towers.Shows (interpreter.resolveArguments definition context link.arguments, world) events
        (.finish (.error error), world')) :
      LaunchEnds towers interpreter definition link context world events (.error error) world'
  | launched {first entries later : List Event} {bound : Arguments} {middle world' : World}
      {outcome : Except RuntimeError Value}
      (resolves : towers.Shows (interpreter.resolveArguments definition context link.arguments, world) first
        (.finish (.ok bound), middle))
      (told : entries = (definition.launched interpreter.types interpreter.home context bound).events
        fun home => (towers.resident home).config)
      (ends : towers.Shows
        (definition.afterwards bound (interpreter.types.cast context definition.acceptable).2,
          entries.foldl World.record middle) later (.finish outcome, world')) :
      LaunchEnds towers interpreter definition link context world (first ++ entries ++ later) outcome world'

/-- A link resolves its arguments, is launched, and goes on from there. -/
theorem runLink_launched (hwithin : towers.Within interpreter) (link : Link) (context : Value) :
    interpreter.runLink definition link context =
      (interpreter.resolveArguments definition context link.arguments).bind fun bound =>
        Task.emitAll ((definition.launched interpreter.types interpreter.home context bound).events
            fun home => (towers.resident home).config)
          (definition.afterwards bound (interpreter.types.cast context definition.acceptable).2) := by
  have hconfig : interpreter.site.equipment.config = (towers.resident interpreter.home).config :=
    congrArg Interpreter.config hwithin.resident.symm
  exact congrArg (Task.bind _) (funext fun bound =>
    definition.announce_launched hconfig interpreter.types bound context)

/-- A link that is known is launched as soon as its arguments are bound, and only then. -/
theorem shows_runLink_iff_launchEnds (hwithin : towers.Within interpreter) {link : Link} {context : Value}
    {world world' : World} {events : List Event} {outcome : Except RuntimeError Value} :
    towers.Shows (interpreter.runLink definition link context, world) events (.finish outcome, world') ↔
      towers.LaunchEnds interpreter definition link context world events outcome world' := by
  rw [runLink_launched hwithin, shows_bind_finish]
  simp only [Interpreter.shows_emitAll_finish]
  constructor
  · rintro (⟨error, rfl, hfails⟩ | ⟨bound, middle, first, _, rfl, hresolves, later, rfl, hlater⟩)
    · exact .unresolved hfails
    · rw [← List.append_assoc]
      exact .launched hresolves rfl hlater
  · intro h
    cases h with
    | unresolved fails => exact .inl ⟨_, rfl, fails⟩
    | launched resolves told ends =>
      exact .inr ⟨_, _, _, _, List.append_assoc _ _ _, resolves, _, told ▸ rfl, told ▸ ends⟩

/-- Two interpreters that differ at most in their settings look the same to the observer who hears no
announcements, whichever of the two has set aside the function values that come up. -/
theorem Portable.drive_twins {twin : Interpreter}
    (h : towers.Portable (View.unannounced interpreter.home twin.home).move)
    (hwithin : towers.Within interpreter) (hwithin' : towers.Within twin) (twins : interpreter.Twins twin)
    (query : Query) {context context' : Value}
    (contexts : context.Kin (View.unannounced interpreter.home twin.home).move context')
    {world world' : World} (worlds : world.Kin (View.unannounced interpreter.home twin.home) world')
    (depth rounds : Nat) :
    Ending.Kin (View.unannounced interpreter.home twin.home)
      (Value.Kin (View.unannounced interpreter.home twin.home).move)
      (towers.drive depth rounds (query.task interpreter context) world)
      (towers.drive depth rounds (query.task twin context') world') := by
  have hlinks : (View.unannounced interpreter.home twin.home).HidesLinks := fun _ _ _ => rfl
  have hhomes : (View.unannounced interpreter.home twin.home).move interpreter.home =
      (View.unannounced interpreter.home twin.home).move twin.home := by
    simp only [View.unannounced, if_pos]
    split <;> rfl
  have hnodes (node : Node) {value value' : Value}
      (values : value.Kin (View.unannounced interpreter.home twin.home).move value') :
      (interpreter.interpret node value).Kin (View.unannounced interpreter.home twin.home)
        (Value.Kin (View.unannounced interpreter.home twin.home).move) (twin.interpret node value') :=
    h.twins_kin hlinks twins hhomes hwithin node values
  have hcalls : CallsKin (View.unannounced interpreter.home twin.home) towers towers :=
    h.calls_kin_of_moved hlinks (fun _ _ => Home.cases_of_moved) hwithin hwithin'
      fun node _ _ values => hnodes node values
  refine hcalls.drive ?_ worlds depth rounds
  cases query with
  | node node => exact hnodes node contexts
  | chain chain =>
    simp only [Query.task, Interpreter.invokeChain_eq]
    exact hnodes (.expression chain) contexts
  | document document =>
    simp only [Query.task, Interpreter.interpretJson]
    cases Node.ofJson document with
    | error fragment => exact .fail _
    | ok node => exact hnodes node contexts

/-- Settings change nothing but announcements. The same happens under all settings, the interpreters' own
among them, and in as many rounds: an announcement at each launch of a link, where the interpreter that runs
the link traces links, is all that settings add to the log. Every call of an implementation and every
rejected context belongs to a launch, and a link is launched when its arguments are bound, and only then.
Two interpreters that differ in their settings only may both be there: what either of them evaluates looks
the same but for announcements, on function values that either of them has set aside. Implementations,
conversions and hosts cannot look into a function value, so they do the same wherever it was set aside. The
context that is set for runs is that of runs, and counts for nothing else. -/
theorem settings_change_announcements_only (towers : Towers) (interpreter : Interpreter)
    (within : towers.Within interpreter) :
    towers.withSettings (fun home => (towers.resident home).config) = towers ∧
    (∀ (depth rounds : Nat) (query : Query) (context : Value) (world : World),
      ∃ ending, ∃ chronicle : Chronicle, chronicle.world.events = world.events ∧
      (∀ happening ∈ chronicle.happened, happening.Legit towers.CanLaunch) ∧
      ∀ settings, (towers.withSettings settings).drive depth rounds
        (query.task (interpreter.withSettings settings) context) world =
          (ending, chronicle.under settings)) ∧
    (∀ definition link, interpreter.functions.lookup link.function = some definition → ∀ context,
      (∀ rest, interpreter.invokeChain (link :: rest) context =
        (interpreter.runLink definition link context).bind (interpreter.invokeChain rest)) ∧
      ∀ world events outcome world',
        towers.Shows (interpreter.runLink definition link context, world) events (.finish outcome, world') ↔
          towers.LaunchEnds interpreter definition link context world events outcome world') ∧
    (∀ twin, towers.Within twin → interpreter.Twins twin →
      towers.Portable (View.unannounced interpreter.home twin.home).move →
      ∀ (query : Query) (context context' : Value),
        context.Kin (View.unannounced interpreter.home twin.home).move context' →
        ∀ (world world' : World), world.Kin (View.unannounced interpreter.home twin.home) world' →
        ∀ depth rounds : Nat, Ending.Kin (View.unannounced interpreter.home twin.home)
          (Value.Kin (View.unannounced interpreter.home twin.home).move)
          (towers.drive depth rounds (query.task interpreter context) world)
          (towers.drive depth rounds (query.task twin context') world')) ∧
    ∀ (settings : Settings) (node : Node), (interpreter.withSettings settings).run node =
      (interpreter.withSettings settings).interpret node
        (match (settings interpreter.home).defaultContext with
        | some literal => .ofLiteral literal
        | none => .null) := by
  refine ⟨withSettings_own towers, ?_, ?_, ?_, fun settings node => ?_⟩
  · intro depth rounds query context world
    obtain ⟨ending, later, ⟨hevents, added, hadded, hlegit⟩, hdrive⟩ :=
      steady_drive depth rounds (steady_query within query context) ⟨world, []⟩
    rw [List.nil_append] at hadded
    exact ⟨ending, later, hevents, hadded ▸ hlegit, hdrive⟩
  · intro definition link known context
    exact ⟨fun rest => Interpreter.invokeChain_known known rest context,
      fun _ _ _ _ => shows_runLink_iff_launchEnds within⟩
  · intro twin hwithin' twins portable query context context' contexts world world' worlds
    exact portable.drive_twins within hwithin' twins query contexts worlds
  · rw [Interpreter.run]
    exact congrArg _ (congrArg _ (interpreter.config_withSettings settings))

end Towers

namespace Stock

/-- An interpreter that calls and may announce it, in a tower of its own. -/
def settled (traceLinks : Bool) (tower : Nat) : Interpreter :=
  .mk ⟨.ofList [caller "call"], .standard, ⟨traceLinks, none⟩, tower⟩ .rejecting

def announcing : Interpreter := settled true 0

def silent : Interpreter := settled false 1

def settledTowers : Towers :=
  announcing.beside silent
    (fun _ h => by rw [Interpreter.within_rejecting.mp h]; rfl)
    (fun _ h => by rw [Interpreter.within_rejecting.mp h]; rfl)

theorem settled_portable (traceLinks : Bool) (tower : Nat) (move : Home → Home) :
    (settled traceLinks tower).alone.Portable move := by
  apply Towers.portable_mk
  · intro name definition hlookup
    rw [List.mem_singleton.mp (FunctionRegistry.mem_of_lookup_ofList hlookup)]
    exact caller_portable "call" move
  · exact TypeRegistry.portable_standard move
  · simp
  · simp

/-- A chain that sets another one aside and calls it, itself set aside by an interpreter. -/
def aside (interpreter : Interpreter) : Value :=
  .function (.deferred interpreter.home 0 [⟨"call", [("fn", [.deferred []])]⟩])

/-- An interpreter calls what it has set aside. -/
def callingAside (interpreter : Interpreter) : Task Value :=
  Query.task (.chain callingContext) interpreter (aside interpreter)

end Stock

/-- What the interpreter that announces links has set aside is called on it, and what the other has set
aside on the other: there are two announcements and there is none, and no other difference. -/
theorem Towers.settings_change_announcements_only_calling :
    Stock.settledTowers.Within Stock.announcing ∧ Stock.settledTowers.Within Stock.silent ∧
      Stock.announcing.Twins Stock.silent ∧
      Stock.settledTowers.Portable (View.unannounced ⟨0, 0⟩ ⟨1, 0⟩).move ∧
      ∃ world world',
        Stock.settledTowers.drive 2 1 (Stock.callingAside Stock.announcing) .start =
          (.done (.ok (Stock.aside Stock.announcing)), world) ∧
        Stock.settledTowers.drive 2 1 (Stock.callingAside Stock.silent) .start =
          (.done (.ok (Stock.aside Stock.silent)), world') ∧
        world.Kin (View.unannounced ⟨0, 0⟩ ⟨1, 0⟩) world' ∧
        world.events.countP (View.unannounced ⟨0, 0⟩ ⟨1, 0⟩).hidden = 2 ∧
        world'.events.countP (View.unannounced ⟨0, 0⟩ ⟨1, 0⟩).hidden = 0 := by
  have hwithin : Stock.settledTowers.Within Stock.announcing := ⟨0, .top⟩
  have hwithin' : Stock.settledTowers.Within Stock.silent := ⟨1, .top⟩
  have htwins : Stock.announcing.Twins Stock.silent := ⟨rfl, rfl, rfl⟩
  have hportable : Stock.settledTowers.Portable (View.unannounced ⟨0, 0⟩ ⟨1, 0⟩).move :=
    portable_beside (Stock.settled_portable true 0 _) (Stock.settled_portable false 1 _)
  have hstart : World.start.Kin (View.unannounced ⟨0, 0⟩ ⟨1, 0⟩) .start := ⟨rfl, rfl, rfl, .nil⟩
  obtain ⟨_, _, _, htwin, _⟩ :=
    settings_change_announcements_only Stock.settledTowers Stock.announcing hwithin
  have hsame := htwin Stock.silent hwithin' htwins hportable (.chain Stock.callingContext)
    (Stock.aside Stock.announcing) (Stock.aside Stock.silent) rfl .start .start hstart 2 1
  have hannounced : ∃ world, Stock.settledTowers.drive 2 1 (Stock.callingAside Stock.announcing) .start =
      (.done (.ok (Stock.aside Stock.announcing)), world) ∧
        world.events.countP (View.unannounced ⟨0, 0⟩ ⟨1, 0⟩).hidden = 2 := ⟨_, rfl, rfl⟩
  have hsilent : ∃ world, Stock.settledTowers.drive 2 1 (Stock.callingAside Stock.silent) .start =
      (.done (.ok (Stock.aside Stock.silent)), world) ∧
        world.events.countP (View.unannounced ⟨0, 0⟩ ⟨1, 0⟩).hidden = 0 := ⟨_, rfl, rfl⟩
  obtain ⟨world, hdrive, hcount⟩ := hannounced
  obtain ⟨world', hdrive', hcount'⟩ := hsilent
  rw [Stock.callingAside] at hdrive hdrive'
  rw [hdrive, hdrive'] at hsame
  refine ⟨hwithin, hwithin', htwins, hportable, world, world', hdrive, hdrive', ?_, hcount, hcount'⟩
  cases hsame with
  | done _ worlds => exact worlds

end ChainExpr
