import ChainExpr.Proofs.Conduct
import ChainExpr.Proofs.View
import ChainExpr.Stock

namespace ChainExpr

/-- The implementation does the same once homes are moved. -/
def FunctionDefinition.Portable (move : Home → Home) (definition : FunctionDefinition) : Prop :=
  ∀ context context', Value.Kin move context context' →
    ∀ arguments arguments', Arguments.Kin move arguments arguments' →
      (definition.implementation context arguments).Kin move
        (definition.implementation context' arguments')

/-- Nothing that runs on a tower makes a difference between homes that are moved to one place. -/
structure Towers.Portable (move : Home → Home) (towers : Towers) : Prop where
  functions : ∀ interpreter, towers.Within interpreter → ∀ name definition,
    interpreter.functions.lookup name = some definition → definition.Portable move
  types : ∀ interpreter, towers.Within interpreter → interpreter.types.Portable move
  answers : ∀ equipment name answer, towers.Within (.mk equipment (.custom name answer)) →
    ∀ chain context context', Value.Kin move context context' →
      (answer chain context).Kin move (answer chain context')

/-- Two interpreters that differ at most in their settings. -/
structure Interpreter.Twins (first second : Interpreter) : Prop where
  functions : first.functions = second.functions
  types : first.types = second.types
  host : first.host = second.host

/-- The observer sees none of the entries that may be left out of a log. -/
def View.HidesLinks (view : View) : Prop :=
  ∀ function arguments context, view.hidden (.log (.invokingLink function arguments context)) = true

namespace FunctionDefinition

variable {definition : FunctionDefinition} {types : TypeRegistry} {view : View}

section
variable (htypes : types.Portable view.move)
include htypes

theorem castFor_kin (name : String) (acceptable : List TypeName) {value value' : Value}
    (h : value.Kin view.move value') :
    (definition.castFor types name acceptable value).Kin view (Value.Kin view.move)
      (definition.castFor types name acceptable value') := by
  apply Task.Kin.cast htypes h
  intro outcome outcome' outcomes
  cases outcomes with
  | ok values => exact .ok values
  | error error => exact .fail _

theorem castAll_kin (name : String) (acceptable : List TypeName) {values values' : List Value}
    (h : List.Forall₂ (Value.Kin view.move) values values') :
    (definition.castAll types name acceptable values).Kin view
      (List.Forall₂ (Value.Kin view.move))
      (definition.castAll types name acceptable values') := by
  induction h with
  | nil => exact .ok .nil
  | cons hvalue _ ih =>
    apply (castFor_kin htypes name acceptable hvalue).bind
    intro first first' hfirst
    apply ih.bind
    intro later later' hlater
    exact .ok (.cons hfirst hlater)

theorem bindOne_kin (name : String) (argument : ArgumentDefinition) {values values' : List Value}
    (h : List.Forall₂ (Value.Kin view.move) values values') :
    (definition.bindOne types name argument values).Kin view
      (ArgumentLike (Value.Kin view.move))
      (definition.bindOne types name argument values') := by
  rw [bindOne, bindOne]
  split
  · apply (castAll_kin htypes name argument.types h).bind
    intro converted converted' hconverted
    exact .ok (.multi hconverted)
  · apply (castFor_kin htypes name argument.types (getLast?_getD_related h (.refl .null))).bind
    intro converted converted' hconverted
    exact .ok (.single hconverted)

theorem bindEach_kin {bound bound' : List (String × List Value)}
    (hbound : Entries.Related (List.Forall₂ (Value.Kin view.move)) bound bound')
    {done done' : Arguments} (hdone : done.Kin view.move done')
    (declared : List (String × ArgumentDefinition)) :
    (definition.bindEach types bound done declared).Kin view (Arguments.Kin view.move)
      (definition.bindEach types bound' done' declared) := by
  induction declared generalizing done done' with
  | nil => exact .ok hdone
  | cons entry rest ih =>
    obtain ⟨name, argument⟩ := entry
    have hvalues := valuesFor_related name argument (Value.Kin.refl _) hbound
    apply (bindOne_kin htypes name argument hvalues).bind
    intro given given' hgiven
    exact ih (hdone.insert name hgiven)

theorem invoke_kin (hdefinition : definition.Portable view.move) {context context' : Value}
    (contexts : context.Kin view.move context') {arguments arguments' : Arguments}
    (given : arguments.Kin view.move arguments') :
    (definition.invoke types context arguments).Kin view (Value.Kin view.move)
      (definition.invoke types context' arguments') := by
  apply Task.Kin.cast htypes contexts
  intro outcome outcome' outcomes
  cases outcomes with
  | error error => exact .emit (.log _) (.fail _)
  | @ok converted converted' hkin =>
    have hbody := hdefinition converted converted' hkin arguments arguments' given
    have hcall : (definition.call converted arguments).Kin view (Value.Kin view.move)
        (definition.call converted' arguments') :=
      .emit (.call _ hkin given) (.routine _ hbody fun _ _ outcomes => .finish outcomes)
    apply (hcall.onError definition.failureEntry).bind
    intro result result' hresult
    rw [checkReturn, checkReturn, ← hresult.type]
    split
    · exact .ok hresult
    · split
      · exact .ok hresult
      · exact .emit (.log _) (.fail _)

end

end FunctionDefinition

namespace Stock

theorem caller_portable (name : String) (move : Home → Home) : (caller name).Portable move := by
  intro context context' contexts arguments arguments' given
  have hfound := given.callable? "fn"
  change (Body.call.run name context arguments).Kin move (Body.call.run name context' arguments')
  rw [Body.run, Body.run]
  generalize Arguments.callable? arguments "fn" = found at hfound ⊢
  generalize Arguments.callable? arguments' "fn" = found' at hfound ⊢
  cases hfound with
  | none => exact .finish (.error _)
  | some callees => exact .call callees contexts fun _ _ outcomes => .finish outcomes

end Stock

namespace Site

variable {view : View} {site site' : Site} {definition : FunctionDefinition}

theorem resolve_kin (htypes : site.equipment.types = site'.equipment.types)
    (hportable : site.equipment.types.Portable view.move) (names : List String)
    {values values' : Task (List (List Value))}
    (hvalues : values.Kin view (List.Forall₂ (List.Forall₂ (Value.Kin view.move))) values') :
    (site.resolve definition names values).Kin view (Arguments.Kin view.move)
      (site'.resolve definition names values') := by
  rw [resolve, resolve, ← htypes]
  split
  · exact .emit (.log _) (.fail _)
  · rename_i names hnames
    apply (hvalues.onError _).bind
    intro bound bound' hbound
    apply Task.Kin.onError
    apply FunctionDefinition.bindEach_kin hportable
    · exact FunctionDefinition.foldValues_related names hbound
    · exact .nil

/-- Whether a link is announced makes no difference to an observer who does not see announcements. -/
theorem announce_kin (hlinks : view.HidesLinks) {arguments arguments' : Arguments}
    {context context' : Value} {next next' : Task Value}
    (h : next.Kin view (Value.Kin view.move) next') :
    (site.announce definition arguments context next).Kin view (Value.Kin view.move)
      (site'.announce definition arguments' context' next') := by
  have hleft : (site.announce definition arguments context next).Kin view (Value.Kin view.move)
      next' := by
    rw [announce]
    split
    · exact .hidden_left (hlinks _ _ _) h
    · exact h
  generalize site.announce definition arguments context next = announced at hleft ⊢
  rw [announce]
  split
  · exact .hidden_right (hlinks _ _ _) hleft
  · exact hleft

theorem runLink_kin (hlinks : view.HidesLinks)
    (htypes : site.equipment.types = site'.equipment.types)
    (hportable : site.equipment.types.Portable view.move)
    (hdefinition : definition.Portable view.move) (link : Link) {context context' : Value}
    (contexts : context.Kin view.move context')
    (harguments : (site.interpretArguments link.arguments context).Kin view
      (List.Forall₂ (List.Forall₂ (Value.Kin view.move)))
      (site'.interpretArguments link.arguments context')) :
    (site.runLink definition link context).Kin view (Value.Kin view.move)
      (site'.runLink definition link context') := by
  apply (resolve_kin htypes hportable _ harguments).bind
  intro bound bound' hbound
  apply announce_kin hlinks
  rw [← htypes]
  exact FunctionDefinition.invoke_kin hportable hdefinition contexts hbound

/-- When the evaluations on one site look like those on another: it knows no function that the other
does not know just so, and chains that it cannot start look the same on both. -/
structure Follows (view : View) (site site' : Site) : Prop where
  home : view.move site.home = view.move site'.home
  types : site.equipment.types = site'.equipment.types
  portable : site.equipment.types.Portable view.move
  known : ∀ name definition, site.equipment.functions.lookup name = some definition →
    site'.equipment.functions.lookup name = some definition ∧ definition.Portable view.move
  unknown : ∀ link rest, site.equipment.functions.lookup link.function = none →
    ∀ context context', Value.Kin view.move context context' →
      (site.runChain (link :: rest) context).Kin view (Value.Kin view.move)
        (site'.runChain (link :: rest) context')

/-- Nodes look the same on a site and on one that it follows. -/
theorem Follows.interpret (h : site.Follows view site') (hlinks : view.HidesLinks) (node : Node) :
    ∀ context context', Value.Kin view.move context context' →
      (site.interpret node context).Kin view (Value.Kin view.move)
        (site'.interpret node context') := by
  refine @Node.induction_links
    (fun node => ∀ context context', Value.Kin view.move context context' →
      (site.interpret node context).Kin view (Value.Kin view.move)
        (site'.interpret node context'))
    (fun links => ∀ context context', Value.Kin view.move context context' →
      (site.runChain links context).Kin view (Value.Kin view.move)
        (site'.runChain links context'))
    ?expression ?deferred ?reference ?literal ?noLink ?link node
  case expression => exact fun links ih => ih
  case deferred =>
    -- The one place where a home is given to a function value.
    intro links _ context context' _
    refine .create fun serial => .ok (Value.Kin.function_iff.mpr ?_)
    simp only [Callable.Kin, Callable.rehomed, h.home]
  case reference => exact fun name context context' _ => .ok (.refl _)
  case literal => exact fun value context context' _ => .ok (.refl _)
  case noLink => exact fun context context' contexts => .ok contexts
  case link =>
    intro name given rest hgiven hrest context context' contexts
    cases hlookup : site.equipment.functions.lookup name with
    | none => exact h.unknown ⟨name, given⟩ rest hlookup context context' contexts
    | some definition =>
      obtain ⟨hlookup', hdefinition⟩ := h.known name definition hlookup
      rw [Site.runChain_known hlookup, Site.runChain_known hlookup']
      have hvalues : (site.interpretArguments given context).Kin view
          (List.Forall₂ (List.Forall₂ (Value.Kin view.move)))
          (site'.interpretArguments given context') := by
        rw [interpretArguments_eq, interpretArguments_eq]
        exact .join fun entry hentry => .join fun value hvalue =>
          hgiven entry hentry value hvalue context context' contexts
      apply (runLink_kin hlinks h.types h.portable hdefinition ⟨name, given⟩ contexts hvalues).bind
      intro result result' hresult
      exact hrest result result' hresult

end Site

namespace Towers

variable {view : View} {towers : Towers} {interpreter : Interpreter}

theorem Portable.alone {move : Home → Home} (h : towers.Portable move)
    (hwithin : towers.Within interpreter) : interpreter.alone.Portable move where
  functions lower hlower := h.functions lower (hwithin.trans (Interpreter.within_alone.mp hlower))
  types lower hlower := h.types lower (hwithin.trans (Interpreter.within_alone.mp hlower))
  answers equipment name answer hlower :=
    h.answers equipment name answer (hwithin.trans (Interpreter.within_alone.mp hlower))

/-- A tower is portable if its top and what is below it are. -/
theorem portable_mk {move : Home → Home} {equipment : Equipment} {host : Host}
    (hfunctions : ∀ name definition, equipment.functions.lookup name = some definition →
      definition.Portable move)
    (htypes : equipment.types.Portable move)
    (hfallback : ∀ fallback, host = .delegating fallback → fallback.alone.Portable move)
    (hanswer : ∀ name answer, host = .custom name answer → ∀ chain context context',
      Value.Kin move context context' → (answer chain context).Kin move (answer chain context')) :
    (Interpreter.mk equipment host).alone.Portable move where
  functions interpreter hwithin := by
    have hin := Interpreter.within_mk.mp (Interpreter.within_alone.mp hwithin)
    rcases hin with rfl | ⟨fallback, hhost, hbelow⟩
    · exact hfunctions
    · exact (hfallback fallback hhost).functions interpreter ⟨0, hbelow⟩
  types interpreter hwithin := by
    have hin := Interpreter.within_mk.mp (Interpreter.within_alone.mp hwithin)
    rcases hin with rfl | ⟨fallback, hhost, hbelow⟩
    · exact htypes
    · exact (hfallback fallback hhost).types interpreter ⟨0, hbelow⟩
  answers lowest name answer hwithin := by
    have hin := Interpreter.within_mk.mp (Interpreter.within_alone.mp hwithin)
    rcases hin with hsame | ⟨fallback, hhost, hbelow⟩
    · cases hsame
      exact hanswer name answer rfl
    · exact (hfallback fallback hhost).answers lowest name answer ⟨0, hbelow⟩

theorem portable_beside {move : Home → Home} {first second : Interpreter}
    {hfirst : ∀ interpreter, first.Within interpreter → interpreter.home.tower = 0}
    {hsecond : ∀ interpreter, second.Within interpreter → interpreter.home.tower = 1}
    (h : first.alone.Portable move) (h' : second.alone.Portable move) :
    (first.beside second hfirst hsecond).Portable move where
  functions interpreter hwithin := by
    rcases Interpreter.within_beside.mp hwithin with hin | hin
    · exact h.functions interpreter ⟨0, hin⟩
    · exact h'.functions interpreter ⟨0, hin⟩
  types interpreter hwithin := by
    rcases Interpreter.within_beside.mp hwithin with hin | hin
    · exact h.types interpreter ⟨0, hin⟩
    · exact h'.types interpreter ⟨0, hin⟩
  answers equipment name answer hwithin := by
    rcases Interpreter.within_beside.mp hwithin with hin | hin
    · exact h.answers equipment name answer ⟨0, hin⟩
    · exact h'.answers equipment name answer ⟨0, hin⟩

/-- What a host answers looks the same on kin contexts, if chains do on what it delegates to. -/
theorem Portable.answer_kin (h : towers.Portable view.move) {equipment : Equipment} {host : Host}
    (hwithin : towers.Within (.mk equipment host))
    (hfallback : ∀ fallback, host = .delegating fallback → ∀ chain context context',
      Value.Kin view.move context context' →
        (fallback.invokeChain chain context).Kin view (Value.Kin view.move)
          (fallback.invokeChain chain context'))
    (chain : Chain) {context context' : Value} (contexts : context.Kin view.move context') :
    (host.answer chain context).Kin view (Value.Kin view.move) (host.answer chain context') := by
  rw [Host.answer_eq, Host.answer_eq]
  refine .emit (.request _ chain contexts) ?_
  cases host with
  | rejecting => exact .emit (.log _) (.fail _)
  | delegating fallback =>
    exact .emit (.log _) (hfallback fallback rfl chain context context' contexts)
  | custom name answer =>
    exact .routine "" (h.answers equipment name answer hwithin chain context context' contexts)
      fun _ _ outcomes => .finish outcomes

/-- Settings make no difference to an observer who sees no announcements: a node looks the same on two
interpreters of one home that differ in them. -/
theorem Portable.twins_kin (h : towers.Portable view.move) (hlinks : view.HidesLinks)
    {first second : Interpreter} (twins : first.Twins second)
    (hhomes : view.move first.home = view.move second.home) (hwithin : towers.Within first) (node : Node)
    {context context' : Value} (contexts : context.Kin view.move context') :
    (first.interpret node context).Kin view (Value.Kin view.move) (second.interpret node context') := by
  induction first using Interpreter.induction generalizing second node context context' with
  | step equipment host ih =>
    have hfollows : (Interpreter.mk equipment host).site.Follows view second.site := by
      refine ⟨hhomes, twins.types, h.types _ hwithin, ?_, ?_⟩
      · intro name definition hlookup
        have hlookup' : second.functions.lookup name = some definition := twins.functions ▸ hlookup
        exact ⟨hlookup', h.functions _ hwithin name definition hlookup⟩
      · intro link rest hlookup context context' contexts
        have hlookup' : second.site.equipment.functions.lookup link.function = none :=
          (congrArg (·.lookup link.function) twins.functions).symm.trans hlookup
        have hhost : second.site.handOver = host.answer := congrArg Host.answer twins.host.symm
        rw [Site.runChain_unknown hlookup, Site.runChain_unknown hlookup', hhost]
        refine .emit (.log _) (h.answer_kin hwithin ?_ (link :: rest) contexts)
        rintro fallback rfl chain context context' contexts
        rw [Interpreter.invokeChain_eq, Interpreter.invokeChain_eq]
        exact ih fallback rfl ⟨rfl, rfl, rfl⟩ rfl hwithin.under (.expression chain) contexts
    exact hfollows.interpret hlinks node context context' contexts

/-- On one interpreter a node looks the same on kin contexts. -/
theorem Portable.interpret_kin (h : towers.Portable view.move) (hlinks : view.HidesLinks)
    (hwithin : towers.Within interpreter) (node : Node) {context context' : Value}
    (contexts : context.Kin view.move context') :
    (interpreter.interpret node context).Kin view (Value.Kin view.move)
      (interpreter.interpret node context') :=
  h.twins_kin hlinks ⟨rfl, rfl, rfl⟩ rfl hwithin node contexts

/-- Function values look the same when they are called, wherever they were set aside, if nodes look the
same on two interpreters and only what those have set aside is taken for one. -/
theorem Portable.calls_kin_of_moved (h : towers.Portable view.move) (hlinks : view.HidesLinks)
    {first second : Interpreter}
    (hmoved : ∀ home home', view.move home = view.move home' → home = home' ∨
      (home = first.home ∧ home' = second.home) ∨ (home = second.home ∧ home' = first.home))
    (hfirst : towers.Within first) (hsecond : towers.Within second)
    (hnodes : ∀ node context context', Value.Kin view.move context context' →
      (first.interpret node context).Kin view (Value.Kin view.move) (second.interpret node context')) :
    CallsKin view towers towers := by
  intro callee callee' callees context context' contexts
  rcases callees.cases with ⟨home, home', serial, chain, rfl, rfl, hhomes⟩ | ⟨name, rfl, rfl⟩
  · rw [callTask, callTask, Interpreter.invokeChain_eq, Interpreter.invokeChain_eq]
    -- Either both have the same home, or each has that of one of the two.
    rcases hmoved home home' hhomes with rfl | ⟨rfl, rfl⟩ | ⟨rfl, rfl⟩
    · exact h.interpret_kin hlinks (within_resident home) (.expression chain) contexts
    · rw [hfirst.resident, hsecond.resident]
      exact hnodes (.expression chain) context context' contexts
    · rw [hfirst.resident, hsecond.resident]
      have hflip := (hnodes (.expression chain) context' context contexts.symm).flip
      exact hflip.imp fun _ _ => Value.Kin.symm
  · exact .fail _

end Towers

end ChainExpr
