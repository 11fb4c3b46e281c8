import ChainExpr.Proofs.Fitting
import ChainExpr.Proofs.Links
import ChainExpr.Proofs.Step

namespace ChainExpr

/-- The policy allows what the interpreters of a tower do: log entries, conversions, requests for
chains that are not empty, and calls of known functions. Over well typed registries those calls are
of fitting contexts and arguments. -/
structure Policy.Allows (policy : Policy) (towers : Towers) : Prop where
  log : ∀ {α : Type} (entry : LogEntry) (next : Task α), policy.event (.log entry) next
  conversion : ∀ {α : Type} (attempt : Attempt) (next : Task α),
    policy.event (.conversion attempt) next
  request : ∀ {α : Type} (kind : HostKind) (chain : Chain) (context : Value) (next : Task α),
    chain ≠ [] → policy.event (.request kind chain context) next
  call : ∀ interpreter, towers.Within interpreter → ∀ name definition,
    interpreter.functions.lookup name = some definition → ∀ context arguments,
    (interpreter.types.WellTyped → definition.Fits context arguments) →
      (definition.call context arguments).Obeys policy
  answer : ∀ equipment name answer, towers.Within (.mk equipment (.custom name answer)) →
    ∀ chain context, policy.routine "" (answer chain context)

namespace Policy.Allows

open ChainExpr.Task

variable {policy : Policy} {towers : Towers} {interpreter : Interpreter} {definition : FunctionDefinition}

theorem obeys_castFor (h : policy.Allows towers) (types : TypeRegistry) (name : String)
    (acceptable : List TypeName) (value : Value) :
    (definition.castFor types name acceptable value).Obeys policy := by
  apply obeys_cast h.conversion
  cases (types.cast value acceptable).2 with
  | ok converted => trivial
  | error error => trivial

theorem obeys_castAll (h : policy.Allows towers) (types : TypeRegistry) (name : String)
    (acceptable : List TypeName) (values : List Value) :
    (definition.castAll types name acceptable values).Obeys policy := by
  induction values with
  | nil => trivial
  | cons value rest ih =>
    apply (h.obeys_castFor types name acceptable value).bind
    intro first
    apply ih.bind
    intro later
    trivial

theorem obeys_bindEach (h : policy.Allows towers) (types : TypeRegistry)
    (bound : List (String × List Value)) (done : Arguments)
    (declared : List (String × ArgumentDefinition)) :
    (definition.bindEach types bound done declared).Obeys policy := by
  induction declared generalizing done with
  | nil => trivial
  | cons entry rest ih =>
    obtain ⟨name, argument⟩ := entry
    have hone (values : List Value) :
        (definition.bindOne types name argument values).Obeys policy := by
      rw [FunctionDefinition.bindOne]
      split
      · exact (h.obeys_castAll types name argument.types values).bind fun _ => trivial
      · exact (h.obeys_castFor types name argument.types _).bind fun _ => trivial
    apply (hone _).bind
    intro given
    exact ih (done.insert name given)

/-- An invocation calls the implementation once its context has been cast. -/
theorem obeys_invoke (h : policy.Allows towers) (hwithin : towers.Within interpreter) {name : String}
    (hlookup : interpreter.functions.lookup name = some definition) (context : Value)
    {arguments : Arguments}
    (hfits : interpreter.types.WellTyped →
      List.Forall₂ (fun declared given => given.1 = declared.1 ∧ given.2.Fits declared.2)
        definition.signature.arguments.entries arguments.entries) :
    (definition.invoke interpreter.types context arguments).Obeys policy := by
  apply obeys_cast h.conversion
  cases hcast : (interpreter.types.cast context definition.acceptable).2 with
  | error error => exact ⟨h.log _ _, trivial⟩
  | ok converted =>
    have hcall : (definition.call converted arguments).Obeys policy := by
      apply h.call interpreter hwithin name definition hlookup
      intro hwell
      exact ⟨hwell.cast_suits hcast, hfits hwell⟩
    apply (hcall.onError fun error => h.log _ _).bind
    intro result
    rw [FunctionDefinition.checkReturn]
    split
    · trivial
    · split
      · trivial
      · exact ⟨h.log _ _, trivial⟩

theorem obeys_resolve (h : policy.Allows towers) (names : List String)
    {values : Task (List (List Value))} (hvalues : values.Obeys policy) :
    (interpreter.site.resolve definition names values).Obeys policy := by
  rw [Site.resolve]
  split
  · exact ⟨h.log _ _, trivial⟩
  · apply (hvalues.onError fun error => h.log _ _).bind
    intro values
    apply Obeys.onError
    · exact h.obeys_bindEach _ _ _ _
    · exact fun error => h.log _ _

theorem returns_resolve (names : List String) (values : Task (List (List Value))) :
    (interpreter.site.resolve definition names values).Returns fun outcome =>
      ∀ arguments, outcome = .ok arguments → interpreter.types.WellTyped →
        List.Forall₂ (fun declared given => given.1 = declared.1 ∧ given.2.Fits declared.2)
          definition.signature.arguments.entries arguments.entries := by
  by_cases hwell : interpreter.types.WellTyped
  · rw [Site.resolve]
    split
    · intro arguments harguments
      cases harguments
    · apply (returns_trivial _).andThen
      intro outcome _
      cases outcome with
      | error error =>
        intro arguments harguments
        cases harguments
      | ok values =>
        apply Returns.onError
        apply (FunctionDefinition.bindArguments_fits hwell _).weaken
        intro outcome houtcome arguments harguments _
        exact houtcome arguments harguments
  · apply (returns_trivial _).weaken
    intro outcome _ arguments _ h
    exact absurd h hwell

theorem obeys_runLink (h : policy.Allows towers) (hwithin : towers.Within interpreter) {link : Link}
    (hlookup : interpreter.functions.lookup link.function = some definition) (context : Value)
    (harguments : (interpreter.site.interpretArguments link.arguments context).Obeys policy) :
    (interpreter.runLink definition link context).Obeys policy := by
  apply (h.obeys_resolve _ harguments).bind_of_returns (returns_resolve _ _)
  intro bound hbound
  rw [Site.announce]
  split
  · exact ⟨h.log _ _, h.obeys_invoke hwithin hlookup context hbound⟩
  · exact h.obeys_invoke hwithin hlookup context hbound

theorem obeys_interpretArguments {site : Site} {given : List (String × List Node)} {context : Value}
    (h : ∀ entry ∈ given, ∀ node ∈ entry.2, (site.interpret node context).Obeys policy) :
    (site.interpretArguments given context).Obeys policy := by
  rw [Site.interpretArguments_eq]
  refine .join (List.forall_mem_map.mpr fun entry hentry => ?_)
  exact .join (List.forall_mem_map.mpr (h entry hentry))

/-- One interpreter obeys if its host does wherever it is asked. -/
theorem obeys_interpret_of_host (h : policy.Allows towers) (hwithin : towers.Within interpreter)
    (hhost : ∀ chain context, chain ≠ [] → (interpreter.host.answer chain context).Obeys policy)
    (node : Node) : ∀ context, (interpreter.interpret node context).Obeys policy := by
  refine @Node.induction_links
    (fun node => ∀ context, (interpreter.site.interpret node context).Obeys policy)
    (fun links => ∀ context, (interpreter.site.runChain links context).Obeys policy)
    ?expression ?deferred ?reference ?literal ?noLink ?link node
  case expression => exact fun links ih => ih
  case deferred => intro links _ context serial; trivial
  case reference => intro name context; trivial
  case literal => intro value context; trivial
  case noLink => intro context; trivial
  case link =>
    intro name given rest hgiven hrest context
    cases hlookup : interpreter.functions.lookup name with
    | none =>
      have hunknown : interpreter.site.equipment.functions.lookup name = none := hlookup
      rw [Site.runChain_unknown hunknown]
      exact ⟨h.log _ _, hhost _ context (List.cons_ne_nil _ _)⟩
    | some definition =>
      have hknown : interpreter.site.equipment.functions.lookup name = some definition := hlookup
      rw [Site.runChain_known hknown]
      have harguments := obeys_interpretArguments fun entry hentry value hvalue =>
        hgiven entry hentry value hvalue context
      exact (h.obeys_runLink hwithin hlookup context harguments).bind hrest

/-- Everything that an interpreter of the towers evaluates obeys the policy. -/
theorem obeys_interpret (h : policy.Allows towers) (hwithin : towers.Within interpreter) (node : Node)
    (context : Value) : (interpreter.interpret node context).Obeys policy := by
  induction interpreter using Interpreter.induction generalizing node context with
  | step equipment host ih =>
    apply h.obeys_interpret_of_host hwithin
    intro chain context hchain
    change (host.answer chain context).Obeys policy
    rw [Host.answer_eq]
    refine ⟨h.request _ chain context _ hchain, ?_⟩
    cases host with
    | rejecting => exact ⟨h.log _ _, trivial⟩
    | delegating fallback =>
      refine ⟨h.log _ _, ?_⟩
      rw [Interpreter.invokeChain_eq]
      exact ih fallback rfl hwithin.under (.expression chain) context
    | custom name answer => exact ⟨h.answer equipment name answer hwithin chain context, fun _ => trivial⟩

/-- Called function values run on an interpreter of the towers. -/
theorem obeys_callTask (h : policy.Allows towers) (callee : Callable) (context : Value) :
    (towers.callTask callee context).Obeys policy := by
  cases callee with
  | deferred home serial chain =>
    rw [Towers.callTask, Interpreter.invokeChain_eq]
    exact h.obeys_interpret (Towers.within_resident home) (.expression chain) context
  | reference name => trivial

/-- Whatever a run comes to from an evaluation obeys the policy. -/
theorem obeys_of_runs (h : policy.Allows towers) (hwithin : towers.Within interpreter) {node : Node}
    {context : Value} {world : World} {state : Task Value × World}
    (hrun : towers.Runs (interpreter.interpret node context, world) state) :
    state.1.Obeys policy :=
  hrun.obeys h.obeys_callTask (h.obeys_interpret hwithin node context)

end Policy.Allows

end ChainExpr
