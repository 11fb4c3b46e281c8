import ChainExpr.Proofs.Conduct

namespace ChainExpr

namespace Towers

/-- Known links run one after the other, each on the result of the one before, until one fails. -/
inductive LinksRun (towers : Towers) (interpreter : Interpreter) :
    Chain → Value → World → List Event → Except RuntimeError Value → World → Prop
  | none (context : Value) (world : World) :
      LinksRun towers interpreter [] context world [] (.ok context) world
  | failed {link : Link} {definition : FunctionDefinition} {context : Value} {world world' : World}
      {events : List Event} {error : RuntimeError} (rest : Chain)
      (known : interpreter.functions.lookup link.function = some definition)
      (link_fails : towers.Shows (interpreter.runLink definition link context, world) events
        (.finish (.error error), world')) :
      LinksRun towers interpreter (link :: rest) context world events (.error error) world'
  | next {link : Link} {definition : FunctionDefinition} {context value : Value}
      {world middle world' : World} {first later : List Event}
      {outcome : Except RuntimeError Value} {rest : Chain}
      (known : interpreter.functions.lookup link.function = some definition)
      (link_runs : towers.Shows (interpreter.runLink definition link context, world) first
        (.finish (.ok value), middle))
      (rest_runs : LinksRun towers interpreter rest value middle later outcome world') :
      LinksRun towers interpreter (link :: rest) context world (first ++ later) outcome world'

variable {towers : Towers} {interpreter : Interpreter}

/-- A chain of known links runs link by link. -/
theorem shows_invokeChain_known {chain : Chain}
    (known : ∀ link ∈ chain, interpreter.functions.contains link.function = true) {context : Value}
    {world world' : World} {events : List Event} {outcome : Except RuntimeError Value} :
    towers.Shows (interpreter.invokeChain chain context, world) events (.finish outcome, world') ↔
      LinksRun towers interpreter chain context world events outcome world' := by
  induction chain generalizing context world events with
  | nil =>
    rw [Interpreter.invokeChain_nil, Task.ok, shows_finish]
    constructor
    · rintro ⟨hstate, rfl⟩
      cases hstate
      exact .none _ _
    · intro h
      cases h
      exact ⟨rfl, rfl⟩
  | cons link rest ih =>
    obtain ⟨definition, hlookup⟩ := FunctionRegistry.contains_iff.mp (known link (by simp))
    have hrest : ∀ other ∈ rest, interpreter.functions.contains other.function = true :=
      fun other hother => known other (by simp [hother])
    rw [Interpreter.invokeChain_known hlookup, shows_bind_finish]
    constructor
    · rintro (⟨error, rfl, hlink⟩ | ⟨value, middle, first, later, rfl, hlink, hlater⟩)
      · exact .failed rest hlookup hlink
      · exact .next hlookup hlink ((ih hrest).mp hlater)
    · intro h
      cases h with
      | failed _ hknown hlink =>
        cases hlookup.symm.trans hknown
        exact .inl ⟨_, rfl, hlink⟩
      | next hknown hlink hlater =>
        cases hlookup.symm.trans hknown
        exact .inr ⟨_, _, _, _, rfl, hlink, (ih hrest).mpr hlater⟩

/-- A chain whose first link is not known is handed over as it is, behind an entry in the log. -/
theorem shows_invokeChain_unknown {link : Link}
    (unknown : interpreter.functions.lookup link.function = none) {later : Chain} {context : Value}
    {world world' : World} {events : List Event} {outcome : Except RuntimeError Value} :
    towers.Shows (interpreter.invokeChain (link :: later) context, world) events
        (.finish outcome, world') ↔
      ∃ answer, events = .log (.handingOver link.function (later.length + 1)) ::
          .request interpreter.host.kind (link :: later) context :: answer ∧
        towers.Shows (interpreter.host.reply (link :: later) context,
          (world.record (.log (.handingOver link.function (later.length + 1)))).record
            (.request interpreter.host.kind (link :: later) context)) answer
          (.finish outcome, world') := by
  rw [Interpreter.invokeChain_unknown unknown, shows_emit_finish]
  constructor
  · rintro ⟨behind, rfl, hbehind⟩
    obtain ⟨answer, rfl, hanswer⟩ := shows_emit_finish.mp hbehind
    exact ⟨answer, rfl, hanswer⟩
  · rintro ⟨answer, rfl, hanswer⟩
    exact ⟨_, rfl, shows_emit_finish.mpr ⟨answer, rfl, hanswer⟩⟩

/-- The links before the first unknown one, and then what is left. -/
theorem shows_invokeChain {chain : Chain} {context : Value} {world world' : World}
    {events : List Event} {outcome : Except RuntimeError Value} :
    towers.Shows (interpreter.invokeChain chain context, world) events (.finish outcome, world') ↔
      (∃ error, outcome = .error error ∧
        LinksRun towers interpreter (interpreter.knownLinks chain) context world events
          (.error error) world') ∨
      (interpreter.unknownRest chain = [] ∧ ∃ value, outcome = .ok value ∧
        LinksRun towers interpreter (interpreter.knownLinks chain) context world events
          (.ok value) world') ∨
      ∃ link later value middle first answer, interpreter.unknownRest chain = link :: later ∧
        LinksRun towers interpreter (interpreter.knownLinks chain) context world first
          (.ok value) middle ∧
        events = first ++ .log (.handingOver link.function (later.length + 1)) ::
          .request interpreter.host.kind (link :: later) value :: answer ∧
        towers.Shows (interpreter.host.reply (link :: later) value,
          (middle.record (.log (.handingOver link.function (later.length + 1)))).record
            (.request interpreter.host.kind (link :: later) value)) answer
          (.finish outcome, world') := by
  rw [Interpreter.invokeChain_eq_bind, shows_bind_finish]
  simp only [shows_invokeChain_known Interpreter.knownLinks_known]
  refine or_congr Iff.rfl ?_
  cases hrest : interpreter.unknownRest chain with
  | nil =>
    simp only [Interpreter.invokeChain_nil, Task.ok, shows_finish]
    constructor
    · rintro ⟨value, middle, first, later, rfl, hlinks, hstate, rfl⟩
      cases hstate
      rw [List.append_nil]
      exact .inl ⟨trivial, value, rfl, hlinks⟩
    · rintro (⟨_, value, rfl, hlinks⟩ | ⟨link, later, _, _, _, _, hcons, _⟩)
      · exact ⟨value, world', events, [], (List.append_nil _).symm, hlinks, rfl, rfl⟩
      · cases hcons
  | cons link later =>
    constructor
    · rintro ⟨value, middle, first, behind, rfl, hlinks, hbehind⟩
      obtain ⟨answer, rfl, hanswer⟩ :=
        (shows_invokeChain_unknown (Interpreter.unknownRest_unknown hrest)).mp hbehind
      exact .inr ⟨link, later, value, middle, first, answer, rfl, hlinks, rfl, hanswer⟩
    · rintro (⟨hnil, _⟩ | ⟨_, _, value, middle, first, answer, hsame, hlinks, rfl, hanswer⟩)
      · cases hnil
      · cases hsame
        refine ⟨value, middle, first, _, rfl, hlinks, ?_⟩
        exact (shows_invokeChain_unknown (Interpreter.unknownRest_unknown hrest)).mpr ⟨answer, rfl, hanswer⟩

/-- A rejecting host names the first function of the chain. -/
theorem shows_reply_rejecting {link : Link} {later : Chain} {context : Value} {world world' : World}
    {events : List Event} {outcome : Except RuntimeError Value} :
    towers.Shows (Host.reply .rejecting (link :: later) context, world) events
        (.finish outcome, world') ↔
      outcome = .error (.functionNotRegistered link.function) ∧
      events = [.log (.functionNotRegistered link.function)] ∧
      world' = world.record (.log (.functionNotRegistered link.function)) := by
  rw [Host.reply, shows_emit_finish]
  constructor
  · rintro ⟨behind, rfl, hbehind⟩
    obtain ⟨hstate, rfl⟩ := shows_finish.mp hbehind
    cases hstate
    exact ⟨rfl, rfl, rfl⟩
  · rintro ⟨rfl, rfl, rfl⟩
    exact ⟨[], rfl, shows_finish.mpr ⟨rfl, rfl⟩⟩

/-- Hosts are asked for chains that are not empty, whatever else happens. -/
def nonemptyRequests : Policy where
  event := fun entry _ =>
    match entry with
    | .request _ chain _ => chain ≠ []
    | _ => True
  routine := fun _ _ => True
  event_andThen := fun _ _ _ h => h
  routine_leads := fun _ _ _ _ h => h

theorem nonemptyRequests_allows (towers : Towers) : nonemptyRequests.Allows towers where
  log _ _ := trivial
  conversion _ _ := trivial
  request _ _ _ _ h := h
  call _ _ _ _ _ _ _ _ := ⟨trivial, trivial, fun _ => trivial⟩
  answer _ _ _ _ _ _ := trivial

/-- No host is ever asked for an empty chain. -/
theorem request_ne_nil {node : Node} {context : Value} {world : World} {events : List Event}
    {state : Task Value × World}
    (h : towers.Shows (interpreter.interpret node context, world) events state) {kind : HostKind}
    {chain : Chain} {given : Value} (hrequest : .request kind chain given ∈ events) : chain ≠ [] := by
  have hstart : (interpreter.interpret node context).Obeys nonemptyRequests :=
    (nonemptyRequests_allows interpreter.alone).obeys_interpret ⟨0, .top⟩ node context
  rcases h.obeyed (nonemptyRequests_allows towers).obeys_callTask hstart _ hrequest with
    ⟨function, hresume⟩ | ⟨_, _, hnonempty⟩
  · cases hresume
  · exact hnonempty

/-- A run of a chain is a run of the links before the first unknown one and, if there is such a one and
all before it have succeeded, one request to the host for exactly what is left, on the last result; the
outcome of the host is the outcome of the chain. -/
theorem chain_hand_over (towers : Towers) (interpreter : Interpreter) (chain : Chain) (context : Value)
    (world : World) :
    (interpreter.knownLinks chain ++ interpreter.unknownRest chain = chain ∧
      (∀ link ∈ interpreter.knownLinks chain,
        interpreter.functions.contains link.function = true) ∧
      ∀ link later, interpreter.unknownRest chain = link :: later →
        interpreter.functions.contains link.function = false) ∧
    (∀ events outcome world',
      towers.Shows (interpreter.invokeChain chain context, world) events (.finish outcome, world') ↔
        (∃ error, outcome = .error error ∧
          LinksRun towers interpreter (interpreter.knownLinks chain) context world events
            (.error error) world') ∨
        (interpreter.unknownRest chain = [] ∧ ∃ value, outcome = .ok value ∧
          LinksRun towers interpreter (interpreter.knownLinks chain) context world events
            (.ok value) world') ∨
        ∃ link later value middle first answer, interpreter.unknownRest chain = link :: later ∧
          LinksRun towers interpreter (interpreter.knownLinks chain) context world first
            (.ok value) middle ∧
          events = first ++ .log (.handingOver link.function (later.length + 1)) ::
            .request interpreter.host.kind (link :: later) value :: answer ∧
          towers.Shows (interpreter.host.reply (link :: later) value,
            (middle.record (.log (.handingOver link.function (later.length + 1)))).record
              (.request interpreter.host.kind (link :: later) value)) answer
            (.finish outcome, world')) ∧
    (∀ events state,
      towers.Shows (interpreter.invokeChain chain context, world) events state ↔
        (∃ part world', towers.Shows
            (interpreter.invokeChain (interpreter.knownLinks chain) context, world) events
            (part, world') ∧
          state = (part.bind (interpreter.invokeChain (interpreter.unknownRest chain)), world')) ∨
        ∃ value middle first later, events = first ++ later ∧
          LinksRun towers interpreter (interpreter.knownLinks chain) context world first
            (.ok value) middle ∧
          towers.Shows (interpreter.invokeChain (interpreter.unknownRest chain) value, middle) later
            state) ∧
    (interpreter.host = .rejecting → ∀ link later, interpreter.unknownRest chain = link :: later →
      ∀ value middle events outcome world',
        towers.Shows (interpreter.host.reply (link :: later) value, middle) events
            (.finish outcome, world') ↔
          outcome = .error (.functionNotRegistered link.function) ∧
          events = [.log (.functionNotRegistered link.function)] ∧
          world' = middle.record (.log (.functionNotRegistered link.function))) ∧
    (∀ node events state, towers.Shows (interpreter.interpret node context, world) events state →
      ∀ kind rest value, .request kind rest value ∈ events → rest ≠ []) := by
  refine ⟨⟨Interpreter.knownLinks_append_unknownRest chain, Interpreter.knownLinks_known, ?_⟩, ?_, ?_, ?_, ?_⟩
  · intro link later hrest
    rw [FunctionRegistry.contains, Interpreter.unknownRest_unknown hrest]
    rfl
  · intro events outcome world'
    exact shows_invokeChain
  · intro events state
    rw [Interpreter.invokeChain_eq_bind, shows_bind]
    simp only [shows_invokeChain_known Interpreter.knownLinks_known]
  · intro hhost link later _ value middle events outcome world'
    rw [hhost]
    exact shows_reply_rejecting
  · intro node events state hshows kind rest value hrequest
    exact request_ne_nil hshows hrequest

end Towers

end ChainExpr
