import ChainExpr.Interpreter.Run
import ChainExpr.Proofs.Links

namespace ChainExpr

/-- Evaluation in order: a state and errors. There is no result where calls are nested too deep. -/
abbrev Sequential := ExceptT RuntimeError (StateT World Option)

namespace Sequential

variable {α β : Type}

def ends (outcome : Except RuntimeError α) : Sequential α := fun world => some (outcome, world)

def event (entry : Event) : Sequential Unit := fun world => some (.ok (), world.record entry)

/-- Takes the next creation number. -/
def number : Sequential Nat := fun world => some (.ok world.serial, world.take)

/-- Notes an error and leaves it as it is. -/
def noting (entry : RuntimeError → LogEntry) (evaluation : Sequential α) : Sequential α :=
  tryCatch evaluation fun error => do
    event (.log (entry error))
    throw error

/-- Evaluations one after the other. -/
def all : List (Sequential α) → Sequential (List α)
  | [] => return []
  | first :: rest => do
    let value ← first
    let values ← all rest
    return value :: values

end Sequential

/-- A routine straight through, as if its waits were over. -/
def Routine.inOrder (enter : Callable → Value → Sequential Value) : Routine → Sequential Value
  | .finish outcome => .ends outcome
  | .wait _ next => next.inOrder enter
  | .arrive point next => fun world => next.inOrder enter (world.arrive point)
  | .await _ _ next => next.inOrder enter
  | .tick next => fun world => (next world.ticks).inOrder enter world.tick
  | .call callee context next => fun world =>
    (enter callee context world).bind fun (outcome, world) => (next outcome).inOrder enter world

/-- A task with the left of two parts before the right, which does not run if the left has failed. -/
def Task.inOrder (enter : Callable → Value → Sequential Value) {α : Type} : Task α → Sequential α
  | .finish outcome => .ends outcome
  | .emit entry next => fun world => next.inOrder enter (world.record entry)
  | .create next => fun world => (next world.serial).inOrder enter world.take
  | .routine _ body next => fun world =>
    (body.inOrder enter world).bind fun (outcome, world) => (next outcome).inOrder enter world
  | .both _ left right next => fun world =>
    (left.inOrder enter world).bind fun (outcome, world) =>
      match outcome with
      | .error error => (next (.error error)).inOrder enter world
      | .ok a =>
        (right.inOrder enter world).bind fun (outcome, world) =>
          (next (outcome.map fun b => (a, b))).inOrder enter world

namespace Site

/-- One link whose function is known, from a way to evaluate its arguments. -/
def linkValue (site : Site) (run : {α : Type} → Task α → Sequential α)
    (definition : FunctionDefinition) (link : Link) (context : Value)
    (values : Sequential (List (List Value))) : Sequential Value :=
  match definition.resolveNames (Entries.names link.arguments) with
  | .error unknown => do
    let error : RuntimeError := .unknownArgument definition.name unknown
    .event (.log (.argumentsRejected definition.name error))
    throw error
  | .ok names => do
    let values ← .noting (.argumentEvaluationFailed definition.name) values
    let bound ← .noting (.argumentsRejected definition.name)
      (run (definition.bindArguments site.equipment.types
        (FunctionDefinition.foldValues names values)))
    if site.equipment.config.traceLinks then
      .event (.log (.invokingLink definition.name bound.names context.type))
    run (definition.invoke site.equipment.types context bound)

mutual

/-- The value of a node, from a way to run what has no parts side by side and a way to hand over. -/
def value (site : Site) (run : {α : Type} → Task α → Sequential α)
    (handOver : Chain → Value → Sequential Value) : Node → Value → Sequential Value
  | .expression chain, context => site.chainValue run handOver chain context
  | .deferred chain, _ => do
    let serial ← .number
    return .function (.deferred site.home serial chain)
  | .reference name, _ => return .function (.reference name)
  | .literal literal, _ => return .ofLiteral literal

/-- Link by link, each on the result of the one before. -/
def chainValue (site : Site) (run : {α : Type} → Task α → Sequential α)
    (handOver : Chain → Value → Sequential Value) :
    List (LinkOf Node) → Value → Sequential Value
  | [], context => return context
  | ⟨name, arguments⟩ :: rest, context =>
    match site.equipment.functions.lookup name with
    | none => do
      .event (.log (.handingOver name (rest.length + 1)))
      handOver (⟨name, arguments⟩ :: rest) context
    | some definition => do
      let result ← site.linkValue run definition ⟨name, arguments⟩ context
        (site.argumentValues run handOver arguments context)
      site.chainValue run handOver rest result

/-- Argument by argument. -/
def argumentValues (site : Site) (run : {α : Type} → Task α → Sequential α)
    (handOver : Chain → Value → Sequential Value) :
    List (String × List Node) → Value → Sequential (List (List Value))
  | [], _ => return []
  | (_, nodes) :: rest, context => do
    let values ← site.elementValues run handOver nodes context
    let rest ← site.argumentValues run handOver rest context
    return values :: rest

/-- Element by element. -/
def elementValues (site : Site) (run : {α : Type} → Task α → Sequential α)
    (handOver : Chain → Value → Sequential Value) :
    List Node → Value → Sequential (List Value)
  | [], _ => return []
  | node :: rest, context => do
    let value ← site.value run handOver node context
    let rest ← site.elementValues run handOver rest context
    return value :: rest

end

end Site

mutual

/-- Chains on an interpreter, plainly. -/
def Interpreter.chainValue (run : {α : Type} → Task α → Sequential α) :
    Interpreter → Chain → Value → Sequential Value
  | .mk equipment host, chain, context =>
    Site.chainValue ⟨equipment, host.height, host.answer⟩ run (host.answerValue run) chain context

/-- What a host makes of a chain, plainly. -/
def Host.answerValue (run : {α : Type} → Task α → Sequential α) :
    Host → Chain → Value → Sequential Value
  | .rejecting, chain, context => do
    let name := (Chain.head? chain).getD ""
    .event (.request .rejecting chain context)
    .event (.log (.functionNotRegistered name))
    throw (.functionNotRegistered name)
  | .delegating fallback, chain, context => do
    .event (.request (.delegating fallback.home) chain context)
    .event (.log (.delegating ((Chain.head? chain).getD "") chain.length))
    fallback.chainValue run chain context
  | .custom _ answer, chain, context => do
    .event (.request .custom chain context)
    run (.routine "" (answer chain context) .finish)

end

/-- What has a result one way has the same result the other way. -/
def Sequential.Extends (enter deeper : Callable → Value → Sequential Value) : Prop :=
  ∀ callee context world result, enter callee context world = some result →
    deeper callee context world = some result

theorem Routine.inOrder_extends {enter deeper : Callable → Value → Sequential Value}
    (hextends : Sequential.Extends enter deeper) {body : Routine} {world : World}
    {result : Except RuntimeError Value × World} (h : body.inOrder enter world = some result) :
    body.inOrder deeper world = some result := by
  induction body generalizing world with
  | finish outcome => exact h
  | wait polls next ih => exact ih h
  | arrive point next ih => exact ih h
  | await point count next ih => exact ih h
  | tick next ih => exact ih world.ticks h
  | call callee context next ih =>
    obtain ⟨⟨outcome, middle⟩, hcall, hnext⟩ := Option.bind_eq_some_iff.mp h
    exact Option.bind_eq_some_iff.mpr
      ⟨_, hextends callee context world _ hcall, ih outcome hnext⟩

theorem Task.inOrder_extends {enter deeper : Callable → Value → Sequential Value} {α : Type}
    (hextends : Sequential.Extends enter deeper) {task : Task α} {world : World}
    {result : Except RuntimeError α × World} (h : task.inOrder enter world = some result) :
    task.inOrder deeper world = some result := by
  induction task generalizing world with
  | finish outcome => exact h
  | emit entry next ih => exact ih h
  | create next ih => exact ih world.serial h
  | routine function body next ih =>
    obtain ⟨⟨outcome, middle⟩, hbody, hnext⟩ := Option.bind_eq_some_iff.mp h
    exact Option.bind_eq_some_iff.mpr
      ⟨_, Routine.inOrder_extends hextends hbody, ih outcome hnext⟩
  | both mode left right next ihl ihr ih =>
    simp only [Task.inOrder] at h ⊢
    obtain ⟨⟨outcome, middle⟩, hleft, hrest⟩ := Option.bind_eq_some_iff.mp h
    refine Option.bind_eq_some_iff.mpr ⟨_, ihl hleft, ?_⟩
    cases outcome with
    | error error => exact ih (.error error) hrest
    | ok a =>
      obtain ⟨⟨outcome, last⟩, hright, hnext⟩ := Option.bind_eq_some_iff.mp hrest
      exact Option.bind_eq_some_iff.mpr ⟨_, ihr hright, ih _ hnext⟩

namespace Sequential

variable {α β : Type} {enter : Callable → Value → Sequential Value}

theorem bind_apply (first : Sequential α) (next : α → Sequential β) (world : World) :
    (first >>= next) world = (first world).bind fun (outcome, world) =>
      match outcome with
      | .ok value => next value world
      | .error error => some (.error error, world) := by
  change (first world).bind _ = _
  refine congrArg _ (funext fun result => ?_)
  obtain ⟨outcome, middle⟩ := result
  cases outcome with
  | ok value => rfl
  | error error => rfl

theorem noting_apply (entry : RuntimeError → LogEntry) (evaluation : Sequential α) (world : World) :
    noting entry evaluation world = (evaluation world).bind fun (outcome, world) =>
      match outcome with
      | .ok value => some (.ok value, world)
      | .error error => some (.error error, world.record (.log (entry error))) := by
  change (evaluation world).bind _ = _
  refine congrArg _ (funext fun result => ?_)
  obtain ⟨outcome, middle⟩ := result
  cases outcome with
  | ok value => rfl
  | error error => rfl

theorem inOrder_andThen (task : Task α) (next : Except RuntimeError α → Task β) (world : World) :
    (task.andThen next).inOrder enter world =
      (task.inOrder enter world).bind fun (outcome, world) => (next outcome).inOrder enter world := by
  induction task generalizing world with
  | finish outcome => rfl
  | emit entry rest ih => exact ih next (world.record entry)
  | create rest ih => exact ih world.serial next world.take
  | routine function body rest ih =>
    simp only [Task.andThen, Task.inOrder, Option.bind_assoc]
    exact congrArg _ (funext fun result => ih result.1 next result.2)
  | both mode left right rest _ _ ih =>
    simp only [Task.andThen, Task.inOrder, Option.bind_assoc]
    refine congrArg _ (funext fun result => ?_)
    obtain ⟨outcome, middle⟩ := result
    cases outcome with
    | error error => exact ih (.error error) next middle
    | ok a =>
      simp only [Option.bind_assoc]
      exact congrArg _ (funext fun result => ih (result.1.map fun b => (a, b)) next result.2)

theorem inOrder_bind (task : Task α) (next : α → Task β) :
    (task.bind next).inOrder enter =
      task.inOrder enter >>= fun value => (next value).inOrder enter := by
  funext world
  rw [Task.bind, inOrder_andThen, bind_apply]
  refine congrArg _ (funext fun result => ?_)
  obtain ⟨outcome, middle⟩ := result
  cases outcome with
  | ok value => rfl
  | error error => rfl

theorem inOrder_onError (task : Task α) (entry : RuntimeError → LogEntry) :
    (task.onError entry).inOrder enter = noting entry (task.inOrder enter) := by
  funext world
  rw [Task.onError, inOrder_andThen, noting_apply]
  refine congrArg _ (funext fun result => ?_)
  obtain ⟨outcome, middle⟩ := result
  cases outcome with
  | ok value => rfl
  | error error => rfl

theorem inOrder_emit (entry : Event) (next : Task α) :
    (Task.emit entry next).inOrder enter = event entry >>= fun _ => next.inOrder enter := rfl

/-- Two parts whose values are put together: the one, then the other. -/
theorem inOrder_both {γ : Type} (left : Task α) (right : Task β)
    (next : Except RuntimeError (α × β) → Task γ) (combine : α → β → γ)
    (hok : ∀ a b, next (.ok (a, b)) = .ok (combine a b))
    (herror : ∀ error, next (.error error) = .fail error) :
    (Task.both mode left right next).inOrder enter = do
      let a ← left.inOrder enter
      let b ← right.inOrder enter
      return combine a b := by
  funext world
  rw [bind_apply, Task.inOrder]
  refine congrArg _ (funext fun result => ?_)
  obtain ⟨outcome, middle⟩ := result
  cases outcome with
  | error error =>
    simp only [herror]
    rfl
  | ok a =>
    simp only [bind_apply]
    refine congrArg _ (funext fun result => ?_)
    obtain ⟨outcome, last⟩ := result
    cases outcome with
    | ok b =>
      simp only [Except.map, hok]
      rfl
    | error error =>
      simp only [Except.map, herror]
      rfl

/-- However tasks are joined, in order they come to what they come to one after the other. -/
theorem inOrder_join (tasks : List (Task α)) :
    (Task.join tasks).inOrder enter = Sequential.all (tasks.map fun task => task.inOrder enter) := by
  have hjoinAll : (Task.joinAll tasks).inOrder enter =
      Sequential.all (tasks.map fun task => task.inOrder enter) := by
    induction tasks with
    | nil => rfl
    | cons task rest ih =>
      rw [Task.joinAll, inOrder_both _ _ _ List.cons (fun _ _ => rfl) (fun _ => rfl), ih]
      rfl
  have hjoinInOrder (before : Task (List α)) : (Task.joinInOrder before tasks).inOrder enter = do
      let values ← before.inOrder enter
      let later ← Sequential.all (tasks.map fun task => task.inOrder enter)
      return values ++ later := by
    clear hjoinAll
    induction tasks generalizing before with
    | nil => simp [Task.joinInOrder, Sequential.all]
    | cons task rest ih =>
      rw [Task.joinInOrder, ih, inOrder_both _ _ _ (fun values value => values ++ [value])
        (fun _ _ => rfl) (fun _ => rfl), List.map_cons, Sequential.all]
      simp only [bind_assoc, pure_bind, List.append_assoc, List.singleton_append]
  rw [Task.join]
  split
  · exact hjoinAll
  · rw [hjoinInOrder]
    exact (pure_bind _ _).trans (bind_pure _)

end Sequential

open ChainExpr.Sequential

variable {enter : Callable → Value → Sequential Value}

theorem Site.inOrder_runLink (site : Site) (definition : FunctionDefinition) (link : Link)
    (context : Value) :
    (site.runLink definition link context).inOrder enter =
      site.linkValue (Task.inOrder enter) definition link context
        ((site.interpretArguments link.arguments context).inOrder enter) := by
  rw [Site.runLink, inOrder_bind, Site.resolve, Site.linkValue]
  cases definition.resolveNames (Entries.names link.arguments) with
  | error unknown => rfl
  | ok names =>
    simp only [inOrder_bind, inOrder_onError, bind_assoc]
    refine congrArg _ (funext fun values => congrArg _ (funext fun bound => ?_))
    rw [Site.announce]
    split
    · rfl
    · rfl

theorem Site.elementValues_eq (site : Site) {run : {α : Type} → Task α → Sequential α}
    {handOver : Chain → Value → Sequential Value} (nodes : List Node) (context : Value) :
    site.elementValues run handOver nodes context =
      Sequential.all (nodes.map fun node => site.value run handOver node context) := by
  induction nodes with
  | nil => rfl
  | cons node rest ih =>
    rw [Site.elementValues, ih]
    rfl

theorem Site.argumentValues_eq (site : Site) {run : {α : Type} → Task α → Sequential α}
    {handOver : Chain → Value → Sequential Value} (given : List (String × List Node))
    (context : Value) :
    site.argumentValues run handOver given context =
      Sequential.all (given.map fun entry =>
        Sequential.all (entry.2.map fun node => site.value run handOver node context)) := by
  induction given with
  | nil => rfl
  | cons entry rest ih =>
    rw [Site.argumentValues, ih, Site.elementValues_eq]
    rfl

/-- On one interpreter the plain evaluator gives what the tasks of nodes come to in order, if it does so
for its host. -/
theorem Site.inOrder_interpret (site : Site) {handOver : Chain → Value → Sequential Value}
    (hhost : ∀ chain context, (site.handOver chain context).inOrder enter = handOver chain context)
    (node : Node) : ∀ context, (site.interpret node context).inOrder enter =
      site.value (Task.inOrder enter) handOver node context := by
  refine @Node.induction_links
    (fun node => ∀ context, (site.interpret node context).inOrder enter =
      site.value (Task.inOrder enter) handOver node context)
    (fun links => ∀ context, (site.runChain links context).inOrder enter =
      site.chainValue (Task.inOrder enter) handOver links context)
    ?expression ?deferred ?reference ?literal ?noLink ?link node
  case expression => exact fun links ih => ih
  case deferred => exact fun links _ context => rfl
  case reference => exact fun name context => rfl
  case literal => exact fun value context => rfl
  case noLink => exact fun context => rfl
  case link =>
    intro name given rest hgiven hrest context
    rw [Site.chainValue]
    cases hlookup : site.equipment.functions.lookup name with
    | none =>
      rw [Site.runChain_unknown hlookup, inOrder_emit, hhost]
    | some definition =>
      have hvalues : (site.interpretArguments given context).inOrder enter =
          site.argumentValues (Task.inOrder enter) handOver given context := by
        rw [Site.interpretArguments_eq, inOrder_join, Site.argumentValues_eq, List.map_map]
        refine congrArg _ (List.map_congr_left fun entry hentry => ?_)
        rw [Function.comp_apply, inOrder_join, List.map_map]
        exact congrArg _ (List.map_congr_left fun value hvalue => hgiven entry hentry value hvalue context)
      rw [Site.runChain_known hlookup, inOrder_bind, Site.inOrder_runLink, hvalues]
      simp only [hrest]

namespace Interpreter

/-- The plain evaluation of a node, from a way to call function values. -/
def sequentialWith (enter : Callable → Value → Sequential Value) (interpreter : Interpreter)
    (node : Node) (context : Value) : Sequential Value :=
  interpreter.site.value (Task.inOrder enter) (interpreter.host.answerValue (Task.inOrder enter)) node
    context

theorem chainValue_eq (interpreter : Interpreter) (chain : Chain) (context : Value) :
    interpreter.chainValue (Task.inOrder enter) chain context =
      interpreter.sequentialWith enter (.expression chain) context := by
  cases interpreter
  rfl

/-- The plain evaluator gives what the task of a node comes to in order. -/
theorem inOrder_interpret (interpreter : Interpreter) (node : Node) (context : Value) :
    (interpreter.interpret node context).inOrder enter =
      interpreter.sequentialWith enter node context := by
  induction interpreter using Interpreter.induction generalizing node context with
  | step equipment host ih =>
    apply Site.inOrder_interpret
    intro chain context
    change (host.answer chain context).inOrder enter = host.answerValue (Task.inOrder enter) chain context
    cases host with
    | rejecting => rfl
    | custom name answer => rfl
    | delegating fallback =>
      have hfallback := ih fallback rfl (.expression chain) context
      rw [Host.answerValue, chainValue_eq, ← hfallback, Host.answer, inOrder_emit, inOrder_emit,
        invokeChain_eq]
      rfl

end Interpreter

namespace Towers

/-- What a called function value comes to where calls may be nested so deep. -/
def sequentialCall (towers : Towers) : Nat → Callable → Value → Sequential Value
  | 0, _, _ => fun _ => none
  | depth + 1, .deferred home _ chain, context =>
    (towers.resident home).sequentialWith (towers.sequentialCall depth) (.expression chain) context
  | _ + 1, .reference name, _ => throw (.notCallable name)

/-- The plain evaluation of a node on an interpreter. Calls of function values may be nested `depth`
deep. -/
def sequential (towers : Towers) (interpreter : Interpreter) (depth : Nat) (node : Node)
    (context : Value) : Sequential Value :=
  interpreter.sequentialWith (towers.sequentialCall depth) node context

theorem sequentialCall_succ (towers : Towers) (depth : Nat) (callee : Callable)
    (context : Value) :
    towers.sequentialCall (depth + 1) callee context =
      (towers.callTask callee context).inOrder (towers.sequentialCall depth) := by
  cases callee with
  | deferred home serial chain =>
    rw [sequentialCall, ← Interpreter.inOrder_interpret, callTask, Interpreter.invokeChain_eq]
    rfl
  | reference name => rfl

theorem sequentialCall_extends {towers : Towers} {depth deeper : Nat} (hle : depth ≤ deeper) :
    Sequential.Extends (towers.sequentialCall depth) (towers.sequentialCall deeper) := by
  induction depth generalizing deeper with
  | zero =>
    intro callee context world result h
    cases h
  | succ depth ih =>
    obtain ⟨more, rfl⟩ := Nat.exists_eq_add_of_le' hle
    intro callee context world result h
    rw [← Nat.add_assoc, sequentialCall_succ]
    rw [sequentialCall_succ] at h
    exact Task.inOrder_extends (ih (Nat.le_add_left depth more)) h

theorem sequential_deeper {towers : Towers} {interpreter : Interpreter} {depth deeper : Nat}
    (hle : depth ≤ deeper) {node : Node} {context : Value} {world : World}
    {result : Except RuntimeError Value × World}
    (h : towers.sequential interpreter depth node context world = some result) :
    towers.sequential interpreter deeper node context world = some result := by
  rw [sequential, ← Interpreter.inOrder_interpret] at h ⊢
  exact Task.inOrder_extends (sequentialCall_extends hle) h

/-- The plain evaluation has one result, however deep calls may be. -/
theorem sequential_unique {towers : Towers} {interpreter : Interpreter} {depth depth' : Nat}
    {node : Node} {context : Value} {world : World}
    {first second : Except RuntimeError Value × World}
    (h : towers.sequential interpreter depth node context world = some first)
    (h' : towers.sequential interpreter depth' node context world = some second) :
    first = second := by
  have hdeep := sequential_deeper (Nat.le_max_left depth depth') h
  have hdeep' := sequential_deeper (Nat.le_max_right depth depth') h'
  exact Option.some.inj (hdeep.symm.trans hdeep')

end Towers

end ChainExpr
