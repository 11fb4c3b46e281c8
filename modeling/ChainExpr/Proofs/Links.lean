import ChainExpr.Interpreter.Chain
import Mathlib.Data.List.TakeWhile

namespace ChainExpr

namespace Task

variable {α β γ : Type}

theorem bind_assoc (task : Task α) (f : α → Task β) (g : β → Task γ) :
    (task.bind f).bind g = task.bind fun value => (f value).bind g := by
  rw [bind, bind, andThen_assoc]
  refine congrArg task.andThen (funext fun outcome => ?_)
  cases outcome with
  | ok value => rfl
  | error error => rfl

end Task

/-- Induction on a node along the chains, arguments and values that nodes are made of. -/
theorem Node.induction {node : Node → Prop} {chain : Chain → Prop}
    {arguments : List (String × List Node) → Prop} {values : List Node → Prop}
    (expression : ∀ links, chain links → node (.expression links))
    (deferred : ∀ links, chain links → node (.deferred links))
    (reference : ∀ name, node (.reference name)) (literal : ∀ value, node (.literal value))
    (noLink : chain [])
    (link : ∀ name given rest, arguments given → chain rest → chain (⟨name, given⟩ :: rest))
    (noArgument : arguments [])
    (argument : ∀ name given rest, values given → arguments rest → arguments ((name, given) :: rest))
    (noValue : values []) (value : ∀ given rest, node given → values rest → values (given :: rest))
    (root : Node) : node root :=
  @Node.rec node chain (fun link => arguments link.arguments) arguments (fun entry => values entry.2)
    values expression deferred reference literal noLink
    (fun head rest hhead hrest => link head.function head.arguments rest hhead hrest)
    (fun _ _ h => h) noArgument
    (fun head rest hhead hrest => argument head.1 head.2 rest hhead hrest)
    (fun _ _ h => h) noValue value root

/-- Induction on a node along its chains, link by link with all the nodes among its values. -/
theorem Node.induction_links {node : Node → Prop} {chain : Chain → Prop}
    (expression : ∀ links, chain links → node (.expression links))
    (deferred : ∀ links, chain links → node (.deferred links))
    (reference : ∀ name, node (.reference name)) (literal : ∀ value, node (.literal value))
    (noLink : chain [])
    (link : ∀ name given rest, (∀ entry ∈ given, ∀ value ∈ entry.2, node value) → chain rest →
      chain (⟨name, given⟩ :: rest)) (root : Node) : node root :=
  @Node.induction node chain (fun given => ∀ entry ∈ given, ∀ value ∈ entry.2, node value)
    (fun given => ∀ value ∈ given, node value) expression deferred reference literal noLink link
    (fun _ h => nomatch h) (fun _ _ _ hvalues hrest => List.forall_mem_cons.mpr ⟨hvalues, hrest⟩)
    (fun _ h => nomatch h) (fun _ _ hfirst hrest => List.forall_mem_cons.mpr ⟨hfirst, hrest⟩) root

namespace Host

/-- What a host does once it has been asked for a chain. -/
def reply : Host → Chain → Value → Task Value
  | .rejecting, chain, _ =>
    .emit (.log (.functionNotRegistered ((Chain.head? chain).getD "")))
      (.fail (.functionNotRegistered ((Chain.head? chain).getD "")))
  | .delegating fallback, chain, context =>
    .emit (.log (.delegating ((Chain.head? chain).getD "") chain.length))
      (fallback.invokeChain chain context)
  | .custom _ answer, chain, context => .routine "" (answer chain context) .finish

/-- A host is asked before it does anything. -/
theorem answer_eq (host : Host) (chain : Chain) (context : Value) :
    host.answer chain context = .emit (.request host.kind chain context) (host.reply chain context) := by
  cases host with
  | rejecting => rfl
  | delegating fallback => rfl
  | custom name answer => rfl

end Host

namespace FunctionRegistry

theorem contains_iff {registry : FunctionRegistry} {name : String} :
    registry.contains name = true ↔ ∃ definition, registry.lookup name = some definition :=
  Option.isSome_iff_exists

/-- What is found in a registry has been registered under some name. -/
theorem get?_of_lookup {registry : FunctionRegistry} {name : String} {definition : FunctionDefinition}
    (h : registry.lookup name = some definition) :
    ∃ primary, registry.functions.get? primary = some definition := by
  rw [lookup] at h
  split at h
  · rename_i found hfound
    cases h
    exact ⟨name, hfound⟩
  · obtain ⟨primary, _, hfound⟩ := Option.bind_eq_some_iff.mp h
    exact ⟨primary, hfound⟩

theorem mem_of_lookup_ofList {definitions : List FunctionDefinition} {name : String}
    {definition : FunctionDefinition} (h : (ofList definitions).lookup name = some definition) :
    definition ∈ definitions := by
  have hfold : ∀ registry : FunctionRegistry, ∀ primary,
      (definitions.foldl register registry).functions.get? primary = some definition →
        definition ∈ definitions ∨ ∃ primary, registry.functions.get? primary = some definition := by
    clear h
    induction definitions with
    | nil => exact fun registry primary hfound => .inr ⟨primary, hfound⟩
    | cons first rest ih =>
      intro registry primary hfound
      rcases ih (registry.register first) primary hfound with hrest | ⟨earlier, hearlier⟩
      · exact .inl (List.mem_cons_of_mem first hrest)
      · rw [register, OrderedMap.get?_insert] at hearlier
        split at hearlier
        · cases hearlier
          exact .inl List.mem_cons_self
        · exact .inr ⟨earlier, hearlier⟩
  obtain ⟨primary, hfound⟩ := get?_of_lookup h
  rcases hfold empty primary hfound with hmem | ⟨_, hnone⟩
  · exact hmem
  · cases hnone

end FunctionRegistry

namespace Site

variable {site : Site}

theorem interpretEach_eq (nodes : List Node) (context : Value) :
    site.interpretEach nodes context = nodes.map fun node => site.interpret node context := by
  induction nodes with
  | nil => rw [interpretEach, List.map_nil]
  | cons node rest ih => rw [interpretEach, List.map_cons, ih]

/-- The values of a link are the nodes of the call site, evaluated side by side. -/
theorem interpretArguments_eq (arguments : List (String × List Node)) (context : Value) :
    site.interpretArguments arguments context =
      Task.join (arguments.map fun entry =>
        Task.join (entry.2.map fun node => site.interpret node context)) := by
  refine congrArg Task.join ?_
  induction arguments with
  | nil => rw [interpretLists, List.map_nil]
  | cons entry rest ih => rw [interpretLists, List.map_cons, interpretEach_eq, ih]

/-- One link whose function is known: its arguments, and then the function. -/
def runLink (site : Site) (definition : FunctionDefinition) (link : Link) (context : Value) :
    Task Value :=
  (site.resolve definition (Entries.names link.arguments)
    (site.interpretArguments link.arguments context)).bind fun bound =>
    site.announce definition bound context (definition.invoke site.equipment.types context bound)

theorem announce_bind (definition : FunctionDefinition) (arguments : Arguments)
    (context : Value) (task : Task Value) (next : Value → Task Value) :
    site.announce definition arguments context (task.bind next) =
      (site.announce definition arguments context task).bind next := by
  rw [announce, announce]
  split
  · rfl
  · rfl

theorem runChain_known {link : Link} {definition : FunctionDefinition}
    (known : site.equipment.functions.lookup link.function = some definition) (rest : Chain)
    (context : Value) :
    site.runChain (link :: rest) context =
      (site.runLink definition link context).bind (site.runChain rest) := by
  rw [runChain, known, runLink, Task.bind_assoc]
  refine congrArg (Task.bind _) (funext fun bound => ?_)
  exact announce_bind definition bound context _ (site.runChain rest)

theorem runChain_unknown {link : Link}
    (unknown : site.equipment.functions.lookup link.function = none) (rest : Chain)
    (context : Value) :
    site.runChain (link :: rest) context =
      .emit (.log (.handingOver link.function (rest.length + 1)))
        (site.handOver (link :: rest) context) := by
  rw [runChain, unknown]

end Site

namespace Interpreter

variable {interpreter : Interpreter}

def runLink (interpreter : Interpreter) (definition : FunctionDefinition) (link : Link)
    (context : Value) : Task Value :=
  interpreter.site.runLink definition link context

theorem invokeChain_nil (context : Value) : interpreter.invokeChain [] context = .ok context := by
  rw [invokeChain_eq, Site.runChain]

theorem invokeChain_known {link : Link} {definition : FunctionDefinition}
    (known : interpreter.functions.lookup link.function = some definition) (rest : Chain)
    (context : Value) :
    interpreter.invokeChain (link :: rest) context =
      (interpreter.runLink definition link context).bind (interpreter.invokeChain rest) := by
  have hknown : interpreter.site.equipment.functions.lookup link.function = some definition := known
  rw [invokeChain_eq, Site.runChain_known hknown, runLink]
  exact congrArg _ (funext fun value => (invokeChain_eq interpreter rest value).symm)

theorem invokeChain_unknown {link : Link}
    (unknown : interpreter.functions.lookup link.function = none) (rest : Chain) (context : Value) :
    interpreter.invokeChain (link :: rest) context =
      .emit (.log (.handingOver link.function (rest.length + 1)))
        (.emit (.request interpreter.host.kind (link :: rest) context)
          (interpreter.host.reply (link :: rest) context)) := by
  have hunknown : interpreter.site.equipment.functions.lookup link.function = none := unknown
  rw [invokeChain_eq, Site.runChain_unknown hunknown]
  exact congrArg _ (Host.answer_eq interpreter.host (link :: rest) context)

/-- Links that are all known run before anything that comes behind them. -/
theorem invokeChain_append {a : Chain}
    (known : ∀ link ∈ a, interpreter.functions.contains link.function = true) (b : Chain)
    (context : Value) :
    interpreter.invokeChain (a ++ b) context =
      (interpreter.invokeChain a context).bind (interpreter.invokeChain b) := by
  induction a generalizing context with
  | nil =>
    rw [invokeChain_nil]
    rfl
  | cons link rest ih =>
    obtain ⟨definition, hknown⟩ := FunctionRegistry.contains_iff.mp (known link (by simp))
    have hrest : ∀ other ∈ rest, interpreter.functions.contains other.function = true :=
      fun other hother => known other (by simp [hother])
    rw [List.cons_append, invokeChain_known hknown, invokeChain_known hknown, Task.bind_assoc]
    exact congrArg _ (funext fun value => ih hrest value)

/-- The links of a chain before the first one whose function is not known. -/
def knownLinks (interpreter : Interpreter) (chain : Chain) : Chain :=
  chain.takeWhile fun link => interpreter.functions.contains link.function

/-- What is left of a chain from the first link on whose function is not known. -/
def unknownRest (interpreter : Interpreter) (chain : Chain) : Chain :=
  chain.dropWhile fun link => interpreter.functions.contains link.function

theorem knownLinks_append_unknownRest (chain : Chain) :
    interpreter.knownLinks chain ++ interpreter.unknownRest chain = chain :=
  List.takeWhile_append_dropWhile

theorem knownLinks_known {chain : Chain} :
    ∀ link ∈ interpreter.knownLinks chain,
      interpreter.functions.contains link.function = true := by
  intro link hlink
  rw [knownLinks] at hlink
  have hknown := List.mem_takeWhile_imp hlink
  exact hknown

theorem unknownRest_unknown {chain : Chain} {link : Link} {later : Chain}
    (h : interpreter.unknownRest chain = link :: later) :
    interpreter.functions.lookup link.function = none := by
  have hhead := List.head?_dropWhile_not
    (fun link => interpreter.functions.contains link.function) chain
  rw [← unknownRest, h] at hhead
  have hmissing : interpreter.functions.contains link.function = false := by simpa using hhead
  exact Option.isNone_iff_eq_none.mp (by simpa [FunctionRegistry.contains] using hmissing)

/-- Every chain runs its known links first, and then the host has the rest if there is any. -/
theorem invokeChain_eq_bind (chain : Chain) (context : Value) :
    interpreter.invokeChain chain context =
      (interpreter.invokeChain (interpreter.knownLinks chain) context).bind
        (interpreter.invokeChain (interpreter.unknownRest chain)) := by
  rw [← invokeChain_append knownLinks_known, knownLinks_append_unknownRest]

end Interpreter

end ChainExpr
