import ChainExpr.Proofs.Telling

namespace ChainExpr

/-- Where a node or a link stands in an evaluated node, from the inside out: a link by its index in the
chain of a node, an element by its index among the values of an argument, which in turn stands by its
index among the arguments of a link. -/
abbrev Place := List Nat

inductive Milestone
  /-- The evaluation of a node on a context begins. -/
  | entered (place : Place) (context : Value)
  /-- The evaluation of a node has come to a value. -/
  | left (place : Place) (value : Value)
  /-- A link begins, with the evaluation of its arguments. -/
  | started (place : Place) (context : Value)
  /-- The arguments of a link are there, and its context is to be cast for its function. -/
  | casting (place : Place) (context : Value)
  /-- The function of a link is called. -/
  | called (place : Place) (function : String) (context : Value) (arguments : Arguments)
  /-- The function of a link has come to a value. -/
  | finished (place : Place) (value : Value)

namespace Milestone

/-- Only calls are events. -/
def event? : Milestone → Option Event
  | .called _ function context arguments => some (.call function context arguments)
  | _ => none

end Milestone

namespace Task

theorem bind_ok {α : Type} (task : Task α) : task.bind ok = task := by
  rw [bind]
  refine Eq.trans (congrArg task.andThen (funext fun outcome => ?_)) task.andThen_finish_right
  cases outcome with
  | ok value => rfl
  | error error => rfl

end Task

inductive Plan : Type → Type 1
  /-- A task without milestones. -/
  | plain {α : Type} (task : Task α) : Plan α
  | pass {α : Type} (milestone : Milestone) (next : Plan α) : Plan α
  /-- One plan after another. An error of the first is noted and ends both. -/
  | andThen {α β : Type} (first : Plan β) (noted : RuntimeError → List LogEntry) (next : β → Plan α) :
      Plan α
  /-- Two plans side by side. The first error that counts ends both. -/
  | both {α β γ : Type} (mode : JoinMode) (left : Plan β) (right : Plan γ) (join : β → γ → α) : Plan α

namespace Plan

variable {α β : Type}

/-- What is left of a plan without its milestones. -/
def task {α : Type} : Plan α → Task α
  | .plain task => task
  | .pass milestone next =>
    match milestone.event? with
    | some event => .emit event next.task
    | none => next.task
  | .andThen first noted next =>
    first.task.andThen fun
      | .ok value => (next value).task
      | .error error => Task.emitAll ((noted error).map .log) (.fail error)
  | .both mode left right join => .both mode left.task right.task (Task.together join)

/-- One plan after another, where errors go unnoted. -/
def bind (first : Plan β) (next : β → Plan α) : Plan α := .andThen first (fun _ => []) next

theorem task_bind (first : Plan β) (next : β → Plan α) :
    (first.bind next).task = first.task.bind fun value => (next value).task := by
  rw [bind, task, Task.bind]
  refine congrArg first.task.andThen (funext fun outcome => ?_)
  cases outcome with
  | ok value => rfl
  | error error => rfl

def joinAll : List (Plan α) → Plan (List α)
  | [] => .plain (.ok [])
  | plan :: rest => .both .eager plan (joinAll rest) List.cons

def joinInOrder (before : Plan (List α)) : List (Plan α) → Plan (List α)
  | [] => before
  | plan :: rest =>
    joinInOrder (.both .inOrder before plan fun values value => values ++ [value]) rest

/-- Plans side by side. -/
def join (plans : List (Plan α)) : Plan (List α) :=
  if plans.length ≤ Task.joinLimit then joinAll plans else joinInOrder (.plain (.ok [])) plans

theorem task_join (plans : List (Plan α)) : (join plans).task = Task.join (plans.map task) := by
  have hall : (joinAll plans).task = Task.joinAll (plans.map task) := by
    induction plans with
    | nil => rfl
    | cons plan rest ih => rw [joinAll, task, ih, List.map_cons, Task.joinAll]
  have hbehind (before : Plan (List α)) :
      (joinInOrder before plans).task = Task.joinInOrder before.task (plans.map task) := by
    clear hall
    induction plans generalizing before with
    | nil => rfl
    | cons plan rest ih => rw [joinInOrder, ih, task, List.map_cons, Task.joinInOrder]
  rw [join, Task.join, List.length_map]
  split
  · exact hall
  · exact hbehind _

/-- Enters a node and leaves it again. -/
def enclose (place : Place) (context : Value) (body : Plan Value) : Plan Value :=
  .pass (.entered place context) <|
    body.bind fun value => .pass (.left place value) (.plain (.ok value))

theorem task_enclose (place : Place) (context : Value) (body : Plan Value) :
    (enclose place context body).task = body.task :=
  (task_bind body _).trans body.task.bind_ok

end Plan

namespace FunctionDefinition

/-- The implementation of a function, and the check of what it returns. -/
def perform (definition : FunctionDefinition) (context : Value) (arguments : Arguments) : Task Value :=
  ((Task.routine definition.name (definition.implementation context arguments) .finish).onError
    definition.failureEntry).bind definition.checkReturn

/-- A context as it has been cast, or the failure to cast it. -/
def receive (definition : FunctionDefinition) : Except CastError Value → Task Value
  | .error error => .emit (.log (.contextRejected definition.name error)) (.fail (.cast error))
  | .ok received => .ok received

end FunctionDefinition

namespace Site

variable {site : Site} {definition : FunctionDefinition}

/-- What is left between the arguments of a link and the call: the context is cast. -/
def approach (site : Site) (definition : FunctionDefinition) (arguments : Arguments) (context : Value) :
    Task Value :=
  site.announce definition arguments context <|
    Task.cast site.equipment.types context definition.acceptable definition.receive

/-- A call is made as soon as the context is cast. -/
theorem announce_invoke (arguments : Arguments) (context : Value) :
    site.announce definition arguments context
        (definition.invoke site.equipment.types context arguments) =
      (site.approach definition arguments context).bind fun received =>
        .emit (.call definition.name received arguments) (definition.perform received arguments) := by
  rw [approach, ← announce_bind, Task.bind, Task.cast_andThen, FunctionDefinition.invoke]
  refine congrArg (site.announce definition arguments context) ?_
  refine congrArg (Task.cast _ _ _) (funext fun outcome => ?_)
  cases outcome with
  | ok received => rfl
  | error error => rfl

/-- The arguments of one link, from a plan of their values. -/
def planResolve (site : Site) (definition : FunctionDefinition) (names : List String)
    (values : Plan (List (List Value))) : Plan Arguments :=
  match definition.resolveNames names with
  | .error name =>
    let error : RuntimeError := .unknownArgument definition.name name
    .plain (.emit (.log (.argumentsRejected definition.name error)) (.fail error))
  | .ok names =>
    .andThen values (fun error => [.argumentEvaluationFailed definition.name error]) fun values =>
      .plain ((definition.bindArguments site.equipment.types
        (FunctionDefinition.foldValues names values)).onError (.argumentsRejected definition.name))

/-- One link whose function is known. -/
def planLink (site : Site) (place : Place) (definition : FunctionDefinition) (names : List String)
    (values : Plan (List (List Value))) (context : Value) : Plan Value :=
  .pass (.started place context) <|
    (site.planResolve definition names values).bind fun bound =>
      .pass (.casting place context) <|
        (Plan.plain (site.approach definition bound context)).bind fun received =>
          .pass (.called place definition.name received bound) <|
            (Plan.plain (definition.perform received bound)).bind fun result =>
              .pass (.finished place result) (.plain (.ok result))

mutual

/-- The plan of a node. -/
def plan (site : Site) (place : Place) : Node → Value → Plan Value
  | .expression chain, context => .enclose place context (site.planChain place 0 chain context)
  | .deferred chain, context =>
    .enclose place context
      (.plain (.create fun serial => .ok (.function (.deferred site.home serial chain))))
  | .reference name, context => .enclose place context (.plain (.ok (.function (.reference name))))
  | .literal literal, context => .enclose place context (.plain (.ok (.ofLiteral literal)))

/-- The links of a chain from some index on. -/
def planChain (site : Site) (place : Place) (index : Nat) : List (LinkOf Node) → Value → Plan Value
  | [], context => .plain (.ok context)
  | ⟨name, arguments⟩ :: rest, context =>
    match site.equipment.functions.lookup name with
    | none =>
      .plain (.emit (.log (.handingOver name (rest.length + 1)))
        (site.handOver (⟨name, arguments⟩ :: rest) context))
    | some definition =>
      (site.planLink (index :: place) definition (Entries.names arguments)
        (.join (site.planLists (index :: place) 0 arguments context)) context).bind fun result =>
          site.planChain place (index + 1) rest result

def planLists (site : Site) (place : Place) (index : Nat) :
    List (String × List Node) → Value → List (Plan (List Value))
  | [], _ => []
  | (_, values) :: rest, context =>
    .join (site.planEach (index :: place) 0 values context) ::
      site.planLists place (index + 1) rest context

def planEach (site : Site) (place : Place) (index : Nat) : List Node → Value → List (Plan Value)
  | [], _ => []
  | node :: rest, context =>
    site.plan (index :: place) node context :: site.planEach place (index + 1) rest context

end

theorem task_planResolve (names : List String) (values : Plan (List (List Value))) :
    (site.planResolve definition names values).task =
      site.resolve definition names values.task := by
  rw [planResolve, resolve]
  cases definition.resolveNames names with
  | error name => rfl
  | ok names =>
    simp only [Plan.task, Task.onError, Task.bind, Task.andThen_assoc]
    refine congrArg values.task.andThen (funext fun outcome => ?_)
    cases outcome with
    | ok values => rfl
    | error error => rfl

theorem task_planLink (place : Place) (names : List String) (values : Plan (List (List Value)))
    (context : Value) :
    (site.planLink place definition names values context).task =
      (site.resolve definition names values.task).bind fun bound =>
        site.announce definition bound context
          (definition.invoke site.equipment.types context bound) := by
  simp only [planLink, Plan.task, Milestone.event?, Plan.task_bind, task_planResolve, announce_invoke]
  refine congrArg (Task.bind _) (funext fun bound => congrArg (Task.bind _) (funext fun received => ?_))
  exact congrArg (Task.emit _) (Task.bind_ok _)

/-- Without its milestones the plan of a node is what evaluates it. -/
theorem task_plan (node : Node) : ∀ place context,
    (site.plan place node context).task = site.interpret node context := by
  refine @Node.induction
    (fun node => ∀ place context, (site.plan place node context).task = site.interpret node context)
    (fun chain => ∀ place index context,
      (site.planChain place index chain context).task = site.runChain chain context)
    (fun given => ∀ place index context,
      (site.planLists place index given context).map Plan.task = site.interpretLists given context)
    (fun given => ∀ place index context,
      (site.planEach place index given context).map Plan.task = site.interpretEach given context)
    ?expression ?deferred ?reference ?literal ?noLink ?link ?noArgument ?argument ?noValue ?value node
  case expression =>
    intro links ih place context
    rw [plan, Plan.task_enclose, ih, interpret]
  case deferred =>
    intro links _ place context
    rw [plan, Plan.task_enclose, Plan.task, interpret]
  case reference =>
    intro name place context
    rw [plan, Plan.task_enclose, Plan.task, interpret]
  case literal =>
    intro literal place context
    rw [plan, Plan.task_enclose, Plan.task, interpret]
  case noLink =>
    intro place index context
    rw [planChain, Plan.task, runChain]
  case link =>
    intro name given rest hgiven hrest place index context
    rw [planChain, runChain]
    cases site.equipment.functions.lookup name with
    | none => rfl
    | some definition =>
      simp only [Plan.task_bind, task_planLink, Plan.task_join, hgiven, hrest, Task.bind_assoc]
      refine congrArg (Task.bind _) (funext fun bound => ?_)
      exact (announce_bind definition bound context _ (site.runChain rest)).symm
  case noArgument =>
    intro place index context
    rw [planLists, List.map_nil, interpretLists]
  case argument =>
    intro name given rest hgiven hrest place index context
    rw [planLists, List.map_cons, Plan.task_join, hgiven, hrest, interpretLists]
  case noValue =>
    intro place index context
    rw [planEach, List.map_nil, interpretEach]
  case value =>
    intro given rest hgiven hrest place index context
    rw [planEach, List.map_cons, hgiven, hrest, interpretEach]

end Site

end ChainExpr
