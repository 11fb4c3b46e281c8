import ChainExpr.Proofs.Accounts
import ChainExpr.Proofs.Conduct

namespace ChainExpr

namespace Task

variable {α β : Type}

theorem emitAll_andThen (events : List Event) (task : Task α)
    (next : Except RuntimeError α → Task β) :
    (emitAll events task).andThen next = emitAll events (task.andThen next) := by
  induction events with
  | nil => rfl
  | cons event rest ih => exact congrArg (emit event) ih

theorem cast_andThen (types : TypeRegistry) (value : Value) (acceptable : List TypeName)
    (found : Except CastError Value → Task α) (next : Except RuntimeError α → Task β) :
    (cast types value acceptable found).andThen next =
      cast types value acceptable fun outcome => (found outcome).andThen next :=
  emitAll_andThen _ _ next

end Task

/-- How an error is told where it arises. -/
inductive RuntimeError.ToldBy : RuntimeError → LogEntry → Prop
  | unknown_argument (function argument : String) :
      ToldBy (.unknownArgument function argument)
        (.argumentsRejected function (.unknownArgument function argument))
  | argument_cast (function argument : String) (error : CastError) :
      ToldBy (.argumentCast function argument error)
        (.argumentsRejected function (.argumentCast function argument error))
  | context_cast (function : String) (error : CastError) :
      ToldBy (.cast error) (.contextRejected function error)
  | return_type (function : String) (expected actual : TypeName) :
      ToldBy (.returnType function expected actual)
        (.returnTypeRejected function (.returnType function expected actual))
  | not_registered (function : String) :
      ToldBy (.functionNotRegistered function) (.functionNotRegistered function)
  | failed (function message : String) :
      ToldBy (.function function message)
        (.functionFailed function (.function function message))

theorem RuntimeError.ToldBy.level {error : RuntimeError} {entry : LogEntry} (h : error.ToldBy entry) :
    entry.level = .warn := by
  cases h <;> rfl

namespace Towers

/-- The property of tasks is kept by all that the interpreters of a tower put together: casts and calls,
the errors that they raise and tell, arguments side by side, and what comes after what. -/
structure Keeps (towers : Towers) (kept : ∀ {α : Type}, Task α → Prop) : Prop where
  ok : ∀ {α : Type} (value : α), kept (.ok value)
  silent : ∀ {α : Type} {event : Event} {next : Task α},
    (∀ entry, event = .log entry → entry.level = .debug) → kept next → kept (.emit event next)
  create : ∀ {α : Type} {next : Nat → Task α}, (∀ serial, kept (next serial)) →
    kept (.create next)
  bind : ∀ {α β : Type} {task : Task α} {next : α → Task β}, kept task →
    (∀ value, kept (next value)) → kept (task.bind next)
  both : ∀ {α β γ : Type} {mode : JoinMode} {left : Task α} {right : Task β}
    {next : Except RuntimeError (α × β) → Task γ}, kept left → kept right →
    (∀ error, next (.error error) = .fail error) → (∀ values, kept (next (.ok values))) →
    kept (.both mode left right next)
  raised : ∀ {α : Type} {error : RuntimeError} {entry : LogEntry}, error.ToldBy entry →
    kept (.emit (.log entry) (.fail error) : Task α)
  not_callable : ∀ name, kept (.fail (.notCallable name) : Task Value)
  evaluation : ∀ {task : Task (List (List Value))} (name : String), kept task →
    kept (task.onError (.argumentEvaluationFailed name))
  call : ∀ interpreter, towers.Within interpreter → ∀ name definition,
    interpreter.functions.lookup name = some definition → ∀ context arguments,
      kept ((definition.call context arguments).onError definition.failureEntry)
  answer : ∀ equipment name answer, towers.Within (.mk equipment (.custom name answer)) →
    ∀ chain context, kept (.routine "" (answer chain context) .finish)

namespace Keeps

open ChainExpr.Task

variable {α : Type} {kept : ∀ {α : Type}, Task α → Prop} {towers : Towers} {interpreter : Interpreter}
  {definition : FunctionDefinition}

theorem debug (h : towers.Keeps kept) {entry : LogEntry} {next : Task α} (hdebug : entry.level = .debug)
    (hnext : kept next) : kept (.emit (.log entry) next) := by
  apply h.silent _ hnext
  rintro _ ⟨⟩
  exact hdebug

/-- Tasks side by side keep what each of them keeps. -/
theorem join (h : towers.Keeps kept) {tasks : List (Task α)} (htasks : ∀ task ∈ tasks, kept task) :
    kept (Task.join tasks) := by
  refine Task.join_induction (h.ok []) ?_ ?_ htasks
  · exact fun task rest htask hrest => h.both htask hrest (fun _ => rfl) fun _ => h.ok _
  · exact fun before task hbefore htask => h.both hbefore htask (fun _ => rfl) fun _ => h.ok _

/-- A cast is silent, and goes on with what the search has found. -/
theorem cast (h : towers.Keeps kept) {types : TypeRegistry} {value : Value}
    {acceptable : List TypeName} {next : Except CastError Value → Task α}
    (hnext : ∀ outcome, kept (next outcome)) : kept (Task.cast types value acceptable next) := by
  have hall (attempts : List Attempt) (outcome : Except CastError Value) :
      kept (emitAll (attempts.map .conversion) (next outcome)) := by
    induction attempts with
    | nil => exact hnext outcome
    | cons attempt rest ih => exact h.silent (by simp) ih
  exact hall _ _

/-- A cast for an argument fails with an error of that argument only. -/
theorem castFor (h : towers.Keeps kept) (types : TypeRegistry) (name : String)
    (acceptable : List TypeName) (value : Value) {next : Except RuntimeError Value → Task α}
    (hok : ∀ value, kept (next (.ok value)))
    (hfail : ∀ name error, kept (next (.error (.argumentCast definition.name name error)))) :
    kept ((definition.castFor types name acceptable value).andThen next) := by
  rw [FunctionDefinition.castFor, cast_andThen]
  apply h.cast
  intro outcome
  cases outcome with
  | ok value => exact hok value
  | error error => exact hfail name error

theorem castAll (h : towers.Keeps kept) (types : TypeRegistry) (name : String)
    (acceptable : List TypeName) (values : List Value)
    {next : Except RuntimeError (List Value) → Task α} (hok : ∀ values, kept (next (.ok values)))
    (hfail : ∀ name error, kept (next (.error (.argumentCast definition.name name error)))) :
    kept ((definition.castAll types name acceptable values).andThen next) := by
  induction values generalizing next with
  | nil => exact hok []
  | cons value rest ih =>
    rw [FunctionDefinition.castAll, Task.bind, andThen_assoc]
    apply h.castFor
    · intro first
      simp only [Task.bind, andThen_assoc]
      exact ih (fun later => hok (first :: later)) hfail
    · exact hfail

theorem bindOne (h : towers.Keeps kept) (types : TypeRegistry) (name : String)
    (argument : ArgumentDefinition) (values : List Value)
    {next : Except RuntimeError ArgumentValue → Task α} (hok : ∀ given, kept (next (.ok given)))
    (hfail : ∀ name error, kept (next (.error (.argumentCast definition.name name error)))) :
    kept ((definition.bindOne types name argument values).andThen next) := by
  rw [FunctionDefinition.bindOne]
  split
  · rw [Task.bind, andThen_assoc]
    exact h.castAll types name _ values (fun converted => hok (.multi converted)) hfail
  · rw [Task.bind, andThen_assoc]
    exact h.castFor types name _ _ (fun converted => hok (.single converted)) hfail

theorem bindEach (h : towers.Keeps kept) (types : TypeRegistry)
    (bound : List (String × List Value)) (done : Arguments)
    (declared : List (String × ArgumentDefinition)) {next : Except RuntimeError Arguments → Task α}
    (hok : ∀ arguments, kept (next (.ok arguments)))
    (hfail : ∀ name error, kept (next (.error (.argumentCast definition.name name error)))) :
    kept ((definition.bindEach types bound done declared).andThen next) := by
  induction declared generalizing done with
  | nil => exact hok done
  | cons entry rest ih =>
    obtain ⟨name, argument⟩ := entry
    rw [FunctionDefinition.bindEach, Task.bind, andThen_assoc]
    exact h.bindOne types name argument _ (fun given => ih (done.insert name given)) hfail

theorem resolve (h : towers.Keeps kept) (names : List String) {values : Task (List (List Value))}
    (hvalues : kept values) : kept (interpreter.site.resolve definition names values) := by
  rw [Site.resolve]
  split
  · exact h.raised (.unknown_argument definition.name _)
  · apply h.bind (h.evaluation _ hvalues)
    intro values
    apply h.bindEach
    · exact fun arguments => h.ok arguments
    · exact fun name error => h.raised (.argument_cast definition.name name error)

/-- A failure of the implementation is told by the link that has called it. -/
theorem invoke (h : towers.Keeps kept) (hwithin : towers.Within interpreter) {name : String}
    (hlookup : interpreter.functions.lookup name = some definition) (context : Value)
    (arguments : Arguments) : kept (definition.invoke interpreter.types context arguments) := by
  apply h.cast
  intro outcome
  cases outcome with
  | error error => exact h.raised (.context_cast definition.name error)
  | ok converted =>
    apply h.bind (h.call interpreter hwithin name definition hlookup converted arguments)
    intro result
    rw [FunctionDefinition.checkReturn]
    split
    · exact h.ok result
    · split
      · exact h.ok result
      · exact h.raised (.return_type definition.name _ _)

theorem runLink (h : towers.Keeps kept) (hwithin : towers.Within interpreter) {link : Link}
    (hlookup : interpreter.functions.lookup link.function = some definition) (context : Value)
    (harguments : kept (interpreter.site.interpretArguments link.arguments context)) :
    kept (interpreter.runLink definition link context) := by
  apply h.bind (h.resolve _ harguments)
  intro bound
  rw [Site.announce]
  split
  · exact h.debug rfl (h.invoke hwithin hlookup context bound)
  · exact h.invoke hwithin hlookup context bound

/-- One interpreter keeps the property if its host does wherever it is asked. -/
theorem interpret_of_host (h : towers.Keeps kept) (hwithin : towers.Within interpreter)
    (hhost : ∀ chain context, kept (interpreter.host.answer chain context)) (node : Node) :
    ∀ context, kept (interpreter.interpret node context) := by
  refine @Node.induction_links (fun node => ∀ context, kept (interpreter.site.interpret node context))
    (fun links => ∀ context, kept (interpreter.site.runChain links context))
    ?expression ?deferred ?reference ?literal ?noLink ?link node
  case expression => exact fun links ih => ih
  case deferred => exact fun links _ context => h.create fun serial => h.ok _
  case reference => exact fun name context => h.ok _
  case literal => exact fun value context => h.ok _
  case noLink => exact fun context => h.ok context
  case link =>
    intro name given rest hgiven hrest context
    cases hlookup : interpreter.functions.lookup name with
    | none =>
      have hunknown : interpreter.site.equipment.functions.lookup name = none := hlookup
      rw [Site.runChain_unknown hunknown]
      exact h.debug rfl (hhost _ context)
    | some definition =>
      have hknown : interpreter.site.equipment.functions.lookup name = some definition := hlookup
      rw [Site.runChain_known hknown]
      refine h.bind (h.runLink hwithin hlookup context ?_) hrest
      rw [Site.interpretArguments_eq]
      refine h.join (List.forall_mem_map.mpr fun entry hentry => ?_)
      exact h.join (List.forall_mem_map.mpr fun value hvalue => hgiven entry hentry value hvalue context)

/-- Everything that an interpreter of the towers evaluates has the property. -/
theorem interpret (h : towers.Keeps kept) (hwithin : towers.Within interpreter) (node : Node)
    (context : Value) : kept (interpreter.interpret node context) := by
  induction interpreter using Interpreter.induction generalizing node context with
  | step equipment host ih =>
    apply h.interpret_of_host hwithin
    intro chain context
    change kept (host.answer chain context)
    rw [Host.answer_eq]
    apply h.silent (by simp)
    cases host with
    | rejecting => exact h.raised (.not_registered _)
    | delegating fallback =>
      apply h.debug rfl
      rw [Interpreter.invokeChain_eq]
      exact ih fallback rfl hwithin.under (.expression chain) context
    | custom name answer => exact h.answer equipment name answer hwithin chain context

/-- So has what is called, wherever it was set aside. -/
theorem callTask (h : towers.Keeps kept) (callee : Callable) (context : Value) :
    kept (towers.callTask callee context) := by
  cases callee with
  | deferred home serial chain =>
    rw [Towers.callTask, Interpreter.invokeChain_eq]
    exact h.interpret (Towers.within_resident home) (.expression chain) context
  | reference name => exact h.not_callable name

end Keeps

end Towers

/-- The account covers what the interpreters of a tower say of errors, and their implementations and
hosts pass on the errors of what they call. -/
structure Account.Covers (account : Account) (towers : Towers) : Prop where
  silent : ∀ event, (∀ entry, event = .log entry → entry.level = .debug) → account.silent event
  added_nothing : ∀ error, account.added error []
  argument_evaluation : ∀ name error, account.added error [.argumentEvaluationFailed name error]
  raised : ∀ error entry, error.ToldBy entry → account.raised error [entry]
  not_callable : ∀ name, account.raised (.notCallable name) []
  implementation : ∀ interpreter, towers.Within interpreter → ∀ name definition,
    interpreter.functions.lookup name = some definition → ∀ context arguments, ∃ own calls,
      (definition.implementation context arguments).PassesOn own calls ∧
      ∀ error, (calls → account.added error [definition.failureEntry error]) ∧
        (own error → account.raised error [definition.failureEntry error])
  answer : ∀ equipment name answer, towers.Within (.mk equipment (.custom name answer)) →
    ∀ chain context, ∃ own calls, (answer chain context).PassesOn own calls ∧
      ∀ error, own error → account.raised error []

/-- Everything that the towers evaluate keeps an account that covers it. -/
theorem Account.Covers.keeps {account : Account} {towers : Towers} (h : account.Covers towers) :
    towers.Keeps (Task.Accounts account) where
  ok value := .ok value
  silent hdebug hnext := .emit (h.silent _ hdebug) hnext
  create hnext := .create hnext
  bind htask hnext := htask.bind h.added_nothing hnext
  both hleft hright hfail hnext := by
    refine .both hleft hright (fun error => ⟨[], ?_, h.added_nothing error⟩) hnext
    rw [hfail]
    exact .finish
  raised htold := .failing (.log _ .finish) (h.raised _ _ htold)
  not_callable name := .failing .finish (h.not_callable name)
  evaluation name htask := htask.onError fun error => h.argument_evaluation name error
  call interpreter hwithin name definition hlookup context arguments := by
    obtain ⟨own, calls, hpasses, htold⟩ :=
      h.implementation interpreter hwithin name definition hlookup context arguments
    refine .emit (h.silent _ (by simp)) (.routine definition.name hpasses ?_ fun value => .ok value)
    exact fun error => ⟨[definition.failureEntry error], .log _ .finish, htold error⟩
  answer equipment name answer hwithin chain context := by
    obtain ⟨own, calls, hpasses, hraised⟩ := h.answer equipment name answer hwithin chain context
    refine .routine "" hpasses ?_ fun value => .ok value
    exact fun error => ⟨[], .finish, fun _ => h.added_nothing error, hraised error⟩

end ChainExpr
