import ChainExpr.Proofs.Plan

namespace ChainExpr

/-- Events that are calls. -/
def Event.isCall : Event → Bool
  | .call .. => true
  | _ => false

namespace Task

variable {α β : Type}

def Instant {α : Type} : Task α → Prop
  | .finish _ => True
  | .emit event next => event.isCall = false ∧ next.Instant
  | _ => False

theorem Instant.andThen {task : Task α} {next : Except RuntimeError α → Task β} (h : task.Instant)
    (hnext : ∀ outcome, (next outcome).Instant) : (task.andThen next).Instant := by
  induction task with
  | finish outcome => exact hnext outcome
  | emit event rest ih => exact ⟨h.1, ih h.2 hnext⟩
  | _ => exact h.elim

theorem Instant.bind {task : Task α} {next : α → Task β} (h : task.Instant)
    (hnext : ∀ value, (next value).Instant) : (task.bind next).Instant := by
  apply h.andThen
  intro outcome
  cases outcome with
  | ok value => exact hnext value
  | error error => trivial

theorem Instant.onError {task : Task α} (h : task.Instant) (entry : RuntimeError → LogEntry) :
    (task.onError entry).Instant := by
  apply h.andThen
  intro outcome
  cases outcome with
  | ok value => trivial
  | error error => exact ⟨rfl, trivial⟩

theorem instant_emitAll {events : List Event} {task : Task α}
    (hevents : ∀ event ∈ events, event.isCall = false) (h : task.Instant) :
    (emitAll events task).Instant := by
  induction events with
  | nil => exact h
  | cons event rest ih =>
    have hrest := ih fun other hother => hevents other (List.mem_cons_of_mem event hother)
    exact ⟨hevents event List.mem_cons_self, hrest⟩

theorem instant_cast {types : TypeRegistry} {value : Value} {acceptable : List TypeName}
    {next : Except CastError Value → Task α} (h : ∀ outcome, (next outcome).Instant) :
    (cast types value acceptable next).Instant := by
  apply instant_emitAll _ (h _)
  intro event hevent
  obtain ⟨attempt, _, rfl⟩ := List.mem_map.mp hevent
  rfl

end Task

namespace FunctionDefinition

open ChainExpr.Task

variable (definition : FunctionDefinition) (types : TypeRegistry)

theorem instant_castFor (name : String) (acceptable : List TypeName) (value : Value) :
    (definition.castFor types name acceptable value).Instant := by
  apply instant_cast
  intro outcome
  cases outcome <;> trivial

theorem instant_castAll (name : String) (acceptable : List TypeName) (values : List Value) :
    (definition.castAll types name acceptable values).Instant := by
  induction values with
  | nil => trivial
  | cons value rest ih =>
    apply (definition.instant_castFor types name acceptable value).bind
    intro first
    exact ih.bind fun later => trivial

theorem instant_bindOne (name : String) (argument : ArgumentDefinition) (values : List Value) :
    (definition.bindOne types name argument values).Instant := by
  rw [bindOne]
  split
  · exact (definition.instant_castAll types name argument.types values).bind fun _ => trivial
  · exact (definition.instant_castFor types name argument.types _).bind fun _ => trivial

theorem instant_bindEach (bound : List (String × List Value)) (done : Arguments)
    (declared : List (String × ArgumentDefinition)) :
    (definition.bindEach types bound done declared).Instant := by
  induction declared generalizing done with
  | nil => trivial
  | cons entry rest ih =>
    obtain ⟨name, argument⟩ := entry
    exact (definition.instant_bindOne types name argument _).bind fun value => ih (done.insert name value)

theorem instant_bindArguments (bound : List (String × List Value)) :
    (definition.bindArguments types bound).Instant :=
  definition.instant_bindEach types bound ∅ _

theorem instant_checkReturn (value : Value) : (definition.checkReturn value).Instant := by
  rw [checkReturn]
  split
  · trivial
  · split
    · trivial
    · exact ⟨rfl, trivial⟩

end FunctionDefinition

theorem Site.instant_approach (site : Site) (definition : FunctionDefinition) (bound : Arguments)
    (context : Value) : (site.approach definition bound context).Instant := by
  have hcast : (Task.cast site.equipment.types context definition.acceptable
      definition.receive).Instant := by
    apply Task.instant_cast
    intro outcome
    cases outcome with
    | error error => exact ⟨rfl, trivial⟩
    | ok received => trivial
  rw [approach, announce]
  split
  · exact ⟨rfl, hcast⟩
  · exact hcast

end ChainExpr
