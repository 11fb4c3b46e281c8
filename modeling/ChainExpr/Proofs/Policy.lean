import ChainExpr.Interpreter.Chain

namespace ChainExpr

/-- What is left of a routine after its next step, for every answer it may get. -/
inductive Routine.Leads : Routine → Routine → Prop
  | elapse (polls : Nat) (next : Routine) : Leads (.wait (polls + 1) next) (.wait polls next)
  | resume (next : Routine) : Leads (.wait 0 next) next
  | arrive (point : String) (next : Routine) : Leads (.arrive point next) next
  | await (point : String) (count : Nat) (next : Routine) : Leads (.await point count next) next
  | tick (next : Nat → Routine) (before : Nat) : Leads (.tick next) (next before)
  | call (callee : Callable) (context : Value) (next : Except RuntimeError Value → Routine)
      (outcome : Except RuntimeError Value) : Leads (.call callee context next) (next outcome)

/-- What is asked of the parts of a task: of each event together with what comes after it, and of each
routine under the name it runs by. Neither a task put behind nor a step of a routine breaks it. -/
structure Policy where
  event : {α : Type} → Event → Task α → Prop
  routine : String → Routine → Prop
  event_andThen : ∀ {α β : Type} (entry : Event) (task : Task α)
    (next : Except RuntimeError α → Task β), event entry task → event entry (task.andThen next)
  routine_leads : ∀ (function : String) (body rest : Routine), body.Leads rest →
    routine function body → routine function rest

/-- One of the parts of a task that are side by side, the task itself being one of them. -/
inductive Task.Part : {α β : Type} → Task β → Task α → Prop
  | whole {α : Type} (task : Task α) : Part task task
  | left {α β γ δ : Type} {mode : JoinMode} {part : Task δ} {left : Task β} (right : Task γ)
      (next : Except RuntimeError (β × γ) → Task α) (h : Part part left) :
      Part part (.both mode left right next)
  | right {α β γ δ : Type} {mode : JoinMode} {part : Task δ} {right : Task γ} (left : Task β)
      (next : Except RuntimeError (β × γ) → Task α) (h : Part part right) :
      Part part (.both mode left right next)

namespace Task

variable {α β : Type}

/-- Whatever comes of the routines and of the parts side by side, the policy is kept. -/
def Obeys (policy : Policy) : {α : Type} → Task α → Prop
  | _, .finish _ => True
  | _, .emit entry next => policy.event entry next ∧ next.Obeys policy
  | _, .create next => ∀ serial, (next serial).Obeys policy
  | _, .routine function body next =>
    policy.routine function body ∧ ∀ outcome, (next outcome).Obeys policy
  | _, .both _ left right next =>
    left.Obeys policy ∧ right.Obeys policy ∧ ∀ outcome, (next outcome).Obeys policy

/-- Every outcome meets the condition, whatever comes of the parts. -/
def Returns (meets : Except RuntimeError α → Prop) : Task α → Prop
  | .finish outcome => meets outcome
  | .emit _ next => next.Returns meets
  | .create next => ∀ serial, (next serial).Returns meets
  | .routine _ _ next => ∀ outcome, (next outcome).Returns meets
  | .both _ _ _ next => ∀ outcome, (next outcome).Returns meets

theorem Obeys.part {policy : Policy} {task : Task α} {part : Task β} (hpart : Part part task)
    (h : task.Obeys policy) : part.Obeys policy := by
  induction hpart with
  | whole task => exact h
  | left right next _ ih => exact ih h.1
  | right left next _ ih => exact ih h.2.1

theorem Returns.weaken {meets weaker : Except RuntimeError α → Prop} {task : Task α}
    (h : task.Returns meets) (implies : ∀ outcome, meets outcome → weaker outcome) :
    task.Returns weaker := by
  induction task with
  | finish outcome => exact implies outcome h
  | emit entry next ih => exact ih h implies
  | create next ih => exact fun serial => ih serial (h serial) implies
  | routine function body next ih => exact fun outcome => ih outcome (h outcome) implies
  | both mode left right next _ _ ih => exact fun outcome => ih outcome (h outcome) implies

theorem returns_trivial (task : Task α) : task.Returns fun _ => True := by
  induction task with
  | finish outcome => trivial
  | emit entry next ih => exact ih
  | create next ih => exact ih
  | routine function body next ih => exact ih
  | both mode left right next _ _ ih => exact ih

theorem Returns.andThen {first : Except RuntimeError α → Prop} {meets : Except RuntimeError β → Prop}
    {task : Task α} {next : Except RuntimeError α → Task β} (h : task.Returns first)
    (hnext : ∀ outcome, first outcome → (next outcome).Returns meets) :
    (task.andThen next).Returns meets := by
  induction task with
  | finish outcome => exact hnext outcome h
  | emit entry rest ih => exact ih h hnext
  | create rest ih => exact fun serial => ih serial (h serial) hnext
  | routine function body rest ih => exact fun outcome => ih outcome (h outcome) hnext
  | both mode left right rest _ _ ih => exact fun outcome => ih outcome (h outcome) hnext

theorem Obeys.join {policy : Policy} {tasks : List (Task α)} (h : ∀ task ∈ tasks, task.Obeys policy) :
    (join tasks).Obeys policy := by
  refine join_induction trivial (fun task rest htask hrest => ⟨htask, hrest, ?_⟩)
    (fun before task hbefore htask => ⟨hbefore, htask, ?_⟩) h
  all_goals
    intro outcome
    cases outcome <;> trivial

/-- The task put behind another one needs to obey only after outcomes that the other one can have. -/
theorem Obeys.andThen_of_returns {policy : Policy} {meets : Except RuntimeError α → Prop}
    {task : Task α} {next : Except RuntimeError α → Task β} (h : task.Obeys policy)
    (hreturns : task.Returns meets) (hnext : ∀ outcome, meets outcome → (next outcome).Obeys policy) :
    (task.andThen next).Obeys policy := by
  induction task with
  | finish outcome => exact hnext outcome hreturns
  | emit entry rest ih => exact ⟨policy.event_andThen entry rest next h.1, ih h.2 hreturns hnext⟩
  | create rest ih => exact fun serial => ih serial (h serial) (hreturns serial) hnext
  | routine function body rest ih =>
    exact ⟨h.1, fun outcome => ih outcome (h.2 outcome) (hreturns outcome) hnext⟩
  | both mode left right rest _ _ ih =>
    exact ⟨h.1, h.2.1, fun outcome => ih outcome (h.2.2 outcome) (hreturns outcome) hnext⟩

theorem Obeys.andThen {policy : Policy} {task : Task α} {next : Except RuntimeError α → Task β}
    (h : task.Obeys policy) (hnext : ∀ outcome, (next outcome).Obeys policy) :
    (task.andThen next).Obeys policy :=
  h.andThen_of_returns task.returns_trivial fun outcome _ => hnext outcome

theorem Obeys.bind {policy : Policy} {task : Task α} {next : α → Task β}
    (h : task.Obeys policy) (hnext : ∀ value, (next value).Obeys policy) :
    (task.bind next).Obeys policy := by
  apply h.andThen
  intro outcome
  cases outcome with
  | ok value => exact hnext value
  | error error => trivial

/-- What a task that succeeds can be relied on to have brought about. -/
theorem Obeys.bind_of_returns {policy : Policy} {meets : α → Prop} {task : Task α}
    {next : α → Task β} (h : task.Obeys policy)
    (hreturns : task.Returns fun outcome => ∀ value, outcome = .ok value → meets value)
    (hnext : ∀ value, meets value → (next value).Obeys policy) : (task.bind next).Obeys policy := by
  apply h.andThen_of_returns hreturns
  intro outcome houtcome
  cases outcome with
  | ok value => exact hnext value (houtcome value rfl)
  | error error => trivial

theorem Returns.bind {first : α → Prop} {meets : β → Prop} {task : Task α} {next : α → Task β}
    (h : task.Returns fun outcome => ∀ value, outcome = .ok value → first value)
    (hnext : ∀ value, first value →
      (next value).Returns fun outcome => ∀ value, outcome = .ok value → meets value) :
    (task.bind next).Returns fun outcome => ∀ value, outcome = .ok value → meets value := by
  apply h.andThen
  intro outcome houtcome
  cases outcome with
  | ok value => exact hnext value (houtcome value rfl)
  | error error => exact fun value h => by cases h

theorem Obeys.onError {policy : Policy} {task : Task α} {entry : RuntimeError → LogEntry}
    (h : task.Obeys policy)
    (hentry : ∀ error, policy.event (.log (entry error)) (.fail error : Task α)) :
    (task.onError entry).Obeys policy := by
  apply h.andThen
  intro outcome
  cases outcome with
  | ok value => trivial
  | error error => exact ⟨hentry error, trivial⟩

theorem Returns.onError {meets : Except RuntimeError α → Prop} {task : Task α}
    {entry : RuntimeError → LogEntry} (h : task.Returns meets) :
    (task.onError entry).Returns meets := by
  apply h.andThen
  intro outcome houtcome
  cases outcome with
  | ok value => exact houtcome
  | error error => exact houtcome

theorem obeys_emitAll {policy : Policy} {events : List Event} {task : Task α}
    (hevents : ∀ entry ∈ events, ∀ next : Task α, policy.event entry next)
    (h : task.Obeys policy) : (emitAll events task).Obeys policy := by
  induction events with
  | nil => exact h
  | cons entry rest ih =>
    exact ⟨hevents entry (by simp) _, ih fun other hother => hevents other (by simp [hother])⟩

theorem returns_emitAll {meets : Except RuntimeError α → Prop} {events : List Event} {task : Task α}
    (h : task.Returns meets) : (emitAll events task).Returns meets := by
  induction events with
  | nil => exact h
  | cons entry rest ih => exact ih

/-- A cast runs conversions and goes on with what the search has found. -/
theorem obeys_cast {policy : Policy} {types : TypeRegistry} {value : Value}
    {acceptable : List TypeName} {next : Except CastError Value → Task α}
    (hconversion : ∀ attempt, ∀ rest : Task α, policy.event (.conversion attempt) rest)
    (h : (next (types.cast value acceptable).2).Obeys policy) :
    (cast types value acceptable next).Obeys policy := by
  apply obeys_emitAll _ h
  intro entry hentry rest
  obtain ⟨attempt, _, rfl⟩ := List.mem_map.mp hentry
  exact hconversion attempt rest

theorem returns_cast {meets : Except RuntimeError α → Prop} {types : TypeRegistry} {value : Value}
    {acceptable : List TypeName} {next : Except CastError Value → Task α}
    (h : (next (types.cast value acceptable).2).Returns meets) :
    (cast types value acceptable next).Returns meets :=
  returns_emitAll h

end Task

end ChainExpr
