import ChainExpr.Evaluation.Event
import ChainExpr.Function.Definition

namespace ChainExpr

/-- When the failure of the right one of two tasks side by side counts. -/
inductive JoinMode
  /-- At once. -/
  | eager
  /-- When the left one has succeeded. -/
  | inOrder
deriving DecidableEq, Repr

inductive Task : Type → Type 1
  | finish {α : Type} (outcome : Except RuntimeError α) : Task α
  | emit {α : Type} (event : Event) (next : Task α) : Task α
  /-- Takes the next creation number. -/
  | create {α : Type} (next : Nat → Task α) : Task α
  /-- Runs a routine of the named function. -/
  | routine {α : Type} (function : String) (body : Routine)
      (next : Except RuntimeError Value → Task α) : Task α
  /-- Two tasks side by side, the left one before the right one in every round. The first error that
  counts ends both; otherwise it goes on when both are done. -/
  | both {α β γ : Type} (mode : JoinMode) (left : Task β) (right : Task γ)
      (next : Except RuntimeError (β × γ) → Task α) : Task α

namespace Task

variable {α β : Type}

def ok (value : α) : Task α := .finish (.ok value)

def fail (error : RuntimeError) : Task α := .finish (.error error)

/-- What comes after a task, whether it fails or not. -/
def andThen : Task α → (Except RuntimeError α → Task β) → Task β
  | .finish outcome, next => next outcome
  | .emit event rest, next => .emit event (rest.andThen next)
  | .create rest, next => .create fun serial => (rest serial).andThen next
  | .routine function body rest, next =>
    .routine function body fun outcome => (rest outcome).andThen next
  | .both mode left right rest, next =>
    .both mode left right fun outcome => (rest outcome).andThen next

/-- What comes after a task that succeeds. -/
def bind (task : Task α) (next : α → Task β) : Task β :=
  task.andThen fun
    | .ok value => next value
    | .error error => .fail error

def emitAll (events : List Event) (task : Task α) : Task α :=
  events.foldr .emit task

/-- Notes an error that the task ends with, and leaves it as it is. -/
def onError (task : Task α) (entry : RuntimeError → LogEntry) : Task α :=
  task.andThen fun
    | .ok value => .ok value
    | .error error => .emit (.log (entry error)) (.fail error)

/-- A cast, with the conversions that it runs. -/
def cast (types : TypeRegistry) (value : Value) (acceptable : List TypeName)
    (next : Except CastError Value → Task α) : Task α :=
  let (attempts, outcome) := types.cast value acceptable
  emitAll (attempts.map .conversion) (next outcome)

/-- Puts together what two tasks side by side have come to. -/
def together {γ : Type} (f : α → β → γ) : Except RuntimeError (α × β) → Task γ
  | .ok (a, b) => .ok (f a b)
  | .error error => .fail error

/-- Tasks side by side, the first failure of which counts. -/
def joinAll : List (Task α) → Task (List α)
  | [] => .ok []
  | task :: rest => .both .eager task (joinAll rest) (together List.cons)

/-- Tasks side by side, behind some others. A failure counts when all tasks before it have succeeded;
until then the tasks behind it go on. Each of them is visited once in a round, from left to right, as
where whatever waits is woken between any two rounds in the order in which it has begun to wait. -/
def joinInOrder (before : Task (List α)) : List (Task α) → Task (List α)
  | [] => before
  | task :: rest =>
    joinInOrder (.both .inOrder before task (together fun values value => values ++ [value])) rest

/-- The most tasks that are joined so that the first failure counts. -/
def joinLimit : Nat := 30

/-- Tasks side by side. -/
def join (tasks : List (Task α)) : Task (List α) :=
  if tasks.length ≤ joinLimit then joinAll tasks else joinInOrder (.ok []) tasks

/-- Calls a function value. -/
def call (callee : Callable) (context : Value) : Task Value :=
  .routine "" (.call callee context .finish) .finish

@[simp] theorem andThen_finish (outcome : Except RuntimeError α)
    (next : Except RuntimeError α → Task β) : (finish outcome).andThen next = next outcome := rfl

theorem andThen_finish_right (task : Task α) : task.andThen .finish = task := by
  induction task with
  | finish => rfl
  | emit event rest ih => simp [andThen, ih]
  | create rest ih => simp [andThen, ih]
  | routine function body rest ih => simp [andThen, ih]
  | both mode left right rest _ _ ih => simp [andThen, ih]

theorem andThen_assoc {γ : Type} (task : Task α) (f : Except RuntimeError α → Task β)
    (g : Except RuntimeError β → Task γ) :
    (task.andThen f).andThen g = task.andThen fun outcome => (f outcome).andThen g := by
  induction task with
  | finish => rfl
  | emit event rest ih => simp [andThen, ih]
  | create rest ih => simp [andThen, ih]
  | routine function body rest ih => simp [andThen, ih]
  | both mode left right rest _ _ ih => simp [andThen, ih]

/-- What holds of all tasks that stand side by side holds of their join, if it goes from two tasks to
both of them. -/
theorem join_induction {each : Task α → Prop} {motive : Task (List α) → Prop}
    (none : motive (.ok []))
    (cons : ∀ task rest, each task → motive rest →
      motive (.both .eager task rest (together List.cons)))
    (append : ∀ before task, motive before → each task →
      motive (.both .inOrder before task (together fun values value => values ++ [value])))
    {tasks : List (Task α)} (h : ∀ task ∈ tasks, each task) : motive (join tasks) := by
  have hjoinAll : motive (joinAll tasks) := by
    induction tasks with
    | nil => exact none
    | cons task rest ih =>
      obtain ⟨hfirst, hrest⟩ := List.forall_mem_cons.mp h
      exact cons task _ hfirst (ih hrest)
  have hjoinInOrder (before : Task (List α)) (hbefore : motive before) :
      motive (joinInOrder before tasks) := by
    clear hjoinAll
    induction tasks generalizing before with
    | nil => exact hbefore
    | cons task rest ih =>
      obtain ⟨hfirst, hrest⟩ := List.forall_mem_cons.mp h
      exact ih hrest _ (append before task hbefore hfirst)
  rw [join]
  split
  · exact hjoinAll
  · exact hjoinInOrder _ none

/-- Joins of tasks that are related one by one are related, if the relation goes from two tasks to both
of them. -/
theorem join_related {ι γ : Type} {each : Task α → Task γ → Prop}
    {all : Task (List α) → Task (List γ) → Prop} (none : all (.ok []) (.ok []))
    (cons : ∀ task task' rest rest', each task task' → all rest rest' →
      all (.both .eager task rest (together List.cons)) (.both .eager task' rest' (together List.cons)))
    (append : ∀ before before' task task', all before before' → each task task' →
      all (.both .inOrder before task (together fun values value => values ++ [value]))
        (.both .inOrder before' task' (together fun values value => values ++ [value])))
    {items : List ι} {first : ι → Task α} {second : ι → Task γ}
    (h : ∀ item ∈ items, each (first item) (second item)) :
    all (join (items.map first)) (join (items.map second)) := by
  have hjoinAll : all (joinAll (items.map first)) (joinAll (items.map second)) := by
    induction items with
    | nil => exact none
    | cons item rest ih =>
      obtain ⟨hfirst, hrest⟩ := List.forall_mem_cons.mp h
      exact cons _ _ _ _ hfirst (ih hrest)
  have hjoinInOrder (before : Task (List α)) (before' : Task (List γ)) (hbefore : all before before') :
      all (joinInOrder before (items.map first)) (joinInOrder before' (items.map second)) := by
    clear hjoinAll
    induction items generalizing before before' with
    | nil => exact hbefore
    | cons item rest ih =>
      obtain ⟨hfirst, hrest⟩ := List.forall_mem_cons.mp h
      exact ih hrest _ _ (append _ _ _ _ hbefore hfirst)
  rw [join, join, List.length_map, List.length_map]
  split
  · exact hjoinAll
  · exact hjoinInOrder _ _ none

end Task

end ChainExpr
