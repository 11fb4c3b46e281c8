import ChainExpr.Interpreter.Run
import ChainExpr.Proofs.Policy
import Mathlib.Logic.Relation

namespace ChainExpr

/-- Whether a failure of the right one of two tasks side by side counts while the left one is what it is. -/
def JoinMode.Heeds {α : Type} (mode : JoinMode) (left : Task α) : Prop :=
  mode = .eager ∨ ∃ a, left = .finish (.ok a)

namespace Towers

/-- One step of one part of a task. Whichever part is not done may go next, and a wait may come nearer
to its end at any time, so runs in steps resume what waits in every order. -/
inductive Step (towers : Towers) : {α : Type} → Task α × World → Task α × World → Prop
  | emit {α : Type} (entry : Event) (next : Task α) (world : World) :
      Step towers (.emit entry next, world) (next, world.record entry)
  | create {α : Type} (next : Nat → Task α) (world : World) :
      Step towers (.create next, world) (next world.serial, world.take)
  | finish {α : Type} (function : String) (outcome : Except RuntimeError Value)
      (next : Except RuntimeError Value → Task α) (world : World) :
      Step towers (.routine function (.finish outcome) next, world) (next outcome, world)
  | elapse {α : Type} (function : String) (polls : Nat) (body : Routine)
      (next : Except RuntimeError Value → Task α) (world : World) :
      Step towers (.routine function (.wait (polls + 1) body) next, world)
        (.routine function (.wait polls body) next, world)
  | resume {α : Type} (function : String) (body : Routine)
      (next : Except RuntimeError Value → Task α) (world : World) :
      Step towers (.routine function (.wait 0 body) next, world)
        (.routine function body next, world.record (.resume function))
  | arrive {α : Type} (function point : String) (body : Routine)
      (next : Except RuntimeError Value → Task α) (world : World) :
      Step towers (.routine function (.arrive point body) next, world)
        (.routine function body next, world.arrive point)
  | meet {α : Type} (function point : String) (count : Nat) (body : Routine)
      (next : Except RuntimeError Value → Task α) (world : World)
      (arrived : count ≤ world.arrivals point) :
      Step towers (.routine function (.await point count body) next, world)
        (.routine function body next, world.record (.resume function))
  | tick {α : Type} (function : String) (body : Nat → Routine)
      (next : Except RuntimeError Value → Task α) (world : World) :
      Step towers (.routine function (.tick body) next, world)
        (.routine function (body world.ticks) next, world.tick)
  | call {α : Type} (function : String) (callee : Callable) (context : Value)
      (body : Except RuntimeError Value → Routine) (next : Except RuntimeError Value → Task α)
      (world : World) :
      Step towers (.routine function (.call callee context body) next, world)
        ((towers.callTask callee context).andThen fun outcome => .routine function (body outcome) next,
          world)
  | left {α β γ : Type} {mode : JoinMode} {left left' : Task β} {world world' : World} (right : Task γ)
      (next : Except RuntimeError (β × γ) → Task α) (step : Step towers (left, world) (left', world')) :
      Step towers (.both mode left right next, world) (.both mode left' right next, world')
  | right {α β γ : Type} {mode : JoinMode} {right right' : Task γ} {world world' : World}
      (left : Task β) (next : Except RuntimeError (β × γ) → Task α)
      (step : Step towers (right, world) (right', world')) :
      Step towers (.both mode left right next, world) (.both mode left right' next, world')
  | joined {α β γ : Type} {mode : JoinMode} (a : β) (b : γ) (next : Except RuntimeError (β × γ) → Task α)
      (world : World) :
      Step towers (.both mode (.finish (.ok a)) (.finish (.ok b)) next, world) (next (.ok (a, b)), world)
  | left_failed {α β γ : Type} {mode : JoinMode} (error : RuntimeError) (right : Task γ)
      (next : Except RuntimeError (β × γ) → Task α) (world : World) :
      Step towers (.both mode (.finish (.error error)) right next, world) (next (.error error), world)
  | right_failed {α β γ : Type} {mode : JoinMode} (error : RuntimeError) {left : Task β}
      (heeded : mode.Heeds left) (next : Except RuntimeError (β × γ) → Task α) (world : World) :
      Step towers (.both mode left (.finish (.error error)) next, world) (next (.error error), world)

/-- Steps one after the other. -/
def Runs (towers : Towers) {α : Type} : Task α × World → Task α × World → Prop :=
  Relation.ReflTransGen towers.Step

variable {towers : Towers} {α β γ : Type} {mode : JoinMode}

theorem Runs.refl (state : Task α × World) : towers.Runs state state := Relation.ReflTransGen.refl

theorem Runs.trans {a b c : Task α × World} (h : towers.Runs a b) (h' : towers.Runs b c) :
    towers.Runs a c := Relation.ReflTransGen.trans h h'

theorem Step.runs {a b : Task α × World} (h : towers.Step a b) : towers.Runs a b :=
  Relation.ReflTransGen.single h

theorem Step.then {a b c : Task α × World} (h : towers.Step a b) (h' : towers.Runs b c) :
    towers.Runs a c := Relation.ReflTransGen.head h h'

theorem Runs.left {a b : Task β × World} (h : towers.Runs a b) (right : Task γ)
    (next : Except RuntimeError (β × γ) → Task α) :
    towers.Runs (.both mode a.1 right next, a.2) (.both mode b.1 right next, b.2) := by
  induction h with
  | refl => exact .refl _
  | tail _ step ih => exact ih.trans (Step.left right next step).runs

theorem Runs.right {a b : Task γ × World} (h : towers.Runs a b) (left : Task β)
    (next : Except RuntimeError (β × γ) → Task α) :
    towers.Runs (.both mode left a.1 next, a.2) (.both mode left b.1 next, b.2) := by
  induction h with
  | refl => exact .refl _
  | tail _ step ih => exact ih.trans (Step.right left next step).runs

theorem Runs.parts {left left' : Task β} {right right' : Task γ} {world middle world' : World}
    (lefts : towers.Runs (left, world) (left', middle))
    (rights : towers.Runs (right, middle) (right', world')) (mode : JoinMode)
    (next : Except RuntimeError (β × γ) → Task α) :
    towers.Runs (.both mode left right next, world) (.both mode left' right' next, world') :=
  (lefts.left right next).trans (rights.right left' next)

/-- Nothing is left to do for a task that has its outcome. -/
theorem not_step_finish {outcome : Except RuntimeError α} {world : World} {state : Task α × World} :
    ¬ towers.Step (.finish outcome, world) state := by
  intro h
  cases h

theorem Runs.of_finish {outcome : Except RuntimeError α} {world : World} {state : Task α × World}
    (h : towers.Runs (.finish outcome, world) state) : state = (.finish outcome, world) := by
  cases Relation.ReflTransGen.cases_head h with
  | inl same => exact same.symm
  | inr later =>
    obtain ⟨_, step, _⟩ := later
    exact absurd step not_step_finish

theorem Step.andThen {task task' : Task α} {world world' : World}
    (h : towers.Step (task, world) (task', world')) (next : Except RuntimeError α → Task β) :
    towers.Step (task.andThen next, world) (task'.andThen next, world') := by
  cases h with
  | emit entry => exact .emit entry _ world
  | create rest => exact .create (fun serial => (rest serial).andThen next) world
  | finish function outcome rest => exact .finish function outcome _ world
  | elapse function polls body rest => exact .elapse function polls body _ world
  | resume function body rest => exact .resume function body _ world
  | arrive function point body rest => exact .arrive function point body _ world
  | meet function point count body rest _ arrived =>
    exact .meet function point count body _ world arrived
  | tick function body rest => exact .tick function body _ world
  | call function callee context body rest =>
    rw [Task.andThen_assoc]
    exact .call function callee context body _ world
  | left right rest step => exact .left right _ step
  | right left rest step => exact .right left _ step
  | joined a b rest => exact .joined a b _ world
  | left_failed error right rest => exact .left_failed error right _ world
  | right_failed error heeded rest => exact .right_failed error heeded _ world

/-- A task with another one behind it goes on as the first, until that has its outcome. -/
theorem step_andThen_cases {task : Task α} {next : Except RuntimeError α → Task β} {world : World}
    {state : Task β × World} (h : towers.Step (task.andThen next, world) state) :
    (∃ outcome, task = .finish outcome) ∨
      ∃ task' world', towers.Step (task, world) (task', world') ∧ state = (task'.andThen next, world') := by
  cases task with
  | finish outcome => exact .inl ⟨outcome, rfl⟩
  | emit entry rest =>
    right
    cases h
    exact ⟨_, _, .emit entry rest world, rfl⟩
  | create rest =>
    right
    cases h
    exact ⟨_, _, .create rest world, rfl⟩
  | routine function body rest =>
    right
    cases h with
    | finish _ outcome => exact ⟨_, _, .finish function outcome rest world, rfl⟩
    | elapse _ polls body => exact ⟨_, _, .elapse function polls body rest world, rfl⟩
    | resume _ body => exact ⟨_, _, .resume function body rest world, rfl⟩
    | arrive _ point body => exact ⟨_, _, .arrive function point body rest world, rfl⟩
    | meet _ point count body _ _ arrived =>
      exact ⟨_, _, .meet function point count body rest world arrived, rfl⟩
    | tick _ body => exact ⟨_, _, .tick function body rest world, rfl⟩
    | call _ callee context body =>
      refine ⟨_, _, .call function callee context body rest world, ?_⟩
      rw [Task.andThen_assoc]
      rfl
  | both mode left right rest =>
    right
    cases h with
    | left _ _ step => exact ⟨_, _, .left right rest step, rfl⟩
    | right _ _ step => exact ⟨_, _, .right left rest step, rfl⟩
    | joined a b => exact ⟨_, _, .joined a b rest world, rfl⟩
    | left_failed error => exact ⟨_, _, .left_failed error right rest world, rfl⟩
    | right_failed error heeded => exact ⟨_, _, .right_failed error heeded rest world, rfl⟩

theorem Runs.andThen {a b : Task α × World} (h : towers.Runs a b)
    (next : Except RuntimeError α → Task β) :
    towers.Runs (a.1.andThen next, a.2) (b.1.andThen next, b.2) := by
  induction h with
  | refl => exact .refl _
  | tail _ step ih => exact ih.trans (step.andThen next).runs

/-- Of two tasks one behind the other the second starts only when the first has its outcome. -/
theorem runs_andThen_cases {task : Task α} {next : Except RuntimeError α → Task β} {world : World}
    {state : Task β × World} (h : towers.Runs (task.andThen next, world) state) :
    (∃ task' world', towers.Runs (task, world) (task', world') ∧
      state = (task'.andThen next, world')) ∨
    ∃ outcome middle, towers.Runs (task, world) (.finish outcome, middle) ∧
      towers.Runs (next outcome, middle) state := by
  induction h with
  | refl => exact .inl ⟨task, world, .refl _, rfl⟩
  | tail _ step ih =>
    rcases ih with ⟨task', world', hrun, rfl⟩ | ⟨outcome, middle, hfirst, hsecond⟩
    · rcases step_andThen_cases step with ⟨outcome, rfl⟩ | ⟨task'', world'', hstep, rfl⟩
      · exact .inr ⟨outcome, world', hrun, step.runs⟩
      · exact .inl ⟨task'', world'', hrun.trans hstep.runs, rfl⟩
    · exact .inr ⟨outcome, middle, hfirst, hsecond.trans step.runs⟩

/-- A step adds at most one event, which is a resumption or what one of the parts has to emit. -/
theorem Step.events {a b : Task α × World} (h : towers.Step a b) :
    b.2.events = a.2.events ∨ ∃ entry, b.2.events = entry :: a.2.events ∧
      ((∃ function, entry = .resume function) ∨
        ∃ (β : Type) (next : Task β), Task.Part (.emit entry next) a.1) := by
  induction h with
  | emit entry next => exact .inr ⟨entry, rfl, .inr ⟨_, next, .whole _⟩⟩
  | resume function => exact .inr ⟨.resume function, rfl, .inl ⟨function, rfl⟩⟩
  | meet function => exact .inr ⟨.resume function, rfl, .inl ⟨function, rfl⟩⟩
  | left right rest _ ih =>
    rcases ih with hsame | ⟨entry, hevents, hresume | ⟨δ, next, hpart⟩⟩
    · exact .inl hsame
    · exact .inr ⟨entry, hevents, .inl hresume⟩
    · exact .inr ⟨entry, hevents, .inr ⟨δ, next, hpart.left right rest⟩⟩
  | right left rest _ ih =>
    rcases ih with hsame | ⟨entry, hevents, hresume | ⟨δ, next, hpart⟩⟩
    · exact .inl hsame
    · exact .inr ⟨entry, hevents, .inl hresume⟩
    · exact .inr ⟨entry, hevents, .inr ⟨δ, next, hpart.right left rest⟩⟩
  | _ => exact .inl rfl

theorem Step.serial_le {a b : Task α × World} (h : towers.Step a b) : a.2.serial ≤ b.2.serial := by
  induction h with
  | create next world => exact Nat.le_succ world.serial
  | left _ _ _ ih => exact ih
  | right _ _ _ ih => exact ih
  | _ => exact Nat.le_refl _

/-- Creation numbers are not used twice. -/
theorem Runs.serial_le {a b : Task α × World} (h : towers.Runs a b) : a.2.serial ≤ b.2.serial := by
  induction h with
  | refl => exact Nat.le_refl _
  | tail _ step ih => exact Nat.le_trans ih step.serial_le

/-- A run in steps and the events that it adds to the history, in the order in which they happen. -/
def Shows (towers : Towers) (a : Task α × World) (events : List Event) (b : Task α × World) :
    Prop :=
  towers.Runs a b ∧ b.2.history = a.2.history ++ events

/-- What has happened stays in the history. -/
theorem Runs.shows {a b : Task α × World} (h : towers.Runs a b) :
    ∃ events, towers.Shows a events b := by
  induction h with
  | refl => exact ⟨[], .refl _, by simp⟩
  | @tail b c hrun step ih =>
    obtain ⟨events, _, hhistory⟩ := ih
    have hall : towers.Runs a c := Runs.trans hrun step.runs
    rcases step.events with hsame | ⟨entry, hentry, _⟩
    · exact ⟨events, hall, by rw [World.history, hsame]; exact hhistory⟩
    · refine ⟨events ++ [entry], hall, ?_⟩
      rw [World.history, hentry, List.reverse_cons, ← List.append_assoc, ← hhistory]
      rfl

theorem Shows.append {a b c : Task α × World} {first later : List Event}
    (h : towers.Shows a first b) (h' : towers.Shows b later c) :
    towers.Shows a (first ++ later) c :=
  ⟨h.1.trans h'.1, by rw [h'.2, h.2, List.append_assoc]⟩

theorem shows_finish {outcome : Except RuntimeError α} {world : World} {events : List Event}
    {state : Task α × World} :
    towers.Shows (.finish outcome, world) events state ↔ state = (.finish outcome, world) ∧ events = [] := by
  constructor
  · rintro ⟨hrun, hhistory⟩
    obtain rfl := hrun.of_finish
    exact ⟨rfl, List.self_eq_append_right.mp hhistory⟩
  · rintro ⟨rfl, rfl⟩
    exact ⟨.refl _, (List.append_nil _).symm⟩

/-- An event comes before everything that is behind it. -/
theorem shows_emit_finish {entry : Event} {next : Task α} {world world' : World}
    {events : List Event} {outcome : Except RuntimeError α} :
    towers.Shows (.emit entry next, world) events (.finish outcome, world') ↔
      ∃ later, events = entry :: later ∧
        towers.Shows (next, world.record entry) later (.finish outcome, world') := by
  constructor
  · rintro ⟨hrun, hhistory⟩
    rcases Relation.ReflTransGen.cases_head hrun with hsame | ⟨state, hstep, hrest⟩
    · cases hsame
    · cases hstep
      obtain ⟨later, hlater⟩ := Runs.shows hrest
      refine ⟨later, ?_, hlater⟩
      have hall : world.history ++ events = world.history ++ (entry :: later) := by
        rw [← List.singleton_append, ← List.append_assoc, ← World.history_record, ← hlater.2]
        exact hhistory.symm
      exact List.append_cancel_left hall
  · rintro ⟨later, rfl, hrun, hhistory⟩
    refine ⟨(Step.emit entry next world).then hrun, ?_⟩
    rw [hhistory, World.history_record, List.append_assoc, List.singleton_append]

/-- Everything that a task bound to another one can come to: the first is under way or has failed, or
it has brought about its value and the second has come to something on it. -/
theorem shows_bind {task : Task α} {next : α → Task β} {world : World} {events : List Event}
    {state : Task β × World} :
    towers.Shows (task.bind next, world) events state ↔
      (∃ task' world', towers.Shows (task, world) events (task', world') ∧
        state = (task'.bind next, world')) ∨
      ∃ value middle first later, events = first ++ later ∧
        towers.Shows (task, world) first (.finish (.ok value), middle) ∧
        towers.Shows (next value, middle) later state := by
  constructor
  · rintro ⟨hrun, hhistory⟩
    rcases runs_andThen_cases hrun with ⟨task', world', hfirst, rfl⟩ | ⟨outcome, middle, hfirst, hsecond⟩
    · exact .inl ⟨task', world', ⟨hfirst, hhistory⟩, rfl⟩
    · cases outcome with
      | error error =>
        obtain rfl := Runs.of_finish hsecond
        exact .inl ⟨.finish (.error error), middle, ⟨hfirst, hhistory⟩, rfl⟩
      | ok value =>
        obtain ⟨first, hshows⟩ := hfirst.shows
        obtain ⟨later, hshows'⟩ := hsecond.shows
        refine .inr ⟨value, middle, first, later, ?_, hshows, hshows'⟩
        have hall : world.history ++ events = world.history ++ (first ++ later) := by
          rw [← List.append_assoc, ← hshows.2, ← hshows'.2]
          exact hhistory.symm
        exact List.append_cancel_left hall
  · rintro (⟨task', world', hfirst, rfl⟩ | ⟨value, middle, first, later, rfl, hfirst, hsecond⟩)
    · exact ⟨hfirst.1.andThen _, hfirst.2⟩
    · have hbind : towers.Shows (task.bind next, world) first (next value, middle) :=
        ⟨hfirst.1.andThen _, hfirst.2⟩
      exact hbind.append hsecond

/-- Of two tasks one behind the other the second has the outcome, on what the first has come to. -/
theorem shows_andThen_finish {task : Task α} {next : Except RuntimeError α → Task β}
    {world world' : World} {events : List Event} {outcome : Except RuntimeError β} :
    towers.Shows (task.andThen next, world) events (.finish outcome, world') ↔
      ∃ result middle first later, events = first ++ later ∧
        towers.Shows (task, world) first (.finish result, middle) ∧
        towers.Shows (next result, middle) later (.finish outcome, world') := by
  constructor
  · rintro ⟨hrun, hhistory⟩
    have hsplit : ∃ result middle, towers.Runs (task, world) (.finish result, middle) ∧
        towers.Runs (next result, middle) (.finish outcome, world') := by
      rcases runs_andThen_cases hrun with ⟨task', world'', hfirst, hstate⟩ | hdone
      · cases task' with
        | finish result =>
          obtain ⟨hnext, rfl⟩ := Prod.mk.inj hstate
          exact ⟨result, world', hfirst, hnext ▸ .refl _⟩
        | _ => cases hstate
      · exact hdone
    obtain ⟨result, middle, hfirst, hlater⟩ := hsplit
    obtain ⟨first, hfirst⟩ := hfirst.shows
    obtain ⟨later, hlater⟩ := hlater.shows
    refine ⟨result, middle, first, later, ?_, hfirst, hlater⟩
    have hall : world.history ++ events = world.history ++ (first ++ later) := by
      rw [← List.append_assoc, ← hfirst.2, ← hlater.2]
      exact hhistory.symm
    exact List.append_cancel_left hall
  · rintro ⟨result, middle, first, later, rfl, hfirst, hlater⟩
    have hthen : towers.Shows (task.andThen next, world) first (next result, middle) :=
      ⟨hfirst.1.andThen _, hfirst.2⟩
    exact hthen.append hlater

/-- The events of two tasks one behind the other: all of the first before any of the second. -/
theorem shows_bind_finish {task : Task α} {next : α → Task β} {world world' : World}
    {events : List Event} {outcome : Except RuntimeError β} :
    towers.Shows (task.bind next, world) events (.finish outcome, world') ↔
      (∃ error, outcome = .error error ∧
        towers.Shows (task, world) events (.finish (.error error), world')) ∨
      ∃ value middle first later, events = first ++ later ∧
        towers.Shows (task, world) first (.finish (.ok value), middle) ∧
        towers.Shows (next value, middle) later (.finish outcome, world') := by
  rw [shows_bind]
  constructor
  · rintro (⟨task', middle, hfirst, hstate⟩ | hdone)
    · cases task' with
      | finish first =>
        obtain ⟨hnext, rfl⟩ := Prod.mk.inj hstate
        cases first with
        | ok value =>
          refine .inr ⟨value, world', events, [], (List.append_nil events).symm, hfirst, ?_⟩
          exact ⟨hnext ▸ .refl _, (List.append_nil _).symm⟩
        | error error =>
          cases hnext
          exact .inl ⟨error, rfl, hfirst⟩
      | _ => cases hstate
    · exact .inr hdone
  · rintro (⟨error, rfl, hfirst⟩ | hdone)
    · exact .inl ⟨.finish (.error error), world', hfirst, rfl⟩
    · exact .inr hdone

/-- What a policy asks of a task it asks of what is left of it, as long as function values that it lets
routines call keep to the policy. -/
theorem Step.obeys {policy : Policy}
    (hcalls : ∀ function callee context next, policy.routine function (.call callee context next) →
      (towers.callTask callee context).Obeys policy)
    {a b : Task α × World} (h : towers.Step a b) (ha : a.1.Obeys policy) : b.1.Obeys policy := by
  induction h with
  | emit => exact ha.2
  | create next world => exact ha world.serial
  | finish _ outcome => exact ha.2 outcome
  | elapse function polls body =>
    exact ⟨policy.routine_leads function _ _ (.elapse polls body) ha.1, ha.2⟩
  | resume function body => exact ⟨policy.routine_leads function _ _ (.resume body) ha.1, ha.2⟩
  | arrive function point body =>
    exact ⟨policy.routine_leads function _ _ (.arrive point body) ha.1, ha.2⟩
  | meet function point count body =>
    exact ⟨policy.routine_leads function _ _ (.await point count body) ha.1, ha.2⟩
  | tick function body next world =>
    exact ⟨policy.routine_leads function _ _ (.tick body world.ticks) ha.1, ha.2⟩
  | call function callee context body =>
    refine (hcalls function callee context body ha.1).andThen fun outcome => ⟨?_, ha.2⟩
    exact policy.routine_leads function _ _ (.call callee context body outcome) ha.1
  | left _ _ _ ih => exact ⟨ih ha.1, ha.2⟩
  | right _ _ _ ih => exact ⟨ha.1, ih ha.2.1, ha.2.2⟩
  | joined a b => exact ha.2.2 (.ok (a, b))
  | left_failed error => exact ha.2.2 (.error error)
  | right_failed error => exact ha.2.2 (.error error)

theorem Runs.obeys {policy : Policy}
    (hcalls : ∀ callee context, (towers.callTask callee context).Obeys policy)
    {a b : Task α × World} (h : towers.Runs a b) (ha : a.1.Obeys policy) : b.1.Obeys policy := by
  induction h with
  | refl => exact ha
  | tail _ step ih => exact step.obeys (fun _ callee context _ _ => hcalls callee context) ih

/-- The events of a run are resumptions and what the policy allows. -/
theorem Shows.obeyed {policy : Policy}
    (hcalls : ∀ callee context, (towers.callTask callee context).Obeys policy)
    {a b : Task α × World} {events : List Event} (h : towers.Shows a events b)
    (ha : a.1.Obeys policy) :
    ∀ entry ∈ events, (∃ function, entry = .resume function) ∨
      ∃ (β : Type) (next : Task β), policy.event entry next := by
  obtain ⟨hrun, hhistory⟩ := h
  induction hrun generalizing events with
  | refl =>
    have hnone : events = [] := List.self_eq_append_right.mp hhistory
    simp [hnone]
  | @tail b c hrun step ih =>
    obtain ⟨before, hshows⟩ := Runs.shows hrun
    have hbefore := ih hshows.2
    rcases step.events with hsame | ⟨entry, hentry, hwhence⟩
    · have hall : a.2.history ++ events = a.2.history ++ before := by
        rw [← hhistory, ← hshows.2, World.history, hsame]
        rfl
      rw [List.append_cancel_left hall]
      exact hbefore
    · have hall : a.2.history ++ events = a.2.history ++ (before ++ [entry]) := by
        rw [← hhistory, ← List.append_assoc, ← hshows.2, World.history, hentry, List.reverse_cons]
        rfl
      rw [List.append_cancel_left hall]
      intro other hother
      rcases List.mem_append.mp hother with hold | hnew
      · exact hbefore other hold
      · rw [List.mem_singleton.mp hnew]
        rcases hwhence with hresume | ⟨β, next, hpart⟩
        · exact .inl hresume
        · exact .inr ⟨β, next, ((Runs.obeys hcalls hrun ha).part hpart).1⟩

theorem Step.returns {meets : Except RuntimeError α → Prop} {a b : Task α × World}
    (h : towers.Step a b) (ha : a.1.Returns meets) : b.1.Returns meets := by
  cases h with
  | emit => exact ha
  | create next world => exact ha world.serial
  | finish _ outcome => exact ha outcome
  | call function callee context body next =>
    exact (Task.returns_trivial _).andThen fun outcome _ => ha
  | joined a b => exact ha (.ok (a, b))
  | left_failed error => exact ha (.error error)
  | right_failed error => exact ha (.error error)
  | _ => exact ha

/-- Whatever order the parts go on in, the outcome meets what every outcome of the tree meets. -/
theorem Runs.returns {meets : Except RuntimeError α → Prop} {a b : Task α × World}
    (h : towers.Runs a b) (ha : a.1.Returns meets) : b.1.Returns meets := by
  induction h with
  | refl => exact ha
  | tail _ step ih => exact step.returns ih

end Towers

end ChainExpr
