import ChainExpr.Proofs.Homes
import ChainExpr.Proofs.Polling

namespace ChainExpr

variable {α β γ : Type}

/-- What an observer does not see: where function values have their homes, as far as homes are moved
to one place, and the hidden events. -/
structure View where
  move : Home → Home
  hidden : Event → Bool
  hidden_kin : ∀ entry entry', entry.Kin move entry' → hidden entry = hidden entry'

/-- Routines that do the same once homes are moved, whatever they learn on their way. -/
inductive Routine.Kin (move : Home → Home) : Routine → Routine → Prop
  | finish {outcome outcome' : Except RuntimeError Value}
      (outcomes : OutcomeKin (Value.Kin move) outcome outcome') :
      Kin move (.finish outcome) (.finish outcome')
  | wait (polls : Nat) {next next' : Routine} (later : Kin move next next') :
      Kin move (.wait polls next) (.wait polls next')
  | arrive (point : String) {next next' : Routine} (later : Kin move next next') :
      Kin move (.arrive point next) (.arrive point next')
  | await (point : String) (count : Nat) {next next' : Routine} (later : Kin move next next') :
      Kin move (.await point count next) (.await point count next')
  | tick {next next' : Nat → Routine} (later : ∀ before, Kin move (next before) (next' before)) :
      Kin move (.tick next) (.tick next')
  | call {callee callee' : Callable} {context context' : Value}
      {next next' : Except RuntimeError Value → Routine} (callees : callee.Kin move callee')
      (contexts : context.Kin move context')
      (later : ∀ outcome outcome', OutcomeKin (Value.Kin move) outcome outcome' →
        Kin move (next outcome) (next' outcome')) :
      Kin move (.call callee context next) (.call callee' context' next')

/-- Tasks that look the same and whose values are related. Either may have a hidden event that the
other one does not have. -/
inductive Task.Kin (view : View) : {α : Type} → (α → α → Prop) → Task α → Task α → Prop
  | finish {α : Type} {kin : α → α → Prop} {outcome outcome' : Except RuntimeError α}
      (outcomes : OutcomeKin kin outcome outcome') : Kin view kin (.finish outcome) (.finish outcome')
  | emit {α : Type} {kin : α → α → Prop} {entry entry' : Event} {next next' : Task α}
      (entries : entry.Kin view.move entry') (later : Kin view kin next next') :
      Kin view kin (.emit entry next) (.emit entry' next')
  | hidden_left {α : Type} {kin : α → α → Prop} {entry : Event} {next task : Task α}
      (hides : view.hidden entry = true) (later : Kin view kin next task) :
      Kin view kin (.emit entry next) task
  | hidden_right {α : Type} {kin : α → α → Prop} {entry : Event} {next task : Task α}
      (hides : view.hidden entry = true) (later : Kin view kin task next) :
      Kin view kin task (.emit entry next)
  | create {α : Type} {kin : α → α → Prop} {next next' : Nat → Task α}
      (later : ∀ serial, Kin view kin (next serial) (next' serial)) :
      Kin view kin (.create next) (.create next')
  | routine {α : Type} {kin : α → α → Prop} (function : String) {body body' : Routine}
      {next next' : Except RuntimeError Value → Task α} (bodies : body.Kin view.move body')
      (later : ∀ outcome outcome', OutcomeKin (Value.Kin view.move) outcome outcome' →
        Kin view kin (next outcome) (next' outcome')) :
      Kin view kin (.routine function body next) (.routine function body' next')
  | both {α β γ : Type} {kin : α → α → Prop} {kinl : β → β → Prop} {kinr : γ → γ → Prop}
      {mode : JoinMode} {left left' : Task β} {right right' : Task γ}
      {next next' : Except RuntimeError (β × γ) → Task α} (lefts : Kin view kinl left left')
      (rights : Kin view kinr right right')
      (later : ∀ outcome outcome',
        OutcomeKin (fun a b => kinl a.1 b.1 ∧ kinr a.2 b.2) outcome outcome' →
          Kin view kin (next outcome) (next' outcome')) :
      Kin view kin (.both mode left right next) (.both mode left' right' next')

theorem Routine.Kin.symm {move : Home → Home} {body body' : Routine} (h : body.Kin move body') :
    body'.Kin move body := by
  induction h with
  | finish outcomes => exact .finish (outcomes.flip.imp fun _ _ => Value.Kin.symm)
  | wait polls _ ih => exact .wait polls ih
  | arrive point _ ih => exact .arrive point ih
  | await point count _ ih => exact .await point count ih
  | tick _ ih => exact .tick ih
  | call callees contexts _ ih =>
    refine .call callees.symm contexts.symm fun outcome outcome' outcomes => ?_
    exact ih outcome' outcome (outcomes.flip.imp fun _ _ => Value.Kin.symm)

/-- The events that the observer sees, in the order in which they happened. -/
def View.seen (view : View) (world : World) : List Event :=
  world.history.filter fun entry => !view.hidden entry

/-- The same counters, and the same events as far as the observer sees. -/
structure World.Kin (view : View) (world world' : World) : Prop where
  serial : world.serial = world'.serial
  ticks : world.ticks = world'.ticks
  arrivals : world.arrivals = world'.arrivals
  seen : List.Forall₂ (Event.Kin view.move) (view.seen world) (view.seen world')

variable {view : View}

namespace World

variable {world world' : World}

theorem seen_record (view : View) (world : World) (entry : Event) :
    view.seen (world.record entry) =
      if view.hidden entry then view.seen world else view.seen world ++ [entry] := by
  rw [View.seen, history_record, List.filter_append]
  cases hhidden : view.hidden entry with
  | true => simp [View.seen, hhidden]
  | false => simp [View.seen, hhidden]

namespace Kin

theorem record (h : world.Kin view world') {entry entry' : Event}
    (entries : entry.Kin view.move entry') :
    (world.record entry).Kin view (world'.record entry') where
  serial := h.serial
  ticks := h.ticks
  arrivals := h.arrivals
  seen := by
    rw [seen_record, seen_record, ← view.hidden_kin entry entry' entries]
    split
    · exact h.seen
    · exact List.rel_append h.seen (.cons entries .nil)

theorem hidden_left (h : world.Kin view world') {entry : Event}
    (hides : view.hidden entry = true) : (world.record entry).Kin view world' where
  serial := h.serial
  ticks := h.ticks
  arrivals := h.arrivals
  seen := by
    rw [seen_record, if_pos hides]
    exact h.seen

theorem hidden_right (h : world.Kin view world') {entry : Event}
    (hides : view.hidden entry = true) : world.Kin view (world'.record entry) where
  serial := h.serial
  ticks := h.ticks
  arrivals := h.arrivals
  seen := by
    rw [seen_record, if_pos hides]
    exact h.seen

theorem take (h : world.Kin view world') : world.take.Kin view world'.take where
  serial := congrArg (· + 1) h.serial
  ticks := h.ticks
  arrivals := h.arrivals
  seen := h.seen

theorem tick (h : world.Kin view world') : world.tick.Kin view world'.tick where
  serial := h.serial
  ticks := congrArg (· + 1) h.ticks
  arrivals := h.arrivals
  seen := h.seen

theorem arrive (h : world.Kin view world') (point : String) :
    (world.arrive point).Kin view (world'.arrive point) where
  serial := h.serial
  ticks := h.ticks
  arrivals := by
    simp only [World.arrive, h.arrivals]
  seen := h.seen

end Kin

end World

namespace Task.Kin

variable {kin kin' : α → α → Prop} {task task' : Task α}

theorem imp (hle : ∀ a b, kin a b → kin' a b) (h : task.Kin view kin task') :
    task.Kin view kin' task' := by
  induction h with
  | finish outcomes => exact .finish (outcomes.imp hle)
  | emit entries _ ih => exact .emit entries (ih hle)
  | hidden_left hides _ ih => exact .hidden_left hides (ih hle)
  | hidden_right hides _ ih => exact .hidden_right hides (ih hle)
  | create _ ih => exact .create fun serial => ih serial hle
  | routine function bodies _ ih =>
    exact .routine function bodies fun outcome outcome' outcomes => ih outcome outcome' outcomes hle
  | both lefts rights _ _ _ ih =>
    exact .both lefts rights fun outcome outcome' outcomes => ih outcome outcome' outcomes hle

theorem flip (h : task.Kin view kin task') : task'.Kin view (fun a b => kin b a) task := by
  induction h with
  | finish outcomes => exact .finish outcomes.flip
  | emit entries _ ih => exact .emit entries.symm ih
  | hidden_left hides _ ih => exact .hidden_right hides ih
  | hidden_right hides _ ih => exact .hidden_left hides ih
  | create _ ih => exact .create ih
  | routine function bodies _ ih =>
    refine .routine function bodies.symm fun outcome outcome' outcomes => ?_
    exact ih outcome' outcome (outcomes.flip.imp fun _ _ => Value.Kin.symm)
  | both _ _ _ ihl ihr ih =>
    exact .both ihl ihr fun outcome outcome' outcomes => ih outcome' outcome outcomes.flip

theorem andThen {kinb : β → β → Prop} {next next' : Except RuntimeError α → Task β}
    (h : task.Kin view kin task')
    (hnext : ∀ outcome outcome', OutcomeKin kin outcome outcome' →
      (next outcome).Kin view kinb (next' outcome')) :
    (task.andThen next).Kin view kinb (task'.andThen next') := by
  induction h with
  | finish outcomes => exact hnext _ _ outcomes
  | emit entries _ ih => exact .emit entries (ih hnext)
  | hidden_left hides _ ih => exact .hidden_left hides (ih hnext)
  | hidden_right hides _ ih => exact .hidden_right hides (ih hnext)
  | create _ ih => exact .create fun serial => ih serial hnext
  | routine function bodies _ ih =>
    exact .routine function bodies fun outcome outcome' outcomes =>
      ih outcome outcome' outcomes hnext
  | both lefts rights _ _ _ ih =>
    exact .both lefts rights fun outcome outcome' outcomes => ih outcome outcome' outcomes hnext

theorem ok {a b : α} (h : kin a b) : (Task.ok a).Kin view kin (.ok b) := .finish (.ok h)

theorem fail (error : RuntimeError) : (Task.fail error : Task α).Kin view kin (.fail error) :=
  .finish (.error error)

theorem bind {kinb : β → β → Prop} {next next' : α → Task β} (h : task.Kin view kin task')
    (hnext : ∀ a b, kin a b → (next a).Kin view kinb (next' b)) :
    (task.bind next).Kin view kinb (task'.bind next') := by
  apply h.andThen
  intro outcome outcome' outcomes
  cases outcomes with
  | ok values => exact hnext _ _ values
  | error error => exact fail error

theorem onError (h : task.Kin view kin task') (entry : RuntimeError → LogEntry) :
    (task.onError entry).Kin view kin (task'.onError entry) := by
  apply h.andThen
  intro outcome outcome' outcomes
  cases outcomes with
  | ok values => exact ok values
  | error error => exact .emit (.log _) (fail error)

/-- Tasks that look the same one by one look the same side by side. -/
theorem join {ι : Type} {items : List ι} {first second : ι → Task α}
    (h : ∀ item ∈ items, (first item).Kin view kin (second item)) :
    (Task.join (items.map first)).Kin view (List.Forall₂ kin) (Task.join (items.map second)) := by
  refine Task.join_related (ok .nil) ?cons ?append h
  case cons =>
    intro task task' rest rest' htask hrest
    refine .both htask hrest fun outcome outcome' outcomes => ?_
    cases outcomes with
    | ok hboth => exact ok (.cons hboth.1 hboth.2)
    | error error => exact fail error
  case append =>
    intro before before' task task' hbefore htask
    refine .both hbefore htask fun outcome outcome' outcomes => ?_
    cases outcomes with
    | ok hboth => exact ok (List.rel_append hboth.1 (.cons hboth.2 .nil))
    | error error => exact fail error

theorem emitAll {events events' : List Event}
    (entries : List.Forall₂ (Event.Kin view.move) events events') (h : task.Kin view kin task') :
    (Task.emitAll events task).Kin view kin (Task.emitAll events' task') := by
  induction entries with
  | nil => exact h
  | cons entries _ ih => exact .emit entries ih

/-- What comes after a cast of kin values looks the same if it does after kin outcomes. -/
theorem cast {types : TypeRegistry} (hportable : types.Portable view.move) {value value' : Value}
    (h : value.Kin view.move value') (acceptable : List TypeName)
    {next next' : Except CastError Value → Task α}
    (hnext : ∀ outcome outcome', OutcomeKin (Value.Kin view.move) outcome outcome' →
      (next outcome).Kin view kin (next' outcome')) :
    (Task.cast types value acceptable next).Kin view kin
      (Task.cast types value' acceptable next') := by
  have hcast := hportable.cast_kin h acceptable
  simp only [Task.cast]
  generalize types.cast value acceptable = found at hcast ⊢
  generalize types.cast value' acceptable = found' at hcast ⊢
  cases hcast with
  | mk tried outcomes =>
    refine emitAll ?_ (hnext _ _ outcomes)
    rw [List.forall₂_map_left_iff, List.forall₂_map_right_iff]
    exact tried.imp fun _ _ attempts => .conversion attempts

end Task.Kin

/-- Two rounds of tasks come out the same way, on worlds that look the same. -/
inductive Progress.Kin (view : View) (kin : α → α → Prop) :
    Progress α × World → Progress α × World → Prop
  | done {outcome outcome' : Except RuntimeError α} {world world' : World}
      (outcomes : OutcomeKin kin outcome outcome') (worlds : world.Kin view world') :
      Kin view kin (.done outcome, world) (.done outcome', world')
  | pending {rest rest' : Task α} {world world' : World} (rests : rest.Kin view kin rest')
      (worlds : world.Kin view world') : Kin view kin (.pending rest, world) (.pending rest', world')
  | exhausted {world world' : World} (worlds : world.Kin view world') :
      Kin view kin (.exhausted, world) (.exhausted, world')

/-- Two rounds of routines come out the same way, on worlds that look the same. -/
inductive RoutineProgress.Kin (view : View) :
    RoutineProgress × World → RoutineProgress × World → Prop
  | done {outcome outcome' : Except RuntimeError Value} {world world' : World}
      (outcomes : OutcomeKin (Value.Kin view.move) outcome outcome')
      (worlds : world.Kin view world') : Kin view (.done outcome, world) (.done outcome', world')
  | pending {rest rest' : Routine} {world world' : World} (rests : rest.Kin view.move rest')
      (worlds : world.Kin view world') : Kin view (.pending rest, world) (.pending rest', world')
  | inside {callee callee' : Task Value} {next next' : Except RuntimeError Value → Routine}
      {world world' : World} (callees : callee.Kin view (Value.Kin view.move) callee')
      (later : ∀ outcome outcome', OutcomeKin (Value.Kin view.move) outcome outcome' →
        (next outcome).Kin view.move (next' outcome'))
      (worlds : world.Kin view world') :
      Kin view (.inside callee next, world) (.inside callee' next', world')
  | exhausted {world world' : World} (worlds : world.Kin view world') :
      Kin view (.exhausted, world) (.exhausted, world')

/-- Two ways of entering function values that look the same. -/
def Entry.Kin (view : View) (enter enter' : Entry) : Prop :=
  ∀ callee callee', callee.Kin view.move callee' →
    ∀ context context', context.Kin view.move context' →
      ∀ world world', world.Kin view world' →
        Progress.Kin view (Value.Kin view.move) (enter callee context world)
          (enter' callee' context' world')

theorem Routine.Kin.round {enter enter' : Entry} (henter : enter.Kin view enter')
    (function : String) {body body' : Routine} (h : body.Kin view.move body')
    {world world' : World} (worlds : world.Kin view world') :
    RoutineProgress.Kin view (body.round enter function world)
      (body'.round enter' function world') := by
  induction h generalizing world world' with
  | finish outcomes => exact .done outcomes worlds
  | wait polls later ih =>
    cases polls with
    | zero => exact ih (worlds.record (.resume function))
    | succ polls => exact .pending (.wait polls later) worlds
  | arrive point _ ih => exact ih (worlds.arrive point)
  | await point count later ih =>
    simp only [Routine.round, ← worlds.arrivals]
    split
    · exact ih (worlds.record (.resume function))
    · exact .pending (.await point count later) worlds
  | tick _ ih =>
    simp only [Routine.round, ← worlds.ticks]
    exact ih world.ticks worlds.tick
  | call callees contexts later ih =>
    have hentered := henter _ _ callees _ _ contexts _ _ worlds
    simp only [Routine.round]
    generalize enter _ _ world = stands at hentered ⊢
    generalize enter' _ _ world' = stands' at hentered ⊢
    cases hentered with
    | done outcomes worlds => exact ih _ _ outcomes worlds
    | pending rests worlds => exact .inside rests later worlds
    | exhausted worlds => exact .exhausted worlds

/-- A round keeps the look of tasks. -/
theorem Task.Kin.round {enter enter' : Entry} (henter : enter.Kin view enter')
    {kin : α → α → Prop} {task task' : Task α} (h : task.Kin view kin task') {world world' : World}
    (worlds : world.Kin view world') :
    Progress.Kin view kin (task.round enter world) (task'.round enter' world') := by
  induction h generalizing world world' with
  | finish outcomes => exact .done outcomes worlds
  | emit entries _ ih => exact ih (worlds.record entries)
  | hidden_left hides _ ih => exact ih (worlds.hidden_left hides)
  | hidden_right hides _ ih => exact ih (worlds.hidden_right hides)
  | create _ ih =>
    simp only [Task.round, ← worlds.serial]
    exact ih world.serial worlds.take
  | routine function bodies later ih =>
    have hbody := bodies.round henter function worlds
    simp only [Task.round]
    generalize Routine.round enter function _ world = stands at hbody ⊢
    generalize Routine.round enter' function _ world' = stands' at hbody ⊢
    cases hbody with
    | done outcomes worlds => exact ih _ _ outcomes worlds
    | pending rests worlds => exact .pending (.routine function rests later) worlds
    | inside callees resumes worlds =>
      refine .pending (callees.andThen fun outcome outcome' outcomes => ?_) worlds
      exact .routine function (resumes outcome outcome' outcomes) later
    | exhausted worlds => exact .exhausted worlds
  | @both _ _ _ _ _ _ mode _ _ _ _ _ _ lefts rights later ihl ihr ih =>
    have hleft := ihl worlds
    simp only [Task.round]
    generalize Task.round enter _ world = stands at hleft ⊢
    generalize Task.round enter' _ world' = stands' at hleft ⊢
    cases hleft with
    | exhausted worlds => exact .exhausted worlds
    | done outcomes worlds =>
      cases outcomes with
      | error error => exact ih _ _ (.error error) worlds
      | ok as =>
        have hright := ihr worlds
        simp only
        generalize Task.round enter _ _ = stands at hright ⊢
        generalize Task.round enter' _ _ = stands' at hright ⊢
        cases hright with
        | exhausted worlds => exact .exhausted worlds
        | pending rests worlds => exact .pending (.both (.finish (.ok as)) rests later) worlds
        | done outcomes worlds =>
          cases outcomes with
          | error error => exact ih _ _ (.error error) worlds
          | ok bs => exact ih _ _ (.ok ⟨as, bs⟩) worlds
    | pending lefts worlds =>
      have hright := ihr worlds
      simp only
      generalize Task.round enter _ _ = stands at hright ⊢
      generalize Task.round enter' _ _ = stands' at hright ⊢
      cases hright with
      | exhausted worlds => exact .exhausted worlds
      | pending rests worlds => exact .pending (.both lefts rests later) worlds
      | done outcomes worlds =>
        cases outcomes with
        | ok bs => exact .pending (.both lefts (.finish (.ok bs)) later) worlds
        | error error =>
          cases mode with
          | eager => exact ih _ _ (.error error) worlds
          | inOrder => exact .pending (.both lefts (.fail error) later) worlds

/-- Two runs end the same way, on worlds that look the same. -/
inductive Ending.Kin (view : View) (kin : α → α → Prop) : Ending α × World → Ending α × World → Prop
  | done {outcome outcome' : Except RuntimeError α} {world world' : World}
      (outcomes : OutcomeKin kin outcome outcome') (worlds : world.Kin view world') :
      Kin view kin (.done outcome, world) (.done outcome', world')
  | stalled {world world' : World} (worlds : world.Kin view world') :
      Kin view kin (.stalled, world) (.stalled, world')
  | exhausted {world world' : World} (worlds : world.Kin view world') :
      Kin view kin (.exhausted, world) (.exhausted, world')

namespace Towers

/-- What is called on one tower looks like what is called on the other. -/
def CallsKin (view : View) (towers towers' : Towers) : Prop :=
  ∀ callee callee', callee.Kin view.move callee' →
    ∀ context context', context.Kin view.move context' →
      (towers.callTask callee context).Kin view (Value.Kin view.move)
        (towers'.callTask callee' context')

variable {towers towers' : Towers} {kin : α → α → Prop} {task task' : Task α}
  {world world' : World}

theorem CallsKin.entry (hcalls : CallsKin view towers towers') (depth : Nat) :
    (towers.entry depth).Kin view (towers'.entry depth) := by
  induction depth with
  | zero => exact fun _ _ _ _ _ _ _ _ worlds => .exhausted worlds
  | succ depth ih =>
    intro callee callee' callees context context' contexts world world' worlds
    rw [entry_succ, entry_succ, poll_eq, poll_eq]
    exact (hcalls callee callee' callees context context' contexts).round ih worlds

/-- Tasks that look the same run the same, round by round. -/
theorem CallsKin.drive (hcalls : CallsKin view towers towers') (h : task.Kin view kin task')
    (worlds : world.Kin view world') (depth rounds : Nat) :
    Ending.Kin view kin (towers.drive depth rounds task world)
      (towers'.drive depth rounds task' world') := by
  induction rounds generalizing task task' world world' with
  | zero => exact .stalled worlds
  | succ rounds ih =>
    have hround := h.round (hcalls.entry depth) worlds
    simp only [Towers.drive, poll_eq]
    generalize task.round (towers.entry depth) world = stands at hround ⊢
    generalize task'.round (towers'.entry depth) world' = stands' at hround ⊢
    cases hround with
    | done outcomes worlds => exact .done outcomes worlds
    | pending rests worlds => exact ih rests worlds
    | exhausted worlds => exact .exhausted worlds

end Towers

end ChainExpr
