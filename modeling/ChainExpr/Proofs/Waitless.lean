import ChainExpr.Proofs.Conduct
import ChainExpr.Proofs.Sequential
import ChainExpr.Proofs.Visits

namespace ChainExpr

variable {α β : Type}

/-- The routine does not wait, whatever it may be told on its way. -/
def Routine.Ready : Routine → Prop
  | .finish _ => True
  | .wait _ _ => False
  | .arrive _ next => next.Ready
  | .await _ _ _ => False
  | .tick next => ∀ before, (next before).Ready
  | .call _ _ next => ∀ outcome, (next outcome).Ready

theorem Routine.Ready.leads {body rest : Routine} (hleads : body.Leads rest) (h : body.Ready) :
    rest.Ready := by
  cases hleads with
  | elapse polls next => exact h.elim
  | resume next => exact h.elim
  | arrive point next => exact h
  | await point count next => exact h.elim
  | tick next before => exact h before
  | call callee context next outcome => exact h outcome

/-- A round that is done as an evaluation in order is, or calls nested too deep for both. -/
inductive Progress.Agrees : Progress α × World → Option (Except RuntimeError α × World) → Prop
  | done (outcome : Except RuntimeError α) (world : World) :
      Agrees (.done outcome, world) (some (outcome, world))
  | exhausted (world : World) : Agrees (.exhausted, world) none

theorem Progress.Agrees.done_iff {stands : Progress α × World} {world : World}
    {result : Option (Except RuntimeError α × World)} {outcome : Except RuntimeError α}
    (h : Agrees stands result) : stands = (.done outcome, world) ↔ result = some (outcome, world) := by
  cases h with
  | done ended last => simp
  | exhausted last => simp

theorem Progress.Agrees.not_pending {stands : Progress α × World} {world : World}
    {result : Option (Except RuntimeError α × World)} {rest : Task α} (h : Agrees stands result) :
    stands ≠ (.pending rest, world) := by
  cases h with
  | done ended last => simp
  | exhausted last => simp

inductive RoutineProgress.Agrees :
    RoutineProgress × World → Option (Except RuntimeError Value × World) → Prop
  | done (outcome : Except RuntimeError Value) (world : World) :
      Agrees (.done outcome, world) (some (outcome, world))
  | exhausted (world : World) : Agrees (.exhausted, world) none

/-- Function values come to the same when they are entered as when they are called in order. -/
def Entry.Agrees (enter : Entry) (plain : Callable → Value → Sequential Value) : Prop :=
  ∀ callee context world, Progress.Agrees (enter callee context world) (plain callee context world)

theorem Routine.Ready.agrees {enter : Entry} {plain : Callable → Value → Sequential Value}
    (henter : enter.Agrees plain) (function : String) {body : Routine} (h : body.Ready)
    (world : World) :
    RoutineProgress.Agrees (body.round enter function world) (body.inOrder plain world) := by
  induction body generalizing world with
  | finish outcome => exact .done outcome world
  | wait polls next ih => exact h.elim
  | arrive point next ih => exact ih h (world.arrive point)
  | await point count next ih => exact h.elim
  | tick next ih => exact ih world.ticks (h world.ticks) world.tick
  | call callee context next ih =>
    have hentered := henter callee context world
    simp only [Routine.round, Routine.inOrder]
    generalize enter callee context world = stands at hentered ⊢
    generalize plain callee context world = result at hentered ⊢
    cases hentered with
    | done outcome middle => exact ih outcome (h outcome) middle
    | exhausted middle => exact .exhausted middle

/-- All routines of a task are to be ready. -/
def ready : Policy where
  event _ _ := True
  routine _ body := body.Ready
  event_andThen _ _ _ _ := trivial
  routine_leads _ _ _ hleads h := h.leads hleads

/-- One round of a task that never waits is the task in order. -/
theorem Task.Obeys.agrees {enter : Entry} {plain : Callable → Value → Sequential Value}
    (henter : enter.Agrees plain) {task : Task α} (h : task.Obeys ready) (world : World) :
    Progress.Agrees (task.round enter world) (task.inOrder plain world) := by
  induction task generalizing world with
  | finish outcome => exact .done outcome world
  | emit entry next ih => exact ih h.2 (world.record entry)
  | create next ih => exact ih world.serial (h world.serial) world.take
  | routine function body next ih =>
    have hbody := h.1.agrees henter function world
    simp only [Task.round, Task.inOrder]
    generalize body.round enter function world = stands at hbody ⊢
    generalize body.inOrder plain world = result at hbody ⊢
    cases hbody with
    | done outcome middle => exact ih outcome (h.2 outcome) middle
    | exhausted middle => exact .exhausted middle
  | both mode left right next ihl ihr ih =>
    have hleft := ihl h.1 world
    simp only [Task.round, Task.inOrder]
    generalize left.round enter world = stands at hleft ⊢
    generalize left.inOrder plain world = result at hleft ⊢
    cases hleft with
    | exhausted middle => exact .exhausted middle
    | done outcome middle =>
      cases outcome with
      | error error => exact ih (.error error) (h.2.2 _) middle
      | ok a =>
        have hright := ihr h.2.1 middle
        simp only [Option.bind_some]
        generalize right.round enter middle = stands at hright ⊢
        generalize right.inOrder plain middle = result at hright ⊢
        cases hright with
        | exhausted last => exact .exhausted last
        | done outcome last =>
          cases outcome with
          | error error => exact ih (.error error) (h.2.2 _) last
          | ok b => exact ih (.ok (a, b)) (h.2.2 _) last

namespace Towers

/-- No implementation and no answer of a host waits. -/
structure NeverWaits (towers : Towers) : Prop where
  functions : ∀ interpreter, towers.Within interpreter → ∀ name definition,
    interpreter.functions.lookup name = some definition → ∀ context arguments,
      (definition.implementation context arguments).Ready
  answers : ∀ equipment name answer, towers.Within (.mk equipment (.custom name answer)) →
    ∀ chain context, (answer chain context).Ready

variable {towers : Towers} {interpreter : Interpreter}

theorem NeverWaits.allows (h : towers.NeverWaits) : ready.Allows towers where
  log _ _ := trivial
  conversion _ _ := trivial
  request _ _ _ _ _ := trivial
  call interpreter hwithin name definition hlookup context arguments _ :=
    ⟨trivial, h.functions interpreter hwithin name definition hlookup context arguments,
      fun _ => trivial⟩
  answer equipment name answer hwithin chain context :=
    h.answers equipment name answer hwithin chain context

theorem NeverWaits.entry_agrees (h : towers.NeverWaits) (depth : Nat) :
    (towers.entry depth).Agrees (towers.sequentialCall depth) := by
  induction depth with
  | zero => exact fun callee context world => .exhausted world
  | succ depth ih =>
    intro callee context world
    rw [entry_succ, poll_eq, sequentialCall_succ]
    exact (h.allows.obeys_callTask callee context).agrees ih world

/-- Where nothing waits, the first round of an evaluation is the plain evaluation. -/
theorem NeverWaits.poll_agrees (h : towers.NeverWaits) (hwithin : towers.Within interpreter)
    (depth : Nat) (node : Node) (context : Value) (world : World) :
    Progress.Agrees (towers.poll depth (interpreter.interpret node context) world)
      (towers.sequential interpreter depth node context world) := by
  rw [poll_eq, sequential, ← Interpreter.inOrder_interpret]
  exact (h.allows.obeys_interpret hwithin node context).agrees (h.entry_agrees depth) world

/-- Where nothing waits, no failure is kept back. -/
theorem NeverWaits.heedsFailures (h : towers.NeverWaits) (hwithin : towers.Within interpreter)
    (node : Node) (context : Value) (world : World) :
    towers.HeedsFailures (interpreter.interpret node context) world := by
  have hpolls {γ : Type} {task rest : Task γ} {world middle : World} (htask : task.Obeys ready) :
      ¬ towers.Polls task world (.pending rest) middle := by
    rintro ⟨_, depth, hpoll⟩
    rw [poll_eq] at hpoll
    exact (htask.agrees (h.entry_agrees depth) world).not_pending hpoll
  have hnode := h.allows.obeys_interpret hwithin node context
  intro polls rest middle pends
  cases pends with
  | later waits _ => exact absurd waits (hpolls hnode)
  | now =>
    rintro ⟨visits, lefts, _⟩
    exact hpolls (visits.obeys h.allows.obeys_callTask hnode).1 lefts

/-- Where nothing waits, evaluations end in the first round if at all, as the plain evaluation does. -/
theorem NeverWaits.ends_iff (h : towers.NeverWaits) (hwithin : towers.Within interpreter) {node : Node}
    {context : Value}
    {world world' : World} {polls : Nat} {outcome : Except RuntimeError Value} :
    towers.Ends (interpreter.interpret node context) world polls outcome world' ↔
      polls = 0 ∧ ∃ depth,
        towers.sequential interpreter depth node context world = some (outcome, world') := by
  constructor
  · intro hends
    cases hends with
    | now done =>
      obtain ⟨_, depth, hpoll⟩ := done
      exact ⟨rfl, depth, (h.poll_agrees hwithin depth node context world).done_iff.mp hpoll⟩
    | later waits _ =>
      obtain ⟨_, depth, hpoll⟩ := waits
      exact absurd hpoll (h.poll_agrees hwithin depth node context world).not_pending
  · rintro ⟨rfl, depth, hplain⟩
    exact .now ⟨by simp, depth, (h.poll_agrees hwithin depth node context world).done_iff.mpr hplain⟩

/-- Where nothing waits, driving an evaluation is evaluating it plainly, at every depth. -/
theorem NeverWaits.drive_iff (h : towers.NeverWaits) (hwithin : towers.Within interpreter) {node : Node}
    {context : Value}
    {world world' : World} {depth rounds : Nat} {outcome : Except RuntimeError Value} :
    towers.drive depth (rounds + 1) (interpreter.interpret node context) world =
        (.done outcome, world') ↔
      towers.sequential interpreter depth node context world = some (outcome, world') := by
  have hagrees := h.poll_agrees hwithin depth node context world
  rw [← hagrees.done_iff, drive]
  generalize towers.poll depth (interpreter.interpret node context) world = stands at hagrees ⊢
  generalize towers.sequential interpreter depth node context world = result at hagrees
  cases hagrees with
  | done ended middle => simp
  | exhausted middle => simp

end Towers

end ChainExpr
