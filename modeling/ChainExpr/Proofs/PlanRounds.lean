import ChainExpr.Proofs.Plan

namespace ChainExpr

variable {α : Type}

/-- Where a plan stands after a round. -/
inductive Standing (α : Type) : Type 1
  | done (outcome : Except RuntimeError α)
  | pending (rest : Plan α)
  /-- Calls of function values are nested too deep. -/
  | exhausted

namespace Standing

def progress : Standing α → Progress α
  | .done outcome => .done outcome
  | .pending rest => .pending rest.task
  | .exhausted => .exhausted

end Standing

namespace Plan

/-- One round of a plan, with the milestones that it passes. -/
def round (enter : Entry) {α : Type} : Plan α → World → List Milestone × Standing α × World
  | .plain task, world =>
    match task.round enter world with
    | (.done outcome, world) => ([], .done outcome, world)
    | (.pending rest, world) => ([], .pending (.plain rest), world)
    | (.exhausted, world) => ([], .exhausted, world)
  | .pass milestone next, world =>
    match next.round enter (milestone.event?.elim world world.record) with
    | (story, standing, world) => (milestone :: story, standing, world)
  | .andThen first noted next, world =>
    match first.round enter world with
    | (story, .done (.ok value), world) =>
      match (next value).round enter world with
      | (story', standing, world) => (story ++ story', standing, world)
    | (story, .done (.error error), world) => (story, .done (.error error), world.note (noted error))
    | (story, .pending rest, world) => (story, .pending (.andThen rest noted next), world)
    | (story, .exhausted, world) => (story, .exhausted, world)
  | .both mode left right join, world =>
    match left.round enter world with
    | (story, .done (.error error), world) => (story, .done (.error error), world)
    | (story, .done (.ok a), world) =>
      match right.round enter world with
      | (story', .done (.error error), world) => (story ++ story', .done (.error error), world)
      | (story', .done (.ok b), world) => (story ++ story', .done (.ok (join a b)), world)
      | (story', .pending right, world) =>
        (story ++ story', .pending (.both mode (.plain (.ok a)) right join), world)
      | (story', .exhausted, world) => (story ++ story', .exhausted, world)
    | (story, .pending left, world) =>
      match right.round enter world with
      | (story', .done (.error error), world) =>
        match mode with
        | .eager => (story ++ story', .done (.error error), world)
        | .inOrder =>
          (story ++ story', .pending (.both mode left (.plain (.fail error)) join), world)
      | (story', .done (.ok b), world) =>
        (story ++ story', .pending (.both mode left (.plain (.ok b)) join), world)
      | (story', .pending right, world) =>
        (story ++ story', .pending (.both mode left right join), world)
      | (story', .exhausted, world) => (story ++ story', .exhausted, world)
    | (story, .exhausted, world) => (story, .exhausted, world)

theorem round_noted (enter : Entry) (logs : List LogEntry) (error : RuntimeError) (world : World) :
    (Task.emitAll (logs.map .log) (.fail error) : Task α).round enter world =
      (.done (.error error), world.note logs) := by
  induction logs generalizing world with
  | nil => rfl
  | cons entry rest ih => exact ih (world.record (.log entry))

/-- Without its milestones a round of a plan is one of its task. -/
theorem round_task (enter : Entry) (plan : Plan α) (world : World) :
    plan.task.round enter world =
      ((plan.round enter world).2.1.progress, (plan.round enter world).2.2) := by
  induction plan generalizing world with
  | plain part =>
    rw [task, round]
    cases hpart : part.round enter world with
    | mk progress world' => cases progress <;> rfl
  | pass milestone next ih =>
    rw [task, round]
    cases milestone.event? with
    | none => exact ih world
    | some event => exact ih (world.record event)
  | andThen first noted next ihf ihn =>
    rw [task, Task.round_andThen, ihf, round]
    cases hfirst : first.round enter world with
    | mk story rest =>
      obtain ⟨standing, middle⟩ := rest
      cases standing with
      | done outcome =>
        cases outcome with
        | ok value => exact ihn value middle
        | error error => exact round_noted enter (noted error) error middle
      | pending rest => simp only [Standing.progress, task]
      | exhausted => rfl
  | both mode left right join ihl ihr =>
    rw [task, Task.round, ihl, round]
    cases hleft : left.round enter world with
    | mk story rest =>
      obtain ⟨standing, middle⟩ := rest
      cases standing with
      | exhausted => rfl
      | done outcome =>
        cases outcome with
        | error error => rfl
        | ok a =>
          simp only [Standing.progress, ihr]
          cases hright : right.round enter middle with
          | mk story' rest' =>
            obtain ⟨standing', last⟩ := rest'
            cases standing' with
            | done outcome' => cases outcome' <;> rfl
            | pending rest => rfl
            | exhausted => rfl
      | pending rest =>
        simp only [Standing.progress, ihr]
        cases hright : right.round enter middle with
        | mk story' rest' =>
          obtain ⟨standing', last⟩ := rest'
          cases standing' with
          | done outcome' => cases outcome' <;> cases mode <;> rfl
          | pending rest => rfl
          | exhausted => rfl

/-- The rounds of a plan up to its outcome, with the milestones of each. -/
inductive Ends (enter : Entry) : Plan α → World → List (List Milestone) → Except RuntimeError α →
    World → Prop
  | now {plan : Plan α} {world world' : World} {story : List Milestone}
      {outcome : Except RuntimeError α}
      (done : plan.round enter world = (story, .done outcome, world')) :
      Ends enter plan world [story] outcome world'
  | later {plan rest : Plan α} {world middle world' : World} {story : List Milestone}
      {stories : List (List Milestone)} {outcome : Except RuntimeError α}
      (waits : plan.round enter world = (story, .pending rest, middle))
      (ends : Ends enter rest middle stories outcome world') :
      Ends enter plan world (story :: stories) outcome world'

/-- The task of a plan is pending in all rounds but the last one. -/
theorem Ends.task {towers : Towers} {depth : Nat} {plan : Plan α} {world world' : World}
    {stories : List (List Milestone)} {outcome : Except RuntimeError α}
    (h : Ends (towers.entry depth) plan world stories outcome world') :
    ∃ polls, stories.length = polls + 1 ∧ towers.Ends plan.task world polls outcome world' := by
  induction h with
  | @now plan world _ _ _ done =>
    have hround := round_task (towers.entry depth) plan world
    rw [done] at hround
    exact ⟨0, rfl, .now (.of_round (by simp) depth hround)⟩
  | @later plan _ world _ _ _ _ _ waits _ ih =>
    obtain ⟨polls, hpolls, hends⟩ := ih
    have hround := round_task (towers.entry depth) plan world
    rw [waits] at hround
    exact ⟨polls + 1, by simp [hpolls], .later (.of_round (by simp) depth hround) hends⟩

end Plan

end ChainExpr
