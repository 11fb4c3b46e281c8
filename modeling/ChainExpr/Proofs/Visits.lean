import ChainExpr.Proofs.Polling

namespace ChainExpr

/-- What becomes of the failure of a part. -/
inductive Footing
  /-- It counts at once. -/
  | clear
  /-- It is kept back, as a part before it is pending. -/
  | behind

namespace Towers

/-- In a round of a task that starts on one world, a part takes its turn on another: an argument, a link,
what a routine calls, or what is left of any of them. Parts to the left have had their turns before. -/
inductive Visits (towers : Towers) :
    Footing → {α β : Type} → Task α → World → Task β → World → Prop
  | here {α : Type} (task : Task α) (world : World) : Visits towers .clear task world task world
  | emit {α β : Type} {footing : Footing} {entry : Event} {next : Task α} {world last : World}
      {part : Task β} (later : Visits towers footing next (world.record entry) part last) :
      Visits towers footing (.emit entry next) world part last
  | create {α β : Type} {footing : Footing} {next : Nat → Task α} {world last : World}
      {part : Task β} (later : Visits towers footing (next world.serial) world.take part last) :
      Visits towers footing (.create next) world part last
  | finish {α β : Type} {footing : Footing} {function : String}
      {outcome : Except RuntimeError Value} {next : Except RuntimeError Value → Task α}
      {world last : World} {part : Task β}
      (later : Visits towers footing (next outcome) world part last) :
      Visits towers footing (.routine function (.finish outcome) next) world part last
  | resume {α β : Type} {footing : Footing} {function : String} {body : Routine}
      {next : Except RuntimeError Value → Task α} {world last : World} {part : Task β}
      (later : Visits towers footing (.routine function body next)
        (world.record (.resume function)) part last) :
      Visits towers footing (.routine function (.wait 0 body) next) world part last
  | arrive {α β : Type} {footing : Footing} {function point : String} {body : Routine}
      {next : Except RuntimeError Value → Task α} {world last : World} {part : Task β}
      (later : Visits towers footing (.routine function body next) (world.arrive point) part last) :
      Visits towers footing (.routine function (.arrive point body) next) world part last
  | meet {α β : Type} {footing : Footing} {function point : String} {count : Nat} {body : Routine}
      {next : Except RuntimeError Value → Task α} {world last : World} {part : Task β}
      (arrived : count ≤ world.arrivals point)
      (later : Visits towers footing (.routine function body next)
        (world.record (.resume function)) part last) :
      Visits towers footing (.routine function (.await point count body) next) world part last
  | tick {α β : Type} {footing : Footing} {function : String} {body : Nat → Routine}
      {next : Except RuntimeError Value → Task α} {world last : World} {part : Task β}
      (later : Visits towers footing (.routine function (body world.ticks) next) world.tick
        part last) :
      Visits towers footing (.routine function (.tick body) next) world part last
  | inside {α β : Type} {footing : Footing} {function : String} {callee : Callable}
      {context : Value} {body : Except RuntimeError Value → Routine} {world last : World}
      {part : Task β} (next : Except RuntimeError Value → Task α)
      (called : Visits towers footing (towers.callTask callee context) world part last) :
      Visits towers footing (.routine function (.call callee context body) next) world part last
  | returned {α β : Type} {footing : Footing} {function : String} {callee : Callable}
      {context : Value} {body : Except RuntimeError Value → Routine}
      {outcome : Except RuntimeError Value} {next : Except RuntimeError Value → Task α}
      {world middle last : World} {part : Task β}
      (called : towers.Polls (towers.callTask callee context) world (.done outcome) middle)
      (later : Visits towers footing (.routine function (body outcome) next) middle part last) :
      Visits towers footing (.routine function (.call callee context body) next) world part last
  | left {α β γ δ : Type} {mode : JoinMode} {footing : Footing} {left : Task γ} {world last : World}
      {part : Task β} (right : Task δ) (next : Except RuntimeError (γ × δ) → Task α)
      (lefts : Visits towers footing left world part last) :
      Visits towers footing (.both mode left right next) world part last
  | right {α β γ δ : Type} {mode : JoinMode} {footing : Footing} {left rest : Task γ}
      {right : Task δ} {stands : Progress γ} {world middle last : World} {part : Task β}
      (next : Except RuntimeError (γ × δ) → Task α) (lefts : towers.Polls left world stands middle)
      (stays : stands.Stays rest) (heeded : mode.HeedsIn stands)
      (rights : Visits towers footing right middle part last) :
      Visits towers footing (.both mode left right next) world part last
  | behind {α β γ δ : Type} {footing : Footing} {left rest : Task γ} {right : Task δ}
      {world middle last : World} {part : Task β} (next : Except RuntimeError (γ × δ) → Task α)
      (lefts : towers.Polls left world (.pending rest) middle)
      (rights : Visits towers footing right middle part last) :
      Visits towers .behind (.both .inOrder left right next) world part last
  | joined {α β γ δ : Type} {mode : JoinMode} {footing : Footing} {left : Task γ} {right : Task δ}
      {a : γ} {b : δ} {next : Except RuntimeError (γ × δ) → Task α} {world first second last : World}
      {part : Task β} (lefts : towers.Polls left world (.done (.ok a)) first)
      (rights : towers.Polls right first (.done (.ok b)) second)
      (later : Visits towers footing (next (.ok (a, b))) second part last) :
      Visits towers footing (.both mode left right next) world part last
  | left_failed {α β γ δ : Type} {mode : JoinMode} {footing : Footing} {left : Task γ}
      {error : RuntimeError} (right : Task δ) {next : Except RuntimeError (γ × δ) → Task α}
      {world middle last : World} {part : Task β}
      (lefts : towers.Polls left world (.done (.error error)) middle)
      (later : Visits towers footing (next (.error error)) middle part last) :
      Visits towers footing (.both mode left right next) world part last
  | right_failed {α β γ δ : Type} {mode : JoinMode} {footing : Footing} {left rest : Task γ}
      {right : Task δ} {stands : Progress γ} {error : RuntimeError}
      {next : Except RuntimeError (γ × δ) → Task α} {world first second last : World} {part : Task β}
      (lefts : towers.Polls left world stands first) (stays : stands.Stays rest)
      (rights : towers.Polls right first (.done (.error error)) second)
      (heeded : mode.HeedsIn stands)
      (later : Visits towers footing (next (.error error)) second part last) :
      Visits towers footing (.both mode left right next) world part last

/-- What is left of a task that has been pending for so many rounds. -/
inductive Pends (towers : Towers) {α : Type} : Task α → World → Nat → Task α → World → Prop
  | now (task : Task α) (world : World) : Pends towers task world 0 task world
  | later {task rest last : Task α} {world middle world' : World} {polls : Nat}
      (waits : towers.Polls task world (.pending rest) middle)
      (pends : Pends towers rest middle polls last world') :
      Pends towers task world (polls + 1) last world'

/-- In a round of a task the failure of a part is kept back, as a part before it is pending. -/
inductive KeepsBack (towers : Towers) {α : Type} (task : Task α) (world : World) : Prop
  | intro {β γ δ : Type} {footing : Footing} {left rest : Task γ} {right : Task δ}
      {next : Except RuntimeError (γ × δ) → Task β} {error : RuntimeError}
      {first second third : World}
      (visits : towers.Visits footing task world (.both .inOrder left right next) first)
      (lefts : towers.Polls left first (.pending rest) second)
      (rights : towers.Polls right second (.done (.error error)) third)

/-- In no round of an evaluation the failure of a part is kept back. -/
def HeedsFailures (towers : Towers) {α : Type} (task : Task α) (world : World) : Prop :=
  ∀ polls rest middle, towers.Pends task world polls rest middle → ¬ towers.KeepsBack rest middle

variable {α β γ : Type} {towers : Towers} {footing : Footing} {task : Task α} {world : World}

/-- The parts of a part are parts of the whole. -/
theorem Visits.trans {part : Task β} {middle : World}
    (h : towers.Visits footing task world part middle) {within : Footing} {inner : Task γ}
    {last : World} (h' : towers.Visits within part middle inner last) :
    ∃ footing, towers.Visits footing task world inner last := by
  induction h with
  | here => exact ⟨within, h'⟩
  | emit _ ih => exact (ih h').imp fun _ later => .emit later
  | create _ ih => exact (ih h').imp fun _ later => .create later
  | finish _ ih => exact (ih h').imp fun _ later => .finish later
  | resume _ ih => exact (ih h').imp fun _ later => .resume later
  | arrive _ ih => exact (ih h').imp fun _ later => .arrive later
  | meet arrived _ ih => exact (ih h').imp fun _ later => .meet arrived later
  | tick _ ih => exact (ih h').imp fun _ later => .tick later
  | inside next _ ih => exact (ih h').imp fun _ called => .inside next called
  | returned called _ ih => exact (ih h').imp fun _ later => .returned called later
  | left right next _ ih => exact (ih h').imp fun _ lefts => .left right next lefts
  | right next lefts stays heeded _ ih =>
    exact (ih h').imp fun _ rights => .right next lefts stays heeded rights
  | behind next lefts _ ih => exact (ih h').elim fun _ rights => ⟨_, .behind next lefts rights⟩
  | joined lefts rights _ ih => exact (ih h').imp fun _ later => .joined lefts rights later
  | left_failed right lefts _ ih => exact (ih h').imp fun _ later => .left_failed right lefts later
  | right_failed lefts stays rights heeded _ ih =>
    exact (ih h').imp fun _ later => .right_failed lefts stays rights heeded later

/-- The parts of the first tasks of a join are parts of the join. -/
theorem Visits.joinInOrder {before : Task (List α)} {part : Task β} {last : World}
    (tasks : List (Task α)) (h : towers.Visits footing before world part last) :
    towers.Visits footing (Task.joinInOrder before tasks) world part last := by
  induction tasks generalizing before with
  | nil => exact h
  | cons task rest ih => exact ih (Visits.left _ _ h)

/-- Every part that takes its turn keeps a policy that the task and what is called keep. -/
theorem Visits.obeys {policy : Policy}
    (hcalls : ∀ callee context, (towers.callTask callee context).Obeys policy) {part : Task β}
    {last : World} (h : towers.Visits footing task world part last) (htask : task.Obeys policy) :
    part.Obeys policy := by
  induction h with
  | here => exact htask
  | emit _ ih => exact ih htask.2
  | @create _ _ _ _ world _ _ _ ih => exact ih (htask world.serial)
  | finish _ ih => exact ih (htask.2 _)
  | resume _ ih => exact ih ⟨policy.routine_leads _ _ _ (.resume _) htask.1, htask.2⟩
  | arrive _ ih => exact ih ⟨policy.routine_leads _ _ _ (.arrive _ _) htask.1, htask.2⟩
  | meet _ _ ih => exact ih ⟨policy.routine_leads _ _ _ (.await _ _ _) htask.1, htask.2⟩
  | tick _ ih => exact ih ⟨policy.routine_leads _ _ _ (.tick _ _) htask.1, htask.2⟩
  | inside _ _ ih => exact ih (hcalls _ _)
  | returned _ _ ih => exact ih ⟨policy.routine_leads _ _ _ (.call _ _ _ _) htask.1, htask.2⟩
  | left _ _ _ ih => exact ih htask.1
  | right _ _ _ _ _ ih => exact ih htask.2.1
  | behind _ _ _ ih => exact ih htask.2.1
  | joined _ _ _ ih => exact ih (htask.2.2 _)
  | left_failed _ _ _ ih => exact ih (htask.2.2 _)
  | right_failed _ _ _ _ _ ih => exact ih (htask.2.2 _)

/-- The right one of two parts takes its turn when the left one has not failed. -/
theorem visits_right {mode : JoinMode} {left rest : Task β} {right : Task γ} {stands : Progress β}
    {middle : World} (next : Except RuntimeError (β × γ) → Task α)
    (lefts : towers.Polls left world stands middle) (stays : stands.Stays rest) :
    ∃ footing, towers.Visits footing (.both mode left right next) world right middle := by
  rcases stays.heedsIn_or mode with heeded | ⟨rfl, rfl⟩
  · exact ⟨_, .right next lefts stays heeded (.here right middle)⟩
  · exact ⟨_, .behind next lefts (.here right middle)⟩

/-- What comes behind a routine that is done in a round takes its turn in the same round. -/
theorem visits_of_routine_done {depth : Nat} {function : String} {body : Routine}
    {next : Except RuntimeError Value → Task α} {outcome : Except RuntimeError Value} {world' : World}
    (h : body.round (towers.entry depth) function world = (.done outcome, world')) :
    towers.Visits .clear (.routine function body next) world (next outcome) world' := by
  induction body generalizing world with
  | finish outcome =>
    cases h
    exact .finish (.here _ _)
  | wait polls body ih =>
    cases polls with
    | zero => exact .resume (ih h)
    | succ polls => cases h
  | arrive point body ih => exact .arrive (ih h)
  | await point count body ih =>
    rw [Routine.round] at h
    split at h
    · rename_i harrived
      exact .meet harrived (ih h)
    · cases h
  | tick body ih => exact .tick (ih world.ticks h)
  | call callee context body ih =>
    rw [Routine.round] at h
    cases hentered : towers.entry depth callee context world with
    | mk entered middle =>
      cases entered with
      | done outcome =>
        simp only [hentered] at h
        exact .returned (polls_of_entry hentered (by simp)) (ih outcome h)
      | pending task =>
        simp only [hentered] at h
        cases h
      | exhausted =>
        simp only [hentered] at h
        cases h

/-- What a part keeps back is kept back by the whole. -/
theorem Visits.keepsBack {part : Task β} {middle : World}
    (h : towers.Visits footing task world part middle) (hkept : towers.KeepsBack part middle) :
    towers.KeepsBack task world := by
  obtain ⟨visits, lefts, rights⟩ := hkept
  obtain ⟨_, hvisits⟩ := h.trans visits
  exact .intro hvisits lefts rights

theorem Pends.ends {rest : Task α} {middle world' : World} {polls : Nat}
    {outcome : Except RuntimeError α} (h : towers.Pends task world polls rest middle)
    (hdone : towers.Polls rest middle (.done outcome) world') :
    towers.Ends task world polls outcome world' := by
  induction h with
  | now task world => exact .now hdone
  | later waits _ ih => exact .later waits (ih hdone)

theorem Pends.runs {task rest : Task α} {world world' : World} {polls : Nat}
    (h : towers.Pends task world polls rest world') : towers.Runs (task, world) (rest, world') := by
  induction h with
  | now task world => exact .refl _
  | later waits _ ih =>
    obtain ⟨_, depth, hpoll⟩ := waits
    obtain ⟨_, hrun, rfl⟩ := runs_of_poll hpoll
    exact hrun.trans ih

theorem HeedsFailures.later {rest : Task α} {middle : World} (h : towers.HeedsFailures task world)
    (waits : towers.Polls task world (.pending rest) middle) : towers.HeedsFailures rest middle :=
  fun _ _ _ pends => h _ _ _ (.later waits pends)

end Towers

end ChainExpr
