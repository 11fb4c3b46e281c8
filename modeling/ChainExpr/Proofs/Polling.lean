import ChainExpr.Proofs.Rounds

namespace ChainExpr

variable {α β γ : Type} {mode : JoinMode} {towers : Towers}

theorem Task.round_andThen (enter : Entry) (task : Task α) (next : Except RuntimeError α → Task β)
    (world : World) :
    (task.andThen next).round enter world =
      match task.round enter world with
      | (.done outcome, world) => (next outcome).round enter world
      | (.pending rest, world) => (.pending (rest.andThen next), world)
      | (.exhausted, world) => (.exhausted, world) := by
  induction task generalizing world with
  | finish outcome => rfl
  | emit entry rest ih => exact ih next (world.record entry)
  | create rest ih => exact ih world.serial next world.take
  | routine function body rest ih =>
    simp only [andThen, round]
    split <;> simp only [ih, andThen, andThen_assoc]
  | both mode left right rest _ _ ih =>
    simp only [andThen, round]
    split
    · simp only [ih]
    · split <;> simp only [ih, andThen]
    · split
      · cases mode <;> simp only [ih, andThen]
      · simp only [andThen]
      · simp only [andThen]
      · rfl
    · rfl

/-- The second way of entering agrees with the first where that does not run out of depth. -/
def Entry.Extends (enter deeper : Entry) : Prop :=
  ∀ callee context world progress world', enter callee context world = (progress, world') →
    progress ≠ .exhausted → deeper callee context world = (progress, world')

theorem Routine.round_extends {enter deeper : Entry} (h : enter.Extends deeper) {function : String}
    {body : Routine} {world world' : World} {progress : RoutineProgress}
    (hround : body.round enter function world = (progress, world')) (hdone : progress ≠ .exhausted) :
    body.round deeper function world = (progress, world') := by
  induction body generalizing world with
  | finish outcome => exact hround
  | wait polls body ih =>
    cases polls with
    | zero => exact ih hround
    | succ polls => exact hround
  | arrive point body ih => exact ih hround
  | await point count body ih =>
    rw [round] at hround ⊢
    split at hround
    · rename_i harrived
      rw [if_pos harrived]
      exact ih hround
    · rename_i hmissing
      rw [if_neg hmissing]
      exact hround
  | tick body ih => exact ih world.ticks hround
  | call callee context body ih =>
    rw [round] at hround ⊢
    cases hentered : enter callee context world with
    | mk entered middle =>
      cases entered with
      | done outcome =>
        rw [h _ _ _ _ _ hentered (by simp)]
        simp only [hentered] at hround
        exact ih outcome hround
      | pending task =>
        rw [h _ _ _ _ _ hentered (by simp)]
        simp only [hentered] at hround
        exact hround
      | exhausted =>
        simp only [hentered] at hround
        cases hround
        exact absurd rfl hdone

theorem Task.round_extends {enter deeper : Entry} (h : enter.Extends deeper) {task : Task α}
    {world world' : World} {progress : Progress α}
    (hround : task.round enter world = (progress, world')) (hdone : progress ≠ .exhausted) :
    task.round deeper world = (progress, world') := by
  induction task generalizing world world' with
  | finish outcome => exact hround
  | emit entry next ih => exact ih hround hdone
  | create next ih => exact ih world.serial hround hdone
  | routine function body next ih =>
    rw [round] at hround ⊢
    cases hbody : body.round enter function world with
    | mk stands middle =>
      simp only [hbody] at hround
      cases stands with
      | exhausted =>
        cases hround
        exact absurd rfl hdone
      | done outcome =>
        rw [Routine.round_extends h hbody (by simp)]
        exact ih outcome hround hdone
      | pending rest =>
        rw [Routine.round_extends h hbody (by simp)]
        exact hround
      | inside callee resume =>
        rw [Routine.round_extends h hbody (by simp)]
        exact hround
  | both mode left right next ihl ihr ih =>
    apply Task.RoundBoth.round
    cases Task.round_both_cases hround with
    | left_exhausted lefts => exact absurd rfl hdone
    | left_failed lefts later => exact .left_failed (ihl lefts (by simp)) (ih _ later hdone)
    | right_exhausted lefts stays rights => exact absurd rfl hdone
    | right_failed lefts stays rights heeded later =>
      exact .right_failed (ihl lefts stays.ne_exhausted) stays (ihr rights (by simp)) heeded
        (ih _ later hdone)
    | joined lefts rights later =>
      exact .joined (ihl lefts (by simp)) (ihr rights (by simp)) (ih _ later hdone)
    | pending lefts staysl rights staysr waits =>
      exact .pending (ihl lefts staysl.ne_exhausted) staysl (ihr rights staysr.ne_exhausted) staysr
        waits
    | held unheeded lefts rights =>
      exact .held unheeded (ihl lefts (by simp)) (ihr rights (by simp))

namespace Towers

theorem entry_extends {depth deeper : Nat} (hle : depth ≤ deeper) :
    (towers.entry depth).Extends (towers.entry deeper) := by
  induction depth generalizing deeper with
  | zero =>
    intro callee context world progress world' h hdone
    cases h
    exact absurd rfl hdone
  | succ depth ih =>
    obtain ⟨more, rfl⟩ := Nat.exists_eq_add_of_le' hle
    intro callee context world progress world' h hdone
    rw [← Nat.add_assoc, entry_succ, poll_eq]
    rw [entry_succ, poll_eq] at h
    exact Task.round_extends (ih (Nat.le_add_left depth more)) h hdone

theorem poll_deeper {depth deeper : Nat} (hle : depth ≤ deeper) {task : Task α}
    {world world' : World} {progress : Progress α}
    (h : towers.poll depth task world = (progress, world')) (hdone : progress ≠ .exhausted) :
    towers.poll deeper task world = (progress, world') := by
  rw [poll_eq] at h ⊢
  exact Task.round_extends (entry_extends hle) h hdone

/-- A round of a task, with calls as deep as it takes. -/
def Polls (towers : Towers) (task : Task α) (world : World) (progress : Progress α)
    (world' : World) : Prop :=
  progress ≠ .exhausted ∧ ∃ depth, towers.poll depth task world = (progress, world')

/-- A round has one result, however deep calls may be. -/
theorem Polls.unique {task : Task α} {world world₁ world₂ : World} {first second : Progress α}
    (h : towers.Polls task world first world₁) (h' : towers.Polls task world second world₂) :
    first = second ∧ world₁ = world₂ := by
  obtain ⟨hfirst, depth, hpoll⟩ := h
  obtain ⟨hsecond, depth', hpoll'⟩ := h'
  have hdeep := poll_deeper (Nat.le_max_left depth depth') hpoll hfirst
  have hdeep' := poll_deeper (Nat.le_max_right depth depth') hpoll' hsecond
  exact Prod.mk.inj (hdeep.symm.trans hdeep')

theorem Polls.from_depth {task : Task α} {world world' : World} {progress : Progress α}
    (h : towers.Polls task world progress world') :
    ∃ depth, ∀ deeper, depth ≤ deeper → towers.poll deeper task world = (progress, world') := by
  obtain ⟨hdone, depth, hpoll⟩ := h
  exact ⟨depth, fun deeper hle => poll_deeper hle hpoll hdone⟩

theorem polls_of_entry {depth : Nat} {callee : Callable} {context : Value} {world world' : World}
    {progress : Progress Value}
    (h : towers.entry depth callee context world = (progress, world')) (hdone : progress ≠ .exhausted) :
    towers.Polls (towers.callTask callee context) world progress world' := by
  cases depth with
  | zero =>
    cases h
    exact absurd rfl hdone
  | succ depth => exact ⟨hdone, depth, h⟩

/-- A round as such, with calls as deep as it takes. -/
theorem Polls.rounds {task : Task α} {world world' : World} {progress : Progress α}
    (h : towers.Polls task world progress world') :
    ∃ depth, ∀ deeper, depth ≤ deeper →
      task.round (towers.entry deeper) world = (progress, world') := by
  obtain ⟨depth, hpoll⟩ := h.from_depth
  refine ⟨depth, fun deeper hle => ?_⟩
  rw [← poll_eq]
  exact hpoll deeper hle

theorem Polls.of_round {task : Task α} {world world' : World} {progress : Progress α}
    (hdone : progress ≠ .exhausted) (depth : Nat)
    (hround : task.round (towers.entry depth) world = (progress, world')) :
    towers.Polls task world progress world' := by
  rw [← poll_eq] at hround
  exact ⟨hdone, depth, hround⟩

theorem poll_andThen (depth : Nat) (task : Task α) (next : Except RuntimeError α → Task β)
    (world : World) :
    towers.poll depth (task.andThen next) world =
      match towers.poll depth task world with
      | (.done outcome, world) => towers.poll depth (next outcome) world
      | (.pending rest, world) => (.pending (rest.andThen next), world)
      | (.exhausted, world) => (.exhausted, world) := by
  simp only [poll_eq]
  exact Task.round_andThen _ task next world

theorem polls_finish (outcome : Except RuntimeError α) (world : World) :
    towers.Polls (.finish outcome) world (.done outcome) world :=
  ⟨by simp, 0, rfl⟩

/-- Tasks whose rounds are the same, whatever is entered, are polled alike. -/
theorem polls_congr {task task' : Task α} {world middle world' : World} {progress : Progress α}
    (h : ∀ enter : Entry, task.round enter world = task'.round enter middle) :
    towers.Polls task world progress world' ↔ towers.Polls task' middle progress world' :=
  and_congr_right fun _ => exists_congr fun depth => by rw [poll_eq, poll_eq, h]

theorem polls_routine_congr {function : String} {body body' : Routine}
    {next : Except RuntimeError Value → Task α} {world middle world' : World} {progress : Progress α}
    (h : ∀ enter, body.round enter function world = body'.round enter function middle) :
    towers.Polls (.routine function body next) world progress world' ↔
      towers.Polls (.routine function body' next) middle progress world' :=
  polls_congr fun enter => by simp only [Task.round, h]

theorem polls_emit {entry : Event} {next : Task α} {world world' : World} {progress : Progress α} :
    towers.Polls (.emit entry next) world progress world' ↔
      towers.Polls next (world.record entry) progress world' :=
  polls_congr fun _ => rfl

theorem polls_create {next : Nat → Task α} {world world' : World} {progress : Progress α} :
    towers.Polls (.create next) world progress world' ↔
      towers.Polls (next world.serial) world.take progress world' :=
  polls_congr fun _ => rfl

theorem polls_routine_finish {function : String} {outcome : Except RuntimeError Value}
    {next : Except RuntimeError Value → Task α} {world world' : World} {progress : Progress α} :
    towers.Polls (.routine function (.finish outcome) next) world progress world' ↔
      towers.Polls (next outcome) world progress world' :=
  polls_congr fun _ => rfl

theorem polls_resume {function : String} {body : Routine} {next : Except RuntimeError Value → Task α}
    {world world' : World} {progress : Progress α} :
    towers.Polls (.routine function (.wait 0 body) next) world progress world' ↔
      towers.Polls (.routine function body next) (world.record (.resume function)) progress world' :=
  polls_routine_congr fun _ => rfl

theorem polls_arrive {function point : String} {body : Routine}
    {next : Except RuntimeError Value → Task α} {world world' : World} {progress : Progress α} :
    towers.Polls (.routine function (.arrive point body) next) world progress world' ↔
      towers.Polls (.routine function body next) (world.arrive point) progress world' :=
  polls_routine_congr fun _ => rfl

theorem polls_meet {function point : String} {count : Nat} {body : Routine}
    {next : Except RuntimeError Value → Task α} {world world' : World} {progress : Progress α}
    (arrived : count ≤ world.arrivals point) :
    towers.Polls (.routine function (.await point count body) next) world progress world' ↔
      towers.Polls (.routine function body next) (world.record (.resume function)) progress world' :=
  polls_routine_congr fun _ => if_pos arrived

theorem polls_tick {function : String} {body : Nat → Routine}
    {next : Except RuntimeError Value → Task α} {world world' : World} {progress : Progress α} :
    towers.Polls (.routine function (.tick body) next) world progress world' ↔
      towers.Polls (.routine function (body world.ticks) next) world.tick progress world' :=
  polls_routine_congr fun _ => rfl

theorem polls_wait (function : String) (polls : Nat) (body : Routine)
    (next : Except RuntimeError Value → Task α) (world : World) :
    towers.Polls (.routine function (.wait (polls + 1) body) next) world
      (.pending (.routine function (.wait polls body) next)) world :=
  ⟨by simp, 0, rfl⟩

theorem Polls.serial_le {task : Task α} {world world' : World} {progress : Progress α}
    (h : towers.Polls task world progress world') : world.serial ≤ world'.serial := by
  obtain ⟨_, depth, hpoll⟩ := h
  obtain ⟨rest, hrun, _⟩ := runs_of_poll hpoll
  exact hrun.serial_le

theorem polls_andThen {task : Task α} {next : Except RuntimeError α → Task β} {world world' : World}
    {progress : Progress β} :
    towers.Polls (task.andThen next) world progress world' ↔
      (∃ outcome middle, towers.Polls task world (.done outcome) middle ∧
        towers.Polls (next outcome) middle progress world') ∨
      ∃ rest, towers.Polls task world (.pending rest) world' ∧
        progress = .pending (rest.andThen next) := by
  constructor
  · rintro ⟨hdone, depth, hpoll⟩
    rw [poll_andThen] at hpoll
    split at hpoll
    · rename_i outcome middle htask
      exact .inl ⟨outcome, middle, ⟨by simp, depth, htask⟩, hdone, depth, hpoll⟩
    · rename_i rest middle htask
      obtain ⟨rfl, rfl⟩ := Prod.mk.inj hpoll
      exact .inr ⟨rest, ⟨by simp, depth, htask⟩, rfl⟩
    · cases hpoll
      exact absurd rfl hdone
  · rintro (⟨outcome, middle, htask, hnext⟩ | ⟨rest, htask, rfl⟩)
    · obtain ⟨depth, hpoll⟩ := htask.from_depth
      obtain ⟨depth', hpoll'⟩ := hnext.from_depth
      refine ⟨hnext.1, max depth depth', ?_⟩
      rw [poll_andThen, hpoll _ (by omega)]
      exact hpoll' _ (by omega)
    · obtain ⟨depth, hpoll⟩ := htask.from_depth
      exact ⟨by simp, depth, by rw [poll_andThen, hpoll depth (Nat.le_refl _)]⟩

theorem polls_both_left_failed {left : Task β} {right : Task γ}
    {next : Except RuntimeError (β × γ) → Task α} {world middle world' : World} {error : RuntimeError}
    {progress : Progress α} (hleft : towers.Polls left world (.done (.error error)) middle)
    (hnext : towers.Polls (next (.error error)) middle progress world') :
    towers.Polls (.both mode left right next) world progress world' := by
  obtain ⟨depth, hround⟩ := hleft.rounds
  obtain ⟨depth', hround'⟩ := hnext.rounds
  apply Polls.of_round hnext.1 (max depth depth')
  exact (Task.RoundBoth.left_failed (hround _ (by omega)) (hround' _ (by omega))).round

theorem polls_both_left_done {left : Task β} {right : Task γ}
    {next : Except RuntimeError (β × γ) → Task α} {world middle world' : World} {a : β}
    {progress : Progress α} (hleft : towers.Polls left world (.done (.ok a)) middle)
    (hnext : towers.Polls (.both mode (.finish (.ok a)) right next) middle progress world') :
    towers.Polls (.both mode left right next) world progress world' := by
  obtain ⟨depth, hround⟩ := hleft.rounds
  obtain ⟨depth', hround'⟩ := hnext.rounds
  have hdeep := hround (max depth depth') (by omega)
  apply Polls.of_round hnext.1 (max depth depth')
  rw [← hround' (max depth depth') (by omega)]
  simp only [Task.round, hdeep]

theorem polls_both_right_failed {left rest : Task β} {right : Task γ}
    {next : Except RuntimeError (β × γ) → Task α} {world first second world' : World}
    {stands : Progress β} {error : RuntimeError} {progress : Progress α}
    (hleft : towers.Polls left world stands first) (hstays : stands.Stays rest)
    (hright : towers.Polls right first (.done (.error error)) second)
    (heeded : mode.HeedsIn stands)
    (hnext : towers.Polls (next (.error error)) second progress world') :
    towers.Polls (.both mode left right next) world progress world' := by
  obtain ⟨depth, hround⟩ := hleft.rounds
  obtain ⟨depth', hround'⟩ := hright.rounds
  obtain ⟨depth'', hround''⟩ := hnext.rounds
  apply Polls.of_round hnext.1 (max depth (max depth' depth''))
  exact (Task.RoundBoth.right_failed (hround _ (by omega)) hstays (hround' _ (by omega))
    heeded (hround'' _ (by omega))).round

theorem polls_both_joined {left : Task β} {right : Task γ}
    {next : Except RuntimeError (β × γ) → Task α} {world first second world' : World} {a : β} {b : γ}
    {progress : Progress α} (hleft : towers.Polls left world (.done (.ok a)) first)
    (hright : towers.Polls right first (.done (.ok b)) second)
    (hnext : towers.Polls (next (.ok (a, b))) second progress world') :
    towers.Polls (.both mode left right next) world progress world' := by
  obtain ⟨depth, hround⟩ := hleft.rounds
  obtain ⟨depth', hround'⟩ := hright.rounds
  obtain ⟨depth'', hround''⟩ := hnext.rounds
  apply Polls.of_round hnext.1 (max depth (max depth' depth''))
  exact (Task.RoundBoth.joined (hround _ (by omega)) (hround' _ (by omega))
    (hround'' _ (by omega))).round

/-- Two parts that have not failed, and one of which waits, both stay for the next round. -/
theorem polls_both_pending {left restl : Task β} {right restr : Task γ}
    (next : Except RuntimeError (β × γ) → Task α) {world first second : World}
    {standsl : Progress β} {standsr : Progress γ} (hleft : towers.Polls left world standsl first)
    (hstaysl : standsl.Stays restl) (hright : towers.Polls right first standsr second)
    (hstaysr : standsr.Stays restr) (hwaits : standsl = .pending restl ∨ standsr = .pending restr) :
    towers.Polls (.both mode left right next) world (.pending (.both mode restl restr next)) second := by
  obtain ⟨depth, hround⟩ := hleft.rounds
  obtain ⟨depth', hround'⟩ := hright.rounds
  apply Polls.of_round (by simp) (max depth depth')
  exact (Task.RoundBoth.pending (hround _ (by omega)) hstaysl (hround' _ (by omega)) hstaysr
    hwaits).round

/-- A failure that does not count yet is kept for the next round. -/
theorem polls_both_held {left restl : Task β} {right : Task γ}
    (next : Except RuntimeError (β × γ) → Task α) {world first second : World} {error : RuntimeError}
    (hleft : towers.Polls left world (.pending restl) first)
    (hright : towers.Polls right first (.done (.error error)) second) :
    towers.Polls (.both .inOrder left right next) world
      (.pending (.both .inOrder restl (.fail error) next)) second := by
  obtain ⟨depth, hround⟩ := hleft.rounds
  obtain ⟨depth', hround'⟩ := hright.rounds
  apply Polls.of_round (by simp) (max depth depth')
  exact (Task.RoundBoth.held rfl (hround _ (by omega)) (hround' _ (by omega))).round

/-- A call of a function value is polled as the task that it stands for. -/
theorem polls_call {function : String} {callee : Callable} {context : Value}
    {body : Except RuntimeError Value → Routine} {next : Except RuntimeError Value → Task α}
    {world world' : World} {progress : Progress α} :
    towers.Polls (.routine function (.call callee context body) next) world progress world' ↔
      towers.Polls ((towers.callTask callee context).andThen fun outcome =>
        .routine function (body outcome) next) world progress world' := by
  have hended {depth : Nat} {outcome : Except RuntimeError Value} {middle : World}
      (hcall : towers.poll depth (towers.callTask callee context) world = (.done outcome, middle)) :
      towers.poll (depth + 1) (.routine function (.call callee context body) next) world =
        towers.poll (depth + 1) (.routine function (body outcome) next) middle := by
    simp only [poll_eq (depth + 1), Task.round, Routine.round, entry_succ, hcall]
  have hpending {depth : Nat} {rest : Task Value} {middle : World}
      (hcall : towers.poll depth (towers.callTask callee context) world = (.pending rest, middle)) :
      towers.poll (depth + 1) (.routine function (.call callee context body) next) world =
        (.pending (rest.andThen fun outcome => .routine function (body outcome) next), middle) := by
    simp only [poll_eq (depth + 1), Task.round, Routine.round, entry_succ, hcall]
  rw [polls_andThen]
  constructor
  · rintro ⟨hdone, depth, hround⟩
    cases depth with
    | zero =>
      cases hround
      exact absurd rfl hdone
    | succ depth =>
      cases hcall : towers.poll depth (towers.callTask callee context) world with
      | mk stands middle =>
        cases stands with
        | done outcome =>
          rw [hended hcall] at hround
          exact .inl ⟨outcome, middle, ⟨by simp, depth, hcall⟩, hdone, depth + 1, hround⟩
        | pending rest =>
          rw [hpending hcall] at hround
          obtain ⟨rfl, rfl⟩ := Prod.mk.inj hround
          exact .inr ⟨rest, ⟨by simp, depth, hcall⟩, rfl⟩
        | exhausted =>
          simp only [poll_eq (depth + 1), Task.round, Routine.round, entry_succ, hcall] at hround
          cases hround
          exact absurd rfl hdone
  · rintro (⟨outcome, middle, hcall, hnext⟩ | ⟨rest, hcall, rfl⟩)
    · obtain ⟨depth, hcall⟩ := hcall.from_depth
      obtain ⟨depth', hround⟩ := hnext.from_depth
      refine ⟨hnext.1, max depth depth' + 1, ?_⟩
      rw [hended (hcall _ (by omega))]
      exact hround _ (by omega)
    · obtain ⟨depth, hcall⟩ := hcall.from_depth
      exact ⟨by simp, depth + 1, hpending (hcall depth (Nat.le_refl _))⟩

/-- The task is pending for so many rounds and done in the next one. -/
inductive Ends (towers : Towers) :
    Task α → World → Nat → Except RuntimeError α → World → Prop
  | now {task : Task α} {world world' : World} {outcome : Except RuntimeError α}
      (done : towers.Polls task world (.done outcome) world') : Ends towers task world 0 outcome world'
  | later {task rest : Task α} {world middle world' : World} {polls : Nat}
      {outcome : Except RuntimeError α} (waits : towers.Polls task world (.pending rest) middle)
      (ends : Ends towers rest middle polls outcome world') :
      Ends towers task world (polls + 1) outcome world'

/-- An evaluation that ends does so in one way. -/
theorem Ends.unique {task : Task α} {world world₁ world₂ : World} {polls₁ polls₂ : Nat}
    {outcome₁ outcome₂ : Except RuntimeError α} (h : towers.Ends task world polls₁ outcome₁ world₁)
    (h' : towers.Ends task world polls₂ outcome₂ world₂) :
    polls₁ = polls₂ ∧ outcome₁ = outcome₂ ∧ world₁ = world₂ := by
  induction h generalizing polls₂ with
  | now done =>
    cases h' with
    | now done' =>
      obtain ⟨hsame, rfl⟩ := done.unique done'
      cases hsame
      exact ⟨rfl, rfl, rfl⟩
    | later waits _ => cases (done.unique waits).1
  | later waits _ ih =>
    cases h' with
    | now done => cases (waits.unique done).1
    | later waits' ends' =>
      obtain ⟨hsame, rfl⟩ := waits.unique waits'
      cases hsame
      obtain ⟨rfl, rfl, rfl⟩ := ih ends'
      exact ⟨rfl, rfl, rfl⟩

theorem Ends.runs {task : Task α} {world world' : World} {polls : Nat}
    {outcome : Except RuntimeError α} (h : towers.Ends task world polls outcome world') :
    towers.Runs (task, world) (.finish outcome, world') := by
  induction h with
  | now done =>
    obtain ⟨_, depth, hpoll⟩ := done
    obtain ⟨rest, hrun, rfl⟩ := runs_of_poll hpoll
    exact hrun
  | later waits _ ih =>
    obtain ⟨_, depth, hpoll⟩ := waits
    obtain ⟨rest, hrun, rfl⟩ := runs_of_poll hpoll
    exact hrun.trans ih

theorem drive_of_ends {task : Task α} {world world' : World} {polls : Nat}
    {outcome : Except RuntimeError α} (h : towers.Ends task world polls outcome world') :
    ∃ depth, ∀ deeper, depth ≤ deeper → ∀ rounds, polls < rounds →
      towers.drive deeper rounds task world = (.done outcome, world') := by
  induction h with
  | now done =>
    obtain ⟨depth, hpoll⟩ := done.from_depth
    refine ⟨depth, fun deeper hdeeper rounds hrounds => ?_⟩
    obtain ⟨rounds, rfl⟩ := Nat.exists_eq_succ_of_ne_zero (Nat.ne_of_gt hrounds)
    simp only [drive, hpoll deeper hdeeper]
  | later waits _ ih =>
    obtain ⟨depth, hpoll⟩ := waits.from_depth
    obtain ⟨depth', hdrive⟩ := ih
    refine ⟨max depth depth', fun deeper hdeeper rounds hrounds => ?_⟩
    obtain ⟨rounds, rfl⟩ := Nat.exists_eq_succ_of_ne_zero (show rounds ≠ 0 by omega)
    simp only [drive, hpoll deeper (by omega)]
    exact hdrive deeper (by omega) rounds (by omega)

theorem ends_of_drive {depth rounds : Nat} {task : Task α} {world world' : World}
    {outcome : Except RuntimeError α}
    (h : towers.drive depth rounds task world = (.done outcome, world')) :
    ∃ polls, polls < rounds ∧ towers.Ends task world polls outcome world' := by
  induction rounds generalizing task world with
  | zero => cases h
  | succ rounds ih =>
    rw [drive] at h
    split at h
    · rename_i hpoll
      cases h
      exact ⟨0, Nat.zero_lt_succ _, .now ⟨by simp, depth, hpoll⟩⟩
    · rename_i hpoll
      obtain ⟨polls, hlt, hends⟩ := ih h
      exact ⟨polls + 1, Nat.succ_lt_succ hlt, .later ⟨by simp, depth, hpoll⟩ hends⟩
    · cases h

/-- The second of two tasks starts in the very round in which the first is done. -/
theorem ends_andThen {task : Task α} {next : Except RuntimeError α → Task β} {world world' : World}
    {polls : Nat} {outcome : Except RuntimeError β} :
    towers.Ends (task.andThen next) world polls outcome world' ↔
      ∃ first middle before after, polls = before + after ∧
        towers.Ends task world before first middle ∧
        towers.Ends (next first) middle after outcome world' := by
  constructor
  · intro h
    generalize htask : task.andThen next = whole at h
    induction h generalizing task with
    | now done =>
      subst htask
      rcases polls_andThen.mp done with ⟨first, middle, hfirst, hsecond⟩ | ⟨rest, _, hrest⟩
      · exact ⟨first, middle, 0, 0, rfl, .now hfirst, .now hsecond⟩
      · cases hrest
    | @later _ _ _ _ _ polls _ waits ends ih =>
      subst htask
      rcases polls_andThen.mp waits with ⟨first, middle, hfirst, hsecond⟩ | ⟨rest, hwaits, hrest⟩
      · exact ⟨first, middle, 0, polls + 1, by omega, .now hfirst, .later hsecond ends⟩
      · cases hrest
        obtain ⟨first, middle, before, after, rfl, hfirst, hsecond⟩ := ih rfl
        exact ⟨first, middle, before + 1, after, by omega, .later hwaits hfirst, hsecond⟩
  · rintro ⟨first, middle, before, after, rfl, hfirst, hsecond⟩
    induction hfirst with
    | now done =>
      rw [Nat.zero_add]
      cases hsecond with
      | now done' => exact .now (polls_andThen.mpr (.inl ⟨_, _, done, done'⟩))
      | later waits ends => exact .later (polls_andThen.mpr (.inl ⟨_, _, done, waits⟩)) ends
    | later waits _ ih =>
      rw [Nat.succ_add]
      exact .later (polls_andThen.mpr (.inr ⟨_, waits, rfl⟩)) (ih hsecond)

theorem ends_bind {task : Task α} {next : α → Task β} {world world' : World} {polls : Nat}
    {outcome : Except RuntimeError β} :
    towers.Ends (task.bind next) world polls outcome world' ↔
      (∃ error, outcome = .error error ∧ towers.Ends task world polls (.error error) world') ∨
      ∃ value middle before after, polls = before + after ∧
        towers.Ends task world before (.ok value) middle ∧
        towers.Ends (next value) middle after outcome world' := by
  rw [Task.bind, ends_andThen]
  constructor
  · rintro ⟨first, middle, before, after, rfl, hfirst, hsecond⟩
    cases first with
    | ok value => exact .inr ⟨value, middle, before, after, rfl, hfirst, hsecond⟩
    | error error =>
      obtain ⟨rfl, rfl, rfl⟩ := hsecond.unique (.now (polls_finish (.error error) middle))
      exact .inl ⟨error, rfl, hfirst⟩
  · rintro (⟨error, rfl, hfirst⟩ | ⟨value, middle, before, after, rfl, hfirst, hsecond⟩)
    · exact ⟨.error error, world', polls, 0, rfl, hfirst, .now (polls_finish _ _)⟩
    · exact ⟨.ok value, middle, before, after, rfl, hfirst, hsecond⟩

end Towers

end ChainExpr
