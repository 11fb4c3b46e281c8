import ChainExpr.Proofs.Step

namespace ChainExpr

variable {α β γ : Type} {mode : JoinMode} {towers : Towers}

/-- What a task has become by a round. An exhausted one has become something unsaid. -/
def Progress.Leaves : Progress α → Task α → Prop
  | .done outcome, rest => rest = .finish outcome
  | .pending task, rest => rest = task
  | .exhausted, _ => True

/-- What is left of a part that has not failed in a round. -/
inductive Progress.Stays : Progress α → Task α → Prop
  | ok (a : α) : Stays (.done (.ok a)) (.finish (.ok a))
  | pending (rest : Task α) : Stays (.pending rest) rest

theorem Progress.Stays.leaves {stands : Progress α} {rest rest' : Task α} (h : stands.Stays rest)
    (hleaves : stands.Leaves rest') : rest' = rest := by
  cases h with
  | ok a => exact hleaves
  | pending rest => exact hleaves

theorem Progress.Stays.ne_exhausted {stands : Progress α} {rest : Task α} (h : stands.Stays rest) :
    stands ≠ .exhausted := by
  cases h with
  | ok a => simp
  | pending rest => simp

/-- Whether a failure of the right one of two tasks side by side counts in a round that leaves the left
one so. -/
def JoinMode.HeedsIn (mode : JoinMode) (stands : Progress α) : Prop :=
  mode = .eager ∨ ∃ a, stands = .done (.ok a)

/-- What a round leaves of the left one keeps a failure of the right one back only if it is pending. -/
theorem Progress.Stays.heedsIn_or {stands : Progress α} {rest : Task α} (h : stands.Stays rest)
    (mode : JoinMode) : mode.HeedsIn stands ∨ mode = .inOrder ∧ stands = .pending rest := by
  cases h with
  | ok a => exact .inl (.inr ⟨a, rfl⟩)
  | pending rest =>
    cases mode with
    | eager => exact .inl (.inl rfl)
    | inOrder => exact .inr ⟨rfl, rfl⟩

/-- How a round of two parts side by side can go. -/
inductive Task.RoundBoth (enter : Entry) (mode : JoinMode) (left : Task β) (right : Task γ)
    (next : Except RuntimeError (β × γ) → Task α) (world : World) : Progress α → World → Prop
  | left_exhausted {world' : World} (lefts : left.round enter world = (.exhausted, world')) :
      RoundBoth enter mode left right next world .exhausted world'
  | left_failed {error : RuntimeError} {middle world' : World} {progress : Progress α}
      (lefts : left.round enter world = (.done (.error error), middle))
      (later : (next (.error error)).round enter middle = (progress, world')) :
      RoundBoth enter mode left right next world progress world'
  | right_exhausted {stands : Progress β} {rest : Task β} {middle world' : World}
      (lefts : left.round enter world = (stands, middle)) (stays : stands.Stays rest)
      (rights : right.round enter middle = (.exhausted, world')) :
      RoundBoth enter mode left right next world .exhausted world'
  | right_failed {stands : Progress β} {rest : Task β} {error : RuntimeError}
      {middle last world' : World} {progress : Progress α}
      (lefts : left.round enter world = (stands, middle)) (stays : stands.Stays rest)
      (rights : right.round enter middle = (.done (.error error), last))
      (heeded : mode.HeedsIn stands)
      (later : (next (.error error)).round enter last = (progress, world')) :
      RoundBoth enter mode left right next world progress world'
  | joined {a : β} {b : γ} {middle last world' : World} {progress : Progress α}
      (lefts : left.round enter world = (.done (.ok a), middle))
      (rights : right.round enter middle = (.done (.ok b), last))
      (later : (next (.ok (a, b))).round enter last = (progress, world')) :
      RoundBoth enter mode left right next world progress world'
  | pending {standsl : Progress β} {standsr : Progress γ} {restl : Task β} {restr : Task γ}
      {middle world' : World} (lefts : left.round enter world = (standsl, middle))
      (staysl : standsl.Stays restl) (rights : right.round enter middle = (standsr, world'))
      (staysr : standsr.Stays restr) (waits : standsl = .pending restl ∨ standsr = .pending restr) :
      RoundBoth enter mode left right next world (.pending (.both mode restl restr next)) world'
  /-- The failure of the right part does not count as long as the left one is pending. -/
  | held {rest : Task β} {error : RuntimeError} {middle world' : World} (unheeded : mode = .inOrder)
      (lefts : left.round enter world = (.pending rest, middle))
      (rights : right.round enter middle = (.done (.error error), world')) :
      RoundBoth enter mode left right next world (.pending (.both mode rest (.fail error) next)) world'

/-- A failure of the right part that counts for the round counts for the steps of the round. -/
theorem Progress.Stays.heeds {stands : Progress α} {rest : Task α} (h : stands.Stays rest)
    (heeded : mode.HeedsIn stands) : mode.Heeds rest := by
  refine heeded.imp_right fun ⟨a, hdone⟩ => ⟨a, ?_⟩
  subst hdone
  exact (h.leaves rfl).symm

theorem Task.RoundBoth.round {enter : Entry} {left : Task β} {right : Task γ}
    {next : Except RuntimeError (β × γ) → Task α} {world world' : World} {progress : Progress α}
    (h : RoundBoth enter mode left right next world progress world') :
    (Task.both mode left right next).round enter world = (progress, world') := by
  cases h with
  | left_exhausted lefts => simp only [Task.round, lefts]
  | left_failed lefts later =>
    simp only [Task.round, lefts]
    exact later
  | right_exhausted lefts stays rights =>
    cases stays <;> simp only [Task.round, lefts, rights]
  | right_failed lefts stays rights heeded later =>
    cases stays with
    | ok a =>
      simp only [Task.round, lefts, rights]
      exact later
    | pending rest =>
      obtain rfl : mode = .eager := heeded.resolve_right fun ⟨_, hdone⟩ => nomatch hdone
      simp only [Task.round, lefts, rights]
      exact later
  | held unheeded lefts rights =>
    subst unheeded
    simp only [Task.round, lefts, rights]
  | joined lefts rights later =>
    simp only [Task.round, lefts, rights]
    exact later
  | pending lefts staysl rights staysr waits =>
    cases staysl with
    | ok a =>
      cases staysr with
      | ok b => rcases waits with waits | waits <;> cases waits
      | pending restr =>
        simp only [Task.round, lefts, rights]
        rfl
    | pending restl =>
      cases staysr with
      | ok b =>
        simp only [Task.round, lefts, rights]
        rfl
      | pending restr => simp only [Task.round, lefts, rights]

theorem Task.round_both_cases {enter : Entry} {left : Task β} {right : Task γ}
    {next : Except RuntimeError (β × γ) → Task α} {world world' : World} {progress : Progress α}
    (h : (Task.both mode left right next).round enter world = (progress, world')) :
    RoundBoth enter mode left right next world progress world' := by
  rw [Task.round] at h
  cases hleft : left.round enter world with
  | mk standsl middle =>
    cases standsl with
    | exhausted =>
      simp only [hleft] at h
      cases h
      exact .left_exhausted hleft
    | done outcome =>
      cases outcome with
      | error error =>
        simp only [hleft] at h
        exact .left_failed hleft h
      | ok a =>
        cases hright : right.round enter middle with
        | mk standsr last =>
          simp only [hleft, hright] at h
          cases standsr with
          | exhausted =>
            cases h
            exact .right_exhausted hleft (.ok a) hright
          | pending right =>
            cases h
            exact .pending hleft (.ok a) hright (.pending right) (.inr rfl)
          | done outcome =>
            cases outcome with
            | error error => exact .right_failed hleft (.ok a) hright (.inr ⟨a, rfl⟩) h
            | ok b => exact .joined hleft hright h
    | pending left =>
      cases hright : right.round enter middle with
      | mk standsr last =>
        simp only [hleft, hright] at h
        cases standsr with
        | exhausted =>
          cases h
          exact .right_exhausted hleft (.pending left) hright
        | pending right =>
          cases h
          exact .pending hleft (.pending left) hright (.pending right) (.inl rfl)
        | done outcome =>
          cases outcome with
          | error error =>
            cases mode with
            | eager => exact .right_failed hleft (.pending left) hright (.inl rfl) h
            | inOrder =>
              cases h
              exact .held rfl hleft hright
          | ok b =>
            cases h
            exact .pending hleft (.pending left) hright (.ok b) (.inl rfl)

/-- What a routine before `next` has become by a round. -/
def RoutineProgress.Leaves (function : String) (next : Except RuntimeError Value → Task α) :
    RoutineProgress → Task α → Prop
  | .done outcome, rest => rest = next outcome
  | .pending body, rest => rest = .routine function body next
  | .inside callee resume, rest =>
    rest = callee.andThen fun outcome => .routine function (resume outcome) next
  | .exhausted, _ => True

/-- Entering a function value makes steps of its task. -/
def Entry.Steps (towers : Towers) (enter : Entry) : Prop :=
  ∀ callee context world progress world', enter callee context world = (progress, world') →
    ∃ rest, towers.Runs (towers.callTask callee context, world) (rest, world') ∧ progress.Leaves rest

theorem Routine.runs_of_round {enter : Entry} (henter : enter.Steps towers) {function : String}
    (next : Except RuntimeError Value → Task α) {body : Routine} {world world' : World}
    {progress : RoutineProgress} (h : body.round enter function world = (progress, world')) :
    ∃ rest, towers.Runs (.routine function body next, world) (rest, world') ∧
      progress.Leaves function next rest := by
  induction body generalizing world with
  | finish outcome =>
    cases h
    exact ⟨_, (Towers.Step.finish function outcome next _).runs, rfl⟩
  | wait polls body ih =>
    cases polls with
    | zero =>
      obtain ⟨rest, hrun, hleaves⟩ := ih h
      exact ⟨rest, (Towers.Step.resume function body next world).then hrun, hleaves⟩
    | succ polls =>
      cases h
      exact ⟨_, (Towers.Step.elapse function polls body next _).runs, rfl⟩
  | arrive point body ih =>
    obtain ⟨rest, hrun, hleaves⟩ := ih h
    exact ⟨rest, (Towers.Step.arrive function point body next world).then hrun, hleaves⟩
  | await point count body ih =>
    rw [Routine.round] at h
    split at h
    · rename_i harrived
      obtain ⟨rest, hrun, hleaves⟩ := ih h
      exact ⟨rest, (Towers.Step.meet function point count body next world harrived).then hrun,
        hleaves⟩
    · cases h
      exact ⟨_, .refl _, rfl⟩
  | tick body ih =>
    obtain ⟨rest, hrun, hleaves⟩ := ih world.ticks h
    exact ⟨rest, (Towers.Step.tick function body next world).then hrun, hleaves⟩
  | call callee context body ih =>
    rw [Routine.round] at h
    have hcall := @Towers.Step.call towers _ function callee context body next world
    cases hentered : enter callee context world with
    | mk entered middle =>
      obtain ⟨rest, hrun, hleaves⟩ := henter _ _ _ _ _ hentered
      have hinside := hcall.then
        (hrun.andThen fun outcome => .routine function (body outcome) next)
      cases entered with
      | done outcome =>
        simp only [hentered] at h
        cases hleaves
        obtain ⟨later, hlater, hleaves⟩ := ih outcome h
        exact ⟨later, hinside.trans hlater, hleaves⟩
      | pending task =>
        simp only [hentered] at h
        cases h
        cases hleaves
        exact ⟨_, hinside, rfl⟩
      | exhausted =>
        simp only [hentered] at h
        cases h
        exact ⟨_, hinside, trivial⟩

theorem Task.runs_of_round {enter : Entry} (henter : enter.Steps towers) {task : Task α}
    {world world' : World} {progress : Progress α}
    (h : task.round enter world = (progress, world')) :
    ∃ rest, towers.Runs (task, world) (rest, world') ∧ progress.Leaves rest := by
  induction task generalizing world world' with
  | finish outcome =>
    cases h
    exact ⟨_, .refl _, rfl⟩
  | emit entry next ih =>
    obtain ⟨rest, hrun, hleaves⟩ := ih h
    exact ⟨rest, (Towers.Step.emit entry next world).then hrun, hleaves⟩
  | create next ih =>
    obtain ⟨rest, hrun, hleaves⟩ := ih world.serial h
    exact ⟨rest, (Towers.Step.create next world).then hrun, hleaves⟩
  | routine function body next ih =>
    rw [Task.round] at h
    cases hround : body.round enter function world with
    | mk stands middle =>
      obtain ⟨rest, hrun, hleaves⟩ := Routine.runs_of_round henter next hround
      cases stands with
      | done outcome =>
        simp only [hround] at h
        cases hleaves
        obtain ⟨later, hlater, hleaves⟩ := ih outcome h
        exact ⟨later, hrun.trans hlater, hleaves⟩
      | pending body =>
        simp only [hround] at h
        cases h
        exact ⟨_, hrun, hleaves⟩
      | inside callee resume =>
        simp only [hround] at h
        cases h
        exact ⟨_, hrun, hleaves⟩
      | exhausted =>
        simp only [hround] at h
        cases h
        exact ⟨_, hrun, trivial⟩
  | both mode left right next ihl ihr ih =>
    cases Task.round_both_cases h with
    | left_exhausted lefts =>
      obtain ⟨restl, hrunl, _⟩ := ihl lefts
      exact ⟨_, hrunl.left right next, trivial⟩
    | @left_failed error middle _ _ lefts later =>
      obtain ⟨_, hrunl, rfl⟩ := ihl lefts
      obtain ⟨rest, hlater, hleaves⟩ := ih (.error error) later
      have hfailed := @Towers.Step.left_failed towers _ _ _ mode error right next middle
      exact ⟨rest, (hrunl.left right next).trans (hfailed.then hlater), hleaves⟩
    | right_exhausted lefts stays rights =>
      obtain ⟨restl, hrunl, _⟩ := ihl lefts
      obtain ⟨restr, hrunr, _⟩ := ihr rights
      exact ⟨_, hrunl.parts hrunr mode next, trivial⟩
    | @right_failed _ _ error _ last _ _ lefts stays rights heeded later =>
      obtain ⟨_, hrunl, hleavesl⟩ := ihl lefts
      obtain ⟨_, hrunr, rfl⟩ := ihr rights
      obtain ⟨rest, hlater, hleaves⟩ := ih (.error error) later
      cases stays.leaves hleavesl
      have hparts := hrunl.parts hrunr mode next
      have hheeds := stays.heeds heeded
      have hfailed := @Towers.Step.right_failed towers _ _ _ mode error _ hheeds next last
      exact ⟨rest, hparts.trans (hfailed.then hlater), hleaves⟩
    | @joined a b _ last _ _ lefts rights later =>
      obtain ⟨_, hrunl, rfl⟩ := ihl lefts
      obtain ⟨_, hrunr, rfl⟩ := ihr rights
      obtain ⟨rest, hlater, hleaves⟩ := ih (.ok (a, b)) later
      have hparts := hrunl.parts hrunr mode next
      have hjoined := @Towers.Step.joined towers _ _ _ mode a b next last
      exact ⟨rest, hparts.trans (hjoined.then hlater), hleaves⟩
    | pending lefts staysl rights staysr waits =>
      obtain ⟨restl, hrunl, hleavesl⟩ := ihl lefts
      obtain ⟨restr, hrunr, hleavesr⟩ := ihr rights
      cases staysl.leaves hleavesl
      cases staysr.leaves hleavesr
      exact ⟨_, hrunl.parts hrunr mode next, rfl⟩
    | held unheeded lefts rights =>
      obtain ⟨_, hrunl, rfl⟩ := ihl lefts
      obtain ⟨_, hrunr, rfl⟩ := ihr rights
      exact ⟨_, hrunl.parts hrunr mode next, rfl⟩

namespace Towers

/-- How function values are entered where calls may be nested so deep. -/
def entry (towers : Towers) (depth : Nat) : Entry := fun callee context world =>
  match depth with
  | 0 => (.exhausted, world)
  | depth + 1 => towers.poll depth (towers.callTask callee context) world

theorem poll_eq (depth : Nat) (task : Task α) (world : World) :
    towers.poll depth task world = task.round (towers.entry depth) world := by
  cases depth <;> rfl

theorem entry_succ (depth : Nat) (callee : Callable) (context : Value) (world : World) :
    towers.entry (depth + 1) callee context world =
      towers.poll depth (towers.callTask callee context) world := rfl

theorem entry_steps (depth : Nat) : (towers.entry depth).Steps towers := by
  induction depth with
  | zero =>
    intro callee context world progress world' h
    cases h
    exact ⟨_, .refl _, trivial⟩
  | succ depth ih =>
    intro callee context world progress world' h
    rw [entry_succ, poll_eq] at h
    exact Task.runs_of_round ih h

theorem runs_of_poll {depth : Nat} {task : Task α} {world world' : World} {progress : Progress α}
    (h : towers.poll depth task world = (progress, world')) :
    ∃ rest, towers.Runs (task, world) (rest, world') ∧ progress.Leaves rest := by
  rw [poll_eq] at h
  exact Task.runs_of_round (entry_steps depth) h

/-- Driving an evaluation takes it along one of its runs in steps. -/
theorem runs_of_drive {depth rounds : Nat} {task : Task α} {world world' : World}
    {ending : Ending α} (h : towers.drive depth rounds task world = (ending, world')) :
    ∃ rest, towers.Runs (task, world) (rest, world') ∧
      ∀ outcome, ending = .done outcome → rest = .finish outcome := by
  induction rounds generalizing task world with
  | zero =>
    cases h
    exact ⟨task, .refl _, by simp⟩
  | succ rounds ih =>
    rw [drive] at h
    cases hpoll : towers.poll depth task world with
    | mk progress middle =>
      obtain ⟨rest, hrun, hleaves⟩ := runs_of_poll hpoll
      cases progress with
      | done outcome =>
        simp only [hpoll] at h
        cases h
        refine ⟨rest, hrun, fun other hother => ?_⟩
        cases hother
        exact hleaves
      | pending task =>
        simp only [hpoll] at h
        cases hleaves
        obtain ⟨last, hlast, hdone⟩ := ih h
        exact ⟨last, hrun.trans hlast, hdone⟩
      | exhausted =>
        simp only [hpoll] at h
        cases h
        exact ⟨rest, hrun, by simp⟩

end Towers

end ChainExpr
