import ChainExpr.Proofs.Visits

namespace ChainExpr

variable {α β γ : Type} {mode : JoinMode} {towers : Towers}

namespace World

/-- The world with some more log entries. -/
def note (world : World) (entries : List LogEntry) : World :=
  entries.foldl (fun world entry => world.record (.log entry)) world

theorem note_append (world : World) (entries later : List LogEntry) :
    world.note (entries ++ later) = (world.note entries).note later := List.foldl_append

theorem history_note (world : World) (entries : List LogEntry) :
    (world.note entries).history = world.history ++ entries.map .log := by
  induction entries generalizing world with
  | nil => exact (List.append_nil _).symm
  | cons entry rest ih =>
    have hrest : (world.note (entry :: rest)).history =
        (world.record (.log entry)).history ++ rest.map .log := ih (world.record (.log entry))
    rw [hrest, history_record, List.append_assoc, List.singleton_append, List.map_cons]

theorem forget_note (world : World) (entries : List LogEntry) :
    (world.note entries).forget = world.forget := by
  induction entries generalizing world with
  | nil => rfl
  | cons entry rest ih => exact ih (world.record (.log entry))

end World

/-- The routine fails by itself with certain errors only. It calls function values only if `calls` says
so, and ends with every error of a call. -/
def Routine.PassesOn (own : RuntimeError → Prop) (calls : Prop) : Routine → Prop
  | .finish (.ok _) => True
  | .finish (.error error) => own error
  | .wait _ next => next.PassesOn own calls
  | .arrive _ next => next.PassesOn own calls
  | .await _ _ next => next.PassesOn own calls
  | .tick next => ∀ before, (next before).PassesOn own calls
  | .call _ _ next =>
    calls ∧ (∀ error, next (.error error) = .finish (.error error)) ∧
      ∀ value, (next (.ok value)).PassesOn own calls

/-- Nothing is left for the task to do but to note the error that it ends with. -/
inductive Task.Fails (error : RuntimeError) : {α : Type} → List LogEntry → Task α → Prop
  | finish {α : Type} : Fails error [] (.finish (.error error) : Task α)
  | log {α : Type} {entries : List LogEntry} {next : Task α} (entry : LogEntry)
      (later : Fails error entries next) : Fails error (entry :: entries) (.emit (.log entry) next)
  | routine {α : Type} {entries : List LogEntry} {next : Except RuntimeError Value → Task α}
      (function : String) (later : Fails error entries (next (.error error))) :
      Fails error entries (.routine function (.finish (.error error)) next)

theorem Task.Fails.andThen {error : RuntimeError} {entries later : List LogEntry} {task : Task α}
    {next : Except RuntimeError α → Task β} (h : task.Fails error entries)
    (hnext : (next (.error error)).Fails error later) :
    (task.andThen next).Fails error (entries ++ later) := by
  induction h with
  | finish => exact hnext
  | log entry _ ih => exact .log entry ih
  | routine function _ ih => exact .routine function ih

theorem Task.Fails.round {error : RuntimeError} {entries : List LogEntry} {task : Task α}
    (h : task.Fails error entries) (enter : Entry) (world : World) :
    task.round enter world = (.done (.error error), world.note entries) := by
  induction h generalizing world with
  | finish => rfl
  | log entry _ ih => exact ih (world.record (.log entry))
  | routine function _ ih => exact ih world

/-- The task cannot succeed any more: a part of it has failed. -/
inductive Task.Doomed : {α : Type} → Task α → Prop
  | failing {α : Type} {error : RuntimeError} {entries : List LogEntry} {task : Task α}
      (fails : task.Fails error entries) : Doomed task
  | left {α β γ : Type} {mode : JoinMode} {left : Task β} {right : Task γ}
      {next : Except RuntimeError (β × γ) → Task α} (lefts : Doomed left)
      (fails : ∀ error, ∃ entries, (next (.error error)).Fails error entries) :
      Doomed (.both mode left right next)
  | right {α β γ : Type} {mode : JoinMode} {left : Task β} {right : Task γ}
      {next : Except RuntimeError (β × γ) → Task α} (rights : Doomed right)
      (fails : ∀ error, ∃ entries, (next (.error error)).Fails error entries) :
      Doomed (.both mode left right next)

theorem Task.Doomed.andThen {task : Task α} {next : Except RuntimeError α → Task β} (h : task.Doomed)
    (hnext : ∀ error, ∃ later, (next (.error error)).Fails error later) : (task.andThen next).Doomed := by
  have hboth {γ δ : Type} {rest : Except RuntimeError (γ × δ) → Task α}
      (fails : ∀ error, ∃ entries, (rest (.error error)).Fails error entries) (error : RuntimeError) :
      ∃ entries, ((rest (.error error)).andThen next).Fails error entries := by
    obtain ⟨entries, hentries⟩ := fails error
    obtain ⟨later, hlater⟩ := hnext error
    exact ⟨entries ++ later, hentries.andThen hlater⟩
  cases h with
  | @failing _ error _ _ fails =>
    obtain ⟨later, hlater⟩ := hnext error
    exact .failing (fails.andThen hlater)
  | left lefts fails => exact .left lefts (hboth fails)
  | right rights fails => exact .right rights (hboth fails)

/-- Where a task that cannot succeed stands after a round. -/
inductive Progress.Doomed : Progress α → Prop
  | failed (error : RuntimeError) : Doomed (.done (.error error))
  | pending {rest : Task α} (rests : rest.Doomed) : Doomed (.pending rest)
  | exhausted : Doomed .exhausted

theorem Progress.Doomed.stays {stands : Progress α} {rest : Task α} (h : stands.Doomed)
    (hstays : stands.Stays rest) : rest.Doomed := by
  cases hstays with
  | ok value => cases h
  | pending rest =>
    cases h with
    | pending rests => exact rests

theorem Task.Fails.doomed {error : RuntimeError} {entries : List LogEntry} {task : Task α}
    (h : task.Fails error entries) {enter : Entry} {world world' : World} {progress : Progress α}
    (hround : task.round enter world = (progress, world')) : progress.Doomed := by
  rw [h.round] at hround
  cases hround
  exact .failed error

/-- A task that cannot succeed does not succeed in a round, and cannot succeed after it. -/
theorem Task.Doomed.round {task : Task α} (h : task.Doomed) {enter : Entry} {world world' : World}
    {progress : Progress α} (hround : task.round enter world = (progress, world')) :
    progress.Doomed := by
  induction h generalizing world world' with
  | failing fails => exact fails.doomed hround
  | left lefts fails ih =>
    cases Task.round_both_cases hround with
    | left_exhausted _ => exact .exhausted
    | right_exhausted _ _ _ => exact .exhausted
    | @left_failed error _ _ _ _ later => exact (fails error).choose_spec.doomed later
    | @right_failed _ _ error _ _ _ _ _ _ _ _ later => exact (fails error).choose_spec.doomed later
    | joined hlefts _ _ => cases ih hlefts
    | pending hlefts staysl _ _ _ => exact .pending (.left ((ih hlefts).stays staysl) fails)
    | @held rest _ _ _ _ hlefts _ =>
      exact .pending (.left ((ih hlefts).stays (.pending rest)) fails)
  | right rights fails ih =>
    cases Task.round_both_cases hround with
    | left_exhausted _ => exact .exhausted
    | right_exhausted _ _ _ => exact .exhausted
    | @left_failed error _ _ _ _ later => exact (fails error).choose_spec.doomed later
    | @right_failed _ _ error _ _ _ _ _ _ _ _ later => exact (fails error).choose_spec.doomed later
    | joined _ hrights _ => cases ih hrights
    | pending _ _ hrights staysr _ => exact .pending (.right ((ih hrights).stays staysr) fails)
    | held _ _ _ => exact .pending (.right (.failing .finish) fails)

/-- What may go before an error, by what entries it may have been told when it has been raised, and by
what entries more when it is passed on. -/
structure Account where
  silent : Event → Prop
  raised : RuntimeError → List LogEntry → Prop
  added : RuntimeError → List LogEntry → Prop
  silent_resume : ∀ function, silent (.resume function)
  raised_added : ∀ error entries later, raised error entries → added error later →
    raised error (entries ++ later)
  added_append : ∀ error entries later, added error entries → added error later →
    added error (entries ++ later)

/-- The task is silent until one of its parts fails, and from then on only notes the error, which all the
entries together tell. -/
inductive Task.Accounts (account : Account) : {α : Type} → Task α → Prop
  | failing {α : Type} {error : RuntimeError} {entries : List LogEntry} {task : Task α}
      (fails : task.Fails error entries) (told : account.raised error entries) :
      Accounts account task
  | ok {α : Type} (value : α) : Accounts account (.finish (.ok value))
  | emit {α : Type} {entry : Event} {next : Task α} (silent : account.silent entry)
      (later : Accounts account next) : Accounts account (.emit entry next)
  | create {α : Type} {next : Nat → Task α} (later : ∀ serial, Accounts account (next serial)) :
      Accounts account (.create next)
  | routine {α : Type} {own : RuntimeError → Prop} {calls : Prop} (function : String)
      {body : Routine} {next : Except RuntimeError Value → Task α}
      (passes : body.PassesOn own calls)
      (fails : ∀ error, ∃ entries, (next (.error error)).Fails error entries ∧
        (calls → account.added error entries) ∧ (own error → account.raised error entries))
      (later : ∀ value, Accounts account (next (.ok value))) :
      Accounts account (.routine function body next)
  | both {α β γ : Type} {mode : JoinMode} {left : Task β} {right : Task γ}
      {next : Except RuntimeError (β × γ) → Task α} (lefts : Accounts account left)
      (rights : Accounts account right)
      (fails : ∀ error, ∃ entries, (next (.error error)).Fails error entries ∧
        account.added error entries)
      (later : ∀ values, Accounts account (next (.ok values))) :
      Accounts account (.both mode left right next)

namespace Task.Accounts

variable {account : Account} {task : Task α}

theorem andThen {next : Except RuntimeError α → Task β} (h : task.Accounts account)
    (hfails : ∀ error, ∃ later, (next (.error error)).Fails error later ∧ account.added error later)
    (hnext : ∀ value, (next (.ok value)).Accounts account) :
    (task.andThen next).Accounts account := by
  induction h with
  | @failing _ error entries _ fails told =>
    obtain ⟨later, hlater, hadds⟩ := hfails error
    exact .failing (fails.andThen hlater) (account.raised_added error entries later told hadds)
  | ok value => exact hnext value
  | emit silent _ ih => exact .emit silent (ih hfails hnext)
  | create _ ih => exact .create fun serial => ih serial hfails hnext
  | routine function passes fails _ ih =>
    refine .routine function passes (fun error => ?_) fun value => ih value hfails hnext
    obtain ⟨entries, hentries, hadded, hown⟩ := fails error
    obtain ⟨later, hlater, hadds⟩ := hfails error
    exact ⟨entries ++ later, hentries.andThen hlater,
      fun hcalls => account.added_append error entries later (hadded hcalls) hadds,
      fun howns => account.raised_added error entries later (hown howns) hadds⟩
  | both lefts rights fails _ _ _ ih =>
    refine .both lefts rights (fun error => ?_) fun values => ih values hfails hnext
    obtain ⟨entries, hentries, hadded⟩ := fails error
    obtain ⟨later, hlater, hadds⟩ := hfails error
    exact ⟨entries ++ later, hentries.andThen hlater,
      account.added_append error entries later hadded hadds⟩

theorem bind {next : α → Task β} (h : task.Accounts account)
    (hnone : ∀ error, account.added error []) (hnext : ∀ value, (next value).Accounts account) :
    (task.bind next).Accounts account :=
  h.andThen (fun error => ⟨[], .finish, hnone error⟩) hnext

theorem onError {entry : RuntimeError → LogEntry} (h : task.Accounts account)
    (hentry : ∀ error, account.added error [entry error]) :
    (task.onError entry).Accounts account :=
  h.andThen (fun error => ⟨[entry error], .log _ .finish, hentry error⟩) fun value => .ok value

end Task.Accounts

namespace World

variable {account : Account} {error : RuntimeError} {world middle world' : World}

/-- Only silent events lie between two worlds. -/
def Silent (account : Account) (world world' : World) : Prop :=
  ∃ events, (∀ event ∈ events, account.silent event) ∧ world'.history = world.history ++ events

/-- Between two worlds an error has been raised and told, after silent events only. -/
def Told (account : Account) (error : RuntimeError) (world world' : World) : Prop :=
  ∃ events entries, (∀ event ∈ events, account.silent event) ∧ account.raised error entries ∧
    world'.history = world.history ++ events ++ entries.map .log

theorem silent_of_history (h : world'.history = world.history) : Silent account world world' :=
  ⟨[], by simp, by rw [h, List.append_nil]⟩

theorem Silent.refl (world : World) : Silent account world world := silent_of_history rfl

theorem Silent.trans (h : Silent account world middle) (h' : Silent account middle world') :
    Silent account world world' := by
  obtain ⟨events, hevents, hmiddle⟩ := h
  obtain ⟨later, hlater, hworld'⟩ := h'
  refine ⟨events ++ later, ?_, by rw [hworld', hmiddle, List.append_assoc]⟩
  intro event hevent
  rcases List.mem_append.mp hevent with hfirst | hsecond
  · exact hevents event hfirst
  · exact hlater event hsecond

theorem silent_record {event : Event} (h : account.silent event) (world : World) :
    Silent account world (world.record event) :=
  ⟨[event], by simpa using h, history_record world event⟩

theorem told_note {entries : List LogEntry} (h : account.raised error entries) (world : World) :
    Told account error world (world.note entries) :=
  ⟨[], entries, by simp, h, by rw [history_note, List.append_nil]⟩

theorem Silent.told (h : Silent account world middle) (h' : Told account error middle world') :
    Told account error world world' := by
  obtain ⟨events, hevents, hmiddle⟩ := h
  obtain ⟨later, entries, hlater, hraised, hworld'⟩ := h'
  refine ⟨events ++ later, entries, ?_, hraised, ?_⟩
  · intro event hevent
    rcases List.mem_append.mp hevent with hfirst | hsecond
    · exact hevents event hfirst
    · exact hlater event hsecond
  · simp only [hworld', hmiddle, List.append_assoc]

/-- More is said of an error by those that pass it on. -/
theorem Told.added {later : List LogEntry} (h : Told account error world world')
    (hlater : account.added error later) : Told account error world (world'.note later) := by
  obtain ⟨events, entries, hevents, hraised, hworld'⟩ := h
  refine ⟨events, entries ++ later, hevents,
    account.raised_added error entries later hraised hlater, ?_⟩
  rw [history_note, hworld', List.map_append, List.append_assoc]

end World

/-- A round that has not failed has been silent, and one that has failed has told its error; but if the
failure of a part has been kept back, all that is known is that the task cannot succeed any more. -/
inductive Progress.Accounts (account : Account) (kept : Prop) (world : World) :
    Progress α × World → Prop
  | ok (value : α) {world' : World} (silent : World.Silent account world world') :
      Accounts account kept world (.done (.ok value), world')
  | failed {error : RuntimeError} {world' : World} (told : World.Told account error world world') :
      Accounts account kept world (.done (.error error), world')
  | pending {rest : Task α} {world' : World} (silent : World.Silent account world world')
      (rests : rest.Accounts account) : Accounts account kept world (.pending rest, world')
  | kept_back {stands : Progress α} {world' : World} (keeps : kept) (doomed : stands.Doomed) :
      Accounts account kept world (stands, world')
  | exhausted (world' : World) : Accounts account kept world (.exhausted, world')

theorem Progress.Accounts.stays {account : Account} {kept : Prop} {stands : Progress α} {rest : Task α}
    {world world' : World} (h : Progress.Accounts account kept world (stands, world'))
    (hstays : stands.Stays rest) :
    World.Silent account world world' ∧ rest.Accounts account ∨ kept ∧ rest.Doomed := by
  cases h with
  | kept_back keeps doomed => exact .inr ⟨keeps, doomed.stays hstays⟩
  | ok value silent =>
    cases hstays
    exact .inl ⟨silent, .ok value⟩
  | pending silent rests =>
    cases hstays
    exact .inl ⟨silent, rests⟩
  | failed _ => cases hstays
  | exhausted => cases hstays

/-- A routine fails with an error of its own, in silence, or with one that has been told, unless the
failure of a part of what it calls has been kept back. -/
inductive RoutineProgress.Accounts (account : Account) (own : RuntimeError → Prop) (calls kept : Prop)
    (world : World) : RoutineProgress × World → Prop
  | ok (value : Value) {world' : World} (silent : World.Silent account world world') :
      Accounts account own calls kept world (.done (.ok value), world')
  | failed {error : RuntimeError} {world' : World} (owns : own error)
      (silent : World.Silent account world world') :
      Accounts account own calls kept world (.done (.error error), world')
  | passed {error : RuntimeError} {world' : World} (called : calls)
      (told : World.Told account error world world') :
      Accounts account own calls kept world (.done (.error error), world')
  | lost {error : RuntimeError} {world' : World} (keeps : kept) :
      Accounts account own calls kept world (.done (.error error), world')
  | pending {rest : Routine} {world' : World} (silent : World.Silent account world world')
      (passes : rest.PassesOn own calls) : Accounts account own calls kept world (.pending rest, world')
  | inside {callee : Task Value} {next : Except RuntimeError Value → Routine} {world' : World}
      (called : calls) (silent : World.Silent account world world')
      (callees : callee.Accounts account)
      (passes : ∀ error, next (.error error) = .finish (.error error))
      (later : ∀ value, (next (.ok value)).PassesOn own calls) :
      Accounts account own calls kept world (.inside callee next, world')
  | inside_doomed {callee : Task Value} {next : Except RuntimeError Value → Routine} {world' : World}
      (keeps : kept) (doomed : callee.Doomed)
      (passes : ∀ error, next (.error error) = .finish (.error error)) :
      Accounts account own calls kept world (.inside callee next, world')
  | exhausted (world' : World) : Accounts account own calls kept world (.exhausted, world')

section
variable {account : Account} {kept kept' : Prop} {world middle : World}

theorem RoutineProgress.Accounts.after {own : RuntimeError → Prop} {calls : Prop}
    {stands : RoutineProgress × World}
    (h : RoutineProgress.Accounts account own calls kept middle stands)
    (silent : World.Silent account world middle) (hkept : kept → kept') :
    RoutineProgress.Accounts account own calls kept' world stands := by
  cases h with
  | ok value later => exact .ok value (silent.trans later)
  | failed owns later => exact .failed owns (silent.trans later)
  | passed called told => exact .passed called (silent.told told)
  | lost keeps => exact .lost (hkept keeps)
  | pending later passes => exact .pending (silent.trans later) passes
  | inside called later callees passes oks =>
    exact .inside called (silent.trans later) callees passes oks
  | inside_doomed keeps doomed passes => exact .inside_doomed (hkept keeps) doomed passes
  | exhausted world' => exact .exhausted world'

theorem Progress.Accounts.after {stands : Progress α × World}
    (h : Progress.Accounts account kept middle stands) (silent : World.Silent account world middle)
    (hkept : kept → kept') : Progress.Accounts account kept' world stands := by
  cases h with
  | ok value later => exact .ok value (silent.trans later)
  | failed told => exact .failed (silent.told told)
  | pending later rests => exact .pending (silent.trans later) rests
  | kept_back keeps doomed => exact .kept_back (hkept keeps) doomed
  | exhausted world' => exact .exhausted world'

end

/-- What is entered keeps the account. -/
def Towers.EntersAccounted (towers : Towers) (account : Account) (depth : Nat) : Prop :=
  ∀ callee context world, Progress.Accounts account
    (towers.KeepsBack (towers.callTask callee context) world) world
    (towers.entry depth callee context world)

variable {account : Account} {depth : Nat}

theorem Routine.PassesOn.round (henter : towers.EntersAccounted account depth) (function : String)
    (next : Except RuntimeError Value → Task α) {own : RuntimeError → Prop} {calls : Prop}
    {body : Routine} (h : body.PassesOn own calls) (world : World) :
    RoutineProgress.Accounts account own calls
      (towers.KeepsBack (.routine function body next) world) world
      (body.round (towers.entry depth) function world) := by
  have hresumed (world : World) : World.Silent account world (world.record (.resume function)) :=
    World.silent_record (account.silent_resume function) world
  induction body generalizing world with
  | finish outcome =>
    cases outcome with
    | ok value => exact .ok value (.refl world)
    | error error => exact .failed h (.refl world)
  | wait polls body ih =>
    cases polls with
    | zero => exact (ih h _).after (hresumed world) (Towers.Visits.resume (.here _ _)).keepsBack
    | succ polls => exact .pending (.refl world) h
  | arrive point body ih =>
    have harrived : World.Silent account world (world.arrive point) := World.silent_of_history rfl
    exact (ih h _).after harrived (Towers.Visits.arrive (.here _ _)).keepsBack
  | await point count body ih =>
    rw [Routine.round]
    split
    · rename_i hmet
      exact (ih h _).after (hresumed world) (Towers.Visits.meet hmet (.here _ _)).keepsBack
    · exact .pending (.refl world) h
  | tick body ih =>
    have hticked : World.Silent account world world.tick := World.silent_of_history rfl
    exact (ih world.ticks (h world.ticks) _).after hticked (Towers.Visits.tick (.here _ _)).keepsBack
  | call callee context body ih =>
    obtain ⟨hcalls, hpasses, hlater⟩ := h
    have hentered := henter callee context world
    rw [Routine.round]
    cases hstands : towers.entry depth callee context world with
    | mk stands middle =>
      rw [hstands] at hentered
      cases hentered with
      | ok value silent =>
        have hcalled := Towers.polls_of_entry hstands (by simp)
        exact (ih (.ok value) (hlater value) _).after silent
          (Towers.Visits.returned hcalled (.here _ _)).keepsBack
      | failed told =>
        simp only [hpasses, Routine.round]
        exact .passed hcalls told
      | pending silent rests => exact .inside hcalls silent rests hpasses hlater
      | kept_back keeps doomed =>
        have hkeeps : towers.KeepsBack (.routine function (.call callee context body) next) world :=
          (Towers.Visits.inside next (.here _ _)).keepsBack keeps
        cases doomed with
        | failed error =>
          simp only [hpasses, Routine.round]
          exact .lost hkeeps
        | pending rests => exact .inside_doomed hkeeps rests hpasses
        | exhausted => exact .exhausted middle
      | exhausted => exact .exhausted middle

/-- A round of two tasks side by side keeps the account if their own rounds do. -/
theorem Progress.Accounts.both {left : Task β} {right : Task γ}
    {next : Except RuntimeError (β × γ) → Task α} {world : World}
    (lefts : Progress.Accounts account (towers.KeepsBack left world) world
      (left.round (towers.entry depth) world))
    (rights : ∀ middle, Progress.Accounts account (towers.KeepsBack right middle) middle
      (right.round (towers.entry depth) middle))
    (fails : ∀ error, ∃ entries, (next (.error error)).Fails error entries ∧
      account.added error entries)
    (rests : ∀ values, (next (.ok values)).Accounts account)
    (later : ∀ values middle, Progress.Accounts account
      (towers.KeepsBack (next (.ok values)) middle) middle
      ((next (.ok values)).round (towers.entry depth) middle)) :
    Progress.Accounts account (towers.KeepsBack (.both mode left right next) world) world
      ((Task.both mode left right next).round (towers.entry depth) world) := by
  have hfails (error : RuntimeError) : ∃ entries, (next (.error error)).Fails error entries :=
    (fails error).imp fun _ => And.left
  have hleft (keeps : towers.KeepsBack left world) :
      towers.KeepsBack (.both mode left right next) world :=
    (Towers.Visits.left right next (.here left world)).keepsBack keeps
  have hright {stands : Progress β} {rest : Task β} {middle : World} (stays : stands.Stays rest)
      (hlefts : left.round (towers.entry depth) world = (stands, middle))
      (keeps : towers.KeepsBack right middle) :
      towers.KeepsBack (.both mode left right next) world := by
    have hpolls := Towers.Polls.of_round stays.ne_exhausted depth hlefts
    obtain ⟨_, hvisits⟩ := Towers.visits_right next hpolls stays
    exact hvisits.keepsBack keeps
  have hfailed {middle : World} {error : RuntimeError}
      (told : World.Told account error world middle) :
      Progress.Accounts account (towers.KeepsBack (.both mode left right next) world) world
        ((next (.error error)).round (towers.entry depth) middle) := by
    obtain ⟨entries, hentries, hadded⟩ := fails error
    rw [hentries.round]
    exact .failed (told.added hadded)
  have hlost {middle : World} {error : RuntimeError}
      (keeps : towers.KeepsBack (.both mode left right next) world) :
      Progress.Accounts account (towers.KeepsBack (.both mode left right next) world) world
        ((next (.error error)).round (towers.entry depth) middle) := by
    obtain ⟨entries, hentries, _⟩ := fails error
    rw [hentries.round]
    exact .kept_back keeps (.failed error)
  cases hround : (Task.both mode left right next).round (towers.entry depth) world with
  | mk progress world' =>
    cases Task.round_both_cases hround with
    | left_exhausted _ => exact .exhausted world'
    | right_exhausted _ _ _ => exact .exhausted world'
    | left_failed hlefts hlater =>
      rw [hlefts] at lefts
      rw [← hlater]
      cases lefts with
      | failed told => exact hfailed told
      | kept_back keeps _ => exact hlost (hleft keeps)
    | @right_failed _ _ _ middle _ _ _ hlefts stays hrights _ hlater =>
      have hrounds := rights middle
      rw [hrights] at hrounds
      rw [hlefts] at lefts
      rw [← hlater]
      rcases lefts.stays stays with ⟨silent, _⟩ | ⟨keeps, _⟩
      · cases hrounds with
        | failed told => exact hfailed (silent.told told)
        | kept_back keeps _ => exact hlost (hright stays hlefts keeps)
      · exact hlost (hleft keeps)
    | @joined a b middle last _ _ hlefts hrights hlater =>
      have hpolls := Towers.Polls.of_round (by simp) depth hlefts
      have hpolls' := Towers.Polls.of_round (by simp) depth hrights
      have hrounds := rights middle
      rw [hrights] at hrounds
      rw [hlefts] at lefts
      rw [← hlater]
      cases lefts with
      | kept_back _ doomed => cases doomed
      | ok _ silentl =>
        cases hrounds with
        | kept_back _ doomed => cases doomed
        | ok _ silentr =>
          exact (later (a, b) last).after (silentl.trans silentr)
            (Towers.Visits.joined hpolls hpolls' (.here _ last)).keepsBack
    | @pending _ _ _ _ middle _ hlefts staysl hrights staysr _ =>
      have hrounds := rights middle
      rw [hrights] at hrounds
      rw [hlefts] at lefts
      rcases lefts.stays staysl with ⟨silentl, restsl⟩ | ⟨keeps, doomed⟩
      · rcases hrounds.stays staysr with ⟨silentr, restsr⟩ | ⟨keeps, doomed⟩
        · exact .pending (silentl.trans silentr) (.both restsl restsr fails rests)
        · exact .kept_back (hright staysl hlefts keeps) (.pending (.right doomed hfails))
      · exact .kept_back (hleft keeps) (.pending (.left doomed hfails))
    | held unheeded hlefts hrights =>
      subst unheeded
      have hpolls := Towers.Polls.of_round (by simp) depth hlefts
      have hpolls' := Towers.Polls.of_round (by simp) depth hrights
      exact .kept_back (.intro (.here _ world) hpolls hpolls')
        (.pending (.right (.failing .finish) hfails))

/-- A round keeps the account. -/
theorem Task.Accounts.round (henter : towers.EntersAccounted account depth) {task : Task α}
    (h : task.Accounts account) (world : World) :
    Progress.Accounts account (towers.KeepsBack task world) world
      (task.round (towers.entry depth) world) := by
  induction h generalizing world with
  | failing fails told =>
    rw [fails.round]
    exact .failed (World.told_note told world)
  | ok value => exact .ok value (.refl world)
  | emit silent _ ih =>
    exact (ih _).after (World.silent_record silent world) (Towers.Visits.emit (.here _ _)).keepsBack
  | create _ ih =>
    have htaken : World.Silent account world world.take := World.silent_of_history rfl
    exact (ih world.serial _).after htaken (Towers.Visits.create (.here _ _)).keepsBack
  | @routine _ own calls function body next passes fails later ih =>
    have hbody := passes.round henter function next world
    rw [Task.round]
    cases hstands : body.round (towers.entry depth) function world with
    | mk stands middle =>
      rw [hstands] at hbody
      cases hbody with
      | ok value silent =>
        exact (ih value _).after silent (Towers.visits_of_routine_done hstands).keepsBack
      | @failed error _ owns silent =>
        obtain ⟨entries, hentries, _, hown⟩ := fails error
        simp only [hentries.round]
        exact .failed (silent.told (World.told_note (hown owns) middle))
      | @passed error _ called told =>
        obtain ⟨entries, hentries, hadded, _⟩ := fails error
        simp only [hentries.round]
        exact .failed (told.added (hadded called))
      | @lost error _ keeps =>
        obtain ⟨entries, hentries, _⟩ := fails error
        simp only [hentries.round]
        exact .kept_back keeps (.failed error)
      | pending silent passes => exact .pending silent (.routine function passes fails later)
      | inside called silent callees hpass hlater =>
        refine .pending silent (callees.andThen ?_ ?_)
        · intro error
          obtain ⟨entries, hentries, hadded, _⟩ := fails error
          rw [hpass error]
          exact ⟨entries, .routine function hentries, hadded called⟩
        · exact fun value => .routine function (hlater value) fails later
      | inside_doomed keeps doomed hpass =>
        refine .kept_back keeps (.pending (doomed.andThen fun error => ?_))
        obtain ⟨entries, hentries, _⟩ := fails error
        rw [hpass error]
        exact ⟨entries, .routine function hentries⟩
      | exhausted => exact .exhausted middle
  | both _ _ fails later ihl ihr ih => exact .both (ihl world) ihr fails later ih

namespace Towers

/-- What is called keeps the account. -/
def CallsAccount (towers : Towers) (account : Account) : Prop :=
  ∀ callee context, (towers.callTask callee context).Accounts account

theorem CallsAccount.enters (h : towers.CallsAccount account) (depth : Nat) :
    towers.EntersAccounted account depth := by
  induction depth with
  | zero => exact fun callee context world => .exhausted world
  | succ depth ih =>
    intro callee context world
    rw [entry_succ, poll_eq]
    exact (h callee context).round ih world

theorem CallsAccount.polls (h : towers.CallsAccount account) {task : Task α}
    (htask : task.Accounts account) {world world' : World} {progress : Progress α}
    (hpolls : towers.Polls task world progress world') :
    Progress.Accounts account (towers.KeepsBack task world) world (progress, world') := by
  obtain ⟨_, depth, hpoll⟩ := hpolls
  rw [poll_eq] at hpoll
  rw [← hpoll]
  exact htask.round (h.enters depth) world

theorem polls_fails {error : RuntimeError} {entries : List LogEntry} {task : Task α}
    (h : task.Fails error entries) (world : World) :
    towers.Polls task world (.done (.error error)) (world.note entries) :=
  .of_round (by simp) 0 (h.round _ world)

/-- A task that cannot succeed ends with an error, if it ends. -/
theorem Ends.doomed {task : Task α} {world world' : World} {polls : Nat}
    {outcome : Except RuntimeError α} (h : towers.Ends task world polls outcome world')
    (htask : task.Doomed) : (Progress.done outcome).Doomed := by
  induction h with
  | now done =>
    obtain ⟨depth, hround⟩ := done.rounds
    exact htask.round (hround depth (Nat.le_refl _))
  | later waits _ ih =>
    obtain ⟨depth, hround⟩ := waits.rounds
    cases htask.round (hround depth (Nat.le_refl _)) with
    | pending rests => exact ih rests

/-- Everything before an error is silent, and the error is told, unless the failure of a part is kept
back in some round. -/
theorem CallsAccount.ends (h : towers.CallsAccount account) {task : Task α}
    (htask : task.Accounts account) {world world' : World} {polls : Nat}
    {outcome : Except RuntimeError α} (hends : towers.Ends task world polls outcome world') :
    Progress.Accounts account (¬ towers.HeedsFailures task world) world (.done outcome, world') := by
  induction hends with
  | now done =>
    exact (h.polls htask done).after (.refl _) fun keeps heeds => heeds _ _ _ (.now _ _) keeps
  | later waits ends ih =>
    cases h.polls htask waits with
    | pending silent rests => exact (ih rests).after silent fun hnot heeds => hnot (heeds.later waits)
    | kept_back keeps doomed =>
      cases doomed with
      | pending rests =>
        exact .kept_back (fun heeds => heeds _ _ _ (.now _ _) keeps) (ends.doomed rests)

end Towers

end ChainExpr
