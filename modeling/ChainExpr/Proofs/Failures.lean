import ChainExpr.Proofs.Telling

namespace ChainExpr

open List (Subset.refl Subset.trans)

variable {α β γ : Type} {mode : JoinMode}

/-- The warnings among events, in their order. -/
def warnings (events : List Event) : List LogEntry :=
  events.filterMap fun event =>
    match event with
    | .log entry => if entry.level = .warn then some entry else none
    | _ => none

theorem warnings_append (events later : List Event) :
    warnings (events ++ later) = warnings events ++ warnings later := List.filterMap_append

theorem warnings_debug {entry : LogEntry} (h : entry.level = .debug) : warnings [.log entry] = [] := by
  simp [warnings, h]

theorem warnings_warn {entry : LogEntry} (h : entry.level = .warn) :
    warnings [.log entry] = [entry] := by
  simp [warnings, h]

/-- What is no log entry, or one for debugging only, is no warning. -/
theorem warnings_silent {event : Event} (h : ∀ entry, event = .log entry → entry.level = .debug) :
    warnings [event] = [] := by
  cases event with
  | log entry => exact warnings_debug (h entry rfl)
  | _ => rfl

theorem warnings_of_silent {events : List Event} (h : ∀ event ∈ events, warnings [event] = []) :
    warnings events = [] := by
  induction events with
  | nil => rfl
  | cons event rest ih =>
    have hevent : warnings [event] = [] := h event (by simp)
    have hrest : warnings rest = [] := ih fun other hother => h other (by simp [hother])
    calc warnings (event :: rest) = warnings [event] ++ warnings rest := warnings_append [event] rest
      _ = [] := by rw [hevent, hrest, List.append_nil]

/-- The warnings that go with failures, both in their order. A failure is warned about where it arises,
unless it is the call of a reference. It is warned about again by functions of the name of the failed
one that pass it on; they call function values, and such functions have names of a certain kind. -/
inductive Warned (calling : String → Prop) : List RuntimeError → List LogEntry → Prop
  | none : Warned calling [] []
  | raised {failures : List RuntimeError} {entries : List LogEntry} {error : RuntimeError}
      {entry : LogEntry} (earlier : Warned calling failures entries) (told : error.ToldBy entry) :
      Warned calling (failures ++ [error]) (entries ++ [entry])
  | not_callable {failures : List RuntimeError} {entries : List LogEntry}
      (earlier : Warned calling failures entries) (name : String) :
      Warned calling (failures ++ [.notCallable name]) entries
  | again {failures : List RuntimeError} {entries : List LogEntry} {function message : String}
      (earlier : Warned calling failures entries) (calls : calling function)
      (failed : .function function message ∈ failures) :
      Warned calling failures (entries ++ [.functionFailed function (.function function message)])

/-- There is one warning for each failure, unless a reference has been called or functions of the name
of a failed one call function values. -/
theorem Warned.once {calling : String → Prop} {failures : List RuntimeError}
    {entries : List LogEntry} (h : Warned calling failures entries)
    (hcallable : ∀ name, .notCallable name ∉ failures)
    (hname : ∀ function message, calling function → .function function message ∉ failures) :
    List.Forall₂ RuntimeError.ToldBy failures entries := by
  induction h with
  | none => exact .nil
  | raised _ told ih =>
    have hearlier := ih (fun name hmem => hcallable name (List.mem_append_left _ hmem))
      fun function message hcalls hmem => hname function message hcalls (List.mem_append_left _ hmem)
    exact List.rel_append hearlier (.cons told .nil)
  | not_callable _ name => exact absurd (by simp) (hcallable name)
  | again _ calls failed => exact absurd failed (hname _ _ calls)

/-- The routine fails with certain errors of its own or, perhaps later, with an error that a call has
ended with. It calls function values only if `calls` says so. -/
def Routine.FailsWith (own : RuntimeError → Prop) (calls : Prop) :
    Routine → List RuntimeError → Prop
  | .finish (.ok _), _ => True
  | .finish (.error error), known => own error ∨ calls ∧ error ∈ known
  | .wait _ next, known => next.FailsWith own calls known
  | .arrive _ next, known => next.FailsWith own calls known
  | .await _ _ next, known => next.FailsWith own calls known
  | .tick next, known => ∀ before, (next before).FailsWith own calls known
  | .call _ _ next, known =>
    calls ∧ (∀ error, (next (.error error)).FailsWith own calls (error :: known)) ∧
      ∀ value, (next (.ok value)).FailsWith own calls known

namespace Routine.FailsWith

variable {own : RuntimeError → Prop} {calls : Prop} {body : Routine}
  {known later : List RuntimeError}

theorem mono (h : body.FailsWith own calls known) (hlater : known ⊆ later) :
    body.FailsWith own calls later := by
  induction body generalizing known later with
  | finish outcome =>
    cases outcome with
    | ok value => trivial
    | error error => exact h.imp_right fun ⟨hcalls, hmem⟩ => ⟨hcalls, hlater hmem⟩
  | wait polls next ih => exact ih h hlater
  | arrive point next ih => exact ih h hlater
  | await point count next ih => exact ih h hlater
  | tick next ih => exact fun before => ih before (h before) hlater
  | call callee context next ih =>
    obtain ⟨hcalls, hfails, hoks⟩ := h
    exact ⟨hcalls, fun error => ih _ (hfails error) (List.cons_subset_cons error hlater),
      fun value => ih _ (hoks value) hlater⟩

/-- What comes of a call may be known from the failures so far. -/
theorem resumed {next : Except RuntimeError Value → Routine}
    (hfails : ∀ error, (next (.error error)).FailsWith own calls (error :: known))
    (hoks : ∀ value, (next (.ok value)).FailsWith own calls known) (hlater : known ⊆ later)
    {outcome : Except RuntimeError Value}
    (hknown : ∀ error, outcome = .error error → error ∈ later) :
    (next outcome).FailsWith own calls later := by
  cases outcome with
  | ok value => exact (hoks value).mono hlater
  | error error => exact (hfails error).mono (List.cons_subset.mpr ⟨hknown error rfl, hlater⟩)

/-- A routine that ends with every error of a call fails by itself with errors of its own only. -/
theorem passesOn (h : body.FailsWith own calls [])
    (hpasses : body.PassesOn (fun _ => True) True) : body.PassesOn own calls := by
  induction body with
  | finish outcome =>
    cases outcome with
    | ok value => trivial
    | error error => exact h.resolve_right fun ⟨_, hmem⟩ => List.not_mem_nil hmem
  | wait polls next ih => exact ih h hpasses
  | arrive point next ih => exact ih h hpasses
  | await point count next ih => exact ih h hpasses
  | tick next ih => exact fun before => ih before (h before) (hpasses before)
  | call callee context next ih =>
    obtain ⟨hcalls, _, hoks⟩ := h
    obtain ⟨_, hends, hlater⟩ := hpasses
    exact ⟨hcalls, hends, fun value => ih _ (hoks value) (hlater value)⟩

end Routine.FailsWith

/-- After certain failures, the task warns of further ones as they arise, and ends with one of all of
them if it fails. -/
inductive Task.Warns (calling : String → Prop) : {α : Type} → List RuntimeError → Task α → Prop
  | ok {α : Type} {failures : List RuntimeError} (value : α) :
      Warns calling failures (.finish (.ok value))
  | passed {α : Type} {failures : List RuntimeError} {error : RuntimeError}
      (known : error ∈ failures) : Warns calling failures (.finish (.error error) : Task α)
  | silent {α : Type} {failures : List RuntimeError} {event : Event} {next : Task α}
      (silent : warnings [event] = []) (later : Warns calling failures next) :
      Warns calling failures (.emit event next)
  | raised {α : Type} {failures : List RuntimeError} {error : RuntimeError} {entry : LogEntry}
      {next : Task α} (told : error.ToldBy entry)
      (later : Warns calling (failures ++ [error]) next) :
      Warns calling failures (.emit (.log entry) next)
  | not_callable {α : Type} {failures : List RuntimeError} {task : Task α} (name : String)
      (later : Warns calling (failures ++ [.notCallable name]) task) : Warns calling failures task
  | again {α : Type} {failures : List RuntimeError} {function message : String} {next : Task α}
      (calls : calling function) (failed : .function function message ∈ failures)
      (later : Warns calling failures next) :
      Warns calling failures (.emit (.log (.functionFailed function (.function function message))) next)
  | create {α : Type} {failures : List RuntimeError} {next : Nat → Task α}
      (later : ∀ serial, Warns calling failures (next serial)) :
      Warns calling failures (.create next)
  | routine {α : Type} {failures : List RuntimeError} {own : RuntimeError → Prop} {calls : Prop}
      (function : String) {body : Routine} {next : Except RuntimeError Value → Task α}
      (fails : body.FailsWith own calls failures)
      (later : ∀ more, failures ⊆ more → ∀ outcome,
        (∀ error, outcome = .error error → own error ∨ calls ∧ error ∈ more) →
          Warns calling more (next outcome)) :
      Warns calling failures (.routine function body next)
  | both {α β γ : Type} {mode : JoinMode} {failures : List RuntimeError} {left : Task β} {right : Task γ}
      {next : Except RuntimeError (β × γ) → Task α} (lefts : Warns calling failures left)
      (rights : Warns calling failures right)
      (later : ∀ more, failures ⊆ more → ∀ outcome,
        (∀ error, outcome = .error error → error ∈ more) → Warns calling more (next outcome)) :
      Warns calling failures (.both mode left right next)

variable {calling : String → Prop} {failures more : List RuntimeError}

theorem append_failure (h : failures ⊆ more) (error : RuntimeError) :
    failures ++ [error] ⊆ more ++ [error] :=
  List.append_subset.mpr ⟨Subset.trans h (List.subset_append_left _ _), List.subset_append_right _ _⟩

namespace Task.Warns

theorem mono {task : Task α} (h : task.Warns calling failures) (hmore : failures ⊆ more) :
    task.Warns calling more := by
  induction h generalizing more with
  | ok value => exact .ok value
  | passed known => exact .passed (hmore known)
  | silent silent _ ih => exact .silent silent (ih hmore)
  | raised told _ ih => exact .raised told (ih (append_failure hmore _))
  | not_callable name _ ih =>
    exact .not_callable name (ih (append_failure hmore _))
  | again calls failed _ ih => exact .again calls (hmore failed) (ih hmore)
  | create _ ih => exact .create fun serial => ih serial hmore
  | routine function fails later _ =>
    exact .routine function (fails.mono hmore) fun _ hlater => later _ (Subset.trans hmore hlater)
  | both _ _ later ihl ihr _ =>
    exact .both (ihl hmore) (ihr hmore) fun _ hlater => later _ (Subset.trans hmore hlater)

theorem andThen {task : Task α} {next : Except RuntimeError α → Task β}
    (h : task.Warns calling failures)
    (hnext : ∀ more, failures ⊆ more → ∀ outcome,
      (∀ error, outcome = .error error → error ∈ more) → (next outcome).Warns calling more) :
    (task.andThen next).Warns calling failures := by
  induction h with
  | ok value => exact hnext _ (Subset.refl _) _ (by simp)
  | passed known =>
    apply hnext _ (Subset.refl _)
    rintro _ ⟨⟩
    exact known
  | silent silent _ ih => exact .silent silent (ih hnext)
  | raised told _ ih =>
    exact .raised told (ih fun _ hmore => hnext _ (Subset.trans (List.subset_append_left _ _) hmore))
  | not_callable name _ ih =>
    refine .not_callable name (ih fun _ hmore => ?_)
    exact hnext _ (Subset.trans (List.subset_append_left _ _) hmore)
  | again calls failed _ ih => exact .again calls failed (ih hnext)
  | create _ ih => exact .create fun serial => ih serial hnext
  | routine function fails _ ih =>
    refine .routine function fails fun more hmore outcome hknown => ?_
    exact ih more hmore outcome hknown fun _ hlater => hnext _ (Subset.trans hmore hlater)
  | both lefts rights _ _ _ ih =>
    refine .both lefts rights fun more hmore outcome hknown => ?_
    exact ih more hmore outcome hknown fun _ hlater => hnext _ (Subset.trans hmore hlater)

end Task.Warns

/-- From a start on, a world has had these failures, and the warnings that go with them. -/
def World.Warned (calling : String → Prop) (start : World) (failures : List RuntimeError)
    (world : World) : Prop :=
  ∃ events, world.history = start.history ++ events ∧
    ChainExpr.Warned calling failures (warnings events)

namespace World.Warned

variable {start world world' : World}

theorem refl (calling : String → Prop) (start : World) : start.Warned calling [] start :=
  ⟨[], (List.append_nil _).symm, .none⟩

theorem of_history (h : start.Warned calling failures world)
    (hhistory : world'.history = world.history) : start.Warned calling failures world' := by
  obtain ⟨events, hevents, hwarned⟩ := h
  exact ⟨events, hhistory.trans hevents, hwarned⟩

theorem record (h : start.Warned calling failures world) {event : Event}
    (hevent : ∀ entries, ChainExpr.Warned calling failures entries →
      ChainExpr.Warned calling more (entries ++ warnings [event])) :
    start.Warned calling more (world.record event) := by
  obtain ⟨events, hevents, hwarned⟩ := h
  refine ⟨events ++ [event], ?_, ?_⟩
  · rw [history_record, hevents, List.append_assoc]
  · rw [warnings_append]
    exact hevent _ hwarned

theorem silent (h : start.Warned calling failures world) {event : Event}
    (hsilent : warnings [event] = []) : start.Warned calling failures (world.record event) := by
  apply h.record
  intro entries hwarned
  rw [hsilent, List.append_nil]
  exact hwarned

theorem raised (h : start.Warned calling failures world) {error : RuntimeError} {entry : LogEntry}
    (htold : error.ToldBy entry) :
    start.Warned calling (failures ++ [error]) (world.record (.log entry)) := by
  apply h.record
  intro entries hwarned
  rw [warnings_warn htold.level]
  exact hwarned.raised htold

theorem not_callable (h : start.Warned calling failures world) (name : String) :
    start.Warned calling (failures ++ [.notCallable name]) world := by
  obtain ⟨events, hevents, hwarned⟩ := h
  exact ⟨events, hevents, hwarned.not_callable name⟩

theorem again (h : start.Warned calling failures world) {function message : String}
    (hcalls : calling function) (hfailed : .function function message ∈ failures) :
    start.Warned calling failures
      (world.record (.log (.functionFailed function (.function function message)))) := by
  apply h.record
  intro entries hwarned
  exact hwarned.again hcalls hfailed

end World.Warned

/-- After a round there may be more failures. What has failed has done so with one of them, and what is
pending warns of those to come. -/
inductive Progress.Warns (calling : String → Prop) (start : World) (failures : List RuntimeError) :
    Progress α × World → Prop
  | done {outcome : Except RuntimeError α} {world : World} {more : List RuntimeError}
      (grown : failures ⊆ more) (warned : start.Warned calling more world)
      (known : ∀ error, outcome = .error error → error ∈ more) :
      Warns calling start failures (.done outcome, world)
  | pending {rest : Task α} {world : World} {more : List RuntimeError} (grown : failures ⊆ more)
      (warned : start.Warned calling more world) (rests : rest.Warns calling more) :
      Warns calling start failures (.pending rest, world)
  | exhausted (world : World) : Warns calling start failures (.exhausted, world)

theorem Progress.Warns.grown {start : World} {stands : Progress α × World}
    (h : Progress.Warns calling start more stands) (hmore : failures ⊆ more) :
    Progress.Warns calling start failures stands := by
  cases h with
  | done grown warned known => exact .done (Subset.trans hmore grown) warned known
  | pending grown warned rests => exact .pending (Subset.trans hmore grown) warned rests
  | exhausted world => exact .exhausted world

theorem Progress.Warns.stays {start world : World} {stands : Progress α} {rest : Task α}
    (h : Progress.Warns calling start failures (stands, world)) (hstays : stands.Stays rest) :
    ∃ more, failures ⊆ more ∧ start.Warned calling more world ∧ rest.Warns calling more := by
  cases hstays with
  | ok value =>
    cases h with
    | done grown warned _ => exact ⟨_, grown, warned, .ok value⟩
  | pending rest =>
    cases h with
    | pending grown warned rests => exact ⟨_, grown, warned, rests⟩

/-- After a round of a routine there may be more failures, but for one of its own that it ends with. -/
inductive RoutineProgress.Warns (calling : String → Prop) (start : World)
    (own : RuntimeError → Prop) (calls : Prop) (failures : List RuntimeError) :
    RoutineProgress × World → Prop
  | done {outcome : Except RuntimeError Value} {world : World} {more : List RuntimeError}
      (grown : failures ⊆ more) (warned : start.Warned calling more world)
      (known : ∀ error, outcome = .error error → own error ∨ calls ∧ error ∈ more) :
      Warns calling start own calls failures (.done outcome, world)
  | pending {rest : Routine} {world : World} {more : List RuntimeError} (grown : failures ⊆ more)
      (warned : start.Warned calling more world) (rests : rest.FailsWith own calls more) :
      Warns calling start own calls failures (.pending rest, world)
  | inside {callee : Task Value} {next : Except RuntimeError Value → Routine} {world : World}
      {more : List RuntimeError} (grown : failures ⊆ more)
      (warned : start.Warned calling more world) (callees : callee.Warns calling more)
      (fails : ∀ error, (next (.error error)).FailsWith own calls (error :: more))
      (oks : ∀ value, (next (.ok value)).FailsWith own calls more) :
      Warns calling start own calls failures (.inside callee next, world)
  | exhausted (world : World) : Warns calling start own calls failures (.exhausted, world)

theorem RoutineProgress.Warns.grown {start : World} {own : RuntimeError → Prop} {calls : Prop}
    {stands : RoutineProgress × World}
    (h : RoutineProgress.Warns calling start own calls more stands) (hmore : failures ⊆ more) :
    RoutineProgress.Warns calling start own calls failures stands := by
  cases h with
  | done grown warned known => exact .done (Subset.trans hmore grown) warned known
  | pending grown warned rests => exact .pending (Subset.trans hmore grown) warned rests
  | inside grown warned callees fails oks =>
    exact .inside (Subset.trans hmore grown) warned callees fails oks
  | exhausted world => exact .exhausted world

/-- What is entered warns of its failures. -/
def Entry.Warns (calling : String → Prop) (start : World) (enter : Entry) : Prop :=
  ∀ callee context failures world, start.Warned calling failures world →
    Progress.Warns calling start failures (enter callee context world)

variable {start : World} {enter : Entry}

theorem Routine.FailsWith.round (henter : enter.Warns calling start) (function : String)
    {own : RuntimeError → Prop} {calls : Prop} {body : Routine}
    (h : body.FailsWith own calls failures) {world : World}
    (hworld : start.Warned calling failures world) :
    RoutineProgress.Warns calling start own calls failures (body.round enter function world) := by
  induction body generalizing failures world with
  | finish outcome =>
    refine .done (Subset.refl _) hworld ?_
    rintro error rfl
    exact h
  | wait polls next ih =>
    cases polls with
    | zero => exact ih h (hworld.silent rfl)
    | succ polls => exact .pending (Subset.refl _) hworld h
  | arrive point next ih => exact ih h (hworld.of_history rfl)
  | await point count next ih =>
    rw [Routine.round]
    split
    · exact ih h (hworld.silent rfl)
    · exact .pending (Subset.refl _) hworld h
  | tick next ih => exact ih world.ticks (h world.ticks) (hworld.of_history rfl)
  | call callee context next ih =>
    obtain ⟨_, hfails, hoks⟩ := h
    have hentered := henter callee context failures world hworld
    rw [Routine.round]
    generalize enter callee context world = stands at hentered ⊢
    cases hentered with
    | done grown warned known =>
      have hnext := Routine.FailsWith.resumed hfails hoks grown known
      exact (ih _ hnext warned).grown grown
    | pending grown warned rests =>
      exact .inside grown warned rests
        (fun error => (hfails error).mono (List.cons_subset_cons error grown))
        fun value => (hoks value).mono grown
    | exhausted world' => exact .exhausted world'

/-- A round of two tasks side by side warns of their failures, and of those of what comes next. -/
theorem Progress.Warns.both {left : Task β} {right : Task γ}
    {next : Except RuntimeError (β × γ) → Task α} {world : World}
    (lefts : Progress.Warns calling start failures (left.round enter world))
    (rights : ∀ more, failures ⊆ more → ∀ world, start.Warned calling more world →
      Progress.Warns calling start more (right.round enter world))
    (rests : ∀ more, failures ⊆ more → ∀ outcome,
      (∀ error, outcome = .error error → error ∈ more) → (next outcome).Warns calling more)
    (later : ∀ more, failures ⊆ more → ∀ outcome,
      (∀ error, outcome = .error error → error ∈ more) → ∀ world, start.Warned calling more world →
        Progress.Warns calling start more ((next outcome).round enter world)) :
    Progress.Warns calling start failures ((Task.both mode left right next).round enter world) := by
  have hfailed {middle : World} {more : List RuntimeError} {error : RuntimeError}
      (grown : failures ⊆ more) (warned : start.Warned calling more middle) (known : error ∈ more) :
      Progress.Warns calling start failures ((next (.error error)).round enter middle) := by
    refine (later more grown (.error error) ?_ middle warned).grown grown
    rintro _ ⟨⟩
    exact known
  cases hround : (Task.both mode left right next).round enter world with
  | mk progress world' =>
    cases Task.round_both_cases hround with
    | left_exhausted _ => exact .exhausted world'
    | right_exhausted _ _ _ => exact .exhausted world'
    | left_failed hlefts hlater =>
      rw [hlefts] at lefts
      cases lefts with
      | done grown warned known =>
        rw [← hlater]
        exact hfailed grown warned (known _ rfl)
    | right_failed hlefts stays hrights _ hlater =>
      rw [hlefts] at lefts
      obtain ⟨more, grown, warned, _⟩ := lefts.stays stays
      have hright := rights more grown _ warned
      rw [hrights] at hright
      cases hright with
      | done grown' warned known =>
        rw [← hlater]
        exact hfailed (Subset.trans grown grown') warned (known _ rfl)
    | @joined a b _ _ _ _ hlefts hrights hlater =>
      rw [hlefts] at lefts
      obtain ⟨more, grown, warned, _⟩ := lefts.stays (.ok a)
      have hright := rights more grown _ warned
      rw [hrights] at hright
      obtain ⟨last, grown', warned, _⟩ := hright.stays (.ok b)
      have hgrown := Subset.trans grown grown'
      rw [← hlater]
      exact (later last hgrown (.ok (a, b)) (by rintro _ ⟨⟩) _ warned).grown hgrown
    | pending hlefts staysl hrights staysr _ =>
      rw [hlefts] at lefts
      obtain ⟨more, grown, warned, hrestl⟩ := lefts.stays staysl
      have hright := rights more grown _ warned
      rw [hrights] at hright
      obtain ⟨last, grown', warned, hrestr⟩ := hright.stays staysr
      have hgrown := Subset.trans grown grown'
      exact .pending hgrown warned
        (.both (hrestl.mono grown') hrestr fun _ hlast => rests _ (Subset.trans hgrown hlast))
    | @held rest _ _ _ _ hlefts hrights =>
      rw [hlefts] at lefts
      obtain ⟨more, grown, warned, hrestl⟩ := lefts.stays (.pending rest)
      have hright := rights more grown _ warned
      rw [hrights] at hright
      cases hright with
      | done grown' warned known =>
        have hgrown := Subset.trans grown grown'
        exact .pending hgrown warned (.both (hrestl.mono grown') (.passed (known _ rfl))
          fun _ hlast => rests _ (Subset.trans hgrown hlast))

/-- A round warns of the failures that it has. -/
theorem Task.Warns.round (henter : enter.Warns calling start) {task : Task α}
    (h : task.Warns calling failures) (hmore : failures ⊆ more) {world : World}
    (hworld : start.Warned calling more world) :
    Progress.Warns calling start more (task.round enter world) := by
  -- Other parts may have had failures since, so the induction is for any list of failures that has grown.
  induction h generalizing more world with
  | ok value => exact .done (Subset.refl _) hworld (by simp)
  | passed known =>
    refine .done (Subset.refl _) hworld ?_
    rintro _ ⟨⟩
    exact hmore known
  | silent silent _ ih => exact ih hmore (hworld.silent silent)
  | raised told _ ih =>
    exact (ih (append_failure hmore _) (hworld.raised told)).grown (List.subset_append_left _ _)
  | not_callable name _ ih =>
    exact (ih (append_failure hmore _) (hworld.not_callable name)).grown (List.subset_append_left _ _)
  | again calls failed _ ih => exact ih hmore (hworld.again calls (hmore failed))
  | create _ ih => exact ih world.serial hmore (hworld.of_history rfl)
  | routine function fails later ih =>
    have hbody := (fails.mono hmore).round henter function hworld
    rw [Task.round]
    generalize Routine.round _ _ _ _ = stands at hbody ⊢
    cases hbody with
    | done grown warned known =>
      exact (ih _ (Subset.trans hmore grown) _ known (Subset.refl _) warned).grown grown
    | pending grown warned rests =>
      have hgrown := Subset.trans hmore grown
      exact .pending grown warned
        (.routine function rests fun _ hlater => later _ (Subset.trans hgrown hlater))
    | inside grown warned callees fails oks =>
      refine .pending grown warned (callees.andThen fun last hlast outcome hknown => ?_)
      have hgrown := Subset.trans (Subset.trans hmore grown) hlast
      exact .routine function (Routine.FailsWith.resumed fails oks hlast hknown)
        fun _ hlater => later _ (Subset.trans hgrown hlater)
    | exhausted world' => exact .exhausted world'
  | both _ _ later ihl ihr ih =>
    exact .both (ihl hmore hworld)
      (fun _ grown _ => ihr (Subset.trans hmore grown))
      (fun _ grown => later _ (Subset.trans hmore grown))
      fun _ grown outcome hknown _ => ih _ (Subset.trans hmore grown) outcome hknown (Subset.refl _)

namespace Towers

variable {towers : Towers}

/-- What is called warns of its failures. -/
def CallsWarn (towers : Towers) (calling : String → Prop) : Prop :=
  ∀ callee context failures, (towers.callTask callee context).Warns calling failures

theorem CallsWarn.entry (h : towers.CallsWarn calling) (start : World) (depth : Nat) :
    (towers.entry depth).Warns calling start := by
  induction depth with
  | zero => exact fun callee context failures world _ => .exhausted world
  | succ depth ih =>
    intro callee context failures world hworld
    rw [entry_succ, poll_eq]
    exact (h callee context failures).round ih (Subset.refl _) hworld

/-- Whatever an evaluation ends with is one of its failures, and its warnings are theirs. -/
theorem CallsWarn.ends (h : towers.CallsWarn calling) {task : Task α}
    (htask : task.Warns calling failures) {start world world' : World}
    (hworld : start.Warned calling failures world) {polls : Nat} {outcome : Except RuntimeError α}
    (hends : towers.Ends task world polls outcome world') :
    ∃ more, start.Warned calling more world' ∧ ∀ error, outcome = .error error → error ∈ more := by
  have hround {task : Task α} {failures : List RuntimeError} {world world' : World}
      {progress : Progress α} (htask : task.Warns calling failures)
      (hworld : start.Warned calling failures world)
      (hpolls : towers.Polls task world progress world') :
      Progress.Warns calling start failures (progress, world') := by
    obtain ⟨_, depth, hpoll⟩ := hpolls
    rw [poll_eq] at hpoll
    rw [← hpoll]
    exact htask.round (h.entry start depth) (Subset.refl _) hworld
  induction hends generalizing failures with
  | now done =>
    cases hround htask hworld done with
    | done _ warned known => exact ⟨_, warned, known⟩
  | later waits _ ih =>
    cases hround htask hworld waits with
    | pending _ warned rests => exact ih rests warned

end Towers

end ChainExpr
