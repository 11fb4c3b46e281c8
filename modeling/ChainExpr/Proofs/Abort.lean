import ChainExpr.Proofs.Telling
import ChainExpr.Stock

namespace ChainExpr

/-- The task is about to end with an error of its own, having at most to note it before: it has come to
the error, or the routine that it runs has. -/
inductive Task.Raises (error : RuntimeError) : {α : Type} → Task α → Prop
  | finish {α : Type} : Raises error (.finish (.error error) : Task α)
  | log {α : Type} {next : Task α} (entry : LogEntry) (later : Raises error next) :
      Raises error (.emit (.log entry) next)
  | routine {α : Type} (function : String) (next : Except RuntimeError Value → Task α) :
      Raises error (.routine function (.finish (.error error)) next)

/-- Every error is told somehow. -/
def Account.any : Account where
  silent _ := True
  raised _ _ := True
  added _ _ := True
  silent_resume _ := trivial
  raised_added _ _ _ _ _ := trivial
  added_append _ _ _ _ _ := trivial

namespace Towers

/-- Implementations and hosts end with every error of a function value that they call. -/
structure PassesErrors (towers : Towers) : Prop where
  functions : ∀ interpreter, towers.Within interpreter → ∀ name definition,
    interpreter.functions.lookup name = some definition → ∀ context arguments,
      (definition.implementation context arguments).PassesOn (fun _ => True) True
  answers : ∀ equipment name answer, towers.Within (.mk equipment (.custom name answer)) →
    ∀ chain context, (answer chain context).PassesOn (fun _ => True) True

end Towers

variable {α β : Type} {mode : JoinMode} {towers : Towers} {error : RuntimeError}

/-- Where all errors are told somehow, a task may have any error to tell. -/
theorem Task.Fails.accounts {entries : List LogEntry} {task : Task α}
    (h : task.Fails error entries) : task.Accounts .any := .failing h trivial

namespace Task.Accounts

theorem of_emit {event : Event} {next : Task α} (h : (Task.emit event next).Accounts .any) :
    next.Accounts .any := by
  cases h with
  | failing fails _ =>
    cases fails with
    | log _ later => exact later.accounts
  | emit _ later => exact later

theorem of_create {next : Nat → Task α} (h : (Task.create next).Accounts .any) (serial : Nat) :
    (next serial).Accounts .any := by
  cases h with
  | failing fails _ => cases fails
  | create later => exact later serial

/-- Either the routine has failed, or it passes on errors and what comes behind it notes them. -/
theorem of_routine {function : String} {body : Routine} {next : Except RuntimeError Value → Task α}
    (h : (Task.routine function body next).Accounts .any) :
    (∃ error entries, body = .finish (.error error) ∧ (next (.error error)).Fails error entries) ∨
    ∃ own calls, body.PassesOn own calls ∧
      (∀ error, ∃ entries, (next (.error error)).Fails error entries) ∧
      ∀ value, (next (.ok value)).Accounts .any := by
  cases h with
  | failing fails _ =>
    cases fails with
    | routine _ later => exact .inl ⟨_, _, rfl, later⟩
  | routine _ passes fails later =>
    refine .inr ⟨_, _, passes, fun error => ?_, later⟩
    obtain ⟨entries, hentries, _⟩ := fails error
    exact ⟨entries, hentries⟩

theorem of_both {γ : Type} {left : Task β} {right : Task γ}
    {next : Except RuntimeError (β × γ) → Task α} (h : (Task.both mode left right next).Accounts .any) :
    left.Accounts .any ∧ right.Accounts .any ∧
      (∀ error, ∃ entries, (next (.error error)).Fails error entries) ∧
      ∀ values, (next (.ok values)).Accounts .any := by
  cases h with
  | failing fails _ => cases fails
  | both lefts rights fails later =>
    refine ⟨lefts, rights, fun error => ?_, later⟩
    obtain ⟨entries, hentries, _⟩ := fails error
    exact ⟨entries, hentries⟩

/-- What comes behind a routine that has its outcome notes the error or goes on. -/
theorem of_finish {function : String} {outcome : Except RuntimeError Value}
    {next : Except RuntimeError Value → Task α}
    (h : (Task.routine function (.finish outcome) next).Accounts .any) : (next outcome).Accounts .any := by
  rcases h.of_routine with ⟨_, _, ⟨⟩, hentries⟩ | ⟨_, _, _, fails, later⟩
  · exact hentries.accounts
  · cases outcome with
    | ok value => exact later value
    | error error => exact (fails error).choose_spec.accounts

/-- A routine that has not ended yet may go on as any other one that passes on errors. -/
theorem goes_on {function : String} {body body' : Routine}
    {next : Except RuntimeError Value → Task α}
    (h : (Task.routine function body next).Accounts .any)
    (hunfinished : ∀ outcome, body ≠ .finish outcome)
    (hbody : ∀ own calls, body.PassesOn own calls → body'.PassesOn own calls) :
    (Task.routine function body' next).Accounts .any := by
  rcases h.of_routine with ⟨error, _, hfinish, _⟩ | ⟨own, calls, passes, fails, later⟩
  · exact absurd hfinish (hunfinished _)
  · refine .routine function (hbody own calls passes) (fun error => ?_) later
    obtain ⟨entries, hentries⟩ := fails error
    exact ⟨entries, hentries, fun _ => trivial, fun _ => trivial⟩

/-- A routine that has called a function value goes on with its value or ends with its error. -/
theorem of_call {function : String} {callee : Callable} {context : Value}
    {body : Except RuntimeError Value → Routine} {next : Except RuntimeError Value → Task α}
    (h : (Task.routine function (.call callee context body) next).Accounts .any)
    (outcome : Except RuntimeError Value) : (Task.routine function (body outcome) next).Accounts .any := by
  rcases h.of_routine with ⟨_, _, ⟨⟩, _⟩ | ⟨_, _, passes, fails, _⟩
  cases outcome with
  | ok value => exact h.goes_on (by simp) fun _ _ passes => passes.2.2 value
  | error error =>
    rw [passes.2.1]
    exact (Task.Fails.routine function (fails error).choose_spec).accounts

end Task.Accounts

theorem Task.Raises.fails {task : Task α} (h : task.Raises error) (htask : task.Accounts .any) :
    ∃ entries, task.Fails error entries := by
  induction h with
  | finish => exact ⟨[], .finish⟩
  | log entry _ ih =>
    obtain ⟨entries, hentries⟩ := ih htask.of_emit
    exact ⟨entry :: entries, .log entry hentries⟩
  | routine function next =>
    rcases htask.of_routine with ⟨_, entries, ⟨⟩, hentries⟩ | ⟨_, _, _, fails, _⟩
    · exact ⟨entries, .routine function hentries⟩
    · obtain ⟨entries, hentries⟩ := fails error
      exact ⟨entries, .routine function hentries⟩

namespace Towers

/-- What is left of a task that passes on errors passes them on, wherever it goes on. -/
theorem Step.accounts (hcalls : towers.CallsAccount .any) {a b : Task α × World}
    (h : towers.Step a b) (ha : a.1.Accounts .any) : b.1.Accounts .any := by
  induction h with
  | emit => exact ha.of_emit
  | create next world => exact ha.of_create world.serial
  | finish function outcome next world => exact ha.of_finish
  | elapse => exact ha.goes_on (by simp) fun _ _ passes => passes
  | resume => exact ha.goes_on (by simp) fun _ _ passes => passes
  | arrive => exact ha.goes_on (by simp) fun _ _ passes => passes
  | meet => exact ha.goes_on (by simp) fun _ _ passes => passes
  | tick function body next world => exact ha.goes_on (by simp) fun _ _ passes => passes world.ticks
  | call function callee context body next world =>
    refine (hcalls callee context).andThen (fun error => ?_) fun value => ha.of_call (.ok value)
    rcases ha.of_routine with ⟨_, _, ⟨⟩, _⟩ | ⟨_, _, passes, fails, _⟩
    obtain ⟨entries, hentries⟩ := fails error
    rw [passes.2.1]
    exact ⟨entries, .routine function hentries, trivial⟩
  | left right next _ ih =>
    obtain ⟨hleft, hright, fails, later⟩ := ha.of_both
    exact .both (ih hleft) hright (fun error => (fails error).imp fun _ h => ⟨h, trivial⟩) later
  | right left next _ ih =>
    obtain ⟨hleft, hright, fails, later⟩ := ha.of_both
    exact .both hleft (ih hright) (fun error => (fails error).imp fun _ h => ⟨h, trivial⟩) later
  | joined a b next world => exact ha.of_both.2.2.2 (a, b)
  | left_failed error right next world => exact (ha.of_both.2.2.1 error).choose_spec.accounts
  | right_failed error heeded next world => exact (ha.of_both.2.2.1 error).choose_spec.accounts

/-- A round in which a part fails is over with the error, and but for notes of the error at the point
where the part has failed, unless the failure is kept back. -/
theorem Visits.fails (hcalls : towers.CallsAccount .any) {footing : Footing} {task : Task α}
    {part : Task β} {world world' : World} (h : towers.Visits footing task world part world')
    (hclear : footing = .clear) (htask : task.Accounts .any) (hraises : part.Raises error) :
    ∃ entries, towers.Polls task world (.done (.error error)) (world'.note entries) := by
  -- From the part outwards: whatever it is inside of ends with the error too, after at most a note of it.
  induction h with
  | here task world =>
    obtain ⟨entries, hfails⟩ := hraises.fails htask
    exact ⟨entries, polls_fails hfails world⟩
  | emit _ ih =>
    obtain ⟨entries, hpolls⟩ := ih hclear htask.of_emit hraises
    exact ⟨entries, polls_emit.mpr hpolls⟩
  | @create _ _ _ _ world _ _ _ ih =>
    obtain ⟨entries, hpolls⟩ := ih hclear (htask.of_create world.serial) hraises
    exact ⟨entries, polls_create.mpr hpolls⟩
  | finish _ ih =>
    obtain ⟨entries, hpolls⟩ := ih hclear htask.of_finish hraises
    exact ⟨entries, polls_routine_finish.mpr hpolls⟩
  | resume _ ih =>
    obtain ⟨entries, hpolls⟩ := ih hclear (htask.goes_on (by simp) fun _ _ passes => passes) hraises
    exact ⟨entries, polls_resume.mpr hpolls⟩
  | arrive _ ih =>
    obtain ⟨entries, hpolls⟩ := ih hclear (htask.goes_on (by simp) fun _ _ passes => passes) hraises
    exact ⟨entries, polls_arrive.mpr hpolls⟩
  | meet arrived _ ih =>
    obtain ⟨entries, hpolls⟩ := ih hclear (htask.goes_on (by simp) fun _ _ passes => passes) hraises
    exact ⟨entries, (polls_meet arrived).mpr hpolls⟩
  | @tick _ _ _ _ _ _ world _ _ _ ih =>
    have hbody := htask.goes_on (by simp) fun _ _ passes => passes world.ticks
    obtain ⟨entries, hpolls⟩ := ih hclear hbody hraises
    exact ⟨entries, polls_tick.mpr hpolls⟩
  | @inside _ _ _ function callee context body _ last _ next _ ih =>
    obtain ⟨entries, hcalled⟩ := ih hclear (hcalls callee context) hraises
    rcases htask.of_routine with ⟨_, _, ⟨⟩, _⟩ | ⟨_, _, passes, fails, _⟩
    obtain ⟨later, hlater⟩ := fails error
    refine ⟨entries ++ later, polls_call.mpr (polls_andThen.mpr (.inl ⟨_, _, hcalled, ?_⟩))⟩
    rw [passes.2.1, polls_routine_finish, World.note_append]
    exact polls_fails hlater _
  | returned called _ ih =>
    obtain ⟨entries, hpolls⟩ := ih hclear (htask.of_call _) hraises
    exact ⟨entries, polls_call.mpr (polls_andThen.mpr (.inl ⟨_, _, called, hpolls⟩))⟩
  | left right next _ ih =>
    obtain ⟨hleft, _, fails, _⟩ := htask.of_both
    obtain ⟨entries, hpolls⟩ := ih hclear hleft hraises
    obtain ⟨later, hlater⟩ := fails error
    refine ⟨entries ++ later, polls_both_left_failed hpolls ?_⟩
    rw [World.note_append]
    exact polls_fails hlater _
  | right next lefts stays heeded _ ih =>
    obtain ⟨_, hright, fails, _⟩ := htask.of_both
    obtain ⟨entries, hpolls⟩ := ih hclear hright hraises
    obtain ⟨later, hlater⟩ := fails error
    refine ⟨entries ++ later, polls_both_right_failed lefts stays hpolls heeded ?_⟩
    rw [World.note_append]
    exact polls_fails hlater _
  | behind => cases hclear
  | joined lefts rights _ ih =>
    obtain ⟨_, _, _, later⟩ := htask.of_both
    obtain ⟨entries, hpolls⟩ := ih hclear (later _) hraises
    exact ⟨entries, polls_both_joined lefts rights hpolls⟩
  | left_failed _ lefts _ ih =>
    obtain ⟨_, _, fails, _⟩ := htask.of_both
    obtain ⟨entries, hpolls⟩ := ih hclear (fails _).choose_spec.accounts hraises
    exact ⟨entries, polls_both_left_failed lefts hpolls⟩
  | right_failed lefts stays rights heeded _ ih =>
    obtain ⟨_, _, fails, _⟩ := htask.of_both
    obtain ⟨entries, hpolls⟩ := ih hclear (fails _).choose_spec.accounts hraises
    exact ⟨entries, polls_both_right_failed lefts stays rights heeded hpolls⟩

theorem Runs.accounts (hcalls : towers.CallsAccount .any) {a b : Task α × World}
    (h : towers.Runs a b) (ha : a.1.Accounts .any) : b.1.Accounts .any := by
  induction h with
  | refl => exact ha
  | tail _ step ih => exact step.accounts hcalls ih

theorem PassesErrors.covers (h : towers.PassesErrors) : Account.any.Covers towers where
  silent _ _ := trivial
  added_nothing _ := trivial
  argument_evaluation _ _ := trivial
  raised _ _ _ := trivial
  not_callable _ := trivial
  implementation interpreter hwithin name definition hlookup context arguments :=
    ⟨_, _, h.functions interpreter hwithin name definition hlookup context arguments,
      fun _ => ⟨fun _ => trivial, fun _ => trivial⟩⟩
  answer equipment name answer hwithin chain context :=
    ⟨_, _, h.answers equipment name answer hwithin chain context, fun _ _ => trivial⟩

/-- In whatever round of an evaluation any part of it fails, however deep inside and however much else is
pending, the evaluation ends in that round with exactly that error; and apart from log entries nothing
has happened since the part has failed: the history has no further event, and no counter has moved. The
only parts of which this is not so stand behind one that is pending where so many are joined that a
failure does not count at once. -/
theorem error_ends_evaluation (towers : Towers) (interpreter : Interpreter)
    (within : towers.Within interpreter) (passes : towers.PassesErrors) (node : Node) (context : Value)
    (world : World) {polls : Nat} {rest : Task Value} {middle : World}
    (pends : towers.Pends (interpreter.interpret node context) world polls rest middle) {β : Type}
    {part : Task β} {world' : World} (visits : towers.Visits .clear rest middle part world')
    {error : RuntimeError} (raises : part.Raises error) :
    ∃ entries : List LogEntry,
      towers.Ends (interpreter.interpret node context) world polls (.error error)
        (world'.note entries) ∧
      (∃ depth, ∀ deeper, depth ≤ deeper → ∀ rounds, polls < rounds →
        towers.drive deeper rounds (interpreter.interpret node context) world =
          (.done (.error error), world'.note entries)) ∧
      (world'.note entries).history = world'.history ++ entries.map .log ∧
      (world'.note entries).forget = world'.forget := by
  have hkeeps := passes.covers.keeps
  have hrest := pends.runs.accounts hkeeps.callTask (hkeeps.interpret within node context)
  obtain ⟨entries, hpolls⟩ := visits.fails hkeeps.callTask rfl hrest raises
  have hends := pends.ends hpolls
  exact ⟨entries, hends, drive_of_ends hends, World.history_note world' entries,
    World.forget_note world' entries⟩

end Towers

namespace Stock

theorem pipe_passes_errors (name : String) (values : List Value) (result : Value) :
    (pipe name values result).PassesOn (fun _ => True) True := by
  induction values generalizing result with
  | nil => trivial
  | cons value rest ih =>
    cases value with
    | function callable => exact ⟨trivial, fun _ => rfl, ih⟩
    | _ => trivial

/-- Every stock function ends with the errors of what it calls. -/
theorem Body.passes_errors (name : String) (context : Value) (arguments : Arguments) (body : Body) :
    (body.run name context arguments).PassesOn (fun _ => True) True := by
  induction body with
  | call =>
    rw [run]
    split
    · exact ⟨trivial, fun _ => rfl, fun _ => trivial⟩
    · trivial
  | pipe => exact pipe_passes_errors name _ context
  | tick => exact fun _ => trivial
  | yield polls body ih => exact ih
  | meet point count body ih => exact ih
  | _ => trivial

/-- An interpreter passes on errors if its functions do. -/
theorem passes_errors_of_list {definitions : List FunctionDefinition} {types : TypeRegistry}
    {config : EvaluationConfig}
    (h : ∀ definition ∈ definitions, ∀ context arguments,
      (definition.implementation context arguments).PassesOn (fun _ => True) True) :
    (Interpreter.mk ⟨.ofList definitions, types, config, 0⟩ .rejecting).alone.PassesErrors where
  functions := by
    intro interpreter hwithin name definition hlookup
    obtain rfl := Interpreter.within_rejecting.mp (Interpreter.within_alone.mp hwithin)
    exact h definition (FunctionRegistry.mem_of_lookup_ofList hlookup)
  answers _ _ _ hwithin := nomatch Interpreter.within_rejecting.mp (Interpreter.within_alone.mp hwithin)

/-- A function of any context and of two arguments, with a stock body. -/
def pairing (name : String) (body : Body) : FunctionDefinition where
  name := name
  returns := none
  contextTypes := none
  signature := .ofList [⟨"left", [], none, false, [], ""⟩, ⟨"right", [], none, false, [], ""⟩]
  aliases := []
  help := ""
  implementation := fun context arguments => body.run name context arguments

theorem pairing_passes_errors (name : String) (body : Body) (context : Value) (arguments : Arguments) :
    ((pairing name body).implementation context arguments).PassesOn (fun _ => True) True :=
  Body.passes_errors name context arguments body

/-- An interpreter with a function that takes its time and another one that fails earlier. -/
def racing : Interpreter :=
  .mk ⟨.ofList [pairing "pair" .context, pairing "wait" (.yield 5 .context),
    pairing "fail" (.yield 1 (.fail "no"))], .standard, .standard, 0⟩ .rejecting

theorem racing_passes_errors : racing.alone.PassesErrors := by
  apply passes_errors_of_list
  simp only [List.forall_mem_cons]
  exact ⟨pairing_passes_errors _ _, pairing_passes_errors _ _, pairing_passes_errors _ _, by simp⟩

end Stock

/-- The left argument is still waiting when the right one fails, and is not resumed any more. -/
theorem Towers.error_ends_evaluation_racing :
    Stock.racing.alone.Within Stock.racing ∧ Stock.racing.alone.PassesErrors ∧
    ∃ world', Stock.racing.alone.Ends (Stock.racing.interpret (.expression [⟨"pair",
        [("left", [.expression [⟨"wait", []⟩]]), ("right", [.expression [⟨"fail", []⟩]])]⟩]) .null)
      .start 1 (.error (.function "fail" "no")) world' := by
  have hpends : ∃ rest middle, Stock.racing.alone.Pends (Stock.racing.interpret (.expression [⟨"pair",
        [("left", [.expression [⟨"wait", []⟩]]), ("right", [.expression [⟨"fail", []⟩]])]⟩]) .null)
      .start 1 rest middle ∧
      ∃ (part : Task Value) (world' : World), Stock.racing.alone.Visits .clear rest middle part world' ∧
        part.Raises (.function "fail" "no") :=
    ⟨_, _, .later ⟨by simp, 0, rfl⟩ (.now _ _), _, _,
      .right _ ⟨by simp, 0, rfl⟩ (.pending _) (.inl rfl) (.left _ _ (.left _ _ (.resume (.here _ _)))),
      .routine _ _⟩
  obtain ⟨rest, middle, hpends, part, world', hvisits, hraises⟩ := hpends
  obtain ⟨entries, hends, _⟩ := error_ends_evaluation Stock.racing.alone Stock.racing ⟨0, .top⟩
    Stock.racing_passes_errors _ .null .start hpends hvisits hraises
  exact ⟨⟨0, .top⟩, Stock.racing_passes_errors, _, hends⟩

namespace Stock

/-- An interpreter with a function that takes its time, one that fails and one that does neither. -/
def crowded : Interpreter :=
  .mk ⟨.ofList [pairing "pair" .context, pairing "slow" (.yield 1 .context),
    pairing "fail" (.fail "no"), pairing "step" .context], .standard, .standard, 0⟩ .rejecting

theorem crowded_passes_errors : crowded.alone.PassesErrors := by
  apply passes_errors_of_list
  simp only [List.forall_mem_cons]
  exact ⟨pairing_passes_errors _ _, pairing_passes_errors _ _, pairing_passes_errors _ _,
    pairing_passes_errors _ _, by simp⟩

/-- More values of one argument than are joined so that the first failure counts. -/
def crowd : Node :=
  .expression [⟨"pair", [("left", .expression [⟨"slow", []⟩] :: .expression [⟨"fail", []⟩] ::
    List.replicate 29 (.expression [⟨"step", []⟩])), ("right", [.expression [⟨"nowhere", []⟩]])]⟩]

end Stock

/-- The second of 31 values fails while the first one waits. The other 29 values are evaluated all the
same, and the evaluation ends with the error of the next argument. -/
theorem Towers.failure_kept_back :
    Stock.crowded.alone.PassesErrors ∧ ∃ (part : Task Value) (failed world : World),
      Stock.crowded.alone.Visits .behind (Stock.crowded.interpret Stock.crowd .null) .start part
        failed ∧
      part.Raises (.function "fail" "no") ∧
      (failed.history.filter (Event.isReported false)).length = 2 ∧
      Stock.crowded.alone.Ends (Stock.crowded.interpret Stock.crowd .null) .start 0
        (.error (.functionNotRegistered "nowhere")) world ∧
      (world.history.filter (Event.isReported false)).length = 31 := by
  have hturn : ∃ (rest : Task (List Value)) (middle : World) (part : Task Value) (failed : World),
      Stock.crowded.alone.Polls (.both .inOrder (.ok [])
          (Stock.crowded.interpret (.expression [⟨"slow", []⟩]) .null)
          (Task.together fun values value => values ++ [value])) .start (.pending rest) middle ∧
      Stock.crowded.alone.Visits .clear (Stock.crowded.interpret (.expression [⟨"fail", []⟩]) .null)
        middle part failed ∧
      part.Raises (.function "fail" "no") ∧
      (failed.history.filter (Event.isReported false)).length = 2 :=
    ⟨_, _, _, _, ⟨by simp, 0, rfl⟩, .emit (.here _ _), .routine _ _, rfl⟩
  obtain ⟨rest, middle, part, failed, hslow, hfail, hraises, hbefore⟩ := hturn
  -- The joined tasks are nested to the left, with the waiting one and the failing one innermost.
  have hjoined := Towers.Visits.joinInOrder
    (List.replicate 29 (Stock.crowded.interpret (.expression [⟨"step", []⟩]) .null))
    (.behind (Task.together fun values value => values ++ [value]) hslow hfail)
  have hends : ∃ world, Stock.crowded.alone.Ends (Stock.crowded.interpret Stock.crowd .null) .start 0
        (.error (.functionNotRegistered "nowhere")) world ∧
      (world.history.filter (Event.isReported false)).length = 31 :=
    ⟨_, .now ⟨by simp, 0, rfl⟩, rfl⟩
  obtain ⟨world, hends, hafter⟩ := hends
  exact ⟨Stock.crowded_passes_errors, part, failed, world, .left _ _ hjoined, hraises, hbefore, hends,
    hafter⟩

end ChainExpr
