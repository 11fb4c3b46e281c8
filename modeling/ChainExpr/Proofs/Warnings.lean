import ChainExpr.Proofs.Failures
import ChainExpr.Proofs.Abort
import ChainExpr.Proofs.StockWaits

namespace ChainExpr

/-- An error told by the warnings that go with it as the only failure. -/
def Account.warned (calling : String → Prop) : Account where
  silent event := warnings [event] = []
  raised error entries := Warned calling [error] (warnings (entries.map .log))
  added error entries := ∀ earlier, Warned calling [error] earlier →
    Warned calling [error] (earlier ++ warnings (entries.map .log))
  silent_resume _ := rfl
  raised_added error entries later hraised hadded := by
    rw [List.map_append, warnings_append]
    exact hadded _ hraised
  added_append error entries later hadded hadded' earlier hearlier := by
    rw [List.map_append, warnings_append, ← List.append_assoc]
    exact hadded' _ (hadded _ hearlier)

namespace Towers

/-- The bottom of each tower rejects what nobody knows. Implementations fail with errors of their own
only under the names of their functions, and otherwise with errors of what they have called; and they
call function values only if their functions have names of a certain kind. -/
structure FailsByName (towers : Towers) (calling : String → Prop) : Prop where
  rejects : ∀ equipment name answer, ¬ towers.Within (.mk equipment (.custom name answer))
  functions : ∀ interpreter, towers.Within interpreter → ∀ name definition,
    interpreter.functions.lookup name = some definition → ∀ context arguments,
      (definition.implementation context arguments).FailsWith
        (fun error => ∃ message, error = .function definition.name message)
        (calling definition.name) []

variable {towers : Towers} {calling : String → Prop}

/-- A link that passes on an error of another name, or no failure of a function, does not warn. -/
theorem failureEntry_cases (definition : FunctionDefinition) (error : RuntimeError) :
    (∃ message, error = .function definition.name message ∧
      definition.failureEntry error = .functionFailed definition.name error) ∨
    (definition.failureEntry error).level = .debug := by
  cases error with
  | function name message =>
    by_cases hname : name = definition.name
    · subst hname
      exact .inl ⟨message, rfl, if_pos rfl⟩
    · exact .inr (by rw [FunctionDefinition.failureEntry, if_neg hname]; rfl)
  | _ => exact .inr rfl

theorem failureEntry_own (definition : FunctionDefinition) (message : String) :
    definition.failureEntry (.function definition.name message) =
      .functionFailed definition.name (.function definition.name message) := if_pos rfl

/-- Everything that the towers evaluate warns of its failures. -/
theorem FailsByName.keeps (h : towers.FailsByName calling) :
    towers.Keeps fun task => ∀ failures, task.Warns calling failures where
  ok value failures := .ok value
  silent hdebug hnext failures := .silent (warnings_silent hdebug) (hnext failures)
  create hnext failures := .create fun serial => hnext serial failures
  bind htask hnext failures := by
    refine (htask failures).andThen fun more hmore outcome hknown => ?_
    cases outcome with
    | ok value => exact hnext value more
    | error error => exact .passed (hknown error rfl)
  both hleft hright hfail hnext failures := by
    refine .both (hleft failures) (hright failures) fun more hmore outcome hknown => ?_
    cases outcome with
    | ok values => exact hnext values more
    | error error =>
      rw [hfail]
      exact .passed (hknown error rfl)
  raised htold failures := .raised htold (.passed (by simp))
  not_callable name failures := .not_callable name (.passed (by simp))
  evaluation name htask failures := by
    refine (htask failures).andThen fun more hmore outcome hknown => ?_
    cases outcome with
    | ok values => exact .ok values
    | error error => exact .silent (warnings_debug rfl) (.passed (hknown error rfl))
  call interpreter hwithin name definition hlookup context arguments failures := by
    have hfails := h.functions interpreter hwithin name definition hlookup context arguments
    refine .silent rfl (.routine definition.name (hfails.mono (List.nil_subset _)) ?_)
    intro more hmore outcome hknown
    cases outcome with
    | ok value => exact .ok value
    | error error =>
      rcases hknown error rfl with ⟨message, rfl⟩ | ⟨hcalls, hmem⟩
      · change (Task.emit (.log (definition.failureEntry _)) (.fail _)).Warns calling more
        rw [failureEntry_own]
        exact .raised (.failed definition.name message) (.passed (by simp))
      · change (Task.emit (.log (definition.failureEntry _)) (.fail _)).Warns calling more
        rcases failureEntry_cases definition error with ⟨message, rfl, hentry⟩ | hdebug
        · rw [hentry]
          exact .again hcalls hmem (.passed hmem)
        · exact .silent (warnings_debug hdebug) (.passed hmem)
  answer equipment name answer hwithin := absurd hwithin (h.rejects equipment name answer)

/-- If implementations also end with every error of what they call, a failure is the only one. -/
theorem FailsByName.covers (h : towers.FailsByName calling) (hpasses : towers.PassesErrors) :
    (Account.warned calling).Covers towers where
  silent event hdebug := warnings_silent hdebug
  added_nothing error earlier hearlier := by
    rw [List.map_nil, warnings, List.filterMap_nil, List.append_nil]
    exact hearlier
  argument_evaluation name error earlier hearlier := by
    rw [List.map_cons, List.map_nil, warnings_debug rfl, List.append_nil]
    exact hearlier
  raised error entry htold := by
    change Warned calling [error] (warnings [.log entry])
    rw [warnings_warn htold.level]
    exact .raised .none htold
  not_callable name := .not_callable .none name
  implementation interpreter hwithin name definition hlookup context arguments := by
    have hfails := h.functions interpreter hwithin name definition hlookup context arguments
    have hends := hpasses.functions interpreter hwithin name definition hlookup context arguments
    refine ⟨_, _, hfails.passesOn hends, fun error => ⟨fun calls earlier hearlier => ?_, ?_⟩⟩
    · change Warned calling [error] (earlier ++ warnings [.log (definition.failureEntry error)])
      rcases failureEntry_cases definition error with ⟨message, rfl, hentry⟩ | hdebug
      · rw [hentry, warnings_warn rfl]
        exact .again hearlier calls (by simp)
      · rw [warnings_debug hdebug, List.append_nil]
        exact hearlier
    · rintro ⟨message, rfl⟩
      rw [failureEntry_own]
      exact .raised .none (.failed definition.name message)
  answer equipment name answer hwithin := absurd hwithin (h.rejects equipment name answer)

/-- The warnings of an evaluation go with its failures: those that functions have recovered from, and
the one that it ends with if it fails. Each is warned about exactly once, where it has arisen, unless a
reference has been called or functions of the name of a failed one call function values. Where no
function recovers, an evaluation that succeeds has had no failure, and one that fails no other one unless
some failure has been kept back. -/
theorem failures_warned (towers : Towers) (interpreter : Interpreter) (within : towers.Within interpreter)
    (calling : String → Prop) (fails : towers.FailsByName calling) (node : Node) (context : Value)
    (world : World) {polls : Nat} {outcome : Except RuntimeError Value} {world' : World}
    (ends : towers.Ends (interpreter.interpret node context) world polls outcome world') :
    ∃ events failures, world'.history = world.history ++ events ∧
      Warned calling failures (warnings events) ∧
      (∀ error, outcome = .error error → error ∈ failures) ∧
      (towers.PassesErrors → (∀ value, outcome = .ok value → failures = []) ∧
        (towers.HeedsFailures (interpreter.interpret node context) world →
          ∀ error, outcome = .error error → failures = [error])) ∧
      ((∀ name, .notCallable name ∉ failures) →
        (∀ function message, calling function → .function function message ∉ failures) →
        List.Forall₂ RuntimeError.ToldBy failures (warnings events)) := by
  -- Only where no function recovers and no failure is kept back does the account rule out another one.
  by_cases hpasses : towers.PassesErrors ∧
    (towers.HeedsFailures (interpreter.interpret node context) world ∨ ∃ value, outcome = .ok value)
  · obtain ⟨hpasses, hheeds⟩ := hpasses
    have hkeeps := (fails.covers hpasses).keeps
    cases Towers.CallsAccount.ends hkeeps.callTask (hkeeps.interpret within node context) ends with
    | @ok value _ silent =>
      obtain ⟨events, hevents, hhistory⟩ := silent
      have hwarned : Warned calling [] (warnings events) := by
        rw [warnings_of_silent hevents]
        exact .none
      refine ⟨events, [], hhistory, hwarned, ?_, fun _ => ⟨fun _ _ => rfl, ?_⟩, hwarned.once⟩
      · rintro _ ⟨⟩
      · rintro _ _ ⟨⟩
    | @failed error _ told =>
      obtain ⟨events, entries, hevents, hraised, hhistory⟩ := told
      have hwarned : Warned calling [error] (warnings (events ++ entries.map .log)) := by
        rw [warnings_append, warnings_of_silent hevents]
        exact hraised
      refine ⟨events ++ entries.map .log, [error], by rw [hhistory, List.append_assoc], hwarned, ?_,
        fun _ => ⟨?_, ?_⟩, hwarned.once⟩
      · rintro _ ⟨⟩
        exact List.mem_singleton_self _
      · rintro _ ⟨⟩
      · rintro _ _ ⟨⟩
        rfl
    | kept_back keeps doomed =>
      rcases hheeds with heeds | ⟨value, rfl⟩
      · exact absurd heeds keeps
      · cases doomed
  · have hkeeps := fails.keeps
    obtain ⟨failures, ⟨events, hhistory, hwarned⟩, hknown⟩ :=
      Towers.CallsWarn.ends hkeeps.callTask (hkeeps.interpret within node context [])
        (.refl calling world) ends
    exact ⟨events, failures, hhistory, hwarned, hknown,
      fun h => ⟨fun value hvalue => absurd ⟨h, .inr ⟨value, hvalue⟩⟩ hpasses,
        fun heeds => absurd ⟨h, .inl heeds⟩ hpasses⟩, hwarned.once⟩

end Towers

namespace Stock

variable {calling : String → Prop}

theorem caller_fails_by_name {name : String} (h : calling name) (context : Value)
    (arguments : Arguments) :
    ((caller name).implementation context arguments).FailsWith
      (fun error => ∃ message, error = .function name message) (calling name) [] := by
  change (Body.call.run name context arguments).FailsWith _ _ _
  rw [Body.run]
  split
  · exact ⟨h, fun error => .inr ⟨h, List.mem_cons_self⟩, fun _ => trivial⟩
  · exact .inl ⟨"fn is required", rfl⟩

/-- An interpreter with a function that fails and one that calls what it is given. -/
def failingOrCalling : Interpreter :=
  .mk ⟨.ofList [act (.fail "no"), caller "call"], .standard, .standard, 0⟩ .rejecting

theorem failing_or_calling_fails_by_name : failingOrCalling.alone.FailsByName (· = "call") where
  rejects _ _ _ hwithin := nomatch Interpreter.within_rejecting.mp (Interpreter.within_alone.mp hwithin)
  functions := by
    intro interpreter hwithin name definition hlookup context arguments
    obtain rfl := Interpreter.within_rejecting.mp (Interpreter.within_alone.mp hwithin)
    have hmem := FunctionRegistry.mem_of_lookup_ofList hlookup
    simp only [List.mem_cons, List.not_mem_nil, or_false] at hmem
    rcases hmem with rfl | rfl
    · exact .inl ⟨"no", rfl⟩
    · exact caller_fails_by_name rfl context arguments

theorem failing_or_calling_passes_errors : failingOrCalling.alone.PassesErrors := by
  apply passes_errors_of_list
  simp only [List.forall_mem_cons]
  exact ⟨fun context arguments => Body.passes_errors "act" context arguments (.fail "no"),
    fun context arguments => Body.passes_errors "call" context arguments .call, by simp⟩

theorem failing_or_calling_never_waits : failingOrCalling.alone.NeverWaits where
  functions := by
    intro interpreter hwithin name definition hlookup context arguments
    obtain rfl := Interpreter.within_rejecting.mp (Interpreter.within_alone.mp hwithin)
    have hmem := FunctionRegistry.mem_of_lookup_ofList hlookup
    simp only [List.mem_cons, List.not_mem_nil, or_false] at hmem
    have hfail : Body.Plain (.fail "no") := trivial
    have hcall : Body.Plain .call := trivial
    rcases hmem with rfl | rfl
    · exact hfail.ready "act" context arguments
    · exact hcall.ready "call" context arguments
  answers _ _ _ hwithin := nomatch Interpreter.within_rejecting.mp (Interpreter.within_alone.mp hwithin)

/-- An interpreter that can only call what it is given. -/
def onlyCalling : Interpreter := .mk ⟨.ofList [caller "call"], .standard, .standard, 0⟩ .rejecting

theorem only_calling_fails_by_name : onlyCalling.alone.FailsByName (· = "call") where
  rejects _ _ _ hwithin := nomatch Interpreter.within_rejecting.mp (Interpreter.within_alone.mp hwithin)
  functions := by
    intro interpreter hwithin name definition hlookup context arguments
    obtain rfl := Interpreter.within_rejecting.mp (Interpreter.within_alone.mp hwithin)
    obtain rfl := List.mem_singleton.mp (FunctionRegistry.mem_of_lookup_ofList hlookup)
    exact caller_fails_by_name rfl context arguments

theorem only_calling_passes_errors : onlyCalling.alone.PassesErrors := by
  apply passes_errors_of_list
  simp only [List.forall_mem_cons]
  exact ⟨fun context arguments => Body.passes_errors "call" context arguments .call, by simp⟩

end Stock

namespace Towers

/-- The failure of what a function calls under another name is warned about once. -/
theorem failures_warned_calling :
    Stock.failingOrCalling.alone.Within Stock.failingOrCalling ∧
    Stock.failingOrCalling.alone.FailsByName (· = "call") ∧
    ∃ world entry, Stock.failingOrCalling.alone.Ends (Stock.failingOrCalling.interpret
        (.expression [⟨"call", [("fn", [.deferred [⟨"act", []⟩]])]⟩]) .null) .start 0
        (.error (.function "act" "no")) world ∧
      warnings world.history = [entry] ∧ RuntimeError.ToldBy (.function "act" "no") entry := by
  have hends : ∃ world, Stock.failingOrCalling.alone.Ends (Stock.failingOrCalling.interpret
      (.expression [⟨"call", [("fn", [.deferred [⟨"act", []⟩]])]⟩]) .null) .start 0
      (.error (.function "act" "no")) world := ⟨_, .now ⟨by simp, 1, rfl⟩⟩
  obtain ⟨world, hends⟩ := hends
  obtain ⟨events, failures, hhistory, _, _, honly, honce⟩ := failures_warned Stock.failingOrCalling.alone
    Stock.failingOrCalling ⟨0, .top⟩ (· = "call") Stock.failing_or_calling_fails_by_name _ .null .start
    hends
  have hhistory : world.history = events := hhistory
  have hheeds := Stock.failing_or_calling_never_waits.heedsFailures ⟨0, .top⟩
    (.expression [⟨"call", [("fn", [.deferred [⟨"act", []⟩]])]⟩]) .null .start
  have hfailures := (honly Stock.failing_or_calling_passes_errors).2 hheeds _ rfl
  subst hfailures
  rw [← hhistory] at honce
  have htold := honce (by simp) (by rintro _ _ rfl; simp)
  refine ⟨⟨0, .top⟩, Stock.failing_or_calling_fails_by_name, world, ?_⟩
  generalize hwarnings : warnings world.history = entries at htold
  cases htold with
  | @cons _ entry _ _ htold hrest =>
    cases hrest
    exact ⟨entry, hends, rfl, htold⟩

/-- A function that meets its own name again in what it calls warns about a failure that has been warned
about before, and the call of a reference is not warned about at all. -/
theorem failures_warned_twice_or_never :
    Stock.onlyCalling.alone.FailsByName (· = "call") ∧ Stock.onlyCalling.alone.PassesErrors ∧
    (∃ world, Stock.onlyCalling.alone.Ends (Stock.onlyCalling.interpret
        (.expression [⟨"call", [("fn", [.deferred [⟨"call", []⟩]])]⟩]) .null) .start 0
        (.error (.function "call" "fn is required")) world ∧
      warnings world.history =
        [.functionFailed "call" (.function "call" "fn is required"),
          .functionFailed "call" (.function "call" "fn is required")]) ∧
    ∃ world, Stock.onlyCalling.alone.Ends (Stock.onlyCalling.interpret
        (.expression [⟨"call", [("fn", [.reference "act"])]⟩]) .null) .start 0
        (.error (.notCallable "act")) world ∧
      warnings world.history = [] := by
  refine ⟨Stock.only_calling_fails_by_name, Stock.only_calling_passes_errors,
    ⟨_, .now ⟨by simp, 1, rfl⟩, ?twice⟩, ⟨_, .now ⟨by simp, 1, rfl⟩, ?never⟩⟩
  case twice => rfl
  case never => rfl

end Towers

end ChainExpr
