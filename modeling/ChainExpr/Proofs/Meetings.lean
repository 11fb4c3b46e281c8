import ChainExpr.Proofs.Attendance
import ChainExpr.Proofs.Siblings
import Mathlib.Algebra.GroupWithZero.Nat

namespace ChainExpr

variable {α β γ : Type} {mode : JoinMode}

namespace Towers

variable {towers : Towers} {point : String} {count owed turns : Nat}

/-- Too few have arrived to go on. -/
theorem polls_missing {function : String} {body : Routine} {next : Except RuntimeError Value → Task α}
    {world : World} (missing : world.arrivals point < count) :
    towers.Polls (.routine function (.await point count body) next) world
      (.pending (.routine function (.await point count body) next)) world := by
  refine .of_round (by simp) 0 ?_
  simp only [Task.round, Routine.round, if_neg (Nat.not_le_of_lt missing)]

/-- Two parts neither of which can fail have only so much to do, in whatever order they go on. -/
theorem Attends.acc_both {left : Task β} {right : Task γ} {next : Except RuntimeError (β × γ) → Task α}
    {owedl turnsl owedr turnsr : Nat} (lefts : towers.Attends point count left owedl turnsl)
    (rights : towers.Attends point count right owedr turnsr) (hleft : Acc towers.Remains left)
    (hright : Acc towers.Remains right)
    (hnext : ∀ first second a b, towers.Yields left first a → towers.Yields right second b →
      Acc towers.Remains (next (.ok (a, b)))) : Acc towers.Remains (.both mode left right next) := by
  induction hleft generalizing right owedl turnsl owedr turnsr with
  | intro left hleft ihl =>
    induction hright generalizing owedr turnsr with
    | intro right hright ihr =>
      apply acc_of_steps
      intro world world' rest step
      cases step with
      | left _ _ step =>
        obtain ⟨_, _, hattends, _, _, hyields⟩ := lefts.step step
        refine ihl _ ⟨world, world', step⟩ hattends rights ⟨right, hright⟩ fun first second a b ha hb => ?_
        obtain ⟨more, ha⟩ := hyields first a ha
        exact hnext more second a b ha hb
      | right _ _ step =>
        obtain ⟨_, _, hattends, _, _, hyields⟩ := rights.step step
        refine ihr _ ⟨world, world', step⟩ hattends fun first second a b ha hb => ?_
        obtain ⟨more, hb⟩ := hyields second b hb
        exact hnext first more a b ha hb
      | joined a b => exact hnext [] [] a b (.finish a) (.finish b)
      | left_failed => cases lefts
      | right_failed => cases rights

/-- There is only so much to be done for who comes to a meeting point. -/
theorem Attends.acc {task : Task α} (h : towers.Attends point count task owed turns) :
    Acc towers.Remains task := by
  induction h with
  | finish value => exact acc_of_steps fun step => absurd step not_step_finish
  | emit _ _ ih | outcome _ ih | elsewhere _ _ ih | arrived _ _ ih | call _ ih =>
    apply acc_of_steps
    rintro _ _ _ ⟨⟩
    exact ih
  | create _ ih | tick _ ih =>
    apply acc_of_steps
    rintro _ _ _ ⟨⟩
    exact ih _
  | wait polls _ ih =>
    induction polls with
    | zero =>
      apply acc_of_steps
      rintro _ _ _ ⟨⟩
      exact ih
    | succ polls ihp =>
      apply acc_of_steps
      rintro _ _ _ ⟨⟩
      exact ihp
  | meet _ _ ih =>
    -- an arrival, and then the end of the turn
    apply acc_of_steps
    rintro _ _ _ ⟨⟩
    apply acc_of_steps
    rintro _ _ _ ⟨⟩
    exact ih
  | both lefts rights _ _ ihl ihr ih => exact lefts.acc_both rights ihl ihr ih

/-- The task has a round, which does not fail and is a move of it. -/
def MovesOn (towers : Towers) (task : Task α) (world : World) : Prop :=
  ∃ stands rest world', towers.Polls task world stands world' ∧ stands.Stays rest ∧
    towers.Moves task world rest world'

/-- What is polled as something that it steps to moves on as that does. -/
theorem MovesOn.after {task task' : Task α} {world middle : World} (h : towers.MovesOn task' middle)
    (hpolls : ∀ {stands world'}, towers.Polls task' middle stands world' →
      towers.Polls task world stands world')
    (hsteps : Relation.TransGen towers.Step (task, world) (task', middle)) :
    towers.MovesOn task world := by
  obtain ⟨stands, rest, world', hround, hstays, hmoves⟩ := h
  exact ⟨stands, rest, world', hpolls hround, hstays, .steps (hmoves.after hsteps)⟩

/-- Who comes to a meeting point moves on, as far as others have come. -/
theorem Attends.movesOn {task : Task α} (h : towers.Attends point count task owed turns)
    (world : World) : towers.MovesOn task world := by
  induction h generalizing world with
  | finish value =>
    exact ⟨_, _, world, polls_finish (.ok value) world, .ok value, .done (.ok value) world⟩
  | @emit _ entry next _ _ _ ih => exact (ih _).after polls_emit.mpr (.single (.emit entry next world))
  | @create _ next _ _ _ ih =>
    exact (ih world.serial world.take).after polls_create.mpr (.single (.create next world))
  | @outcome _ function outcome next _ _ _ ih =>
    exact (ih world).after polls_routine_finish.mpr (.single (.finish function outcome next world))
  | @wait _ function polls body next _ _ _ ih =>
    cases polls with
    | zero => exact (ih _).after polls_resume.mpr (.single (.resume function body next world))
    | succ polls =>
      exact ⟨_, _, world, polls_wait function polls body next world, .pending _,
        .steps (.single (.elapse function polls body next world))⟩
  | @elsewhere _ function other body next _ _ _ _ ih =>
    exact (ih _).after polls_arrive.mpr (.single (.arrive function other body next world))
  | @tick _ function body next _ _ _ ih =>
    exact (ih world.ticks world.tick).after polls_tick.mpr (.single (.tick function body next world))
  | @meet _ function body next _ _ _ _ ih =>
    have harrive : towers.Step (.routine function (.meet point count body) next, world)
        (.routine function (.await point count body) next, world.arrive point) :=
      .arrive function point _ next world
    by_cases henough : count ≤ (world.arrive point).arrivals point
    · have hpass := @Step.meet towers _ function point count body next (world.arrive point) henough
      exact (ih _).after (fun hround => polls_arrive.mpr ((polls_meet henough).mpr hround))
        (.tail (.single harrive) hpass)
    · exact ⟨_, _, _, polls_arrive.mpr (polls_missing (Nat.lt_of_not_le henough)), .pending _,
        .steps (.single harrive)⟩
  | @arrived _ function body next _ _ _ _ ih =>
    by_cases henough : count ≤ world.arrivals point
    · exact (ih _).after (polls_meet henough).mpr
        (.single (.meet function point count body next world henough))
    · have hmissing := Nat.lt_of_not_le henough
      exact ⟨_, _, world, polls_missing hmissing, .pending _, .heldUp (.await hmissing)⟩
  | @call _ function callee context body next _ _ _ ih =>
    exact (ih world).after polls_call.mpr (.single (.call function callee context body next world))
  | @both _ _ _ mode left right next _ _ _ _ _ _ lefts rights _ _ ihl ihr ih =>
    obtain ⟨standsl, restl, middle, hleft, hstaysl, hmovesl⟩ := ihl world
    obtain ⟨standsr, restr, last, hright, hstaysr, hmovesr⟩ := ihr middle
    have hpending (hwaits : standsl = .pending restl ∨ standsr = .pending restr) :
        towers.MovesOn (.both mode left right next) world := by
      refine ⟨_, _, last, polls_both_pending next hleft hstaysl hright hstaysr hwaits, .pending _,
        hmovesl.both next hmovesr ?_ ?_ ?_⟩
      · rintro error rfl
        cases lefts
      · rintro error rfl
        cases rights
      · rintro a b rfl rfl
        obtain ⟨rfl, -⟩ := hleft.unique (polls_finish (.ok a) world)
        obtain ⟨rfl, -⟩ := hright.unique (polls_finish (.ok b) middle)
        rcases hwaits with hwaits | hwaits <;> cases hwaits
    cases hstaysl with
    | pending restl => exact hpending (.inl rfl)
    | ok a =>
      cases hstaysr with
      | pending restr => exact hpending (.inr rfl)
      | ok b =>
        obtain ⟨first, ha⟩ := lefts.yields_of_runs hmovesl.runs
        obtain ⟨second, hb⟩ := rights.yields_of_runs hmovesr.runs
        have hparts := hmovesl.runs.parts hmovesr.runs mode next
        have hjoined := @Step.joined towers _ _ _ mode a b next last
        exact (ih first second a b ha hb last).after (polls_both_joined hleft hright)
          (.tail' hparts hjoined)

/-- Rounds of a task that waits in one turn at most come to its value, if enough arrive. -/
theorem Attends.ends {task : Task α} (h : towers.Attends point count task owed turns)
    (hturns : turns ≤ 1) (world : World) (henough : count ≤ owed + world.arrivals point) :
    ∃ polls value world', towers.Ends task world polls (.ok value) world' := by
  induction h.acc.transGen generalizing owed turns world with
  | intro task _ ih =>
    obtain ⟨stands, rest, middle, hround, hstays, hmoves⟩ := h.movesOn world
    cases hstays with
    | ok value => exact ⟨0, value, middle, .now hround⟩
    | pending rest =>
      cases hmoves with
      | done outcome => cases (hround.unique (polls_finish outcome world)).1
      | heldUp held =>
        obtain ⟨_, hnone, hmissing⟩ := h.heldUp held hturns
        omega
      | steps steps =>
        obtain ⟨owed', turns', hrest, hfewer, hsum, _⟩ := Attends.runs h steps.to_reflTransGen
        dsimp only at hsum
        obtain ⟨polls, value, world', hends⟩ :=
          ih rest (remains_of_steps steps) hrest (by omega) middle (by omega)
        exact ⟨polls + 1, value, world', .later hround hends⟩

theorem Yields.join {tasks : List (Task α)} {learned : List Nat} {values : List α}
    (h : towers.Yields (Task.join tasks) learned values) :
    List.Forall₂ (fun task value => ∃ learned, towers.Yields task learned value) tasks values := by
  refine Task.join_gathered (motive := fun joined tasks => ∀ learned values,
    towers.Yields joined learned values →
      List.Forall₂ (fun task value => ∃ learned, towers.Yields task learned value) tasks values)
    ?none ?cons ?append (List.forall₂_same.mpr fun _ _ => rfl) learned values h
  case none =>
    intro learned values h
    cases h
    exact .nil
  case cons =>
    rintro task rest _ tasks rfl hrest learned values h
    cases h with
    | both lefts rights later =>
      cases later
      exact .cons ⟨_, lefts⟩ (hrest _ _ rights)
  case append =>
    rintro before task tasks _ hbefore rfl learned values h
    cases h with
    | both lefts rights later =>
      cases later
      exact List.rel_append (hbefore _ _ lefts) (.cons ⟨_, rights⟩ .nil)

/-- A task with parts side by side owes what its parts owe, and has as many turns as the part that has
most. -/
theorem Attends.of_joins {ι : Type} {part : ι → Task α} {owed turns : ι → Nat} {items : List ι}
    {task : Task β} {flat : β → List α} (h : task.Joins (items.map part) flat)
    (hattend : ∀ item ∈ items, towers.Attends point count (part item) (owed item) (turns item)) :
    ∃ most, towers.Attends point count task (items.map owed).sum most ∧
      (∀ item ∈ items, turns item ≤ most) ∧
      ∀ bound, (∀ item ∈ items, turns item ≤ bound) → most ≤ bound := by
  generalize hparts : items.map part = parts at h
  induction h generalizing items with
  | part task =>
    obtain ⟨item, rfl, rfl⟩ := List.map_eq_singleton_iff.mp hparts
    exact ⟨turns item, by simpa using hattend item (by simp), by simp, by simp⟩
  | done flat result =>
    have hnothing : ∀ item ∈ items, owed item = 0 ∧ turns item = 0 := by
      intro item hitem
      have hitem' : part item ∈ (flat result).map Task.ok := hparts ▸ List.mem_map_of_mem hitem
      obtain ⟨value, _, hvalue⟩ := List.mem_map.mp hitem'
      have hattends := hattend item hitem
      rw [← hvalue] at hattends
      generalize owed item = owes at hattends ⊢
      generalize turns item = takes at hattends ⊢
      cases hattends
      exact ⟨rfl, rfl⟩
    have hsum : (items.map owed).sum = 0 := by
      rw [List.map_congr_left fun item hitem => (hnothing item hitem).1]
      simp
    rw [hsum]
    exact ⟨0, .finish result, fun item hitem => (hnothing item hitem).2.le, fun _ _ => Nat.zero_le _⟩
  | both lefts rights joined fails ihl ihr =>
    obtain ⟨first, later, rfl, hfirst, hlater⟩ := List.map_eq_append_iff.mp hparts
    obtain ⟨mostl, hleft, hleftmost, hleftleast⟩ :=
      ihl (fun item hitem => hattend item (List.mem_append_left later hitem)) hfirst
    obtain ⟨mostr, hright, hrightmost, hrightleast⟩ :=
      ihr (fun item hitem => hattend item (List.mem_append_right first hitem)) hlater
    refine ⟨max mostl mostr, ?_, fun item hitem => ?_, fun bound hbound => ?_⟩
    · rw [List.map_append, List.sum_append]
      refine .both hleft hright (Nat.le_refl 0) fun _ _ a b _ _ => ?_
      obtain ⟨result, hresult, _⟩ := joined a b
      rw [hresult]
      exact .finish result
    · rcases List.mem_append.mp hitem with hitem | hitem
      · exact (hleftmost item hitem).trans (Nat.le_max_left _ _)
      · exact (hrightmost item hitem).trans (Nat.le_max_right _ _)
    · refine Nat.max_le.mpr ⟨hleftleast bound fun item hitem => ?_, hrightleast bound fun item hitem => ?_⟩
      · exact hbound item (List.mem_append_left later hitem)
      · exact hbound item (List.mem_append_right first hitem)

variable {interpreter : Interpreter} {definition : FunctionDefinition} {context : Value}
  {owed' turns' : Nat}

/-- A link owes what its arguments owe and then what its implementation does, if its context can be cast
and its result is of the declared type. -/
theorem attends_runLink {link : Link}
    (resolved : towers.Attends point count
      (interpreter.resolveArguments definition context link.arguments) owed turns)
    (fresh : turns' ≤ owed')
    (invoked : ∀ learned bound,
      towers.Yields (interpreter.resolveArguments definition context link.arguments) learned bound →
        ∃ received, (interpreter.types.cast context definition.acceptable).2 = .ok received ∧
          towers.Attends point count
            (.routine definition.name (definition.implementation received bound) .finish) owed' turns' ∧
          ∀ learned result, towers.Yields
            (.routine definition.name (definition.implementation received bound) .finish) learned result →
              definition.checkReturn result = .ok result) :
    towers.Attends point count (interpreter.runLink definition link context) (owed + owed')
      (turns + turns') := by
  refine resolved.bind fresh fun learned bound hbound => ?_
  obtain ⟨received, hcast, hroutine, hreturns⟩ := invoked learned bound hbound
  have hinvoked : towers.Attends point count (definition.invoke interpreter.types context bound) owed'
      turns' := by
    rw [FunctionDefinition.invoke, Task.cast]
    generalize interpreter.types.cast context definition.acceptable = found at hcast ⊢
    obtain ⟨attempts, outcome⟩ := found
    obtain rfl : outcome = .ok received := hcast
    refine .emitAll _ ?_
    dsimp only
    rw [FunctionDefinition.call, Task.onError, Task.bind, Task.andThen_assoc]
    refine .emit _ (hroutine.andThen (Nat.le_refl 0) fun learned result hresult => ?_)
    change towers.Attends point count (definition.checkReturn result) 0 0
    rw [hreturns learned result hresult]
    exact .finish result
  rw [Site.announce]
  split
  · exact .emit _ hinvoked
  · exact hinvoked

/-- The turns of links one behind the other add up. -/
theorem attends_append {before after : Chain}
    (known : ∀ link ∈ before, interpreter.functions.contains link.function = true)
    (first : towers.Attends point count (interpreter.invokeChain before context) owed turns)
    (fresh : turns' ≤ owed')
    (later : ∀ learned value, towers.Yields (interpreter.invokeChain before context) learned value →
      towers.Attends point count (interpreter.invokeChain after value) owed' turns') :
    towers.Attends point count (interpreter.interpret (.expression (before ++ after)) context)
      (owed + owed') (turns + turns') := by
  have hchain := interpreter.invokeChain_append known after context
  rw [Interpreter.invokeChain_eq] at hchain
  rw [Interpreter.interpret, Site.interpret, hchain]
  exact first.bind fresh later

/-- A chain that calls once, after and before links that do not come to the meeting point, a function that
waits there. -/
theorem attends_once {before after : Chain} {link : Link}
    (known : ∀ link ∈ before, interpreter.functions.contains link.function = true)
    (found : interpreter.functions.lookup link.function = some definition)
    (first : towers.Attends point count (interpreter.invokeChain before context) 0 0)
    (resolved : ∀ learned value, towers.Yields (interpreter.invokeChain before context) learned value →
      towers.Attends point count (interpreter.resolveArguments definition value link.arguments) 0 0)
    (meets : ∀ learned value learned' bound,
      towers.Yields (interpreter.invokeChain before context) learned value →
      towers.Yields (interpreter.resolveArguments definition value link.arguments) learned' bound →
        ∃ received body, (interpreter.types.cast value definition.acceptable).2 = .ok received ∧
          definition.implementation received bound = .meet point count body ∧
          towers.Attends point count (.routine definition.name body .finish) 0 0 ∧
          ∀ learned result, towers.Yields (.routine definition.name body .finish) learned result →
            definition.checkReturn result = .ok result)
    (last : ∀ learned value learned' result,
      towers.Yields (interpreter.invokeChain before context) learned value →
      towers.Yields (interpreter.runLink definition link value) learned' result →
        towers.Attends point count (interpreter.invokeChain after result) 0 0) :
    towers.Attends point count (interpreter.interpret (.expression (before ++ link :: after)) context)
      1 1 := by
  refine attends_append known first (Nat.le_refl 1) fun learned value hvalue => ?_
  rw [Interpreter.invokeChain_known found]
  refine Attends.bind (attends_runLink (resolved learned value hvalue) (Nat.le_refl 1) ?_)
    (Nat.le_refl 0) fun learned' result hresult => last learned value learned' result hvalue hresult
  intro learned' bound hbound
  obtain ⟨received, body, hcast, hmeet, hbody, hreturns⟩ := meets learned value learned' bound hvalue hbound
  refine ⟨received, hcast, hmeet ▸ .meet (Nat.le_refl 0) hbody, fun learned result hresult => ?_⟩
  rw [hmeet] at hresult
  cases hresult with
  | arrive hresult =>
    cases hresult with
    | await hresult => exact hreturns learned result hresult

/-- The value is one that the node gives when nothing waits: in whatever state the node is evaluated
plainly, it comes to a value, and to this one if it learns the same creation numbers and ticks first. -/
def GivesPlainly (towers : Towers) (interpreter : Interpreter) (node : Node) (context value : Value) : Prop :=
  ∃ learned, towers.Yields (interpreter.interpret node context) learned value ∧
    ∀ world, ∃ depth learned' value' world',
      towers.Yields (interpreter.interpret node context) learned' value' ∧
      interpreter.sequentialWith (towers.sequentialCall depth) node context world =
        some (.ok value', world') ∧
      (learned <+: learned' → value' = value)

theorem Attends.givesPlainly {node : Node} {context value : Value}
    (h : towers.Attends point count (interpreter.interpret node context) owed turns)
    (hvalue : ∃ learned, towers.Yields (interpreter.interpret node context) learned value) :
    towers.GivesPlainly interpreter node context value := by
  obtain ⟨learned, hvalue⟩ := hvalue
  refine ⟨learned, hvalue, fun world => ?_⟩
  obtain ⟨depth, learned', value', world', hvalue', hplain⟩ := h.inOrder world
  rw [Interpreter.inOrder_interpret] at hplain
  refine ⟨depth, learned', value', world', hvalue', hplain, ?_⟩
  rintro ⟨rest, hrest⟩
  exact (hvalue'.unique hvalue ((List.append_nil learned').trans hrest.symm)).2

/-- Siblings that wait for each other do not deadlock. Where no value of a link waits at the meeting point
in more than one turn, and as many arrive there in all as each of them waits for, all values are evaluated,
each to what it is when nothing waits; so it is where each of `count` values makes one arrival and waits for
`count`. But where a value waits in two turns, one after the other, and no more arrive in all than each of
them waits for, the values are never all there, whichever part goes on next. -/
theorem siblings_meet (towers : Towers) (interpreter : Interpreter) (given : List (String × List Node))
    (context : Value) (world : World) (point : String) (count : Nat) (owed turns : Node → Nat)
    (attend : ∀ node ∈ given.flatMap Prod.snd,
      towers.Attends point count (interpreter.interpret node context) (owed node) (turns node)) :
    ((∀ node ∈ given.flatMap Prod.snd, turns node ≤ 1) →
      count ≤ ((given.flatMap Prod.snd).map owed).sum + world.arrivals point →
        ∃ polls lists world',
          towers.Ends (interpreter.site.interpretArguments given context) world polls (.ok lists)
            world' ∧
          List.Forall₂ (fun entry values =>
            List.Forall₂ (towers.GivesPlainly interpreter · context ·) entry.2 values) given lists) ∧
    ((∃ node ∈ given.flatMap Prod.snd, 2 ≤ turns node) →
      ((given.flatMap Prod.snd).map owed).sum + world.arrivals point ≤ count →
        ∀ outcome world', ¬ towers.Runs (interpreter.site.interpretArguments given context, world)
          (.finish outcome, world')) := by
  have hjoins := interpreter.site.joins_interpretArguments given context
  obtain ⟨most, hattends, hmost, hleast⟩ := Attends.of_joins hjoins attend
  constructor
  · intro hone henough
    obtain ⟨polls, lists, world', hends⟩ := hattends.ends (hleast 1 hone) world henough
    refine ⟨polls, lists, world', hends, ?_⟩
    obtain ⟨learned, hlists⟩ := hattends.yields_of_runs hends.runs
    rw [Site.interpretArguments_eq] at hlists
    have hgroups := List.forall₂_map_left_iff.mp hlists.join
    have hall : ∀ entry ∈ given, ∀ node ∈ entry.2,
        towers.Attends point count (interpreter.interpret node context) (owed node) (turns node) :=
      fun entry hentry node hnode => attend node (List.mem_flatMap.mpr ⟨entry, hentry, hnode⟩)
    refine ((List.forall₂_and_left _ _).mpr ⟨hall, hgroups⟩).imp ?_
    rintro entry values ⟨hnodes, learned, hvalues⟩
    have hparts := List.forall₂_map_left_iff.mp hvalues.join
    refine ((List.forall₂_and_left _ _).mpr ⟨hnodes, hparts⟩).imp ?_
    rintro node value ⟨hattends, hvalue⟩
    exact hattends.givesPlainly hvalue
  · rintro ⟨node, hnode, htwo⟩ hfew outcome world'
    exact hattends.never_finishes (htwo.trans (hmost node hnode)) hfew

end Towers

namespace Stock

/-- Has a function that waits for two to arrive, and one that takes its time. -/
def gathering : Interpreter :=
  .mk ⟨.ofList [act (.meet "here" 2 .context), { act (.yield 3 .context) with name := "rest" }],
    .standard, .standard, 0⟩ .rejecting

/-- Two arrive, the one some rounds after the other. -/
def staggered : List (String × List Node) :=
  [("a", [.expression [⟨"rest", []⟩, ⟨"act", []⟩]]), ("b", [.expression [⟨"act", []⟩]])]

/-- Two arrivals in one chain. -/
def twice : List (String × List Node) := [("a", [.expression [⟨"act", []⟩, ⟨"act", []⟩]])]

theorem gathering_act : gathering.alone.Attends "here" 2 (gathering.invokeChain [⟨"act", []⟩] .null) 1 1 :=
  .emit _ (.emit _ (.meet (Nat.le_refl 0) (.outcome (.finish _))))

/-- Either function makes a text of null. -/
theorem gathering_yields {name : String} (hname : name = "act" ∨ name = "rest") {learned : List Nat}
    {value : Value} (h : gathering.alone.Yields (gathering.invokeChain [⟨name, []⟩] .null) learned value) :
    value = .string "" := by
  have hvalue : gathering.alone.Yields (gathering.invokeChain [⟨name, []⟩] .null) [] (.string "") := by
    rcases hname with rfl | rfl
    · exact .emit (.emit (.arrive (.await (.outcome (.finish _)))))
    · exact .emit (.emit (.wait (.outcome (.finish _))))
  exact (h.unique hvalue (List.append_nil learned)).2

theorem gathering_rested : gathering.alone.Attends "here" 2
    (gathering.interpret (.expression [⟨"rest", []⟩, ⟨"act", []⟩]) .null) 1 1 := by
  have hknown : ∀ link ∈ [(⟨"rest", []⟩ : Link)],
      gathering.functions.contains link.function = true := by decide
  have hfound : gathering.functions.lookup "act" = some (act (.meet "here" 2 .context)) := rfl
  refine @Towers.attends_once gathering.alone "here" 2 gathering _ .null _ [] ⟨"act", []⟩ hknown hfound
    (.emit _ (.emit _ (.wait 3 (.outcome (.finish _))))) (fun _ _ _ => .finish _) ?_
    fun _ _ _ result _ _ => .finish result
  intro learned value learned' bound hvalue _
  rw [gathering_yields (.inr rfl) hvalue]
  refine ⟨.string "", .ok (.string ""), rfl, rfl, .outcome (.finish _), fun learned result hresult => ?_⟩
  cases hresult with
  | outcome hresult =>
    cases hresult
    rfl

theorem gathering_twice : gathering.alone.Attends "here" 2
    (gathering.interpret (.expression [⟨"act", []⟩, ⟨"act", []⟩]) .null) 2 2 := by
  have hknown : ∀ link ∈ [(⟨"act", []⟩ : Link)],
      gathering.functions.contains link.function = true := by decide
  refine Towers.attends_append hknown gathering_act (Nat.le_refl 1) fun learned value hvalue => ?_
  rw [gathering_yields (.inl rfl) hvalue]
  exact .emit _ (.meet (Nat.le_refl 0) (.outcome (.finish _)))

end Stock

/-- Of two that meet, the second waits for the first, which rests before. Two arrivals in one chain never
come about. -/
theorem Towers.siblings_meet_gathering :
    (∀ node ∈ Stock.staggered.flatMap Prod.snd,
      Stock.gathering.alone.Attends "here" 2 (Stock.gathering.interpret node .null) 1 1) ∧
    (∃ polls lists world', Stock.gathering.alone.Ends
      (Stock.gathering.site.interpretArguments Stock.staggered .null) .start polls (.ok lists) world') ∧
    (∀ node ∈ Stock.twice.flatMap Prod.snd,
      Stock.gathering.alone.Attends "here" 2 (Stock.gathering.interpret node .null) 2 2) ∧
    ∀ outcome world', ¬ Stock.gathering.alone.Runs
      (Stock.gathering.site.interpretArguments Stock.twice .null, .start) (.finish outcome, world') := by
  have hapart : ∀ node ∈ Stock.staggered.flatMap Prod.snd,
      Stock.gathering.alone.Attends "here" 2 (Stock.gathering.interpret node .null) 1 1 := by
    intro node hnode
    rcases List.mem_pair.mp hnode with rfl | rfl
    · exact Stock.gathering_rested
    · exact Stock.gathering_act
  have htwice : ∀ node ∈ Stock.twice.flatMap Prod.snd,
      Stock.gathering.alone.Attends "here" 2 (Stock.gathering.interpret node .null) 2 2 := by
    intro node hnode
    rw [List.mem_singleton.mp hnode]
    exact Stock.gathering_twice
  refine ⟨hapart, ?_, htwice, ?_⟩
  · obtain ⟨polls, lists, world', hends, _⟩ :=
      (siblings_meet Stock.gathering.alone Stock.gathering Stock.staggered .null .start "here" 2 (fun _ => 1)
        (fun _ => 1) hapart).1 (fun _ _ => Nat.le_refl 1) (by decide)
    exact ⟨polls, lists, world', hends⟩
  · exact (siblings_meet Stock.gathering.alone Stock.gathering Stock.twice .null .start "here" 2 (fun _ => 2)
      (fun _ => 2) htwice).2 ⟨_, List.mem_singleton.mpr rfl, Nat.le_refl 2⟩ (by decide)

end ChainExpr
