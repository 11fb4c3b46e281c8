import ChainExpr.Proofs.CalledOnce
import ChainExpr.Proofs.PlanRounds
import ChainExpr.Proofs.Timetable

namespace ChainExpr

/-- The routine is pending for so many rounds, whatever happens around it, and then done. It calls no
function value, since it would depend on what comes of that. -/
def Routine.Takes : Nat → Routine → Prop
  | 0, body => ∀ (enter : Entry) function world, ∃ outcome world',
      body.round enter function world = (.done outcome, world')
  | polls + 1, body => ∀ (enter : Entry) function world, ∃ rest world',
      body.round enter function world = (.pending rest, world') ∧ rest.Takes polls

theorem Routine.takes_wait {body : Routine} {polls : Nat} (h : body.Takes polls) (more : Nat) :
    (Routine.wait more body).Takes (more + polls) := by
  induction more with
  | zero =>
    rw [Nat.zero_add]
    cases polls <;>
      exact fun enter function world => h enter function (world.record (.resume function))
  | succ more ih =>
    rw [Nat.succ_add]
    exact fun enter function world => ⟨_, world, rfl, ih⟩

namespace Task

variable {α β : Type}

/-- The task is pending for so many rounds and then done. -/
def Takes {α : Type} : Nat → Task α → Prop
  | 0, task => ∀ (enter : Entry) world, ∃ outcome world',
      task.round enter world = (.done outcome, world')
  | polls + 1, task => ∀ (enter : Entry) world, ∃ rest world',
      task.round enter world = (.pending rest, world') ∧ Takes polls rest

theorem Instant.takes {task : Task α} (h : task.Instant) : task.Takes 0 := by
  intro enter world
  induction task generalizing world with
  | finish outcome => exact ⟨outcome, world, rfl⟩
  | emit event next ih => exact ih h.2 (world.record event)
  | _ => exact h.elim

theorem Takes.andThen {task : Task α} {next : Except RuntimeError α → Task β} {polls : Nat}
    (h : task.Takes polls) (hnext : ∀ outcome, (next outcome).Instant) :
    (task.andThen next).Takes polls := by
  induction polls generalizing task with
  | zero =>
    intro enter world
    obtain ⟨outcome, middle, hround⟩ := h enter world
    rw [round_andThen, hround]
    exact (hnext outcome).takes enter middle
  | succ polls ih =>
    intro enter world
    obtain ⟨rest, middle, hround, hrest⟩ := h enter world
    rw [round_andThen, hround]
    exact ⟨_, middle, rfl, ih hrest⟩

theorem takes_routine (function : String) {body : Routine} {polls : Nat} (h : body.Takes polls) :
    (Task.routine function body .finish).Takes polls := by
  induction polls generalizing body with
  | zero =>
    intro enter world
    obtain ⟨outcome, world', hround⟩ := h enter function world
    exact ⟨outcome, world', by simp only [round, hround]⟩
  | succ polls ih =>
    intro enter world
    obtain ⟨rest, world', hround, hrest⟩ := h enter function world
    exact ⟨_, world', by simp only [round, hround], ih hrest⟩

end Task

/-- The marks of a story that is told in one round. -/
def marksIn (poll : Nat) (story : List Milestone) : List (Nat × Mark) :=
  story.map fun milestone => (poll, milestone.mark)

/-- The marks of stories that are told round by round, with the numbers of the rounds. -/
def marksFrom : Nat → List (List Milestone) → List (Nat × Mark)
  | _, [] => []
  | poll, story :: rest => marksIn poll story ++ marksFrom (poll + 1) rest

theorem marksIn_append (poll : Nat) (story story' : List Milestone) :
    marksIn poll (story ++ story') = marksIn poll story ++ marksIn poll story' := List.map_append

/-- What two parts have passed and what is left for each of them are together what was due. -/
theorem perm_together {poll : Nat} {story story' : List Milestone}
    {later later' times times' : List (Nat × Mark)} (h : (marksIn poll story ++ later).Perm times)
    (h' : (marksIn poll story' ++ later').Perm times') :
    (marksIn poll (story ++ story') ++ (later ++ later')).Perm (times ++ times') := by
  rw [List.perm_iff_count] at h h' ⊢
  intro entry
  have hcount := h entry
  have hcount' := h' entry
  simp only [marksIn_append, List.count_append] at hcount hcount' ⊢
  omega

/-- The plan, now in some round, ends in some round, with milestones according to a timetable, unless it
fails. -/
inductive Plan.Due : {α : Type} → Plan α → Nat → Nat → List (Nat × Mark) → Prop
  | plain {α : Type} {task : Task α} {polls : Nat} (now : Nat) (takes : task.Takes polls) :
      Due (.plain task) now (now + polls) []
  | failing {α : Type} {task : Task α} {error : RuntimeError} {entries : List LogEntry} {now ends : Nat}
      (times : List (Nat × Mark)) (fails : task.Fails error entries) (le : now ≤ ends) :
      Due (.plain task) now ends times
  | pass {α : Type} (milestone : Milestone) {next : Plan α} {now ends : Nat} {times : List (Nat × Mark)}
      (later : Due next now ends times) :
      Due (.pass milestone next) now ends ((now, milestone.mark) :: times)
  | andThen {α β : Type} {first : Plan β} (noted : RuntimeError → List LogEntry) {next : β → Plan α}
      {now middle ends : Nat} {times times' : List (Nat × Mark)} (earlier : Due first now middle times)
      (le : middle ≤ ends) (later : ∀ value, Due (next value) middle ends times') :
      Due (.andThen first noted next) now ends (times ++ times')
  | both {α β γ : Type} (mode : JoinMode) {left : Plan β} {right : Plan γ} (join : β → γ → α)
      {now endl endr : Nat} {times times' : List (Nat × Mark)} (hleft : Due left now endl times)
      (hright : Due right now endr times') :
      Due (.both mode left right join) now (max endl endr) (times ++ times')

namespace Plan.Due

variable {α β γ : Type} {now ends : Nat} {times : List (Nat × Mark)}

theorem le {plan : Plan α} (h : plan.Due now ends times) : now ≤ ends := by
  induction h with
  | plain now takes => omega
  | failing times fails le => exact le
  | pass milestone later ih => exact ih
  | andThen noted earlier le later ih _ => omega
  | both mode join hleft hright ihl ihr => omega

theorem bind {first : Plan β} {next : β → Plan α} {middle : Nat} {times' : List (Nat × Mark)}
    (earlier : first.Due now middle times) (le : middle ≤ ends)
    (later : ∀ value, (next value).Due middle ends times') :
    (first.bind next).Due now ends (times ++ times') := .andThen _ earlier le later

/-- A part that is done can wait for the other one. -/
theorem done (now : Nat) (value : α) : (Plan.plain (.ok value)).Due now now [] := by
  have htakes : (Task.ok value).Takes 0 := fun _ world => ⟨.ok value, world, rfl⟩
  exact .plain now htakes

end Plan.Due

/-- Plans that keep to a timetable, and when the last one of them ends. -/
inductive Plan.DueEach {α : Type} (now : Nat) : List (Plan α) → Nat → List (Nat × Mark) → Prop
  | nil : DueEach now [] now []
  | cons {plan : Plan α} {plans : List (Plan α)} {endl endr : Nat} {times times' : List (Nat × Mark)}
      (first : plan.Due now endl times) (rest : DueEach now plans endr times') :
      DueEach now (plan :: plans) (max endl endr) (times ++ times')

/-- Plans side by side are done when the last one of them is. -/
theorem Plan.DueEach.join {α : Type} {now ends : Nat} {plans : List (Plan α)}
    {times : List (Nat × Mark)} (h : DueEach now plans ends times) :
    (Plan.join plans).Due now ends times := by
  rw [Plan.join]
  split
  · clear * - h
    induction h with
    | nil => exact .done now []
    | cons first _ ih => exact .both .eager List.cons first ih
  · have hbehind (before : Plan (List α)) (endb : Nat) (earlier : List (Nat × Mark)) (hnow : now ≤ endb)
        (hbefore : before.Due now endb earlier) :
        (Plan.joinInOrder before plans).Due now (max endb ends) (earlier ++ times) := by
      clear * - h hnow hbefore
      induction h generalizing before endb earlier with
      | nil =>
        rw [List.append_nil, Nat.max_eq_left hnow]
        exact hbefore
      | cons first _ ih =>
        rw [← List.append_assoc, ← Nat.max_assoc]
        exact ih _ _ _ (by omega) (.both .inOrder _ hbefore first)
    have hle : now ≤ ends := by
      clear * - h
      induction h with
      | nil => exact Nat.le_refl now
      | cons first _ ih => omega
    have hall := hbehind _ now [] (Nat.le_refl now) (.done now [])
    rwa [Nat.max_eq_right hle] at hall

/-- A plan was on time in a round: it has passed what was due, and what is left is due later. -/
def Plan.OnTime {α : Type} (now ends : Nat) (times : List (Nat × Mark)) :
    List Milestone × Standing α × World → Prop
  | (story, .done (.ok _), _) => now = ends ∧ (marksIn now story).Perm times
  | (story, .done (.error _), _) => ∃ later, (marksIn now story ++ later).Perm times
  | (story, .pending rest, _) => now < ends ∧ ∃ later, rest.Due (now + 1) ends later ∧
      (marksIn now story ++ later).Perm times
  | (_, .exhausted, _) => False

namespace Plan

variable {α β γ : Type}

/-- Two parts that have been on time in a round have been so together. -/
theorem Due.round_both (enter : Entry) (mode : JoinMode) {left : Plan β} {right : Plan γ} (join : β → γ → α)
    {now endl endr : Nat} {times times' : List (Nat × Mark)}
    (hleft : ∀ world, OnTime now endl times (left.round enter world))
    (hright : ∀ world, OnTime now endr times' (right.round enter world))
    (hlel : now ≤ endl) (hler : now ≤ endr) (world : World) :
    OnTime now (max endl endr) (times ++ times') ((Plan.both mode left right join).round enter world) := by
  have hlefts := hleft world
  rw [round]
  generalize left.round enter world = result at hlefts
  obtain ⟨story, standing, middle⟩ := result
  have hrights := hright middle
  cases standing with
  | exhausted => exact hlefts.elim
  | done outcome =>
    cases outcome with
    | error error =>
      obtain ⟨later, hpassed⟩ := hlefts
      refine ⟨later ++ times', ?_⟩
      rw [← List.append_assoc]
      exact hpassed.append_right times'
    | ok a =>
      obtain ⟨rfl, hpassed⟩ := hlefts
      simp only
      generalize right.round enter middle = result' at hrights
      obtain ⟨story', standing', last⟩ := result'
      cases standing' with
      | exhausted => exact hrights.elim
      | done outcome' =>
        cases outcome' with
        | error error =>
          obtain ⟨later, hpassed'⟩ := hrights
          exact ⟨[] ++ later, perm_together (by simpa using hpassed) hpassed'⟩
        | ok b =>
          obtain ⟨rfl, hpassed'⟩ := hrights
          refine ⟨(Nat.max_self now).symm, ?_⟩
          rw [marksIn_append]
          exact hpassed.append hpassed'
      | pending rest =>
        -- The part that is done goes on as one that is done in every round, so the other one decides.
        obtain ⟨hlt, later, hrest, hpassed'⟩ := hrights
        have hends : max (now + 1) endr = max now endr := by omega
        refine ⟨by omega, [] ++ later, ?_, perm_together (by simpa using hpassed) hpassed'⟩
        rw [← hends]
        exact .both mode join (.done (now + 1) a) hrest
  | pending restl =>
    obtain ⟨hlt, later, hrest, hpassed⟩ := hlefts
    simp only
    generalize right.round enter middle = result' at hrights
    obtain ⟨story', standing', last⟩ := result'
    cases standing' with
    | exhausted => exact hrights.elim
    | done outcome' =>
      cases outcome' with
      | error error =>
        obtain ⟨later', hpassed'⟩ := hrights
        have htogether := perm_together hpassed hpassed'
        cases mode with
        | eager => exact ⟨later ++ later', htogether⟩
        | inOrder =>
          -- The failure that is kept back can wait for the other part, whatever was still due.
          have hends : max endl (max (now + 1) endr) = max endl endr := by omega
          refine ⟨by omega, later ++ later', ?_, htogether⟩
          rw [← hends]
          exact .both .inOrder join hrest (.failing later' .finish (by omega))
      | ok b =>
        obtain ⟨rfl, hpassed'⟩ := hrights
        have hends : max endl (now + 1) = max endl now := by omega
        refine ⟨by omega, later ++ [], ?_, perm_together hpassed (by simpa using hpassed')⟩
        rw [← hends]
        exact .both mode join hrest (.done (now + 1) b)
    | pending restr =>
      obtain ⟨hlt', later', hrest', hpassed'⟩ := hrights
      exact ⟨by omega, later ++ later', .both mode join hrest hrest', perm_together hpassed hpassed'⟩

/-- A plan that keeps to a timetable is on time in every round. -/
theorem Due.round {plan : Plan α} {now ends : Nat} {times : List (Nat × Mark)}
    (h : plan.Due now ends times) (enter : Entry) (world : World) :
    OnTime now ends times (plan.round enter world) := by
  induction h generalizing world with
  | @plain _ task polls now takes =>
    rw [Plan.round]
    cases polls with
    | zero =>
      obtain ⟨outcome, world', hround⟩ := takes enter world
      rw [hround]
      cases outcome with
      | ok value => exact ⟨rfl, .nil⟩
      | error error => exact ⟨[], .nil⟩
    | succ polls =>
      obtain ⟨rest, world', hround, hrest⟩ := takes enter world
      rw [hround]
      have hdue := Due.plain (now + 1) hrest
      rw [Nat.add_right_comm] at hdue
      exact ⟨by omega, [], hdue, .nil⟩
  | failing times fails le =>
    rw [Plan.round, fails.round]
    exact ⟨times, .refl times⟩
  | @pass _ milestone next now ends times later ih =>
    rw [Plan.round]
    have hnext := ih (milestone.event?.elim world world.record)
    generalize next.round enter (milestone.event?.elim world world.record) = result at hnext ⊢
    obtain ⟨story, standing, world'⟩ := result
    cases standing with
    | exhausted => exact hnext.elim
    | done outcome =>
      cases outcome with
      | error error =>
        obtain ⟨more, hpassed⟩ := hnext
        exact ⟨more, hpassed.cons _⟩
      | ok value => exact ⟨hnext.1, hnext.2.cons _⟩
    | pending rest =>
      obtain ⟨hlt, more, hrest, hpassed⟩ := hnext
      exact ⟨hlt, more, hrest, hpassed.cons _⟩
  | @andThen _ _ first noted next now middle _ times times' earlier le later ihf ihn =>
    rw [Plan.round]
    have hfirst := ihf world
    generalize first.round enter world = result at hfirst ⊢
    obtain ⟨story, standing, world'⟩ := result
    cases standing with
    | exhausted => exact hfirst.elim
    | pending rest =>
      obtain ⟨hlt, more, hrest, hpassed⟩ := hfirst
      refine ⟨by omega, more ++ times', .andThen noted hrest le later, ?_⟩
      rw [← List.append_assoc]
      exact hpassed.append_right times'
    | done outcome =>
      cases outcome with
      | error error =>
        obtain ⟨more, hpassed⟩ := hfirst
        refine ⟨more ++ times', ?_⟩
        rw [← List.append_assoc]
        exact hpassed.append_right times'
      | ok value =>
        obtain ⟨rfl, hpassed⟩ := hfirst
        have hnext := ihn value world'
        simp only
        generalize (next value).round enter world' = result' at hnext ⊢
        obtain ⟨story', standing', last⟩ := result'
        cases standing' with
        | exhausted => exact hnext.elim
        | done outcome' =>
          cases outcome' with
          | error error =>
            obtain ⟨more, hpassed'⟩ := hnext
            refine ⟨more, ?_⟩
            rw [marksIn_append, List.append_assoc]
            exact hpassed.append hpassed'
          | ok value' =>
            refine ⟨hnext.1, ?_⟩
            rw [marksIn_append]
            exact hpassed.append hnext.2
        | pending rest =>
          obtain ⟨hlt, more, hrest, hpassed'⟩ := hnext
          refine ⟨hlt, more, hrest, ?_⟩
          rw [marksIn_append, List.append_assoc]
          exact hpassed.append hpassed'
  | both mode join hleft hright ihl ihr => exact round_both enter mode join ihl ihr hleft.le hright.le world

/-- A plan that keeps to a timetable comes to its end, no later than it is due, and in all of its rounds
together it passes all milestones of the timetable if it does not fail. -/
theorem Due.ends {plan : Plan α} {now ends : Nat} {times : List (Nat × Mark)}
    (h : plan.Due now ends times) (enter : Entry) (world : World) :
    ∃ stories outcome world', Plan.Ends enter plan world stories outcome world' ∧
      now + stories.length ≤ ends + 1 ∧
      ∀ value, outcome = .ok value →
        now + stories.length = ends + 1 ∧ (marksFrom now stories).Perm times := by
  -- A round that leaves the plan pending is one of those that are left, the last one included.
  generalize hleft : ends + 1 - now = left
  induction left generalizing plan now times world with
  | zero => exact absurd h.le (by omega)
  | succ left ih =>
    have hround := h.round enter world
    cases hresult : plan.round enter world with
    | mk story rest =>
      obtain ⟨standing, middle⟩ := rest
      rw [hresult] at hround
      cases standing with
      | exhausted => exact hround.elim
      | done outcome =>
        refine ⟨[story], outcome, middle, .now hresult, by simpa using h.le, ?_⟩
        rintro value rfl
        obtain ⟨rfl, hpassed⟩ := hround
        exact ⟨rfl, by simpa [marksFrom] using hpassed⟩
      | pending rest =>
        obtain ⟨hlt, later, hrest, hpassed⟩ := hround
        obtain ⟨stories, outcome, world', hends, hle, hall⟩ := ih hrest middle (by omega)
        refine ⟨story :: stories, outcome, world', .later hresult hends, by simp; omega, ?_⟩
        intro value hvalue
        obtain ⟨hlength, hperm⟩ := hall value hvalue
        exact ⟨by simp; omega, (hperm.append_left _).trans hpassed⟩

end Plan

namespace Site

variable {site : Site} {definition : FunctionDefinition} {waits : String → Nat}

theorem due_enclose {place : Place} {context : Value} {body : Plan Value} {now ends : Nat}
    {times : List (Nat × Mark)} (h : body.Due now ends times) :
    (Plan.enclose place context body).Due now ends
      ((now, .entered place) :: (times ++ [(ends, .left place)])) := by
  refine .pass (.entered place context) (.bind h (Nat.le_refl ends) fun value => ?_)
  exact .pass (.left place value) (.done ends value)

theorem due_planResolve {names : List String} {values : Plan (List (List Value))} {now ends : Nat}
    {times : List (Nat × Mark)} (h : values.Due now ends times) :
    (site.planResolve definition names values).Due now ends times := by
  rw [planResolve]
  cases definition.resolveNames names with
  | error name => exact .failing times (.log _ .finish) h.le
  | ok names =>
    have hbinds (lists : List (List Value)) := ((definition.instant_bindArguments site.equipment.types
      (FunctionDefinition.foldValues names lists)).onError (.argumentsRejected definition.name)).takes
    rw [← List.append_nil times]
    exact .andThen _ h (Nat.le_refl ends) fun lists => .plain ends (hbinds lists)

theorem takes_perform {polls : Nat} (context : Value) (arguments : Arguments)
    (h : (definition.implementation context arguments).Takes polls) :
    (definition.perform context arguments).Takes polls := by
  have hrun := Task.takes_routine definition.name h
  refine (hrun.andThen fun outcome => ?_).andThen fun outcome => ?_
  · cases outcome with
    | ok value => trivial
    | error error => exact ⟨rfl, trivial⟩
  · cases outcome with
    | ok value => exact definition.instant_checkReturn value
    | error error => trivial

/-- A link is called when its arguments are ready, and is done when the function is. -/
theorem due_planLink (site : Site) (place : Place) (names : List String)
    {values : Plan (List (List Value))} {now ready polls : Nat} {times : List (Nat × Mark)}
    (hvalues : values.Due now ready times)
    (hwaits : ∀ context arguments, (definition.implementation context arguments).Takes polls)
    (context : Value) :
    (site.planLink place definition names values context).Due now (ready + polls)
      ((now, .started place) :: (times ++ [(ready, .casting place), (ready, .called place),
        (ready + polls, .finished place)])) := by
  refine .pass (.started place context) (.bind (due_planResolve hvalues) (by omega) fun bound => ?_)
  have happroach := (site.instant_approach definition bound context).takes
  refine .pass (.casting place context) (.bind (.plain ready happroach) (by omega) fun received => ?_)
  have hperform := takes_perform received bound (hwaits received bound)
  refine .pass (.called place definition.name received bound)
    (.bind (.plain ready hperform) (Nat.le_refl _) fun result => ?_)
  exact .pass (.finished place result) (.done (ready + polls) result)

/-- Every implementation is pending for as many polls as its function's name says. -/
def Waits (site : Site) (waits : String → Nat) : Prop :=
  ∀ name definition, site.equipment.functions.lookup name = some definition →
    ∀ context arguments, (definition.implementation context arguments).Takes (waits name)

/-- The plan of a node whose links are all known keeps to the timetable of the node. -/
theorem due_plan (hwaits : site.Waits waits) (node : Node) (place : Place)
    (known : site.Knows (node.callSites false place)) : ∀ poll context,
    (site.plan place node context).Due poll (poll + node.pendingPolls waits)
      (node.timetable waits place poll) := by
  refine site.induction
    (fun place node => ∀ poll context, (site.plan place node context).Due poll
      (poll + node.pendingPolls waits) (node.timetable waits place poll))
    (fun place index chain => ∀ poll context, (site.planChain place index chain context).Due poll
      (poll + Node.chainPolls waits chain) (Node.chainTimes waits place index poll chain))
    (fun place index given => ∀ poll context, Plan.DueEach poll (site.planLists place index given context)
      (poll + Node.argumentPolls waits given) (Node.argumentTimes waits place index poll given))
    (fun place index given => ∀ poll context, Plan.DueEach poll (site.planEach place index given context)
      (poll + Node.valuePolls waits given) (Node.valueTimes waits place index poll given))
    (fun place links ih poll context => due_enclose (ih poll context)) ?deferred
    (fun place name poll context => due_enclose (.done poll _))
    (fun place literal poll context => due_enclose (.done poll _))
    (fun place index poll context => .done poll context) ?link
    (fun place index poll context => .nil) ?argument (fun place index poll context => .nil) ?value node
    place known
  case deferred =>
    intro place links poll context
    have htakes : (Task.create fun serial =>
        .ok (.function (.deferred site.home serial links)) : Task Value).Takes 0 := fun _ world =>
      ⟨_, world.take, rfl⟩
    exact due_enclose (.plain poll htakes)
  case link =>
    intro place index name definition given rest hlookup hgiven hrest poll context
    have hlink := site.due_planLink (index :: place) (Entries.names given) (hgiven poll context).join
      (hwaits name definition hlookup) context
    have hchain := hlink.bind (Nat.le_add_right _ (Node.chainPolls waits rest)) fun result =>
      hrest _ result
    have hends : poll + Node.argumentPolls waits given + waits name + Node.chainPolls waits rest =
        poll + Node.chainPolls waits (⟨name, given⟩ :: rest) := by
      rw [Node.chainPolls]
      omega
    simp only [planChain, hlookup]
    rw [← hends]
    exact hchain
  case argument =>
    intro place index name values rest hvalues hrest poll context
    have heach := Plan.DueEach.cons (hvalues poll context).join (hrest poll context)
    rw [Nat.add_max_add_left] at heach
    exact heach
  case value =>
    intro place index first rest hfirst hrest poll context
    have heach := Plan.DueEach.cons (hfirst poll context) (hrest poll context)
    rw [Nat.add_max_add_left] at heach
    exact heach

end Site

namespace Towers

/-- Arguments wait together, links wait in turn. If every function is pending for a fixed number of polls,
and every link that is not set aside is known, an evaluation comes to its end. If it succeeds, it has been
pending for as many polls as the node says, and has passed its milestones as the timetable of the node
says: the values of all arguments of a link are entered in the poll in which the link starts, its function
is called in the poll in which the slowest of them is left, and the next link starts in the poll in which
the function is finished. -/
theorem arguments_wait_together (towers : Towers) (interpreter : Interpreter) (waits : String → Nat)
    (fixed : interpreter.site.Waits waits) (node : Node)
    (known : interpreter.site.Knows (node.callSites false [])) (context : Value) (world : World)
    (depth : Nat) :
    ∃ polls stories outcome world', stories.length = polls + 1 ∧ polls ≤ node.pendingPolls waits ∧
      towers.Ends (interpreter.interpret node context) world polls outcome world' ∧
      Plan.Ends (towers.entry depth) (interpreter.site.plan [] node context) world stories outcome
        world' ∧
      ∀ value, outcome = .ok value →
        polls = node.pendingPolls waits ∧
        (marksFrom 0 stories).Perm (node.timetable waits [] 0) ∧
        (∀ call ∈ node.callSites false [], call.aside = false →
          ∃ start ready, call.TakesTurn waits (marksFrom 0 stories) start ready) ∧
        Consecutive (marksFrom 0 stories) := by
  have hdue := Site.due_plan fixed node [] known 0 context
  obtain ⟨stories, outcome, world', hends, hle, hall⟩ := hdue.ends (towers.entry depth) world
  obtain ⟨polls, hlength, htask⟩ := hends.task
  rw [Site.task_plan] at htask
  refine ⟨polls, stories, outcome, world', hlength, by omega, htask, hends, ?_⟩
  intro value hvalue
  obtain ⟨hexact, hperm⟩ := hall value hvalue
  refine ⟨by omega, hperm, ?_, (node.timetable_consecutive [] 0).of_perm hperm⟩
  intro call hcall hnot
  obtain ⟨start, ready, hturn⟩ :=
    node.timetable_turns [] 0 call (CallSite.mem_active.mpr ⟨hcall, hnot⟩)
  exact ⟨start, ready, hturn.mono fun entry => hperm.mem_iff.mpr⟩

end Towers

namespace Stock

/-- For how many polls the functions that race are pending. -/
def racingWaits (name : String) : Nat :=
  (racing.site.equipment.functions.lookup name).elim 0 fun definition =>
    if definition.name = "wait" then 5 else if definition.name = "fail" then 1 else 0

theorem racing_waits : racing.site.Waits racingWaits := by
  intro name definition hlookup context arguments
  have hmem := FunctionRegistry.mem_of_lookup_ofList hlookup
  have hfinish (outcome : Except RuntimeError Value) : (Routine.finish outcome).Takes 0 :=
    fun _ _ world => ⟨outcome, world, rfl⟩
  simp only [List.mem_cons, List.not_mem_nil, or_false] at hmem
  rw [racingWaits, hlookup]
  rcases hmem with rfl | rfl | rfl
  · exact hfinish (.ok context)
  · exact Routine.takes_wait (hfinish (.ok context)) 5
  · exact Routine.takes_wait (hfinish (.error (.function "fail" "no"))) 1

end Stock

/-- The pair is called in the poll in which the slower value of its left argument is there, although that
value is dropped. -/
theorem Towers.arguments_wait_together_dropping :
    ∃ stories world',
      Stock.racing.alone.Ends (Stock.racing.interpret Stock.dropping .null) .start 5 (.ok .null) world' ∧
      Plan.Ends (Stock.racing.alone.entry 0) (Stock.racing.site.plan [] Stock.dropping .null) .start stories
        (.ok .null) world' ∧
      (0, .entered [0, 0, 0]) ∈ marksFrom 0 stories ∧ (5, .left [0, 0, 0]) ∈ marksFrom 0 stories ∧
      (5, .called [0]) ∈ marksFrom 0 stories := by
  obtain ⟨polls, stories, outcome, world', _, _, hends, hstories, hall⟩ :=
    arguments_wait_together Stock.racing.alone Stock.racing Stock.racingWaits Stock.racing_waits
      Stock.dropping (by decide) .null .start 0
  have hdrive : ∃ world', Stock.racing.alone.drive 0 10 (Stock.racing.interpret Stock.dropping .null) .start =
      (.done (.ok .null), world') := ⟨_, rfl⟩
  obtain ⟨_, hdrive⟩ := hdrive
  obtain ⟨_, _, hends'⟩ := ends_of_drive hdrive
  obtain ⟨_, rfl, _⟩ := hends.unique hends'
  obtain ⟨rfl, hperm, _⟩ := hall .null rfl
  have htimes (entry : Nat × Mark) (h : entry ∈ Stock.dropping.timetable Stock.racingWaits [] 0) :
      entry ∈ marksFrom 0 stories := hperm.mem_iff.mpr h
  exact ⟨stories, world', hends, hstories, htimes _ (by decide), htimes _ (by decide),
    htimes _ (by decide)⟩

end ChainExpr
