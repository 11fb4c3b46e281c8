import ChainExpr.Proofs.Recursion
import ChainExpr.Proofs.Story
import ChainExpr.Proofs.Warnings
import Mathlib.Order.WellFounded

namespace ChainExpr

variable {α β γ : Type} {mode : JoinMode}

/-- The routine does not wait for others to arrive, whatever it learns. -/
def Routine.MeetsNobody : Routine → Prop
  | .finish _ => True
  | .wait _ next | .arrive _ next => next.MeetsNobody
  | .await .. => False
  | .tick next => ∀ before, (next before).MeetsNobody
  | .call _ _ next => ∀ outcome, (next outcome).MeetsNobody

theorem Routine.MeetsNobody.leads {body rest : Routine} (hleads : body.Leads rest)
    (h : body.MeetsNobody) : rest.MeetsNobody := by
  cases hleads with
  | await => exact h.elim
  | tick next before => exact h before
  | call callee context next outcome => exact h outcome
  | _ => exact h

/-- All routines of a task are to be of one kind. -/
def Policy.routines (kind : Routine → Prop)
    (leads : ∀ body rest, body.Leads rest → kind body → kind rest) : Policy where
  event _ _ := True
  routine _ body := kind body
  event_andThen _ _ _ _ := trivial
  routine_leads _ body rest := leads body rest

/-- No part of a task calls a function value. -/
def Policy.uncalling : Policy := .routines Routine.CallsNothing fun _ _ hleads h => h.leads hleads

/-- No part of a task calls a function value or waits at a meeting point. -/
def Policy.alone : Policy :=
  .routines (fun body => body.CallsNothing ∧ body.MeetsNobody)
    fun _ _ hleads h => ⟨h.1.leads hleads, h.2.leads hleads⟩

namespace Task

theorem Obeys.uncalling {task : Task α} (h : task.Obeys .alone) : task.Obeys .uncalling := by
  induction task with
  | finish outcome => trivial
  | emit entry next ih => exact ⟨trivial, ih h.2⟩
  | create next ih => exact fun serial => ih serial (h serial)
  | routine function body next ih => exact ⟨h.1.1, fun outcome => ih outcome (h.2 outcome)⟩
  | both mode left right next ihl ihr ih =>
    exact ⟨ihl h.1, ihr h.2.1, fun outcome => ih outcome (h.2.2 outcome)⟩

/-- All parts that are not done wait at meeting points, and there are not enough arrivals for any. -/
inductive HeldUp (world : World) : {α : Type} → Task α → Prop
  | await {α : Type} {function point : String} {count : Nat} {body : Routine}
      {next : Except RuntimeError Value → Task α} (missing : world.arrivals point < count) :
      HeldUp world (.routine function (.await point count body) next)
  | both {α β γ : Type} {mode : JoinMode} {left : Task β} {right : Task γ}
      (next : Except RuntimeError (β × γ) → Task α) (lefts : HeldUp world left)
      (rights : HeldUp world right) : HeldUp world (.both mode left right next)
  | left {α β γ : Type} {mode : JoinMode} {left : Task β} {outcome : Except RuntimeError γ}
      (kept : ∀ error, outcome = .error error → mode = .inOrder)
      (next : Except RuntimeError (β × γ) → Task α) (lefts : HeldUp world left) :
      HeldUp world (.both mode left (.finish outcome) next)
  | right {α β γ : Type} {mode : JoinMode} {right : Task γ} (a : β)
      (next : Except RuntimeError (β × γ) → Task α) (rights : HeldUp world right) :
      HeldUp world (.both mode (.finish (.ok a)) right next)

/-- Who meets nobody is not held up. -/
theorem HeldUp.not_alone {world : World} {task : Task α} (h : task.HeldUp world) :
    ¬ task.Obeys .alone := by
  induction h with
  | await missing => exact fun hobeys => hobeys.1.2
  | both next lefts rights ihl ihr => exact fun hobeys => ihl hobeys.1
  | left kept next lefts ih => exact fun hobeys => ih hobeys.1
  | right a next rights ih => exact fun hobeys => ih hobeys.2.1

end Task

namespace Towers

variable {towers : Towers} {interpreter : Interpreter}

/-- Everything that the functions and hosts of a tower do is of one kind. -/
structure Does (towers : Towers) (kind : Routine → Prop) : Prop where
  functions : ∀ interpreter, towers.Within interpreter → ∀ name definition,
    interpreter.functions.lookup name = some definition → ∀ context arguments,
      kind (definition.implementation context arguments)
  answers : ∀ equipment name answer, towers.Within (.mk equipment (.custom name answer)) →
    ∀ chain context, kind (answer chain context)

theorem Does.allows {kind : Routine → Prop} (h : towers.Does kind)
    (leads : ∀ body rest, body.Leads rest → kind body → kind rest) :
    (Policy.routines kind leads).Allows towers where
  log _ _ := trivial
  conversion _ _ := trivial
  request _ _ _ _ _ := trivial
  call interpreter hwithin name definition hlookup context arguments _ :=
    ⟨trivial, h.functions interpreter hwithin name definition hlookup context arguments,
      fun _ => trivial⟩
  answer equipment name answer hwithin chain context :=
    h.answers equipment name answer hwithin chain context

/-- What has no call in it keeps to its policy on the way. -/
theorem Runs.obeys_of_no_call {policy : Policy}
    (hnone : ∀ function callee context next, ¬ policy.routine function (.call callee context next))
    {a b : Task α × World} (h : towers.Runs a b) (ha : a.1.Obeys policy) : b.1.Obeys policy := by
  induction h with
  | refl => exact ha
  | tail _ step ih => exact step.obeys (fun _ _ _ _ hcall => absurd hcall (hnone _ _ _ _)) ih

/-- A task that is neither done nor held up has a step to make. -/
theorem step_or_heldUp (towers : Towers) (task : Task α) (world : World) :
    (∃ outcome, task = .finish outcome) ∨ (∃ state, towers.Step (task, world) state) ∨
      task.HeldUp world := by
  induction task with
  | finish outcome => exact .inl ⟨outcome, rfl⟩
  | emit entry next _ => exact .inr (.inl ⟨_, .emit entry next world⟩)
  | create next _ => exact .inr (.inl ⟨_, .create next world⟩)
  | routine function body next _ =>
    right
    cases body with
    | finish outcome => exact .inl ⟨_, .finish function outcome next world⟩
    | wait polls body =>
      cases polls with
      | zero => exact .inl ⟨_, .resume function body next world⟩
      | succ polls => exact .inl ⟨_, .elapse function polls body next world⟩
    | arrive point body => exact .inl ⟨_, .arrive function point body next world⟩
    | await point count body =>
      by_cases harrived : count ≤ world.arrivals point
      · exact .inl ⟨_, .meet function point count body next world harrived⟩
      · exact .inr (.await (Nat.lt_of_not_le harrived))
    | tick body => exact .inl ⟨_, .tick function body next world⟩
    | call callee context body => exact .inl ⟨_, .call function callee context body next world⟩
  | both mode left right next ihl ihr _ =>
    right
    rcases ihl with ⟨outcome, rfl⟩ | ⟨⟨task, middle⟩, hstep⟩ | hleft
    · cases outcome with
      | error error => exact .inl ⟨_, .left_failed error right next world⟩
      | ok a =>
        rcases ihr with ⟨outcome, rfl⟩ | ⟨⟨task, middle⟩, hstep⟩ | hright
        · cases outcome with
          | error error => exact .inl ⟨_, .right_failed error (.inr ⟨a, rfl⟩) next world⟩
          | ok b => exact .inl ⟨_, .joined a b next world⟩
        · exact .inl ⟨_, .right _ next hstep⟩
        · exact .inr (.right a next hright)
    · exact .inl ⟨_, .left right next hstep⟩
    · rcases ihr with ⟨outcome, rfl⟩ | ⟨⟨task, middle⟩, hstep⟩ | hright
      · cases outcome with
        | error error =>
          cases mode with
          | eager => exact .inl ⟨_, .right_failed error (.inl rfl) next world⟩
          | inOrder => exact .inr (.left (fun _ _ => rfl) next hleft)
        | ok b => exact .inr (.left (by simp) next hleft)
      · exact .inl ⟨_, .right left next hstep⟩
      · exact .inr (.both next hleft hright)

/-- The first task is what is left of the second one by a step in some state. -/
def Remains (towers : Towers) (rest task : Task α) : Prop :=
  ∃ world world', towers.Step (task, world) (rest, world')

theorem acc_of_steps {task : Task α}
    (h : ∀ {world world' : World} {rest : Task α}, towers.Step (task, world) (rest, world') →
      Acc towers.Remains rest) : Acc towers.Remains task :=
  ⟨task, fun _ ⟨_, _, step⟩ => h step⟩

theorem acc_routine {function : String} {body : Routine}
    {next : Except RuntimeError Value → Task α} (h : body.CallsNothing)
    (hnext : ∀ outcome, Acc towers.Remains (next outcome)) :
    Acc towers.Remains (.routine function body next) := by
  induction body with
  | finish outcome =>
    apply acc_of_steps
    rintro _ _ _ ⟨⟩
    exact hnext outcome
  | wait polls body ih =>
    induction polls with
    | zero =>
      apply acc_of_steps
      rintro _ _ _ ⟨⟩
      exact ih h
    | succ polls ihp =>
      apply acc_of_steps
      rintro _ _ _ ⟨⟩
      exact ihp h
  | arrive point body ih =>
    apply acc_of_steps
    rintro _ _ _ ⟨⟩
    exact ih h
  | await point count body ih =>
    apply acc_of_steps
    rintro _ _ _ ⟨⟩
    exact ih h
  | tick body ih =>
    apply acc_of_steps
    rintro world _ _ ⟨⟩
    exact ih world.ticks (h world.ticks)
  | call callee context body ih => exact h.elim

/-- Two parts side by side have only so much to do, in whatever order they go on. -/
theorem acc_both {left : Task β} {right : Task γ} {next : Except RuntimeError (β × γ) → Task α}
    (hleft : Acc towers.Remains left) (hright : Acc towers.Remains right)
    (hnext : ∀ outcome, Acc towers.Remains (next outcome)) :
    Acc towers.Remains (.both mode left right next) := by
  induction hleft generalizing right with
  | intro left _ ihl =>
    induction hright with
    | intro right hright ihr =>
      apply acc_of_steps
      intro world world' rest step
      cases step with
      | left _ _ step => exact ihl _ ⟨world, world', step⟩ ⟨right, hright⟩
      | right _ _ step => exact ihr _ ⟨world, world', step⟩
      | joined a b => exact hnext (.ok (a, b))
      | left_failed error => exact hnext (.error error)
      | right_failed error => exact hnext (.error error)

/-- There is only so much to be done for a task without calls. -/
theorem acc_remains (towers : Towers) {task : Task α} (h : task.Obeys .uncalling) :
    Acc towers.Remains task := by
  induction task with
  | finish outcome => exact acc_of_steps fun step => absurd step not_step_finish
  | emit entry next ih =>
    apply acc_of_steps
    rintro _ _ _ ⟨⟩
    exact ih h.2
  | create next ih =>
    apply acc_of_steps
    rintro world _ _ ⟨⟩
    exact ih world.serial (h world.serial)
  | routine function body next ih => exact acc_routine h.1 fun outcome => ih outcome (h.2 outcome)
  | both mode left right next ihl ihr ih =>
    exact acc_both (ihl h.1) (ihr h.2.1) fun outcome => ih outcome (h.2.2 outcome)

/-- No run of a task without calls goes on for ever. -/
theorem exists_not_step {states : Nat → Task α × World} (h : (states 0).1.Obeys .uncalling) :
    ∃ n, ¬ towers.Step (states n) (states (n + 1)) := by
  by_contra hall
  simp only [not_exists, not_not] at hall
  refine (acc_iff_isEmpty_descending_chain.mp (acc_remains towers h)).false ?_
  exact ⟨fun n => (states n).1, rfl, fun n => ⟨(states n).2, (states (n + 1)).2, hall n⟩⟩

/-- What a round makes of a task: some steps, or none if it is done or held up. -/
inductive Moves (towers : Towers) : Task α → World → Task α → World → Prop
  | steps {task rest : Task α} {world world' : World}
      (steps : Relation.TransGen towers.Step (task, world) (rest, world')) :
      Moves towers task world rest world'
  | done (outcome : Except RuntimeError α) (world : World) :
      Moves towers (.finish outcome) world (.finish outcome) world
  | heldUp {task : Task α} {world : World} (held : task.HeldUp world) :
      Moves towers task world task world

theorem Moves.runs {task rest : Task α} {world world' : World}
    (h : towers.Moves task world rest world') : towers.Runs (task, world) (rest, world') := by
  cases h with
  | steps steps => exact steps.to_reflTransGen
  | done outcome world => exact .refl _
  | heldUp held => exact .refl _

/-- Behind a step there is a move of at least one step. -/
theorem Moves.after {a : Task α × World} {task rest : Task α} {world world' : World}
    (h : towers.Moves task world rest world') (hstep : Relation.TransGen towers.Step a (task, world)) :
    Relation.TransGen towers.Step a (rest, world') :=
  hstep.trans_left h.runs

/-- What a round makes of a routine that calls nothing. -/
inductive RoutineMoves (towers : Towers) (function : String)
    (next : Except RuntimeError Value → Task α) (body : Routine) (world : World) :
    RoutineProgress → World → Prop
  | done {outcome : Except RuntimeError Value} {world' : World}
      (steps : Relation.TransGen towers.Step (.routine function body next, world)
        (next outcome, world')) :
      RoutineMoves towers function next body world (.done outcome) world'
  | pending {rest : Routine} {world' : World}
      (moves : towers.Moves (.routine function body next) world (.routine function rest next) world') :
      RoutineMoves towers function next body world (.pending rest) world'

theorem RoutineMoves.after {function : String} {next : Except RuntimeError Value → Task α}
    {body rest : Routine} {world middle world' : World} {stands : RoutineProgress}
    (h : towers.RoutineMoves function next rest middle stands world')
    (step : towers.Step (.routine function body next, world) (.routine function rest next, middle)) :
    towers.RoutineMoves function next body world stands world' := by
  cases h with
  | done steps => exact .done (.head step steps)
  | pending moves => exact .pending (.steps (moves.after (.single step)))

theorem routine_moves (towers : Towers) (enter : Entry) (function : String)
    (next : Except RuntimeError Value → Task α) {body : Routine} (h : body.CallsNothing)
    {world world' : World} {stands : RoutineProgress}
    (hround : body.round enter function world = (stands, world')) :
    towers.RoutineMoves function next body world stands world' := by
  induction body generalizing world with
  | finish outcome =>
    cases hround
    exact .done (.single (.finish function outcome next _))
  | wait polls body ih =>
    cases polls with
    | zero => exact (ih h hround).after (.resume function body next world)
    | succ polls =>
      cases hround
      exact .pending (.steps (.single (.elapse function polls body next _)))
  | arrive point body ih => exact (ih h hround).after (.arrive function point body next world)
  | await point count body ih =>
    rw [Routine.round] at hround
    split at hround
    · rename_i harrived
      exact (ih h hround).after (.meet function point count body next world harrived)
    · rename_i hmissing
      cases hround
      exact .pending (.heldUp (.await (Nat.lt_of_not_le hmissing)))
  | tick body ih => exact (ih world.ticks (h world.ticks) hround).after (.tick function body next world)
  | call callee context body ih => exact h.elim

theorem steps_left {a b : Task β × World} (h : Relation.TransGen towers.Step a b) (right : Task γ)
    (next : Except RuntimeError (β × γ) → Task α) :
    Relation.TransGen towers.Step (.both mode a.1 right next, a.2) (.both mode b.1 right next, b.2) := by
  induction h with
  | single step => exact .single (.left right next step)
  | tail _ step ih => exact ih.tail (.left right next step)

theorem steps_right {a b : Task γ × World} (h : Relation.TransGen towers.Step a b) (left : Task β)
    (next : Except RuntimeError (β × γ) → Task α) :
    Relation.TransGen towers.Step (.both mode left a.1 next, a.2) (.both mode left b.1 next, b.2) := by
  induction h with
  | single step => exact .single (.right left next step)
  | tail _ step ih => exact ih.tail (.right left next step)

/-- Two parts that have moved have moved side by side, if no failure of theirs counted before and they were
not both done. -/
theorem Moves.both {left restl : Task β} {right restr : Task γ} {world middle world' : World}
    (next : Except RuntimeError (β × γ) → Task α) (hleft : towers.Moves left world restl middle)
    (hright : towers.Moves right middle restr world') (goodl : ∀ error, left ≠ .fail error)
    (goodr : ∀ error, right = .fail error → ¬ mode.Heeds left) (hopen : ∀ a b, left = .ok a → right ≠ .ok b) :
    towers.Moves (.both mode left right next) world (.both mode restl restr next) world' := by
  cases hleft with
  | steps steps =>
    exact .steps ((steps_left steps right next).trans_left (hright.runs.right restl next))
  | done outcome =>
    cases hright with
    | steps steps => exact .steps (steps_right steps _ next)
    | done outcome' =>
      cases outcome with
      | error error => exact absurd rfl (goodl error)
      | ok a =>
        cases outcome' with
        | error error => exact absurd (.inr ⟨a, rfl⟩) (goodr error rfl)
        | ok b => exact absurd rfl (hopen a b rfl)
    | heldUp held =>
      cases outcome with
      | error error => exact absurd rfl (goodl error)
      | ok a => exact .heldUp (.right a next held)
  | heldUp held =>
    cases hright with
    | steps steps => exact .steps (steps_right steps _ next)
    | done outcome =>
      refine .heldUp (.left ?_ next held)
      rintro error rfl
      cases mode with
      | eager => exact absurd (.inl rfl) (goodr error rfl)
      | inOrder => rfl
    | heldUp held' => exact .heldUp (.both next held held')

/-- A round makes as many steps as can be made. It makes none only if the task is done or held up. -/
theorem round_moves (towers : Towers) (enter : Entry) {task : Task α} (h : task.Obeys .uncalling)
    {world world' : World} {stands : Progress α} (hround : task.round enter world = (stands, world')) :
    stands ≠ .exhausted ∧ ∃ rest, stands.Leaves rest ∧ towers.Moves task world rest world' := by
  induction task generalizing world world' with
  | finish outcome =>
    cases hround
    exact ⟨by simp, _, rfl, .done outcome _⟩
  | emit entry next ih =>
    obtain ⟨hends, rest, hleaves, hmoves⟩ := ih h.2 hround
    exact ⟨hends, rest, hleaves, .steps (hmoves.after (.single (.emit entry next world)))⟩
  | create next ih =>
    obtain ⟨hends, rest, hleaves, hmoves⟩ := ih world.serial (h world.serial) hround
    exact ⟨hends, rest, hleaves, .steps (hmoves.after (.single (.create next world)))⟩
  | routine function body next ih =>
    rw [Task.round] at hround
    cases hbody : body.round enter function world with
    | mk progress middle =>
      have hmoves := routine_moves towers enter function next h.1 hbody
      cases hmoves with
      | @done outcome _ steps =>
        simp only [hbody] at hround
        obtain ⟨hends, rest, hleaves, hlater⟩ := ih outcome (h.2 outcome) hround
        exact ⟨hends, rest, hleaves, .steps (hlater.after steps)⟩
      | @pending rest _ moves =>
        simp only [hbody] at hround
        cases hround
        exact ⟨by simp, _, rfl, moves⟩
  | both mode left right next ihl ihr ih =>
    cases Task.round_both_cases hround with
    | left_exhausted lefts => exact absurd rfl (ihl h.1 lefts).1
    | right_exhausted lefts stays rights => exact absurd rfl (ihr h.2.1 rights).1
    | @left_failed error middle _ _ lefts later =>
      obtain ⟨_, _, rfl, hleft⟩ := ihl h.1 lefts
      obtain ⟨hends, rest, hleaves, hlater⟩ := ih (.error error) (h.2.2 _) later
      have hfailed := @Step.left_failed towers _ _ _ mode error right next middle
      exact ⟨hends, rest, hleaves, .steps (hlater.after (.tail' (hleft.runs.left right next) hfailed))⟩
    | @right_failed _ _ error _ last _ _ lefts stays rights heeded later =>
      obtain ⟨_, restl, hleavesl, hleft⟩ := ihl h.1 lefts
      obtain ⟨_, _, rfl, hright⟩ := ihr h.2.1 rights
      obtain ⟨hends, rest, hleaves, hlater⟩ := ih (.error error) (h.2.2 _) later
      obtain rfl := stays.leaves hleavesl
      have hparts := hleft.runs.parts hright.runs mode next
      have hfailed := @Step.right_failed towers _ _ _ mode error restl (stays.heeds heeded) next last
      exact ⟨hends, rest, hleaves, .steps (hlater.after (.tail' hparts hfailed))⟩
    | @joined a b _ last _ _ lefts rights later =>
      obtain ⟨_, _, rfl, hleft⟩ := ihl h.1 lefts
      obtain ⟨_, _, rfl, hright⟩ := ihr h.2.1 rights
      obtain ⟨hends, rest, hleaves, hlater⟩ := ih (.ok (a, b)) (h.2.2 _) later
      have hparts := hleft.runs.parts hright.runs mode next
      have hjoined := @Step.joined towers _ _ _ mode a b next last
      exact ⟨hends, rest, hleaves, .steps (hlater.after (.tail' hparts hjoined))⟩
    | pending lefts staysl rights staysr waits =>
      obtain ⟨_, restl, hleavesl, hleft⟩ := ihl h.1 lefts
      obtain ⟨_, restr, hleavesr, hright⟩ := ihr h.2.1 rights
      cases staysl.leaves hleavesl
      cases staysr.leaves hleavesr
      refine ⟨by simp, _, rfl, hleft.both next hright ?_ ?_ ?_⟩
      · rintro error rfl
        cases lefts
        cases staysl
      · rintro error rfl
        cases rights
        cases staysr
      · rintro a b rfl rfl
        cases lefts
        cases rights
        rcases waits with waits | waits <;> cases waits
    | held unheeded lefts rights =>
      obtain ⟨_, _, rfl, hleft⟩ := ihl h.1 lefts
      obtain ⟨_, _, rfl, hright⟩ := ihr h.2.1 rights
      refine ⟨by simp, _, rfl, hleft.both next hright ?_ ?_ ?_⟩
      · rintro error rfl
        cases lefts
      · rintro error rfl (heager | ⟨a, rfl⟩)
        · exact absurd (heager.symm.trans unheeded) (by simp)
        · cases lefts
      · rintro a b rfl
        cases lefts

theorem remains_of_steps {a b : Task α × World} (h : Relation.TransGen towers.Step a b) :
    Relation.TransGen towers.Remains b.1 a.1 := by
  induction h with
  | single step => exact .single ⟨_, _, step⟩
  | tail _ step ih => exact .head ⟨_, _, step⟩ ih

/-- Rounds of a task without calls come to its outcome, or to where it is held up. -/
theorem ends_or_heldUp (towers : Towers) {task : Task α} (h : task.Obeys .uncalling) (world : World) :
    (∃ polls outcome world', towers.Ends task world polls outcome world') ∨
      ∃ polls rest world', towers.Pends task world polls rest world' ∧ rest.HeldUp world' := by
  induction (acc_remains towers h).transGen generalizing world with
  | intro task _ ih =>
    cases hround : towers.poll 0 task world with
    | mk stands middle =>
      rw [poll_eq] at hround
      obtain ⟨hends, rest, hleaves, hmoves⟩ := round_moves towers _ h hround
      have hpolls : towers.Polls task world stands middle := .of_round hends 0 hround
      cases stands with
      | exhausted => exact absurd rfl hends
      | done outcome => exact .inl ⟨0, outcome, middle, .now hpolls⟩
      | pending left =>
        obtain rfl : rest = left := hleaves
        cases hmoves with
        | done outcome => cases hround
        | heldUp held => exact .inr ⟨0, task, world, .now task world, held⟩
        | steps steps =>
          have hrest : rest.Obeys .uncalling :=
            Runs.obeys_of_no_call (fun _ _ _ _ hcall => hcall) steps.to_reflTransGen h
          rcases ih rest (remains_of_steps steps) hrest middle with
            ⟨polls, outcome, world', hdone⟩ | ⟨polls, last, world', hpends, hheld⟩
          · exact .inl ⟨polls + 1, outcome, world', .later hpolls hdone⟩
          · exact .inr ⟨polls + 1, last, world', .later hpolls hpends, hheld⟩

/-- Where nobody meets anybody, rounds come to the outcome. -/
theorem ends_of_alone {task : Task α} (h : task.Obeys .alone) (world : World) :
    ∃ polls outcome world', towers.Ends task world polls outcome world' := by
  rcases ends_or_heldUp towers h.uncalling world with hends | ⟨_, rest, _, hpends, hheld⟩
  · exact hends
  · have hnone (function : String) (callee : Callable) (context : Value)
        (next : Except RuntimeError Value → Routine) :
        ¬ Policy.alone.routine function (.call callee context next) := fun hcall => hcall.1
    have hrest := Runs.obeys_of_no_call hnone hpends.runs h
    exact absurd hrest hheld.not_alone

/-- Evaluation without calls of function values terminates. It recurses only so deep as the size of the
node and the number of interpreters below say. No run in steps goes on for ever, in whatever order the
parts go on; and where a run cannot go on it has its outcome or is held up at meeting points. So the
rounds of an evaluation come to its outcome, unless it is held up, as it never is if no implementation
waits for others to arrive. -/
theorem evaluation_terminates (towers : Towers) (interpreter : Interpreter)
    (uncalling : interpreter.alone.Does Routine.CallsNothing) (node : Node) (context : Value)
    (world : World) :
    (∀ (beyond : {α : Type} → Task α) depth, 3 * node.size + 2 * interpreter.level ≤ depth →
      Interpreter.interpretTo beyond depth interpreter node context = interpreter.interpret node context) ∧
    (∀ states : Nat → Task Value × World, states 0 = (interpreter.interpret node context, world) →
      ∃ n, ¬ towers.Step (states n) (states (n + 1))) ∧
    (∀ rest world', towers.Runs (interpreter.interpret node context, world) (rest, world') →
      (∀ state, ¬ towers.Step (rest, world') state) →
        (∃ outcome, rest = .finish outcome) ∨ rest.HeldUp world') ∧
    ((∃ polls outcome world',
        towers.Ends (interpreter.interpret node context) world polls outcome world') ∨
      ∃ polls rest world',
        towers.Pends (interpreter.interpret node context) world polls rest world' ∧
          rest.HeldUp world') ∧
    (interpreter.alone.Does Routine.MeetsNobody →
      ∃ polls outcome world',
        towers.Ends (interpreter.interpret node context) world polls outcome world') := by
  have hobeys : (interpreter.interpret node context).Obeys .uncalling :=
    (uncalling.allows _).obeys_interpret ⟨0, .top⟩ node context
  refine ⟨fun beyond depth h => (Interpreter.calls_to_depth beyond depth).1 _ _ _ h, ?_, ?_,
    ends_or_heldUp towers hobeys world, ?_⟩
  · intro states hstart
    exact exists_not_step (hstart ▸ hobeys)
  · intro rest world' _ hstill
    rcases step_or_heldUp towers rest world' with hdone | ⟨state, hstep⟩ | hheld
    · exact .inl hdone
    · exact absurd hstep (hstill state)
    · exact .inr hheld
  · intro alone
    have hboth : interpreter.alone.Does fun body => body.CallsNothing ∧ body.MeetsNobody :=
      ⟨fun lower hwithin name definition hlookup context arguments =>
          ⟨uncalling.functions lower hwithin name definition hlookup context arguments,
            alone.functions lower hwithin name definition hlookup context arguments⟩,
        fun equipment name answer hwithin chain context =>
          ⟨uncalling.answers equipment name answer hwithin chain context,
            alone.answers equipment name answer hwithin chain context⟩⟩
    exact ends_of_alone ((hboth.allows _).obeys_interpret ⟨0, .top⟩ node context) world

end Towers

namespace Stock

/-- Knows nothing, and hands on to one that takes its time. -/
def patient : Interpreter := .mk ⟨.empty, .standard, .standard, 0⟩ (.delegating (pausing 2))

theorem patient_does {kind : Routine → Prop} (h : ∀ context arguments,
    kind ((act (.yield 2 .context)).implementation context arguments)) : patient.alone.Does kind where
  functions lower hwithin name definition hlookup context arguments := by
    rcases Interpreter.within_delegating_rejecting.mp (Interpreter.within_alone.mp hwithin) with rfl | rfl
    · cases hlookup
    · have hmem := FunctionRegistry.mem_of_lookup_ofList hlookup
      rw [List.mem_singleton.mp hmem]
      exact h context arguments
  answers equipment name answer hwithin := by
    have hin := Interpreter.within_delegating_rejecting.mp (Interpreter.within_alone.mp hwithin)
    rcases hin with hsame | hsame <;> cases hsame

end Stock

/-- Two links that are handed over, to a function that waits. -/
theorem Towers.evaluation_terminates_patient :
    Stock.patient.alone.Does Routine.CallsNothing ∧
      (∀ depth, 11 ≤ depth → Interpreter.interpretTo (fun {_} => .fail (.notCallable "")) depth Stock.patient
        (.expression [⟨"act", []⟩, ⟨"act", []⟩]) .null =
          Stock.patient.interpret (.expression [⟨"act", []⟩, ⟨"act", []⟩]) .null) ∧
      ∃ polls outcome world', Stock.patient.alone.Ends
        (Stock.patient.interpret (.expression [⟨"act", []⟩, ⟨"act", []⟩]) .null) .start polls outcome
          world' := by
  have hcalls : Stock.patient.alone.Does Routine.CallsNothing := Stock.patient_does fun _ _ => trivial
  have hterminates := evaluation_terminates Stock.patient.alone Stock.patient hcalls
    (.expression [⟨"act", []⟩, ⟨"act", []⟩]) .null .start
  refine ⟨hcalls, fun depth hdepth => hterminates.1 _ depth ?_,
    hterminates.2.2.2.2 (Stock.patient_does fun _ _ => trivial)⟩
  exact le_trans (by decide) hdepth

namespace Stock

/-- A chain that calls the function value that it is run on, on itself. -/
def itself : Value := .function (.deferred ⟨0, 0⟩ 0 callingContext)

theorem round_callingContext : ∃ next bound, ∀ (enter : Entry) (world : World),
    (onlyCalling.invokeChain callingContext itself).round enter world =
      (Task.routine "call" (.call (.deferred ⟨0, 0⟩ 0 callingContext) itself .finish) next).round enter
        (world.record (.call "call" itself bound)) := ⟨_, _, fun _ _ => rfl⟩

/-- A chain that calls itself is not done in any depth of calls. -/
theorem poll_callingContext (depth : Nat) (world : World) :
    (onlyCalling.alone.poll depth (onlyCalling.invokeChain callingContext itself) world).1 = .exhausted := by
  obtain ⟨next, bound, hround⟩ := round_callingContext
  induction depth generalizing world with
  | zero =>
    rw [Towers.poll_eq, hround]
    rfl
  | succ depth ih =>
    have hagain := ih (world.record (.call "call" itself bound))
    have hcall (world : World) :
        onlyCalling.alone.entry (depth + 1) (.deferred ⟨0, 0⟩ 0 callingContext) itself world =
          onlyCalling.alone.poll depth (onlyCalling.invokeChain callingContext itself) world := rfl
    rw [Towers.poll_eq, hround, Task.round, Routine.round, hcall]
    cases hpoll : onlyCalling.alone.poll depth (onlyCalling.invokeChain callingContext itself)
        (world.record (.call "call" itself bound)) with
    | mk stands middle =>
      rw [hpoll] at hagain
      obtain rfl : stands = .exhausted := hagain
      rfl

/-- A function value that is called on itself and calls its context never comes to an end. -/
theorem callingContext_never_ends (world world' : World) (polls : Nat)
    (outcome : Except RuntimeError Value) :
    ¬ onlyCalling.alone.Ends (onlyCalling.interpret (.expression callingContext) itself) world polls outcome
      world' := by
  have hnever (progress : Progress Value) (middle : World) :
      ¬ onlyCalling.alone.Polls (onlyCalling.interpret (.expression callingContext) itself) world progress
        middle := by
    rintro ⟨hdone, depth, hpoll⟩
    have hexhausted := poll_callingContext depth world
    rw [Interpreter.invokeChain_eq] at hexhausted
    rw [Interpreter.interpret, Site.interpret] at hpoll
    rw [hpoll] at hexhausted
    exact hdone hexhausted
  intro hends
  cases hends with
  | now done => exact hnever _ _ done
  | later waits _ => exact hnever _ _ waits

end Stock

end ChainExpr
