import ChainExpr.Proofs.Likeness
import ChainExpr.Proofs.Links

namespace ChainExpr

open Likeness (Like)

variable {α β : Type}

/-- A routine from the end of its next waits on. -/
def Routine.awake : Routine → Routine
  | .wait _ next => next.awake
  | routine => routine

/-- Apart from waits, two routines both finish with like outcomes, or both make like calls and go on
alike after like outcomes, whatever has been paired up to then. -/
inductive Routine.Alike : Pairing → Routine → Routine → Prop
  | finish {p : Pairing} {body body' : Routine} {outcome outcome' : Except RuntimeError Value}
      (left : body.awake = .finish outcome) (right : body'.awake = .finish outcome')
      (outcomes : Like p outcome outcome') : Alike p body body'
  | call {p : Pairing} {body body' : Routine} {callee callee' : Callable} {context context' : Value}
      {next next' : Except RuntimeError Value → Routine}
      (left : body.awake = .call callee context next)
      (right : body'.awake = .call callee' context' next')
      (callees : Like p (Value.function callee) (Value.function callee'))
      (contexts : Like p context context')
      (later : ∀ q, p ≤ q → q.Faithful → ∀ outcome outcome', Like q outcome outcome' →
        Alike q (next outcome) (next' outcome')) : Alike p body body'

/-- Two tasks of one form whose routines and outcomes are alike. -/
inductive Task.Alike : {α : Type} → [Likeness α] → Pairing → Task α → Task α → Prop
  | finish {α : Type} [Likeness α] {p : Pairing} {outcome outcome' : Except RuntimeError α}
      (outcomes : Like p outcome outcome') : Alike p (.finish outcome) (.finish outcome')
  | emit {α : Type} [Likeness α] {p : Pairing} {next next' : Task α} (entry entry' : Event)
      (later : Alike p next next') : Alike p (.emit entry next) (.emit entry' next')
  | create {α : Type} [Likeness α] {p : Pairing} {next next' : Nat → Task α}
      (later : ∀ q, p ≤ q → q.Faithful → ∀ a b, q a b → Alike q (next a) (next' b)) :
      Alike p (.create next) (.create next')
  | routine {α : Type} [Likeness α] {p : Pairing} {body body' : Routine}
      {next next' : Except RuntimeError Value → Task α} (function function' : String)
      (bodies : body.Alike p body')
      (later : ∀ q, p ≤ q → q.Faithful → ∀ outcome outcome', Like q outcome outcome' →
        Alike q (next outcome) (next' outcome')) :
      Alike p (.routine function body next) (.routine function' body' next')
  | both {α β γ : Type} [Likeness α] [Likeness β] [Likeness γ] {mode : JoinMode} {p : Pairing}
      {left left' : Task β}
      {right right' : Task γ} {next next' : Except RuntimeError (β × γ) → Task α}
      (lefts : Alike p left left') (rights : Alike p right right')
      (later : ∀ q, p ≤ q → q.Faithful → ∀ outcome outcome', Like q outcome outcome' →
        Alike q (next outcome) (next' outcome')) :
      Alike p (.both mode left right next) (.both mode left' right' next')

namespace Task.Alike

variable [Likeness α] [Likeness β] {p : Pairing}

theorem andThen {task task' : Task α} {next next' : Except RuntimeError α → Task β}
    (h : task.Alike p task') (hp : p.Faithful)
    (hnext : ∀ q, p ≤ q → q.Faithful → ∀ outcome outcome', Like q outcome outcome' →
      (next outcome).Alike q (next' outcome')) :
    (task.andThen next).Alike p (task'.andThen next') := by
  induction h with
  | @finish _ _ p outcome outcome' outcomes => exact hnext p le_rfl hp outcome outcome' outcomes
  | emit entry entry' _ ih => exact .emit entry entry' (ih hp hnext)
  | create _ ih =>
    refine .create fun q hle hq a b hab => ih q hle hq a b hab hq fun r hler => ?_
    exact hnext r (hle.trans hler)
  | routine function function' bodies _ ih =>
    refine .routine function function' bodies fun q hle hq outcome outcome' houtcome => ?_
    exact ih q hle hq outcome outcome' houtcome hq fun r hler => hnext r (hle.trans hler)
  | both lefts rights _ _ _ ih =>
    refine .both lefts rights fun q hle hq outcome outcome' houtcome => ?_
    exact ih q hle hq outcome outcome' houtcome hq fun r hler => hnext r (hle.trans hler)

theorem ok {a b : α} (h : Like p a b) : (Task.ok a).Alike p (Task.ok b) := .finish (.ok h)

theorem fail (error error' : RuntimeError) : (Task.fail error : Task α).Alike p (.fail error') :=
  .finish (.error error error')

theorem bind {task task' : Task α} {next next' : α → Task β} (h : task.Alike p task')
    (hp : p.Faithful)
    (hnext : ∀ q, p ≤ q → q.Faithful → ∀ a b, Like q a b → (next a).Alike q (next' b)) :
    (task.bind next).Alike p (task'.bind next') := by
  apply h.andThen hp
  intro q hle hq outcome outcome' houtcome
  cases houtcome with
  | ok hlike => exact hnext q hle hq _ _ hlike
  | error error error' => exact fail error error'

theorem onError {task task' : Task α} (entry entry' : RuntimeError → LogEntry)
    (h : task.Alike p task') (hp : p.Faithful) :
    (task.onError entry).Alike p (task'.onError entry') := by
  apply h.andThen hp
  intro q _ _ outcome outcome' houtcome
  cases houtcome with
  | ok hlike => exact ok hlike
  | error error error' => exact .emit _ _ (fail error error')

theorem emitAll {events events' : List Event} (hlength : events.length = events'.length)
    {task task' : Task α} (h : task.Alike p task') :
    (Task.emitAll events task).Alike p (Task.emitAll events' task') := by
  induction events generalizing events' with
  | nil =>
    rw [List.length_nil, eq_comm, List.length_eq_zero_iff] at hlength
    subst hlength
    exact h
  | cons entry rest ih =>
    obtain ⟨entry', rest', rfl⟩ := List.exists_cons_of_length_eq_add_one hlength.symm
    simp only [List.length_cons, Nat.add_right_cancel_iff] at hlength
    exact .emit entry entry' (ih hlength)

/-- Tasks that are alike one by one are alike side by side. -/
theorem join {ι : Type} {items : List ι} {first second : ι → Task α}
    (h : ∀ item ∈ items, (first item).Alike p (second item)) :
    (Task.join (items.map first)).Alike p (Task.join (items.map second)) := by
  refine Task.join_related (ok List.Forall₂.nil) ?cons ?append h
  case cons =>
    intro task task' rest rest' htask hrest
    refine .both htask hrest fun q _ _ outcome outcome' houtcome => ?_
    cases houtcome with
    | ok hboth => exact ok (.cons hboth.1 hboth.2)
    | error error error' => exact fail error error'
  case append =>
    intro before before' task task' hbefore htask
    refine .both hbefore htask fun q _ _ outcome outcome' houtcome => ?_
    cases houtcome with
    | ok hboth => exact ok (List.rel_append hboth.1 (.cons hboth.2 .nil))
    | error error error' => exact fail error error'

end Task.Alike

end ChainExpr
