import ChainExpr.Proofs.Alike
import ChainExpr.Proofs.Polling
import Mathlib.Order.Interval.Set.LinearOrder

namespace ChainExpr

namespace Towers

variable {α β γ : Type} {mode : JoinMode} {towers : Towers}

/-- The rounds of the task end, from this state on and with anything happening between them, in an
outcome that meets the condition. The condition also sees the numbers drawn, to which `drawn` counts
from before, and the creation number at the end. -/
inductive Finishes (towers : Towers) {α : Type}
    (meets : Except RuntimeError α → Set Nat → Nat → Prop) : Set Nat → Task α → World → Prop
  | done {drawn : Set Nat} {task : Task α} {world world' : World} {outcome : Except RuntimeError α}
      (polls : towers.Polls task world (.done outcome) world')
      (met : meets outcome (drawn ∪ Set.Ico world.serial world'.serial) world'.serial) :
      Finishes towers meets drawn task world
  | pending {drawn : Set Nat} {task rest : Task α} {world world' : World}
      (polls : towers.Polls task world (.pending rest) world')
      (later : ∀ other : World, world'.serial ≤ other.serial →
        Finishes towers meets (drawn ∪ Set.Ico world.serial world'.serial) rest other) :
      Finishes towers meets drawn task world

theorem drawn_append (drawn : Set Nat) {first middle last : Nat} (h : first ≤ middle)
    (h' : middle ≤ last) :
    drawn ∪ Set.Ico first middle ∪ Set.Ico middle last = drawn ∪ Set.Ico first last := by
  rw [Set.union_assoc, Set.Ico_union_Ico_eq_Ico h h']

namespace Finishes

variable {meets : Except RuntimeError α → Set Nat → Nat → Prop}

/-- If nothing else happens the rounds end. -/
theorem ends {drawn : Set Nat} {task : Task α} {world : World}
    (h : towers.Finishes meets drawn task world) :
    ∃ polls outcome world', towers.Ends task world polls outcome world' ∧
      ∃ numbers, meets outcome numbers world'.serial := by
  induction h with
  | done polls met => exact ⟨0, _, _, .now polls, _, met⟩
  | pending polls _ ih =>
    obtain ⟨count, outcome, world', hends, hmet⟩ := ih _ le_rfl
    exact ⟨count + 1, outcome, world', .later polls hends, hmet⟩

theorem weaken {weaker : Except RuntimeError α → Set Nat → Nat → Prop} {drawn : Set Nat}
    {task : Task α} {world : World} (h : towers.Finishes meets drawn task world)
    (himplies : ∀ outcome numbers last, drawn ⊆ numbers → world.serial ≤ last →
      meets outcome numbers last → weaker outcome numbers last) :
    towers.Finishes weaker drawn task world := by
  induction h with
  | done polls met =>
    exact .done polls (himplies _ _ _ Set.subset_union_left polls.serial_le met)
  | pending polls _ ih =>
    refine .pending polls fun other hother => ih other hother ?_
    intro outcome numbers last hdrawn hlast
    exact himplies outcome numbers last (Set.subset_union_left.trans hdrawn)
      (polls.serial_le.trans (hother.trans hlast))

/-- A task that in its round goes on as another one. -/
theorem enter {drawn : Set Nat} {task task' : Task α} {world middle : World}
    (hle : world.serial ≤ middle.serial)
    (hpolls : ∀ progress world', towers.Polls task' middle progress world' →
      towers.Polls task world progress world')
    (h : towers.Finishes meets (drawn ∪ Set.Ico world.serial middle.serial) task' middle) :
    towers.Finishes meets drawn task world := by
  cases h with
  | done polls met =>
    rw [drawn_append drawn hle polls.serial_le] at met
    exact .done (hpolls _ _ polls) met
  | pending polls later =>
    rw [drawn_append drawn hle polls.serial_le] at later
    exact .pending (hpolls _ _ polls) later

/-- As `enter`, where nothing has been drawn on the way. -/
theorem enter_same {drawn : Set Nat} {task task' : Task α} {world middle : World}
    (hsame : world.serial = middle.serial)
    (hpolls : ∀ progress world', towers.Polls task' middle progress world' →
      towers.Polls task world progress world')
    (h : towers.Finishes meets drawn task' middle) : towers.Finishes meets drawn task world := by
  refine enter (le_of_eq hsame) hpolls ?_
  rw [hsame, Set.Ico_self, Set.union_empty]
  exact h

theorem finish {drawn : Set Nat} {outcome : Except RuntimeError α} {world : World}
    (met : meets outcome drawn world.serial) : towers.Finishes meets drawn (.finish outcome) world := by
  refine .done (polls_finish outcome world) ?_
  rw [Set.Ico_self, Set.union_empty]
  exact met

/-- A routine that is done or calls after some waits, which may take any number of rounds. -/
theorem awake {drawn : Set Nat} {function : String} {body : Routine}
    {next : Except RuntimeError Value → Task α} {world : World}
    (h : ∀ other : World, world.serial ≤ other.serial →
      towers.Finishes meets drawn (.routine function body.awake next) other) :
    towers.Finishes meets drawn (.routine function body next) world := by
  induction body generalizing world with
  | wait polls body ih =>
    induction polls generalizing world with
    | zero =>
      have hrest : towers.Finishes meets drawn (.routine function body next)
          (world.record (.resume function)) := ih h
      refine enter_same ?_ (fun _ _ => polls_resume.mpr) hrest
      rfl
    | succ polls ihp =>
      refine .pending (polls_wait function polls body next world) fun other hother => ?_
      rw [Set.Ico_self, Set.union_empty]
      exact ihp fun last hlast => h last (hother.trans hlast)
  | _ => exact h world le_rfl

theorem andThen {first : Except RuntimeError β → Set Nat → Nat → Prop} {drawn : Set Nat}
    {task : Task β} {next : Except RuntimeError β → Task α} {world : World}
    (h : towers.Finishes first drawn task world)
    (hnext : ∀ outcome numbers (middle : World), first outcome numbers middle.serial →
      towers.Finishes meets numbers (next outcome) middle) :
    towers.Finishes meets drawn (task.andThen next) world := by
  induction h with
  | done polls met =>
    refine enter polls.serial_le ?_ (hnext _ _ _ met)
    intro progress world' hpolls
    exact polls_andThen.mpr (.inl ⟨_, _, polls, hpolls⟩)
  | pending polls _ ih => exact .pending (polls_andThen.mpr (.inr ⟨_, polls, rfl⟩)) ih

theorem emit {drawn : Set Nat} {entry : Event} {next : Task α} {world : World}
    (h : towers.Finishes meets drawn next (world.record entry)) :
    towers.Finishes meets drawn (.emit entry next) world := by
  refine enter_same ?_ (fun _ _ => polls_emit.mpr) h
  rfl

theorem create {drawn : Set Nat} {next : Nat → Task α} {world : World}
    (h : towers.Finishes meets (drawn ∪ Set.Ico world.serial (world.serial + 1)) (next world.serial)
      world.take) :
    towers.Finishes meets drawn (.create next) world := by
  have hle : world.serial ≤ world.take.serial := Nat.le_succ world.serial
  exact enter hle (fun _ _ => polls_create.mpr) h

theorem routine_finish {drawn : Set Nat} {function : String} {outcome : Except RuntimeError Value}
    {next : Except RuntimeError Value → Task α} {world : World}
    (h : towers.Finishes meets drawn (next outcome) world) :
    towers.Finishes meets drawn (.routine function (.finish outcome) next) world :=
  enter_same rfl (fun _ _ => polls_routine_finish.mpr) h

theorem routine_call {drawn : Set Nat} {function : String} {callee : Callable} {context : Value}
    {body : Except RuntimeError Value → Routine} {next : Except RuntimeError Value → Task α}
    {world : World}
    (h : towers.Finishes meets drawn ((towers.callTask callee context).andThen fun outcome =>
      .routine function (body outcome) next) world) :
    towers.Finishes meets drawn (.routine function (.call callee context body) next) world :=
  enter_same rfl (fun _ _ => polls_call.mpr) h

end Finishes

/-- The numbers drawn by two parts side by side, none by both, among all that have been drawn. -/
structure Apart (left right all : Set Nat) (bound : Nat) : Prop where
  disjoint : ∀ k ∈ left, k ∉ right
  left_subset : left ⊆ all
  right_subset : right ⊆ all
  left_lt : ∀ k ∈ left, k < bound
  right_lt : ∀ k ∈ right, k < bound

namespace Apart

variable {left right all : Set Nat} {first last : Nat}

theorem empty (all : Set Nat) (bound : Nat) : Apart ∅ ∅ all bound :=
  ⟨fun _ h => h.elim, Set.empty_subset all, Set.empty_subset all, fun _ h => h.elim,
    fun _ h => h.elim⟩

theorem later (h : Apart left right all first) (hle : first ≤ last) : Apart left right all last :=
  { h with
    left_lt := fun k hk => (h.left_lt k hk).trans_le hle
    right_lt := fun k hk => (h.right_lt k hk).trans_le hle }

/-- A round of the left part draws numbers that the right part has not drawn. -/
theorem draw_left (h : Apart left right all first) (hle : first ≤ last) :
    Apart (left ∪ Set.Ico first last) right (all ∪ Set.Ico first last) last where
  disjoint := by
    rintro k (hold | hnew) hright
    · exact h.disjoint k hold hright
    · exact absurd (h.right_lt k hright) (Nat.not_lt.mpr hnew.1)
  left_subset := Set.union_subset_union_left _ h.left_subset
  right_subset := h.right_subset.trans Set.subset_union_left
  left_lt := by
    rintro k (hold | hnew)
    · exact (h.left_lt k hold).trans_le hle
    · exact hnew.2
  right_lt := fun k hk => (h.right_lt k hk).trans_le hle

theorem symm (h : Apart left right all first) : Apart right left all first where
  disjoint := fun k hright hleft => h.disjoint k hleft hright
  left_subset := h.right_subset
  right_subset := h.left_subset
  left_lt := h.right_lt
  right_lt := h.left_lt

theorem draw_right (h : Apart left right all first) (hle : first ≤ last) :
    Apart left (right ∪ Set.Ico first last) (all ∪ Set.Ico first last) last :=
  (h.symm.draw_left hle).symm

end Apart

namespace Finishes

section Both

variable {meets : Except RuntimeError α → Set Nat → Nat → Prop}
  {meetsl : Except RuntimeError β → Set Nat → Nat → Prop}
  {meetsr : Except RuntimeError γ → Set Nat → Nat → Prop}
  {next : Except RuntimeError (β × γ) → Task α} {bound : Nat}
  (hmonol : ∀ outcome numbers first last, first ≤ last → meetsl outcome numbers first →
    meetsl outcome numbers last)
  (hmonor : ∀ outcome numbers first last, first ≤ last → meetsr outcome numbers first →
    meetsr outcome numbers last)
  (hok : ∀ a b left right all (world : World), Apart left right all world.serial →
    meetsl (.ok a) left world.serial → meetsr (.ok b) right world.serial →
      towers.Finishes meets all (next (.ok (a, b))) world)
  (herror : ∀ error all (world : World), bound ≤ world.serial →
    ((∃ numbers last, meetsl (.error error) numbers last) ∨
      ∃ numbers last, meetsr (.error error) numbers last) →
      towers.Finishes meets all (next (.error error)) world)

include hmonol hok herror

/-- The right one of two parts goes on alone once the left one has succeeded. -/
theorem both_of_left {a : β} {right : Task γ} {drawnl drawnr drawn : Set Nat} {world : World}
    (hbound : bound ≤ world.serial) (hleft : meetsl (.ok a) drawnl world.serial)
    (hright : towers.Finishes meetsr drawnr right world)
    (hapart : Apart drawnl drawnr drawn world.serial) :
    towers.Finishes meets drawn (.both mode (.finish (.ok a)) right next) world := by
  have hdone (world : World) : towers.Polls (.finish (.ok a)) world (.done (.ok a)) world :=
    polls_finish _ world
  induction hright generalizing drawn with
  | @done drawnr right world world' outcome polls met =>
    have hle : world.serial ≤ world'.serial := polls.serial_le
    cases outcome with
    | error error =>
      refine enter hle (fun _ _ => polls_both_right_failed (hdone world) (.ok a) polls (.inr ⟨a, rfl⟩)) ?_
      exact herror error _ world' (hbound.trans hle) (.inr ⟨_, _, met⟩)
    | ok b =>
      refine enter hle (fun _ _ => polls_both_joined (hdone world) polls) ?_
      exact hok a b _ _ _ world' (hapart.draw_right hle) (hmonol _ _ _ _ hle hleft) met
  | @pending drawnr right rest world world' polls _ ih =>
    have hle : world.serial ≤ world'.serial := polls.serial_le
    refine .pending (polls_both_pending next (hdone world) (.ok a) polls (.pending rest) (.inr rfl)) ?_
    intro other hother
    exact ih other hother (hbound.trans (hle.trans hother))
      (hmonol _ _ _ _ (hle.trans hother) hleft) ((hapart.draw_right hle).later hother)

include hmonor

/-- Two parts side by side that would end each by itself end together, and so does what comes after
them if it does after their outcomes. -/
theorem both {left : Task β} {right : Task γ} {drawnl drawnr drawn : Set Nat} {world : World}
    (hbound : bound ≤ world.serial) (hleft : towers.Finishes meetsl drawnl left world)
    (hright : ∀ other : World, world.serial ≤ other.serial →
      towers.Finishes meetsr drawnr right other)
    (hapart : Apart drawnl drawnr drawn world.serial) :
    towers.Finishes meets drawn (.both mode left right next) world := by
  induction hleft generalizing right drawnr drawn with
  | @done drawnl left world world' outcome polls met =>
    have hle : world.serial ≤ world'.serial := polls.serial_le
    cases outcome with
    | error error =>
      refine enter hle (fun _ _ => polls_both_left_failed polls) ?_
      exact herror error _ world' (hbound.trans hle) (.inl ⟨_, _, met⟩)
    | ok a =>
      refine enter hle (fun _ _ => polls_both_left_done polls) ?_
      exact both_of_left hmonol hok herror (hbound.trans hle) met (hright world' hle)
        (hapart.draw_left hle)
  | @pending drawnl left rest world middle polls _ ih =>
    have hle : world.serial ≤ middle.serial := polls.serial_le
    have hapartl := hapart.draw_left hle
    -- The right part goes on in the same round, from what the left one has made of the state.
    cases hright middle hle with
    | @done _ _ _ world' outcome polls' met =>
      have hle' : middle.serial ≤ world'.serial := polls'.serial_le
      have hkept (other : World) (hother : world'.serial ≤ other.serial) :
          towers.Finishes meets (drawn ∪ Set.Ico world.serial world'.serial)
            (.both mode rest (.finish outcome) next) other := by
        have hapartr := (hapartl.draw_right hle').later hother
        rw [drawn_append drawn hle hle'] at hapartr
        refine ih other (hle'.trans hother) (hbound.trans (hle.trans (hle'.trans hother))) ?_ hapartr
        intro later hlater
        exact finish (hmonor _ _ _ _ (hother.trans hlater) met)
      cases outcome with
      | ok b =>
        exact .pending (polls_both_pending next polls (.pending rest) polls' (.ok b) (.inl rfl)) hkept
      | error error =>
        cases mode with
        | inOrder => exact .pending (polls_both_held next polls polls') hkept
        | eager =>
          refine enter (hle.trans hle')
            (fun _ _ => polls_both_right_failed polls (.pending rest) polls' (.inl rfl)) ?_
          exact herror error _ world' (hbound.trans (hle.trans hle')) (.inr ⟨_, _, met⟩)
    | @pending _ _ restr _ world' polls' later =>
      have hle' : middle.serial ≤ world'.serial := polls'.serial_le
      refine .pending
        (polls_both_pending next polls (.pending rest) polls' (.pending restr) (.inl rfl)) ?_
      intro other hother
      have hapartr := (hapartl.draw_right hle').later hother
      rw [drawn_append drawn hle hle'] at hapartr
      refine ih other (hle'.trans hother) (hbound.trans (hle.trans (hle'.trans hother))) ?_ hapartr
      intro last hlast
      exact later last (hother.trans hlast)

end Both

end Finishes

end Towers

end ChainExpr
