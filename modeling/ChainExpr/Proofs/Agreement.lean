import ChainExpr.Proofs.Finishing
import ChainExpr.Proofs.Settling
import ChainExpr.Proofs.Waits

namespace ChainExpr

open Likeness (Like)

namespace Pairing

variable {p q r : Pairing}

/-- Every number below `n` and itself. -/
def same (n : Nat) : Pairing := fun a b => a = b ∧ a < n

theorem same_faithful (n : Nat) : (same n).Faithful := by
  rintro a b a' b' ⟨rfl, _⟩ ⟨rfl, _⟩
  exact Iff.rfl

theorem same_keeps (n : Nat) : (same n).Keeps n := fun _ ha => ⟨rfl, ha⟩

theorem same_below (n : Nat) : (same n).Below n n := by
  rintro a b ⟨rfl, ha⟩
  exact ⟨ha, ha⟩

/-- More numbers are paired, new ones from `first` on on the left with some of `numbers` on the
right. -/
structure Grows (p : Pairing) (first : Nat) (numbers : Set Nat) (q : Pairing) : Prop where
  le : p ≤ q
  faithful : q.Faithful
  fresh : ∀ a b, q a b → p a b ∨ first ≤ a ∧ b ∈ numbers

theorem Grows.refl (hp : p.Faithful) (first : Nat) (numbers : Set Nat) :
    p.Grows first numbers p :=
  ⟨le_rfl, hp, fun _ _ h => .inl h⟩

theorem Grows.trans {first middle : Nat} {numbers numbers' : Set Nat} (h : p.Grows first numbers q)
    (h' : q.Grows middle numbers' r) (hle : first ≤ middle) (hsub : numbers ⊆ numbers') :
    p.Grows first numbers' r where
  le := h.le.trans h'.le
  faithful := h'.faithful
  fresh := by
    intro a b hab
    rcases h'.fresh a b hab with hq | ⟨ha, hb⟩
    · rcases h.fresh a b hq with hp | ⟨ha, hb⟩
      · exact .inl hp
      · exact .inr ⟨ha, hsub hb⟩
    · exact .inr ⟨hle.trans ha, hb⟩

/-- One more number on either side. -/
def pair (p : Pairing) (first last : Nat) : Pairing := fun a b => p a b ∨ a = first ∧ b = last

theorem Below.pair {first last : Nat} (h : p.Below first last) :
    (p.pair first last).Below (first + 1) (last + 1) := by
  rintro a b (hab | ⟨rfl, rfl⟩)
  · exact h.mono (Nat.le_succ _) (Nat.le_succ _) a b hab
  · exact ⟨Nat.lt_succ_self _, Nat.lt_succ_self _⟩

/-- Pairing the next number on the left with one that is new on the right. -/
theorem Grows.pair (hp : p.Faithful) {first last : Nat} (hbelow : p.Below first last) :
    p.Grows first {last} (p.pair first last) where
  le := fun _ _ h => .inl h
  faithful := by
    rintro a b a' b' (h | ⟨rfl, rfl⟩) (h' | ⟨rfl, rfl⟩)
    · exact hp h h'
    · obtain ⟨ha, hb⟩ := hbelow a b h
      exact iff_of_false (Nat.ne_of_lt ha) (Nat.ne_of_lt hb)
    · obtain ⟨ha, hb⟩ := hbelow a' b' h'
      exact iff_of_false (Nat.ne_of_gt ha) (Nat.ne_of_gt hb)
    · exact iff_of_true rfl rfl
  fresh := by
    rintro a b (h | ⟨rfl, rfl⟩)
    · exact .inl h
    · exact .inr ⟨le_rfl, rfl⟩

/-- What two parts have paired can be put together if they have drawn different numbers. -/
theorem Grows.union {serial first bound : Nat} {left right all : Set Nat}
    (h : p.Grows serial left q) (hbelow : q.Below first bound) (h' : p.Grows first right r)
    (hserial : serial ≤ first) (hapart : Towers.Apart left right all bound) :
    p.Grows serial all fun a b => q a b ∨ r a b where
  le := fun a b hab => .inl (h.le a b hab)
  faithful := by
    have hcross : ∀ {a b a' b'}, q a b → r a' b' → (a = a' ↔ b = b') := by
      intro a b a' b' hq hr
      rcases h.fresh a b hq with hp | ⟨_, hb⟩
      · exact h'.faithful (h'.le a b hp) hr
      · rcases h'.fresh a' b' hr with hp' | ⟨ha', hb'⟩
        · exact h.faithful hq (h.le a' b' hp')
        · have ha : a < a' := (hbelow a b hq).1.trans_le ha'
          refine iff_of_false (Nat.ne_of_lt ha) fun hsame => ?_
          exact hapart.disjoint b hb (hsame ▸ hb')
    rintro a b a' b' (hq | hr) (hq' | hr')
    · exact h.faithful hq hq'
    · exact hcross hq hr'
    · rw [eq_comm, eq_comm (a := b)]
      exact hcross hq' hr
    · exact h'.faithful hr hr'
  fresh := by
    rintro a b (hq | hr)
    · rcases h.fresh a b hq with hp | ⟨ha, hb⟩
      · exact .inl hp
      · exact .inr ⟨ha, hapart.left_subset hb⟩
    · rcases h'.fresh a b hr with hp | ⟨ha, hb⟩
      · exact .inl hp
      · exact .inr ⟨hserial.trans ha, hapart.right_subset hb⟩

end Pairing

namespace Towers

variable {α : Type}

/-- An outcome like the given one, up to numbers paired on the way. -/
def Reached [Likeness α] (p : Pairing) (serial last : Nat) (outcome outcome' : Except RuntimeError α)
    (numbers : Set Nat) (bound : Nat) : Prop :=
  ∃ q, p.Grows serial numbers q ∧ q.Below last bound ∧ Like q outcome outcome'

namespace Reached

variable [Likeness α] {p q : Pairing} {serial middle last first : Nat}
  {outcome outcome' : Except RuntimeError α} {numbers numbers' : Set Nat} {bound bound' : Nat}

theorem mono (hle : bound ≤ bound') (h : Reached p serial last outcome outcome' numbers bound) :
    Reached p serial last outcome outcome' numbers bound' := by
  obtain ⟨q, hgrows, hbelow, hlike⟩ := h
  exact ⟨q, hgrows, hbelow.mono le_rfl hle, hlike⟩

theorem after (hgrows : p.Grows serial numbers q) (hle : serial ≤ middle) (hsub : numbers ⊆ numbers')
    (h : Reached q middle last outcome outcome' numbers' bound) :
    Reached p serial last outcome outcome' numbers' bound := by
  obtain ⟨r, hgrows', hbelow, hlike⟩ := h
  exact ⟨r, hgrows.trans hgrows' hle hsub, hbelow, hlike⟩

/-- What the parts have reached, having drawn different numbers, they have reached together. -/
theorem both {β γ : Type} [Likeness β] [Likeness γ] {second : Nat} {a a' : β} {b b' : γ}
    {numbersl numbersr all : Set Nat}
    (h : Reached p serial first (.ok a) (.ok a') numbersl bound)
    (h' : Reached p first second (.ok b) (.ok b') numbersr bound) (hfirst : serial ≤ first)
    (hsecond : first ≤ second) (hapart : Apart numbersl numbersr all bound) :
    Reached p serial second (.ok (a, b)) (.ok (a', b')) all bound := by
  obtain ⟨q, hgrows, hbelow, ⟨hlike⟩⟩ := h
  obtain ⟨r, hgrows', hbelow', ⟨hlike'⟩⟩ := h'
  refine ⟨fun a b => q a b ∨ r a b, hgrows.union hbelow hgrows' hfirst hapart, ?_, .ok ⟨?_, ?_⟩⟩
  · rintro a b (hab | hab)
    · exact hbelow.mono hsecond le_rfl a b hab
    · exact hbelow' a b hab
  · exact Likeness.mono (fun _ _ => .inl) hlike
  · exact Likeness.mono (fun _ _ => .inr) hlike'

theorem not_error {a : α} {error : RuntimeError} :
    ¬ Reached p serial last (.ok a) (.error error) numbers bound := by
  rintro ⟨q, _, _, hlike⟩
  cases hlike

theorem not_ok {a : α} {error : RuntimeError} :
    ¬ Reached p serial last (.error error) (.ok a) numbers bound := by
  rintro ⟨q, _, _, hlike⟩
  cases hlike

end Reached

variable {n : Nat} {towers towers' : Towers}

/-- What finishes from where a first part has come to finishes from where that part has started. -/
theorem Finishes.after [Likeness α] {p q : Pairing} {serial middle last : Nat}
    {outcome : Except RuntimeError α} {numbers drawn : Set Nat} {task : Task α} {world : World}
    (h : towers.Finishes (Reached q middle last outcome) drawn task world)
    (hgrows : p.Grows serial numbers q) (hle : serial ≤ middle) (hsub : numbers ⊆ drawn) :
    towers.Finishes (Reached p serial last outcome) drawn task world := by
  apply h.weaken
  intro outcome' numbers bound hdrawn _ hreached
  exact hreached.after hgrows hle (hsub.trans hdrawn)

section Both

variable {β γ : Type} [Likeness β] [Likeness γ] {mode : JoinMode} {p : Pairing}
  {serial first second : Nat}
  {resultl : Except RuntimeError β} {resultr : Except RuntimeError γ} {left : Task β} {right : Task γ}
  {next : Except RuntimeError (β × γ) → Task α}
  {meets : Except RuntimeError α → Set Nat → Nat → Prop} {drawn : Set Nat} {world : World}
  (hleft : towers.Finishes (Reached p serial first resultl) ∅ left world)
  (hright : ∀ other : World, world.serial ≤ other.serial →
    towers.Finishes (Reached p first second resultr) ∅ right other)

include hleft hright

/-- Two parts that both succeed end together. -/
theorem Finishes.both_joined {a : β} {b : γ} (hl : resultl = .ok a) (hr : resultr = .ok b)
    (hfirst : serial ≤ first) (hsecond : first ≤ second)
    (hnext : ∀ both all (middle : World),
      Reached p serial second (.ok (a, b)) (.ok both) all middle.serial →
        towers.Finishes meets all (next (.ok both)) middle) :
    towers.Finishes meets drawn (.both mode left right next) world := by
  subst hl hr
  refine Finishes.both ?_ ?_ ?_ ?_ le_rfl hleft hright (.empty drawn world.serial)
  · exact fun _ _ _ _ hle => Reached.mono hle
  · exact fun _ _ _ _ hle => Reached.mono hle
  · intro a' b' numbersl numbersr all middle hapart hreached hreached'
    exact hnext (a', b') all middle (hreached.both hreached' hfirst hsecond hapart)
  · rintro error all middle _ (⟨numbers, bound, hreached⟩ | ⟨numbers, bound, hreached⟩)
    · exact absurd hreached Reached.not_error
    · exact absurd hreached Reached.not_error

/-- Two parts of which one fails end with an error, whichever fails first. -/
theorem Finishes.both_failed
    (hfails : (∃ error, resultl = .error error) ∨ ∃ error, resultr = .error error)
    (hnext : ∀ error all (middle : World), world.serial ≤ middle.serial →
      towers.Finishes meets all (next (.error error)) middle) :
    towers.Finishes meets drawn (.both mode left right next) world := by
  refine Finishes.both ?_ ?_ ?_ ?_ le_rfl hleft hright (.empty drawn world.serial)
  · exact fun _ _ _ _ hle => Reached.mono hle
  · exact fun _ _ _ _ hle => Reached.mono hle
  · intro a b numbersl numbersr all middle _ hreached hreached'
    rcases hfails with ⟨error, rfl⟩ | ⟨error, rfl⟩
    · exact absurd hreached Reached.not_ok
    · exact absurd hreached' Reached.not_ok
  · exact fun error all middle hmiddle _ => hnext error all middle hmiddle

end Both

/-- A task that is alike to one all of whose parts end comes to a like outcome in rounds, whatever else
goes on between them. -/
theorem Settles.finishes (hdiffer : towers.DiffersInWaits n towers') {task : Task α} {serial last : Nat}
    {outcome : Except RuntimeError α} (h : towers.Settles task serial outcome last) :
    ∀ [Likeness α] {p : Pairing} {task' : Task α}, task.Alike p task' → p.Faithful → p.Keeps n →
      ∀ {drawn : Set Nat} {world : World}, p.Below serial world.serial →
        towers'.Finishes (Reached p serial last outcome) drawn task' world := by
  induction h with
  | finish outcome serial =>
    intro _ p task' halike hp hkeeps drawn world hbelow
    cases halike with
    | finish outcomes => exact .finish ⟨p, .refl hp _ _, hbelow, outcomes⟩
  | emit entry _ ih =>
    intro _ p task' halike hp hkeeps drawn world hbelow
    cases halike with
    | emit _ entry' later => exact .emit (ih later hp hkeeps hbelow)
  | @create _ next serial last outcome _ ih =>
    intro _ p task' halike hp hkeeps drawn world hbelow
    cases halike with
    | create later =>
      -- Neither of the two new numbers is in a pair yet.
      have hgrows := Pairing.Grows.pair hp hbelow
      have hnext := later _ hgrows.le hgrows.faithful serial world.serial (.inr ⟨rfl, rfl⟩)
      apply Finishes.create
      refine Finishes.after ?_ hgrows (Nat.le_succ serial) ?_
      · exact ih hnext hgrows.faithful (hkeeps.mono hgrows.le) hbelow.pair
      · rintro k rfl
        exact .inr ⟨le_rfl, Nat.lt_succ_self _⟩
  | @done _ function body next serial last result outcome awake _ ih =>
    intro _ p task' halike hp hkeeps drawn world hbelow
    cases halike with
    | routine _ function' bodies later =>
      apply Finishes.awake
      intro other hother
      cases bodies with
      | call left _ _ _ _ => cases awake.symm.trans left
      | finish left right outcomes =>
        cases awake.symm.trans left
        rw [right]
        apply Finishes.routine_finish
        exact ih (later p le_rfl hp _ _ outcomes) hp hkeeps (hbelow.mono le_rfl hother)
  | @call _ function body next callee context rest serial middle last result outcome awake called _
      ihc ih =>
    intro _ p task' halike hp hkeeps drawn world hbelow
    cases halike with
    | routine _ function' bodies later =>
      apply Finishes.awake
      intro other hother
      cases bodies with
      | finish left _ _ => cases awake.symm.trans left
      | call left right callees contexts goesOn =>
        cases awake.symm.trans left
        rw [right]
        apply Finishes.routine_call
        have hcalled : towers'.Finishes _ drawn _ other :=
          ihc (hdiffer.callTask hp hkeeps callees contexts) hp hkeeps (hbelow.mono le_rfl hother)
        apply hcalled.andThen
        rintro result' numbers inside ⟨q, hgrows, hbelow', hlike⟩
        have hrest := Task.Alike.routine function function'
          (goesOn q hgrows.le hgrows.faithful result result' hlike)
          (fun r hle => later r (hgrows.le.trans hle))
        refine Finishes.after ?_ hgrows called.serial_le subset_rfl
        exact ih hrest hgrows.faithful (hkeeps.mono hgrows.le) hbelow'
  | @joined _ _ _ _ left right next serial first second last a b outcome lefts rights _ ihl ihr ih =>
    intro _ p task' halike hp hkeeps drawn world hbelow
    cases halike with
    | both leftsAlike rightsAlike later =>
      have hleft : towers'.Finishes _ ∅ _ world := ihl leftsAlike hp hkeeps hbelow
      have hright (other : World) (hother : world.serial ≤ other.serial) :
          towers'.Finishes _ ∅ _ other :=
        ihr rightsAlike hp hkeeps (hbelow.mono lefts.serial_le hother)
      apply Finishes.both_joined hleft hright rfl rfl lefts.serial_le rights.serial_le
      rintro both all middle ⟨q, hgrows, hbelow', hlike⟩
      have hnext := later q hgrows.le hgrows.faithful _ _ hlike
      refine Finishes.after ?_ hgrows (lefts.serial_le.trans rights.serial_le) subset_rfl
      exact ih hnext hgrows.faithful (hkeeps.mono hgrows.le) hbelow'
  | @left_failed _ _ _ _ left right next serial first second last failure other outcome lefts _ _ ihl
      ihr ih =>
    intro _ p task' halike hp hkeeps drawn world hbelow
    cases halike with
    | both leftsAlike rightsAlike later =>
      have hleft : towers'.Finishes _ ∅ _ world := ihl leftsAlike hp hkeeps hbelow
      have hright (other : World) (hother : world.serial ≤ other.serial) :
          towers'.Finishes _ ∅ _ other :=
        ihr rightsAlike hp hkeeps (hbelow.mono lefts.serial_le hother)
      apply Finishes.both_failed hleft hright (.inl ⟨failure, rfl⟩)
      intro error all middle hmiddle
      have hnext := later p le_rfl hp _ _ (.error failure error)
      refine Finishes.after ?_ (.refl hp _ _) lefts.serial_le subset_rfl
      exact ih hnext hp hkeeps (hbelow.mono lefts.serial_le hmiddle)
  | @right_failed _ _ _ _ left right next serial first second last a failure outcome lefts rights _ ihl
      ihr ih =>
    intro _ p task' halike hp hkeeps drawn world hbelow
    cases halike with
    | both leftsAlike rightsAlike later =>
      have hleft : towers'.Finishes _ ∅ _ world := ihl leftsAlike hp hkeeps hbelow
      have hright (other : World) (hother : world.serial ≤ other.serial) :
          towers'.Finishes _ ∅ _ other :=
        ihr rightsAlike hp hkeeps (hbelow.mono lefts.serial_le hother)
      have hle := lefts.serial_le.trans rights.serial_le
      apply Finishes.both_failed hleft hright (.inr ⟨failure, rfl⟩)
      intro error all middle hmiddle
      have hnext := later p le_rfl hp _ _ (.error failure error)
      refine Finishes.after ?_ (.refl hp _ _) hle subset_rfl
      exact ih hnext hp hkeeps (hbelow.mono hle hmiddle)

end Towers

end ChainExpr
