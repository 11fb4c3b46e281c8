import ChainExpr.Proofs.Sequential
import ChainExpr.Proofs.Termination

namespace ChainExpr

variable {α β γ : Type}

namespace Towers

/-- The task gives the value when nothing waits, its parts succeeding one after the other, and when these
are the creation numbers and ticks that it learns. -/
inductive Yields (towers : Towers) : {α : Type} → Task α → List Nat → α → Prop
  | finish {α : Type} (value : α) : Yields towers (.finish (.ok value)) [] value
  | emit {α : Type} {entry : Event} {next : Task α} {learned : List Nat} {value : α}
      (later : Yields towers next learned value) : Yields towers (.emit entry next) learned value
  | create {α : Type} {serial : Nat} {next : Nat → Task α} {learned : List Nat} {value : α}
      (later : Yields towers (next serial) learned value) :
      Yields towers (.create next) (serial :: learned) value
  | outcome {α : Type} {function : String} {outcome : Except RuntimeError Value}
      {next : Except RuntimeError Value → Task α} {learned : List Nat} {value : α}
      (later : Yields towers (next outcome) learned value) :
      Yields towers (.routine function (.finish outcome) next) learned value
  | wait {α : Type} {function : String} {polls : Nat} {body : Routine}
      {next : Except RuntimeError Value → Task α} {learned : List Nat} {value : α}
      (later : Yields towers (.routine function body next) learned value) :
      Yields towers (.routine function (.wait polls body) next) learned value
  | arrive {α : Type} {function point : String} {body : Routine}
      {next : Except RuntimeError Value → Task α} {learned : List Nat} {value : α}
      (later : Yields towers (.routine function body next) learned value) :
      Yields towers (.routine function (.arrive point body) next) learned value
  | await {α : Type} {function point : String} {count : Nat} {body : Routine}
      {next : Except RuntimeError Value → Task α} {learned : List Nat} {value : α}
      (later : Yields towers (.routine function body next) learned value) :
      Yields towers (.routine function (.await point count body) next) learned value
  | tick {α : Type} {function : String} {before : Nat} {body : Nat → Routine}
      {next : Except RuntimeError Value → Task α} {learned : List Nat} {value : α}
      (later : Yields towers (.routine function (body before) next) learned value) :
      Yields towers (.routine function (.tick body) next) (before :: learned) value
  | call {α : Type} {function : String} {callee : Callable} {context : Value}
      {body : Except RuntimeError Value → Routine} {next : Except RuntimeError Value → Task α}
      {learned : List Nat} {value : α}
      (later : Yields towers ((towers.callTask callee context).andThen fun outcome =>
        .routine function (body outcome) next) learned value) :
      Yields towers (.routine function (.call callee context body) next) learned value
  | both {α β γ : Type} {mode : JoinMode} {left : Task β} {right : Task γ}
      {next : Except RuntimeError (β × γ) → Task α} {first second learned : List Nat} {a : β} {b : γ}
      {value : α} (lefts : Yields towers left first a) (rights : Yields towers right second b)
      (later : Yields towers (next (.ok (a, b))) learned value) :
      Yields towers (.both mode left right next) (first ++ second ++ learned) value

/-- The task succeeds, whatever it learns, if enough arrive at the meeting point. It owes so many arrivals
there, and has so many turns of waiting for `count` of them; it waits for nobody elsewhere. -/
inductive Attends (towers : Towers) (point : String) (count : Nat) :
    {α : Type} → Task α → Nat → Nat → Prop
  | finish {α : Type} (value : α) : Attends towers point count (.finish (.ok value)) 0 0
  | emit {α : Type} (entry : Event) {next : Task α} {owed turns : Nat}
      (later : Attends towers point count next owed turns) :
      Attends towers point count (.emit entry next) owed turns
  | create {α : Type} {next : Nat → Task α} {owed turns : Nat}
      (later : ∀ serial, Attends towers point count (next serial) owed turns) :
      Attends towers point count (.create next) owed turns
  | outcome {α : Type} {function : String} {outcome : Except RuntimeError Value}
      {next : Except RuntimeError Value → Task α} {owed turns : Nat}
      (later : Attends towers point count (next outcome) owed turns) :
      Attends towers point count (.routine function (.finish outcome) next) owed turns
  | wait {α : Type} {function : String} (polls : Nat) {body : Routine}
      {next : Except RuntimeError Value → Task α} {owed turns : Nat}
      (later : Attends towers point count (.routine function body next) owed turns) :
      Attends towers point count (.routine function (.wait polls body) next) owed turns
  | elsewhere {α : Type} {function other : String} {body : Routine}
      {next : Except RuntimeError Value → Task α} {owed turns : Nat} (apart : other ≠ point)
      (later : Attends towers point count (.routine function body next) owed turns) :
      Attends towers point count (.routine function (.arrive other body) next) owed turns
  | tick {α : Type} {function : String} {body : Nat → Routine}
      {next : Except RuntimeError Value → Task α} {owed turns : Nat}
      (later : ∀ before, Attends towers point count (.routine function (body before) next) owed turns) :
      Attends towers point count (.routine function (.tick body) next) owed turns
  | meet {α : Type} {function : String} {body : Routine} {next : Except RuntimeError Value → Task α}
      {owed turns : Nat} (fresh : turns ≤ owed)
      (later : Attends towers point count (.routine function body next) owed turns) :
      Attends towers point count (.routine function (.meet point count body) next) (owed + 1) (turns + 1)
  /-- The arrival of this turn has been made. -/
  | arrived {α : Type} {function : String} {body : Routine}
      {next : Except RuntimeError Value → Task α} {owed turns : Nat} (fresh : turns ≤ owed)
      (later : Attends towers point count (.routine function body next) owed turns) :
      Attends towers point count (.routine function (.await point count body) next) owed (turns + 1)
  | call {α : Type} {function : String} {callee : Callable} {context : Value}
      {body : Except RuntimeError Value → Routine} {next : Except RuntimeError Value → Task α}
      {owed turns : Nat}
      (later : Attends towers point count ((towers.callTask callee context).andThen fun outcome =>
        .routine function (body outcome) next) owed turns) :
      Attends towers point count (.routine function (.call callee context body) next) owed turns
  /-- Parts side by side have their turns at the same time. -/
  | both {α β γ : Type} {mode : JoinMode} {left : Task β} {right : Task γ}
      {next : Except RuntimeError (β × γ) → Task α} {owedl owedr turnsl turnsr owed turns : Nat}
      (lefts : Attends towers point count left owedl turnsl)
      (rights : Attends towers point count right owedr turnsr) (fresh : turns ≤ owed)
      (later : ∀ first second a b, towers.Yields left first a → towers.Yields right second b →
        Attends towers point count (next (.ok (a, b))) owed turns) :
      Attends towers point count (.both mode left right next) (owedl + owedr + owed)
        (max turnsl turnsr + turns)

variable {towers : Towers} {point : String} {count owed turns : Nat}

/-- What a task gives is settled by what it learns. -/
theorem Yields.unique {task : Task α} {learned learned' rest rest' : List Nat} {value value' : α}
    (h : towers.Yields task learned value) (h' : towers.Yields task learned' value')
    (hsame : learned ++ rest = learned' ++ rest') : learned = learned' ∧ value = value' := by
  induction h generalizing learned' rest rest' with
  | finish value =>
    cases h'
    exact ⟨rfl, rfl⟩
  | emit _ ih =>
    cases h' with
    | emit later => exact ih later hsame
  | create _ ih =>
    cases h' with
    | create later =>
      obtain ⟨rfl, hrest⟩ := List.cons.inj hsame
      obtain ⟨rfl, rfl⟩ := ih later hrest
      exact ⟨rfl, rfl⟩
  | outcome _ ih =>
    cases h' with
    | outcome later => exact ih later hsame
  | wait _ ih =>
    cases h' with
    | wait later => exact ih later hsame
  | arrive _ ih =>
    cases h' with
    | arrive later => exact ih later hsame
  | await _ ih =>
    cases h' with
    | await later => exact ih later hsame
  | tick _ ih =>
    cases h' with
    | tick later =>
      obtain ⟨rfl, hrest⟩ := List.cons.inj hsame
      obtain ⟨rfl, rfl⟩ := ih later hrest
      exact ⟨rfl, rfl⟩
  | call _ ih =>
    cases h' with
    | call later => exact ih later hsame
  | both _ _ _ ihl ihr ih =>
    cases h' with
    | both lefts rights later =>
      simp only [List.append_assoc] at hsame
      obtain ⟨rfl, rfl⟩ := ihl lefts hsame
      obtain ⟨rfl, rfl⟩ := ihr rights (List.append_cancel_left hsame)
      obtain ⟨rfl, rfl⟩ := ih later (List.append_cancel_left (List.append_cancel_left hsame))
      exact ⟨rfl, rfl⟩

namespace Attends

variable {task : Task α}

/-- Who comes to a meeting point comes to a value, when it is evaluated plainly. -/
theorem inOrder (h : towers.Attends point count task owed turns) (world : World) :
    ∃ depth learned value world', towers.Yields task learned value ∧
      task.inOrder (towers.sequentialCall depth) world = some (.ok value, world') := by
  induction h generalizing world with
  | finish value => exact ⟨0, [], value, world, .finish value, rfl⟩
  | emit entry _ ih =>
    obtain ⟨depth, learned, value, world', hvalue, hplain⟩ := ih (world.record entry)
    exact ⟨depth, _, value, world', .emit hvalue, hplain⟩
  | create _ ih =>
    obtain ⟨depth, learned, value, world', hvalue, hplain⟩ := ih world.serial world.take
    exact ⟨depth, _, value, world', .create hvalue, hplain⟩
  | outcome _ ih =>
    obtain ⟨depth, learned, value, world', hvalue, hplain⟩ := ih world
    exact ⟨depth, _, value, world', .outcome hvalue, hplain⟩
  | wait polls _ ih =>
    obtain ⟨depth, learned, value, world', hvalue, hplain⟩ := ih world
    exact ⟨depth, _, value, world', .wait hvalue, hplain⟩
  | @elsewhere _ _ other _ _ _ _ _ _ ih =>
    obtain ⟨depth, learned, value, world', hvalue, hplain⟩ := ih (world.arrive other)
    exact ⟨depth, _, value, world', .arrive hvalue, hplain⟩
  | tick _ ih =>
    obtain ⟨depth, learned, value, world', hvalue, hplain⟩ := ih world.ticks world.tick
    exact ⟨depth, _, value, world', .tick hvalue, hplain⟩
  | meet _ _ ih =>
    obtain ⟨depth, learned, value, world', hvalue, hplain⟩ := ih (world.arrive point)
    exact ⟨depth, _, value, world', .arrive (.await hvalue), hplain⟩
  | arrived _ _ ih =>
    obtain ⟨depth, learned, value, world', hvalue, hplain⟩ := ih world
    exact ⟨depth, _, value, world', .await hvalue, hplain⟩
  | call _ ih =>
    obtain ⟨depth, learned, value, world', hvalue, hplain⟩ := ih world
    rw [Sequential.inOrder_andThen] at hplain
    obtain ⟨⟨outcome, middle⟩, hcalled, hlater⟩ := Option.bind_eq_some_iff.mp hplain
    have hdeeper := Task.inOrder_extends (sequentialCall_extends (Nat.le_succ depth)) hlater
    refine ⟨depth + 1, _, value, world', .call hvalue, ?_⟩
    rw [Task.inOrder] at hdeeper
    rw [Task.inOrder, Routine.inOrder, sequentialCall_succ]
    simp only [hcalled, Option.bind_some]
    exact hdeeper
  | both _ _ _ _ ihl ihr ih =>
    obtain ⟨depthl, first, a, worldl, hleft, hplainl⟩ := ihl world
    obtain ⟨depthr, second, b, worldr, hright, hplainr⟩ := ihr worldl
    obtain ⟨depth, learned, value, world', hvalue, hplain⟩ := ih first second a b hleft hright worldr
    refine ⟨max depthl (max depthr depth), _, value, world', .both hleft hright hvalue, ?_⟩
    have hdeepl := Task.inOrder_extends
      (sequentialCall_extends (show depthl ≤ max depthl (max depthr depth) by omega)) hplainl
    have hdeepr := Task.inOrder_extends
      (sequentialCall_extends (show depthr ≤ max depthl (max depthr depth) by omega)) hplainr
    have hdeep := Task.inOrder_extends
      (sequentialCall_extends (show depth ≤ max depthl (max depthr depth) by omega)) hplain
    simp only [Task.inOrder, hdeepl, hdeepr, Option.bind_some]
    exact hdeep

theorem yields (h : towers.Attends point count task owed turns) :
    ∃ learned value, towers.Yields task learned value := by
  obtain ⟨_, learned, value, _, hvalue, _⟩ := h.inOrder .start
  exact ⟨learned, value, hvalue⟩

/-- The first turn may be one whose arrival has been made; all others are owed. -/
theorem turns_le (h : towers.Attends point count task owed turns) : turns ≤ owed + 1 := by
  induction h with
  | finish => omega
  | create _ ih => exact ih 0
  | tick _ ih => exact ih 0
  | meet fresh => omega
  | arrived fresh => omega
  | both _ _ fresh _ ihl ihr => omega
  | _ => assumption

/-- Arrivals are made for turns only. -/
theorem owed_eq_zero (h : towers.Attends point count task owed turns) (hnone : turns = 0) :
    owed = 0 := by
  induction h with
  | finish => rfl
  | create _ ih => exact ih 0 hnone
  | tick _ ih => exact ih 0 hnone
  | meet | arrived => cases hnone
  | both lefts rights _ _ ihl ihr ih =>
    obtain ⟨first, a, hleft⟩ := lefts.yields
    obtain ⟨second, b, hright⟩ := rights.yields
    have hlater := ih first second a b hleft hright
    omega
  | emit _ _ ih | outcome _ ih | wait _ _ ih | elsewhere _ _ ih | call _ ih => exact ih hnone

/-- A step keeps the sum of arrivals, those that have been made and those that are owed. A turn passes only
once enough have arrived. -/
theorem step {a b : Task α × World} (h : towers.Attends point count a.1 owed turns)
    (step : towers.Step a b) :
    ∃ owed' turns', towers.Attends point count b.1 owed' turns' ∧
      owed' + b.2.arrivals point = owed + a.2.arrivals point ∧
      (turns' = turns ∨ turns' ≤ turns ∧ count ≤ a.2.arrivals point) ∧
      ∀ learned value, towers.Yields b.1 learned value → ∃ more, towers.Yields a.1 more value := by
  induction step generalizing owed turns with
  | emit =>
    cases h with
    | emit _ later => exact ⟨_, _, later, rfl, .inl rfl, fun _ _ hvalue => ⟨_, .emit hvalue⟩⟩
  | create next world =>
    cases h with
    | create later =>
      exact ⟨_, _, later world.serial, rfl, .inl rfl, fun _ _ hvalue => ⟨_, .create hvalue⟩⟩
  | finish =>
    cases h with
    | outcome later => exact ⟨_, _, later, rfl, .inl rfl, fun _ _ hvalue => ⟨_, .outcome hvalue⟩⟩
  | elapse function polls =>
    cases h with
    | wait _ later =>
      refine ⟨_, _, .wait polls later, rfl, .inl rfl, fun _ _ hvalue => ?_⟩
      cases hvalue with
      | wait hvalue => exact ⟨_, .wait hvalue⟩
  | resume =>
    cases h with
    | wait _ later => exact ⟨_, _, later, rfl, .inl rfl, fun _ _ hvalue => ⟨_, .wait hvalue⟩⟩
  | arrive function other body next world =>
    cases h with
    | elsewhere apart later =>
      refine ⟨_, _, later, ?_, .inl rfl, fun _ _ hvalue => ⟨_, .arrive hvalue⟩⟩
      exact congrArg (owed + ·) (if_neg apart.symm)
    | meet fresh later =>
      refine ⟨_, _, .arrived fresh later, ?_, .inl rfl, fun _ _ hvalue => ⟨_, .arrive hvalue⟩⟩
      have hone : (world.arrive point).arrivals point = world.arrivals point + 1 := if_pos rfl
      dsimp only
      omega
  | meet function _ _ body next world arrived =>
    cases h with
    | arrived _ later =>
      exact ⟨_, _, later, rfl, .inr ⟨Nat.le_succ _, arrived⟩, fun _ _ hvalue => ⟨_, .await hvalue⟩⟩
  | tick function body next world =>
    cases h with
    | tick later => exact ⟨_, _, later world.ticks, rfl, .inl rfl, fun _ _ hvalue => ⟨_, .tick hvalue⟩⟩
  | call =>
    cases h with
    | call later => exact ⟨_, _, later, rfl, .inl rfl, fun _ _ hvalue => ⟨_, .call hvalue⟩⟩
  | left right next _ ih =>
    cases h with
    | both lefts rights fresh later =>
      obtain ⟨owed', turns', hleft, hsum, hturns, hyields⟩ := ih lefts
      refine ⟨_, _, .both hleft rights fresh ?_, ?_, ?_, ?_⟩
      · intro first second a b ha hb
        obtain ⟨more, ha⟩ := hyields _ _ ha
        exact later more second a b ha hb
      · dsimp only at hsum ⊢
        omega
      · dsimp only at hturns ⊢
        omega
      · intro _ value hvalue
        cases hvalue with
        | both ha hb hvalue =>
          obtain ⟨more, ha⟩ := hyields _ _ ha
          exact ⟨_, .both ha hb hvalue⟩
  | right left next _ ih =>
    cases h with
    | both lefts rights fresh later =>
      obtain ⟨owed', turns', hright, hsum, hturns, hyields⟩ := ih rights
      refine ⟨_, _, .both lefts hright fresh ?_, ?_, ?_, ?_⟩
      · intro first second a b ha hb
        obtain ⟨more, hb⟩ := hyields _ _ hb
        exact later first more a b ha hb
      · dsimp only at hsum ⊢
        omega
      · dsimp only at hturns ⊢
        omega
      · intro _ value hvalue
        cases hvalue with
        | both ha hb hvalue =>
          obtain ⟨more, hb⟩ := hyields _ _ hb
          exact ⟨_, .both ha hb hvalue⟩
  | joined a b =>
    cases h with
    | both lefts rights fresh later =>
      cases lefts
      cases rights
      refine ⟨_, _, later [] [] a b (.finish a) (.finish b), ?_, .inl (by omega), ?_⟩
      · dsimp only
        omega
      · exact fun _ _ hvalue => ⟨_, .both (.finish a) (.finish b) hvalue⟩
  | left_failed =>
    cases h with
    | both lefts => cases lefts
  | right_failed =>
    cases h with
    | both _ rights => cases rights

/-- So does a run. -/
theorem runs {a b : Task α × World} (h : towers.Attends point count a.1 owed turns)
    (run : towers.Runs a b) :
    ∃ owed' turns', towers.Attends point count b.1 owed' turns' ∧ turns' ≤ turns ∧
      owed' + b.2.arrivals point = owed + a.2.arrivals point ∧
      ∀ learned value, towers.Yields b.1 learned value → ∃ more, towers.Yields a.1 more value := by
  induction run with
  | refl => exact ⟨owed, turns, h, Nat.le_refl _, rfl, fun learned _ hvalue => ⟨learned, hvalue⟩⟩
  | tail _ step ih =>
    obtain ⟨owed', turns', hmiddle, hturns, hsum, hyields⟩ := ih
    obtain ⟨owed'', turns'', hlast, hsum', hpassed, hyields'⟩ := hmiddle.step step
    refine ⟨owed'', turns'', hlast, by omega, hsum'.trans hsum, fun learned value hvalue => ?_⟩
    obtain ⟨more, hmore⟩ := hyields' learned value hvalue
    exact hyields more value hmore

/-- The value of a run is one that the task gives when nothing waits. -/
theorem yields_of_runs {world world' : World} {value : α}
    (h : towers.Attends point count task owed turns)
    (run : towers.Runs (task, world) (.finish (.ok value), world')) :
    ∃ learned, towers.Yields task learned value := by
  obtain ⟨_, _, _, _, _, hyields⟩ := h.runs run
  exact hyields [] value (.finish value)

/-- A task that is held up in its only turn has made its arrivals, and yet too few have arrived. -/
theorem heldUp {world : World} (h : towers.Attends point count task owed turns)
    (held : task.HeldUp world) (hturns : turns ≤ 1) :
    turns = 1 ∧ owed = 0 ∧ world.arrivals point < count := by
  induction held generalizing owed turns with
  | await missing =>
    cases h with
    | arrived _ later => exact ⟨by omega, later.owed_eq_zero (by omega), missing⟩
  | both next _ _ ihl ihr =>
    cases h with
    | both lefts rights _ later =>
      obtain ⟨hleft, hnone, hmissing⟩ := ihl lefts (by omega)
      obtain ⟨hright, hnone', _⟩ := ihr rights (by omega)
      obtain ⟨first, a, ha⟩ := lefts.yields
      obtain ⟨second, b, hb⟩ := rights.yields
      have hlater := (later first second a b ha hb).owed_eq_zero (by omega)
      exact ⟨by omega, by omega, hmissing⟩
  | left _ next _ ih =>
    cases h with
    | both lefts rights _ later =>
      obtain ⟨hleft, hnone, hmissing⟩ := ih lefts (by omega)
      obtain ⟨first, a, ha⟩ := lefts.yields
      cases rights with
      | finish b =>
        have hlater := (later first [] a b ha (.finish b)).owed_eq_zero (by omega)
        exact ⟨by omega, by omega, hmissing⟩
  | right a next _ ih =>
    cases h with
    | both lefts rights _ later =>
      obtain ⟨hright, hnone, hmissing⟩ := ih rights (by omega)
      obtain ⟨second, b, hb⟩ := rights.yields
      cases lefts
      have hlater := (later [] second a b (.finish a) hb).owed_eq_zero (by omega)
      exact ⟨by omega, by omega, hmissing⟩

/-- With two turns one after the other, and only so many arrivals as each of them waits for, no turn ever
passes: the arrival of a later one is missing. -/
theorem stays {a b : Task α × World} (h : towers.Attends point count a.1 owed turns)
    (hturns : 2 ≤ turns) (hfew : owed + a.2.arrivals point ≤ count) (run : towers.Runs a b) :
    ∃ owed' turns', towers.Attends point count b.1 owed' turns' ∧ 2 ≤ turns' ∧
      owed' + b.2.arrivals point ≤ count := by
  induction run with
  | refl => exact ⟨owed, turns, h, hturns, hfew⟩
  | tail _ step ih =>
    obtain ⟨owed', turns', hmiddle, htwo, hfew'⟩ := ih
    obtain ⟨owed'', turns'', hlast, hsum, hpassed, _⟩ := hmiddle.step step
    have hbound := hmiddle.turns_le
    exact ⟨owed'', turns'', hlast, by omega, by omega⟩

/-- So there is never an outcome. -/
theorem never_finishes {world world' : World} {outcome : Except RuntimeError α}
    (h : towers.Attends point count task owed turns) (hturns : 2 ≤ turns)
    (hfew : owed + world.arrivals point ≤ count) :
    ¬ towers.Runs (task, world) (.finish outcome, world') := by
  intro run
  obtain ⟨_, _, hattends, htwo, _⟩ := h.stays hturns hfew run
  cases hattends
  cases htwo

/-- One task behind another has its turns after those of the first. -/
theorem andThen {next : Except RuntimeError α → Task β} {owed' turns' : Nat}
    (h : towers.Attends point count task owed turns) (fresh : turns' ≤ owed')
    (hnext : ∀ learned value, towers.Yields task learned value →
      towers.Attends point count (next (.ok value)) owed' turns') :
    towers.Attends point count (task.andThen next) (owed + owed') (turns + turns') := by
  induction h with
  | finish value =>
    rw [Nat.zero_add, Nat.zero_add]
    exact hnext [] value (.finish value)
  | emit entry _ ih => exact .emit entry (ih fun _ _ hvalue => hnext _ _ (.emit hvalue))
  | create _ ih => exact .create fun serial => ih serial fun _ _ hvalue => hnext _ _ (.create hvalue)
  | outcome _ ih => exact .outcome (ih fun _ _ hvalue => hnext _ _ (.outcome hvalue))
  | wait polls _ ih => exact .wait polls (ih fun _ _ hvalue => hnext _ _ (.wait hvalue))
  | elsewhere apart _ ih => exact .elsewhere apart (ih fun _ _ hvalue => hnext _ _ (.arrive hvalue))
  | tick _ ih => exact .tick fun before => ih before fun _ _ hvalue => hnext _ _ (.tick hvalue)
  | meet first _ ih =>
    have hlater := ih fun _ _ hvalue => hnext _ _ (.arrive (.await hvalue))
    rw [Nat.add_right_comm, Nat.add_right_comm _ 1]
    exact .meet (Nat.add_le_add first fresh) hlater
  | arrived first _ ih =>
    have hlater := ih fun _ _ hvalue => hnext _ _ (.await hvalue)
    rw [Nat.add_right_comm _ 1]
    exact .arrived (Nat.add_le_add first fresh) hlater
  | call _ ih =>
    have hlater := ih fun _ _ hvalue => hnext _ _ (.call hvalue)
    rw [Task.andThen_assoc] at hlater
    exact .call hlater
  | both lefts rights first _ _ _ ih =>
    rw [Nat.add_assoc, Nat.add_assoc (max _ _)]
    exact .both lefts rights (Nat.add_le_add first fresh) fun _ _ a b ha hb =>
      ih _ _ a b ha hb fun _ _ hvalue => hnext _ _ (.both ha hb hvalue)

theorem bind {next : α → Task β} {owed' turns' : Nat}
    (h : towers.Attends point count task owed turns) (fresh : turns' ≤ owed')
    (hnext : ∀ learned value, towers.Yields task learned value →
      towers.Attends point count (next value) owed' turns') :
    towers.Attends point count (task.bind next) (owed + owed') (turns + turns') :=
  h.andThen fresh hnext

theorem emitAll (entries : List Event) (h : towers.Attends point count task owed turns) :
    towers.Attends point count (Task.emitAll entries task) owed turns := by
  induction entries with
  | nil => exact h
  | cons entry rest ih => exact .emit entry ih

end Attends

end Towers

end ChainExpr
