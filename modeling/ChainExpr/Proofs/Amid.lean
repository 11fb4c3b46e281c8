import ChainExpr.Proofs.Relay

namespace ChainExpr

/-- What each task is known for is gathered, in the order of the tasks, along their join. -/
theorem Task.join_gathered {α : Type} {σ : Type*} {each : Task α → σ → Prop}
    {motive : Task (List α) → List σ → Prop} (none : motive (.ok []) [])
    (cons : ∀ task rest item items, each task item → motive rest items →
      motive (.both .eager task rest (together List.cons)) (item :: items))
    (append : ∀ before task items item, motive before items → each task item →
      motive (.both .inOrder before task (together fun values value => values ++ [value]))
        (items ++ [item]))
    {tasks : List (Task α)} {items : List σ} (h : List.Forall₂ each tasks items) :
    motive (join tasks) items := by
  have hjoinAll : motive (joinAll tasks) items := by
    induction h with
    | nil => exact none
    | cons hfirst _ ih => exact cons _ _ _ _ hfirst ih
  have hjoinInOrder (before : Task (List α)) (gathered : List σ) (hbefore : motive before gathered) :
      motive (joinInOrder before tasks) (gathered ++ items) := by
    clear hjoinAll
    induction h generalizing before gathered with
    | nil =>
      rw [List.append_nil]
      exact hbefore
    | cons hfirst _ ih =>
      rw [List.append_cons]
      exact ih _ _ (append before _ gathered _ hbefore hfirst)
  rw [join]
  split
  · exact hjoinAll
  · exact hjoinInOrder _ [] none

namespace Towers

/-- A run in steps between which the state changes by steps of other tasks. -/
inductive RunsAmid (towers : Towers) {α : Type} (start : Task α × World) :
    Task α × World → Prop
  | refl : RunsAmid towers start start
  | own {state state' : Task α × World} (h : RunsAmid towers start state)
      (step : towers.Step state state') : RunsAmid towers start state'
  | others {task : Task α} {world world' : World} {γ : Type} {part part' : Task γ}
      (h : RunsAmid towers start (task, world)) (step : towers.Step (part, world) (part', world')) :
      RunsAmid towers start (task, world')

variable {towers : Towers} {α β γ : Type} {mode : JoinMode}

theorem Runs.amid {start state : Task α × World} (h : towers.Runs start state) :
    towers.RunsAmid start state := by
  induction h with
  | refl => exact .refl
  | tail _ step ih => exact ih.own step

namespace RunsAmid

/-- A run of one part is part of what another one has to live with. -/
theorem alongside {start : Task α × World} {task : Task α} {part part' : Task β}
    {world world' : World} (h : towers.RunsAmid start (task, world))
    (hother : towers.RunsAmid (part, world) (part', world')) :
    towers.RunsAmid start (task, world') := by
  generalize hstate : (part', world') = state at hother
  induction hother generalizing part' world' with
  | refl =>
    cases hstate
    exact h
  | @own before _ _ step ih =>
    subst hstate
    exact (ih rfl).others step
  | @others task before after _ _ _ _ step ih =>
    cases hstate
    exact (ih rfl).others step

theorem of_finish {outcome outcome' : Except RuntimeError α} {world world' : World}
    (h : towers.RunsAmid (.finish outcome, world) (.finish outcome', world')) :
    outcome' = outcome := by
  have hstill : ∀ state, towers.RunsAmid (.finish outcome, world) state →
      state.1 = .finish outcome := by
    intro state hstate
    induction hstate with
    | refl => rfl
    | @own before _ _ step ih =>
      obtain ⟨task, middle⟩ := before
      obtain rfl : task = .finish outcome := ih
      exact absurd step not_step_finish
    | others _ _ ih => exact ih
  exact Task.finish.inj (hstill _ h)

end RunsAmid

/-- How two parts side by side come together: both with their values, or one of them with its error. -/
inductive Joins (towers : Towers) (left : Task β) (right : Task γ) (world : World) :
    Except RuntimeError (β × γ) → World → Prop
  | ok {a : β} {b : γ} {world' : World}
      (lefts : towers.RunsAmid (left, world) (.finish (.ok a), world'))
      (rights : towers.RunsAmid (right, world) (.finish (.ok b), world')) :
      Joins towers left right world (.ok (a, b)) world'
  | left_failed {error : RuntimeError} {world' : World}
      (lefts : towers.RunsAmid (left, world) (.finish (.error error), world')) :
      Joins towers left right world (.error error) world'
  | right_failed {error : RuntimeError} {world' : World}
      (rights : towers.RunsAmid (right, world) (.finish (.error error), world')) :
      Joins towers left right world (.error error) world'

/-- Two parts side by side are under way, each in a run of its own, or they have come together. -/
theorem runsAmid_both_cases {left : Task β} {right : Task γ}
    {next : Except RuntimeError (β × γ) → Task α} {world : World} {state : Task α × World}
    (h : towers.RunsAmid (.both mode left right next, world) state) :
    (∃ left' right', state.1 = .both mode left' right' next ∧
      towers.RunsAmid (left, world) (left', state.2) ∧
      towers.RunsAmid (right, world) (right', state.2)) ∨
    ∃ outcome middle, towers.Joins left right world outcome middle ∧
      towers.RunsAmid (next outcome, middle) state := by
  induction h with
  | refl => exact .inl ⟨left, right, rfl, .refl, .refl⟩
  | @own before after _ step ih =>
    rcases ih with ⟨left', right', hboth, hleft, hright⟩ | ⟨outcome, middle, hjoins, hnext⟩
    · obtain ⟨task, middle⟩ := before
      obtain rfl : task = .both mode left' right' next := hboth
      cases step with
      | left _ _ step =>
        exact .inl ⟨_, right', rfl, hleft.own step, hright.others step⟩
      | right _ _ step =>
        exact .inl ⟨left', _, rfl, hleft.others step, hright.own step⟩
      | joined a b => exact .inr ⟨.ok (a, b), middle, .ok hleft hright, .refl⟩
      | left_failed error => exact .inr ⟨.error error, middle, .left_failed hleft, .refl⟩
      | right_failed error => exact .inr ⟨.error error, middle, .right_failed hright, .refl⟩
    · exact .inr ⟨outcome, middle, hjoins, hnext.own step⟩
  | others _ step ih =>
    rcases ih with ⟨left', right', hboth, hleft, hright⟩ | ⟨outcome, middle, hjoins, hnext⟩
    · exact .inl ⟨left', right', hboth, hleft.others step, hright.others step⟩
    · exact .inr ⟨outcome, middle, hjoins, hnext.others step⟩

theorem runsAmid_both_ok {left : Task β} {right : Task γ} {f : β → γ → α} {value : α}
    {world world' : World}
    (h : towers.RunsAmid (.both mode left right (Task.together f), world) (.finish (.ok value), world')) :
    ∃ a b, value = f a b ∧ towers.RunsAmid (left, world) (.finish (.ok a), world') ∧
      towers.RunsAmid (right, world) (.finish (.ok b), world') := by
  rcases runsAmid_both_cases h with ⟨_, _, hboth, _⟩ | ⟨outcome, middle, hjoins, hnext⟩
  · cases hboth
  · cases hjoins with
    | ok lefts rights =>
      cases hnext.of_finish
      exact ⟨_, _, rfl, lefts.alongside hnext, rights.alongside hnext⟩
    | left_failed _ => cases hnext.of_finish
    | right_failed _ => cases hnext.of_finish

theorem runsAmid_both_error {left : Task β} {right : Task γ} {f : β → γ → α} {error : RuntimeError}
    {world world' : World}
    (h : towers.RunsAmid (.both mode left right (Task.together f), world)
      (.finish (.error error), world')) :
    towers.RunsAmid (left, world) (.finish (.error error), world') ∨
      towers.RunsAmid (right, world) (.finish (.error error), world') := by
  rcases runsAmid_both_cases h with ⟨_, _, hboth, _⟩ | ⟨outcome, middle, hjoins, hnext⟩
  · cases hboth
  · cases hjoins with
    | ok _ _ => cases hnext.of_finish
    | left_failed lefts =>
      cases hnext.of_finish
      exact .inl (lefts.alongside hnext)
    | right_failed rights =>
      cases hnext.of_finish
      exact .inr (rights.alongside hnext)

/-- Tasks side by side come to the values that each of them comes to. -/
theorem runsAmid_join_ok {tasks : List (Task α)} {values : List α} {world world' : World}
    (h : towers.RunsAmid (Task.join tasks, world) (.finish (.ok values), world')) :
    List.Forall₂ (fun task value => towers.RunsAmid (task, world) (.finish (.ok value), world'))
      tasks values := by
  refine Task.join_gathered (motive := fun joined tasks => ∀ values,
    towers.RunsAmid (joined, world) (.finish (.ok values), world') →
      List.Forall₂ (fun task value => towers.RunsAmid (task, world) (.finish (.ok value), world'))
        tasks values) ?none ?cons ?append (List.forall₂_same.mpr fun _ _ => rfl)
    values h
  case none =>
    intro values h
    cases h.of_finish
    exact .nil
  case cons =>
    rintro task rest _ tasks rfl hrest values h
    obtain ⟨_, _, rfl, hfirst, hlater⟩ := runsAmid_both_ok h
    exact .cons hfirst (hrest _ hlater)
  case append =>
    rintro before task tasks _ hbefore rfl values h
    obtain ⟨_, _, rfl, hearlier, hlast⟩ := runsAmid_both_ok h
    exact List.rel_append (hbefore _ hearlier) (.cons hlast .nil)

/-- The error of tasks side by side is one that one of them comes to. -/
theorem runsAmid_join_error {tasks : List (Task α)} {error : RuntimeError} {world world' : World}
    (h : towers.RunsAmid (Task.join tasks, world) (.finish (.error error), world')) :
    ∃ task ∈ tasks, towers.RunsAmid (task, world) (.finish (.error error), world') := by
  have hblame : ∀ task ∈ tasks, towers.RunsAmid (task, world) (.finish (.error error), world') →
      ∃ task ∈ tasks, towers.RunsAmid (task, world) (.finish (.error error), world') :=
    fun task hmem hfails => ⟨task, hmem, hfails⟩
  refine Task.join_induction (motive := fun joined =>
    towers.RunsAmid (joined, world) (.finish (.error error), world') → _) ?none ?cons ?append hblame h
  case none =>
    intro h
    cases h.of_finish
  case cons =>
    intro task rest htask hrest h
    exact (runsAmid_both_error h).elim htask hrest
  case append =>
    intro before task hbefore htask h
    exact (runsAmid_both_error h).elim hbefore htask

end Towers

namespace Site

variable {site : Site} {towers : Towers}

/-- The values of a call are what its nodes come to, each on the context of the call, under the names
that the nodes are given for. -/
theorem elements_ok {given : List (String × List Node)} {context : Value} {world world' : World}
    {lists : List (List Value)}
    (h : towers.Runs (site.interpretArguments given context, world) (.finish (.ok lists), world')) :
    List.Forall₂ (fun entry values => List.Forall₂ (fun node value =>
        towers.RunsAmid (site.interpret node context, world) (.finish (.ok value), world'))
      entry.2 values) given lists := by
  rw [interpretArguments_eq] at h
  have hlists := Towers.runsAmid_join_ok h.amid
  rw [List.forall₂_map_left_iff] at hlists
  refine hlists.imp fun entry values hvalues => ?_
  have hnodes := Towers.runsAmid_join_ok hvalues
  rwa [List.forall₂_map_left_iff] at hnodes

/-- A call fails in its values with the error of one of its nodes. -/
theorem elements_error {given : List (String × List Node)} {context : Value} {world world' : World}
    {error : RuntimeError}
    (h : towers.Runs (site.interpretArguments given context, world) (.finish (.error error), world')) :
    ∃ entry ∈ given, ∃ node ∈ entry.2,
      towers.RunsAmid (site.interpret node context, world) (.finish (.error error), world') := by
  rw [interpretArguments_eq] at h
  obtain ⟨_, hentry, hfails⟩ := Towers.runsAmid_join_error h.amid
  obtain ⟨entry, hmem, rfl⟩ := List.mem_map.mp hentry
  obtain ⟨_, hvalue, hfails⟩ := Towers.runsAmid_join_error hfails
  obtain ⟨node, hnode, rfl⟩ := List.mem_map.mp hvalue
  exact ⟨entry, hmem, node, hnode, hfails⟩

end Site

end ChainExpr
