import ChainExpr.Proofs.Amid
import ChainExpr.Proofs.Polling

namespace ChainExpr

variable {α β γ : Type} {towers : Towers} {world middle world' : World}

namespace Towers

/-- The task succeeds with the value after some rounds. -/
def ComesTo (towers : Towers) (task : Task α) (world : World) (value : α) : Prop :=
  ∃ polls world', towers.Ends task world polls (.ok value) world'

/-- One round of parts side by side, none of which fails, and what is left of each. -/
inductive PollsEach (towers : Towers) : List (Task α) → World → List (Task α) → World → Prop
  | nil (world : World) : PollsEach towers [] world [] world
  | cons {part rest : Task α} {parts rests : List (Task α)} {stands : Progress α}
      {world middle world' : World} (polls : towers.Polls part world stands middle)
      (stays : stands.Stays rest) (later : PollsEach towers parts middle rests world') :
      PollsEach towers (part :: parts) world (rest :: rests) world'

/-- Parts side by side, round by round, until all of them have come to their values. -/
inductive EndsEach (towers : Towers) : List (Task α) → World → List α → World → Prop
  | now {parts : List (Task α)} {values : List α} {world world' : World}
      (polls : towers.PollsEach parts world (values.map .ok) world') :
      EndsEach towers parts world values world'
  | later {parts rests : List (Task α)} {values : List α} {world middle world' : World}
      (polls : towers.PollsEach parts world rests middle)
      (ends : EndsEach towers rests middle values world') : EndsEach towers parts world values world'

namespace PollsEach

variable {parts parts' rests rests' : List (Task α)}

theorem append (h : towers.PollsEach parts world rests middle)
    (h' : towers.PollsEach parts' middle rests' world') :
    towers.PollsEach (parts ++ parts') world (rests ++ rests') world' := by
  induction h with
  | nil => exact h'
  | cons polls stays _ ih => exact .cons polls stays (ih h')

theorem of_append (h : towers.PollsEach (parts ++ parts') world rests world') :
    ∃ first later middle, rests = first ++ later ∧ towers.PollsEach parts world first middle ∧
      towers.PollsEach parts' middle later world' := by
  induction parts generalizing world rests with
  | nil => exact ⟨[], rests, world, rfl, .nil world, h⟩
  | cons part parts ih =>
    cases h with
    | cons polls stays later =>
      obtain ⟨first, last, middle, rfl, hfirst, hlast⟩ := ih later
      exact ⟨_ :: first, last, middle, rfl, .cons polls stays hfirst, hlast⟩

/-- Parts that are done stay as they are. -/
theorem done (values : List α) (world : World) :
    towers.PollsEach (values.map .ok) world (values.map .ok) world := by
  induction values with
  | nil => exact .nil world
  | cons value rest ih => exact .cons (polls_finish (.ok value) world) (.ok value) ih

theorem of_done {values : List α} (h : towers.PollsEach (values.map .ok) world rests world') :
    rests = values.map .ok ∧ world' = world := by
  induction values generalizing world rests with
  | nil =>
    cases h
    exact ⟨rfl, rfl⟩
  | cons value values ih =>
    cases h with
    | cons polls stays later =>
      obtain ⟨rfl, rfl⟩ := polls.unique (polls_finish (.ok value) world)
      obtain ⟨rfl, rfl⟩ := ih later
      cases stays
      exact ⟨rfl, rfl⟩

end PollsEach

/-- The task can still come to a value. -/
def CanSucceed (towers : Towers) (task : Task α) : Prop :=
  ∃ world value world', towers.RunsAmid (task, world) (.finish (.ok value), world')

theorem canSucceed_ok (value : α) : towers.CanSucceed (.ok value) :=
  ⟨.start, value, .start, .refl⟩

theorem not_canSucceed_fail {error : RuntimeError} : ¬ towers.CanSucceed (.fail error : Task α) := by
  rintro ⟨_, _, _, hrun⟩
  cases hrun.of_finish

/-- Two parts side by side succeed only if both of them do. -/
theorem CanSucceed.parts {mode : JoinMode} {left : Task β} {right : Task γ}
    {next : Except RuntimeError (β × γ) → Task α} (hfails : ∀ error, next (.error error) = .fail error)
    (h : towers.CanSucceed (.both mode left right next)) :
    towers.CanSucceed left ∧ towers.CanSucceed right := by
  obtain ⟨world, value, world', hrun⟩ := h
  rcases runsAmid_both_cases hrun with ⟨_, _, hboth, _⟩ | ⟨outcome, middle, hjoins, hnext⟩
  · cases hboth
  · cases hjoins with
    | ok lefts rights => exact ⟨⟨_, _, _, lefts⟩, ⟨_, _, _, rights⟩⟩
    | left_failed _ =>
      rw [hfails] at hnext
      exact absurd ⟨_, _, _, hnext⟩ not_canSucceed_fail
    | right_failed _ =>
      rw [hfails] at hnext
      exact absurd ⟨_, _, _, hnext⟩ not_canSucceed_fail

/-- A round of two parts side by side that can still succeed after it is a round of either. -/
theorem polls_both_stays {mode : JoinMode} {left : Task β} {right : Task γ}
    {next : Except RuntimeError (β × γ) → Task α} {stands : Progress α} {rest : Task α}
    (hfails : ∀ error, next (.error error) = .fail error)
    (h : towers.Polls (.both mode left right next) world stands world') (hstays : stands.Stays rest)
    (hrest : towers.CanSucceed rest) :
    ∃ standsl standsr restl restr middle last, towers.Polls left world standsl middle ∧
      standsl.Stays restl ∧ towers.Polls right middle standsr last ∧ standsr.Stays restr ∧
      ((∃ a b, restl = .ok a ∧ restr = .ok b ∧ towers.Polls (next (.ok (a, b))) last stands world') ∨
        rest = .both mode restl restr next ∧ last = world') := by
  obtain ⟨hdone, depth, hpoll⟩ := h
  have hended {error : RuntimeError} {middle : World}
      (hnext : (next (.error error)).round (towers.entry depth) middle = (stands, world')) : False := by
    rw [hfails] at hnext
    cases hnext
    cases hstays
  rw [poll_eq] at hpoll
  cases Task.round_both_cases hpoll with
  | left_exhausted => exact absurd rfl hdone
  | left_failed _ later => exact (hended later).elim
  | right_exhausted => exact absurd rfl hdone
  | right_failed _ _ _ _ later => exact (hended later).elim
  | held =>
    -- The failure that is kept back counts in the end.
    cases hstays
    exact absurd (hrest.parts hfails).2 not_canSucceed_fail
  | @joined a b middle last _ _ lefts rights later =>
    have hleft := Polls.of_round (by simp) depth lefts
    have hright := Polls.of_round (by simp) depth rights
    exact ⟨_, _, _, _, middle, last, hleft, .ok a, hright, .ok b,
      .inl ⟨a, b, rfl, rfl, .of_round hdone depth later⟩⟩
  | @pending standsl standsr restl restr middle _ lefts staysl rights staysr waits =>
    have hleft := Polls.of_round staysl.ne_exhausted depth lefts
    have hright := Polls.of_round staysr.ne_exhausted depth rights
    cases hstays
    exact ⟨_, _, _, _, middle, _, hleft, staysl, hright, staysr, .inr ⟨rfl, rfl⟩⟩

end Towers

/-- The task has these parts side by side, in groups or not. `flat` tells what the parts have come to
when the task has succeeded. -/
inductive Task.Joins : {β : Type} → Task β → List (Task α) → (β → List α) → Prop
  | part (task : Task α) : Joins task [task] ([·])
  | done {β : Type} (flat : β → List α) (result : β) : Joins (.ok result) ((flat result).map .ok) flat
  | both {β γ δ : Type} {mode : JoinMode} {left : Task γ} {right : Task δ}
      {next : Except RuntimeError (γ × δ) → Task β} {parts parts' : List (Task α)}
      {flatl : γ → List α} {flatr : δ → List α} {flat : β → List α}
      (lefts : Joins left parts flatl) (rights : Joins right parts' flatr)
      (joined : ∀ a b, ∃ result, next (.ok (a, b)) = .ok result ∧ flat result = flatl a ++ flatr b)
      (fails : ∀ error, next (.error error) = .fail error) :
      Joins (.both mode left right next) (parts ++ parts') flat

namespace Task.Joins

open Towers

variable {task : Task β} {parts rests : List (Task α)} {flat : β → List α} {values : List α}

theorem finished {result : β} (h : (Task.ok result).Joins parts flat) :
    parts = (flat result).map .ok := by
  cases h with
  | part => rfl
  | done => rfl

/-- A task all of whose parts are done is done in its next round. -/
theorem ready (h : task.Joins (values.map .ok) flat) (world : World) :
    ∃ result, flat result = values ∧ towers.Polls task world (.done (.ok result)) world := by
  have hok : Function.Injective (Task.ok : α → Task α) := fun a b hab => by
    cases hab
    rfl
  generalize hparts : values.map Task.ok = parts at h
  induction h generalizing values with
  | part task =>
    obtain ⟨value, rfl, rfl⟩ := List.map_eq_singleton_iff.mp hparts
    exact ⟨value, rfl, polls_finish (.ok value) world⟩
  | done flat result =>
    exact ⟨result, hok.list_map hparts.symm, polls_finish (.ok result) world⟩
  | both lefts rights joined fails ihl ihr =>
    obtain ⟨first, later, rfl, hfirst, hlater⟩ := List.map_eq_append_iff.mp hparts
    obtain ⟨a, rfl, hleft⟩ := ihl hfirst
    obtain ⟨b, rfl, hright⟩ := ihr hlater
    obtain ⟨result, hnext, hflat⟩ := joined a b
    refine ⟨result, hflat, polls_both_joined hleft hright ?_⟩
    rw [hnext]
    exact polls_finish (.ok result) world

/-- A round of every part is a round of the task. -/
theorem polls (h : task.Joins parts flat) (hpolls : towers.PollsEach parts world rests world') :
    ∃ stands rest, towers.Polls task world stands world' ∧ stands.Stays rest ∧ rest.Joins rests flat := by
  induction h generalizing world rests world' with
  | part task =>
    cases hpolls with
    | cons polls stays later =>
      cases later
      exact ⟨_, _, polls, stays, .part _⟩
  | done flat result =>
    obtain ⟨rfl, rfl⟩ := hpolls.of_done
    exact ⟨_, _, polls_finish (.ok result) _, .ok result, .done flat result⟩
  | @both _ _ _ mode left right next _ _ flatl flatr flat lefts rights joined fails ihl ihr =>
    obtain ⟨first, later, middle, rfl, hfirst, hlater⟩ := hpolls.of_append
    obtain ⟨standsl, restl, hleft, staysl, hjoinsl⟩ := ihl hfirst
    obtain ⟨standsr, restr, hright, staysr, hjoinsr⟩ := ihr hlater
    have hpending (hwaits : standsl = .pending restl ∨ standsr = .pending restr) :
        ∃ stands rest, towers.Polls (.both mode left right next) world stands world' ∧
          stands.Stays rest ∧ rest.Joins (first ++ later) flat :=
      ⟨_, _, polls_both_pending next hleft staysl hright staysr hwaits, .pending _,
        .both hjoinsl hjoinsr joined fails⟩
    cases staysl with
    | pending restl => exact hpending (.inl rfl)
    | ok a =>
      cases staysr with
      | pending restr => exact hpending (.inr rfl)
      | ok b =>
        obtain ⟨result, hnext, hflat⟩ := joined a b
        have hdone : towers.Polls (next (.ok (a, b))) world' (.done (.ok result)) world' := by
          rw [hnext]
          exact polls_finish (.ok result) world'
        refine ⟨_, _, polls_both_joined hleft hright hdone, .ok result, ?_⟩
        rw [finished hjoinsl, finished hjoinsr, ← List.map_append, ← hflat]
        exact .done flat result

/-- A round of a task that can still succeed after it is a round of every part. -/
theorem polls_each {stands : Progress β} {rest : Task β} (h : task.Joins parts flat)
    (hpolls : towers.Polls task world stands world') (hstays : stands.Stays rest)
    (hrest : towers.CanSucceed rest) :
    ∃ rests, towers.PollsEach parts world rests world' ∧ rest.Joins rests flat := by
  induction h generalizing world world' with
  | part task => exact ⟨[rest], .cons hpolls hstays (.nil world'), .part rest⟩
  | done flat result =>
    obtain ⟨rfl, rfl⟩ := hpolls.unique (polls_finish (.ok result) world)
    cases hstays
    exact ⟨_, .done _ _, .done flat result⟩
  | both lefts rights joined fails ihl ihr =>
    obtain ⟨standsl, standsr, restl, restr, middle, last, hleft, staysl, hright, staysr, hnext⟩ :=
      polls_both_stays fails hpolls hstays hrest
    rcases hnext with ⟨a, b, rfl, rfl, hnext⟩ | ⟨rfl, rfl⟩
    · obtain ⟨first, hfirst, hjoinsl⟩ := ihl hleft staysl (canSucceed_ok a)
      obtain ⟨later, hlater, hjoinsr⟩ := ihr hright staysr (canSucceed_ok b)
      obtain ⟨result, hresult, hflat⟩ := joined a b
      rw [hresult] at hnext
      obtain ⟨rfl, rfl⟩ := hnext.unique (polls_finish (.ok result) last)
      cases hstays
      refine ⟨_, hfirst.append hlater, ?_⟩
      rw [finished hjoinsl, finished hjoinsr, ← List.map_append, ← hflat]
      exact .done _ result
    · obtain ⟨hrestl, hrestr⟩ := hrest.parts fails
      obtain ⟨first, hfirst, hjoinsl⟩ := ihl hleft staysl hrestl
      obtain ⟨later, hlater, hjoinsr⟩ := ihr hright staysr hrestr
      exact ⟨_, hfirst.append hlater, .both hjoinsl hjoinsr joined fails⟩

/-- A task succeeds just where its parts come to their values, and with these. -/
theorem ends_iff (h : task.Joins parts flat) :
    (∃ polls result, flat result = values ∧ towers.Ends task world polls (.ok result) world') ↔
      towers.EndsEach parts world values world' := by
  constructor
  · rintro ⟨polls, result, rfl, hends⟩
    generalize houtcome : Except.ok result = outcome at hends
    induction hends generalizing parts with
    | now done =>
      subst houtcome
      obtain ⟨rests, hpolls, hjoins⟩ := h.polls_each done (.ok result) (canSucceed_ok result)
      rw [finished hjoins] at hpolls
      exact .now hpolls
    | later waits ends ih =>
      subst houtcome
      obtain ⟨rests, hpolls, hjoins⟩ := h.polls_each waits (.pending _) ⟨_, _, _, ends.runs.amid⟩
      exact .later hpolls (ih hjoins rfl)
  · intro hends
    induction hends generalizing task with
    | now polls =>
      obtain ⟨stands, rest, hpolls, hstays, hjoins⟩ := h.polls polls
      cases hstays with
      | ok result =>
        obtain ⟨_, hflat, hdone⟩ : ∃ last, flat last = _ ∧
            towers.Polls (.ok result) world' (.done (.ok last)) world' := hjoins.ready world'
        obtain ⟨hsame, _⟩ := hdone.unique (polls_finish (.ok result) world')
        cases hsame
        exact ⟨0, result, hflat, .now hpolls⟩
      | pending rest =>
        obtain ⟨result, hflat, hdone⟩ := hjoins.ready _
        exact ⟨1, result, hflat, .later hpolls (.now hdone)⟩
    | later polls _ ih =>
      obtain ⟨stands, rest, hpolls, hstays, hjoins⟩ := h.polls polls
      obtain ⟨count, result, hflat, hends⟩ := ih hjoins
      cases hstays with
      | ok result' =>
        obtain ⟨rfl, hsame, rfl⟩ := hends.unique (.now (polls_finish (.ok result') _))
        cases hsame
        exact ⟨0, result, hflat, .now hpolls⟩
      | pending rest => exact ⟨count + 1, result, hflat, .later hpolls hends⟩

theorem comesTo_iff (h : task.Joins parts flat) :
    (∃ result, flat result = values ∧ towers.ComesTo task world result) ↔
      ∃ world', towers.EndsEach parts world values world' := by
  constructor
  · rintro ⟨result, hflat, polls, world', hends⟩
    exact ⟨world', h.ends_iff.mp ⟨polls, result, hflat, hends⟩⟩
  · rintro ⟨world', heach⟩
    obtain ⟨polls, result, hflat, hends⟩ := h.ends_iff.mpr heach
    exact ⟨result, hflat, polls, world', hends⟩

theorem join {tasks : List (Task β)} {groups : List (List (Task α))}
    (h : List.Forall₂ (fun task parts => task.Joins parts flat) tasks groups) :
    (Task.join tasks).Joins groups.flatten (List.flatMap flat) := by
  refine Task.join_gathered (motive := fun joined groups => joined.Joins groups.flatten (List.flatMap flat))
    (.done (List.flatMap flat) []) ?cons ?append h
  case cons =>
    intro task rest parts groups hfirst hrest
    exact .both hfirst hrest (fun a b => ⟨a :: b, rfl, rfl⟩) fun error => rfl
  case append =>
    intro before task groups parts hbefore hlast
    rw [List.flatten_append, List.flatten_singleton]
    exact .both hbefore hlast (fun values value => ⟨values ++ [value], rfl, by simp⟩) fun error => rfl

theorem join_parts (tasks : List (Task α)) : (Task.join tasks).Joins tasks id := by
  have hparts : List.Forall₂ (fun (task : Task α) parts => task.Joins parts ([·])) tasks
      (tasks.map ([·])) := by
    rw [List.forall₂_map_right_iff]
    exact List.forall₂_same.mpr fun task _ => .part task
  have hjoins := join hparts
  have hflat : (List.flatMap ([·]) : List α → List α) = id := funext List.flatMap_singleton'
  have hgroups : (tasks.map ([·])).flatten = tasks := List.flatMap_singleton' tasks
  rwa [hflat, hgroups] at hjoins

end Task.Joins

namespace Site

variable {site : Site}

theorem joins_interpretArguments (given : List (String × List Node)) (context : Value) :
    (site.interpretArguments given context).Joins
      ((given.flatMap Prod.snd).map fun node => site.interpret node context) List.flatten := by
  have hgroups : List.Forall₂ (fun (task : Task (List Value)) parts => task.Joins parts id)
      (given.map fun entry => Task.join (entry.2.map fun node => site.interpret node context))
      (given.map fun entry => entry.2.map fun node => site.interpret node context) := by
    rw [List.forall₂_map_left_iff, List.forall₂_map_right_iff]
    exact List.forall₂_same.mpr fun entry _ => .join_parts _
  have hjoins := Task.Joins.join hgroups
  have hflat : (List.flatMap id : List (List Value) → List Value) = List.flatten :=
    funext fun _ => List.flatMap_id
  rwa [hflat, ← List.flatMap_def, ← List.map_flatMap, ← interpretArguments_eq] at hjoins

/-- The values of a call are those of its nodes side by side, whatever names they are given under. -/
theorem comesTo_interpretArguments_iff {given : List (String × List Node)} {context : Value}
    {values : List Value} :
    (∃ lists, lists.flatten = values ∧
        towers.ComesTo (site.interpretArguments given context) world lists) ↔
      towers.ComesTo (Task.join ((given.flatMap Prod.snd).map fun node =>
        site.interpret node context)) world values := by
  rw [(joins_interpretArguments given context).comesTo_iff]
  rw [← (Task.Joins.join_parts _).comesTo_iff]
  simp

end Site

end ChainExpr
