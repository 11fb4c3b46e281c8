import ChainExpr.Proofs.Instant
import ChainExpr.Proofs.Step

namespace ChainExpr

/-- One list mixed into another, each in its own order. -/
inductive Merge {ι : Type} : List ι → List ι → List ι → Prop
  | nil : Merge [] [] []
  | left {item : ι} {a b mixed : List ι} (h : Merge a b mixed) : Merge (item :: a) b (item :: mixed)
  | right {item : ι} {a b mixed : List ι} (h : Merge a b mixed) : Merge a (item :: b) (item :: mixed)

namespace Merge

variable {ι : Type} {a b mixed : List ι}

theorem perm (h : Merge a b mixed) : mixed.Perm (a ++ b) := by
  induction h with
  | nil => exact .nil
  | left _ ih => exact ih.cons _
  | right _ ih => exact (ih.cons _).trans List.perm_middle.symm

theorem mem_iff (h : Merge a b mixed) {item : ι} : item ∈ mixed ↔ item ∈ a ∨ item ∈ b := by
  rw [h.perm.mem_iff, List.mem_append]

theorem left_sublist (h : Merge a b mixed) : a.Sublist mixed := by
  induction h with
  | nil => exact .slnil
  | left _ ih => exact ih.cons_cons _
  | right _ ih => exact ih.cons _

theorem right_sublist (h : Merge a b mixed) : b.Sublist mixed := by
  induction h with
  | nil => exact .slnil
  | left _ ih => exact ih.cons _
  | right _ ih => exact ih.cons_cons _

theorem left_append (h : Merge a b mixed) (items : List ι) : Merge (items ++ a) b (items ++ mixed) := by
  induction items with
  | nil => exact h
  | cons item rest ih => exact ih.left

theorem right_append (h : Merge a b mixed) (items : List ι) : Merge a (items ++ b) (items ++ mixed) := by
  induction items with
  | nil => exact h
  | cons item rest ih => exact ih.right

theorem only_left (items : List ι) : Merge items [] items := by
  induction items with
  | nil => exact .nil
  | cons item rest ih => exact ih.left

theorem only_right (items : List ι) : Merge [] items items := by
  induction items with
  | nil => exact .nil
  | cons item rest ih => exact ih.right

end Merge

/-- What two parts have come to, from what each of them has. The first error that counts does not wait for
the other part, and nothing has to be done at once. -/
inductive Joined {α β γ : Type} (mode : JoinMode) (join : β → γ → α) : Option (Except RuntimeError β) →
    Option (Except RuntimeError γ) → Option (Except RuntimeError α) → Prop
  | not_yet (left : Option (Except RuntimeError β)) (right : Option (Except RuntimeError γ)) :
      Joined mode join left right none
  | both_done (a : β) (b : γ) : Joined mode join (some (.ok a)) (some (.ok b)) (some (.ok (join a b)))
  | left_failed (error : RuntimeError) (right : Option (Except RuntimeError γ)) :
      Joined mode join (some (.error error)) right (some (.error error))
  | right_failed {left : Option (Except RuntimeError β)} (heeded : mode = .eager ∨ ∃ a, left = some (.ok a))
      (error : RuntimeError) : Joined mode join left (some (.error error)) (some (.error error))

/-- The milestones of a plan up to some moment, and its outcome if that has been reached. -/
inductive Story : {α : Type} → Plan α → List Milestone → Option (Except RuntimeError α) → Prop
  | begun {α : Type} (plan : Plan α) : Story plan [] none
  | plain {α : Type} {task : Task α} {outcome : Except RuntimeError α}
      (possible : ∀ meets, task.Returns meets → meets outcome) : Story (.plain task) [] (some outcome)
  | pass {α : Type} (milestone : Milestone) {next : Plan α} {story : List Milestone}
      {reached : Option (Except RuntimeError α)} (later : Story next story reached) :
      Story (.pass milestone next) (milestone :: story) reached
  | within {α β : Type} {first : Plan β} (noted : RuntimeError → List LogEntry) (next : β → Plan α)
      {story : List Milestone} {reached : Option (Except RuntimeError β)}
      (earlier : Story first story reached) : Story (.andThen first noted next) story none
  | failed {α β : Type} {first : Plan β} (noted : RuntimeError → List LogEntry) (next : β → Plan α)
      {story : List Milestone} {error : RuntimeError}
      (earlier : Story first story (some (.error error))) :
      Story (.andThen first noted next) story (some (.error error))
  | behind {α β : Type} {first : Plan β} (noted : RuntimeError → List LogEntry) {next : β → Plan α}
      {value : β} {story story' : List Milestone} {reached : Option (Except RuntimeError α)}
      (earlier : Story first story (some (.ok value))) (later : Story (next value) story' reached) :
      Story (.andThen first noted next) (story ++ story') reached
  | both {α β γ : Type} {mode : JoinMode} {left : Plan β} {right : Plan γ} {join : β → γ → α}
      {lefts rights story : List Milestone} {reachedl : Option (Except RuntimeError β)}
      {reachedr : Option (Except RuntimeError γ)} {reached : Option (Except RuntimeError α)}
      (hleft : Story left lefts reachedl) (hright : Story right rights reachedr)
      (merge : Merge lefts rights story) (joined : Joined mode join reachedl reachedr reached) :
      Story (.both mode left right join) story reached

/-- An outcome that a plan has reached, and a good one. -/
def Succeeds {α : Type} (reached : Option (Except RuntimeError α)) : Prop :=
  ∃ value, reached = some (.ok value)

namespace Story

variable {α β γ : Type} {reached : Option (Except RuntimeError α)} {story : List Milestone}

theorem plain_cases {task : Task α} (h : Story (.plain task) story reached) :
    story = [] ∧ ∀ outcome, reached = some outcome → ∀ meets, task.Returns meets → meets outcome := by
  cases h with
  | begun => simp
  | plain possible =>
    refine ⟨rfl, ?_⟩
    intro outcome houtcome
    cases houtcome
    exact possible

theorem pass_cases {milestone : Milestone} {next : Plan α}
    (h : Story (.pass milestone next) story reached) :
    (story = [] ∧ reached = none) ∨ ∃ later, story = milestone :: later ∧ Story next later reached := by
  cases h with
  | begun => exact .inl ⟨rfl, rfl⟩
  | pass _ later => exact .inr ⟨_, rfl, later⟩

theorem andThen_cases {first : Plan β} {noted : RuntimeError → List LogEntry} {next : β → Plan α}
    (h : Story (.andThen first noted next) story reached) :
    (¬ Succeeds reached ∧ ∃ earlier, Story first story earlier) ∨
      ∃ value before after, story = before ++ after ∧ Story first before (some (.ok value)) ∧
        Story (next value) after reached := by
  cases h with
  | begun => exact .inl ⟨by simp [Succeeds], none, .begun first⟩
  | within _ _ earlier => exact .inl ⟨by simp [Succeeds], _, earlier⟩
  | failed _ _ earlier => exact .inl ⟨by simp [Succeeds], _, earlier⟩
  | behind _ earlier later => exact .inr ⟨_, _, _, rfl, earlier, later⟩

theorem both_cases {mode : JoinMode} {left : Plan β} {right : Plan γ} {join : β → γ → α}
    (h : Story (.both mode left right join) story reached) :
    ∃ lefts rights reachedl reachedr, Story left lefts reachedl ∧ Story right rights reachedr ∧
      Merge lefts rights story ∧ (Succeeds reached → Succeeds reachedl ∧ Succeeds reachedr) := by
  cases h with
  | begun => exact ⟨[], [], none, none, .begun left, .begun right, .nil, by simp [Succeeds]⟩
  | both hleft hright merge joined =>
    refine ⟨_, _, _, _, hleft, hright, merge, ?_⟩
    cases joined <;> simp [Succeeds]

/-- Two parts that have come to the outcome of their join have its story from then on. -/
theorem joined_plain {mode : JoinMode} {left : Plan β} {right : Plan γ} {join : β → γ → α}
    {lefts rights : List Milestone} {reachedl : Option (Except RuntimeError β)}
    {reachedr : Option (Except RuntimeError γ)} {outcome : Except RuntimeError α}
    (hleft : Story left lefts reachedl)
    (hright : Story right rights reachedr) (joined : Joined mode join reachedl reachedr (some outcome))
    (hlater : Story (.plain (.finish outcome)) story reached) :
    Story (.both mode left right join) (lefts ++ rights ++ story) reached := by
  have hmerge : Merge lefts rights (lefts ++ rights ++ []) := by
    simpa using Merge.left_append (.only_right rights) lefts
  cases hlater with
  | begun => exact .both hleft hright hmerge (.not_yet _ _)
  | plain possible =>
    obtain rfl := possible (fun other => other = outcome) rfl
    exact .both hleft hright hmerge joined

end Story

/-- The calls so far, in the order in which they happened. -/
def World.calls (world : World) : List Event := world.history.filter Event.isCall

theorem World.calls_record (world : World) (event : Event) :
    (world.record event).calls = world.calls ++ [event].filter Event.isCall := by
  rw [calls, history_record, List.filter_append, calls]

/-- The routine calls no function value, whatever it learns. -/
def Routine.CallsNothing : Routine → Prop
  | .finish _ => True
  | .wait _ next | .arrive _ next | .await _ _ next => next.CallsNothing
  | .tick next => ∀ before, (next before).CallsNothing
  | .call .. => False

theorem Routine.CallsNothing.leads {body rest : Routine} (hleads : body.Leads rest)
    (h : body.CallsNothing) : rest.CallsNothing := by
  cases hleads with
  | tick next before => exact h before
  | call => exact h.elim
  | _ => exact h

/-- No part of a task makes a call. -/
def Policy.quiet : Policy where
  event entry _ := entry.isCall = false
  routine _ body := body.CallsNothing
  event_andThen _ _ _ h := h
  routine_leads _ _ _ hleads h := h.leads hleads

theorem Task.Instant.quiet {α : Type} {task : Task α} (h : task.Instant) : task.Obeys .quiet := by
  induction task with
  | finish outcome => trivial
  | emit event next ih => exact ⟨h.1, ih h.2⟩
  | _ => exact h.elim

/-- The calls of a plan are all among its milestones. -/
def Plan.Quiet {α : Type} : Plan α → Prop
  | .plain task => task.Obeys .quiet
  | .pass _ next => next.Quiet
  | .andThen first _ next => first.Quiet ∧ ∀ value, (next value).Quiet
  | .both _ left right _ => left.Quiet ∧ right.Quiet

namespace Towers

variable {towers : Towers} {α : Type}

theorem Step.quiet {a b : Task α × World} (h : towers.Step a b) (ha : a.1.Obeys .quiet) :
    b.1.Obeys .quiet ∧ b.2.calls = a.2.calls := by
  have hobeys : b.1.Obeys .quiet := h.obeys (fun _ _ _ _ hcall => False.elim hcall) ha
  refine ⟨hobeys, ?_⟩
  rcases h.events with hsame | ⟨entry, hentry, hwhence⟩
  · rw [World.calls, World.history, hsame]
    rfl
  · have hnone : entry.isCall = false := by
      rcases hwhence with ⟨function, rfl⟩ | ⟨β, next, hpart⟩
      · rfl
      · exact (ha.part hpart).1
    rw [World.calls, World.history, hentry, List.reverse_cons, List.filter_append]
    simp [hnone, World.calls, World.history]

end Towers

theorem Task.andThen_eq_finish {α β : Type} {task : Task α} {next : Except RuntimeError α → Task β}
    {outcome : Except RuntimeError β} (h : task.andThen next = .finish outcome) :
    ∃ first, task = .finish first ∧ next first = .finish outcome := by
  cases task with
  | finish first => exact ⟨first, rfl, h⟩
  | _ => cases h

theorem Milestone.isCall_of_event {milestone : Milestone} {event : Event}
    (h : milestone.event? = some event) : event.isCall = true := by
  cases milestone with
  | called place function context arguments =>
    cases h
    rfl
  | _ => cases h

namespace Plan

variable {α : Type}

/-- A plan whose task has its outcome may still have milestones to pass, but no calls. -/
theorem finishes {plan : Plan α} {outcome : Except RuntimeError α}
    (h : plan.task = .finish outcome) :
    ∃ story, story.filterMap Milestone.event? = [] ∧ Story plan story (some outcome) := by
  induction plan with
  | plain task =>
    have htask : task = .finish outcome := h
    refine ⟨[], rfl, .plain fun meets hmeets => ?_⟩
    rw [htask] at hmeets
    exact hmeets
  | pass milestone next ih =>
    rw [task] at h
    cases hevent : milestone.event? with
    | some event =>
      rw [hevent] at h
      cases h
    | none =>
      rw [hevent] at h
      obtain ⟨story, hnone, hstory⟩ := ih h
      exact ⟨milestone :: story, by simp [hevent, hnone], .pass milestone hstory⟩
  | andThen first noted next ihf ihn =>
    rw [task] at h
    obtain ⟨earlier, hfirst, hnext⟩ := Task.andThen_eq_finish h
    obtain ⟨story, hnone, hstory⟩ := ihf hfirst
    cases earlier with
    | ok value =>
      obtain ⟨story', hnone', hstory'⟩ := ihn value hnext
      exact ⟨story ++ story', by simp [hnone, hnone'], .behind noted hstory hstory'⟩
    | error error =>
      cases hlogs : noted error with
      | nil =>
        simp only [hlogs] at hnext
        cases hnext
        exact ⟨story, hnone, .failed noted next hstory⟩
      | cons entry rest =>
        simp only [hlogs] at hnext
        cases hnext
  | both mode left right join => cases h

theorem quiet_noted {β : Type} (logs : List LogEntry) (error : RuntimeError) :
    (Task.emitAll (logs.map .log) (.fail error) : Task β).Obeys .quiet := by
  apply Task.obeys_emitAll
  · intro entry hentry next
    obtain ⟨log, _, rfl⟩ := List.mem_map.mp hentry
    rfl
  · trivial

theorem returns_noted {β : Type} (logs : List LogEntry) (error : RuntimeError) :
    (Task.emitAll (logs.map .log) (.fail error) : Task β).Returns
      fun outcome => outcome = .error error := by
  apply Task.returns_emitAll
  exact rfl

/-- A step of the task of a plan is one of the plan, before which milestones may be passed. -/
theorem tells_step {towers : Towers} {plan : Plan α} {world world' : World} {rest : Task α}
    (hquiet : plan.Quiet) (h : towers.Step (plan.task, world) (rest, world')) :
    ∃ plan' story, plan'.task = rest ∧ plan'.Quiet ∧
      world'.calls = world.calls ++ story.filterMap Milestone.event? ∧
      ∀ later reached, Story plan' later reached → Story plan (story ++ later) reached := by
  induction plan generalizing world world' with
  | plain task =>
    obtain ⟨hrest, hcalls⟩ := h.quiet hquiet
    refine ⟨.plain rest, [], rfl, hrest, by simpa using hcalls, ?_⟩
    intro later reached hlater
    cases hlater with
    | begun => exact .begun _
    | plain possible => exact .plain fun meets hmeets => possible meets (h.returns hmeets)
  | pass milestone next ih =>
    rw [task] at h
    cases hevent : milestone.event? with
    | some event =>
      rw [hevent] at h
      cases h
      refine ⟨next, [milestone], rfl, hquiet, ?_, fun later reached => .pass milestone⟩
      rw [World.calls_record]
      simp [hevent, Milestone.isCall_of_event hevent]
    | none =>
      rw [hevent] at h
      obtain ⟨plan', story, hrest, hquiet', hcalls, hextend⟩ := ih hquiet h
      refine ⟨plan', milestone :: story, hrest, hquiet', by simpa [hevent] using hcalls, ?_⟩
      intro later reached hlater
      exact .pass milestone (hextend later reached hlater)
  | andThen first noted next ihf ihn =>
    rw [task] at h
    rcases Towers.step_andThen_cases h with ⟨outcome, hfirst⟩ | ⟨task', middle, hstep, hstate⟩
    · -- The step is one of the next part, which begins after the milestones that the first one has left.
      obtain ⟨earlier, hnone, hearlier⟩ := finishes hfirst
      rw [hfirst, Task.andThen_finish] at h
      cases outcome with
      | ok value =>
        obtain ⟨plan', story, hrest, hquiet', hcalls, hextend⟩ := ihn value (hquiet.2 value) h
        refine ⟨plan', earlier ++ story, hrest, hquiet', by simpa [hnone] using hcalls, ?_⟩
        intro later reached hlater
        rw [List.append_assoc]
        exact .behind noted hearlier (hextend later reached hlater)
      | error error =>
        have hstep : towers.Step (Task.emitAll ((noted error).map .log) (.fail error), world)
            (rest, world') := h
        obtain ⟨hrest, hcalls⟩ := hstep.quiet (quiet_noted (noted error) error)
        refine ⟨.plain rest, earlier, rfl, hrest, by simpa [hnone] using hcalls, ?_⟩
        intro later reached hlater
        cases hlater with
        | begun =>
          rw [List.append_nil]
          exact .within noted next hearlier
        | plain possible =>
          have hrest := hstep.returns (returns_noted (noted error) error)
          obtain rfl := possible _ hrest
          rw [List.append_nil]
          exact .failed noted next hearlier
    · cases hstate
      obtain ⟨first', story, hrest, hquiet', hcalls, hextend⟩ := ihf hquiet.1 hstep
      refine ⟨.andThen first' noted next, story, ?_, ⟨hquiet', hquiet.2⟩, hcalls, ?_⟩
      · rw [task, hrest]
      · intro later reached hlater
        cases hlater with
        | begun => exact .within noted next (hextend [] none (.begun first'))
        | within _ _ earlier => exact .within noted next (hextend later _ earlier)
        | failed _ _ earlier => exact .failed noted next (hextend later _ earlier)
        | behind _ earlier hlater =>
          rw [← List.append_assoc]
          exact .behind noted (hextend _ _ earlier) hlater
  | both mode left right join ihl ihr =>
    rw [task] at h
    generalize hlefts : left.task = lefts at h
    generalize hrights : right.task = rights at h
    cases h with
    | left _ _ step =>
      subst hlefts
      obtain ⟨left', story, hrest, hquiet', hcalls, hextend⟩ := ihl hquiet.1 step
      refine ⟨.both mode left' right join, story, by rw [task, hrest, hrights], ⟨hquiet', hquiet.2⟩, hcalls,
        ?_⟩
      intro later reached hlater
      cases hlater with
      | begun =>
        exact .both (hextend [] none (.begun left')) (.begun right) (.only_left _) (.not_yet _ _)
      | both hleft hright merge joined =>
        exact .both (hextend _ _ hleft) hright (merge.left_append story) joined
    | right _ _ step =>
      subst hrights
      obtain ⟨right', story, hrest, hquiet', hcalls, hextend⟩ := ihr hquiet.2 step
      refine ⟨.both mode left right' join, story, by rw [task, hrest, hlefts], ⟨hquiet.1, hquiet'⟩, hcalls,
        ?_⟩
      intro later reached hlater
      cases hlater with
      | begun =>
        exact .both (.begun left) (hextend [] none (.begun right')) (.only_right _) (.not_yet _ _)
      | both hleft hright merge joined =>
        exact .both hleft (hextend _ _ hright) (merge.right_append story) joined
    | joined a b =>
      obtain ⟨lefts, hnonel, hleft⟩ := finishes hlefts
      obtain ⟨rights, hnoner, hright⟩ := finishes hrights
      exact ⟨.plain (.ok (join a b)), lefts ++ rights, rfl, trivial, by simp [hnonel, hnoner],
        fun _ _ => hleft.joined_plain hright (.both_done a b)⟩
    | left_failed error =>
      obtain ⟨lefts, hnone, hleft⟩ := finishes hlefts
      exact ⟨.plain (.fail error), lefts ++ [], rfl, trivial, by simp [hnone],
        fun _ _ => hleft.joined_plain (.begun right) (.left_failed error _)⟩
    | right_failed error heeded =>
      obtain ⟨rights, hnone, hright⟩ := finishes hrights
      obtain ⟨lefts, reachedl, hnonel, hleft, hheeded⟩ : ∃ lefts reachedl,
          lefts.filterMap Milestone.event? = [] ∧ Story left lefts reachedl ∧
            (mode = .eager ∨ ∃ a, reachedl = some (.ok a)) := by
        rcases heeded with heager | ⟨a, rfl⟩
        · exact ⟨[], none, rfl, .begun left, .inl heager⟩
        · obtain ⟨lefts, hnone, hleft⟩ := finishes hlefts
          exact ⟨lefts, _, hnone, hleft, .inr ⟨a, rfl⟩⟩
      exact ⟨.plain (.fail error), lefts ++ rights, rfl, trivial, by simp [hnone, hnonel],
        fun _ _ => hleft.joined_plain hright (.right_failed hheeded error)⟩

/-- A run of the task of a plan is a run of the plan, whatever it goes on with. -/
theorem tells_run {towers : Towers} {plan : Plan α} {world : World} {state : Task α × World}
    (hquiet : plan.Quiet) (h : towers.Runs (plan.task, world) state) :
    ∃ plan' story, plan'.task = state.1 ∧
      state.2.calls = world.calls ++ story.filterMap Milestone.event? ∧
      ∀ later reached, Story plan' later reached → Story plan (story ++ later) reached := by
  generalize hstart : (plan.task, world) = start at h
  induction h using Relation.ReflTransGen.head_induction_on generalizing plan world with
  | refl =>
    subst hstart
    exact ⟨plan, [], rfl, by simp, fun later reached hlater => hlater⟩
  | @head _ middle step _ ih =>
    subst hstart
    obtain ⟨rest, world'⟩ := middle
    obtain ⟨plan', story, hrest, hquiet', hcalls, hextend⟩ := tells_step hquiet step
    obtain ⟨plan'', story', hrest', hcalls', hextend'⟩ := ih hquiet' (by rw [hrest])
    refine ⟨plan'', story ++ story', hrest', ?_, ?_⟩
    · rw [hcalls', hcalls, List.filterMap_append, List.append_assoc]
    · intro later reached hlater
      rw [List.append_assoc]
      exact hextend _ _ (hextend' _ _ hlater)

end Plan

theorem Plan.Quiet.join {α : Type} {plans : List (Plan α)} (h : ∀ plan ∈ plans, plan.Quiet) :
    (Plan.join plans).Quiet := by
  have hbehind (before : Plan (List α)) (hbefore : before.Quiet) :
      (Plan.joinInOrder before plans).Quiet := by
    induction plans generalizing before with
    | nil => exact hbefore
    | cons plan rest ih =>
      obtain ⟨hfirst, hrest⟩ := List.forall_mem_cons.mp h
      exact ih hrest _ ⟨hbefore, hfirst⟩
  rw [Plan.join]
  split
  · clear * - h
    induction plans with
    | nil => trivial
    | cons plan rest ih =>
      obtain ⟨hfirst, hrest⟩ := List.forall_mem_cons.mp h
      exact ⟨hfirst, ih hrest⟩
  · exact hbehind _ trivial

/-- The outcome of a task that has one. -/
def Task.outcome? {α : Type} : Task α → Option (Except RuntimeError α)
  | .finish outcome => some outcome
  | _ => none

/-- Every run of the task of a plan has a story, with the calls of the run. -/
theorem Plan.Quiet.story {α : Type} {towers : Towers} {plan : Plan α} {world : World}
    {state : Task α × World} (hquiet : plan.Quiet) (h : towers.Runs (plan.task, world) state) :
    ∃ story, Story plan story state.1.outcome? ∧
      state.2.calls = world.calls ++ story.filterMap Milestone.event? := by
  obtain ⟨plan', story, hrest, hcalls, hextend⟩ := tells_run hquiet h
  cases hstate : state.1 with
  | finish outcome =>
    obtain ⟨later, hnone, hlater⟩ := finishes (hrest.trans hstate)
    exact ⟨story ++ later, hextend later _ hlater, by simpa [hnone] using hcalls⟩
  | _ =>
    refine ⟨story, ?_, hcalls⟩
    rw [← List.append_nil story]
    exact hextend [] none (.begun plan')

namespace Site

variable {site : Site} {definition : FunctionDefinition}

theorem quiet_enclose {place : Place} {context : Value} {body : Plan Value} (h : body.Quiet) :
    (Plan.enclose place context body).Quiet := ⟨h, fun _ => trivial⟩

theorem quiet_planLink {place : Place} {names : List String} {values : Plan (List (List Value))}
    (hvalues : values.Quiet)
    (hcalls : ∀ context arguments, (definition.implementation context arguments).CallsNothing)
    (context : Value) : (site.planLink place definition names values context).Quiet := by
  refine ⟨?_, fun bound => ⟨(site.instant_approach definition bound context).quiet, fun received => ?_⟩⟩
  · rw [planResolve]
    split
    · exact ⟨rfl, trivial⟩
    · exact ⟨hvalues, fun lists => ((definition.instant_bindArguments _ _).onError _).quiet⟩
  · refine ⟨?_, fun result => trivial⟩
    have hrun : (Task.routine definition.name (definition.implementation received bound)
        .finish : Task Value).Obeys .quiet := ⟨hcalls received bound, fun _ => trivial⟩
    exact (hrun.onError fun _ => rfl).bind fun result => (definition.instant_checkReturn result).quiet

end Site

end ChainExpr
