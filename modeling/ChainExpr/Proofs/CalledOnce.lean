import ChainExpr.Proofs.Abort
import ChainExpr.Proofs.Occasions
import Mathlib.Data.List.Nodup
import Mathlib.Data.List.Pairwise

namespace ChainExpr

/-- A place inside a node or a link, in one of the parts from some index on. -/
def Place.Inside (outer : Place) (index : Nat) (place : Place) : Prop :=
  ∃ part, index ≤ part ∧ (part :: outer) <:+ place

namespace Place.Inside

variable {outer place other : Place} {index : Nat}

theorem self (outer : Place) (index : Nat) : Place.Inside outer index (index :: outer) :=
  ⟨index, Nat.le_refl index, List.suffix_refl _⟩

theorem deeper (h : Place.Inside (index :: outer) 0 place) : Place.Inside outer index place := by
  obtain ⟨part, _, hsuffix⟩ := h
  exact ⟨index, Nat.le_refl index, (List.suffix_cons part (index :: outer)).trans hsuffix⟩

theorem later (h : Place.Inside outer (index + 1) place) : Place.Inside outer index place := by
  obtain ⟨part, hle, hsuffix⟩ := h
  exact ⟨part, by omega, hsuffix⟩

/-- Places in different parts are different. -/
theorem ne (h : (index :: outer) <:+ place) (h' : Place.Inside outer (index + 1) other) :
    place ≠ other := by
  rintro rfl
  obtain ⟨part, hle, hsuffix⟩ := h'
  have hparts : index :: outer = part :: outer :=
    (List.suffix_of_suffix_length_le h hsuffix (by simp)).eq_of_length (by simp)
  have hpart : index = part := (List.cons.inj hparts).1
  omega

/-- A link does not stand inside itself. -/
theorem not_self : ¬ Place.Inside outer index outer := by
  rintro ⟨part, _, hsuffix⟩
  have hlength := hsuffix.length_le
  simp only [List.length_cons] at hlength
  omega

end Place.Inside

/-- Links at different places, all in one node or link from some part on, and the values of their
arguments with them. -/
structure Apart (outer : Place) (index : Nat) (sites : List CallSite) : Prop where
  inside : ∀ place ∈ CallSite.places sites, Place.Inside outer index place
  elements : ∀ call ∈ sites, ∀ element ∈ call.elements,
    ∃ value argument, element = value :: argument :: call.place
  nodup : (CallSite.places sites).Nodup

namespace Apart

variable {outer : Place} {index : Nat} {sites sites' : List CallSite}

theorem nil : Apart outer index [] := ⟨by simp [CallSite.places], by simp, by simp [CallSite.places]⟩

/-- What stands in one part, and what stands in the parts behind it. -/
theorem append (h : Apart (index :: outer) 0 sites) (h' : Apart outer (index + 1) sites') :
    Apart outer index (sites ++ sites') where
  inside place hplace := by
    rw [CallSite.places_append] at hplace
    rcases List.mem_append.mp hplace with hmem | hmem
    · exact (h.inside place hmem).deeper
    · exact (h'.inside place hmem).later
  elements call hcall := by
    rcases List.mem_append.mp hcall with hmem | hmem
    · exact h.elements call hmem
    · exact h'.elements call hmem
  nodup := by
    rw [CallSite.places_append]
    refine h.nodup.append h'.nodup ?_
    intro place hplace hplace'
    obtain ⟨part, _, hsuffix⟩ := h.inside place hplace
    have hpart : (index :: outer) <:+ place := (List.suffix_cons part (index :: outer)).trans hsuffix
    exact Place.Inside.ne hpart (h'.inside place hplace') rfl

/-- A link, what stands inside it, and what stands behind it. -/
theorem cons {call : CallSite} (hplace : call.place = index :: outer)
    (helements : ∀ element ∈ call.elements, ∃ value argument, element = value :: argument :: call.place)
    (h : Apart (index :: outer) 0 sites) (h' : Apart outer (index + 1) sites') :
    Apart outer index (call :: (sites ++ sites')) where
  inside place hmem := by
    rcases List.mem_cons.mp hmem with rfl | hmem
    · rw [hplace]
      exact .self outer index
    · exact (h.append h').inside place hmem
  elements other hother := by
    rcases List.mem_cons.mp hother with rfl | hother
    · exact helements
    · exact (h.append h').elements other hother
  nodup := by
    refine List.nodup_cons.mpr ⟨fun hmem => ?_, (h.append h').nodup⟩
    rw [hplace] at hmem
    have hmem : index :: outer ∈ CallSite.places (sites ++ sites') := hmem
    rw [CallSite.places_append] at hmem
    rcases List.mem_append.mp hmem with hmem | hmem
    · exact Place.Inside.not_self (h.inside _ hmem)
    · exact Place.Inside.ne (List.suffix_refl _) (h'.inside _ hmem) rfl

end Apart

namespace Node

theorem mem_valuePlaces {place element : Place} {values : List Node} {index : Nat}
    (h : element ∈ valuePlaces place index values) : ∃ value, element = value :: place := by
  induction values generalizing index with
  | nil => simp [valuePlaces] at h
  | cons node rest ih =>
    rcases List.mem_cons.mp h with rfl | hmem
    · exact ⟨index, rfl⟩
    · exact ih hmem

theorem mem_elementPlaces {place element : Place} {given : List (String × List Node)} {index : Nat}
    (h : element ∈ elementPlaces place index given) :
    ∃ value argument, element = value :: argument :: place := by
  induction given generalizing index with
  | nil => simp [elementPlaces] at h
  | cons entry rest ih =>
    rcases List.mem_append.mp h with hmem | hmem
    · obtain ⟨value, rfl⟩ := mem_valuePlaces hmem
      exact ⟨value, index, rfl⟩
    · exact ih hmem

/-- The links of a node, those that are set aside included, are apart. -/
theorem apart (node : Node) : ∀ aside place, Apart place 0 (node.callSites aside place) := by
  refine @Node.induction (fun node => ∀ aside place, Apart place 0 (node.callSites aside place))
    (fun chain => ∀ aside place index, Apart place index (chainSites aside place index chain))
    (fun given => ∀ aside place index, Apart place index (argumentSites aside place index given))
    (fun given => ∀ aside place index, Apart place index (valueSites aside place index given))
    (fun links ih aside place => ih aside place 0) (fun links ih _ place => ih true place 0)
    (fun _ _ _ => .nil) (fun _ _ _ => .nil) (fun _ _ _ => .nil) ?link (fun _ _ _ => .nil) ?argument
    (fun _ _ _ => .nil) ?value node
  case link =>
    intro name given rest hgiven hrest aside place index
    exact .cons rfl (fun element => mem_elementPlaces) (hgiven aside (index :: place) 0)
      (hrest aside place (index + 1))
  case argument =>
    intro name given rest hgiven hrest aside place index
    exact (hgiven aside (index :: place) 0).append (hrest aside place (index + 1))
  case value =>
    intro first rest hfirst hrest aside place index
    exact (hfirst aside (index :: place)).append (hrest aside place (index + 1))

end Node

namespace Site

variable {site : Site}

/-- The implementation of every function calls no function value. -/
def CallsNothing (site : Site) : Prop :=
  ∀ name definition, site.equipment.functions.lookup name = some definition →
    ∀ context arguments, (definition.implementation context arguments).CallsNothing

/-- A plan whose links are all known has all calls among its milestones. -/
theorem quiet_plan (hcalls : site.CallsNothing) (node : Node) (place : Place)
    (known : site.Knows (node.callSites false place)) :
    ∀ context, (site.plan place node context).Quiet := by
  refine site.induction (fun place node => ∀ context, (site.plan place node context).Quiet)
    (fun place index chain => ∀ context, (site.planChain place index chain context).Quiet)
    (fun place index given => ∀ context, ∀ plan ∈ site.planLists place index given context, plan.Quiet)
    (fun place index given => ∀ context, ∀ plan ∈ site.planEach place index given context, plan.Quiet)
    (fun place links ih context => quiet_enclose (ih context))
    (fun place links context => quiet_enclose fun serial => trivial)
    (fun place name context => quiet_enclose trivial)
    (fun place literal context => quiet_enclose trivial) (fun place index context => trivial) ?link
    (fun place index context plan hplan => nomatch hplan) ?argument
    (fun place index context plan hplan => nomatch hplan) ?value node place known
  case link =>
    intro place index name definition given rest hlookup hgiven hrest context
    simp only [planChain, hlookup]
    exact ⟨quiet_planLink (.join (hgiven context)) (hcalls name definition hlookup) context, hrest⟩
  case argument =>
    intro place index name values rest hvalues hrest context
    exact List.forall_mem_cons.mpr ⟨.join (hvalues context), hrest context⟩
  case value =>
    intro place index first rest hfirst hrest context
    exact List.forall_mem_cons.mpr ⟨hfirst context, hrest context⟩

/-- What a story tells about the links of a node that is evaluated on a context. -/
structure CallsInTurn (site : Site) (node : Node) (context : Value) (story : List Milestone)
    (succeeds : Prop) : Prop where
  at_most_once : ∀ call ∈ node.callSites false [], (callPlaces story).count call.place ≤ 1
  exactly_once : succeeds → ∀ call ∈ node.callSites false [], call.aside = false →
    (callPlaces story).count call.place = 1
  not_aside : ∀ call ∈ node.callSites false [], call.aside = true → call.place ∉ callPlaces story
  /-- Every call is that of a link, in its turn, and the values of its arguments were evaluated on the
  context that the link started with. -/
  in_turn : ∀ place function received arguments,
    .called place function received arguments ∈ story →
    ∃ call ∈ node.callSites false [], call.place = place ∧ call.aside = false ∧
      ∃ given, site.Makes (fun _ => False) story call given function received arguments ∧
        ∀ element ∈ call.elements, ∀ other, .entered element other ∈ story → other = given
  /-- The node is entered on its context, and everything else has its occasion, such as the link before,
  whose value is the context of the next one. -/
  led : ∀ milestone ∈ story, milestone = .entered [] context ∨
    ∃ occasion, occasion.Leads milestone ∧ Passes story occasion milestone

end Site

/-- A link that is started once has one context. -/
theorem eq_of_started {story : List Milestone} (h : (startPlaces story).Nodup) {place : Place}
    {context other : Value} (hstarted : .started place context ∈ story)
    (hother : .started place other ∈ story) : other = context := by
  let apart (a b : Milestone) : Prop :=
    ∀ x, a.startPlace? = some x → ∀ y, b.startPlace? = some y → x ≠ y
  have : Std.Symm apart := ⟨fun a b hab x hx y hy => (hab y hy x hx).symm⟩
  have hpairs : story.Pairwise apart := List.pairwise_filterMap.mp h
  by_contra hne
  have hdifferent : Milestone.started place other ≠ .started place context := by simpa using hne
  exact hpairs.forall hother hstarted hdifferent place rfl place rfl rfl

theorem nodup_of_subperm {ι : Type} {some all : List ι} (h : some.Subperm all) (hall : all.Nodup) :
    some.Nodup := by
  obtain ⟨same, hperm, hsub⟩ := h
  exact hperm.nodup_iff.mp (hall.sublist hsub)

/-- The story of a node, counted by the places of its links. -/
theorem Site.Tells.callsInTurn {site : Site} {node : Node} {context : Value} {story : List Milestone}
    {done : Prop}
    (h : site.Tells (fun milestone => milestone = .entered [] context) (fun _ => False)
      (CallSite.active (node.callSites false [])) [[]] story done) :
    site.CallsInTurn node context story done := by
  have hapart := node.apart false []
  have hactive : (CallSite.places (CallSite.active (node.callSites false []))).Nodup :=
    hapart.nodup.sublist (List.filter_sublist.map _)
  have hcalls : (callPlaces story).Nodup := nodup_of_subperm h.once hactive
  have hstarts : (startPlaces story).Nodup := nodup_of_subperm h.starts hactive
  refine ⟨fun call _ => List.nodup_iff_count_le_one.mp hcalls call.place, ?_, ?_, ?_, h.led⟩
  · intro hdone call hcall hnot
    have hplace : call.place ∈ CallSite.places (CallSite.active (node.callSites false [])) :=
      List.mem_map_of_mem (CallSite.mem_active.mpr ⟨hcall, hnot⟩)
    exact List.count_eq_one_of_mem hcalls ((h.all hdone).called.mem_iff.mpr hplace)
  · intro call hcall haside hmem
    obtain ⟨other, hother, hplace⟩ := List.mem_map.mp (h.once.subset hmem)
    obtain ⟨hother, hnot⟩ := CallSite.mem_active.mp hother
    -- No other link stands at its place, whether set aside or not.
    obtain rfl := List.inj_on_of_nodup_map hapart.nodup hother hcall hplace
    rw [haside] at hnot
    cases hnot
  · intro place function received arguments hmem
    obtain ⟨call, hcall, hplace, given, hmakes⟩ := h.calls place function received arguments hmem
    obtain ⟨hcall, hnot⟩ := CallSite.mem_active.mp hcall
    refine ⟨call, hcall, hplace, hnot, given, hmakes, ?_⟩
    intro element helement other hentered
    obtain ⟨value, argument, rfl⟩ := hapart.elements call hcall element helement
    -- Nothing but the start of its link lets an element be entered, and that happens once.
    rcases h.led _ hentered with hroot | ⟨occasion, hleads, hpasses⟩
    · cases hroot
    · cases hleads
      exact eq_of_started hstarts (hmakes.started.subset List.mem_cons_self)
        (hpasses.subset List.mem_cons_self)

namespace Towers

/-- No link is lost or run twice. If no implementation calls a function value, and every link that is not
set aside is known, each run of an evaluation, in whatever order its parts are resumed, has a story with
the very calls of the run; and in every story of the evaluation each link is called at most once, once if
it succeeds, never if it is set aside, and in its turn. -/
theorem links_called_once (towers : Towers) (interpreter : Interpreter)
    (uncalling : interpreter.site.CallsNothing)
    (node : Node) (known : interpreter.site.Knows (node.callSites false [])) (context : Value) :
    (interpreter.site.plan [] node context).task = interpreter.interpret node context ∧
    (∀ world state, towers.Runs (interpreter.interpret node context, world) state →
      ∃ story, Story (interpreter.site.plan [] node context) story state.1.outcome? ∧
        state.2.calls = world.calls ++ story.filterMap Milestone.event?) ∧
    ∀ story reached, Story (interpreter.site.plan [] node context) story reached →
      interpreter.site.CallsInTurn node context story (Succeeds reached) := by
  refine ⟨Site.task_plan node [] context, ?_, ?_⟩
  · intro world state hruns
    apply (Site.quiet_plan uncalling node [] known context).story
    rw [Site.task_plan]
    exact hruns
  · intro story reached hstory
    exact (Site.tells node [] known context story reached hstory).callsInTurn

end Towers

namespace Stock

theorem racing_calls_nothing : racing.site.CallsNothing := by
  intro name definition hlookup context arguments
  have hmem := FunctionRegistry.mem_of_lookup_ofList hlookup
  simp only [List.mem_cons, List.not_mem_nil, or_false] at hmem
  rcases hmem with rfl | rfl | rfl
  · trivial
  · trivial
  · trivial

/-- A pair whose left argument has two values, of which only the last one is kept, and whose right
argument is set aside. -/
def dropping : Node :=
  .expression [⟨"pair", [("left", [.expression [⟨"wait", []⟩], .expression [⟨"pair", []⟩]]),
    ("right", [.deferred [⟨"fail", []⟩]])]⟩]

end Stock

/-- The link whose value is dropped is called once, and the link that is set aside is not called. -/
theorem Towers.links_called_once_dropping :
    ∃ state story, Stock.racing.alone.Runs (Stock.racing.interpret Stock.dropping .null, .start) state ∧
      Story (Stock.racing.site.plan [] Stock.dropping .null) story (some (.ok .null)) ∧
      state.2.calls = story.filterMap Milestone.event? ∧
      (callPlaces story).count [0, 0, 0, 0] = 1 ∧ [0, 0, 1, 0] ∉ callPlaces story := by
  obtain ⟨_, hstory, hturn⟩ :=
    links_called_once Stock.racing.alone Stock.racing Stock.racing_calls_nothing Stock.dropping (by decide)
      .null
  have hends : ∃ world', Stock.racing.alone.drive 0 10 (Stock.racing.interpret Stock.dropping .null) .start =
      (.done (.ok .null), world') := ⟨_, rfl⟩
  obtain ⟨world', hdrive⟩ := hends
  obtain ⟨polls, _, hends⟩ := ends_of_drive hdrive
  obtain ⟨story, hof, hcalls⟩ := hstory .start _ hends.runs
  have hturns := hturn story _ hof
  refine ⟨_, story, hends.runs, hof, hcalls, ?_, ?_⟩
  · exact hturns.exactly_once ⟨.null, rfl⟩ ⟨[0, 0, 0, 0], "wait", false, [], []⟩ (by decide) rfl
  · exact hturns.not_aside ⟨[0, 0, 1, 0], "fail", true, [], []⟩ (by decide) rfl

end ChainExpr
