import ChainExpr.Proofs.CallSites
import ChainExpr.Proofs.Story
import Mathlib.Data.List.Perm.Subperm

namespace ChainExpr

namespace Milestone

/-- One milestone is the occasion of another. -/
inductive Leads : Milestone → Milestone → Prop
  | enter_start (place : Place) (context : Value) :
      Leads (.entered place context) (.started (0 :: place) context)
  | finish_start (index : Nat) (place : Place) (value : Value) :
      Leads (.finished (index :: place) value) (.started ((index + 1) :: place) value)
  | start_enter (index argument : Nat) (place : Place) (context : Value) :
      Leads (.started place context) (.entered (index :: argument :: place) context)
  | start_cast (place : Place) (context : Value) :
      Leads (.started place context) (.casting place context)
  | cast_call (place : Place) (context : Value) (function : String) (received : Value)
      (arguments : Arguments) :
      Leads (.casting place context) (.called place function received arguments)
  | call_finish (place : Place) (function : String) (received : Value) (arguments : Arguments)
      (value : Value) : Leads (.called place function received arguments) (.finished place value)
  | enter_leave (place : Place) (context value : Value) :
      Leads (.entered place context) (.left place value)

/-- Where a link is started. -/
def startPlace? : Milestone → Option Place
  | .started place _ => some place
  | _ => none

/-- Where a function is called. -/
def callPlace? : Milestone → Option Place
  | .called place .. => some place
  | _ => none

end Milestone

/-- The places where links are started, in their order. -/
def startPlaces (story : List Milestone) : List Place := story.filterMap Milestone.startPlace?

/-- The places where functions are called, in the order of the calls. -/
def callPlaces (story : List Milestone) : List Place := story.filterMap Milestone.callPlace?

/-- One milestone is passed before another. -/
def Passes (story : List Milestone) (first second : Milestone) : Prop := [first, second].Sublist story

theorem Passes.mono {story story' : List Milestone} {first second : Milestone}
    (h : Passes story first second) (hsub : story.Sublist story') : Passes story' first second :=
  List.Sublist.trans h hsub

theorem passes_append {story story' : List Milestone} {first second : Milestone}
    (hfirst : first ∈ story) (hsecond : second ∈ story') : Passes (story ++ story') first second :=
  (List.singleton_sublist.mpr hfirst).append (List.singleton_sublist.mpr hsecond)

/-- The starts of two parts together. -/
theorem startPlaces_perm {story story' mixed : List Milestone} (h : mixed.Perm (story ++ story')) :
    (startPlaces mixed).Perm (startPlaces story ++ startPlaces story') := by
  rw [startPlaces, startPlaces, startPlaces, ← List.filterMap_append]
  exact h.filterMap _

/-- The calls of two parts together. -/
theorem callPlaces_perm {story story' mixed : List Milestone} (h : mixed.Perm (story ++ story')) :
    (callPlaces mixed).Perm (callPlaces story ++ callPlaces story') := by
  rw [callPlaces, callPlaces, callPlaces, ← List.filterMap_append]
  exact h.filterMap _

/-- A call that a link makes: of its function, after its arguments have been evaluated on the context that
it started with, on that context as it is cast for the function then, and after the links before, unless
those are outside. -/
structure Site.Makes (site : Site) (outside : Place → Prop) (story : List Milestone) (call : CallSite)
    (context : Value) (function : String) (received : Value) (arguments : Arguments) : Prop where
  known : ∃ definition, site.equipment.functions.lookup call.function = some definition ∧
    function = definition.name ∧
    (site.equipment.types.cast context definition.acceptable).2 = .ok received
  started : Passes story (.started call.place context) (.casting call.place context)
  cast : Passes story (.casting call.place context) (.called call.place function received arguments)
  evaluated : ∀ place ∈ call.elements,
    ∃ value, Passes story (.left place value) (.casting call.place context)
  after : ∀ place ∈ call.before, outside place ∨
    ∃ value, Passes story (.finished place value) (.called call.place function received arguments)

theorem Site.Makes.mono {site : Site} {outside : Place → Prop} {story story' : List Milestone}
    {call : CallSite} {context : Value} {function : String} {received : Value} {arguments : Arguments}
    (h : site.Makes outside story call context function received arguments)
    (hsub : story.Sublist story') :
    site.Makes outside story' call context function received arguments where
  known := h.known
  started := h.started.mono hsub
  cast := h.cast.mono hsub
  evaluated place hplace := (h.evaluated place hplace).imp fun _ hpasses => hpasses.mono hsub
  after place hplace := (h.after place hplace).imp id fun ⟨value, hpasses⟩ =>
    ⟨value, hpasses.mono hsub⟩

/-- Links that are all called and finished, and nodes that are all left. -/
structure Completes (sites : List CallSite) (nodes : List Place) (story : List Milestone) : Prop where
  called : (callPlaces story).Perm (CallSite.places sites)
  finished : ∀ place ∈ CallSite.places sites, ∃ value, .finished place value ∈ story
  left : ∀ place ∈ nodes, ∃ value, .left place value ∈ story

theorem Completes.together {sites sites' : List CallSite} {nodes nodes' : List Place}
    {story story' mixed : List Milestone} (h : Completes sites nodes story)
    (h' : Completes sites' nodes' story') (hperm : mixed.Perm (story ++ story')) :
    Completes (sites ++ sites') (nodes ++ nodes') mixed where
  called := by
    rw [CallSite.places_append]
    exact (callPlaces_perm hperm).trans (h.called.append h'.called)
  finished place hplace := by
    rw [CallSite.places_append] at hplace
    rcases List.mem_append.mp hplace with hmem | hmem
    · obtain ⟨value, hvalue⟩ := h.finished place hmem
      exact ⟨value, hperm.mem_iff.mpr (List.mem_append_left _ hvalue)⟩
    · obtain ⟨value, hvalue⟩ := h'.finished place hmem
      exact ⟨value, hperm.mem_iff.mpr (List.mem_append_right _ hvalue)⟩
  left place hplace := by
    rcases List.mem_append.mp hplace with hmem | hmem
    · obtain ⟨value, hvalue⟩ := h.left place hmem
      exact ⟨value, hperm.mem_iff.mpr (List.mem_append_left _ hvalue)⟩
    · obtain ⟨value, hvalue⟩ := h'.left place hmem
      exact ⟨value, hperm.mem_iff.mpr (List.mem_append_right _ hvalue)⟩

/-- What is to be said of the story of a part of a node that makes some calls and evaluates some nodes,
and of the whole story of that part once it is done. Some milestones may have their occasion outside the
part, and some links before may lie outside it. -/
structure Site.Tells (site : Site) (given : Milestone → Prop) (outside : Place → Prop)
    (sites : List CallSite) (nodes : List Place) (story : List Milestone) (done : Prop) : Prop where
  starts : (startPlaces story).Subperm (CallSite.places sites)
  once : (callPlaces story).Subperm (CallSite.places sites)
  all : done → Completes sites nodes story
  led : ∀ milestone ∈ story, given milestone ∨
    ∃ occasion, occasion.Leads milestone ∧ Passes story occasion milestone
  calls : ∀ place function received arguments, .called place function received arguments ∈ story →
    ∃ call ∈ sites, call.place = place ∧
      ∃ context, site.Makes outside story call context function received arguments

namespace Site.Tells

variable {site : Site} {given given' : Milestone → Prop} {outside outside' : Place → Prop}
  {sites sites' : List CallSite} {nodes nodes' : List Place} {story story' mixed : List Milestone}
  {done done' : Prop}

theorem led_within (h : site.Tells given outside sites nodes story done) (hsub : story.Sublist story')
    {milestone : Milestone} (hmem : milestone ∈ story) :
    given milestone ∨ ∃ occasion, occasion.Leads milestone ∧ Passes story' occasion milestone :=
  (h.led milestone hmem).imp id fun ⟨occasion, hleads, hpasses⟩ =>
    ⟨occasion, hleads, hpasses.mono hsub⟩

theorem calls_within (h : site.Tells given outside sites nodes story done)
    (hsub : story.Sublist story') {place : Place} {function : String} {received : Value}
    {arguments : Arguments} (hmem : .called place function received arguments ∈ story) :
    ∃ call ∈ sites, call.place = place ∧
      ∃ context, site.Makes outside story' call context function received arguments := by
  obtain ⟨call, hcall, hplace, context, hmakes⟩ := h.calls place function received arguments hmem
  exact ⟨call, hcall, hplace, context, hmakes.mono hsub⟩

theorem nothing (h : done → sites = [] ∧ nodes = []) :
    site.Tells given outside sites nodes [] done where
  starts := List.nil_subperm
  once := List.nil_subperm
  all hdone := by
    obtain ⟨rfl, rfl⟩ := h hdone
    exact ⟨.nil, by simp [CallSite.places], by simp⟩
  led := by simp
  calls := by simp

/-- A part that has been left off is as good as one with more calls to make and other nodes. -/
theorem cut (h : site.Tells given outside sites nodes story done) (hsub : sites.Sublist sites')
    (hcut : ¬ done') : site.Tells given outside sites' nodes' story done' where
  starts := h.starts.trans (hsub.map _).subperm
  once := h.once.trans (hsub.map _).subperm
  all hdone := absurd hdone hcut
  led := h.led
  calls place function received arguments hcall := by
    obtain ⟨call, hmem, hrest⟩ := h.calls place function received arguments hcall
    exact ⟨call, hsub.subset hmem, hrest⟩

theorem imp (h : site.Tells given outside sites nodes story done)
    (hgiven : ∀ milestone, given milestone → given' milestone) (hdone : done' → done) :
    site.Tells given' outside sites nodes story done' where
  starts := h.starts
  once := h.once
  all hdone' := h.all (hdone hdone')
  led milestone hmem := (h.led milestone hmem).imp (hgiven milestone) id
  calls := h.calls

/-- One part after another. What the second one needs from outside may be found in the first. -/
theorem append (h : site.Tells given outside sites nodes story done)
    (h' : site.Tells given' outside' sites' nodes' story' done') (hdone : done' → done)
    (hgiven : ∀ milestone, given' milestone → ∃ occasion ∈ story, occasion.Leads milestone)
    (houtside : ∀ place, outside' place →
      outside place ∨ ∃ value, .finished place value ∈ story) :
    site.Tells given outside (sites ++ sites') (nodes ++ nodes') (story ++ story') done' where
  starts := by
    rw [CallSite.places_append]
    exact (startPlaces_perm (.refl _)).subperm.trans (h.starts.append h'.starts)
  once := by
    rw [CallSite.places_append]
    exact (callPlaces_perm (.refl _)).subperm.trans (h.once.append h'.once)
  all hdone' := (h.all (hdone hdone')).together (h'.all hdone') (.refl _)
  led milestone hmem := by
    rcases List.mem_append.mp hmem with hmem | hmem
    · exact h.led_within (List.sublist_append_left _ _) hmem
    · rcases h'.led_within (List.sublist_append_right story _) hmem with hhere | hled
      · obtain ⟨occasion, hoccasion, hleads⟩ := hgiven milestone hhere
        exact .inr ⟨occasion, hleads, passes_append hoccasion hmem⟩
      · exact .inr hled
  calls place function received arguments hmem := by
    rcases List.mem_append.mp hmem with hmem | hmem
    · obtain ⟨call, hcall, hmakes⟩ := h.calls_within (List.sublist_append_left _ _) hmem
      exact ⟨call, List.mem_append_left _ hcall, hmakes⟩
    · obtain ⟨call, hcall, rfl, context, hmakes⟩ :=
        h'.calls_within (List.sublist_append_right story _) hmem
      refine ⟨call, List.mem_append_right _ hcall, rfl, context, hmakes.known, hmakes.started,
        hmakes.cast, hmakes.evaluated, ?_⟩
      intro earlier hearlier
      rcases hmakes.after earlier hearlier with hhere | hpasses
      · rcases houtside earlier hhere with hhere | ⟨value, hfinished⟩
        · exact .inl hhere
        · exact .inr ⟨value, passes_append hfinished hmem⟩
      · exact .inr hpasses

/-- Two parts side by side, of which neither needs anything from the other. -/
theorem merge (h : site.Tells given outside sites nodes story done)
    (h' : site.Tells given outside sites' nodes' story' done') (hmerge : Merge story story' mixed) :
    site.Tells given outside (sites ++ sites') (nodes ++ nodes') mixed (done ∧ done') where
  starts := by
    rw [CallSite.places_append]
    exact (startPlaces_perm hmerge.perm).subperm.trans (h.starts.append h'.starts)
  once := by
    rw [CallSite.places_append]
    exact (callPlaces_perm hmerge.perm).subperm.trans (h.once.append h'.once)
  all hdone := (h.all hdone.1).together (h'.all hdone.2) hmerge.perm
  led milestone hmem := by
    rcases hmerge.mem_iff.mp hmem with hmem | hmem
    · exact h.led_within hmerge.left_sublist hmem
    · exact h'.led_within hmerge.right_sublist hmem
  calls place function received arguments hmem := by
    rcases hmerge.mem_iff.mp hmem with hmem | hmem
    · obtain ⟨call, hcall, hmakes⟩ := h.calls_within hmerge.left_sublist hmem
      exact ⟨call, List.mem_append_left _ hcall, hmakes⟩
    · obtain ⟨call, hcall, hmakes⟩ := h'.calls_within hmerge.right_sublist hmem
      exact ⟨call, List.mem_append_right _ hcall, hmakes⟩

/-- A milestone that is neither a start nor a call. -/
theorem milestone {milestone : Milestone} (hstart : milestone.startPlace? = none)
    (hcall : milestone.callPlace? = none) (hgiven : given milestone)
    (hleft : ∀ place ∈ nodes, ∃ value, milestone = .left place value) :
    site.Tells given outside [] nodes [milestone] True := by
  have hstarts : startPlaces [milestone] = [] := by simp [startPlaces, hstart]
  have hcalls : callPlaces [milestone] = [] := by simp [callPlaces, hcall]
  refine ⟨by simp [hstarts], by simp [hcalls], fun _ => ⟨by simp [hcalls, CallSite.places],
    by simp [CallSite.places], ?_⟩, ?_, ?_⟩
  · intro place hplace
    obtain ⟨value, hvalue⟩ := hleft place hplace
    exact ⟨value, by simp [hvalue]⟩
  · intro other hother
    obtain rfl := List.mem_singleton.mp hother
    exact .inl hgiven
  · intro place function received arguments hmem
    rw [← List.mem_singleton.mp hmem] at hcall
    cases hcall

/-- A link is started. -/
theorem start {call : CallSite} {context : Value} (hgiven : given (.started call.place context)) :
    site.Tells given outside [call] nodes [.started call.place context] False := by
  refine ⟨List.Subperm.refl [call.place], List.nil_subperm, False.elim, ?_, ?_⟩
  · intro other hother
    obtain rfl := List.mem_singleton.mp hother
    exact .inl hgiven
  · intro place function received arguments hmem
    cases List.mem_singleton.mp hmem

/-- The calls of a link and of what its arguments need, when its own call is the last one. -/
theorem perm_of_called {call : CallSite} {context : Value} {function : String} {received : Value}
    {arguments : Arguments} (h : (callPlaces story).Perm (CallSite.places sites)) :
    (callPlaces ((story ++ [.casting call.place context]) ++
      [.called call.place function received arguments])).Perm (CallSite.places (call :: sites)) := by
  have hcasting : (callPlaces (story ++ [.casting call.place context])).Perm (callPlaces story) := by
    have hnone : callPlaces [.casting call.place context] = [] := rfl
    simpa [hnone] using callPlaces_perm (.refl (story ++ [.casting call.place context]))
  have hone : callPlaces [.called call.place function received arguments] = [call.place] := rfl
  have hwhole := callPlaces_perm (.refl ((story ++ [.casting call.place context]) ++
    [.called call.place function received arguments]))
  rw [hone] at hwhole
  exact hwhole.trans ((List.perm_append_singleton _ _).trans ((hcasting.trans h).cons _))

/-- A link makes its call after its context is cast. -/
theorem call {call : CallSite} {definition : FunctionDefinition} {context received : Value}
    (arguments : Arguments)
    (h : site.Tells given outside (call :: sites) nodes (story ++ [.casting call.place context]) done)
    (hcompletes : Completes sites call.elements story)
    (hlookup : site.equipment.functions.lookup call.function = some definition)
    (hcast : (site.equipment.types.cast context definition.acceptable).2 = .ok received)
    (hstarted : .started call.place context ∈ story)
    (hbefore : ∀ place ∈ call.before, outside place ∨ place ∈ CallSite.places sites) :
    site.Tells given outside (call :: sites) nodes ((story ++ [.casting call.place context]) ++
      [.called call.place definition.name received arguments]) False := by
  have hsub := List.sublist_append_left (story ++ [.casting call.place context])
    [.called call.place definition.name received arguments]
  refine ⟨?_, (perm_of_called hcompletes.called).subperm, False.elim, ?_, ?_⟩
  · have hnone : startPlaces [.called call.place definition.name received arguments] = [] := rfl
    have hstarts := (startPlaces_perm (.refl ((story ++ [.casting call.place context]) ++
      [.called call.place definition.name received arguments]))).subperm
    rw [hnone, List.append_nil] at hstarts
    exact hstarts.trans h.starts
  · intro milestone hmem
    rcases List.mem_append.mp hmem with hmem | hmem
    · exact h.led_within hsub hmem
    · obtain rfl := List.mem_singleton.mp hmem
      exact .inr ⟨_, .cast_call _ context _ _ _, passes_append (by simp) hmem⟩
  · intro place function received' arguments' hmem
    rcases List.mem_append.mp hmem with hmem | hmem
    · exact h.calls_within hsub hmem
    · cases List.mem_singleton.mp hmem
      refine ⟨call, List.mem_cons_self, rfl, context, ⟨definition, hlookup, rfl, hcast⟩,
        (passes_append hstarted List.mem_cons_self).mono hsub, passes_append (by simp) hmem, ?_, ?_⟩
      · intro element helement
        obtain ⟨value, hvalue⟩ := hcompletes.left element helement
        exact ⟨value, (passes_append hvalue List.mem_cons_self).mono hsub⟩
      · intro earlier hearlier
        rcases hbefore earlier hearlier with hhere | hinside
        · exact .inl hhere
        · obtain ⟨value, hvalue⟩ := hcompletes.finished earlier hinside
          exact .inr ⟨value, passes_append (List.mem_append_left _ hvalue) hmem⟩

/-- A link is finished after its call. -/
theorem finish {call : CallSite} {function : String} {received : Value} {arguments : Arguments}
    (value : Value)
    (h : site.Tells given outside (call :: sites) nodes
      (story ++ [.called call.place function received arguments]) done)
    (hcalled : (callPlaces (story ++ [.called call.place function received arguments])).Perm
      (CallSite.places (call :: sites)))
    (hfinished : ∀ place ∈ CallSite.places sites, ∃ value, .finished place value ∈ story) :
    site.Tells given outside (call :: sites) []
      ((story ++ [.called call.place function received arguments]) ++ [.finished call.place value])
      True := by
  have hlast : site.Tells (fun milestone => milestone = .finished call.place value) (fun _ => False) []
      [] [.finished call.place value] True := .milestone rfl rfl rfl (by simp)
  have hwhole := (h.imp (fun _ hmilestone => hmilestone) False.elim).append
    (hlast.imp (fun _ hmilestone => hmilestone) False.elim) id
    (by rintro _ rfl; exact ⟨_, by simp, .call_finish call.place function received arguments value⟩)
    (fun _ hplace => hplace.elim)
  rw [List.append_nil] at hwhole
  refine { hwhole with all := fun _ => ⟨?_, ?_, by simp⟩ }
  · have hnone : callPlaces [.finished call.place value] = [] := rfl
    have hcalls := callPlaces_perm (.refl ((story ++ [.called call.place function received arguments]) ++
      [.finished call.place value]))
    rw [hnone, List.append_nil] at hcalls
    exact hcalls.trans hcalled
  · intro place hplace
    rcases List.mem_cons.mp hplace with rfl | hmem
    · exact ⟨value, by simp⟩
    · obtain ⟨other, hother⟩ := hfinished place hmem
      exact ⟨other, by simp [hother]⟩

end Site.Tells

namespace Site

variable {site : Site} {definition : FunctionDefinition} {given : Milestone → Prop}
  {outside : Place → Prop} {sites : List CallSite}

theorem tells_enclose {place : Place} {context : Value} {body : Plan Value} {story : List Milestone}
    {reached : Option (Except RuntimeError Value)}
    (hbody : ∀ story reached, Story body story reached →
      site.Tells given outside sites [] story (Succeeds reached))
    (hgiven : ∀ milestone, given milestone → (Milestone.entered place context).Leads milestone)
    (houtside : ∀ place, ¬ outside place)
    (h : Story (Plan.enclose place context body) story reached) :
    site.Tells (fun milestone => milestone = .entered place context) (fun _ => False) sites [place] story
      (Succeeds reached) := by
  have hentered : site.Tells (fun milestone => milestone = .entered place context) (fun _ => False) []
      [] [.entered place context] True := .milestone rfl rfl rfl (by simp)
  have hinside {story : List Milestone} {reached : Option (Except RuntimeError Value)}
      (hstory : Story body story reached) :
      site.Tells (fun milestone => milestone = .entered place context) (fun _ => False) sites []
        (.entered place context :: story) (Succeeds reached) :=
    hentered.append (hbody story reached hstory) (fun _ => trivial)
      (fun milestone hmilestone => ⟨_, List.mem_cons_self, hgiven milestone hmilestone⟩)
      (fun place hplace => absurd hplace (houtside place))
  rcases h.pass_cases with ⟨rfl, rfl⟩ | ⟨later, rfl, hlater⟩
  · exact .nothing (by simp [Succeeds])
  · rcases Story.andThen_cases hlater with ⟨hcut, _, hstory⟩ | ⟨value, before, after, rfl, hfirst, hlast⟩
    · exact (hinside hstory).cut (List.Sublist.refl _) hcut
    · have hwhole := hinside hfirst
      rcases hlast.pass_cases with ⟨rfl, rfl⟩ | ⟨_, rfl, hend⟩
      · rw [List.append_nil]
        exact hwhole.cut (List.Sublist.refl _) (by simp [Succeeds])
      · obtain ⟨rfl, _⟩ := hend.plain_cases
        have hleft : site.Tells (fun milestone => milestone = .left place value) (fun _ => False) []
            [place] [.left place value] True := .milestone rfl rfl rfl (by simp)
        have hall := hwhole.append hleft (fun _ => ⟨value, rfl⟩)
          (by rintro _ rfl; exact ⟨_, List.mem_cons_self, .enter_leave place context value⟩)
          (fun _ hplace => hplace.elim)
        rw [List.append_nil] at hall
        exact hall.imp (fun _ hmilestone => hmilestone) fun _ => trivial

/-- Arguments that are resolved have the story of their values. -/
theorem story_planResolve {names : List String} {values : Plan (List (List Value))}
    {story : List Milestone} {reached : Option (Except RuntimeError Arguments)}
    (h : Story (site.planResolve definition names values) story reached) :
    ∃ reached', Story values story reached' ∧ (Succeeds reached → Succeeds reached') := by
  rw [planResolve] at h
  cases hnames : definition.resolveNames names with
  | error name =>
    simp only [hnames] at h
    obtain ⟨rfl, hpossible⟩ := h.plain_cases
    refine ⟨none, .begun values, ?_⟩
    rintro ⟨bound, hbound⟩
    have hfails := hpossible _ hbound
      (fun outcome => outcome = .error (.unknownArgument definition.name name)) rfl
    cases hfails
  | ok names =>
    simp only [hnames] at h
    rcases h.andThen_cases with ⟨hcut, earlier, hearlier⟩ | ⟨lists, before, after, rfl, hfirst, hlast⟩
    · exact ⟨earlier, hearlier, fun hok => absurd hok hcut⟩
    · obtain ⟨rfl, _⟩ := hlast.plain_cases
      rw [List.append_nil]
      exact ⟨some (.ok lists), hfirst, fun _ => ⟨lists, rfl⟩⟩

theorem approach_returns (bound : Arguments) (context : Value) :
    (site.approach definition bound context).Returns fun outcome =>
      ∀ received, outcome = .ok received →
        (site.equipment.types.cast context definition.acceptable).2 = .ok received := by
  have hcast : (Task.cast site.equipment.types context definition.acceptable
      definition.receive).Returns fun outcome =>
        ∀ received, outcome = .ok received →
          (site.equipment.types.cast context definition.acceptable).2 = .ok received := by
    apply Task.returns_cast
    cases (site.equipment.types.cast context definition.acceptable).2 with
    | error error =>
      intro received hreceived
      cases hreceived
    | ok converted =>
      intro received hreceived
      cases hreceived
      rfl
  rw [approach, announce]
  split
  · exact hcast
  · exact hcast

/-- What is to be said of the stories of a plan. -/
def Told {α : Type} (site : Site) (given : Milestone → Prop) (sites : List CallSite) (nodes : List Place)
    (plan : Plan α) : Prop :=
  ∀ story reached, Story plan story reached →
    site.Tells given (fun _ => False) sites nodes story (Succeeds reached)

/-- The story of a link, from the story of its arguments. -/
theorem tells_link {call : CallSite} {names : List String} {values : Plan (List (List Value))}
    {context : Value} {story : List Milestone} {reached : Option (Except RuntimeError Value)}
    (hvalues : site.Told given sites call.elements values)
    (hgiven : ∀ milestone, given milestone → (Milestone.started call.place context).Leads milestone)
    (hlookup : site.equipment.functions.lookup call.function = some definition)
    (hbefore : ∀ place ∈ call.before, outside place ∨ place ∈ CallSite.places sites)
    (h : Story (site.planLink call.place definition names values context) story reached) :
    site.Tells (fun milestone => milestone = .started call.place context) outside (call :: sites) []
        story (Succeeds reached) ∧
      ∀ value, reached = some (.ok value) → .finished call.place value ∈ story := by
  have hstarted : site.Tells (fun milestone => milestone = .started call.place context) outside [call]
      [] [.started call.place context] False := .start rfl
  have hinside {story : List Milestone} {reached : Option (Except RuntimeError (List (List Value)))}
      (hstory : Story values story reached) :
      site.Tells (fun milestone => milestone = .started call.place context) outside (call :: sites)
        call.elements (.started call.place context :: story) False :=
    hstarted.append ((hvalues story reached hstory).imp (fun _ hmilestone => hmilestone) False.elim) id
      (fun milestone hmilestone => ⟨_, List.mem_cons_self, hgiven milestone hmilestone⟩)
      (fun _ hplace => hplace.elim)
  rcases h.pass_cases with ⟨rfl, rfl⟩ | ⟨later, rfl, hlater⟩
  · exact ⟨.nothing (by simp [Succeeds]), by simp⟩
  rcases Story.andThen_cases hlater with ⟨hcut, _, hresolve⟩ | ⟨bound, before, after, rfl, hresolve, hrest⟩
  · obtain ⟨reached', hstory, _⟩ := story_planResolve hresolve
    exact ⟨(hinside hstory).cut (.refl _) hcut, fun value hvalue => absurd ⟨value, hvalue⟩ hcut⟩
  obtain ⟨reached', hstory, hok⟩ := story_planResolve hresolve
  rcases hrest.pass_cases with ⟨rfl, rfl⟩ | ⟨after, rfl, happroached⟩
  · rw [List.append_nil]
    exact ⟨(hinside hstory).cut (.refl _) (by simp [Succeeds]), by simp⟩
  have hcasting : site.Tells (fun milestone => milestone = .casting call.place context)
      (fun _ => False) [] [] [.casting call.place context] True := .milestone rfl rfl rfl (by simp)
  have hlink := (hinside hstory).append (hcasting.imp (fun _ hmilestone => hmilestone) False.elim) id
    (by rintro _ rfl; exact ⟨_, List.mem_cons_self, .start_cast call.place context⟩)
    (fun _ hplace => hplace.elim)
  rw [List.append_nil, List.append_nil] at hlink
  rcases Story.andThen_cases happroached with
    ⟨hcut, _, happroach⟩ | ⟨received, _, tail, rfl, happroach, hcall⟩
  · obtain ⟨rfl, _⟩ := happroach.plain_cases
    exact ⟨hlink.cut (.refl _) hcut, fun value hvalue => absurd ⟨value, hvalue⟩ hcut⟩
  obtain ⟨rfl, hpossible⟩ := happroach.plain_cases
  have hcast := hpossible _ rfl _ (approach_returns bound context) received rfl
  rw [List.nil_append]
  rcases hcall.pass_cases with ⟨rfl, rfl⟩ | ⟨later, rfl, hperform⟩
  · exact ⟨hlink.cut (.refl _) (by simp [Succeeds]), by simp⟩
  -- The context has been cast, so the arguments are there and everything in them is done.
  have hcompletes := (hvalues before reached' hstory).all (hok ⟨bound, rfl⟩)
  have hcompletes' : Completes sites call.elements (.started call.place context :: before) :=
    ⟨hcompletes.called,
      fun place hplace => (hcompletes.finished place hplace).imp fun _ => List.mem_cons_of_mem _,
      fun place hplace => (hcompletes.left place hplace).imp fun _ => List.mem_cons_of_mem _⟩
  have hcalled := hlink.call bound hcompletes' hlookup hcast List.mem_cons_self hbefore
  rcases Story.andThen_cases hperform with ⟨hcut, _, hrun⟩ | ⟨result, _, tail, rfl, hrun, hend⟩
  · obtain ⟨rfl, _⟩ := hrun.plain_cases
    exact ⟨by simpa using hcalled.cut (.refl _) hcut, fun value hvalue => absurd ⟨value, hvalue⟩ hcut⟩
  obtain ⟨rfl, _⟩ := hrun.plain_cases
  rw [List.nil_append]
  rcases hend.pass_cases with ⟨rfl, rfl⟩ | ⟨_, rfl, hlast⟩
  · exact ⟨by simpa using hcalled.cut (.refl _) (by simp [Succeeds]), by simp⟩
  obtain ⟨rfl, hpossible⟩ := hlast.plain_cases
  have hend := hcalled.finish result (Tells.perm_of_called hcompletes'.called) fun place hplace =>
    (hcompletes'.finished place hplace).imp fun _ => List.mem_append_left _
  refine ⟨by simpa using hend.imp (fun _ hmilestone => hmilestone) fun _ => trivial, ?_⟩
  intro value hvalue
  cases hpossible _ hvalue (fun outcome => outcome = .ok result) rfl
  simp

theorem tells_plain {α : Type} {task : Task α} (story : List Milestone)
    (reached : Option (Except RuntimeError α)) (h : Story (.plain task) story reached) :
    site.Tells (fun _ => False) (fun _ => False) [] [] story (Succeeds reached) := by
  obtain ⟨rfl, _⟩ := h.plain_cases
  exact .nothing fun _ => ⟨rfl, rfl⟩

/-- What is to be said of the stories of plans one by one. -/
inductive ToldEach {α : Type} (site : Site) (given : Milestone → Prop) :
    List CallSite → List Place → List (Plan α) → Prop
  | nil : ToldEach site given [] [] []
  | cons {sites sites' : List CallSite} {nodes nodes' : List Place} {plan : Plan α}
      {plans : List (Plan α)} (first : site.Told given sites nodes plan)
      (rest : ToldEach site given sites' nodes' plans) :
      ToldEach site given (sites ++ sites') (nodes ++ nodes') (plan :: plans)

theorem Told.imp {α : Type} {plan : Plan α} {given' : Milestone → Prop} {nodes : List Place}
    (h : site.Told given sites nodes plan) (hgiven : ∀ milestone, given milestone → given' milestone) :
    site.Told given' sites nodes plan :=
  fun story reached hstory => (h story reached hstory).imp hgiven id

theorem told_both {α β γ : Type} {sites' : List CallSite} {nodes nodes' : List Place} {left : Plan β}
    {right : Plan γ} (mode : JoinMode) (join : β → γ → α) (hleft : site.Told given sites nodes left)
    (hright : site.Told given sites' nodes' right) :
    site.Told given (sites ++ sites') (nodes ++ nodes') (.both mode left right join) := by
  intro story reached h
  obtain ⟨lefts, rights, reachedl, reachedr, hlefts, hrights, hmerge, hok⟩ := Story.both_cases h
  exact ((hleft lefts reachedl hlefts).merge (hright rights reachedr hrights) hmerge).imp
    (fun _ hmilestone => hmilestone) hok

theorem told_none {α : Type} (given : Milestone → Prop) (value : α) :
    site.Told given [] [] (.plain (.ok value)) := by
  intro story reached h
  obtain ⟨rfl, _⟩ := h.plain_cases
  exact .nothing fun _ => ⟨rfl, rfl⟩

/-- The stories of plans side by side tell what those of each of them tell. -/
theorem ToldEach.join {α : Type} {nodes : List Place} {plans : List (Plan α)}
    (h : site.ToldEach given sites nodes plans) : site.Told given sites nodes (.join plans) := by
  rw [Plan.join]
  split
  · clear * - h
    induction h with
    | nil => exact told_none given []
    | cons first _ ih => exact told_both .eager List.cons first ih
  · have hbehind (before : Plan (List α)) (sites' : List CallSite) (nodes' : List Place)
        (hbefore : site.Told given sites' nodes' before) :
        site.Told given (sites' ++ sites) (nodes' ++ nodes) (.joinInOrder before plans) := by
      clear * - h hbefore
      induction h generalizing before sites' nodes' with
      | nil =>
        rw [List.append_nil, List.append_nil]
        exact hbefore
      | cons first _ ih =>
        rw [← List.append_assoc, ← List.append_assoc]
        exact ih _ _ _ (told_both .inOrder _ hbefore first)
    exact hbehind _ [] [] (told_none given [])

/-- Some value of one argument is entered. -/
def EntersValue (place : Place) (context : Value) (milestone : Milestone) : Prop :=
  ∃ value, milestone = .entered (value :: place) context

/-- Some value of some argument of a link is entered. -/
def EntersElement (place : Place) (context : Value) (milestone : Milestone) : Prop :=
  ∃ argument, EntersValue (argument :: place) context milestone

/-- An earlier link of a chain. -/
def EarlierLink (place : Place) (index : Nat) (earlier : Place) : Prop :=
  ∃ other < index, earlier = other :: place

/-- The story of a node whose links are all known. -/
theorem tells (node : Node) (place : Place) (known : site.Knows (node.callSites false place)) :
    ∀ context story reached, Story (site.plan place node context) story reached →
      site.Tells (fun milestone => milestone = .entered place context) (fun _ => False)
        (CallSite.active (node.callSites false place)) [place] story (Succeeds reached) := by
  refine site.induction
    (fun place node => ∀ context story reached, Story (site.plan place node context) story reached →
      site.Tells (fun milestone => milestone = .entered place context) (fun _ => False)
        (CallSite.active (node.callSites false place)) [place] story (Succeeds reached))
    (fun place index chain => ∀ context story reached,
      Story (site.planChain place index chain context) story reached →
      site.Tells (fun milestone => milestone = .started (index :: place) context)
        (EarlierLink place index) (CallSite.active (Node.chainSites false place index chain)) [] story
        (Succeeds reached))
    (fun place index given => ∀ context, site.ToldEach (EntersElement place context)
      (CallSite.active (Node.argumentSites false place index given))
      (Node.elementPlaces place index given) (site.planLists place index given context))
    (fun place index given => ∀ context, site.ToldEach (EntersValue place context)
      (CallSite.active (Node.valueSites false place index given)) (Node.valuePlaces place index given)
      (site.planEach place index given context))
    ?expression ?deferred ?reference ?literal ?noLink ?link ?noArgument ?argument ?noValue ?value node
    place known
  case expression =>
    intro place links ih context story reached h
    refine tells_enclose (ih context) ?_ ?_ h
    · rintro _ rfl
      exact .enter_start place context
    · rintro _ ⟨_, hlt, _⟩
      exact absurd hlt (Nat.not_lt_zero _)
  case deferred =>
    intro place links context story reached h
    have hnone : CallSite.active ((Node.deferred links).callSites false place) = [] :=
      Node.active_aside (.expression links) place
    rw [hnone]
    exact tells_enclose tells_plain (fun _ hgiven => hgiven.elim) (fun _ hplace => hplace) h
  case reference =>
    intro place name context story reached h
    exact tells_enclose tells_plain (fun _ hgiven => hgiven.elim) (fun _ hplace => hplace) h
  case literal =>
    intro place literal context story reached h
    exact tells_enclose tells_plain (fun _ hgiven => hgiven.elim) (fun _ hplace => hplace) h
  case noLink =>
    intro place index context story reached h
    obtain ⟨rfl, _⟩ := h.plain_cases
    exact .nothing fun _ => ⟨rfl, rfl⟩
  case link =>
    intro place index name definition arguments rest hlookup hgiven hrest context story reached h
    let call : CallSite := ⟨index :: place, name, false, Node.elementPlaces (index :: place) 0 arguments,
      (List.range index).map (· :: place) ++
        CallSite.places (CallSite.active (Node.argumentSites false (index :: place) 0 arguments))⟩
    have hsites : CallSite.active (Node.chainSites false place index (⟨name, arguments⟩ :: rest)) =
        (call :: CallSite.active (Node.argumentSites false (index :: place) 0 arguments)) ++
          CallSite.active (Node.chainSites false place (index + 1) rest) := by
      rw [List.cons_append, ← CallSite.active_append]
      rfl
    rw [hsites]
    simp only [planChain, hlookup] at h
    have hbefore : ∀ earlier ∈ call.before, EarlierLink place index earlier ∨
        earlier ∈ CallSite.places
          (CallSite.active (Node.argumentSites false (index :: place) 0 arguments)) := by
      intro earlier hearlier
      rcases List.mem_append.mp hearlier with hmem | hmem
      · obtain ⟨other, hother, rfl⟩ := List.mem_map.mp hmem
        exact .inl ⟨other, List.mem_range.mp hother, rfl⟩
      · exact .inr hmem
    have hlink {story : List Milestone} {reached : Option (Except RuntimeError Value)}
        (hstory : Story (site.planLink call.place definition (Entries.names arguments)
          (.join (site.planLists call.place 0 arguments context)) context) story reached) :=
      tells_link (hgiven context).join
        (by rintro _ ⟨argument, value, rfl⟩; exact .start_enter value argument _ context)
        hlookup hbefore hstory
    rcases Story.andThen_cases h with ⟨hcut, _, hstory⟩ | ⟨result, before, after, rfl, hfirst, hlast⟩
    · exact (hlink hstory).1.cut (List.sublist_append_left _ _) hcut
    · obtain ⟨hfirst, hfinished⟩ := hlink hfirst
      -- For the later links this one is outside, the last of the earlier ones and the occasion to start.
      refine hfirst.append (hrest result after reached hlast) (fun _ => ⟨result, rfl⟩) ?_ ?_
      · rintro _ rfl
        exact ⟨_, hfinished result rfl, .finish_start index place result⟩
      · rintro _ ⟨other, hother, rfl⟩
        rcases Nat.lt_succ_iff_lt_or_eq.mp hother with hlt | rfl
        · exact .inl ⟨other, hlt, rfl⟩
        · exact .inr ⟨result, hfinished result rfl⟩
  case noArgument => exact fun place index context => .nil
  case argument =>
    intro place index name values rest hgiven hrest context
    rw [Node.argumentSites, CallSite.active_append]
    exact .cons ((hgiven context).join.imp fun milestone hmilestone => ⟨index, hmilestone⟩) (hrest context)
  case noValue => exact fun place index context => .nil
  case value =>
    intro place index first rest hfirst hrest context
    have hvalue : site.Told (fun milestone => milestone = .entered (index :: place) context) _ _ _ :=
      hfirst context
    rw [Node.valueSites, CallSite.active_append]
    exact .cons (hvalue.imp fun milestone hmilestone => ⟨index, hmilestone⟩) (hrest context)

end Site

end ChainExpr
