import ChainExpr.Proofs.CallSites

namespace ChainExpr

/-- Milestones without the values that come with them. -/
inductive Mark
  | entered (place : Place)
  | left (place : Place)
  | started (place : Place)
  | casting (place : Place)
  | called (place : Place)
  | finished (place : Place)
deriving DecidableEq

def Milestone.mark : Milestone → Mark
  | .entered place _ => .entered place
  | .left place _ => .left place
  | .started place _ => .started place
  | .casting place _ => .casting place
  | .called place .. => .called place
  | .finished place _ => .finished place

namespace Node

variable (waits : String → Nat)

mutual

/-- For how many polls a node is pending. -/
def pendingPolls : Node → Nat
  | .expression chain => chainPolls chain
  | .deferred _ => 0
  | .reference _ => 0
  | .literal _ => 0

/-- Links wait in turn. -/
def chainPolls : List (LinkOf Node) → Nat
  | [] => 0
  | ⟨function, arguments⟩ :: rest => argumentPolls arguments + waits function + chainPolls rest

/-- Arguments wait together. -/
def argumentPolls : List (String × List Node) → Nat
  | [] => 0
  | (_, values) :: rest => max (valuePolls values) (argumentPolls rest)

def valuePolls : List Node → Nat
  | [] => 0
  | node :: rest => max node.pendingPolls (valuePolls rest)

end

mutual

/-- In which polls a node at a place passes its milestones if it is entered in a given one. -/
def timetable (place : Place) (poll : Nat) : Node → List (Nat × Mark)
  | .expression chain =>
    (poll, .entered place) ::
      (chainTimes place 0 poll chain ++ [(poll + chainPolls waits chain, .left place)])
  | .deferred _ => [(poll, .entered place), (poll, .left place)]
  | .reference _ => [(poll, .entered place), (poll, .left place)]
  | .literal _ => [(poll, .entered place), (poll, .left place)]

def chainTimes (place : Place) (index poll : Nat) : List (LinkOf Node) → List (Nat × Mark)
  | [] => []
  | ⟨function, arguments⟩ :: rest =>
    let ready := poll + argumentPolls waits arguments
    let done := ready + waits function
    (poll, .started (index :: place)) :: (argumentTimes (index :: place) 0 poll arguments ++
      [(ready, .casting (index :: place)), (ready, .called (index :: place)),
        (done, .finished (index :: place))] ++ chainTimes place (index + 1) done rest)

def argumentTimes (place : Place) (index poll : Nat) : List (String × List Node) → List (Nat × Mark)
  | [] => []
  | (_, values) :: rest =>
    valueTimes (index :: place) 0 poll values ++ argumentTimes place (index + 1) poll rest

def valueTimes (place : Place) (index poll : Nat) : List Node → List (Nat × Mark)
  | [] => []
  | node :: rest => node.timetable (index :: place) poll ++ valueTimes place (index + 1) poll rest

end

end Node

variable {waits : String → Nat}

/-- Nodes that are entered in the same poll, of which the slowest takes so many polls. -/
structure Together (poll : Nat) (nodes : List Place) (polls : Nat) (times : List (Nat × Mark)) :
    Prop where
  entered : ∀ place ∈ nodes, (poll, .entered place) ∈ times
  left : ∀ place ∈ nodes, ∃ ready, ready ≤ poll + polls ∧ (ready, .left place) ∈ times
  slowest : nodes = [] ∧ polls = 0 ∨ ∃ place ∈ nodes, (poll + polls, .left place) ∈ times

theorem Together.none (poll : Nat) : Together poll [] 0 [] := ⟨by simp, by simp, .inl ⟨rfl, rfl⟩⟩

theorem Together.append {poll polls polls' : Nat} {nodes nodes' : List Place}
    {times times' : List (Nat × Mark)} (h : Together poll nodes polls times)
    (h' : Together poll nodes' polls' times') :
    Together poll (nodes ++ nodes') (max polls polls') (times ++ times') where
  entered place hplace := by
    rcases List.mem_append.mp hplace with hmem | hmem
    · exact List.mem_append_left _ (h.entered place hmem)
    · exact List.mem_append_right _ (h'.entered place hmem)
  left place hplace := by
    rcases List.mem_append.mp hplace with hmem | hmem
    · obtain ⟨ready, hle, hleft⟩ := h.left place hmem
      exact ⟨ready, by omega, List.mem_append_left _ hleft⟩
    · obtain ⟨ready, hle, hleft⟩ := h'.left place hmem
      exact ⟨ready, by omega, List.mem_append_right _ hleft⟩
  slowest := by
    by_cases hle : polls ≤ polls'
    · rw [Nat.max_eq_right hle]
      rcases h'.slowest with ⟨rfl, rfl⟩ | ⟨place, hmem, hleft⟩
      · obtain rfl := Nat.le_zero.mp hle
        rcases h.slowest with ⟨rfl, _⟩ | ⟨place, hmem, hleft⟩
        · exact .inl ⟨rfl, rfl⟩
        · exact .inr ⟨place, by simp [hmem], List.mem_append_left _ hleft⟩
      · exact .inr ⟨place, by simp [hmem], List.mem_append_right _ hleft⟩
    · rw [Nat.max_eq_left (by omega)]
      rcases h.slowest with ⟨_, rfl⟩ | ⟨place, hmem, hleft⟩
      · omega
      · exact .inr ⟨place, by simp [hmem], List.mem_append_left _ hleft⟩

/-- A link that starts in one poll, and whose arguments are ready in another. -/
structure CallSite.TakesTurn (waits : String → Nat) (times : List (Nat × Mark)) (call : CallSite)
    (start ready : Nat) : Prop where
  started : (start, .started call.place) ∈ times
  /-- The values of its arguments are entered in the poll in which it starts. -/
  entered : ∀ element ∈ call.elements, (start, .entered element) ∈ times
  left : ∀ element ∈ call.elements, ∃ poll, poll ≤ ready ∧ (poll, .left element) ∈ times
  /-- The slowest of the values is there when the arguments are ready. -/
  slowest : call.elements = [] ∧ ready = start ∨
    ∃ element ∈ call.elements, (ready, .left element) ∈ times
  called : (ready, .called call.place) ∈ times
  finished : (ready + waits call.function, .finished call.place) ∈ times

theorem CallSite.TakesTurn.mono {times times' : List (Nat × Mark)} {call : CallSite}
    {start ready : Nat} (h : call.TakesTurn waits times start ready)
    (hsub : ∀ entry ∈ times, entry ∈ times') : call.TakesTurn waits times' start ready where
  started := hsub _ h.started
  entered element helement := hsub _ (h.entered element helement)
  left element helement := (h.left element helement).imp fun _ hleft => ⟨hleft.1, hsub _ hleft.2⟩
  slowest := h.slowest.imp id fun ⟨element, helement, hleft⟩ => ⟨element, helement, hsub _ hleft⟩
  called := hsub _ h.called
  finished := hsub _ h.finished

/-- Every link behind another one starts in the poll in which that one is finished. -/
def Consecutive (times : List (Nat × Mark)) : Prop :=
  ∀ poll index place, (poll, .started ((index + 1) :: place)) ∈ times →
    (poll, .finished (index :: place)) ∈ times

theorem Consecutive.append {times times' : List (Nat × Mark)} (h : Consecutive times)
    (h' : Consecutive times') : Consecutive (times ++ times') := by
  intro poll index place hstarted
  rcases List.mem_append.mp hstarted with hmem | hmem
  · exact List.mem_append_left _ (h poll index place hmem)
  · exact List.mem_append_right _ (h' poll index place hmem)

theorem Consecutive.of_perm {times times' : List (Nat × Mark)} (h : Consecutive times)
    (hperm : times'.Perm times) : Consecutive times' := fun poll index place hstarted =>
  hperm.mem_iff.mpr (h poll index place (hperm.mem_iff.mp hstarted))

namespace Node

theorem entered_mem_timetable (node : Node) (place : Place) (poll : Nat) :
    (poll, .entered place) ∈ node.timetable waits place poll := by
  cases node <;> simp [timetable]

theorem left_mem_timetable (node : Node) (place : Place) (poll : Nat) :
    (poll + node.pendingPolls waits, .left place) ∈ node.timetable waits place poll := by
  cases node <;> simp [timetable, pendingPolls]

theorem together_values (values : List Node) (place : Place) (index poll : Nat) :
    Together poll (valuePlaces place index values) (valuePolls waits values)
      (valueTimes waits place index poll values) := by
  induction values generalizing index with
  | nil => exact .none poll
  | cons node rest ih =>
    have hnode : Together poll [index :: place] (node.pendingPolls waits)
        (node.timetable waits (index :: place) poll) := by
      refine ⟨?_, ?_, ?_⟩
      · simp [entered_mem_timetable]
      · simp only [List.mem_singleton, forall_eq]
        exact ⟨_, Nat.le_refl _, left_mem_timetable node (index :: place) poll⟩
      · exact .inr ⟨_, List.mem_cons_self, left_mem_timetable node (index :: place) poll⟩
    exact hnode.append (ih (index + 1))

theorem together_arguments (given : List (String × List Node)) (place : Place) (index poll : Nat) :
    Together poll (elementPlaces place index given) (argumentPolls waits given)
      (argumentTimes waits place index poll given) := by
  induction given generalizing index with
  | nil => exact .none poll
  | cons entry rest ih => exact (together_values entry.2 (index :: place) 0 poll).append (ih (index + 1))

/-- Every link that is not set aside has its turn in the timetable. -/
theorem timetable_turns (node : Node) : ∀ place poll,
    ∀ call ∈ CallSite.active (node.callSites false place),
      ∃ start ready, call.TakesTurn waits (node.timetable waits place poll) start ready := by
  refine @Node.induction
    (fun node => ∀ place poll, ∀ call ∈ CallSite.active (node.callSites false place),
      ∃ start ready, call.TakesTurn waits (node.timetable waits place poll) start ready)
    (fun chain => ∀ place index poll, ∀ call ∈ CallSite.active (chainSites false place index chain),
      ∃ start ready, call.TakesTurn waits (chainTimes waits place index poll chain) start ready)
    (fun given => ∀ place index poll, ∀ call ∈ CallSite.active (argumentSites false place index given),
      ∃ start ready, call.TakesTurn waits (argumentTimes waits place index poll given) start ready)
    (fun given => ∀ place index poll, ∀ call ∈ CallSite.active (valueSites false place index given),
      ∃ start ready, call.TakesTurn waits (valueTimes waits place index poll given) start ready)
    ?expression ?deferred ?reference ?literal ?noLink ?link ?noArgument ?argument ?noValue ?value node
  case expression =>
    intro links ih place poll call hcall
    obtain ⟨start, ready, hturn⟩ := ih place 0 poll call hcall
    exact ⟨start, ready, hturn.mono fun entry hentry => by simp [timetable, hentry]⟩
  case deferred =>
    intro links _ place poll call hcall
    rw [show CallSite.active ((Node.deferred links).callSites false place) = [] from
      Node.active_aside (.expression links) place] at hcall
    cases hcall
  case reference =>
    intro name place poll call hcall
    cases hcall
  case literal =>
    intro literal place poll call hcall
    cases hcall
  case noLink =>
    intro place index poll call hcall
    cases hcall
  case link =>
    intro name given rest hgiven hrest place index poll call hcall
    have hsub : ∀ entry ∈ argumentTimes waits (index :: place) 0 poll given,
        entry ∈ chainTimes waits place index poll (⟨name, given⟩ :: rest) := by
      intro entry hentry
      simp [chainTimes, hentry]
    have hcases : call = ⟨index :: place, name, false, elementPlaces (index :: place) 0 given,
        (List.range index).map (· :: place) ++
          CallSite.places (CallSite.active (argumentSites false (index :: place) 0 given))⟩ ∨
        call ∈ CallSite.active (argumentSites false (index :: place) 0 given) ++
          CallSite.active (chainSites false place (index + 1) rest) := by
      rw [← CallSite.active_append]
      exact List.mem_cons.mp hcall
    rcases hcases with rfl | hmem
    · have htogether : Together poll (elementPlaces (index :: place) 0 given)
          (argumentPolls waits given) (argumentTimes waits (index :: place) 0 poll given) :=
        together_arguments given (index :: place) 0 poll
      refine ⟨poll, poll + argumentPolls waits given, by simp [chainTimes],
        fun element helement => hsub _ (htogether.entered element helement),
        fun element helement => (htogether.left element helement).imp fun _ hleft =>
          ⟨hleft.1, hsub _ hleft.2⟩, ?_, by simp [chainTimes], by simp [chainTimes]⟩
      rcases htogether.slowest with ⟨hnone, hzero⟩ | ⟨element, helement, hleft⟩
      · exact .inl ⟨hnone, by omega⟩
      · exact .inr ⟨element, helement, hsub _ hleft⟩
    · rcases List.mem_append.mp hmem with hmem | hmem
      · obtain ⟨start, ready, hturn⟩ := hgiven (index :: place) 0 poll call hmem
        exact ⟨start, ready, hturn.mono hsub⟩
      · obtain ⟨start, ready, hturn⟩ :=
          hrest place (index + 1) (poll + argumentPolls waits given + waits name) call hmem
        exact ⟨start, ready, hturn.mono fun entry hentry => by simp [chainTimes, hentry]⟩
  case noArgument =>
    intro place index poll call hcall
    cases hcall
  case argument =>
    intro name values rest hvalues hrest place index poll call hcall
    rw [argumentSites, CallSite.active_append] at hcall
    rcases List.mem_append.mp hcall with hmem | hmem
    · obtain ⟨start, ready, hturn⟩ := hvalues (index :: place) 0 poll call hmem
      exact ⟨start, ready, hturn.mono fun entry => List.mem_append_left _⟩
    · obtain ⟨start, ready, hturn⟩ := hrest place (index + 1) poll call hmem
      exact ⟨start, ready, hturn.mono fun entry => List.mem_append_right _⟩
  case noValue =>
    intro place index poll call hcall
    cases hcall
  case value =>
    intro first rest hfirst hrest place index poll call hcall
    rw [valueSites, CallSite.active_append] at hcall
    rcases List.mem_append.mp hcall with hmem | hmem
    · obtain ⟨start, ready, hturn⟩ := hfirst (index :: place) poll call hmem
      exact ⟨start, ready, hturn.mono fun entry => List.mem_append_left _⟩
    · obtain ⟨start, ready, hturn⟩ := hrest place (index + 1) poll call hmem
      exact ⟨start, ready, hturn.mono fun entry => List.mem_append_right _⟩

/-- In the timetable of a node each link follows the one before. -/
theorem timetable_consecutive (node : Node) : ∀ place poll,
    Consecutive (node.timetable waits place poll) := by
  refine @Node.induction
    (fun node => ∀ place poll, Consecutive (node.timetable waits place poll))
    (fun chain => ∀ place first poll index outer time,
      (time, .started ((index + 1) :: outer)) ∈ chainTimes waits place first poll chain →
      (time, .finished (index :: outer)) ∈ chainTimes waits place first poll chain ∨
        time = poll ∧ (index + 1) :: outer = first :: place)
    (fun given => ∀ place index poll, Consecutive (argumentTimes waits place index poll given))
    (fun given => ∀ place index poll, Consecutive (valueTimes waits place index poll given))
    ?expression ?deferred ?reference ?literal ?noLink ?link ?noArgument ?argument ?noValue ?value node
  case expression =>
    intro links ih place poll time index outer hstarted
    have hchain : (time, Mark.started ((index + 1) :: outer)) ∈ chainTimes waits place 0 poll links := by
      simpa [timetable] using hstarted
    rcases ih place 0 poll index outer time hchain with hfinished | ⟨_, hfirst⟩
    · simp [timetable, hfinished]
    · simp at hfirst
  case deferred =>
    intro links _ place poll time index outer hstarted
    simp [timetable] at hstarted
  case reference =>
    intro name place poll time index outer hstarted
    simp [timetable] at hstarted
  case literal =>
    intro literal place poll time index outer hstarted
    simp [timetable] at hstarted
  case noLink =>
    intro place first poll index outer time hstarted
    cases hstarted
  case link =>
    intro name given rest hgiven hrest place first poll index outer time hstarted
    have hcases : (time = poll ∧ (index + 1) :: outer = first :: place) ∨
        (time, Mark.started ((index + 1) :: outer)) ∈ argumentTimes waits (first :: place) 0 poll given ∨
        (time, Mark.started ((index + 1) :: outer)) ∈ chainTimes waits place (first + 1)
          (poll + argumentPolls waits given + waits name) rest := by
      simpa [chainTimes] using hstarted
    rcases hcases with hhere | hmem | hmem
    · exact .inr hhere
    · have hfinished := hgiven (first :: place) 0 poll time index outer hmem
      exact .inl (by simp [chainTimes, hfinished])
    · -- The first of the later links is the one behind this link, which is finished when they start.
      rcases hrest place (first + 1) _ index outer time hmem with hfinished | ⟨rfl, hnext⟩
      · exact .inl (by simp [chainTimes, hfinished])
      · cases hnext
        exact .inl (by simp [chainTimes])
  case noArgument =>
    intro place index poll time other outer hstarted
    cases hstarted
  case argument =>
    intro name values rest hvalues hrest place index poll
    exact (hvalues (index :: place) 0 poll).append (hrest place (index + 1) poll)
  case noValue =>
    intro place index poll time other outer hstarted
    cases hstarted
  case value =>
    intro first rest hfirst hrest place index poll
    exact (hfirst (index :: place) poll).append (hrest place (index + 1) poll)

end Node

end ChainExpr
