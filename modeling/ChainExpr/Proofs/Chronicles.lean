import ChainExpr.Proofs.Telling

namespace ChainExpr

/-- The settings of the interpreter at each home. -/
abbrev Settings := Home → EvaluationConfig

/-- Whether an event belongs to the link that is being invoked: its announcement, the call of its
implementation, or the rejection of its context. -/
def Event.ofLaunch : Event → Bool
  | .call .. | .log (.invokingLink ..) | .log (.contextRejected ..) => true
  | _ => false

/-- A link whose arguments are bound, run by the interpreter at a home. Its context is cast, and with that its
implementation is called or its context is rejected. -/
structure Launch where
  home : Home
  function : String
  arguments : Arguments
  context : Value
  attempts : List Attempt
  outcome : Except CastError Value

namespace Launch

/-- The announcement, where the interpreter that runs the link traces links. -/
def announcement (settings : Settings) (launch : Launch) : List Event :=
  if (settings launch.home).traceLinks then
    [.log (.invokingLink launch.function launch.arguments.names launch.context.type)]
  else []

def entrance (launch : Launch) : Event :=
  match launch.outcome with
  | .ok context => .call launch.function context launch.arguments
  | .error error => .log (.contextRejected launch.function error)

def events (settings : Settings) (launch : Launch) : List Event :=
  launch.announcement settings ++ (launch.attempts.map .conversion ++ [launch.entrance])

end Launch

/-- What happens under all settings. -/
inductive Happening
  /-- An event that does not depend on settings. -/
  | event (entry : Event)
  | launch (link : Launch)

namespace Happening

/-- The events by which it is told. -/
def events (settings : Settings) : Happening → List Event
  | .event entry => [entry]
  | .launch link => link.events settings

/-- Launches are all that there is of links being invoked, and each of them can be. -/
def Legit (runs : Launch → Prop) : Happening → Prop
  | .event entry => entry.ofLaunch = false
  | .launch link => runs link

end Happening

/-- A state that is the same under all settings but for its log, and what has happened since. -/
structure Chronicle where
  world : World
  happened : List Happening

namespace Chronicle

/-- The state as it is under some settings. -/
def under (chronicle : Chronicle) (settings : Settings) : World :=
  { chronicle.world with
    events := (chronicle.happened.flatMap (·.events settings)).reverse ++ chronicle.world.events }

def happen (chronicle : Chronicle) (happening : Happening) : Chronicle :=
  ⟨chronicle.world, chronicle.happened ++ [happening]⟩

theorem under_record (chronicle : Chronicle) (entry : Event) (settings : Settings) :
    (chronicle.under settings).record entry = (chronicle.happen (.event entry)).under settings := by
  simp [under, happen, World.record, Happening.events]

/-- Nothing is taken back: more has happened, all of it legitimate. -/
def Leads (runs : Launch → Prop) (chronicle later : Chronicle) : Prop :=
  later.world.events = chronicle.world.events ∧
    ∃ added, later.happened = chronicle.happened ++ added ∧ ∀ happening ∈ added, happening.Legit runs

section

variable {runs : Launch → Prop} {a b c : Chronicle}

theorem Leads.refl (a : Chronicle) : a.Leads runs a := ⟨rfl, [], by simp, by simp⟩

theorem Leads.trans (h : a.Leads runs b) (h' : b.Leads runs c) : a.Leads runs c := by
  obtain ⟨hevents, added, hadded, hlegit⟩ := h
  obtain ⟨hevents', more, hmore, hlegit'⟩ := h'
  refine ⟨hevents'.trans hevents, added ++ more, ?_, List.forall_mem_append.mpr ⟨hlegit, hlegit'⟩⟩
  rw [hmore, hadded, List.append_assoc]

theorem leads_happen {happening : Happening} (h : happening.Legit runs) :
    a.Leads runs (a.happen happening) :=
  ⟨rfl, [happening], rfl, List.forall_mem_singleton.mpr h⟩

/-- The other parts of the state may change in any way. -/
theorem leads_world {world : World} (h : world.events = a.world.events) :
    a.Leads runs ⟨world, a.happened⟩ :=
  ⟨h, [], by simp, by simp⟩

end

end Chronicle

/-- Under all settings, the same comes of the same state. -/
def Steadily (runs : Launch → Prop) {P : Type 1} (same : (Settings → P) → Prop)
    (run : Settings → World → P × World) : Prop :=
  ∀ chronicle : Chronicle, ∃ result later, same result ∧ chronicle.Leads runs later ∧
    ∀ settings, run settings (chronicle.under settings) = (result settings, later.under settings)

/-- What a state leads to goes the same way under all settings, if what is left to do from there does. -/
theorem Chronicle.Leads.goes {runs : Launch → Prop} {P : Type 1} {same : (Settings → P) → Prop}
    {run rest : Settings → World → P × World} {chronicle middle : Chronicle}
    (hfirst : chronicle.Leads runs middle) (h : Steadily runs same rest)
    (hrun : ∀ settings, run settings (chronicle.under settings) = rest settings (middle.under settings)) :
    ∃ result later, same result ∧ chronicle.Leads runs later ∧
      ∀ settings, run settings (chronicle.under settings) = (result settings, later.under settings) := by
  obtain ⟨result, later, hsame, hleads, hrest⟩ := h middle
  exact ⟨result, later, hsame, hfirst.trans hleads, fun settings => (hrun settings).trans (hrest settings)⟩

/-- The same task under all settings, but for the announcements of links. -/
inductive Task.Steady (runs : Launch → Prop) : {α : Type} → (Settings → Task α) → Prop
  | finish {α : Type} (outcome : Except RuntimeError α) : Steady runs fun _ => .finish outcome
  | emit {α : Type} {entry : Event} {rest : Settings → Task α} (apart : entry.ofLaunch = false)
      (later : Steady runs rest) : Steady runs fun settings => .emit entry (rest settings)
  | launch {α : Type} {link : Launch} {rest : Settings → Task α} (legit : runs link)
      (later : Steady runs rest) :
      Steady runs fun settings => .emitAll (link.events settings) (rest settings)
  | create {α : Type} {next : Settings → Nat → Task α}
      (later : ∀ serial, Steady runs fun settings => next settings serial) :
      Steady runs fun settings => .create (next settings)
  | routine {α : Type} (function : String) (body : Routine)
      {next : Settings → Except RuntimeError Value → Task α}
      (later : ∀ outcome, Steady runs fun settings => next settings outcome) :
      Steady runs fun settings => .routine function body (next settings)
  | both {α β γ : Type} {mode : JoinMode} {left : Settings → Task β} {right : Settings → Task γ}
      {next : Settings → Except RuntimeError (β × γ) → Task α} (lefts : Steady runs left)
      (rights : Steady runs right) (later : ∀ outcome, Steady runs fun settings => next settings outcome) :
      Steady runs fun settings => .both mode (left settings) (right settings) (next settings)

inductive Progress.Steady (runs : Launch → Prop) {α : Type} : (Settings → Progress α) → Prop
  | done (outcome : Except RuntimeError α) : Steady runs fun _ => .done outcome
  | pending {rest : Settings → Task α} (rests : Task.Steady runs rest) :
      Steady runs fun settings => .pending (rest settings)
  | exhausted : Steady runs fun _ => .exhausted

/-- The routine itself does not depend on settings, but the function value that it is inside of may. -/
inductive RoutineProgress.Steady (runs : Launch → Prop) : (Settings → RoutineProgress) → Prop
  | done (outcome : Except RuntimeError Value) : Steady runs fun _ => .done outcome
  | pending (rest : Routine) : Steady runs fun _ => .pending rest
  | inside {callee : Settings → Task Value} (callees : Task.Steady runs callee)
      (next : Except RuntimeError Value → Routine) :
      Steady runs fun settings => .inside (callee settings) next
  | exhausted : Steady runs fun _ => .exhausted

namespace Task.Steady

variable {runs : Launch → Prop} {α β : Type} {task : Settings → Task α}

theorem andThen {next : Settings → Except RuntimeError α → Task β} (h : Steady runs task)
    (hnext : ∀ outcome, Steady runs fun settings => next settings outcome) :
    Steady runs fun settings => (task settings).andThen (next settings) := by
  induction h with
  | finish outcome => exact hnext outcome
  | emit apart _ ih => exact .emit apart (ih hnext)
  | launch legit _ ih =>
    simp only [emitAll_andThen]
    exact .launch legit (ih hnext)
  | create _ ih => exact .create fun serial => ih serial hnext
  | routine function body _ ih => exact .routine function body fun outcome => ih outcome hnext
  | both lefts rights _ _ _ ih => exact .both lefts rights fun outcome => ih outcome hnext

theorem bind {next : Settings → α → Task β} (h : Steady runs task)
    (hnext : ∀ value, Steady runs fun settings => next settings value) :
    Steady runs fun settings => (task settings).bind (next settings) := by
  refine h.andThen fun outcome => ?_
  cases outcome with
  | ok value => exact hnext value
  | error error => exact .finish _

theorem join {ι : Type} {items : List ι} {tasks : Settings → ι → Task α}
    (h : ∀ item ∈ items, Steady runs fun settings => tasks settings item) :
    Steady runs fun settings => Task.join (items.map (tasks settings)) := by
  have htogether {β γ δ : Type} (f : β → γ → δ) (outcome : Except RuntimeError (β × γ)) :
      Steady runs fun _ => together f outcome := by
    cases outcome with
    | ok values => exact .finish _
    | error error => exact .finish _
  have hbehind (before : Settings → Task (List α)) (hbefore : Steady runs before) :
      Steady runs fun settings => joinInOrder (before settings) (items.map (tasks settings)) := by
    induction items generalizing before with
    | nil => exact hbefore
    | cons item rest ih =>
      obtain ⟨hfirst, hrest⟩ := List.forall_mem_cons.mp h
      exact ih hrest _ (.both hbefore hfirst (htogether _))
  simp only [Task.join, List.length_map]
  split
  · clear * - h htogether
    induction items with
    | nil => exact .finish _
    | cons item rest ih =>
      obtain ⟨hfirst, hrest⟩ := List.forall_mem_cons.mp h
      exact .both hfirst (ih hrest) (htogether List.cons)
  · exact hbehind _ (.finish _)

theorem onError (h : Steady runs task) {entry : RuntimeError → LogEntry}
    (apart : ∀ error, (Event.log (entry error)).ofLaunch = false) :
    Steady runs fun settings => (task settings).onError entry := by
  refine h.andThen fun outcome => ?_
  cases outcome with
  | ok value => exact .finish _
  | error error => exact .emit (apart error) (.finish _)

end Task.Steady

theorem Chronicle.leads_event {runs : Launch → Prop} {a : Chronicle} {entry : Event}
    (h : entry.ofLaunch = false) : a.Leads runs (a.happen (.event entry)) := leads_happen h

/-- A round of a routine goes the same way under all settings, if what it calls does. -/
theorem Routine.steady_round {runs : Launch → Prop} {enter : Settings → Entry}
    (henter : ∀ callee context,
      Steadily runs (Progress.Steady runs) fun settings => enter settings callee context)
    (function : String) (body : Routine) :
    Steadily runs (RoutineProgress.Steady runs) fun settings =>
      body.round (enter settings) function := by
  induction body with
  | finish outcome => exact fun c => ⟨_, c, .done outcome, .refl c, fun _ => rfl⟩
  | wait polls next ih =>
    intro c
    cases polls with
    | zero =>
      have hfirst : c.Leads runs (c.happen (.event (.resume function))) := Chronicle.leads_event rfl
      exact hfirst.goes ih fun settings => by simp only [round, Chronicle.under_record]
    | succ polls =>
      exact ⟨_, c, .pending (.wait polls next), .refl c, fun _ => by simp only [round]⟩
  | arrive point next ih =>
    intro c
    have hfirst : c.Leads runs ⟨c.world.arrive point, c.happened⟩ := Chronicle.leads_world rfl
    exact hfirst.goes ih fun settings => rfl
  | await point count next ih =>
    intro c
    by_cases hmet : count ≤ c.world.arrivals point
    · have hfirst : c.Leads runs (c.happen (.event (.resume function))) := Chronicle.leads_event rfl
      refine hfirst.goes ih fun settings => ?_
      have hmet' : count ≤ (c.under settings).arrivals point := hmet
      simp only [round, if_pos hmet', Chronicle.under_record]
    · refine ⟨_, c, .pending (.await point count next), .refl c, fun settings => ?_⟩
      have hmet' : ¬count ≤ (c.under settings).arrivals point := hmet
      simp only [round, if_neg hmet']
  | tick next ih =>
    intro c
    have hfirst : c.Leads runs ⟨c.world.tick, c.happened⟩ := Chronicle.leads_world rfl
    exact hfirst.goes (ih c.world.ticks) fun settings => rfl
  | call callee context next ih =>
    intro c
    obtain ⟨progress, middle, hprogress, hfirst, henters⟩ := henter callee context c
    cases hprogress with
    | done outcome => exact hfirst.goes (ih outcome) fun settings => by simp only [round, henters]
    | pending rests =>
      exact ⟨_, middle, .inside rests next, hfirst, fun settings => by simp only [round, henters]⟩
    | exhausted =>
      exact ⟨_, middle, .exhausted, hfirst, fun settings => by simp only [round, henters]⟩

theorem Task.round_emitAll {α : Type} (enter : Entry) (events : List Event) (task : Task α)
    (world : World) : (Task.emitAll events task).round enter world =
      task.round enter { world with events := events.reverse ++ world.events } := by
  induction events generalizing world with
  | nil => rfl
  | cons entry rest ih =>
    have hrest := ih (world.record entry)
    rw [List.reverse_cons, List.append_assoc]
    exact hrest

theorem Chronicle.under_launch (chronicle : Chronicle) (link : Launch) (settings : Settings) :
    { chronicle.under settings with
      events := (link.events settings).reverse ++ (chronicle.under settings).events } =
        (chronicle.happen (.launch link)).under settings := by
  simp [under, happen, Happening.events]

/-- A round of a steady task goes the same way under all settings. -/
theorem Task.Steady.round {runs : Launch → Prop} {enter : Settings → Entry}
    (henter : ∀ callee context,
      Steadily runs (Progress.Steady runs) fun settings => enter settings callee context)
    {α : Type} {task : Settings → Task α} (h : Steady runs task) :
    Steadily runs (Progress.Steady runs) fun settings => (task settings).round (enter settings) := by
  induction h with
  | finish outcome => exact fun c => ⟨_, c, .done outcome, .refl c, fun _ => rfl⟩
  | @emit _ entry rest apart _ ih =>
    intro c
    exact (Chronicle.leads_event apart).goes ih fun settings => by
      simp only [Task.round, Chronicle.under_record]
  | @launch _ link rest legit _ ih =>
    intro c
    have hfirst : c.Leads runs (c.happen (.launch link)) := Chronicle.leads_happen legit
    exact hfirst.goes ih fun settings => by simp only [round_emitAll, Chronicle.under_launch]
  | @create _ next _ ih =>
    intro c
    have hfirst : c.Leads runs ⟨c.world.take, c.happened⟩ := Chronicle.leads_world rfl
    exact hfirst.goes (ih c.world.serial) fun settings => rfl
  | @routine _ function body next later ih =>
    intro c
    obtain ⟨standing, middle, hstanding, hfirst, hbody⟩ :=
      Routine.steady_round henter function body c
    cases hstanding with
    | done outcome => exact hfirst.goes (ih outcome) fun settings => by simp only [Task.round, hbody]
    | pending rest =>
      exact ⟨_, middle, .pending (.routine function rest later), hfirst,
        fun settings => by simp only [Task.round, hbody]⟩
    | @inside callee callees resume =>
      refine ⟨_, middle, .pending (callees.andThen fun outcome =>
        .routine function (resume outcome) later), hfirst, fun settings => ?_⟩
      simp only [Task.round, hbody]
    | exhausted =>
      exact ⟨_, middle, .exhausted, hfirst, fun settings => by simp only [Task.round, hbody]⟩
  | @both _ β γ mode left right next lefts rights later ihl ihr ih =>
    intro c
    obtain ⟨progress, middle, hprogress, hfirst, hleft⟩ := ihl c
    cases hprogress with
    | exhausted =>
      exact ⟨_, middle, .exhausted, hfirst, fun settings => by simp only [Task.round, hleft]⟩
    | done outcome =>
      cases outcome with
      | error error =>
        exact hfirst.goes (ih (.error error)) fun settings => by simp only [Task.round, hleft]
      | ok a =>
        obtain ⟨progress', end', hprogress', hsecond, hright⟩ := ihr middle
        cases hprogress' with
        | exhausted =>
          exact ⟨_, end', .exhausted, hfirst.trans hsecond,
            fun settings => by simp only [Task.round, hleft, hright]⟩
        | done outcome' =>
          cases outcome' with
          | error error =>
            exact (hfirst.trans hsecond).goes (ih (.error error)) fun settings => by
              simp only [Task.round, hleft, hright]
          | ok b =>
            exact (hfirst.trans hsecond).goes (ih (.ok (a, b))) fun settings => by
              simp only [Task.round, hleft, hright]
        | pending rests =>
          exact ⟨_, end', .pending (.both (.finish (.ok a)) rests later), hfirst.trans hsecond,
            fun settings => by simp only [Task.round, hleft, hright]; rfl⟩
    | pending rests =>
      obtain ⟨progress', end', hprogress', hsecond, hright⟩ := ihr middle
      cases hprogress' with
      | exhausted =>
        exact ⟨_, end', .exhausted, hfirst.trans hsecond,
          fun settings => by simp only [Task.round, hleft, hright]⟩
      | done outcome' =>
        cases outcome' with
        | error error =>
          cases mode with
          | eager =>
            exact (hfirst.trans hsecond).goes (ih (.error error)) fun settings => by
              simp only [Task.round, hleft, hright]
          | inOrder =>
            exact ⟨_, end', .pending (.both rests (.finish (.error error)) later), hfirst.trans hsecond,
              fun settings => by simp only [Task.round, hleft, hright]; rfl⟩
        | ok b =>
          exact ⟨_, end', .pending (.both rests (.finish (.ok b)) later), hfirst.trans hsecond,
            fun settings => by simp only [Task.round, hleft, hright]; rfl⟩
      | pending rests' =>
        exact ⟨_, end', .pending (.both rests rests' later), hfirst.trans hsecond,
          fun settings => by simp only [Task.round, hleft, hright]; rfl⟩

end ChainExpr
