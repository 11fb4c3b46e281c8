import ChainExpr.Proofs.HandOver
import ChainExpr.Proofs.Rounds
import ChainExpr.Stock

namespace ChainExpr

namespace Stock

/-- Acts and rests. -/
def lowest : Interpreter :=
  .mk ⟨.ofList [Stock.act .context, { Stock.act .context with name := "rest" }], .standard, .standard, 0⟩
    .rejecting

/-- Knows nothing. -/
def between : Interpreter := .mk ⟨.empty, .standard, .standard, 0⟩ (.delegating lowest)

/-- Acts only. -/
def uppermost : Interpreter :=
  .mk ⟨.ofList [Stock.act .context], .standard, .standard, 0⟩ (.delegating between)

end Stock

namespace Interpreter

/-- The interpreters of a tower from the top down, the host of the last one being one that rejects. -/
inductive Stacked : Interpreter → List Interpreter → Prop
  | last (equipment : Equipment) : Stacked (.mk equipment .rejecting) [.mk equipment .rejecting]
  | above {fallback : Interpreter} {below : List Interpreter} (equipment : Equipment)
      (h : Stacked fallback below) :
      Stacked (.mk equipment (.delegating fallback)) (.mk equipment (.delegating fallback) :: below)

theorem Stacked.cons {interpreter : Interpreter} {stack : List Interpreter}
    (h : interpreter.Stacked stack) : ∃ below, stack = interpreter :: below := by
  cases h with
  | last equipment => exact ⟨[], rfl⟩
  | above equipment _ => exact ⟨_, rfl⟩

/-- The longest segment at the front of a chain whose functions an interpreter knows, and the rest. -/
structure Splits (interpreter : Interpreter) (chain segment rest : Chain) : Prop where
  whole : segment ++ rest = chain
  known : ∀ link ∈ segment, interpreter.functions.contains link.function = true
  longest : ∀ link later, rest = link :: later →
    interpreter.functions.contains link.function = false

/-- A chain cut for a stack: each interpreter in its turn gets the longest segment of what is left whose
functions it knows. What the last one does not know is left over. -/
inductive Cut : List Interpreter → Chain → List Chain → Chain → Prop
  | all {interpreter : Interpreter} {chain segment : Chain} (below : List Interpreter)
      (first : interpreter.Splits chain segment []) :
      Cut (interpreter :: below) chain [segment] []
  | refused {interpreter : Interpreter} {chain segment later : Chain} {link : Link}
      (first : interpreter.Splits chain segment (link :: later)) :
      Cut [interpreter] chain [segment] (link :: later)
  | handed_on {interpreter : Interpreter} {below : List Interpreter}
      {chain segment later left : Chain} {link : Link} {segments : List Chain}
      (first : interpreter.Splits chain segment (link :: later))
      (lower : Cut below (link :: later) segments left) :
      Cut (interpreter :: below) chain (segment :: segments) left

variable {towers : Towers} {interpreter : Interpreter}

theorem splits_knownLinks (chain : Chain) :
    interpreter.Splits chain (interpreter.knownLinks chain) (interpreter.unknownRest chain) where
  whole := knownLinks_append_unknownRest chain
  known := knownLinks_known
  longest link later hrest := by
    rw [FunctionRegistry.contains, unknownRest_unknown hrest]
    rfl

/-- There is one longest segment. -/
theorem Splits.unique {chain segment rest segment' rest' : Chain}
    (h : interpreter.Splits chain segment rest) (h' : interpreter.Splits chain segment' rest') :
    segment = segment' ∧ rest = rest' := by
  induction segment generalizing chain segment' with
  | nil =>
    cases segment' with
    | nil => exact ⟨rfl, h.whole.trans h'.whole.symm⟩
    | cons link later =>
      have hunknown := h.longest link (later ++ rest') (h.whole.trans h'.whole.symm)
      rw [h'.known link List.mem_cons_self] at hunknown
      cases hunknown
  | cons link later ih =>
    have hrest : interpreter.Splits (later ++ rest) later rest :=
      ⟨rfl, fun other hother => h.known other (List.mem_cons_of_mem link hother), h.longest⟩
    cases segment' with
    | nil =>
      have hunknown := h'.longest link (later ++ rest) (h'.whole.trans h.whole.symm)
      rw [h.known link List.mem_cons_self] at hunknown
      cases hunknown
    | cons link' later' =>
      obtain ⟨rfl, hsame⟩ := List.cons.inj (h.whole.trans h'.whole.symm)
      have hrest' : interpreter.Splits (later ++ rest) later' rest' :=
        ⟨hsame.symm, fun other hother => h'.known other (List.mem_cons_of_mem link hother),
          h'.longest⟩
      obtain ⟨rfl, rfl⟩ := ih hrest hrest'
      exact ⟨rfl, rfl⟩

/-- A chain can be cut for every stack. -/
theorem exists_cut (interpreter : Interpreter) (below : List Interpreter) (chain : Chain) :
    ∃ segments left, Cut (interpreter :: below) chain segments left := by
  induction below generalizing interpreter chain with
  | nil =>
    have hsplits := interpreter.splits_knownLinks chain
    cases hrest : interpreter.unknownRest chain with
    | nil => exact ⟨_, _, .all [] (hrest ▸ hsplits)⟩
    | cons link later => exact ⟨_, _, .refused (hrest ▸ hsplits)⟩
  | cons lower below ih =>
    have hsplits := interpreter.splits_knownLinks chain
    cases hrest : interpreter.unknownRest chain with
    | nil => exact ⟨_, _, .all _ (hrest ▸ hsplits)⟩
    | cons link later =>
      obtain ⟨segments, left, hlower⟩ := ih lower (link :: later)
      exact ⟨_, _, .handed_on (hrest ▸ hsplits) hlower⟩

/-- In one way. -/
theorem Cut.unique {stack : List Interpreter} {chain left left' : Chain}
    {segments segments' : List Chain} (h : Cut stack chain segments left)
    (h' : Cut stack chain segments' left') : segments = segments' ∧ left = left' := by
  induction h generalizing segments' with
  | all below first =>
    cases h' with
    | all _ first' =>
      obtain ⟨rfl, _⟩ := first.unique first'
      exact ⟨rfl, rfl⟩
    | refused first' => cases (first.unique first').2
    | handed_on first' _ => cases (first.unique first').2
  | refused first =>
    cases h' with
    | all _ first' => cases (first.unique first').2
    | refused first' =>
      obtain ⟨rfl, hrest⟩ := first.unique first'
      exact ⟨rfl, hrest⟩
    | handed_on _ lower => cases lower
  | handed_on first lower ih =>
    cases h' with
    | all _ first' => cases (first.unique first').2
    | refused _ => cases lower
    | handed_on first' lower' =>
      obtain ⟨rfl, hrest⟩ := first.unique first'
      obtain ⟨rfl, rfl⟩ := List.cons.inj hrest
      obtain ⟨rfl, rfl⟩ := ih lower'
      exact ⟨rfl, rfl⟩

theorem Cut.cons {stack : List Interpreter} {chain left : Chain} {segments : List Chain}
    (h : Cut stack chain segments left) :
    ∃ top below first later, stack = top :: below ∧ segments = first :: later := by
  cases h with
  | all below first => exact ⟨_, _, _, _, rfl, rfl⟩
  | refused first => exact ⟨_, _, _, _, rfl, rfl⟩
  | handed_on first lower => exact ⟨_, _, _, _, rfl, rfl⟩

/-- No link is lost. -/
theorem Cut.whole {stack : List Interpreter} {chain left : Chain} {segments : List Chain}
    (h : Cut stack chain segments left) : segments.flatten ++ left = chain := by
  induction h with
  | all below first =>
    rw [List.flatten_cons, List.flatten_nil, List.append_nil]
    exact first.whole
  | refused first =>
    rw [List.flatten_cons, List.flatten_nil, List.append_nil]
    exact first.whole
  | handed_on first _ ih =>
    rw [List.flatten_cons, List.append_assoc, ih]
    exact first.whole

theorem Cut.length_le {stack : List Interpreter} {chain left : Chain} {segments : List Chain}
    (h : Cut stack chain segments left) : segments.length ≤ stack.length := by
  induction h with
  | all below first => simp
  | refused first => simp
  | handed_on first _ ih => simpa using ih

/-- What the log and the observers are told when a segment hands on what is left. -/
def handing (host : HostKind) (link : Link) (later : Chain) (value : Value) (reply : LogEntry) :
    List Event :=
  [.log (.handingOver link.function (later.length + 1)), .request host (link :: later) value,
    .log reply]

/-- Segment by segment. What is left after one is handed on as it is, with the value so far, to the next
interpreter; after the last interpreter it is refused. -/
def relay : List Interpreter → List Chain → Chain → Value → Task Value
  | interpreter :: below, segment :: segments, left, context =>
    (interpreter.invokeChain segment context).bind fun value =>
      match segments.flatten ++ left, below with
      | [], _ => .ok value
      | link :: later, [] =>
        Task.emitAll (handing .rejecting link later value (.functionNotRegistered link.function))
          (.fail (.functionNotRegistered link.function))
      | link :: later, lower :: _ =>
        Task.emitAll (handing (.delegating lower.home) link later value
          (.delegating link.function (later.length + 1))) (relay below segments left value)
  | _, _, _, context => .ok context

theorem Splits.invokeChain {chain segment rest : Chain} (h : interpreter.Splits chain segment rest)
    (context : Value) :
    interpreter.invokeChain chain context =
      (interpreter.invokeChain segment context).bind (interpreter.invokeChain rest) := by
  rw [← h.whole]
  exact invokeChain_append h.known rest context

theorem Splits.lookup {chain segment later : Chain} {link : Link}
    (h : interpreter.Splits chain segment (link :: later)) :
    interpreter.functions.lookup link.function = none :=
  Option.not_isSome_iff_eq_none.mp (Bool.eq_false_iff.mp (h.longest link later rfl))

/-- On a stack, running a chain is the relay of its segments. -/
theorem Cut.invokeChain {stack : List Interpreter} {chain left : Chain} {segments : List Chain}
    (h : Cut stack chain segments left) (hstack : interpreter.Stacked stack) (context : Value) :
    interpreter.invokeChain chain context = relay stack segments left context := by
  induction h generalizing interpreter context with
  | all below first =>
    obtain ⟨_, hstack⟩ := hstack.cons
    cases hstack
    rw [first.invokeChain, relay]
    exact congrArg _ (funext fun value => invokeChain_nil value)
  | refused first =>
    cases hstack with
    | last equipment =>
      rw [first.invokeChain, relay]
      exact congrArg _ (funext fun value => invokeChain_unknown first.lookup _ value)
    | above equipment hbelow =>
      obtain ⟨_, hnone⟩ := hbelow.cons
      cases hnone
  | handed_on first lower ih =>
    cases hstack with
    | last equipment => cases lower
    | @above fallback below equipment hbelow =>
      rw [first.invokeChain, relay]
      refine congrArg _ (funext fun value => ?_)
      obtain ⟨deeper, rfl⟩ := hbelow.cons
      simp only [lower.whole, invokeChain_unknown first.lookup]
      rw [← ih hbelow value]
      rfl

/-- The segments run one after the other, each on its own interpreter and on the value of the one
before, until one fails. Links that are left over at the end are an error. -/
inductive SegmentsRun (towers : Towers) : List Interpreter → List Chain → Chain → Value → World →
    List Event → Except RuntimeError Value → World → Prop
  | failed {interpreter : Interpreter} {segment : Chain} {context : Value} {world world' : World}
      {events : List Event} {error : RuntimeError} (below : List Interpreter)
      (segments : List Chain) (left : Chain)
      (links : Towers.LinksRun towers interpreter segment context world events (.error error) world') :
      SegmentsRun towers (interpreter :: below) (segment :: segments) left context world events
        (.error error) world'
  | all {interpreter : Interpreter} {segment : Chain} {context value : Value} {world world' : World}
      {events : List Event} (below : List Interpreter)
      (links : Towers.LinksRun towers interpreter segment context world events (.ok value) world') :
      SegmentsRun towers (interpreter :: below) [segment] [] context world events (.ok value) world'
  | refused {interpreter : Interpreter} {segment later : Chain} {link : Link} {context value : Value}
      {world middle world' : World} {events answer : List Event}
      (links : Towers.LinksRun towers interpreter segment context world events (.ok value) middle)
      (asked : answer = handing .rejecting link later value (.functionNotRegistered link.function))
      (told : world' = answer.foldl World.record middle) :
      SegmentsRun towers [interpreter] [segment] (link :: later) context world (events ++ answer)
        (.error (.functionNotRegistered link.function)) world'
  | handed_on {interpreter lower : Interpreter} {below : List Interpreter}
      {segment next later left : Chain} {link : Link} {segments : List Chain} {context value : Value}
      {world middle world' : World} {events answer behind : List Event}
      {outcome : Except RuntimeError Value}
      (links : Towers.LinksRun towers interpreter segment context world events (.ok value) middle)
      (rest : (next :: segments).flatten ++ left = link :: later)
      (asked : answer = handing (.delegating lower.home) link later value
        (.delegating link.function (later.length + 1)))
      (lower_runs : SegmentsRun towers (lower :: below) (next :: segments) left value
        (answer.foldl World.record middle) behind outcome world') :
      SegmentsRun towers (interpreter :: lower :: below) (segment :: next :: segments) left context
        world (events ++ answer ++ behind) outcome world'

theorem shows_emitAll_finish {α : Type} {entries : List Event} {task : Task α}
    {world world' : World} {events : List Event} {outcome : Except RuntimeError α} :
    towers.Shows (Task.emitAll entries task, world) events (.finish outcome, world') ↔
      ∃ later, events = entries ++ later ∧
        towers.Shows (task, entries.foldl World.record world) later (.finish outcome, world') := by
  induction entries generalizing world events with
  | nil => simp [Task.emitAll]
  | cons entry rest ih =>
    have hemit : Task.emitAll (entry :: rest) task = .emit entry (Task.emitAll rest task) := rfl
    rw [hemit, Towers.shows_emit_finish]
    constructor
    · rintro ⟨_, rfl, hrest⟩
      obtain ⟨later, rfl, hlater⟩ := ih.mp hrest
      exact ⟨later, rfl, hlater⟩
    · rintro ⟨later, rfl, hlater⟩
      exact ⟨_, rfl, ih.mpr ⟨later, rfl, hlater⟩⟩

/-- The runs of a relay. -/
theorem Cut.shows {stack : List Interpreter} {chain left : Chain} {segments : List Chain}
    (h : Cut stack chain segments left) {context : Value} {world world' : World}
    {events : List Event} {outcome : Except RuntimeError Value} :
    towers.Shows (relay stack segments left context, world) events (.finish outcome, world') ↔
      SegmentsRun towers stack segments left context world events outcome world' := by
  -- By induction on the stack, each interpreter being asked for what the one above has left.
  induction h generalizing context world events with
  | all below first =>
    rw [relay, Towers.shows_bind_finish]
    simp only [Towers.shows_invokeChain_known first.known]
    constructor
    · rintro (⟨error, rfl, hlinks⟩ | ⟨value, middle, events, later, rfl, hlinks, hdone⟩)
      · exact .failed below [] [] hlinks
      · obtain ⟨hstate, rfl⟩ := Towers.shows_finish.mp hdone
        cases hstate
        rw [List.append_nil]
        exact .all below hlinks
    · intro h
      cases h with
      | failed _ _ _ hlinks => exact .inl ⟨_, rfl, hlinks⟩
      | all _ hlinks =>
        exact .inr ⟨_, _, _, [], (List.append_nil _).symm, hlinks, Towers.shows_finish.mpr ⟨rfl, rfl⟩⟩
  | @refused _ _ _ later link first =>
    rw [relay, Towers.shows_bind_finish]
    simp only [Towers.shows_invokeChain_known first.known]
    constructor
    · rintro (⟨error, rfl, hlinks⟩ | ⟨value, middle, events, answer, rfl, hlinks, hrefused⟩)
      · exact .failed [] [] (link :: later) hlinks
      · obtain ⟨_, rfl, hfail⟩ := shows_emitAll_finish.mp hrefused
        obtain ⟨hstate, rfl⟩ := Towers.shows_finish.mp hfail
        cases hstate
        rw [List.append_nil]
        exact .refused hlinks rfl rfl
    · intro h
      cases h with
      | failed _ _ _ hlinks => exact .inl ⟨_, rfl, hlinks⟩
      | refused hlinks asked told =>
        subst asked told
        refine .inr ⟨_, _, _, _, rfl, hlinks, shows_emitAll_finish.mpr ⟨[], ?_, ?_⟩⟩
        · rw [List.append_nil]
        · exact Towers.shows_finish.mpr ⟨rfl, rfl⟩
  | handed_on first lower ih =>
    obtain ⟨next, deeper, _, _, rfl, rfl⟩ := lower.cons
    rw [relay, Towers.shows_bind_finish]
    simp only [Towers.shows_invokeChain_known first.known, lower.whole]
    constructor
    · rintro (⟨error, rfl, hlinks⟩ | ⟨value, middle, events, answer, rfl, hlinks, hhanded⟩)
      · exact .failed _ _ _ hlinks
      · obtain ⟨behind, rfl, hbehind⟩ := shows_emitAll_finish.mp hhanded
        rw [← List.append_assoc]
        exact .handed_on hlinks lower.whole rfl (ih.mp hbehind)
    · intro h
      cases h with
      | failed _ _ _ hlinks => exact .inl ⟨_, rfl, hlinks⟩
      | handed_on hlinks rest asked hbehind =>
        rw [lower.whole] at rest
        cases rest
        subst asked
        refine .inr ⟨_, _, _, _, List.append_assoc _ _ _, hlinks, ?_⟩
        exact shows_emitAll_finish.mpr ⟨_, rfl, ih.mpr hbehind⟩

theorem Stacked.level_lt {stack : List Interpreter} (h : interpreter.Stacked stack) :
    ∀ lower ∈ stack.tail, lower.level < interpreter.level := by
  induction h with
  | last equipment => simp
  | @above fallback below equipment hbelow ih =>
    obtain ⟨deeper, rfl⟩ := hbelow.cons
    intro lower hlower
    rcases List.mem_cons.mp hlower with rfl | hdeeper
    · exact Nat.lt_succ_self lower.level
    · exact Nat.lt_succ_of_lt (ih lower hdeeper)

/-- From the top of a stack to its bottom it goes down. -/
theorem Stacked.descends {stack : List Interpreter} (h : interpreter.Stacked stack) :
    stack.Pairwise fun upper lower => lower.level < upper.level := by
  induction h with
  | last equipment => exact List.pairwise_singleton _ _
  | above equipment hbelow ih =>
    exact List.pairwise_cons.mpr ⟨(Stacked.above equipment hbelow).level_lt, ih⟩

theorem Stacked.within {stack : List Interpreter} (h : interpreter.Stacked stack)
    (hwithin : towers.Within interpreter) : ∀ runner ∈ stack, towers.Within runner := by
  induction h with
  | last equipment =>
    intro runner hrunner
    rw [List.mem_singleton.mp hrunner]
    exact hwithin
  | above equipment _ ih =>
    intro runner hrunner
    rcases List.mem_cons.mp hrunner with rfl | hbelow
    · exact hwithin
    · exact ih hwithin.under runner hbelow

/-- Every chain has one cut for a stack, into at most as many segments as there are interpreters, and
its evaluation is the relay of the segments: each runs on its own interpreter, whose registries and
conversions serve its links, and on which the nodes of their arguments are evaluated, chains that are
set aside being called there too. Interpreters further down have lower levels, so what is handed on
never comes back. -/
theorem delegation_moves_forward (towers : Towers) (interpreter : Interpreter) (stack : List Interpreter)
    (within : towers.Within interpreter) (stacked : interpreter.Stacked stack) (chain : Chain)
    (context : Value) (world : World) :
    (∃ segments left, Cut stack chain segments left ∧
      (∀ segments' left', Cut stack chain segments' left' → segments' = segments ∧ left' = left) ∧
      segments.length ≤ stack.length ∧ segments.flatten ++ left = chain ∧
      interpreter.invokeChain chain context = relay stack segments left context ∧
      ∀ events outcome world',
        towers.Shows (interpreter.invokeChain chain context, world) events (.finish outcome, world') ↔
          SegmentsRun towers stack segments left context world events outcome world') ∧
    stack.Pairwise (fun upper lower => lower.level < upper.level) ∧
    ∀ runner ∈ stack,
      (∀ definition link given, runner.runLink definition link given =
        (runner.site.resolve definition (Entries.names link.arguments)
          (Task.join (link.arguments.map fun entry =>
            Task.join (entry.2.map fun node => runner.interpret node given)))).bind fun bound =>
          runner.site.announce definition bound given
            (definition.invoke runner.types given bound)) ∧
      (∀ aside given, runner.interpret (.deferred aside) given =
        .create fun serial => .ok (.function (.deferred runner.home serial aside))) ∧
      ∀ serial aside given,
        towers.callTask (.deferred runner.home serial aside) given = runner.invokeChain aside given := by
  obtain ⟨below, rfl⟩ := stacked.cons
  refine ⟨?_, stacked.descends, ?_⟩
  · obtain ⟨segments, left, hcut⟩ := exists_cut interpreter below chain
    refine ⟨segments, left, hcut, fun _ _ h => h.unique hcut, hcut.length_le, hcut.whole,
      hcut.invokeChain stacked context, ?_⟩
    intro events outcome world'
    rw [hcut.invokeChain stacked context]
    exact hcut.shows
  · intro runner hrunner
    have hrunner := stacked.within within runner hrunner
    refine ⟨?_, ?_, ?_⟩
    · intro definition link given
      rw [runLink, Site.runLink, Site.interpretArguments_eq]
      rfl
    · intro aside given
      rw [Interpreter.interpret, Site.interpret]
      rfl
    · intro serial aside given
      rw [Towers.callTask, hrunner.resident]

/-- The second act runs at the bottom, though the top could act as well, and what nobody knows is left
over. -/
theorem delegation_moves_forward_twice :
    Stock.uppermost.alone.Within Stock.uppermost ∧
      Stock.uppermost.Stacked [Stock.uppermost, Stock.between, Stock.lowest] ∧
      Cut [Stock.uppermost, Stock.between, Stock.lowest]
        [⟨"act", []⟩, ⟨"rest", []⟩, ⟨"act", []⟩, ⟨"lost", []⟩]
        [[⟨"act", []⟩], [], [⟨"rest", []⟩, ⟨"act", []⟩]] [⟨"lost", []⟩] ∧
      ∃ events world', SegmentsRun Stock.uppermost.alone [Stock.uppermost, Stock.between, Stock.lowest]
        [[⟨"act", []⟩], [], [⟨"rest", []⟩, ⟨"act", []⟩]] [⟨"lost", []⟩] .null .start events
        (.error (.functionNotRegistered "lost")) world' := by
  have hwithin : Stock.uppermost.alone.Within Stock.uppermost := ⟨0, .top⟩
  have hstacked : Stock.uppermost.Stacked [Stock.uppermost, Stock.between, Stock.lowest] :=
    .above _ (.above _ (.last _))
  have hupper : Stock.uppermost.Splits [⟨"act", []⟩, ⟨"rest", []⟩, ⟨"act", []⟩, ⟨"lost", []⟩]
      [⟨"act", []⟩] [⟨"rest", []⟩, ⟨"act", []⟩, ⟨"lost", []⟩] :=
    ⟨rfl, by decide, by rintro _ _ ⟨⟩; decide⟩
  have hbetween : Stock.between.Splits [⟨"rest", []⟩, ⟨"act", []⟩, ⟨"lost", []⟩] []
      [⟨"rest", []⟩, ⟨"act", []⟩, ⟨"lost", []⟩] :=
    ⟨rfl, by simp, by rintro _ _ ⟨⟩; decide⟩
  have hlowest : Stock.lowest.Splits [⟨"rest", []⟩, ⟨"act", []⟩, ⟨"lost", []⟩]
      [⟨"rest", []⟩, ⟨"act", []⟩] [⟨"lost", []⟩] :=
    ⟨rfl, by decide, by rintro _ _ ⟨⟩; decide⟩
  have hcut := Cut.handed_on hupper (.handed_on hbetween (.refused hlowest))
  obtain ⟨segments, left, _, hunique, _, _, _, hshows⟩ :=
    (delegation_moves_forward Stock.uppermost.alone Stock.uppermost _ hwithin hstacked
      [⟨"act", []⟩, ⟨"rest", []⟩, ⟨"act", []⟩, ⟨"lost", []⟩] .null .start).1
  obtain ⟨rfl, rfl⟩ := hunique _ _ hcut
  have hdrive : ∃ world', Stock.uppermost.alone.drive 0 1 (Stock.uppermost.invokeChain
      [⟨"act", []⟩, ⟨"rest", []⟩, ⟨"act", []⟩, ⟨"lost", []⟩] .null) .start =
        (.done (.error (.functionNotRegistered "lost")), world') := ⟨_, rfl⟩
  obtain ⟨world', hdrive⟩ := hdrive
  obtain ⟨rest, hrun, hdone⟩ := Towers.runs_of_drive hdrive
  obtain rfl := hdone _ rfl
  obtain ⟨events, hevents⟩ := hrun.shows
  exact ⟨hwithin, hstacked, hcut, events, world', (hshows _ _ _).mp hevents⟩

end Interpreter

end ChainExpr
