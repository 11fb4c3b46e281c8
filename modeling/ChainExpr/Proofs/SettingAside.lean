import ChainExpr.Proofs.Forwarding
import ChainExpr.Proofs.Relay

namespace ChainExpr

open Holding (Holds)

namespace Towers

/-- A step in which a chain is set aside: one of the parts has come to a partial that the creator
evaluates, and goes on with a function value whose home is the creator's. -/
inductive Creates (creator : Interpreter) (chain : Chain) :
    {α : Type} → Task α × World → Task α × World → Prop
  | here {α : Type} (context : Value) (next : Value → Task α) (world : World) :
      Creates creator chain ((creator.interpret (.deferred chain) context).bind next, world)
        (next (.function (.deferred creator.home world.serial chain)), world.take)
  | left {α β γ : Type} {mode : JoinMode} {left left' : Task β} {world world' : World} (right : Task γ)
      (next : Except RuntimeError (β × γ) → Task α)
      (creates : Creates creator chain (left, world) (left', world')) :
      Creates creator chain (.both mode left right next, world) (.both mode left' right next, world')
  | right {α β γ : Type} {mode : JoinMode} {right right' : Task γ} {world world' : World}
      (left : Task β) (next : Except RuntimeError (β × γ) → Task α)
      (creates : Creates creator chain (right, world) (right', world')) :
      Creates creator chain (.both mode left right next, world) (.both mode left right' next, world')

/-- A run in steps with the chains that are set aside on its way, and by whom, in their order. -/
inductive RunsCreating (towers : Towers) {α : Type} (start : Task α × World) :
    List (Interpreter × Chain) → Task α × World → Prop
  | refl : RunsCreating towers start [] start
  | creates {made : List (Interpreter × Chain)} {creator : Interpreter} {chain : Chain}
      {a b : Task α × World} (before : RunsCreating towers start made a) (step : towers.Step a b)
      (creates : Creates creator chain a b) : RunsCreating towers start (made ++ [(creator, chain)]) b
  | passes {made : List (Interpreter × Chain)} {a b : Task α × World}
      (before : RunsCreating towers start made a) (step : towers.Step a b)
      (none_made : b.2.serial = a.2.serial) : RunsCreating towers start made b

/-- The function values for chains that are set aside in this order, from a creation number on. -/
def created (first : Nat) (made : List (Interpreter × Chain)) : Set Callable :=
  {callee | ∃ n creator chain, made[n]? = some (creator, chain) ∧
    callee = .deferred creator.home (first + n) chain}

theorem created_nil (first : Nat) : created first [] = ∅ :=
  Set.eq_empty_of_forall_notMem fun _ ⟨_, _, _, hmade, _⟩ => nomatch hmade

theorem created_append (first : Nat) (made : List (Interpreter × Chain)) (creator : Interpreter)
    (chain : Chain) : created first (made ++ [(creator, chain)]) =
      insert (.deferred creator.home (first + made.length) chain) (created first made) := by
  ext callee
  constructor
  · rintro ⟨n, maker, aside, hmade, rfl⟩
    rw [List.getElem?_append] at hmade
    split at hmade
    · exact .inr ⟨n, maker, aside, hmade, rfl⟩
    · rw [List.getElem?_singleton] at hmade
      split at hmade
      · cases hmade
        obtain rfl : n = made.length := by omega
        exact .inl rfl
      · cases hmade
  · rintro (rfl | ⟨n, maker, aside, hmade, rfl⟩)
    · exact ⟨made.length, creator, chain, List.getElem?_concat_length, rfl⟩
    · obtain ⟨hlt, _⟩ := List.getElem?_eq_some_iff.mp hmade
      exact ⟨n, maker, aside, (List.getElem?_append_left hlt).trans hmade, rfl⟩

variable {towers : Towers} {creator interpreter : Interpreter} {chain : Chain} {α β : Type}

theorem Creates.serial {a b : Task α × World} (h : Creates creator chain a b) :
    b.2.serial = a.2.serial + 1 := by
  induction h with
  | here => rfl
  | left _ _ _ ih => exact ih
  | right _ _ _ ih => exact ih

theorem RunsCreating.serial {start state : Task α × World} {made : List (Interpreter × Chain)}
    (h : RunsCreating towers start made state) :
    state.2.serial = start.2.serial + made.length := by
  induction h with
  | refl => rfl
  | creates _ _ creates ih =>
    rw [creates.serial, ih, List.length_append, List.length_singleton, Nat.add_assoc]
  | passes _ _ none_made ih => rw [none_made, ih]

/-- A call of the function value passes on those that are known, the roots being among them. -/
def Serves (towers : Towers) (may : Interpreter → Chain → Prop) (roots : Set Callable)
    (callee : Callable) : Prop :=
  ∀ known, roots ⊆ known → ∀ context, Holds known context →
    (towers.callTask callee context).Forwards may known

/-- A step of a routine that passes on function values makes none. What it calls comes before what is left
of it. -/
theorem Step.forwards_routine [Holding α] {may : Interpreter → Chain → Prop} {roots known : Set Callable}
    (hroots : roots ⊆ known) (hserves : ∀ callee ∈ known, towers.Serves may roots callee)
    {function : String} {body : Routine} {next : Except RuntimeError Value → Task α}
    (hbody : body.Forwards known) (hnext : ∀ more, known ⊆ more → ∀ outcome, Holds more outcome →
      (next outcome).Forwards may more)
    {world : World} {state : Task α × World} (h : towers.Step (.routine function body next, world) state) :
    state.2.serial = world.serial ∧ state.1.Forwards may known := by
  cases hbody with
  | finish holds =>
    cases h
    exact ⟨rfl, hnext known subset_rfl _ holds⟩
  | wait polls later =>
    cases h with
    | elapse _ polls => exact ⟨rfl, .routine function (.wait polls later) hnext⟩
    | resume => exact ⟨rfl, .routine function later hnext⟩
  | arrive point later =>
    cases h
    exact ⟨rfl, .routine function later hnext⟩
  | await point count later =>
    cases h
    exact ⟨rfl, .routine function later hnext⟩
  | tick later =>
    cases h
    exact ⟨rfl, .routine function (later world.ticks) hnext⟩
  | @call _ callee context _ callees contexts later =>
    cases h
    have hcall : (towers.callTask callee context).Forwards may known := by
      cases callee with
      | reference name => exact .fail _
      | deferred home serial chain =>
        exact hserves _ (Holding.holds_deferred_iff.mp callees) known hroots context contexts
    refine ⟨rfl, hcall.andThen fun more hle outcome houtcome => ?_⟩
    exact .routine function (later more hle outcome houtcome) fun other hmore =>
      hnext other (hle.trans hmore)

/-- A step of a task that passes on function values either makes none or sets aside a chain that may be
set aside. -/
theorem Step.forwards [Holding α] {may : Interpreter → Chain → Prop} {roots known : Set Callable}
    (hroots : roots ⊆ known) (hserves : ∀ callee ∈ known, towers.Serves may roots callee)
    {task : Task α} (hforwards : task.Forwards may known) {world : World} {state : Task α × World}
    (h : towers.Step (task, world) state) :
    (state.2.serial = world.serial ∧ state.1.Forwards may known) ∨
      ∃ creator chain, may creator chain ∧ Creates creator chain (task, world) state ∧
        state.1.Forwards may (insert (.deferred creator.home world.serial chain) known) := by
  induction hforwards generalizing world with
  | finish holds => exact absurd h not_step_finish
  | emit entry later _ =>
    cases h
    exact .inl ⟨rfl, later⟩
  | create next sets_aside later _ =>
    cases h
    refine .inr ⟨_, _, sets_aside, .here .null next world, ?_⟩
    exact later _ (Set.subset_insert _ _) world.serial (Set.mem_insert _ _)
  | routine function bodies later _ => exact .inl (Step.forwards_routine hroots hserves bodies later h)
  | both lefts rights later ihl ihr _ =>
    cases h with
    | left _ _ step =>
      rcases ihl hroots hserves step with ⟨hserial, hleft⟩ | ⟨creator, chain, hmay, hcreates, hleft⟩
      · exact .inl ⟨hserial, .both hleft rights later⟩
      · refine .inr ⟨creator, chain, hmay, .left _ _ hcreates, ?_⟩
        exact .both hleft (rights.mono (Set.subset_insert _ _)) fun more hmore =>
          later more ((Set.subset_insert _ _).trans hmore)
    | right _ _ step =>
      rcases ihr hroots hserves step with ⟨hserial, hright⟩ | ⟨creator, chain, hmay, hcreates, hright⟩
      · exact .inl ⟨hserial, .both lefts hright later⟩
      · refine .inr ⟨creator, chain, hmay, .right _ _ hcreates, ?_⟩
        exact .both (lefts.mono (Set.subset_insert _ _)) hright fun more hmore =>
          later more ((Set.subset_insert _ _).trans hmore)
    | joined a b =>
      cases lefts with
      | finish holds =>
        cases rights with
        | finish holds' =>
          exact .inl ⟨rfl, later _ subset_rfl _ (Holding.holds_ok ⟨holds a rfl, holds' b rfl⟩)⟩
    | left_failed error => exact .inl ⟨rfl, later _ subset_rfl _ (Holding.holds_error error)⟩
    | right_failed error => exact .inl ⟨rfl, later _ subset_rfl _ (Holding.holds_error error)⟩

/-- Along a run of a task that passes on function values, there are only the roots and those for chains
that have been set aside. -/
theorem Runs.creating [Holding α] {may : Interpreter → Chain → Prop} {roots : Set Callable}
    {start state : Task α × World} (h : towers.Runs start state)
    (hserves : ∀ callee ∈ roots, towers.Serves may roots callee)
    (hmay : ∀ creator chain, may creator chain →
      ∀ serial, towers.Serves may roots (.deferred creator.home serial chain))
    (hforwards : start.1.Forwards may roots) :
    ∃ made, RunsCreating towers start made state ∧ (∀ entry ∈ made, may entry.1 entry.2) ∧
      state.1.Forwards may (roots ∪ created start.2.serial made) := by
  induction h with
  | refl =>
    refine ⟨[], .refl, by simp, ?_⟩
    rw [created_nil, Set.union_empty]
    exact hforwards
  | @tail a b _ step ih =>
    obtain ⟨made, hrun, hmade, hforwards⟩ := ih
    have hknown : ∀ callee ∈ roots ∪ created start.2.serial made, towers.Serves may roots callee := by
      rintro callee (hroot | ⟨n, creator, chain, hentry, rfl⟩)
      · exact hserves callee hroot
      · exact hmay creator chain (hmade _ (List.mem_of_getElem? hentry)) _
    rcases Step.forwards Set.subset_union_left hknown hforwards step with
      ⟨hserial, hnext⟩ | ⟨creator, chain, hchain, hcreates, hnext⟩
    · exact ⟨made, .passes hrun step hserial, hmade, hnext⟩
    · refine ⟨made ++ [(creator, chain)], .creates hrun step hcreates, ?_, ?_⟩
      · exact List.forall_mem_append.mpr ⟨hmade, List.forall_mem_singleton.mpr hchain⟩
      · rw [created_append, Set.union_insert, ← hrun.serial]
        exact hnext

theorem Within.callTask (h : towers.Within creator) (serial : Nat) (chain : Chain) (context : Value) :
    towers.callTask (.deferred creator.home serial chain) context =
      creator.interpret (.expression chain) context := by
  rw [Towers.callTask, h.resident]
  exact Interpreter.invokeChain_eq creator chain context

/-- A chain that a node comes to set aside passes on function values when it is called. -/
theorem Forwards.serves {roots : Set Callable} {node : Node} (h : towers.Forwards roots)
    (hwithin : towers.Within creator) (haside : towers.SetsAside roots interpreter node creator chain)
    (serial : Nat) :
    towers.Serves (towers.SetsAside roots interpreter node) roots
      (.deferred creator.home serial chain) := by
  intro known hroots context hcontext
  rw [hwithin.callTask]
  exact h.interpret hwithin _ (.called haside) hroots hcontext

theorem Forwards.serves_root {roots : Set Callable} {node : Node} (h : towers.Forwards roots)
    {callee : Callable} (hroot : callee ∈ roots) :
    towers.Serves (towers.SetsAside roots interpreter node) roots callee := by
  intro known hroots context hcontext
  cases callee with
  | reference name => exact .fail _
  | deferred home serial chain =>
    rw [callTask, Interpreter.invokeChain_eq]
    exact h.interpret (within_resident home) (.expression chain) (.called (.root hroot)) hroots hcontext

/-- What a call comes to is what the called chain comes to and then what the caller makes of it. -/
theorem shows_call_finish {function : String} {callee : Callable} {given : Value}
    {body : Except RuntimeError Value → Routine} {after : Except RuntimeError Value → Task α}
    {world world' : World} {events : List Event} {outcome : Except RuntimeError α} :
    towers.Shows (.routine function (.call callee given body) after, world) events
        (.finish outcome, world') ↔
      ∃ result middle first later, events = first ++ later ∧
        towers.Shows (towers.callTask callee given, world) first (.finish result, middle) ∧
        towers.Shows (.routine function (body result) after, middle) later (.finish outcome, world') := by
  rw [← shows_andThen_finish]
  constructor
  · rintro ⟨hrun, hhistory⟩
    rcases Relation.ReflTransGen.cases_head hrun with hsame | ⟨state, hstep, hrest⟩
    · cases hsame
    · cases hstep
      exact ⟨hrest, hhistory⟩
  · rintro ⟨hrun, hhistory⟩
    exact ⟨(Step.call function callee given body after world).then hrun, hhistory⟩

/-- Setting a chain aside takes a creation number and does nothing else. -/
theorem shows_deferred {context : Value} {world world' : World} {events : List Event}
    {outcome : Except RuntimeError Value} :
    towers.Shows (creator.interpret (.deferred chain) context, world) events (.finish outcome, world') ↔
      events = [] ∧ outcome = .ok (.function (.deferred creator.home world.serial chain)) ∧
        world' = world.take := by
  have hstep : towers.Step (creator.interpret (.deferred chain) context, world)
      (.ok (.function (.deferred creator.home world.serial chain)), world.take) := .create _ world
  constructor
  · rintro ⟨hrun, hhistory⟩
    rcases Relation.ReflTransGen.cases_head hrun with hsame | ⟨state, hfirst, hrest⟩
    · cases hsame
    · cases hfirst
      cases Runs.of_finish hrest
      exact ⟨List.self_eq_append_right.mp hhistory, rfl, rfl⟩
  · rintro ⟨rfl, rfl, rfl⟩
    exact ⟨hstep.runs, (List.append_nil _).symm⟩

/-- The partials of an interpreter are bound to it. Evaluating one runs nothing, whatever the context is;
and whichever routine calls the function value that comes of it, in whatever world, runs the chain on that
interpreter, and goes on with what comes of that. -/
structure Binds (towers : Towers) (creator : Interpreter) : Prop where
  evaluated : ∀ chain context world events outcome world',
    towers.Shows (creator.interpret (.deferred chain) context, world) events (.finish outcome, world') ↔
      events = [] ∧ outcome = .ok (.function (.deferred creator.home world.serial chain)) ∧
        world' = world.take
  enters : ∀ {α : Type} function serial chain given body (after : Except RuntimeError Value → Task α)
      world state,
    towers.Step (.routine function (.call (.deferred creator.home serial chain) given body) after, world)
        state ↔
      state = ((creator.interpret (.expression chain) given).andThen fun result =>
        .routine function (body result) after, world)
  called : ∀ {α : Type} function serial chain given body (after : Except RuntimeError Value → Task α)
      world events outcome world',
    towers.Shows (.routine function (.call (.deferred creator.home serial chain) given body) after, world)
        events (.finish outcome, world') ↔
      ∃ result middle first later, events = first ++ later ∧
        towers.Shows (creator.interpret (.expression chain) given, world) first
          (.finish result, middle) ∧
        towers.Shows (.routine function (body result) after, middle) later (.finish outcome, world')

theorem Within.binds (h : towers.Within creator) : towers.Binds creator where
  evaluated _ _ _ _ _ _ := shows_deferred
  enters function serial chain given body after world state := by
    constructor
    · intro hstep
      cases hstep
      rw [h.callTask]
    · rintro rfl
      rw [← h.callTask serial]
      exact .call function _ given body after world
  called function serial chain given body after world events outcome world' := by
    rw [shows_call_finish, h.callTask]

/-- Partials are bound to the interpreter that evaluates them, and those in links that are handed over to
the one that they are handed to. If implementations, conversions and hosts only pass on function values,
then all that an evaluation calls or comes to are names, function values that were there before, and
chains that it has set aside, each of them by the interpreter that evaluates its partial. -/
theorem partials_bound (towers : Towers) (interpreter : Interpreter) (within : towers.Within interpreter) :
    towers.Binds interpreter ∧
    (∀ equipment fallback, interpreter = .mk equipment (.delegating fallback) →
      towers.Binds fallback ∧ ∀ link later given, interpreter.functions.lookup link.function = none →
        interpreter.interpret (.expression (link :: later)) given =
          Task.emitAll (Interpreter.handing (.delegating fallback.home) link later given
            (.delegating link.function (later.length + 1)))
            (fallback.interpret (.expression (link :: later)) given)) ∧
    ∀ roots, towers.Forwards roots → ∀ node context, Holds roots context → ∀ world state,
      towers.Runs (interpreter.interpret node context, world) state →
        ∃ made, RunsCreating towers (interpreter.interpret node context, world) made state ∧
          (∀ creator chain, (creator, chain) ∈ made → towers.Binds creator ∧
            towers.Evaluates roots interpreter node creator (.deferred chain)) ∧
          (∀ {β : Type} function callee given body (after : Except RuntimeError Value → Task β),
            Task.Part (.routine function (.call callee given body) after) state.1 →
              (∃ name, callee = .reference name) ∨ callee ∈ roots ∪ created world.serial made) ∧
          ∀ value, state.1 = .ok value → Holds (roots ∪ created world.serial made) value := by
  refine ⟨within.binds, ?_, ?_⟩
  · rintro equipment fallback rfl
    refine ⟨within.under.binds, fun link later given hlookup => ?_⟩
    have hbelow : fallback.interpret (.expression (link :: later)) given =
        fallback.invokeChain (link :: later) given := (Interpreter.invokeChain_eq _ _ _).symm
    rw [hbelow]
    exact Interpreter.invokeChain_unknown hlookup later given
  · intro roots hforwards node context hcontext world state hrun
    obtain ⟨made, hcreating, hmade, hreached⟩ := hrun.creating (fun callee => hforwards.serves_root)
      (fun _ _ haside serial => hforwards.serves (Evaluates.within within haside) haside serial)
      (hforwards.interpret within node .start subset_rfl hcontext)
    refine ⟨made, hcreating, fun creator chain hentry => ?_, ?_, ?_⟩
    · have haside : towers.Evaluates roots interpreter node creator (.deferred chain) := hmade _ hentry
      exact ⟨(haside.within within).binds, haside⟩
    · intro β function callee given body after hpart
      cases Task.Forwards.of_part hpart hreached with
      | call callees _ _ =>
        cases callee with
        | reference name => exact .inl ⟨name, rfl⟩
        | deferred home serial chain => exact .inr (Holding.holds_deferred_iff.mp callees)
    · intro value hvalue
      rw [hvalue] at hreached
      cases hreached with
      | finish holds => exact holds value rfl

end Towers

namespace Stock

/-- Says where it is known. -/
def label (place : String) : FunctionDefinition :=
  { act (.constant (.string place)) with name := "label", contextTypes := none }

/-- Gives back its argument. -/
def give : FunctionDefinition :=
  { caller "give" with
    implementation := fun context arguments => (Body.argument "fn").run "give" context arguments }

def borrowing : Interpreter :=
  .mk ⟨.ofList [label "borrowing", caller "call"], .standard, .standard, 0⟩ .rejecting

def lending : Interpreter :=
  .mk ⟨.ofList [label "lending", give], .standard, .standard, 0⟩ (.delegating borrowing)

/-- A partial from above is handed on as a context and called below. -/
def lent : Node := .expression
  [⟨"give", [("fn", [.deferred [⟨"label", []⟩]])]⟩, ⟨"call", [("fn", [.expression []])]⟩]

/-- A partial is handed on in a link that only calls it. -/
def owned : Node := .expression [⟨"call", [("fn", [.deferred [⟨"label", []⟩]])]⟩]

/-- An interpreter that has nothing to do with the other two. -/
def stranger : Interpreter :=
  .mk ⟨.ofList [label "stranger", caller "call"], .standard, .standard, 1⟩ .rejecting

def neighbours : Towers :=
  lending.beside stranger
    (fun _ h => by rcases Interpreter.within_delegating_rejecting.mp h with rfl | rfl <;> rfl)
    (fun _ h => by rw [Interpreter.within_rejecting.mp h]; rfl)

/-- What the lending interpreter has set aside at some time. -/
def keepsake : Callable := .deferred lending.home 7 [⟨"label", []⟩]

theorem within_neighbours {interpreter : Interpreter} (h : neighbours.Within interpreter) :
    interpreter = lending ∨ interpreter = borrowing ∨ interpreter = stranger := by
  rcases Interpreter.within_beside.mp h with hlending | hstranger
  · rcases Interpreter.within_delegating_rejecting.mp hlending with rfl | rfl
    · exact .inl rfl
    · exact .inr (.inl rfl)
  · exact .inr (.inr (Interpreter.within_rejecting.mp hstranger))

variable (roots : Set Callable)

theorem label_forwards (place : String) : (label place).Forwards roots where
  implementation known hroots context arguments hcontext harguments :=
    Body.run_forwards hroots "act" hcontext harguments (.constant (.string place))
      (Holding.holds_of_deferreds (by simp [Value.deferreds]))
  defaults _ hentry := nomatch hentry

theorem caller_defaults (name : String) : ∀ entry ∈ (caller name).signature.arguments.entries,
    Holds roots (entry.2.default?.getD .null) := by
  intro entry hentry
  cases List.mem_singleton.mp hentry
  exact Holding.holds_null

theorem caller_forwards (name : String) : (caller name).Forwards roots where
  implementation _ hroots _ _ hcontext harguments :=
    Body.run_forwards hroots name hcontext harguments .call trivial
  defaults := caller_defaults roots name

theorem give_forwards : give.Forwards roots where
  implementation _ hroots _ _ hcontext harguments :=
    Body.run_forwards hroots "give" hcontext harguments (.argument "fn") trivial
  defaults := caller_defaults roots "give"

theorem neighbours_forwards : neighbours.Forwards roots where
  functions interpreter hwithin name definition hlookup := by
    rcases within_neighbours hwithin with rfl | rfl | rfl
    · rcases List.mem_pair.mp (FunctionRegistry.mem_of_lookup_ofList hlookup) with rfl | rfl
      · exact label_forwards roots "lending"
      · exact give_forwards roots
    · rcases List.mem_pair.mp (FunctionRegistry.mem_of_lookup_ofList hlookup) with rfl | rfl
      · exact label_forwards roots "borrowing"
      · exact caller_forwards roots "call"
    · rcases List.mem_pair.mp (FunctionRegistry.mem_of_lookup_ofList hlookup) with rfl | rfl
      · exact label_forwards roots "stranger"
      · exact caller_forwards roots "call"
  types interpreter hwithin := by
    rcases within_neighbours hwithin with rfl | rfl | rfl <;> exact TypeRegistry.standard_forwards roots
  answers equipment name answer hwithin := by
    rcases within_neighbours hwithin with hsame | hsame | hsame <;> cases hsame

end Stock

/-- The same label is called at the same place below, once made above and once made there. And what was made
above is called by a stranger, who knows another function under its name. -/
theorem Towers.partials_bound_lent :
    Stock.neighbours.Within Stock.lending ∧ Stock.neighbours.Within Stock.stranger ∧
      Stock.lending.functions.lookup "call" = none ∧ (∀ roots, Stock.neighbours.Forwards roots) ∧
      ∀ visited node context roots place, (visited, node, context, roots, place) ∈
          [(Stock.lending, Stock.lent, .null, ∅, "lending"),
            (Stock.lending, Stock.owned, .null, ∅, "borrowing"),
            (Stock.stranger, .expression Stock.callingContext, .function Stock.keepsake, {Stock.keepsake},
              "lending")] →
        ∃ made world', RunsCreating Stock.neighbours (visited.interpret node context, .start) made
            (.ok (.string place), world') ∧
          ∀ creator chain, (creator, chain) ∈ made → Stock.neighbours.Binds creator ∧
            Stock.neighbours.Evaluates roots visited node creator (.deferred chain) := by
  have hlending : Stock.neighbours.Within Stock.lending := ⟨0, .top⟩
  have hstranger : Stock.neighbours.Within Stock.stranger := ⟨1, .top⟩
  refine ⟨hlending, hstranger, rfl, Stock.neighbours_forwards, ?_⟩
  intro visited node context roots place hvisit
  have hstart : Stock.neighbours.Within visited ∧ Holds roots context ∧
      ∃ world', Stock.neighbours.drive 2 1 (visited.interpret node context) .start =
        (.done (.ok (.string place)), world') := by
    simp only [List.mem_cons, List.not_mem_nil, or_false] at hvisit
    rcases hvisit with hsame | hsame | hsame <;> cases hsame
    · exact ⟨hlending, Holding.holds_null, _, rfl⟩
    · exact ⟨hlending, Holding.holds_null, _, rfl⟩
    · exact ⟨hstranger, Holding.holds_deferred_iff.mpr rfl, _, rfl⟩
  obtain ⟨hwithin, hcontext, world', hdrive⟩ := hstart
  obtain ⟨rest, hrun, hdone⟩ := runs_of_drive hdrive
  obtain rfl := hdone _ rfl
  obtain ⟨_, _, hruns⟩ := partials_bound Stock.neighbours visited hwithin
  obtain ⟨made, hcreating, hmade, _⟩ :=
    hruns roots (Stock.neighbours_forwards roots) node context hcontext .start _ hrun
  exact ⟨made, world', hcreating, hmade⟩

end ChainExpr
