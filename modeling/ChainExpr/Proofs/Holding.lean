import ChainExpr.Interpreter.Run
import ChainExpr.Proofs.Policy
import ChainExpr.Proofs.Related
import Mathlib.Data.Set.Insert

namespace ChainExpr

namespace Value

mutual

/-- The deferred chains in a value, in their order. -/
def deferreds : Value → List Callable
  | .object fields => fieldDeferreds fields
  | .function (.deferred home serial chain) => [.deferred home serial chain]
  | .render _ value => value.deferreds
  | _ => []

def fieldDeferreds : List (String × Value) → List Callable
  | [] => []
  | (_, value) :: rest => value.deferreds ++ fieldDeferreds rest

end

end Value

/-- Data that may hold function values, and when all those it holds are known. -/
class Holding (α : Type) where
  Holds : Set Callable → α → Prop
  mono : ∀ {known more : Set Callable} {a : α}, known ⊆ more → Holds known a → Holds more a

open Holding (Holds)

namespace Holding

variable {α β ε : Type}

instance : Holding Value where
  Holds known value := ∀ callee ∈ value.deferreds, callee ∈ known
  mono hle h callee hcallee := hle (h callee hcallee)

instance [Holding α] [Holding β] : Holding (α × β) where
  Holds known a := Holds known a.1 ∧ Holds known a.2
  mono hle h := ⟨mono hle h.1, mono hle h.2⟩

instance [Holding α] : Holding (List α) where
  Holds known values := ∀ a ∈ values, Holds known a
  mono hle h a ha := mono hle (h a ha)

instance [Holding α] : Holding (OrderedMap α) where
  Holds known map := ∀ entry ∈ map.entries, Holds known entry.2
  mono hle h entry hentry := mono hle (h entry hentry)

instance [Holding α] : Holding (Except ε α) where
  Holds known outcome := ∀ a, outcome = .ok a → Holds known a
  mono hle h a ha := mono hle (h a ha)

instance : Holding ArgumentValue where
  Holds known
    | .single value => Holds known value
    | .multi values => Holds known values
  mono {known more argument} hle h := by
    cases argument with
    | single value => exact mono hle h
    | multi values => exact mono hle h

variable {known : Set Callable}

theorem holds_ok [Holding α] {a : α} (h : Holds known a) : Holds known (Except.ok a : Except ε α) := by
  rintro _ ⟨⟩
  exact h

theorem holds_error [Holding α] (error : ε) : Holds known (Except.error error : Except ε α) := by
  rintro _ ⟨⟩

theorem holds_nil [Holding α] : Holds known ([] : List α) := by
  rintro _ ⟨⟩

theorem holds_cons [Holding α] {a : α} {rest : List α} (h : Holds known a) (hrest : Holds known rest) :
    Holds known (a :: rest) := List.forall_mem_cons.mpr ⟨h, hrest⟩

theorem holds_concat [Holding α] {rest : List α} {a : α} (hrest : Holds known rest) (h : Holds known a) :
    Holds known (rest ++ [a]) :=
  List.forall_mem_append.mpr ⟨hrest, List.forall_mem_singleton.mpr h⟩

/-- A list holds only what is known if it is related to itself so. -/
theorem holds_iff_related [Holding α] {values : List α} :
    Holds known values ↔ List.Forall₂ (fun a _ => Holds known a) values values :=
  (@List.forall₂_same _ (fun a _ => Holds known a) _).symm

/-- A value without deferred chains holds nothing that would have to be known. -/
theorem holds_of_deferreds {value : Value} (h : value.deferreds = []) : Holds known value := by
  intro callee hcallee
  rw [h] at hcallee
  cases hcallee

theorem holds_null : Holds known Value.null := holds_of_deferreds (by simp [Value.deferreds])

theorem holds_deferred_iff {home : Home} {serial : Nat} {chain : Chain} :
    Holds known (Value.function (.deferred home serial chain)) ↔
      .deferred home serial chain ∈ known := by
  change (∀ callee ∈ Value.deferreds _, callee ∈ known) ↔ _
  rw [Value.deferreds]
  exact List.forall_mem_singleton

theorem holds_object_iff {fields : List (String × Value)} :
    Holds known (Value.object fields) ↔ ∀ field ∈ fields, Holds known field.2 := by
  change (∀ callee ∈ Value.deferreds _, callee ∈ known) ↔ _
  rw [Value.deferreds]
  induction fields with
  | nil => simp [Value.fieldDeferreds]
  | cons field rest ih =>
    rw [Value.fieldDeferreds, List.forall_mem_append, ih, List.forall_mem_cons]
    rfl

theorem holds_render_iff {renderer : String} {value : Value} :
    Holds known (Value.render renderer value) ↔ Holds known value := by
  change (∀ callee ∈ Value.deferreds _, callee ∈ known) ↔ _
  rw [Value.deferreds]
  rfl

theorem holds_get? [Holding α] {map : OrderedMap α} {name : String} {a : α}
    (h : Holds known map) (hget : map.get? name = some a) : Holds known a := by
  rw [OrderedMap.get?, List.lookup_eq_some_iff] at hget
  obtain ⟨before, after, hentries, _⟩ := hget
  exact h (name, a) (hentries ▸ by simp)

theorem holds_single? {arguments : Arguments} {name : String} {value : Value}
    (h : Holds known arguments) (hsingle : arguments.single? name = some value) : Holds known value := by
  rw [Arguments.single?] at hsingle
  split at hsingle
  · rename_i hget
    cases hsingle
    have hargument : Holds known (ArgumentValue.single value) := holds_get? h hget
    exact hargument
  · cases hsingle

theorem holds_multi? {arguments : Arguments} {name : String} {values : List Value}
    (h : Holds known arguments) (hmulti : arguments.multi? name = some values) : Holds known values := by
  rw [Arguments.multi?] at hmulti
  split at hmulti
  · rename_i hget
    cases hmulti
    have hargument : Holds known (ArgumentValue.multi values) := holds_get? h hget
    exact hargument
  · cases hmulti

theorem holds_empty [Holding α] : Holds known (∅ : OrderedMap α) := by
  rintro _ ⟨⟩

theorem holds_insert [Holding α] {map : OrderedMap α} {name : String} {a : α}
    (hmap : Holds known map) (h : Holds known a) : Holds known (map.insert name a) := by
  have hinsert : ∀ entries : List (String × α), (∀ entry ∈ entries, Holds known entry.2) →
      ∀ entry ∈ Entries.insert name a entries, Holds known entry.2 := by
    intro entries
    induction entries with
    | nil =>
      intro _
      exact List.forall_mem_singleton.mpr h
    | cons first rest ih =>
      obtain ⟨key, old⟩ := first
      intro hentries
      obtain ⟨hfirst, hrest⟩ := List.forall_mem_cons.mp hentries
      rw [Entries.insert]
      split
      · exact List.forall_mem_cons.mpr ⟨h, hrest⟩
      · exact List.forall_mem_cons.mpr ⟨hfirst, ih hrest⟩
  exact hinsert map.entries hmap

end Holding

/-- The routine has no function values but those that are known and those that its calls come to. -/
inductive Routine.Forwards : Set Callable → Routine → Prop
  | finish {known : Set Callable} {outcome : Except RuntimeError Value} (holds : Holds known outcome) :
      Forwards known (.finish outcome)
  | wait {known : Set Callable} {next : Routine} (polls : Nat) (later : Forwards known next) :
      Forwards known (.wait polls next)
  | arrive {known : Set Callable} {next : Routine} (point : String) (later : Forwards known next) :
      Forwards known (.arrive point next)
  | await {known : Set Callable} {next : Routine} (point : String) (count : Nat)
      (later : Forwards known next) : Forwards known (.await point count next)
  | tick {known : Set Callable} {next : Nat → Routine}
      (later : ∀ before, Forwards known (next before)) : Forwards known (.tick next)
  | call {known : Set Callable} {callee : Callable} {context : Value}
      {next : Except RuntimeError Value → Routine} (callees : Holds known (Value.function callee))
      (contexts : Holds known context)
      (later : ∀ more, known ⊆ more → ∀ outcome, Holds more outcome → Forwards more (next outcome)) :
      Forwards known (.call callee context next)

theorem Routine.Forwards.mono {known more : Set Callable} {body : Routine} (hle : known ⊆ more)
    (h : body.Forwards known) : body.Forwards more := by
  induction h with
  | finish holds => exact .finish (Holding.mono hle holds)
  | wait polls _ ih => exact .wait polls (ih hle)
  | arrive point _ ih => exact .arrive point (ih hle)
  | await point count _ ih => exact .await point count (ih hle)
  | tick _ ih => exact .tick fun before => ih before hle
  | call callees contexts later _ =>
    exact .call (Holding.mono hle callees) (Holding.mono hle contexts) fun other hmore =>
      later other (hle.trans hmore)

/-- The task has no function values but those that are known, those that its calls come to and the chains
that it sets aside, each of which may be set aside by the interpreter that does so. -/
inductive Task.Forwards (may : Interpreter → Chain → Prop) :
    {α : Type} → [Holding α] → Set Callable → Task α → Prop
  | finish {α : Type} [Holding α] {known : Set Callable} {outcome : Except RuntimeError α}
      (holds : Holds known outcome) : Forwards may known (.finish outcome)
  | emit {α : Type} [Holding α] {known : Set Callable} {next : Task α} (entry : Event)
      (later : Forwards may known next) : Forwards may known (.emit entry next)
  | create {α : Type} [Holding α] {known : Set Callable} {interpreter : Interpreter} {chain : Chain}
      (next : Value → Task α) (sets_aside : may interpreter chain)
      (later : ∀ more, known ⊆ more → ∀ serial, .deferred interpreter.home serial chain ∈ more →
        Forwards may more (next (.function (.deferred interpreter.home serial chain)))) :
      Forwards may known
        (.create fun serial => next (.function (.deferred interpreter.home serial chain)))
  | routine {α : Type} [Holding α] {known : Set Callable} {body : Routine}
      {next : Except RuntimeError Value → Task α} (function : String) (bodies : body.Forwards known)
      (later : ∀ more, known ⊆ more → ∀ outcome, Holds more outcome →
        Forwards may more (next outcome)) : Forwards may known (.routine function body next)
  | both {α β γ : Type} [Holding α] [Holding β] [Holding γ] {mode : JoinMode} {known : Set Callable}
      {left : Task β} {right : Task γ} {next : Except RuntimeError (β × γ) → Task α}
      (lefts : Forwards may known left) (rights : Forwards may known right)
      (later : ∀ more, known ⊆ more → ∀ outcome, Holds more outcome →
        Forwards may more (next outcome)) : Forwards may known (.both mode left right next)

namespace Task.Forwards

variable {α β γ : Type} [Holding α] [Holding β] {may : Interpreter → Chain → Prop}
  {known more : Set Callable}

theorem mono {task : Task α} (h : task.Forwards may known) (hle : known ⊆ more) :
    task.Forwards may more := by
  induction h with
  | finish holds => exact .finish (Holding.mono hle holds)
  | emit entry _ ih => exact .emit entry (ih hle)
  | create next sets_aside later _ =>
    exact .create next sets_aside fun other hmore => later other (hle.trans hmore)
  | routine function bodies later _ =>
    exact .routine function (bodies.mono hle) fun other hmore => later other (hle.trans hmore)
  | both _ _ later ihl ihr _ =>
    exact .both (ihl hle) (ihr hle) fun other hmore => later other (hle.trans hmore)

theorem andThen {task : Task α} {next : Except RuntimeError α → Task β} (h : task.Forwards may known)
    (hnext : ∀ more, known ⊆ more → ∀ outcome, Holds more outcome →
      (next outcome).Forwards may more) : (task.andThen next).Forwards may known := by
  induction h with
  | finish holds => exact hnext _ subset_rfl _ holds
  | emit entry _ ih => exact .emit entry (ih hnext)
  | create rest sets_aside _ ih =>
    refine .create (fun value => (rest value).andThen next) sets_aside ?_
    intro more hle serial hserial
    exact ih more hle serial hserial fun other hmore => hnext other (hle.trans hmore)
  | routine function bodies _ ih =>
    refine .routine function bodies fun more hle outcome houtcome => ?_
    exact ih more hle outcome houtcome fun other hmore => hnext other (hle.trans hmore)
  | both lefts rights _ _ _ ih =>
    refine .both lefts rights fun more hle outcome houtcome => ?_
    exact ih more hle outcome houtcome fun other hmore => hnext other (hle.trans hmore)

theorem ok {a : α} (h : Holds known a) : (Task.ok a).Forwards may known := .finish (Holding.holds_ok h)

theorem fail (error : RuntimeError) : (Task.fail error : Task α).Forwards may known :=
  .finish (Holding.holds_error error)

theorem bind {task : Task α} {next : α → Task β} (h : task.Forwards may known)
    (hnext : ∀ more, known ⊆ more → ∀ a, Holds more a → (next a).Forwards may more) :
    (task.bind next).Forwards may known := by
  apply h.andThen
  intro more hle outcome houtcome
  cases outcome with
  | ok a => exact hnext more hle a (houtcome a rfl)
  | error error => exact fail error

theorem onError {task : Task α} {entry : RuntimeError → LogEntry} (h : task.Forwards may known) :
    (task.onError entry).Forwards may known := by
  apply h.andThen
  intro more _ outcome houtcome
  cases outcome with
  | ok a => exact ok (houtcome a rfl)
  | error error => exact .emit _ (fail error)

theorem emitAll (events : List Event) {task : Task α} (h : task.Forwards may known) :
    (Task.emitAll events task).Forwards may known := by
  induction events with
  | nil => exact h
  | cons entry rest ih => exact .emit entry ih

theorem cast {types : TypeRegistry} {value : Value} {acceptable : List TypeName}
    {next : Except CastError Value → Task α}
    (h : (next (types.cast value acceptable).2).Forwards may known) :
    (Task.cast types value acceptable next).Forwards may known := emitAll _ h

theorem join {tasks : List (Task α)} (h : ∀ task ∈ tasks, task.Forwards may known) :
    (Task.join tasks).Forwards may known := by
  refine Task.join_induction (ok Holding.holds_nil) ?cons ?append h
  case cons =>
    intro task rest htask hrest
    refine .both htask hrest fun more _ outcome houtcome => ?_
    cases outcome with
    | ok both => exact ok (Holding.holds_cons (houtcome both rfl).1 (houtcome both rfl).2)
    | error error => exact fail error
  case append =>
    intro before task hbefore htask
    refine .both hbefore htask fun more _ outcome houtcome => ?_
    cases outcome with
    | ok both => exact ok (Holding.holds_concat (houtcome both rfl).1 (houtcome both rfl).2)
    | error error => exact fail error

/-- The routines of all parts have no other function values either. -/
theorem of_part {δ ε : Type} {task : Task δ} {function : String} {body : Routine}
    {next : Except RuntimeError Value → Task ε} (hpart : Part (.routine function body next) task) :
    ∀ [Holding δ], task.Forwards may known → body.Forwards known := by
  generalize hroutine : Task.routine function body next = part at hpart
  induction hpart with
  | whole task =>
    subst hroutine
    intro _ h
    cases h with
    | routine _ bodies _ => exact bodies
  | left right rest _ ih =>
    intro _ h
    cases h with
    | both lefts _ _ => exact ih hroutine lefts
  | right left rest _ ih =>
    intro _ h
    cases h with
    | both _ rights _ => exact ih hroutine rights

end Task.Forwards

end ChainExpr
