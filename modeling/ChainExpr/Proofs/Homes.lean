import ChainExpr.Proofs.Conversions
import ChainExpr.Proofs.Likeness
import ChainExpr.Proofs.Related
import ChainExpr.Evaluation.Event

namespace ChainExpr

variable {move : Home → Home}

/-- If only one home is moved, to another one, then two that come to one place are the same or those two. -/
theorem Home.cases_of_moved {first second home home' : Home}
    (h : (if home = first then second else home) = if home' = first then second else home') :
    home = home' ∨ (home = first ∧ home' = second) ∨ (home = second ∧ home' = first) := by
  split at h <;> split at h <;> simp_all

namespace Callable

/-- A deferred chain with its home moved. -/
def rehomed (move : Home → Home) : Callable → Callable
  | .deferred home serial chain => .deferred (move home) serial chain
  | .reference name => .reference name

/-- The same function value, once homes are moved. -/
def Kin (move : Home → Home) (a b : Callable) : Prop := a.rehomed move = b.rehomed move

theorem Kin.symm {a b : Callable} (h : a.Kin move b) : b.Kin move a := Eq.symm h

/-- Kin function values are one creation of one chain, or one name. -/
theorem Kin.cases {a b : Callable} (h : a.Kin move b) :
    (∃ home home' serial chain, a = .deferred home serial chain ∧ b = .deferred home' serial chain ∧
      move home = move home') ∨
    ∃ name, a = .reference name ∧ b = .reference name := by
  cases a with
  | deferred home serial chain =>
    cases b with
    | deferred home' serial' chain' =>
      obtain ⟨hhome, rfl, rfl⟩ := Callable.deferred.inj h
      exact .inl ⟨home, home', serial, chain, rfl, rfl, hhome⟩
    | reference name => cases h
  | reference name =>
    cases b with
    | deferred home serial chain => cases h
    | reference name' =>
      obtain rfl := Callable.reference.inj h
      exact .inr ⟨name, rfl, rfl⟩

end Callable

/-- Values of this type hold no function values. -/
def TypeName.plain : TypeName → Bool
  | .object | .function | .render => false
  | _ => true

namespace Value

mutual

/-- A value with the homes of all its function values moved. -/
def rehomed (move : Home → Home) : Value → Value
  | .object fields => .object (rehomedFields move fields)
  | .function callable => .function (callable.rehomed move)
  | .render renderer value => .render renderer (value.rehomed move)
  | .null => .null
  | .boolean b => .boolean b
  | .number x => .number x
  | .string s => .string s
  | .datatable table => .datatable table
  | .pointseries series => .pointseries series

def rehomedFields (move : Home → Home) : List (String × Value) → List (String × Value)
  | [] => []
  | (name, value) :: rest => (name, value.rehomed move) :: rehomedFields move rest

end

/-- The same value, once homes are moved. -/
def Kin (move : Home → Home) (a b : Value) : Prop := a.rehomed move = b.rehomed move

theorem type_rehomed (move : Home → Home) (value : Value) : (value.rehomed move).type = value.type := by
  cases value <;> rw [rehomed] <;> rfl

theorem rehomed_of_plain (move : Home → Home) {value : Value} (h : value.type.plain = true) :
    value.rehomed move = value := by
  cases value with
  | object fields => cases h
  | function callable => cases h
  | render renderer value => cases h
  | _ => rw [rehomed]

namespace Kin

variable {a b : Value}

theorem refl (value : Value) : value.Kin move value := rfl

theorem symm (h : a.Kin move b) : b.Kin move a := Eq.symm h

theorem type (h : a.Kin move b) : a.type = b.type := by
  have hmoved : a.rehomed move = b.rehomed move := h
  rw [← type_rehomed move a, hmoved, type_rehomed]

theorem eq_of_plain (h : a.Kin move b) (hplain : a.type.plain = true) : a = b := by
  have hplain' : b.type.plain = true := h.type ▸ hplain
  rw [← rehomed_of_plain move hplain, ← rehomed_of_plain move hplain']
  exact h

theorem function_iff {callee callee' : Callable} :
    (function callee).Kin move (function callee') ↔ callee.Kin move callee' := by
  rw [Kin, rehomed, rehomed, function.injEq, Callable.Kin]

theorem callable? (h : a.Kin move b) :
    Option.Rel (Callable.Kin move) a.callable? b.callable? := by
  cases a with
  | function callee =>
    cases b with
    | function callee' => exact .some (function_iff.mp h)
    | _ => cases h.type
  | _ =>
    cases b with
    | function callee' => cases h.type
    | _ => exact .none

end Kin

end Value

/-- Two outcomes with related values, or with the same error. -/
inductive OutcomeKin {α ε : Type} (kin : α → α → Prop) : Except ε α → Except ε α → Prop
  | ok {a b : α} (values : kin a b) : OutcomeKin kin (.ok a) (.ok b)
  | error (error : ε) : OutcomeKin kin (.error error) (.error error)

namespace OutcomeKin

variable {α ε : Type} {kin kin' : α → α → Prop} {outcome outcome' : Except ε α}

theorem refl (hkin : ∀ a, kin a a) (outcome : Except ε α) : OutcomeKin kin outcome outcome := by
  cases outcome with
  | ok a => exact .ok (hkin a)
  | error error => exact .error error

theorem imp (hle : ∀ a b, kin a b → kin' a b) (h : OutcomeKin kin outcome outcome') :
    OutcomeKin kin' outcome outcome' := by
  cases h with
  | ok values => exact .ok (hle _ _ values)
  | error error => exact .error error

theorem flip (h : OutcomeKin kin outcome outcome') :
    OutcomeKin (fun a b => kin b a) outcome' outcome := by
  cases h with
  | ok values => exact .ok values
  | error error => exact .error error

end OutcomeKin

/-- The same arguments, once homes are moved. -/
def Arguments.Kin (move : Home → Home) (arguments arguments' : Arguments) : Prop :=
  Entries.Related (ArgumentLike (Value.Kin move)) arguments.entries arguments'.entries

/-- The same conversion, tried on kin values. -/
structure Attempt.Kin (move : Home → Home) (a b : Attempt) : Prop where
  side : a.side = b.side
  source : a.source = b.source
  target : a.target = b.target
  value : a.value.Kin move b.value
  reported : a.reported = b.reported

/-- The same event, once homes are moved. -/
inductive Event.Kin (move : Home → Home) : Event → Event → Prop
  | call (function : String) {context context' : Value} {arguments arguments' : Arguments}
      (contexts : context.Kin move context') (given : arguments.Kin move arguments') :
      Kin move (.call function context arguments) (.call function context' arguments')
  | resume (function : String) : Kin move (.resume function) (.resume function)
  | conversion {attempt attempt' : Attempt} (attempts : attempt.Kin move attempt') :
      Kin move (.conversion attempt) (.conversion attempt')
  | request (host : HostKind) (chain : Chain) {context context' : Value}
      (contexts : context.Kin move context') :
      Kin move (.request host chain context) (.request host chain context')
  | log (entry : LogEntry) : Kin move (.log entry) (.log entry)

theorem Arguments.Kin.symm {arguments arguments' : Arguments} (h : arguments.Kin move arguments') :
    arguments'.Kin move arguments := by
  have hvalue {a b : ArgumentValue} (hkin : ArgumentLike (Value.Kin move) a b) :
      ArgumentLike (Value.Kin move) b a := by
    cases hkin with
    | single values => exact .single values.symm
    | multi values => exact .multi (List.Forall₂.flip (values.imp fun _ _ => Value.Kin.symm))
  exact List.Forall₂.flip (h.imp fun _ _ hentry => ⟨hentry.1.symm, hvalue hentry.2⟩)

theorem Arguments.Kin.single? {arguments arguments' : Arguments} (h : arguments.Kin move arguments')
    (name : String) :
    Option.Rel (Value.Kin move) (Arguments.single? arguments name)
      (Arguments.single? arguments' name) := by
  have hfound := Entries.Related.lookup h name
  rw [Arguments.single?, Arguments.single?, OrderedMap.get?, OrderedMap.get?]
  generalize arguments.entries.lookup name = found at hfound ⊢
  generalize arguments'.entries.lookup name = found' at hfound ⊢
  cases hfound with
  | none => exact .none
  | some hvalue =>
    cases hvalue with
    | single values => exact .some values
    | multi values => exact .none

theorem Arguments.Kin.callable? {arguments arguments' : Arguments}
    (h : arguments.Kin move arguments') (name : String) :
    Option.Rel (Callable.Kin move) (Arguments.callable? arguments name)
      (Arguments.callable? arguments' name) := by
  have hfound := h.single? name
  rw [Arguments.callable?, Arguments.callable?]
  generalize Arguments.single? arguments name = found at hfound ⊢
  generalize Arguments.single? arguments' name = found' at hfound ⊢
  cases hfound with
  | none => exact .none
  | some values => exact values.callable?

theorem Event.Kin.symm {entry entry' : Event} (h : entry.Kin move entry') :
    entry'.Kin move entry := by
  cases h with
  | call function contexts given => exact .call function contexts.symm given.symm
  | resume function => exact .resume function
  | conversion attempts =>
    exact .conversion ⟨attempts.side.symm, attempts.source.symm, attempts.target.symm,
      attempts.value.symm, attempts.reported.symm⟩
  | request host chain contexts => exact .request host chain contexts.symm
  | log entry => exact .log entry

/-- The conversion makes no difference between homes that are moved to one place. -/
def Conversion.Portable (move : Home → Home) (conversion : Conversion) : Prop :=
  ∀ a b, Value.Kin move a b →
    OutcomeKin (Value.Kin move) (conversion.convert a) (conversion.convert b)

/-- No conversion in the registry makes a difference between homes that are moved to one place. -/
def TypeRegistry.Portable (move : Home → Home) (types : TypeRegistry) : Prop :=
  types.Each fun conversion _ => conversion.Portable move

namespace TypeRegistry

/-- The same attempts and the same outcome, once homes are moved. -/
inductive FoundKin {ε : Type} (move : Home → Home) :
    List Attempt × Except ε Value → List Attempt × Except ε Value → Prop
  | mk {attempts attempts' : List Attempt} {outcome outcome' : Except ε Value}
      (tried : List.Forall₂ (Attempt.Kin move) attempts attempts')
      (outcomes : OutcomeKin (Value.Kin move) outcome outcome') :
      FoundKin move (attempts, outcome) (attempts', outcome')

variable {types : TypeRegistry} {value value' : Value}

theorem tryConversions_kin (h : value.Kin move value') (target : TypeName)
    {conversions : List (Side × Conversion)}
    (hportable : ∀ entry ∈ conversions, entry.2.Portable move) :
    FoundKin move (tryConversions value target conversions)
      (tryConversions value' target conversions) := by
  induction conversions with
  | nil => exact .mk .nil (.error none)
  | cons entry rest ih =>
    obtain ⟨side, conversion⟩ := entry
    have hfirst := hportable (side, conversion) (by simp) value value' h
    have hrest := ih fun entry hentry => hportable entry (by simp [hentry])
    have hattempt : Attempt.Kin move ⟨side, value.type, target, value, conversion.reported⟩
        ⟨side, value'.type, target, value', conversion.reported⟩ := ⟨rfl, h.type, rfl, h, rfl⟩
    simp only [tryConversions]
    generalize conversion.convert value = first at hfirst ⊢
    generalize conversion.convert value' = first' at hfirst ⊢
    cases hfirst with
    | ok hkin => exact .mk (.cons hattempt .nil) (.ok hkin)
    | error error =>
      generalize tryConversions value target rest = found at hrest ⊢
      generalize tryConversions value' target rest = found' at hrest ⊢
      cases hrest with
      | mk tried outcomes =>
        cases outcomes with
        | ok hkin => exact .mk (.cons hattempt tried) (.ok hkin)
        | error reason => exact .mk (.cons hattempt tried) (.error _)

theorem Portable.search_kin (hportable : types.Portable move) (h : value.Kin move value')
    (acceptable : List TypeName) :
    FoundKin move (types.search value acceptable) (types.search value' acceptable) := by
  induction acceptable with
  | nil => exact .mk .nil (.error none)
  | cons target rest ih =>
    simp only [search, ← h.type]
    split
    · exact .mk .nil (.ok h)
    · have hfirst := tryConversions_kin h target
        (hportable.conversions value.type target)
      generalize tryConversions value target (types.conversions value.type target) = first
        at hfirst ⊢
      generalize tryConversions value' target (types.conversions value.type target) = first'
        at hfirst ⊢
      cases hfirst with
      | mk tried outcomes =>
        cases outcomes with
        | ok hkin => exact .mk tried (.ok hkin)
        | error reason =>
          generalize types.search value rest = later at ih ⊢
          generalize types.search value' rest = later' at ih ⊢
          cases ih with
          | mk tried' outcomes' =>
            cases outcomes' with
            | ok hkin => exact .mk (List.rel_append tried tried') (.ok hkin)
            | error reason' => exact .mk (List.rel_append tried tried') (.error _)

/-- Kin values are cast to kin values, in kin attempts, or neither of them is. -/
theorem Portable.cast_kin (hportable : types.Portable move) (h : value.Kin move value')
    (acceptable : List TypeName) :
    FoundKin move (types.cast value acceptable) (types.cast value' acceptable) := by
  have hsearch := hportable.search_kin h acceptable
  simp only [cast, ← h.type]
  split
  · exact .mk .nil (.ok h)
  · generalize types.search value acceptable = found at hsearch ⊢
    generalize types.search value' acceptable = found' at hsearch ⊢
    cases hsearch with
    | mk tried outcomes =>
      cases outcomes with
      | ok hkin => exact .mk tried (.ok hkin)
      | error reason => exact .mk tried (.error _)

end TypeRegistry

namespace Conversion

/-- A conversion is portable if it expects none of the types whose values may hold function values. -/
theorem portable_of_plain {conversion : Conversion} (expected : TypeName)
    (hobject : ∀ fields, conversion.convert (.object fields) = unexpected expected (.object fields))
    (hfunction : ∀ callable,
      conversion.convert (.function callable) = unexpected expected (.function callable))
    (hrender : ∀ renderer value,
      conversion.convert (.render renderer value) = unexpected expected (.render renderer value)) :
    conversion.Portable move := by
  have hunexpected (value : Value) (h : value.type.plain = false) :
      conversion.convert value = unexpected expected value := by
    cases value with
    | object fields => exact hobject fields
    | function callable => exact hfunction callable
    | render renderer value => exact hrender renderer value
    | _ => cases h
  intro a b hkin
  cases hplain : a.type.plain with
  | true =>
    rw [hkin.eq_of_plain hplain]
    exact .refl .refl _
  | false =>
    have hplain' : b.type.plain = false := hkin.type ▸ hplain
    rw [hunexpected a hplain, hunexpected b hplain', unexpected, unexpected, hkin.type]
    exact .error _

theorem blank_portable (value : Value) : (blank value).Portable move :=
  fun _ _ _ => .ok (.refl value)

end Conversion

open Conversion in
/-- The standard conversions do not look at function values. -/
theorem TypeRegistry.portable_standard (move : Home → Home) : standard.Portable move :=
  each_standard (fun value _ => blank_portable value)
    (portable_of_plain .number (fun _ => rfl) (fun _ => rfl) fun _ _ => rfl)
    (portable_of_plain .string (fun _ => rfl) (fun _ => rfl) fun _ _ => rfl)
    (portable_of_plain .boolean (fun _ => rfl) (fun _ => rfl) fun _ _ => rfl)
    (portable_of_plain .string (fun _ => rfl) (fun _ => rfl) fun _ _ => rfl)
    (portable_of_plain .boolean (fun _ => rfl) (fun _ => rfl) fun _ _ => rfl)
    (portable_of_plain .number (fun _ => rfl) (fun _ => rfl) fun _ _ => rfl)
    (portable_of_plain .pointseries (fun _ => rfl) (fun _ => rfl) fun _ _ => rfl)
    (portable_of_plain .datatable (fun _ => rfl) (fun _ => rfl) fun _ _ => rfl)
    (portable_of_plain .pointseries (fun _ => rfl) (fun _ => rfl) fun _ _ => rfl)

end ChainExpr
