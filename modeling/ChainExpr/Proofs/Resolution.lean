import ChainExpr.Proofs.Amid
import ChainExpr.Proofs.ArgumentCasts
import ChainExpr.Proofs.CastSearch
import ChainExpr.Proofs.Regrouping

namespace ChainExpr

namespace Towers

variable {towers : Towers} {α : Type} {world world' : World} {events : List Event}

/-- A task that emits events and has its outcome. -/
theorem shows_emitAll_outcome {entries : List Event} {outcome outcome' : Except RuntimeError α} :
    towers.Shows (Task.emitAll entries (.finish outcome), world) events (.finish outcome', world') ↔
      outcome' = outcome ∧ events = entries ∧ world' = entries.foldl World.record world := by
  rw [Interpreter.shows_emitAll_finish]
  simp only [shows_finish]
  constructor
  · rintro ⟨_, rfl, hstate, rfl⟩
    cases hstate
    exact ⟨rfl, List.append_nil _, rfl⟩
  · rintro ⟨rfl, rfl, rfl⟩
    exact ⟨[], (List.append_nil _).symm, rfl, rfl⟩

/-- Noting an error adds an entry to the log, and nothing else. -/
theorem shows_onError_finish {task : Task α} {entry : RuntimeError → LogEntry}
    {outcome : Except RuntimeError α} :
    towers.Shows (task.onError entry, world) events (.finish outcome, world') ↔
      (∃ value, outcome = .ok value ∧ towers.Shows (task, world) events (.finish (.ok value), world')) ∨
      ∃ error first middle, outcome = .error error ∧ events = first ++ [.log (entry error)] ∧
        world' = middle.record (.log (entry error)) ∧
        towers.Shows (task, world) first (.finish (.error error), middle) := by
  rw [Task.onError, shows_andThen_finish]
  constructor
  · rintro ⟨result, middle, first, later, rfl, hfirst, hlater⟩
    cases result with
    | ok value =>
      obtain ⟨hstate, rfl⟩ := shows_finish.mp hlater
      cases hstate
      rw [List.append_nil]
      exact .inl ⟨value, rfl, hfirst⟩
    | error error =>
      obtain ⟨_, rfl, hnoted⟩ := shows_emit_finish.mp hlater
      obtain ⟨hstate, rfl⟩ := shows_finish.mp hnoted
      cases hstate
      exact .inr ⟨error, first, middle, rfl, rfl, rfl, hfirst⟩
  · rintro (⟨value, rfl, hvalue⟩ | ⟨error, first, middle, rfl, rfl, rfl, hfirst⟩)
    · exact ⟨.ok value, world', events, [], (List.append_nil _).symm, hvalue, shows_finish.mpr ⟨rfl, rfl⟩⟩
    · refine ⟨.error error, middle, first, _, rfl, hfirst, ?_⟩
      exact shows_emit_finish.mpr ⟨[], rfl, shows_finish.mpr ⟨rfl, rfl⟩⟩

end Towers

namespace FunctionDefinition

variable {definition : FunctionDefinition} {types : TypeRegistry}

theorem resolve?_of_resolveNames {given names : List String}
    (h : definition.resolveNames given = .ok names) :
    ∀ name ∈ given, definition.signature.resolve? name ≠ none := by
  intro name hname hnone
  have hmem := List.mem_map_of_mem (f := definition.signature.resolve?) hname
  rw [resolveNames_eq h, hnone] at hmem
  simp at hmem

/-- Otherwise the first one counts that stands for none. -/
theorem resolveNames_error_iff {given : List String} {name : String} :
    definition.resolveNames given = .error name ↔
      ∃ before after, given = before ++ name :: after ∧
        (∀ earlier ∈ before, definition.signature.resolve? earlier ≠ none) ∧
        definition.signature.resolve? name = none := by
  induction given with
  | nil => simp [resolveNames]
  | cons first rest ih =>
    rw [resolveNames]
    cases hfirst : definition.signature.resolve? first with
    | none =>
      constructor
      · intro h
        cases h
        exact ⟨[], rest, rfl, by simp, hfirst⟩
      · rintro ⟨before, after, hgiven, hbefore, hnone⟩
        cases before with
        | nil =>
          cases hgiven
          rfl
        | cons other later =>
          cases hgiven
          exact absurd hfirst (hbefore first List.mem_cons_self)
    | some primary =>
      have hmap : (definition.resolveNames rest).map (primary :: ·) = .error name ↔
          definition.resolveNames rest = .error name := by
        cases definition.resolveNames rest with
        | ok names => simp [Except.map]
        | error unknown => simp [Except.map]
      rw [hmap, ih]
      constructor
      · rintro ⟨before, after, rfl, hbefore, hnone⟩
        refine ⟨first :: before, after, rfl, ?_, hnone⟩
        simpa [hfirst] using hbefore
      · rintro ⟨before, after, hgiven, hbefore, hnone⟩
        cases before with
        | nil =>
          cases hgiven
          rw [hfirst] at hnone
          cases hnone
        | cons other later =>
          cases hgiven
          exact ⟨later, after, rfl, fun earlier hearlier =>
            hbefore earlier (List.mem_cons_of_mem first hearlier), hnone⟩

end FunctionDefinition

theorem exists_of_forall₂ {ι κ : Type} {R : ι → κ → Prop} {items : List ι} {others : List κ}
    (h : List.Forall₂ R items others) {item : ι} (hitem : item ∈ items) :
    ∃ other ∈ others, R item other := by
  induction h with
  | nil => cases hitem
  | cons hfirst _ ih =>
    rcases List.mem_cons.mp hitem with rfl | hrest
    · exact ⟨_, List.mem_cons_self, hfirst⟩
    · obtain ⟨other, hother, hrelated⟩ := ih hrest
      exact ⟨other, List.mem_cons_of_mem _ hother, hrelated⟩

namespace ArgumentDefinition

variable {argument : ArgumentDefinition} {types : TypeRegistry} {values : List Value}

theorem Binds.unique {bound bound' : ArgumentValue} (h : argument.Binds types values bound)
    (h' : argument.Binds types values bound') : bound = bound' := by
  have hone : Relator.RightUnique fun value converted =>
      (types.cast value argument.types).2 = .ok converted :=
    fun value converted converted' hcast hcast' => Except.ok.inj (hcast.symm.trans hcast')
  cases h with
  | multi hmulti hcasts =>
    cases h' with
    | multi _ hcasts' => rw [hone.forall₂ hcasts hcasts']
    | single hsingle _ => exact absurd (hmulti.symm.trans hsingle) (by decide)
  | single hsingle hcast =>
    cases h' with
    | multi hmulti _ => exact absurd (hmulti.symm.trans hsingle) (by decide)
    | single _ hcast' => rw [hone hcast hcast']

/-- All casts of an argument that is bound have succeeded. -/
theorem Binds.made {bound : ArgumentValue} (h : argument.Binds types values bound) (name : String) :
    ∀ cast ∈ argument.casts name values, ∃ converted, cast.outcome types = .ok converted := by
  cases h with
  | multi hmulti hcasts =>
    rw [casts, if_pos hmulti]
    intro cast hcast
    obtain ⟨value, hvalue, rfl⟩ := List.mem_map.mp hcast
    obtain ⟨converted, _, hconverted⟩ := exists_of_forall₂ hcasts hvalue
    exact ⟨converted, hconverted⟩
  | @single converted hsingle hcast =>
    rw [casts, if_neg (by simp [hsingle])]
    intro cast hmem
    rw [List.mem_singleton.mp hmem]
    exact ⟨converted, hcast⟩

end ArgumentDefinition

namespace FunctionDefinition

variable {definition : FunctionDefinition} {types : TypeRegistry} {given : List String}
  {lists : List (List Value)} {bound : Arguments}

/-- Every list of values counts for one declared argument. -/
theorem gathered_perm (hlength : lists.length = given.length)
    (h : ∀ name ∈ given, definition.signature.resolve? name ≠ none) :
    (definition.signature.arguments.names.flatMap fun name =>
      definition.gathered name given lists).Perm lists := by
  have hnames : Entries.names (given.zip lists) = given := List.map_fst_zip (le_of_eq hlength.symm)
  have hknows : definition.signature.Knows (given.zip lists) := by
    rw [Signature.Knows, hnames]
    exact h
  have hperm := Signature.folded_perm hknows
  rwa [List.map_snd_zip (le_of_eq hlength)] at hperm

theorem gathered_eq_nil_iff (hlength : lists.length = given.length) (name : String) :
    definition.gathered name given lists = [] ↔
      ∀ other ∈ given, definition.signature.resolve? other ≠ some name := by
  rw [gathered, List.map_eq_nil_iff, List.filter_eq_nil_iff]
  constructor
  · intro h other hother
    rw [← List.map_fst_zip (le_of_eq hlength.symm)] at hother
    obtain ⟨entry, hentry, rfl⟩ := List.mem_map.mp hother
    simpa using h entry hentry
  · intro h entry hentry
    simpa using h entry.1 (List.of_mem_zip hentry).1

/-- What declared arguments are bound to, in their order, by a call that gives these lists of values
under its names. -/
def Resolves (definition : FunctionDefinition) (types : TypeRegistry) (given : List String)
    (lists : List (List Value)) (bound : Arguments) : Prop :=
  List.Forall₂ (fun declared bound => bound.1 = declared.1 ∧ declared.2.Binds types
      (definition.valuesGiven declared.1 declared.2 given lists) bound.2)
    definition.signature.arguments.entries bound.entries

/-- Arguments are bound in one way. -/
theorem Resolves.unique {bound' : Arguments} (h : definition.Resolves types given lists bound)
    (h' : definition.Resolves types given lists bound') : bound = bound' := by
  have hone : Relator.RightUnique fun (declared : String × ArgumentDefinition)
      (bound : String × ArgumentValue) => bound.1 = declared.1 ∧ declared.2.Binds types
        (definition.valuesGiven declared.1 declared.2 given lists) bound.2 :=
    fun declared entry entry' hentry hentry' =>
      Prod.ext (hentry.1.trans hentry'.1.symm) (hentry.2.unique hentry'.2)
  have hentries := hone.forall₂ h h'
  cases bound
  cases bound'
  cases hentries
  rfl

theorem Resolves.made (h : definition.Resolves types given lists bound) :
    ∀ cast ∈ definition.argumentCasts given lists, ∃ converted, cast.outcome types = .ok converted := by
  intro cast hcast
  obtain ⟨declared, hdeclared, hcast⟩ := List.mem_flatMap.mp hcast
  obtain ⟨entry, _, _, hbinds⟩ := exists_of_forall₂ h hdeclared
  exact hbinds.made declared.1 cast hcast

theorem Resolves.names (h : definition.Resolves types given lists bound) :
    bound.names = definition.signature.arguments.names := by
  have hnames : List.Forall₂ (fun declared bound => declared = bound)
      (definition.signature.arguments.entries.map Prod.fst) (bound.entries.map Prod.fst) := by
    rw [List.forall₂_map_left_iff, List.forall₂_map_right_iff]
    exact h.imp fun _ _ hentry => hentry.1.symm
  rw [List.forall₂_eq_eq_eq] at hnames
  exact hnames.symm

theorem Resolves.get? (h : definition.Resolves types given lists bound) {name : String}
    {argument : ArgumentDefinition} (hdeclared : definition.signature.arguments.get? name = some argument) :
    ∃ value, bound.get? name = some value ∧
      argument.Binds types (definition.valuesGiven name argument given lists) value := by
  rw [OrderedMap.get?] at hdeclared ⊢
  rw [Resolves] at h
  generalize definition.signature.arguments.entries = entries at h hdeclared
  generalize bound.entries = entries' at h ⊢
  induction h with
  | nil => cases hdeclared
  | @cons declared entry _ _ hentry _ ih =>
    obtain ⟨other, argument'⟩ := declared
    obtain ⟨_, value⟩ := entry
    obtain ⟨rfl, hbinds⟩ := hentry
    rw [Entries.lookup_cons] at hdeclared ⊢
    split at hdeclared
    · rename_i hname
      cases hdeclared
      subst hname
      exact ⟨value, if_pos rfl, hbinds⟩
    · rename_i hname
      rw [if_neg hname]
      exact ih hdeclared

/-- How binding the values of a call ends: with the first cast that fails, none being made behind it, or
with what the values bind. -/
inductive BindingEnds (definition : FunctionDefinition) (types : TypeRegistry) (given : List String)
    (lists : List (List Value)) : List Event → Except RuntimeError Arguments → Prop
  | rejected {before after : List ArgumentCast} {cast : ArgumentCast} {reason : CastError}
      {error : RuntimeError}
      (casts : definition.argumentCasts given lists = before ++ cast :: after)
      (made : ∀ earlier ∈ before, ∃ converted, earlier.outcome types = .ok converted)
      (fails : cast.outcome types = .error reason)
      (raised : error = .argumentCast definition.name cast.argument reason) :
      BindingEnds definition types given lists
        ((before ++ [cast]).flatMap (ArgumentCast.conversions types) ++
          [.log (.argumentsRejected definition.name error)]) (.error error)
  | bound {bound : Arguments} (resolves : definition.Resolves types given lists bound) :
      BindingEnds definition types given lists
        ((definition.argumentCasts given lists).flatMap (ArgumentCast.conversions types)) (.ok bound)

/-- There is one first cast that fails, or there is none. -/
theorem BindingEnds.unique {events events' : List Event} {outcome outcome' : Except RuntimeError Arguments}
    (h : definition.BindingEnds types given lists events outcome)
    (h' : definition.BindingEnds types given lists events' outcome') :
    events = events' ∧ outcome = outcome' := by
  cases h with
  | @rejected before _ cast reason _ casts made fails raised =>
    cases h' with
    | @rejected before' _ cast' _ _ casts' made' fails' raised' =>
      have hgood : ∀ {cast : ArgumentCast} {reason : CastError}, cast.outcome types = .error reason →
          ¬ ∃ converted, cast.outcome types = .ok converted := by
        rintro cast reason hfails ⟨converted, hmade⟩
        cases hfails.symm.trans hmade
      obtain ⟨rfl, rfl⟩ := first_bad_unique (casts.symm.trans casts') made (hgood fails) made'
        (hgood fails')
      cases fails.symm.trans fails'
      rw [raised, raised']
      exact ⟨rfl, rfl⟩
    | bound resolves =>
      obtain ⟨converted, hmade⟩ := resolves.made cast (by simp [casts])
      cases fails.symm.trans hmade
  | bound resolves =>
    cases h' with
    | @rejected _ _ cast _ _ casts _ fails _ =>
      obtain ⟨converted, hmade⟩ := resolves.made cast (by simp [casts])
      cases fails.symm.trans hmade
    | bound resolves' => exact ⟨rfl, congrArg _ (resolves.unique resolves')⟩

/-- Binding runs conversions and notes its error, and nothing else. -/
theorem bindArguments_ends (types : TypeRegistry) {names : List String}
    (h : definition.resolveNames given = .ok names) (lists : List (List Value)) : ∃ events outcome,
      definition.BindingEnds types given lists events outcome ∧
      (definition.bindArguments types (foldValues names lists)).onError
          (.argumentsRejected definition.name) = Task.emitAll events (.finish outcome) := by
  have hcasts : (definition.bindArguments types (foldValues names lists)).Casts types definition.name
      (definition.argumentCasts given lists) _ := bindArguments_casts h lists
  generalize definition.bindArguments types (foldValues names lists) = task at hcasts ⊢
  cases hcasts with
  | all _ resolves =>
    exact ⟨_, _, .bound resolves, Task.emitAll_andThen _ _ _⟩
  | failed before after split made fails =>
    refine ⟨_, _, .rejected split made fails rfl, ?_⟩
    rw [Task.emitAll_append]
    exact Task.emitAll_andThen _ _ _

end FunctionDefinition

namespace Towers

open FunctionDefinition

variable {towers : Towers} {interpreter : Interpreter} {definition : FunctionDefinition} {context : Value}
  {arguments : List (String × List Node)} {world world' : World} {events : List Event}

/-- How the resolution of the arguments of a call ends: with the first of its stages that fails, or with
what they are bound to. -/
inductive ArgumentsEnd (towers : Towers) (interpreter : Interpreter) (definition : FunctionDefinition)
    (context : Value) (arguments : List (String × List Node)) (world : World) :
    List Event → Except RuntimeError Arguments → World → Prop
  /-- A name of the call stands for no declared argument, and it is the first such name. No value has been
  evaluated. -/
  | unknown {before after : List String} {name : String} {error : RuntimeError}
      (names : Entries.names arguments = before ++ name :: after)
      (earlier : ∀ other ∈ before, definition.signature.resolve? other ≠ none)
      (unknown : definition.signature.resolve? name = none)
      (raised : error = .unknownArgument definition.name name) :
      ArgumentsEnd towers interpreter definition context arguments world
        [.log (.argumentsRejected definition.name error)] (.error error)
        (world.record (.log (.argumentsRejected definition.name error)))
  /-- A value of the call cannot be evaluated. None has been cast. -/
  | evaluation {first : List Event} {middle : World} {error : RuntimeError}
      (names : ∀ name ∈ Entries.names arguments, definition.signature.resolve? name ≠ none)
      (values : towers.Shows (interpreter.site.interpretArguments arguments context, world) first
        (.finish (.error error), middle)) :
      ArgumentsEnd towers interpreter definition context arguments world
        (first ++ [.log (.argumentEvaluationFailed definition.name error)]) (.error error)
        (middle.record (.log (.argumentEvaluationFailed definition.name error)))
  /-- The values are there, and what comes of the call is what comes of binding them. -/
  | binding {lists : List (List Value)} {first entries : List Event} {middle : World}
      {outcome : Except RuntimeError Arguments}
      (names : ∀ name ∈ Entries.names arguments, definition.signature.resolve? name ≠ none)
      (values : towers.Shows (interpreter.site.interpretArguments arguments context, world) first
        (.finish (.ok lists), middle))
      (binds : definition.BindingEnds interpreter.types (Entries.names arguments) lists entries
        outcome) :
      ArgumentsEnd towers interpreter definition context arguments world (first ++ entries) outcome
        (entries.foldl World.record middle)

/-- The resolution of arguments stage by stage. -/
theorem shows_resolveArguments {outcome : Except RuntimeError Arguments} :
    towers.Shows (interpreter.resolveArguments definition context arguments, world) events
        (.finish outcome, world') ↔
      towers.ArgumentsEnd interpreter definition context arguments world events outcome world' := by
  rw [Interpreter.resolveArguments, Site.resolve]
  cases hnames : definition.resolveNames (Entries.names arguments) with
  | error name =>
    obtain ⟨before, after, hgiven, hbefore, hnone⟩ := resolveNames_error_iff.mp hnames
    have hname : ¬ ∀ name ∈ Entries.names arguments, definition.signature.resolve? name ≠ none :=
      fun hall => hall name (by simp [hgiven]) hnone
    constructor
    · intro h
      obtain ⟨_, rfl, hlater⟩ := shows_emit_finish.mp h
      obtain ⟨hstate, rfl⟩ := shows_finish.mp hlater
      cases hstate
      exact .unknown hgiven hbefore hnone rfl
    · intro h
      cases h with
      | unknown names earlier unknown raised =>
        cases hnames.symm.trans (resolveNames_error_iff.mpr ⟨_, _, names, earlier, unknown⟩)
        cases raised
        exact shows_emit_finish.mpr ⟨[], rfl, shows_finish.mpr ⟨rfl, rfl⟩⟩
      | evaluation names => exact absurd names hname
      | binding names => exact absurd names hname
  | ok names =>
    have hall := resolve?_of_resolveNames hnames
    simp only [shows_bind_finish]
    constructor
    · rintro (⟨error, rfl, hvalues⟩ | ⟨lists, middle, first, later, rfl, hvalues, hbound⟩)
      · rcases shows_onError_finish.mp hvalues with ⟨_, hsame, _⟩ | ⟨_, _, _, hsame, rfl, rfl, hfails⟩
        · cases hsame
        · cases hsame
          exact .evaluation hall hfails
      · rcases shows_onError_finish.mp hvalues with ⟨_, hsame, hvalues⟩ | ⟨_, _, _, hsame, _⟩
        · cases hsame
          obtain ⟨entries, outcome, hends, htask⟩ :=
            bindArguments_ends interpreter.types hnames lists
          obtain ⟨rfl, rfl, rfl⟩ := shows_emitAll_outcome.mp (htask ▸ hbound)
          exact .binding hall hvalues hends
        · cases hsame
    · intro h
      cases h with
      | unknown names _ unknown => exact absurd unknown (hall _ (by simp [names]))
      | @evaluation first _ error _ values =>
        exact .inl ⟨error, rfl, shows_onError_finish.mpr (.inr ⟨error, first, _, rfl, rfl, rfl, values⟩)⟩
      | @binding lists first entries middle _ _ values binds =>
        refine .inr ⟨lists, middle, first, entries, rfl,
          shows_onError_finish.mpr (.inl ⟨lists, rfl, values⟩), ?_⟩
        obtain ⟨_, _, hends, htask⟩ := bindArguments_ends interpreter.types hnames lists
        obtain ⟨rfl, rfl⟩ := hends.unique binds
        change towers.Shows ((definition.bindArguments interpreter.types _).onError _, middle) _ _
        rw [htask]
        exact shows_emitAll_outcome.mpr ⟨rfl, rfl, rfl⟩

/-- The arguments of a call are resolved just where all its names stand for declared arguments, its
values have been evaluated and all casts succeed. -/
theorem shows_resolveArguments_ok {bound : Arguments} :
    towers.Shows (interpreter.resolveArguments definition context arguments, world) events
        (.finish (.ok bound), world') ↔
      (∀ name ∈ Entries.names arguments, definition.signature.resolve? name ≠ none) ∧
      ∃ lists first middle,
        towers.Shows (interpreter.site.interpretArguments arguments context, world) first
          (.finish (.ok lists), middle) ∧
        definition.Resolves interpreter.types (Entries.names arguments) lists bound ∧
        events = first ++ (definition.argumentCasts (Entries.names arguments) lists).flatMap
          (ArgumentCast.conversions interpreter.types) ∧
        world' = ((definition.argumentCasts (Entries.names arguments) lists).flatMap
          (ArgumentCast.conversions interpreter.types)).foldl World.record middle := by
  rw [shows_resolveArguments]
  constructor
  · intro h
    cases h with
    | binding names values binds =>
      cases binds with
      | bound resolves => exact ⟨names, _, _, _, values, resolves, rfl, rfl⟩
  · rintro ⟨names, lists, first, middle, values, resolves, rfl, rfl⟩
    exact .binding names values (.bound resolves)

/-- What the arguments of a call are resolved to. They are resolved just where every name of the call
stands for a declared argument, the values of the call are evaluated and all casts succeed. The values are
what the nodes of the call come to, and no list of them is lost or counts twice. There is one entry for
each declared argument, in declared order: from all lists given under names that stand for it, in the order
of the call, a multi argument has the casts of all values and another one that of the last, or of null if
there is none; an argument that no name stands for has its default or null, cast likewise. -/
theorem arguments_resolved (towers : Towers) (interpreter : Interpreter) (definition : FunctionDefinition)
    (context : Value) (arguments : List (String × List Node)) (world : World) :
    (∀ events bound world',
      towers.Shows (interpreter.resolveArguments definition context arguments, world) events
          (.finish (.ok bound), world') ↔
        (∀ name ∈ Entries.names arguments, definition.signature.resolve? name ≠ none) ∧
        ∃ lists first middle,
          towers.Shows (interpreter.site.interpretArguments arguments context, world) first
            (.finish (.ok lists), middle) ∧
          definition.Resolves interpreter.types (Entries.names arguments) lists bound ∧
          events = first ++ (definition.argumentCasts (Entries.names arguments) lists).flatMap
            (ArgumentCast.conversions interpreter.types) ∧
          world' = ((definition.argumentCasts (Entries.names arguments) lists).flatMap
            (ArgumentCast.conversions interpreter.types)).foldl World.record middle) ∧
    ∀ lists first middle,
      towers.Shows (interpreter.site.interpretArguments arguments context, world) first
        (.finish (.ok lists), middle) →
      List.Forall₂ (fun entry values => List.Forall₂ (fun node value => towers.RunsAmid
          (interpreter.interpret node context, world) (.finish (.ok value), middle)) entry.2 values)
        arguments lists ∧
      ((∀ name ∈ Entries.names arguments, definition.signature.resolve? name ≠ none) →
        (definition.signature.arguments.names.flatMap fun name =>
          definition.gathered name (Entries.names arguments) lists).Perm lists) ∧
      ∀ bound, definition.Resolves interpreter.types (Entries.names arguments) lists bound →
        bound.names = definition.signature.arguments.names ∧
        ∀ name argument, definition.signature.arguments.get? name = some argument →
          ((∃ given ∈ Entries.names arguments, definition.signature.resolve? given = some name) →
            (argument.multi = true → ∃ converted, bound.get? name = some (.multi converted) ∧
              List.Forall₂ (fun value converted =>
                  (interpreter.types.cast value argument.types).2 = .ok converted)
                (definition.gathered name (Entries.names arguments) lists).flatten converted) ∧
            (argument.multi = false → ∃ converted, bound.get? name = some (.single converted) ∧
              (interpreter.types.cast ((definition.gathered name (Entries.names arguments)
                lists).flatten.getLast?.getD .null) argument.types).2 = .ok converted)) ∧
          ((∀ given ∈ Entries.names arguments, definition.signature.resolve? given ≠ some name) →
            ∃ converted,
              (interpreter.types.cast (argument.default?.getD .null) argument.types).2 = .ok converted ∧
              bound.get? name =
                some (if argument.multi then .multi [converted] else .single converted)) := by
  refine ⟨fun events bound world' => shows_resolveArguments_ok, ?_⟩
  intro lists first middle hvalues
  have helements := Site.elements_ok hvalues.1
  have hlength : lists.length = (Entries.names arguments).length := by
    rw [Entries.names, List.length_map]
    exact helements.length_eq.symm
  refine ⟨helements, gathered_perm hlength, ?_⟩
  intro bound hresolves
  refine ⟨hresolves.names, ?_⟩
  intro name argument hdeclared
  obtain ⟨value, hvalue, hbinds⟩ := hresolves.get? hdeclared
  rw [valuesGiven] at hbinds
  constructor
  · rintro ⟨given, hgiven, hstands⟩
    have hsome : definition.gathered name (Entries.names arguments) lists ≠ [] := fun hnone =>
      (gathered_eq_nil_iff hlength name).mp hnone given hgiven hstands
    rw [if_neg hsome] at hbinds
    cases hbinds with
    | multi hmulti hcasts =>
      refine ⟨fun _ => ⟨_, hvalue, hcasts⟩, fun hsingle => ?_⟩
      rw [hmulti] at hsingle
      cases hsingle
    | single hsingle hcast =>
      refine ⟨fun hmulti => ?_, fun _ => ⟨_, hvalue, hcast⟩⟩
      rw [hsingle] at hmulti
      cases hmulti
  · intro hnone
    rw [if_pos ((gathered_eq_nil_iff hlength name).mpr hnone)] at hbinds
    cases hbinds with
    | multi hmulti hcasts =>
      obtain ⟨converted, _, hcast, hrest, rfl⟩ := List.forall₂_cons_left_iff.mp hcasts
      cases hrest
      exact ⟨converted, hcast, by rw [hvalue, if_pos hmulti]⟩
    | @single converted hsingle hcast => exact ⟨converted, hcast, by rw [hvalue, hsingle]; rfl⟩

end Towers

end ChainExpr
