import ChainExpr.Proofs.Fitting
import ChainExpr.Proofs.Polling

namespace ChainExpr

namespace Entries

variable {α : Type}

theorem lookup_extend (name other : String) (values : List α) (entries : List (String × List α)) :
    (extend name values entries).lookup other =
      if other = name then some ((entries.lookup other).getD [] ++ values)
      else entries.lookup other := by
  induction entries with
  | nil => rw [extend, lookup_cons]; rfl
  | cons entry rest ih =>
    obtain ⟨k, v⟩ := entry
    rw [extend]
    split
    · rename_i hk
      subst hk
      by_cases h : other = name <;> simp [lookup_cons, h]
    · rename_i hk
      by_cases h : other = k
      · simp [h, Ne.symm hk]
      · simp [lookup_cons, h, ih]

end Entries

namespace FunctionDefinition

variable {definition : FunctionDefinition} {types : TypeRegistry}

/-- What a call gives under the names that stand for one argument, in the order of the call. -/
def gathered (definition : FunctionDefinition) (name : String) (given : List String)
    (values : List (List Value)) : List (List Value) :=
  ((given.zip values).filter fun entry => definition.signature.resolve? entry.1 = some name).map
    Prod.snd

/-- The values that a call gives to an argument, or what stands for them if it does not mention it. -/
def valuesGiven (definition : FunctionDefinition) (name : String) (argument : ArgumentDefinition)
    (given : List String) (values : List (List Value)) : List Value :=
  if definition.gathered name given values = [] then [argument.default?.getD .null]
  else (definition.gathered name given values).flatten

theorem resolveNames_eq {given names : List String} (h : definition.resolveNames given = .ok names) :
    given.map definition.signature.resolve? = names.map some := by
  induction given generalizing names with
  | nil =>
    cases h
    rfl
  | cons name rest ih =>
    rw [resolveNames] at h
    split at h
    · cases h
    · rename_i primary hprimary
      cases hrest : definition.resolveNames rest with
      | error unknown =>
        rw [hrest] at h
        cases h
      | ok later =>
        rw [hrest] at h
        cases h
        rw [List.map_cons, List.map_cons, hprimary, ih hrest]

theorem gathered_eq {given names : List String} (h : definition.resolveNames given = .ok names)
    (name : String) (values : List (List Value)) :
    definition.gathered name given values =
      ((names.zip values).filter fun entry => entry.1 = name).map Prod.snd := by
  have hresolved := resolveNames_eq h
  clear h
  induction given generalizing names values with
  | nil =>
    obtain rfl := List.map_eq_nil_iff.mp hresolved.symm
    rfl
  | cons first rest ih =>
    cases names with
    | nil => cases hresolved
    | cons primary later =>
      obtain ⟨hfirst, hrest⟩ := List.cons.inj hresolved
      cases values with
      | nil => rfl
      | cons list lists =>
        have hlater := ih lists hrest
        by_cases hname : primary = name <;> simp_all [gathered]

theorem lookup_foldValues (name : String) (names : List String) (values : List (List Value)) :
    (foldValues names values).lookup name =
      if (names.zip values).filter (fun entry => entry.1 = name) = [] then none
      else some (((names.zip values).filter fun entry => entry.1 = name).flatMap Prod.snd) := by
  have hfold : ∀ (entries bound : List (String × List Value)),
      (entries.foldl (fun bound entry => Entries.extend entry.1 entry.2 bound) bound).lookup name =
        if entries.filter (fun entry => entry.1 = name) = [] then bound.lookup name
        else some ((bound.lookup name).getD [] ++
          (entries.filter fun entry => entry.1 = name).flatMap Prod.snd) := by
    intro entries
    induction entries with
    | nil => simp
    | cons entry rest ih =>
      obtain ⟨k, v⟩ := entry
      intro bound
      rw [List.foldl_cons, ih, Entries.lookup_extend]
      by_cases hk : k = name
      · subst hk
        by_cases hrest : rest.filter (fun entry => entry.1 = k) = []
        · simp [hrest]
        · simp [hrest]
      · have hskip : ((k, v) :: rest).filter (fun entry => entry.1 = name) =
            rest.filter fun entry => entry.1 = name := by simp [hk]
        rw [hskip, if_neg (Ne.symm hk)]
  exact (hfold (names.zip values) []).trans (by simp)

/-- The values that count for an argument are those given under all its names. -/
theorem valuesFor_foldValues {given names : List String} (h : definition.resolveNames given = .ok names)
    (name : String) (argument : ArgumentDefinition) (values : List (List Value)) :
    valuesFor name argument (foldValues names values) =
      definition.valuesGiven name argument given values := by
  rw [valuesFor, lookup_foldValues, valuesGiven, gathered_eq h]
  by_cases hnone : (names.zip values).filter (fun entry => entry.1 = name) = []
  · simp [hnone]
  · simp [hnone, List.flatMap]

end FunctionDefinition

/-- What an argument is bound to, from the values that count for it. -/
inductive ArgumentDefinition.Binds (argument : ArgumentDefinition) (types : TypeRegistry)
    (values : List Value) : ArgumentValue → Prop
  /-- A multi argument has all of them, each one cast. -/
  | multi {converted : List Value} (multi : argument.multi = true)
      (casts : List.Forall₂ (fun value converted =>
        (types.cast value argument.types).2 = .ok converted) values converted) :
      Binds argument types values (.multi converted)
  /-- Another argument has the last one, cast. -/
  | single {converted : Value} (single : argument.multi = false)
      (cast : (types.cast (values.getLast?.getD .null) argument.types).2 = .ok converted) :
      Binds argument types values (.single converted)

namespace FunctionDefinition

open ChainExpr.Task

variable {definition : FunctionDefinition} {types : TypeRegistry}

theorem castFor_gives (name : String) (acceptable : List TypeName) (value : Value) :
    (definition.castFor types name acceptable value).Returns fun outcome =>
      ∀ converted, outcome = .ok converted → (types.cast value acceptable).2 = .ok converted := by
  apply returns_cast
  cases (types.cast value acceptable).2 with
  | ok converted =>
    intro other hother
    cases hother
    rfl
  | error error =>
    intro other hother
    cases hother

theorem castAll_gives (name : String) (acceptable : List TypeName) (values : List Value) :
    (definition.castAll types name acceptable values).Returns fun outcome =>
      ∀ converted, outcome = .ok converted → List.Forall₂ (fun value converted =>
        (types.cast value acceptable).2 = .ok converted) values converted := by
  induction values with
  | nil =>
    intro converted hconverted
    cases hconverted
    exact .nil
  | cons value rest ih =>
    apply (castFor_gives name acceptable value).bind
    intro first hfirst
    apply ih.bind
    intro later hlater converted hconverted
    cases hconverted
    exact .cons hfirst hlater

theorem bindOne_binds (name : String) (argument : ArgumentDefinition) (values : List Value) :
    (definition.bindOne types name argument values).Returns fun outcome =>
      ∀ given, outcome = .ok given → argument.Binds types values given := by
  rw [bindOne]
  split
  · rename_i hmulti
    apply (castAll_gives name argument.types values).bind
    intro converted hconverted given hgiven
    cases hgiven
    exact .multi hmulti hconverted
  · rename_i hsingle
    apply (castFor_gives name argument.types _).bind
    intro converted hconverted given hgiven
    cases hgiven
    exact .single (by simpa using hsingle) hconverted

end FunctionDefinition

/-- Noting errors does not change what a task succeeds with. -/
theorem Towers.Ends.of_onError {α : Type} {towers : Towers} {task : Task α}
    {entry : RuntimeError → LogEntry} {world world' : World} {polls : Nat} {value : α}
    (h : towers.Ends (task.onError entry) world polls (.ok value) world') :
    towers.Ends task world polls (.ok value) world' := by
  rw [Task.onError] at h
  obtain ⟨outcome, middle, before, after, rfl, hfirst, hsecond⟩ := ends_andThen.mp h
  cases outcome with
  | ok result =>
    obtain ⟨rfl, hsame, rfl⟩ := hsecond.unique (.now (polls_finish (.ok result) middle))
    cases hsame
    exact hfirst
  | error error =>
    have hfails : (Task.emit (.log (entry error)) (Task.fail error) : Task α).Returns
        fun outcome => outcome = .error error := rfl
    cases hsecond.runs.returns hfails

namespace Site

variable {site : Site} {towers : Towers} {definition : FunctionDefinition} {given : List String}

/-- Arguments that are resolved come from values that were evaluated before, each declared argument from
those given under its names in the order of the call. -/
theorem ends_resolve {values : Task (List (List Value))} {world world' : World} {polls : Nat}
    {bound : Arguments}
    (h : towers.Ends (site.resolve definition given values) world polls (.ok bound) world') :
    ∃ lists middle before after, polls = before + after ∧
      towers.Ends values world before (.ok lists) middle ∧
      List.Forall₂ (fun declared bound => bound.1 = declared.1 ∧
          declared.2.Binds site.equipment.types
            (definition.valuesGiven declared.1 declared.2 given lists) bound.2)
        definition.signature.arguments.entries bound.entries := by
  rw [resolve] at h
  cases hnames : definition.resolveNames given with
  | error unknown =>
    simp only [hnames] at h
    have hfails : (Task.emit (.log (.argumentsRejected definition.name
        (.unknownArgument definition.name unknown))) (Task.fail (.unknownArgument definition.name unknown)) :
          Task Arguments).Returns fun outcome => outcome = .error _ := rfl
    cases h.runs.returns hfails
  | ok names =>
    simp only [hnames] at h
    rcases Towers.ends_bind.mp h with
      ⟨_, hsame, _⟩ | ⟨lists, middle, before, after, hpolls, hvalues, hbound⟩
    · cases hsame
    · refine ⟨lists, middle, before, after, hpolls, hvalues.of_onError, ?_⟩
      have hone (name : String) (argument : ArgumentDefinition) :
          (definition.bindOne site.equipment.types name argument (FunctionDefinition.valuesFor name
            argument (FunctionDefinition.foldValues names lists))).Returns fun outcome =>
              ∀ bound, outcome = .ok bound → argument.Binds site.equipment.types
                (definition.valuesGiven name argument given lists) bound := by
        rw [FunctionDefinition.valuesFor_foldValues hnames]
        exact FunctionDefinition.bindOne_binds name argument _
      have hbinds := FunctionDefinition.bindArguments_returns hone
      exact hbound.of_onError.runs.returns hbinds bound rfl

end Site

end ChainExpr
