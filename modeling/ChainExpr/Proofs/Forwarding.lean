import ChainExpr.Proofs.Conduct
import ChainExpr.Proofs.Holding
import ChainExpr.Stock

namespace ChainExpr

open Holding (Holds)

/-- The conversion passes on function values, whichever are known besides the roots. -/
def Conversion.Forwards (roots : Set Callable) (conversion : Conversion) : Prop :=
  ∀ known, roots ⊆ known → ∀ value converted, Holds known value →
    conversion.convert value = .ok converted → Holds known converted

/-- The implementation passes on function values, and the roots are all that defaults hold. -/
structure FunctionDefinition.Forwards (roots : Set Callable) (definition : FunctionDefinition) : Prop where
  implementation : ∀ known, roots ⊆ known → ∀ context arguments, Holds known context →
    Holds known arguments → (definition.implementation context arguments).Forwards known
  defaults : ∀ entry ∈ definition.signature.arguments.entries,
    Holds roots (entry.2.default?.getD .null)

/-- The implementations, conversions and hosts of a tower pass on function values. They may keep some of
their own, the roots, but do not make any. -/
structure Towers.Forwards (roots : Set Callable) (towers : Towers) : Prop where
  functions : ∀ interpreter, towers.Within interpreter → ∀ name definition,
    interpreter.functions.lookup name = some definition → definition.Forwards roots
  types : ∀ interpreter, towers.Within interpreter →
    interpreter.types.Each fun conversion _ => conversion.Forwards roots
  answers : ∀ equipment name answer, towers.Within (.mk equipment (.custom name answer)) →
    ∀ known, roots ⊆ known → ∀ chain context, Holds known context →
      (answer chain context).Forwards known

namespace TypeRegistry

variable {types : TypeRegistry} {value converted : Value}

theorem tryConversions_ok {target : TypeName} {conversions : List (Side × Conversion)}
    (h : (tryConversions value target conversions).2 = .ok converted) :
    ∃ entry ∈ conversions, entry.2.convert value = .ok converted := by
  induction conversions with
  | nil => cases h
  | cons entry rest ih =>
    obtain ⟨side, conversion⟩ := entry
    rw [tryConversions] at h
    cases hconvert : conversion.convert value with
    | ok first =>
      simp only [hconvert] at h
      cases h
      exact ⟨(side, conversion), List.mem_cons_self, hconvert⟩
    | error error =>
      cases hrest : tryConversions value target rest with
      | mk attempts outcome =>
        cases outcome with
        | error reason =>
          simp only [hconvert, hrest] at h
          cases h
        | ok later =>
          simp only [hconvert, hrest] at h
          cases h
          rw [hrest] at ih
          obtain ⟨found, hfound, hconverts⟩ := ih rfl
          exact ⟨found, List.mem_cons_of_mem _ hfound, hconverts⟩

theorem search_ok {acceptable : List TypeName}
    (h : (types.search value acceptable).2 = .ok converted) :
    converted = value ∨ ∃ target, ∃ entry ∈ types.conversions value.type target,
      entry.2.convert value = .ok converted := by
  induction acceptable with
  | nil => cases h
  | cons target rest ih =>
    rw [search] at h
    split at h
    · cases h
      exact .inl rfl
    · cases hfirst : tryConversions value target (types.conversions value.type target) with
      | mk attempts outcome =>
        cases outcome with
        | ok first =>
          simp only [hfirst] at h
          cases h
          exact .inr ⟨target, tryConversions_ok (by rw [hfirst])⟩
        | error reason =>
          cases hrest : types.search value rest with
          | mk later outcome =>
            cases outcome with
            | error laterReason =>
              simp only [hfirst, hrest] at h
              cases h
            | ok found =>
              simp only [hfirst, hrest] at h
              cases h
              exact ih (by rw [hrest])

/-- A value that is cast is the value itself or what one conversion has made of it. -/
theorem cast_ok {acceptable : List TypeName} (h : (types.cast value acceptable).2 = .ok converted) :
    converted = value ∨ ∃ target, ∃ entry ∈ types.conversions value.type target,
      entry.2.convert value = .ok converted := by
  rw [cast] at h
  split at h
  · cases h
    exact .inl rfl
  · cases hsearch : types.search value acceptable with
    | mk attempts outcome =>
      cases outcome with
      | error reason =>
        simp only [hsearch] at h
        cases h
      | ok found =>
        simp only [hsearch] at h
        cases h
        exact search_ok (by rw [hsearch])

theorem cast_holds {roots known : Set Callable} (hroots : roots ⊆ known)
    (htypes : types.Each fun conversion _ => conversion.Forwards roots) {acceptable : List TypeName}
    (hvalue : Holds known value) (h : (types.cast value acceptable).2 = .ok converted) :
    Holds known converted := by
  rcases cast_ok h with rfl | ⟨target, entry, hentry, hconverts⟩
  · exact hvalue
  · exact htypes.conversions value.type target entry hentry known hroots value converted hvalue hconverts

/-- The standard conversions make no function values. -/
theorem standard_forwards (roots : Set Callable) :
    standard.Each fun conversion _ => conversion.Forwards roots := by
  have hplain {conversion : Conversion} (h : ∀ value converted,
      conversion.convert value = .ok converted → converted.deferreds = []) :
      conversion.Forwards roots := fun _ _ value converted _ hconvert =>
    Holding.holds_of_deferreds (h value converted hconvert)
  apply each_standard
  case hblank =>
    intro blank hblank
    have hnone : blank.deferreds = [] := by
      simp only [List.mem_cons, List.not_mem_nil, or_false] at hblank
      rcases hblank with rfl | rfl | rfl | rfl | rfl <;> simp [Value.deferreds]
    apply hplain
    rintro _ _ ⟨⟩
    exact hnone
  case hstringToNumber =>
    apply hplain
    intro value converted hconvert
    obtain ⟨s, x, rfl, rfl⟩ := Conversion.stringToNumber_ok hconvert
    simp [Value.deferreds]
  all_goals
    apply hplain
    intro value converted hconvert
    cases value <;> cases hconvert
    simp [Value.deferreds]

end TypeRegistry

namespace Towers

/-- The evaluations that the evaluation of a node on an interpreter leads to, where function values that
are called may be roots: the links of a chain as far as they are known, and their values, are evaluated on
the same interpreter; the links that are handed over, on the one that its host delegates to; and a chain
that was set aside, where it was set aside. -/
inductive Evaluates (towers : Towers) (roots : Set Callable) (interpreter : Interpreter)
    (node : Node) : Interpreter → Node → Prop
  | start : Evaluates towers roots interpreter node interpreter node
  | root {home : Home} {serial : Nat} {chain : Chain} (root : .deferred home serial chain ∈ roots) :
      Evaluates towers roots interpreter node (towers.resident home) (.deferred chain)
  | called {runner : Interpreter} {chain : Chain}
      (aside : Evaluates towers roots interpreter node runner (.deferred chain)) :
      Evaluates towers roots interpreter node runner (.expression chain)
  | value {runner : Interpreter} {link : Link} {rest : Chain} {definition : FunctionDefinition}
      {entry : String × List Node} {value : Node}
      (chain : Evaluates towers roots interpreter node runner (.expression (link :: rest)))
      (known : runner.functions.lookup link.function = some definition)
      (argument : entry ∈ link.arguments) (among : value ∈ entry.2) :
      Evaluates towers roots interpreter node runner value
  | rest {runner : Interpreter} {link : Link} {rest : Chain} {definition : FunctionDefinition}
      (chain : Evaluates towers roots interpreter node runner (.expression (link :: rest)))
      (known : runner.functions.lookup link.function = some definition) :
      Evaluates towers roots interpreter node runner (.expression rest)
  | handed_over {equipment : Equipment} {fallback : Interpreter} {link : Link} {rest : Chain}
      (chain : Evaluates towers roots interpreter node (.mk equipment (.delegating fallback))
        (.expression (link :: rest)))
      (unknown : equipment.functions.lookup link.function = none) :
      Evaluates towers roots interpreter node fallback (.expression (link :: rest))

/-- The interpreter comes to set the chain aside. -/
def SetsAside (towers : Towers) (roots : Set Callable) (interpreter : Interpreter) (node : Node)
    (creator : Interpreter) (chain : Chain) : Prop :=
  towers.Evaluates roots interpreter node creator (.deferred chain)

theorem Evaluates.within {towers : Towers} {interpreter runner : Interpreter} {roots : Set Callable}
    {node evaluated : Node} (hwithin : towers.Within interpreter)
    (h : towers.Evaluates roots interpreter node runner evaluated) : towers.Within runner := by
  induction h with
  | start => exact hwithin
  | root => exact within_resident _
  | called _ ih => exact ih
  | value _ _ _ _ ih => exact ih
  | rest _ _ ih => exact ih
  | handed_over _ _ ih => exact ih.under

end Towers

namespace FunctionDefinition

open ChainExpr.Task

variable {definition : FunctionDefinition} {types : TypeRegistry} {roots known : Set Callable}
  {may : Interpreter → Chain → Prop} (hroots : roots ⊆ known)
  (htypes : types.Each fun conversion _ => conversion.Forwards roots)
include hroots htypes

theorem castFor_forwards (name : String) (acceptable : List TypeName) {value : Value}
    (h : Holds known value) :
    (definition.castFor types name acceptable value).Forwards may known := by
  apply Forwards.cast
  cases hcast : (types.cast value acceptable).2 with
  | ok converted => exact .ok (TypeRegistry.cast_holds hroots htypes h hcast)
  | error error => exact .fail _

theorem castAll_forwards (name : String) (acceptable : List TypeName) {values : List Value}
    (h : Holds known values) :
    (definition.castAll types name acceptable values).Forwards may known := by
  induction values with
  | nil => exact .ok Holding.holds_nil
  | cons value rest ih =>
    obtain ⟨hvalue, hrest⟩ := List.forall_mem_cons.mp h
    rw [castAll]
    apply (castFor_forwards hroots htypes name acceptable hvalue).bind
    intro more hle first hfirst
    apply ((ih hrest).mono hle).bind
    intro other hmore later hlater
    exact .ok (Holding.holds_cons (Holding.mono hmore hfirst) hlater)

theorem bindOne_forwards (name : String) (argument : ArgumentDefinition) {values : List Value}
    (h : Holds known values) :
    (definition.bindOne types name argument values).Forwards may known := by
  rw [bindOne]
  split
  · apply (castAll_forwards hroots htypes name argument.types h).bind
    intro more _ converted hconverted
    exact .ok hconverted
  · have hlast : Holds known (values.getLast?.getD .null) := by
      cases hlast : values.getLast? with
      | none => exact Holding.holds_null
      | some last => exact h last (List.mem_of_getLast? hlast)
    apply (castFor_forwards hroots htypes name argument.types hlast).bind
    intro more _ converted hconverted
    exact .ok hconverted

theorem bindEach_forwards {bound : List (String × List Value)}
    (hbound : ∀ entry ∈ bound, Holds known entry.2) {done : Arguments} (hdone : Holds known done)
    {declared : List (String × ArgumentDefinition)}
    (hdefaults : ∀ entry ∈ declared, Holds roots (entry.2.default?.getD .null)) :
    (definition.bindEach types bound done declared).Forwards may known := by
  induction declared generalizing known done with
  | nil => exact .ok hdone
  | cons entry rest ih =>
    obtain ⟨name, argument⟩ := entry
    obtain ⟨hdefault, hrest⟩ := List.forall_mem_cons.mp hdefaults
    have hvalues : Holds known (valuesFor name argument bound) := by
      apply Holding.holds_iff_related.mpr
      apply valuesFor_related name argument (Holding.mono hroots hdefault)
      exact List.forall₂_same.mpr fun entry hentry =>
        ⟨rfl, Holding.holds_iff_related.mp (hbound entry hentry)⟩
    apply (bindOne_forwards hroots htypes name argument hvalues).bind
    intro more hle given hgiven
    have hbound' : ∀ entry ∈ bound, Holds more entry.2 := fun entry hentry =>
      Holding.mono hle (hbound entry hentry)
    exact ih (hroots.trans hle) hbound' (Holding.holds_insert (Holding.mono hle hdone) hgiven) hrest

theorem bindArguments_forwards (hdefinition : definition.Forwards roots) (names : List String)
    {values : List (List Value)} (h : Holds known values) :
    (definition.bindArguments types (foldValues names values)).Forwards may known := by
  apply bindEach_forwards hroots htypes _ Holding.holds_empty hdefinition.defaults
  have hrelated := foldValues_related names
    (List.forall₂_same.mpr fun given hgiven => Holding.holds_iff_related.mp (h given hgiven))
  exact fun entry hentry => Holding.holds_iff_related.mpr (List.forall₂_same.mp hrelated entry hentry).2

theorem invoke_forwards (hdefinition : definition.Forwards roots) {context : Value}
    (hcontext : Holds known context) {arguments : Arguments} (harguments : Holds known arguments) :
    (definition.invoke types context arguments).Forwards may known := by
  apply Forwards.cast
  cases hcast : (types.cast context definition.acceptable).2 with
  | error error => exact .emit _ (.fail _)
  | ok converted =>
    have hbody := hdefinition.implementation known hroots converted arguments
      (TypeRegistry.cast_holds hroots htypes hcontext hcast) harguments
    have hcall : (definition.call converted arguments).Forwards may known :=
      .emit _ (.routine _ hbody fun _ _ _ houtcome => .finish houtcome)
    apply hcall.onError.bind
    intro more _ result hresult
    rw [checkReturn]
    split
    · exact .ok hresult
    · split
      · exact .ok hresult
      · exact .emit _ (.fail _)

end FunctionDefinition

namespace Site

open ChainExpr.Task

variable {site : Site} {definition : FunctionDefinition} {roots known : Set Callable}
  {may : Interpreter → Chain → Prop}

theorem resolve_forwards (hroots : roots ⊆ known)
    (htypes : site.equipment.types.Each fun conversion _ => conversion.Forwards roots)
    (hdefinition : definition.Forwards roots) (names : List String) {values : Task (List (List Value))}
    (h : values.Forwards may known) : (site.resolve definition names values).Forwards may known := by
  rw [resolve]
  split
  · exact .emit _ (.fail _)
  · apply h.onError.bind
    intro more hle bound hbound
    exact (FunctionDefinition.bindArguments_forwards (hroots.trans hle) htypes hdefinition _ hbound).onError

theorem runLink_forwards (hroots : roots ⊆ known)
    (htypes : site.equipment.types.Each fun conversion _ => conversion.Forwards roots)
    (hdefinition : definition.Forwards roots) (link : Link) {context : Value}
    (hcontext : Holds known context)
    (harguments : (site.interpretArguments link.arguments context).Forwards may known) :
    (site.runLink definition link context).Forwards may known := by
  apply (resolve_forwards hroots htypes hdefinition _ harguments).bind
  intro more hle bound hbound
  have hinvoke : (definition.invoke site.equipment.types context bound).Forwards may more :=
    FunctionDefinition.invoke_forwards (hroots.trans hle) htypes hdefinition
      (Holding.mono hle hcontext) hbound
  rw [announce]
  split
  · exact .emit _ hinvoke
  · exact hinvoke

end Site

namespace Towers

open ChainExpr.Task

variable {towers : Towers} {interpreter runner : Interpreter} {roots : Set Callable} {start : Node}

/-- What is evaluated on one interpreter passes on function values, if the chains that it does not know
how to start do. It sets aside what it evaluates the partials of. -/
theorem Forwards.interpret_of_unknown (h : towers.Forwards roots) (hwithin : towers.Within runner)
    (hunknown : ∀ link rest, runner.functions.lookup link.function = none →
      towers.Evaluates roots interpreter start runner (.expression (link :: rest)) →
        ∀ known, roots ⊆ known → ∀ context, Holds known context →
          (runner.invokeChain (link :: rest) context).Forwards (towers.SetsAside roots interpreter start)
            known)
    (node : Node) : towers.Evaluates roots interpreter start runner node →
      ∀ known, roots ⊆ known → ∀ context, Holds known context →
        (runner.interpret node context).Forwards (towers.SetsAside roots interpreter start) known := by
  let may := towers.SetsAside roots interpreter start
  refine @Node.induction_links
    (fun node => towers.Evaluates roots interpreter start runner node →
      ∀ known, roots ⊆ known → ∀ context, Holds known context →
        (runner.site.interpret node context).Forwards may known)
    (fun links => towers.Evaluates roots interpreter start runner (.expression links) →
      ∀ known, roots ⊆ known → ∀ context, Holds known context →
        (runner.site.runChain links context).Forwards may known)
    ?expression ?deferred ?reference ?literal ?noLink ?link node
  case expression => exact fun links ih => ih
  case deferred =>
    -- The one place where a function value is made: its home is that of this interpreter.
    intro links _ hevaluates known _ context _
    refine .create .ok hevaluates ?_
    intro more _ serial hserial
    exact .ok (Holding.holds_deferred_iff.mpr hserial)
  case reference =>
    exact fun name _ known _ context _ => .ok (Holding.holds_of_deferreds (by simp [Value.deferreds]))
  case literal =>
    intro value _ known _ context _
    have hnone : (Value.ofLiteral value).deferreds = [] := by
      cases value <;> simp [Value.ofLiteral, Value.deferreds]
    exact .ok (Holding.holds_of_deferreds hnone)
  case noLink => exact fun _ known _ context hcontext => .ok hcontext
  case link =>
    intro name given rest hgiven hrest hevaluates known hroots context hcontext
    cases hlookup : runner.functions.lookup name with
    | none =>
      rw [← Interpreter.invokeChain_eq]
      exact hunknown ⟨name, given⟩ rest hlookup hevaluates known hroots context hcontext
    | some definition =>
      rw [Site.runChain_known hlookup]
      have harguments : (runner.site.interpretArguments given context).Forwards may known := by
        rw [Site.interpretArguments_eq]
        refine .join (List.forall_mem_map.mpr fun entry hentry => ?_)
        refine .join (List.forall_mem_map.mpr fun value hvalue => ?_)
        exact hgiven entry hentry value hvalue (.value hevaluates hlookup hentry hvalue) known hroots
          context hcontext
      apply (Site.runLink_forwards hroots (h.types runner hwithin)
        (h.functions runner hwithin name definition hlookup) ⟨name, given⟩ hcontext harguments).bind
      intro more hle result hresult
      exact hrest (.rest hevaluates hlookup) more (hroots.trans hle) result hresult

/-- Every evaluation that a node leads to passes on function values, and all that it makes are the chains
of the partials that it leads to. -/
theorem Forwards.interpret (h : towers.Forwards roots) (hwithin : towers.Within runner) (node : Node)
    (hevaluates : towers.Evaluates roots interpreter start runner node) {known : Set Callable}
    (hroots : roots ⊆ known) {context : Value} (hcontext : Holds known context) :
    (runner.interpret node context).Forwards (towers.SetsAside roots interpreter start) known := by
  induction runner using Interpreter.induction generalizing node known context with
  | step equipment host ih =>
    refine h.interpret_of_unknown hwithin ?_ node hevaluates known hroots context hcontext
    intro link rest hlookup hchain known hroots context hcontext
    rw [Interpreter.invokeChain_unknown hlookup]
    refine .emit _ (.emit _ ?_)
    cases host with
    | rejecting => exact .emit _ (.fail _)
    | delegating fallback =>
      refine .emit _ ?_
      rw [Interpreter.invokeChain_eq]
      exact ih fallback rfl hwithin.under (.expression (link :: rest)) (.handed_over hchain hlookup)
        hroots hcontext
    | custom name answer =>
      exact .routine "" (h.answers equipment name answer hwithin known hroots (link :: rest) context hcontext)
        fun _ _ _ houtcome => .finish houtcome

end Towers

namespace Stock

variable {roots known : Set Callable}

theorem pipe_forwards (name : String) {values : List Value} (h : Holds known values) {result : Value}
    (hresult : Holds known result) : (pipe name values result).Forwards known := by
  induction values generalizing known result with
  | nil => exact .finish (Holding.holds_ok hresult)
  | cons value rest ih =>
    obtain ⟨hvalue, hrest⟩ := List.forall_mem_cons.mp h
    cases value with
    | function callable =>
      refine .call hvalue hresult fun more hle outcome houtcome => ?_
      cases outcome with
      | ok next => exact ih (Holding.mono hle hrest) (houtcome next rfl)
      | error error => exact .finish (Holding.holds_error error)
    | _ => exact .finish (Holding.holds_error _)

/-- The roots are all the function values in what a stock function returns whatever it is given. -/
def Body.Keeps (roots : Set Callable) : Body → Prop
  | .constant value => Holds roots value
  | .yield _ body | .meet _ _ body => body.Keeps roots
  | _ => True

theorem argumentField_holds {argument : ArgumentValue} (h : Holds known argument) :
    Holds known (argumentField argument) := by
  cases argument with
  | single value => exact h
  | multi values =>
    rw [argumentField, Holding.holds_object_iff]
    intro field hfield
    obtain ⟨⟨value, index⟩, hmem, rfl⟩ := List.mem_map.mp hfield
    exact h value (List.fst_mem_of_mem_zipIdx hmem)

/-- The stock functions pass on function values: those of their contexts and arguments, and those that
they have been given when they were put together. -/
theorem Body.run_forwards (hroots : roots ⊆ known) (name : String) {context : Value}
    (hcontext : Holds known context) {arguments : Arguments} (harguments : Holds known arguments)
    (body : Body) (h : body.Keeps roots) :
    (body.run name context arguments).Forwards known := by
  have hplain {value : Value} (hvalue : value.deferreds = []) : (Routine.ok value).Forwards known :=
    .finish (Holding.holds_ok (Holding.holds_of_deferreds hvalue))
  induction body with
  | context => exact .finish (Holding.holds_ok hcontext)
  | wrap =>
    refine .finish (Holding.holds_ok (Holding.holds_object_iff.mpr ?_))
    exact List.forall_mem_singleton.mpr hcontext
  | render renderer => exact .finish (Holding.holds_ok (Holding.holds_render_iff.mpr hcontext))
  | constant value => exact .finish (Holding.holds_ok (Holding.mono hroots h))
  | argument key =>
    rw [Body.run]
    cases hsingle : arguments.single? key with
    | some value => exact .finish (Holding.holds_ok (Holding.holds_single? harguments hsingle))
    | none => exact .finish (Holding.holds_ok Holding.holds_null)
  | arguments =>
    refine .finish (Holding.holds_ok (Holding.holds_object_iff.mpr ?_))
    intro field hfield
    obtain ⟨entry, hentry, rfl⟩ := List.mem_map.mp hfield
    exact argumentField_holds (harguments entry hentry)
  | call =>
    rw [Body.run]
    split
    · rename_i callable hcallable
      obtain ⟨value, hsingle, hfunction⟩ := Option.bind_eq_some_iff.mp hcallable
      cases value with
      | function given =>
        cases hfunction
        exact .call (Holding.holds_single? harguments hsingle) hcontext fun _ _ _ houtcome =>
          .finish houtcome
      | _ => cases hfunction
    · exact .finish (Holding.holds_error _)
  | pipe =>
    rw [Body.run]
    cases hmulti : arguments.multi? "fn" with
    | some values => exact pipe_forwards name (Holding.holds_multi? harguments hmulti) hcontext
    | none => exact pipe_forwards name Holding.holds_nil hcontext
  | tick =>
    exact .tick fun before => hplain (by simp [Value.deferreds])
  | fail message => exact .finish (Holding.holds_error _)
  | failAs function message => exact .finish (Holding.holds_error _)
  | yield polls body ih => exact .wait polls (ih h)
  | meet point count body ih => exact .arrive point (.await point count (ih h))
  | _ => exact hplain (by simp [Value.deferreds])

end Stock

end ChainExpr
