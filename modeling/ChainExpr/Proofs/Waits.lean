import ChainExpr.Interpreter.Run
import ChainExpr.Proofs.Alike
import ChainExpr.Proofs.Related
import ChainExpr.Proofs.Uniform

namespace ChainExpr

open Likeness (Like)

/-- Two functions of one declaration that do alike on like contexts and arguments. Defaults are there
before the first of the numbers that may differ. -/
structure FunctionDefinition.Alike (n : Nat) (definition definition' : FunctionDefinition) :
    Prop where
  returns : definition.returns = definition'.returns
  contexts : definition.contextTypes = definition'.contextTypes
  signature : definition.signature = definition'.signature
  defaults : ∀ entry ∈ definition.signature.arguments.entries, ∀ value,
    entry.2.default? = some value → value.MadeBefore n
  bodies : ∀ p : Pairing, p.Faithful → p.Keeps n → ∀ context context', Like p context context' →
    ∀ arguments arguments', Like p arguments arguments' →
      (definition.implementation context arguments).Alike p
        (definition'.implementation context' arguments')

/-- What two interpreters know differs in waits only. -/
structure Equipment.Alike (n : Nat) (equipment equipment' : Equipment) : Prop where
  functions : ∀ name, Option.Rel (FunctionDefinition.Alike n) (equipment.functions.lookup name)
    (equipment'.functions.lookup name)
  types : equipment.types = equipment'.types
  uniform : equipment.types.Uniform n
  config : equipment.config = equipment'.config
  tower : equipment.tower = equipment'.tower

/-- Two towers whose interpreters, level by level, differ in waits only: those of implementations and
those of the answers of hosts. -/
inductive Interpreter.DiffersInWaits (n : Nat) : Interpreter → Interpreter → Prop
  | rejecting {equipment equipment' : Equipment} (known : equipment.Alike n equipment') :
      DiffersInWaits n (.mk equipment .rejecting) (.mk equipment' .rejecting)
  | delegating {equipment equipment' : Equipment} {fallback fallback' : Interpreter}
      (known : equipment.Alike n equipment') (fallbacks : DiffersInWaits n fallback fallback') :
      DiffersInWaits n (.mk equipment (.delegating fallback)) (.mk equipment' (.delegating fallback'))
  | custom {equipment equipment' : Equipment} {name name' : String}
      {answer answer' : Chain → Value → Routine} (known : equipment.Alike n equipment')
      (answers : ∀ p : Pairing, p.Faithful → p.Keeps n → ∀ chain context context',
        Like p context context' → (answer chain context).Alike p (answer' chain context')) :
      DiffersInWaits n (.mk equipment (.custom name answer)) (.mk equipment' (.custom name' answer'))

namespace Entries

variable {α : Type} [Likeness α] {p : Pairing}

theorem lookup_like {entries entries' : List (String × α)} (h : Like p entries entries')
    (name : String) : Option.Rel (Like p) (entries.lookup name) (entries'.lookup name) :=
  Related.lookup h name

theorem insert_like {entries entries' : List (String × α)} (h : Like p entries entries')
    (name : String) {value value' : α} (hvalue : Like p value value') :
    Like p (insert name value entries) (insert name value' entries') :=
  Related.insert h name hvalue

end Entries

/-- What comes after a cast is alike if it is after like outcomes. -/
theorem Task.Alike.cast {α : Type} [Likeness α] {types : TypeRegistry} {n : Nat} {p : Pairing}
    (huniform : types.Uniform n) (hp : p.Faithful) (hkeeps : p.Keeps n) {value value' : Value}
    (h : Like p value value') (acceptable : List TypeName)
    {next next' : Except CastError Value → Task α}
    (hnext : ∀ outcome outcome', Like p outcome outcome' → (next outcome).Alike p (next' outcome')) :
    (Task.cast types value acceptable next).Alike p (Task.cast types value' acceptable next') := by
  have hcast := TypeRegistry.cast_like huniform hp hkeeps h acceptable
  simp only [Task.cast]
  generalize types.cast value acceptable = found at hcast ⊢
  generalize types.cast value' acceptable = found' at hcast ⊢
  cases hcast with
  | ok hlength hlike =>
    refine Task.Alike.emitAll ?_ (hnext _ _ (.ok hlike))
    rw [List.length_map, List.length_map, hlength]
  | error hlength error error' =>
    refine Task.Alike.emitAll ?_ (hnext _ _ (.error error error'))
    rw [List.length_map, List.length_map, hlength]

namespace FunctionDefinition

variable {definition definition' : FunctionDefinition} {types : TypeRegistry} {n : Nat} {p : Pairing}

theorem foldValues_like (names : List String) {values values' : List (List Value)}
    (h : Like p values values') : Like p (foldValues names values) (foldValues names values') :=
  foldValues_related names h

/-- The values that count are alike if a default is older than the numbers that may differ. -/
theorem valuesFor_like (hkeeps : p.Keeps n) (name : String) {argument : ArgumentDefinition}
    (hdefault : ∀ value, argument.default? = some value → value.MadeBefore n)
    {bound bound' : List (String × List Value)} (h : Like p bound bound') :
    Like p (valuesFor name argument bound) (valuesFor name argument bound') := by
  have hstands : Like p (argument.default?.getD .null) (argument.default?.getD .null) := by
    cases hvalue : argument.default? with
    | some value => exact Value.Like.refl hkeeps (hdefault value hvalue)
    | none => exact ⟨rfl, .nil⟩
  exact valuesFor_related name argument hstands h

theorem resolveNames_alike (halike : definition.Alike n definition') (names : List String) :
    definition.resolveNames names = definition'.resolveNames names := by
  induction names with
  | nil => rfl
  | cons name rest ih => rw [resolveNames, resolveNames, ih, halike.signature]

variable (huniform : types.Uniform n)
include huniform

theorem castFor_alike (hp : p.Faithful) (hkeeps : p.Keeps n) (name : String)
    (acceptable : List TypeName) {value value' : Value} (h : Like p value value') :
    (definition.castFor types name acceptable value).Alike p
      (definition'.castFor types name acceptable value') := by
  apply Task.Alike.cast huniform hp hkeeps h
  intro outcome outcome' houtcome
  cases houtcome with
  | ok hlike => exact .ok hlike
  | error error error' => exact .fail _ _

theorem castAll_alike (hp : p.Faithful) (hkeeps : p.Keeps n) (name : String)
    (acceptable : List TypeName) {values values' : List Value} (h : Like p values values') :
    (definition.castAll types name acceptable values).Alike p
      (definition'.castAll types name acceptable values') := by
  induction values generalizing values' p with
  | nil =>
    cases h
    exact .ok .nil
  | cons value rest ih =>
    cases h with
    | cons hvalue hrest =>
      apply (castFor_alike huniform hp hkeeps name acceptable hvalue).bind hp
      intro q hle hq first first' hfirst
      apply (ih hq (hkeeps.mono hle) (Likeness.mono hle hrest)).bind hq
      intro r hle' _ later later' hlater
      exact .ok (.cons (Likeness.mono hle' hfirst) hlater)

theorem bindOne_alike (hp : p.Faithful) (hkeeps : p.Keeps n) (name : String)
    (argument : ArgumentDefinition) {values values' : List Value} (h : Like p values values') :
    (definition.bindOne types name argument values).Alike p
      (definition'.bindOne types name argument values') := by
  rw [bindOne, bindOne]
  split
  · apply (castAll_alike huniform hp hkeeps name argument.types h).bind hp
    intro q _ _ converted converted' hconverted
    exact .ok (.multi hconverted)
  · have hlast : Like p (values.getLast?.getD .null) (values'.getLast?.getD .null) :=
      getLast?_getD_related h ⟨rfl, .nil⟩
    apply (castFor_alike huniform hp hkeeps name argument.types hlast).bind hp
    intro q _ _ converted converted' hconverted
    exact .ok (.single hconverted)

theorem bindEach_alike (hp : p.Faithful) (hkeeps : p.Keeps n)
    {bound bound' : List (String × List Value)} (hbound : Like p bound bound')
    {done done' : Arguments} (hdone : Like p done done')
    {declared : List (String × ArgumentDefinition)}
    (hdefaults : ∀ entry ∈ declared, ∀ value, entry.2.default? = some value → value.MadeBefore n) :
    (definition.bindEach types bound done declared).Alike p
      (definition'.bindEach types bound' done' declared) := by
  induction declared generalizing done done' p with
  | nil => exact .ok hdone
  | cons entry rest ih =>
    obtain ⟨name, argument⟩ := entry
    have hvalues := valuesFor_like hkeeps name (hdefaults (name, argument) (by simp)) hbound
    apply (bindOne_alike huniform hp hkeeps name argument hvalues).bind hp
    intro q hle hq given given' hgiven
    apply ih hq (hkeeps.mono hle) (Likeness.mono hle hbound)
    · exact Entries.insert_like (Likeness.mono hle hdone) name hgiven
    · exact fun entry hentry => hdefaults entry (by simp [hentry])

theorem invoke_alike (halike : definition.Alike n definition') (hp : p.Faithful)
    (hkeeps : p.Keeps n) {context context' : Value}
    (hcontext : Like p context context') {arguments arguments' : Arguments}
    (harguments : Like p arguments arguments') :
    (definition.invoke types context arguments).Alike p
      (definition'.invoke types context' arguments') := by
  have hacceptable : definition.acceptable = definition'.acceptable := by
    rw [acceptable, acceptable, halike.contexts]
  rw [invoke, invoke, ← hacceptable]
  apply Task.Alike.cast huniform hp hkeeps hcontext
  intro outcome outcome' houtcome
  cases houtcome with
  | error error error' => exact .emit _ _ (.fail _ _)
  | @ok converted converted' hlike =>
    have hbody := halike.bodies p hp hkeeps converted converted' hlike arguments arguments' harguments
    have hcall : (definition.call converted arguments).Alike p
        (definition'.call converted' arguments') :=
      .emit _ _ (.routine _ _ hbody fun q _ _ _ _ houtcome => .finish houtcome)
    apply (hcall.onError _ _ hp).bind hp
    intro q _ _ result result' hresult
    have htype : result.type = result'.type := Value.Like.type hresult
    rw [checkReturn, checkReturn, ← halike.returns, ← htype]
    split
    · exact .ok hresult
    · split
      · exact .ok hresult
      · exact .emit _ _ (.fail _ _)

end FunctionDefinition

namespace Interpreter.DiffersInWaits

variable {n : Nat} {p : Pairing} {interpreter interpreter' : Interpreter}

theorem known (h : interpreter.DiffersInWaits n interpreter') :
    interpreter.equipment.Alike n interpreter'.equipment := by
  cases h with
  | rejecting known => exact known
  | delegating known _ => exact known
  | custom known _ => exact known

theorem level (h : interpreter.DiffersInWaits n interpreter') :
    interpreter.level = interpreter'.level := by
  induction h with
  | rejecting _ => rfl
  | custom _ _ => rfl
  | delegating _ _ ih => exact congrArg (· + 1) ih

theorem home (h : interpreter.DiffersInWaits n interpreter') :
    interpreter.site.home = interpreter'.site.home :=
  congrArg₂ Home.mk h.known.tower h.level

theorem atLevel (h : interpreter.DiffersInWaits n interpreter') (level : Nat) :
    (interpreter.atLevel level).DiffersInWaits n (interpreter'.atLevel level) := by
  induction h with
  | rejecting known => exact .rejecting known
  | custom known answers => exact .custom known answers
  | @delegating _ _ fallback _ known fallbacks ih =>
    simp only [Interpreter.atLevel, Host.atLevel?, ← fallbacks.level]
    by_cases hlevel : level ≤ fallback.level
    · simp only [if_pos hlevel]
      exact ih
    · simp only [if_neg hlevel]
      exact .delegating known fallbacks

theorem resolve (h : interpreter.DiffersInWaits n interpreter')
    {definition definition' : FunctionDefinition} (halike : definition.Alike n definition')
    (hp : p.Faithful) (hkeeps : p.Keeps n) (names : List String)
    {values values' : Task (List (List Value))} (hvalues : values.Alike p values') :
    (interpreter.site.resolve definition names values).Alike p
      (interpreter'.site.resolve definition' names values') := by
  have htypes : interpreter.site.equipment.types = interpreter'.site.equipment.types := h.known.types
  have huniform : interpreter.site.equipment.types.Uniform n := h.known.uniform
  rw [Site.resolve, Site.resolve, ← FunctionDefinition.resolveNames_alike halike, ← htypes]
  split
  · exact .emit _ _ (.fail _ _)
  · rename_i names hnames
    apply (hvalues.onError _ _ hp).bind hp
    intro q hle hq bound bound' hbound
    apply Task.Alike.onError _ _ _ hq
    rw [FunctionDefinition.bindArguments, FunctionDefinition.bindArguments, ← halike.signature]
    apply FunctionDefinition.bindEach_alike huniform hq (hkeeps.mono hle)
    · exact FunctionDefinition.foldValues_like names hbound
    · exact .nil
    · exact halike.defaults

theorem runLink (h : interpreter.DiffersInWaits n interpreter')
    {definition definition' : FunctionDefinition} (halike : definition.Alike n definition')
    (hp : p.Faithful) (hkeeps : p.Keeps n) (link : Link) {context context' : Value}
    (hcontext : Like p context context')
    (harguments : (interpreter.site.interpretArguments link.arguments context).Alike p
      (interpreter'.site.interpretArguments link.arguments context')) :
    (interpreter.site.runLink definition link context).Alike p
      (interpreter'.site.runLink definition' link context') := by
  have htypes : interpreter.site.equipment.types = interpreter'.site.equipment.types := h.known.types
  have huniform : interpreter.site.equipment.types.Uniform n := h.known.uniform
  have hconfig : interpreter.site.equipment.config = interpreter'.site.equipment.config :=
    h.known.config
  apply (h.resolve halike hp hkeeps _ harguments).bind hp
  intro q hle hq bound bound' hbound
  have hinvoke := FunctionDefinition.invoke_alike huniform halike hq (hkeeps.mono hle)
    (Likeness.mono hle hcontext) hbound
  rw [Site.announce, Site.announce, ← hconfig, ← htypes]
  split
  · exact .emit _ _ hinvoke
  · exact hinvoke

/-- One interpreter evaluates nodes alike if its host answers alike. -/
theorem interpret_of_answer (h : interpreter.DiffersInWaits n interpreter')
    (hanswer : ∀ p : Pairing, p.Faithful → p.Keeps n → ∀ chain context context',
      Like p context context' →
        (interpreter.host.answer chain context).Alike p (interpreter'.host.answer chain context'))
    (node : Node) : ∀ p : Pairing, p.Faithful → p.Keeps n → ∀ context context',
      Like p context context' →
        (interpreter.site.interpret node context).Alike p (interpreter'.site.interpret node context') := by
  refine @Node.induction_links
    (fun node => ∀ p : Pairing, p.Faithful → p.Keeps n → ∀ context context', Like p context context' →
      (interpreter.site.interpret node context).Alike p (interpreter'.site.interpret node context'))
    (fun links => ∀ p : Pairing, p.Faithful → p.Keeps n → ∀ context context', Like p context context' →
      (interpreter.site.runChain links context).Alike p (interpreter'.site.runChain links context'))
    ?expression ?deferred ?reference ?literal ?noLink ?link node
  case expression => exact fun links ih => ih
  case deferred =>
    intro links _ p _ _ context context' _
    refine .create fun q _ _ a b hab => ?_
    rw [← h.home]
    exact .ok (Value.Like.deferred hab _ links)
  case reference => exact fun name p _ _ context context' _ => .ok ⟨rfl, .nil⟩
  case literal =>
    intro value p _ _ context context' _
    cases value <;> exact .ok ⟨rfl, .nil⟩
  case noLink => exact fun p _ _ context context' hcontext => .ok hcontext
  case link =>
    intro name given rest hgiven hrest p hp hkeeps context context' hcontext
    have hfunctions : Option.Rel (FunctionDefinition.Alike n)
        (interpreter.site.equipment.functions.lookup name)
        (interpreter'.site.equipment.functions.lookup name) := h.known.functions name
    generalize hlookup : interpreter.site.equipment.functions.lookup name = found at hfunctions
    generalize hlookup' : interpreter'.site.equipment.functions.lookup name = found' at hfunctions
    cases hfunctions with
    | none =>
      rw [Site.runChain_unknown hlookup, Site.runChain_unknown hlookup']
      exact .emit _ _ (hanswer p hp hkeeps _ context context' hcontext)
    | some halike =>
      rw [Site.runChain_known hlookup, Site.runChain_known hlookup']
      have hvalues : (interpreter.site.interpretArguments given context).Alike p
          (interpreter'.site.interpretArguments given context') := by
        rw [Site.interpretArguments_eq, Site.interpretArguments_eq]
        exact .join fun entry hentry => .join fun value hvalue =>
          hgiven entry hentry value hvalue p hp hkeeps context context' hcontext
      apply (h.runLink halike hp hkeeps ⟨name, given⟩ hcontext hvalues).bind hp
      intro q hle hq result result' hresult
      exact hrest q hq (hkeeps.mono hle) result result' hresult

/-- Towers that differ in waits only evaluate every node by alike tasks on like contexts. -/
theorem interpret (h : interpreter.DiffersInWaits n interpreter') (hp : p.Faithful)
    (hkeeps : p.Keeps n) (node : Node) {context context' : Value} (hcontext : Like p context context') :
    (interpreter.interpret node context).Alike p (interpreter'.interpret node context') := by
  induction h generalizing p node context context' with
  | rejecting known =>
    refine interpret_of_answer (.rejecting known) ?_ node p hp hkeeps context context' hcontext
    intro q _ _ chain context context' _
    exact .emit _ _ (.emit _ _ (.fail _ _))
  | delegating known fallbacks ih =>
    refine interpret_of_answer (.delegating known fallbacks) ?_ node p hp hkeeps context context'
      hcontext
    intro q hq hkeeps chain context context' hcontext
    refine .emit _ _ (.emit _ _ ?_)
    rw [Interpreter.invokeChain_eq, Interpreter.invokeChain_eq]
    exact ih hq hkeeps (.expression chain) hcontext
  | custom known answers =>
    refine interpret_of_answer (.custom known answers) ?_ node p hp hkeeps context context' hcontext
    intro q hq hkeeps chain context context' hcontext
    refine .emit _ _ (.routine _ _ (answers q hq hkeeps chain context context' hcontext) ?_)
    exact fun r _ _ outcome outcome' houtcome => .finish houtcome

end Interpreter.DiffersInWaits

/-- Towers that differ, each from the one of its number, in waits only. -/
def Towers.DiffersInWaits (n : Nat) (towers towers' : Towers) : Prop :=
  ∀ number, (towers.top number).DiffersInWaits n (towers'.top number)

namespace Towers.DiffersInWaits

variable {n : Nat} {p : Pairing} {towers towers' : Towers}

theorem resident (h : towers.DiffersInWaits n towers') (home : Home) :
    (towers.resident home).DiffersInWaits n (towers'.resident home) :=
  (h home.tower).atLevel home.level

theorem callTask (h : towers.DiffersInWaits n towers') (hp : p.Faithful)
    (hkeeps : p.Keeps n) {callee callee' : Callable}
    (hcallee : Like p (Value.function callee) (Value.function callee')) {context context' : Value}
    (hcontext : Like p context context') :
    (towers.callTask callee context).Alike p (towers'.callTask callee' context') := by
  obtain ⟨hshape, _⟩ := hcallee
  cases callee with
  | deferred home serial chain =>
    cases callee' with
    | reference name => simp [Value.shape] at hshape
    | deferred home' serial' chain' =>
      simp only [Value.shape, Value.function.injEq, Callable.deferred.injEq, true_and] at hshape
      obtain ⟨rfl, rfl⟩ := hshape
      rw [Towers.callTask, Towers.callTask, Interpreter.invokeChain_eq, Interpreter.invokeChain_eq]
      exact (h.resident home).interpret hp hkeeps (.expression chain) hcontext
  | reference name =>
    cases callee' with
    | deferred home serial chain => simp [Value.shape] at hshape
    | reference name' => exact .fail _ _

end Towers.DiffersInWaits

end ChainExpr
