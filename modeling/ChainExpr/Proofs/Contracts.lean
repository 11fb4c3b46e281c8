import ChainExpr.Proofs.Conduct
import ChainExpr.Proofs.Rounds
import ChainExpr.Stock

namespace ChainExpr

/-- Some interpreter of the towers finds the function under some name. -/
def Towers.Knows (towers : Towers) (definition : FunctionDefinition) : Prop :=
  ∃ interpreter name, towers.Within interpreter ∧
    interpreter.functions.lookup name = some definition

/-- What is left of a routine after some of its steps. -/
def Routine.Reaches : Routine → Routine → Prop := Relation.ReflTransGen Routine.Leads

namespace Towers

variable {towers : Towers}

/-- Calls are of functions that the towers know, on contexts and arguments that fit, and are followed
by the implementation. No routine runs but what is left of such a call or of the answer of a host. -/
def contracts (towers : Towers) : Policy where
  event := fun entry next =>
    match entry with
    | .call function context arguments =>
      ∃ definition after, towers.Knows definition ∧ definition.name = function ∧
        next = .routine function (definition.implementation context arguments) after ∧
        definition.Fits context arguments
    | _ => True
  routine := fun function body =>
    (∃ definition context arguments, towers.Knows definition ∧ definition.name = function ∧
      definition.Fits context arguments ∧ (definition.implementation context arguments).Reaches body) ∨
    ∃ equipment name answer chain context, towers.Within (.mk equipment (.custom name answer)) ∧
      function = "" ∧ (answer chain context).Reaches body
  event_andThen := by
    intro α β entry task next h
    cases entry with
    | call function context arguments =>
      obtain ⟨definition, after, hknows, hname, rfl, hfits⟩ := h
      exact ⟨definition, fun outcome => (after outcome).andThen next, hknows, hname, rfl, hfits⟩
    | _ => trivial
  routine_leads := by
    intro function body rest hleads h
    rcases h with ⟨definition, context, arguments, hknows, hname, hfits, hreaches⟩ |
      ⟨equipment, name, answer, chain, context, hwithin, hname, hreaches⟩
    · exact .inl ⟨definition, context, arguments, hknows, hname, hfits, hreaches.tail hleads⟩
    · exact .inr ⟨equipment, name, answer, chain, context, hwithin, hname, hreaches.tail hleads⟩

/-- Over well typed registries nothing that a tower does breaks a contract. -/
theorem contracts_allows
    (well : ∀ interpreter, towers.Within interpreter → interpreter.types.WellTyped) :
    towers.contracts.Allows towers where
  log _ _ := trivial
  conversion _ _ := trivial
  request _ _ _ _ _ := trivial
  call interpreter hwithin name definition hlookup context arguments hfits := by
    have hknows : towers.Knows definition := ⟨interpreter, name, hwithin, hlookup⟩
    have hfit : definition.Fits context arguments := hfits (well interpreter hwithin)
    refine ⟨⟨definition, .finish, hknows, rfl, rfl, hfit⟩, ?_, fun _ => trivial⟩
    exact .inl ⟨definition, context, arguments, hknows, rfl, hfit, .refl⟩
  answer equipment name answer hwithin chain context :=
    .inr ⟨equipment, name, answer, chain, context, hwithin, rfl, .refl⟩

/-- The standard registry is well typed. Over well typed registries, whatever order waiting parts are
resumed in, every part about to call goes on with the implementation of a known function on a context
and arguments that fit it; no implementation runs otherwise; the calls in the history of a driven
evaluation are such calls; and every invocation that succeeds gives a value of the declared type. -/
theorem contracts_kept (towers : Towers) (interpreter : Interpreter) (hwithin : towers.Within interpreter)
    (well : ∀ interpreter, towers.Within interpreter → interpreter.types.WellTyped) (node : Node)
    (context : Value) (world : World) :
    TypeRegistry.standard.WellTyped ∧
    (∀ state, towers.Runs (interpreter.interpret node context, world) state →
      (∀ {β : Type} function given arguments (next : Task β),
        Task.Part (.emit (.call function given arguments) next) state.1 →
          ∃ definition after, towers.Knows definition ∧ definition.name = function ∧
            next = .routine function (definition.implementation given arguments) after ∧
            definition.Fits given arguments) ∧
      ∀ {β : Type} function body (next : Except RuntimeError Value → Task β),
        Task.Part (.routine function body next) state.1 →
          (∃ definition given arguments, towers.Knows definition ∧ definition.name = function ∧
            definition.Fits given arguments ∧
            (definition.implementation given arguments).Reaches body) ∨
          ∃ equipment name answer chain given,
            towers.Within (.mk equipment (.custom name answer)) ∧ function = "" ∧
            (answer chain given).Reaches body) ∧
    (∀ depth rounds ending world',
      towers.drive depth rounds (interpreter.interpret node context) world = (ending, world') →
        ∃ events, world'.history = world.history ++ events ∧
          ∀ function given arguments, .call function given arguments ∈ events →
            ∃ definition, towers.Knows definition ∧ definition.name = function ∧
              definition.Fits given arguments) ∧
    (∀ (definition : FunctionDefinition) types given arguments middle (value : Value) world' expected,
      towers.Runs (definition.invoke types given arguments, middle) (.finish (.ok value), world') →
        definition.returns = some expected → value.type = expected) := by
  have hallows := contracts_allows well
  refine ⟨TypeRegistry.wellTyped_standard, ?_, ?_, ?_⟩
  · intro state hrun
    have hobeys := hallows.obeys_of_runs hwithin hrun
    constructor
    · intro β function given arguments next hpart
      exact (hobeys.part hpart).1
    · intro β function body next hpart
      exact (hobeys.part hpart).1
  · intro depth rounds ending world' hdrive
    obtain ⟨rest, hrun, _⟩ := runs_of_drive hdrive
    obtain ⟨events, hshows⟩ := hrun.shows
    refine ⟨events, hshows.2, ?_⟩
    intro function given arguments hcall
    have hstart := hallows.obeys_interpret hwithin node context
    rcases hshows.obeyed hallows.obeys_callTask hstart _ hcall with
      ⟨resumed, hresume⟩ | ⟨_, _, definition, _, hknows, hname, _, hfits⟩
    · cases hresume
    · exact ⟨definition, hknows, hname, hfits⟩
  · intro definition types given arguments middle value world' expected hrun hdeclared
    have hreturns := hrun.returns (FunctionDefinition.invoke_returns given arguments)
    exact hreturns value rfl expected hdeclared

/-- A pause is called on a string, though its chain starts from null. -/
theorem contracts_kept_pausing :
    (∀ interpreter, (Stock.pausing 2).alone.Within interpreter → interpreter.types.WellTyped) ∧
    ∃ definition, (Stock.pausing 2).alone.Knows definition ∧ definition.name = "act" ∧
      definition.Fits (.string "") ∅ := by
  have hwithin : (Stock.pausing 2).alone.Within (Stock.pausing 2) := ⟨0, .top⟩
  have hwell : ∀ interpreter, (Stock.pausing 2).alone.Within interpreter → interpreter.types.WellTyped := by
    intro interpreter hwithin
    rcases Interpreter.within_mk.mp (Interpreter.within_alone.mp hwithin) with rfl | ⟨_, hhost, _⟩
    · exact TypeRegistry.wellTyped_standard
    · cases hhost
  obtain ⟨events, hhistory, hcalls⟩ := (contracts_kept (Stock.pausing 2).alone (Stock.pausing 2) hwithin hwell
    (.expression [⟨"act", []⟩]) .null .start).2.2.1 0 1 _ _ rfl
  have hevents : events = [.conversion ⟨.target, .null, .string, .null, false⟩,
      .call "act" (.string "") ∅] := hhistory.symm
  refine ⟨hwell, hcalls "act" (.string "") ∅ ?_⟩
  rw [hevents]
  simp

end Towers

end ChainExpr
