import ChainExpr.Proofs.Links
import ChainExpr.Proofs.Polling
import ChainExpr.Stock

namespace ChainExpr

namespace Towers

/-- Running `a ++ b` is running `a` and, exactly when that has brought about a value, `b` on that value.
It is so for the tasks; for everything that a run in any order can come to, with the events that it
shows; and for evaluations in rounds, where `b` starts in the round in which `a` is done. -/
theorem chain_composition (towers : Towers) (interpreter : Interpreter) (a b : Chain) (context : Value)
    (world : World)
    (known : ∀ link ∈ a, interpreter.functions.contains link.function = true) :
    interpreter.invokeChain (a ++ b) context =
      (interpreter.invokeChain a context).bind (interpreter.invokeChain b) ∧
    (∀ events outcome world',
      towers.Shows (interpreter.invokeChain (a ++ b) context, world) events
          (.finish outcome, world') ↔
        (∃ error, outcome = .error error ∧
          towers.Shows (interpreter.invokeChain a context, world) events
            (.finish (.error error), world')) ∨
        ∃ value middle first later, events = first ++ later ∧
          towers.Shows (interpreter.invokeChain a context, world) first (.finish (.ok value), middle) ∧
          towers.Shows (interpreter.invokeChain b value, middle) later (.finish outcome, world')) ∧
    (∀ events state,
      towers.Shows (interpreter.invokeChain (a ++ b) context, world) events state ↔
        (∃ part world', towers.Shows (interpreter.invokeChain a context, world) events (part, world') ∧
          state = (part.bind (interpreter.invokeChain b), world')) ∨
        ∃ value middle first later, events = first ++ later ∧
          towers.Shows (interpreter.invokeChain a context, world) first (.finish (.ok value), middle) ∧
          towers.Shows (interpreter.invokeChain b value, middle) later state) ∧
    (∀ polls outcome world',
      towers.Ends (interpreter.invokeChain (a ++ b) context) world polls outcome world' ↔
        (∃ error, outcome = .error error ∧
          towers.Ends (interpreter.invokeChain a context) world polls (.error error) world') ∨
        ∃ value middle before after, polls = before + after ∧
          towers.Ends (interpreter.invokeChain a context) world before (.ok value) middle ∧
          towers.Ends (interpreter.invokeChain b value) middle after outcome world') ∧
    (a = [] → interpreter.invokeChain (a ++ b) context = interpreter.invokeChain b context) := by
  have htask := Interpreter.invokeChain_append known b context
  refine ⟨htask, ?_, ?_, ?_, ?_⟩
  · intro events outcome world'
    rw [htask]
    exact shows_bind_finish
  · intro events state
    rw [htask]
    exact shows_bind
  · intro polls outcome world'
    rw [htask]
    exact ends_bind
  · rintro rfl
    rfl

/-- Two pauses take as long as one and then another. -/
theorem chain_composition_pausing :
    (∀ link ∈ ([⟨"act", []⟩] : Chain),
      (Stock.pausing 2).functions.contains link.function = true) ∧
    ∃ world', (Stock.pausing 2).alone.Ends
      ((Stock.pausing 2).invokeChain ([⟨"act", []⟩] ++ [⟨"act", []⟩]) .null) .start 4
      (.ok (.string "")) world' := by
  have hfirst (world : World) : ∃ world', (Stock.pausing 2).alone.Ends
      ((Stock.pausing 2).invokeChain [⟨"act", []⟩] .null) world 2 (.ok (.string "")) world' :=
    ⟨_, .later ⟨by simp, 0, rfl⟩ (.later ⟨by simp, 0, rfl⟩ (.now ⟨by simp, 0, rfl⟩))⟩
  have hsecond (world : World) : ∃ world', (Stock.pausing 2).alone.Ends
      ((Stock.pausing 2).invokeChain [⟨"act", []⟩] (.string "")) world 2 (.ok (.string "")) world' :=
    ⟨_, .later ⟨by simp, 0, rfl⟩ (.later ⟨by simp, 0, rfl⟩ (.now ⟨by simp, 0, rfl⟩))⟩
  obtain ⟨middle, hfirst⟩ := hfirst .start
  obtain ⟨world', hsecond⟩ := hsecond middle
  refine ⟨by decide, world', ?_⟩
  have hparts := chain_composition (Stock.pausing 2).alone (Stock.pausing 2) [⟨"act", []⟩] [⟨"act", []⟩] .null
    .start (by decide)
  exact (hparts.2.2.2.1 4 (.ok (.string "")) world').mpr
    (.inr ⟨.string "", middle, 2, 2, rfl, hfirst, hsecond⟩)

end Towers

end ChainExpr
