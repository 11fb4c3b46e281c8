import ChainExpr.Proofs.Agreement
import ChainExpr.Proofs.StockWaits

namespace ChainExpr

namespace Towers

/-- Both outcomes are errors, or values that are the same but for the numbers of chains set aside on
the way. Numbers below `n` were given out before and are the same. -/
inductive Agree (n : Nat) : Except RuntimeError Value → Except RuntimeError Value → Prop
  | ok {value value' : Value} (pairing : Pairing) (faithful : pairing.Faithful)
      (keeps : pairing.Keeps n) (like : Value.Like pairing value value') :
      Agree n (.ok value) (.ok value')
  | error (error error' : RuntimeError) : Agree n (.error error) (.error error')

namespace Agree

variable {n : Nat} {outcome first second : Except RuntimeError Value}

theorem of_like {pairing : Pairing} (faithful : pairing.Faithful) (keeps : pairing.Keeps n)
    (like : Likeness.Like pairing first second) : Agree n first second := by
  cases like with
  | ok hlike => exact .ok pairing faithful keeps hlike
  | error error error' => exact .error error error'

theorem between (h : Agree n outcome first) (h' : Agree n outcome second) : Agree n first second := by
  cases h with
  | ok p faithful keeps like =>
    cases h' with
    | ok q faithful' keeps' like' =>
      exact .ok (p.between q) (faithful.between faithful') (keeps.between keeps') (like.between like')
  | error error error' =>
    cases h' with
    | error _ error'' => exact .error error' error''

/-- Values without function values are the very same. -/
theorem eq_of_numbers {value : Value} (h : Agree n (.ok value) outcome)
    (hnone : value.numbers = []) : outcome = .ok value := by
  cases h with
  | ok pairing _ _ like => rw [like.eq_of_numbers hnone]

end Agree

variable {towers towers' : Towers}

/-- An evaluation all of whose parts end does so in rounds too, whatever the waits, and in agreement. -/
theorem Settles.agrees {home : Home} {node : Node} {context : Value} {world : World} {last : Nat}
    {outcome : Except RuntimeError Value}
    (h : towers.Settles ((towers.resident home).interpret node context) world.serial outcome last)
    (hcontext : context.MadeBefore world.serial) (hdiffer : towers.DiffersInWaits world.serial towers') :
    ∃ polls outcome' world',
      towers'.Ends ((towers'.resident home).interpret node context) world polls outcome' world' ∧
      Agree world.serial outcome outcome' := by
  have hp : (Pairing.same world.serial).Faithful := Pairing.same_faithful world.serial
  have hkeeps : (Pairing.same world.serial).Keeps world.serial := Pairing.same_keeps world.serial
  have halike := (hdiffer.resident home).interpret hp hkeeps node (Value.Like.refl hkeeps hcontext)
  have hfinishes : towers'.Finishes _ ∅ _ world :=
    h.finishes hdiffer halike hp hkeeps (Pairing.same_below world.serial)
  obtain ⟨polls, outcome', world', hends, numbers, q, hgrows, _, hlike⟩ := hfinishes.ends
  exact ⟨polls, outcome', world', hends, .of_like hgrows.faithful (hkeeps.mono hgrows.le) hlike⟩

/-- Concurrent evaluation refines plain evaluation. Where implementations are functions of contexts and
arguments apart from waits and calls, and all parts of an evaluation end, the plain evaluation has one
outcome, and every assignment of waits has the evaluation in rounds end in agreement with it; so two
assignments of waits agree. It is left to waits which error a failing call ends with, so
implementations take one for another. Where nothing waits, an evaluation in rounds takes one round, and
its outcome, events and counters are those of the plain evaluation. -/
theorem concurrent_refines_plain (towers : Towers) (home : Home) (node : Node) (context : Value)
    (world : World) :
    (context.MadeBefore world.serial → ∀ settled last,
      towers.Settles ((towers.resident home).interpret node context) world.serial settled last →
        (∃ depth world', towers.sequential (towers.resident home) depth node context world =
          some (settled, world')) ∧
        (∀ depth outcome middle,
          towers.sequential (towers.resident home) depth node context world =
              some (outcome, middle) →
            ∀ towers', towers.DiffersInWaits world.serial towers' →
              ∃ polls outcome' world',
                towers'.Ends ((towers'.resident home).interpret node context) world polls outcome'
                  world' ∧
                Agree world.serial outcome outcome') ∧
        ∀ first second, towers.DiffersInWaits world.serial first →
          towers.DiffersInWaits world.serial second →
            ∀ polls polls' outcome outcome' world' world'',
              first.Ends ((first.resident home).interpret node context) world polls outcome world' →
                second.Ends ((second.resident home).interpret node context) world polls' outcome'
                    world'' →
                  Agree world.serial outcome outcome') ∧
    (towers.NeverWaits → ∀ outcome world',
      (∀ polls,
        towers.Ends ((towers.resident home).interpret node context) world polls outcome world' ↔
          polls = 0 ∧ ∃ depth, towers.sequential (towers.resident home) depth node context world =
            some (outcome, world')) ∧
      ∀ depth rounds,
        towers.drive depth (rounds + 1) ((towers.resident home).interpret node context) world =
            (.done outcome, world') ↔
          towers.sequential (towers.resident home) depth node context world =
            some (outcome, world')) := by
  constructor
  · intro hcontext settled last hsettles
    have hplain : ∃ depth world',
        towers.sequential (towers.resident home) depth node context world =
          some (settled, world') := by
      obtain ⟨depth, hdepth⟩ := hsettles.inOrder
      obtain ⟨world', hresult, _⟩ := hdepth depth (Nat.le_refl depth) world rfl
      rw [Interpreter.inOrder_interpret] at hresult
      exact ⟨depth, world', hresult⟩
    refine ⟨hplain, ?_, ?_⟩
    · intro depth outcome middle houtcome towers' hdiffer
      obtain ⟨_, _, hsettled⟩ := hplain
      cases sequential_unique houtcome hsettled
      exact hsettles.agrees hcontext hdiffer
    · intro first second hfirst hsecond polls polls' outcome outcome' world' world'' hends hends'
      obtain ⟨_, _, _, hown, hagree⟩ := hsettles.agrees hcontext hfirst
      obtain ⟨_, _, _, hown', hagree'⟩ := hsettles.agrees hcontext hsecond
      obtain ⟨_, rfl, _⟩ := hends.unique hown
      obtain ⟨_, rfl, _⟩ := hends'.unique hown'
      exact hagree.between hagree'
  · intro hnever outcome world'
    have hwithin : towers.Within (towers.resident home) := within_resident home
    exact ⟨fun polls => hnever.ends_iff hwithin, fun depth rounds => hnever.drive_iff hwithin⟩

/-- A link that takes five rounds and one that takes two come to the same, and so does one that does not
wait, which takes one round. -/
theorem concurrent_refines_plain_acting :
    Value.MadeBefore .null 0 ∧
    (∃ last, (Stock.pausing 2).alone.Settles
      ((Stock.pausing 2).interpret (.expression [⟨"act", []⟩]) .null) 0 (.ok (.string "")) last) ∧
    (Stock.pausing 2).alone.DiffersInWaits 0 (Stock.pausing 2).alone ∧
    (Stock.pausing 2).alone.DiffersInWaits 0 (Stock.pausing 5).alone ∧
    (∃ polls world', (Stock.pausing 5).alone.Ends
      ((Stock.pausing 5).interpret (.expression [⟨"act", []⟩]) .null) .start polls
      (.ok (.string "")) world') ∧
    (Stock.acting .context).alone.NeverWaits ∧
    ∃ world', (Stock.acting .context).alone.Ends
      ((Stock.acting .context).interpret (.expression [⟨"act", []⟩]) .null) .start 0
      (.ok (.string "")) world' := by
  have hnull : Value.MadeBefore .null 0 := by simp [Value.MadeBefore, Value.numbers]
  have hsettles : (Stock.pausing 2).alone.Settles
      ((Stock.pausing 2).interpret (.expression [⟨"act", []⟩]) .null) 0 (.ok (.string "")) 0 :=
    .emit _ (.emit _ (.done rfl (.finish _ _)))
  have hdiffer (polls : Nat) : (Stock.pausing 2).alone.DiffersInWaits 0 (Stock.pausing polls).alone :=
    fun _ => Stock.acting_differs (.yield_left 2 (.yield_right polls (.same trivial trivial)))
  have hnever : (Stock.acting .context).alone.NeverWaits := Stock.acting_never_waits trivial
  refine ⟨hnull, ⟨0, hsettles⟩, hdiffer 2, hdiffer 5, ?_, hnever, ?_⟩
  · have hwaits := (concurrent_refines_plain (Stock.pausing 2).alone ⟨0, 0⟩
      (.expression [⟨"act", []⟩]) .null .start).1 hnull _ _ hsettles
    obtain ⟨depth, middle, hplain⟩ := hwaits.1
    obtain ⟨polls, outcome, world', hends, hagree⟩ := hwaits.2.1 _ _ _ hplain _ (hdiffer 5)
    cases hagree.eq_of_numbers (by simp [Value.numbers])
    exact ⟨polls, world', hends⟩
  · have hready := (concurrent_refines_plain (Stock.acting .context).alone ⟨0, 0⟩
      (.expression [⟨"act", []⟩]) .null .start).2 hnever
    exact ⟨_, ((hready _ _).1 0).mpr ⟨rfl, 0, rfl⟩⟩

end Towers

namespace Stock

/-- Calls its argument, and says what a call that fails has failed with. -/
def rescue : FunctionDefinition :=
  { caller "rescue" with
    implementation := fun context arguments =>
      match arguments.callable? "fn" with
      | some callable => .call callable context fun
        | .ok value => .ok value
        | .error error => .ok (.string error.message)
      | none => .fail (.function "rescue" "fn is required") }

/-- Fails after some polls. -/
def failing (name : String) (polls : Nat) : FunctionDefinition :=
  { caller name with
    implementation := fun context arguments => (Body.yield polls (.fail "no")).run name context arguments }

def rescuing (polls : Nat) : Interpreter :=
  .mk ⟨.ofList [rescue, failing "slow" polls, failing "fast" 0], .standard, .standard, 0⟩ .rejecting

/-- Two values that fail are rescued. -/
def rescued : Node := .expression [⟨"rescue", [("fn", [.deferred [⟨"rescue",
  [("fn", [.expression [⟨"slow", []⟩], .expression [⟨"fast", []⟩]])]⟩]])]⟩]

end Stock

/-- Which of two errors a call ends with is left to waits, and an implementation may come to a value by it:
where nothing waits, the value is that of the plain evaluation, and where the first failing value takes a
poll more, it is another one. And a chain that is set aside once more is another function value. -/
theorem Towers.rescued_error_left_to_waits :
    (∀ context arguments, ((Stock.failing "slow" 1).implementation context arguments).awake =
      ((Stock.failing "slow" 0).implementation context arguments).awake) ∧
    (∃ last, (Stock.rescuing 1).alone.Settles ((Stock.rescuing 1).interpret Stock.rescued .null) 0
      (.ok (.string "Function slow failed: no")) last) ∧
    (∃ world', (Stock.rescuing 1).alone.sequential (Stock.rescuing 1) 1 Stock.rescued .null .start =
      some (.ok (.string "Function slow failed: no"), world')) ∧
    (∃ polls world', (Stock.rescuing 0).alone.Ends ((Stock.rescuing 0).interpret Stock.rescued .null) .start
      polls (.ok (.string "Function slow failed: no")) world') ∧
    (∃ polls world', (Stock.rescuing 1).alone.Ends ((Stock.rescuing 1).interpret Stock.rescued .null) .start
      polls (.ok (.string "Function fast failed: no")) world') ∧
    ∃ first second world world', (Stock.acting .context).alone.Ends
        ((Stock.acting .context).interpret (.deferred [⟨"act", []⟩]) .null) .start 0 (.ok first) world ∧
      (Stock.acting .context).alone.Ends
        ((Stock.acting .context).interpret (.deferred [⟨"act", []⟩]) .null) world 0 (.ok second) world' ∧
      (first == second) = false := by
  have hends {polls : Nat} {value : Value} {world' : World} (hdrive : (Stock.rescuing polls).alone.drive 1 2
      ((Stock.rescuing polls).interpret Stock.rescued .null) .start = (.done (.ok value), world')) :
      ∃ polls' world', (Stock.rescuing polls).alone.Ends
        ((Stock.rescuing polls).interpret Stock.rescued .null) .start polls' (.ok value) world' := by
    obtain ⟨polls', _, hends⟩ := ends_of_drive hdrive
    exact ⟨polls', world', hends⟩
  have hslow : (Stock.rescuing 1).alone.Settles
      ((Stock.rescuing 1).interpret (.expression [⟨"slow", []⟩]) .null) 1
      (.error (.function "slow" "no")) 1 :=
    .emit _ (.done rfl (.emit _ (.finish _ _)))
  have hfast : (Stock.rescuing 1).alone.Settles
      ((Stock.rescuing 1).interpret (.expression [⟨"fast", []⟩]) .null) 1
      (.error (.function "fast" "no")) 1 :=
    .emit _ (.done rfl (.emit _ (.finish _ _)))
  -- The call fails with the error of the first value.
  have hcall : (Stock.rescuing 1).alone.Settles
      ((Stock.rescuing 1).alone.callTask (.deferred ⟨0, 0⟩ 0 [⟨"rescue",
        [("fn", [.expression [⟨"slow", []⟩], .expression [⟨"fast", []⟩]])]⟩]) .null) 1
      (.error (.function "slow" "no")) 1 :=
    .left_failed
      (.left_failed hslow (.left_failed hfast (.finish _ _) (.finish _ _)) (.finish _ _))
      (.finish _ _) (.emit _ (.finish _ _))
  refine ⟨fun _ _ => rfl, ⟨1, ?_⟩, ⟨_, rfl⟩, hends rfl, hends rfl, ?_⟩
  · refine .joined (.joined (.create (.finish _ _)) (.finish _ _) (.finish _ _)) (.finish _ _) ?_
    exact .emit _ (.call rfl hcall (.done rfl (.finish _ _)))
  · exact ⟨_, _, _, _, .now ⟨by simp, 0, rfl⟩, .now ⟨by simp, 0, rfl⟩, rfl⟩

end ChainExpr
