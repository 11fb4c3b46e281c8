import ChainExpr.Proofs.Alike
import ChainExpr.Proofs.Sequential

namespace ChainExpr

variable {α : Type}

theorem Routine.inOrder_awake (enter : Callable → Value → Sequential Value) (body : Routine) :
    body.awake.inOrder enter = body.inOrder enter := by
  induction body with
  | wait polls body ih => exact ih
  | _ => rfl

namespace Towers

/-- Every part of the task ends, what it calls included, when it starts from a creation number. The
outcome and the next creation number are those of the parts in order: a part to the right of a failed
one has to end as well, but does not count. -/
inductive Settles (towers : Towers) :
    {α : Type} → Task α → Nat → Except RuntimeError α → Nat → Prop
  | finish {α : Type} (outcome : Except RuntimeError α) (serial : Nat) :
      Settles towers (.finish outcome) serial outcome serial
  | emit {α : Type} {next : Task α} {serial last : Nat} {outcome : Except RuntimeError α}
      (entry : Event) (later : Settles towers next serial outcome last) :
      Settles towers (.emit entry next) serial outcome last
  | create {α : Type} {next : Nat → Task α} {serial last : Nat} {outcome : Except RuntimeError α}
      (later : Settles towers (next serial) (serial + 1) outcome last) :
      Settles towers (.create next) serial outcome last
  | done {α : Type} {function : String} {body : Routine} {next : Except RuntimeError Value → Task α}
      {serial last : Nat} {result : Except RuntimeError Value} {outcome : Except RuntimeError α}
      (awake : body.awake = .finish result)
      (later : Settles towers (next result) serial outcome last) :
      Settles towers (.routine function body next) serial outcome last
  | call {α : Type} {function : String} {body : Routine} {next : Except RuntimeError Value → Task α}
      {callee : Callable} {context : Value} {rest : Except RuntimeError Value → Routine}
      {serial middle last : Nat} {result : Except RuntimeError Value}
      {outcome : Except RuntimeError α} (awake : body.awake = .call callee context rest)
      (called : Settles towers (towers.callTask callee context) serial result middle)
      (later : Settles towers (.routine function (rest result) next) middle outcome last) :
      Settles towers (.routine function body next) serial outcome last
  | joined {α β γ : Type} {mode : JoinMode} {left : Task β} {right : Task γ}
      {next : Except RuntimeError (β × γ) → Task α} {serial first second last : Nat} {a : β} {b : γ}
      {outcome : Except RuntimeError α} (lefts : Settles towers left serial (.ok a) first)
      (rights : Settles towers right first (.ok b) second)
      (later : Settles towers (next (.ok (a, b))) second outcome last) :
      Settles towers (.both mode left right next) serial outcome last
  | left_failed {α β γ : Type} {mode : JoinMode} {left : Task β} {right : Task γ}
      {next : Except RuntimeError (β × γ) → Task α} {serial first second last : Nat}
      {error : RuntimeError} {other : Except RuntimeError γ} {outcome : Except RuntimeError α}
      (lefts : Settles towers left serial (.error error) first)
      (rights : Settles towers right first other second)
      (later : Settles towers (next (.error error)) first outcome last) :
      Settles towers (.both mode left right next) serial outcome last
  | right_failed {α β γ : Type} {mode : JoinMode} {left : Task β} {right : Task γ}
      {next : Except RuntimeError (β × γ) → Task α} {serial first second last : Nat} {a : β}
      {error : RuntimeError} {outcome : Except RuntimeError α}
      (lefts : Settles towers left serial (.ok a) first)
      (rights : Settles towers right first (.error error) second)
      (later : Settles towers (next (.error error)) second outcome last) :
      Settles towers (.both mode left right next) serial outcome last

variable {towers : Towers}

theorem Settles.serial_le {task : Task α} {serial last : Nat} {outcome : Except RuntimeError α}
    (h : towers.Settles task serial outcome last) : serial ≤ last := by
  induction h with
  | finish outcome serial => exact Nat.le_refl serial
  | emit entry _ ih => exact ih
  | create _ ih => exact Nat.le_of_succ_le ih
  | done _ _ ih => exact ih
  | call _ _ _ ihc ih => exact ihc.trans ih
  | joined _ _ _ ihl ihr ih => exact ihl.trans (ihr.trans ih)
  | left_failed _ _ _ ihl _ ih => exact ihl.trans ih
  | right_failed _ _ _ ihl ihr ih => exact ihl.trans (ihr.trans ih)

/-- A task that settles comes to its outcome in order, if calls may be nested deep enough. -/
theorem Settles.inOrder {task : Task α} {serial last : Nat} {outcome : Except RuntimeError α}
    (h : towers.Settles task serial outcome last) :
    ∃ depth, ∀ deeper, depth ≤ deeper → ∀ world : World, world.serial = serial →
      ∃ world', task.inOrder (towers.sequentialCall deeper) world = some (outcome, world') ∧
        world'.serial = last := by
  induction h with
  | finish outcome serial => exact ⟨0, fun deeper _ world hworld => ⟨world, rfl, hworld⟩⟩
  | emit entry _ ih =>
    obtain ⟨depth, hdepth⟩ := ih
    exact ⟨depth, fun deeper hle world hworld => hdepth deeper hle (world.record entry) hworld⟩
  | create _ ih =>
    obtain ⟨depth, hdepth⟩ := ih
    refine ⟨depth, fun deeper hle world hworld => ?_⟩
    subst hworld
    exact hdepth deeper hle world.take rfl
  | @done _ function body next serial last result outcome awake _ ih =>
    obtain ⟨depth, hdepth⟩ := ih
    refine ⟨depth, fun deeper hle world hworld => ?_⟩
    rw [Task.inOrder, ← Routine.inOrder_awake, awake]
    exact hdepth deeper hle world hworld
  | @call _ function body next callee context rest serial middle last result outcome awake _ _ ihc ih =>
    obtain ⟨depth, hdepth⟩ := ihc
    obtain ⟨depth', hdepth'⟩ := ih
    refine ⟨max (depth + 1) depth', fun deeper hle world hworld => ?_⟩
    obtain ⟨below, rfl⟩ := Nat.exists_eq_succ_of_ne_zero (show deeper ≠ 0 by omega)
    obtain ⟨inside, hcalled, hinside⟩ := hdepth below (by omega) world hworld
    obtain ⟨world', hlater, hlast⟩ := hdepth' (below + 1) (by omega) inside hinside
    refine ⟨world', ?_, hlast⟩
    rw [Task.inOrder] at hlater
    rw [Task.inOrder, ← Routine.inOrder_awake, awake, Routine.inOrder, sequentialCall_succ]
    simp only [hcalled, Option.bind_some]
    exact hlater
  | joined _ _ _ ihl ihr ih =>
    obtain ⟨depthl, hdepthl⟩ := ihl
    obtain ⟨depthr, hdepthr⟩ := ihr
    obtain ⟨depth, hdepth⟩ := ih
    refine ⟨max depthl (max depthr depth), fun deeper hle world hworld => ?_⟩
    obtain ⟨worldl, hleft, hworldl⟩ := hdepthl deeper (by omega) world hworld
    obtain ⟨worldr, hright, hworldr⟩ := hdepthr deeper (by omega) worldl hworldl
    obtain ⟨world', hlater, hlast⟩ := hdepth deeper (by omega) worldr hworldr
    refine ⟨world', ?_, hlast⟩
    simp only [Task.inOrder, hleft, hright, Option.bind_some]
    exact hlater
  | left_failed _ _ _ ihl _ ih =>
    obtain ⟨depthl, hdepthl⟩ := ihl
    obtain ⟨depth, hdepth⟩ := ih
    refine ⟨max depthl depth, fun deeper hle world hworld => ?_⟩
    obtain ⟨worldl, hleft, hworldl⟩ := hdepthl deeper (by omega) world hworld
    obtain ⟨world', hlater, hlast⟩ := hdepth deeper (by omega) worldl hworldl
    refine ⟨world', ?_, hlast⟩
    simp only [Task.inOrder, hleft, Option.bind_some]
    exact hlater
  | right_failed _ _ _ ihl ihr ih =>
    obtain ⟨depthl, hdepthl⟩ := ihl
    obtain ⟨depthr, hdepthr⟩ := ihr
    obtain ⟨depth, hdepth⟩ := ih
    refine ⟨max depthl (max depthr depth), fun deeper hle world hworld => ?_⟩
    obtain ⟨worldl, hleft, hworldl⟩ := hdepthl deeper (by omega) world hworld
    obtain ⟨worldr, hright, hworldr⟩ := hdepthr deeper (by omega) worldl hworldl
    obtain ⟨world', hlater, hlast⟩ := hdepth deeper (by omega) worldr hworldr
    refine ⟨world', ?_, hlast⟩
    simp only [Task.inOrder, hleft, hright, Option.bind_some]
    exact hlater

end Towers

end ChainExpr
