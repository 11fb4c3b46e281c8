import ChainExpr.Evaluation.Task
import ChainExpr.Evaluation.World

namespace ChainExpr

/-- Where a task stands after a round. -/
inductive Progress (α : Type) : Type 1
  | done (outcome : Except RuntimeError α)
  | pending (rest : Task α)
  /-- Calls of function values are nested too deep. -/
  | exhausted

/-- Where a routine stands after a round. -/
inductive RoutineProgress : Type 1
  | done (outcome : Except RuntimeError Value)
  | pending (rest : Routine)
  /-- The evaluation of a function value that the routine called is pending. -/
  | inside (callee : Task Value) (next : Except RuntimeError Value → Routine)
  | exhausted

/-- What becomes of a called function value in the round of its call. -/
abbrev Entry := Callable → Value → World → Progress Value × World

namespace Routine

/-- Runs a routine of the named function until it is done or waits. -/
def round (enter : Entry) (function : String) : Routine → World → RoutineProgress × World
  | .finish outcome, world => (.done outcome, world)
  | .wait 0 next, world => next.round enter function (world.record (.resume function))
  | .wait (polls + 1) next, world => (.pending (.wait polls next), world)
  | .arrive point next, world => next.round enter function (world.arrive point)
  | .await point count next, world =>
    if count ≤ world.arrivals point then
      next.round enter function (world.record (.resume function))
    else (.pending (.await point count next), world)
  | .tick next, world => (next world.ticks).round enter function world.tick
  | .call callee context next, world =>
    match enter callee context world with
    | (.done outcome, world) => (next outcome).round enter function world
    | (.pending rest, world) => (.inside rest next, world)
    | (.exhausted, world) => (.exhausted, world)

end Routine

namespace Task

/-- Runs a task until it is done or all its unfinished parts wait. -/
def round (enter : Entry) {α : Type} : Task α → World → Progress α × World
  | .finish outcome, world => (.done outcome, world)
  | .emit event next, world => next.round enter (world.record event)
  | .create next, world => (next world.serial).round enter world.take
  | .routine function body next, world =>
    match body.round enter function world with
    | (.done outcome, world) => (next outcome).round enter world
    | (.pending rest, world) => (.pending (.routine function rest next), world)
    | (.inside callee resume, world) =>
      (.pending (callee.andThen fun outcome => .routine function (resume outcome) next), world)
    | (.exhausted, world) => (.exhausted, world)
  | .both mode left right next, world =>
    match left.round enter world with
    | (.done (.error error), world) => (next (.error error)).round enter world
    | (.done (.ok a), world) =>
      match right.round enter world with
      | (.done (.error error), world) => (next (.error error)).round enter world
      | (.done (.ok b), world) => (next (.ok (a, b))).round enter world
      | (.pending right, world) => (.pending (.both mode (.ok a) right next), world)
      | (.exhausted, world) => (.exhausted, world)
    | (.pending left, world) =>
      match right.round enter world with
      | (.done (.error error), world) =>
        match mode with
        | .eager => (next (.error error)).round enter world
        | .inOrder => (.pending (.both mode left (.fail error) next), world)
      | (.done (.ok b), world) => (.pending (.both mode left (.ok b) next), world)
      | (.pending right, world) => (.pending (.both mode left right next), world)
      | (.exhausted, world) => (.exhausted, world)
    | (.exhausted, world) => (.exhausted, world)

end Task

end ChainExpr
