import ChainExpr.Evaluation.Poll
import ChainExpr.Interpreter.Chain
import ChainExpr.Interpreter.Towers

namespace ChainExpr

/-- How a run ends. -/
inductive Ending (α : Type)
  | done (outcome : Except RuntimeError α)
  /-- Still pending after the last round that was allowed. -/
  | stalled
  /-- Calls of function values were nested deeper than allowed. -/
  | exhausted

namespace Towers

/-- The task of a called function value. A reference cannot be called. -/
def callTask (towers : Towers) : Callable → Value → Task Value
  | .deferred home _ chain, context => (towers.resident home).invokeChain chain context
  | .reference name, _ => .fail (.notCallable name)

/-- One round of a task whose function values belong to interpreters of the towers. Calls may be nested
`depth` deep. -/
def poll (towers : Towers) : Nat → {α : Type} → Task α → World → Progress α × World
  | 0, _, task, world => task.round (fun _ _ world => (.exhausted, world)) world
  | depth + 1, _, task, world =>
    task.round (fun callee context world => towers.poll depth (towers.callTask callee context) world)
      world

/-- Repeats rounds, at most so many. -/
def drive (towers : Towers) (depth : Nat) {α : Type} :
    Nat → Task α → World → Ending α × World
  | 0, _, world => (.stalled, world)
  | rounds + 1, task, world =>
    match towers.poll depth task world with
    | (.done outcome, world) => (.done outcome, world)
    | (.pending rest, world) => towers.drive depth rounds rest world
    | (.exhausted, world) => (.exhausted, world)

/-- How many rounds an evaluation is given. -/
def roundLimit : Nat := 1000

/-- How deep calls of function values may be nested. -/
def depthLimit : Nat := 10000

/-- Runs a task to its end. -/
def evaluate (towers : Towers) {α : Type} (task : Task α) (world : World) : Ending α × World :=
  towers.drive depthLimit roundLimit task world

end Towers

/-- Runs a task in the tower of one interpreter. -/
def Interpreter.evaluate (interpreter : Interpreter) {α : Type} (task : Task α) (world : World) :
    Ending α × World :=
  interpreter.alone.evaluate task world

end ChainExpr
