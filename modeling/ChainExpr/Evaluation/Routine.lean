import ChainExpr.Error
import ChainExpr.Value.Basic

namespace ChainExpr

inductive Routine
  | finish (outcome : Except RuntimeError Value)
  /-- Stays pending for so many polls, then resumes. -/
  | wait (polls : Nat) (next : Routine)
  /-- Adds an arrival at a meeting point. -/
  | arrive (point : String) (next : Routine)
  /-- Stays pending until a meeting point has so many arrivals, then resumes. -/
  | await (point : String) (count : Nat) (next : Routine)
  /-- Counts a tick and learns how many there have been before. -/
  | tick (next : Nat → Routine)
  /-- Calls a function value on a context and goes on with what comes of it. -/
  | call (callee : Callable) (context : Value) (next : Except RuntimeError Value → Routine)

namespace Routine

instance : Inhabited Routine := ⟨.finish (.ok .null)⟩

def ok (value : Value) : Routine := .finish (.ok value)

def fail (error : RuntimeError) : Routine := .finish (.error error)

/-- Counts as an arrival and waits for the others. -/
def meet (point : String) (count : Nat) (next : Routine) : Routine :=
  .arrive point (.await point count next)

end Routine

end ChainExpr
