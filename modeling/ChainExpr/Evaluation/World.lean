import ChainExpr.Evaluation.Event

namespace ChainExpr

structure World where
  /-- The next creation number. -/
  serial : Nat
  ticks : Nat
  /-- How many have arrived at each meeting point. -/
  arrivals : String → Nat
  /-- The events so far, the latest first. -/
  events : List Event

namespace World

/-- Nothing has happened yet. -/
def start : World := ⟨0, 0, fun _ => 0, []⟩

instance : Inhabited World := ⟨start⟩

def record (world : World) (event : Event) : World :=
  { world with events := event :: world.events }

/-- The events in the order in which they happened. -/
def history (world : World) : List Event := world.events.reverse

theorem history_record (world : World) (event : Event) :
    (world.record event).history = world.history ++ [event] := List.reverse_cons

/-- The same state with an empty history. -/
def forget (world : World) : World := { world with events := [] }

/-- Takes a creation number. -/
def take (world : World) : World := { world with serial := world.serial + 1 }

def tick (world : World) : World := { world with ticks := world.ticks + 1 }

def arrive (world : World) (point : String) : World :=
  { world with
    arrivals := fun p => if p = point then world.arrivals p + 1 else world.arrivals p }

end World

end ChainExpr
