import LiveRooms.World.Step

/-!
# Runs of a world

A run is a sequence of steps from outside and of waiting.  The world settles after each of them.
-/

namespace LiveRooms

/-- Something that happens to a world. -/
inductive Happening where
  /-- Time passes. -/
  | wait (ms : Nat)
  | step (step : Step)
  deriving Repr

namespace World

/-- The world after something happened, settled, and what it came to. -/
def happen (h : Happening) (t : Timeline World) : Timeline World × Outcome :=
  match h with
  | .wait ms => (t.advance ms, .nothing)
  | .step s => t.act fun w => w.step s

/-- The world after each of some happenings, with what they came to. -/
def history (t : Timeline World) : List Happening → List (Timeline World × Outcome)
  | [] => []
  | h :: hs =>
    let now := happen h t
    now :: history now.1 hs

/-- The world after all of some happenings. -/
def run (t : Timeline World) : List Happening → Timeline World
  | [] => t
  | h :: hs => run (happen h t).1 hs

end World

end LiveRooms
