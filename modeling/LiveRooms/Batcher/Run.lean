import LiveRooms.Batcher

/-!
# Runs of a batcher

What the sender, the receiver and the owner of a batcher do to it over time, and what they see.
-/

namespace LiveRooms.Batcher

variable {α : Type}

/-- Something that happens to a batcher. -/
inductive Action (α : Type) where
  /-- The sender sends one stream item. -/
  | push (items : List α)
  /-- Time passes. -/
  | wait (ms : Nat)
  /-- The receiver takes at most one batch. -/
  | receive
  | close
  | finishStream
  | cancel
  deriving DecidableEq, Repr

/-- What the one who acts learns. -/
inductive Answer (α : Type) where
  | nothing
  /-- Whether an item was accepted. -/
  | sent (accepted : Bool)
  | received (what : Received α)
  deriving DecidableEq, Repr

/-- The batcher after an action, settled, and the answer. -/
def perform (action : Action α) (t : Timeline (Batcher α)) : Timeline (Batcher α) × Answer α :=
  match action with
  | .push items => t.act fun b => ((b.push items).1, .sent (b.push items).2)
  | .wait ms => (t.advance ms, .nothing)
  | .receive => t.act fun b => (b.receive.1, .received b.receive.2)
  | .close => t.act fun b => (b.close, .nothing)
  | .finishStream => t.act fun b => (b.finishStream, .nothing)
  | .cancel => t.act fun b => (b.cancel, .nothing)

/-- The batcher after each of some actions, with the answers. -/
def history (t : Timeline (Batcher α)) :
    List (Action α) → List (Timeline (Batcher α) × Answer α)
  | [] => []
  | action :: actions =>
    let now := perform action t
    now :: history now.1 actions

/-- A batcher at time zero that has seen nothing. -/
def start (window capacity : Nat) : Timeline (Batcher α) := .start { window, capacity }

end LiveRooms.Batcher
