import LiveRooms.Batcher
import LiveRooms.Config
import LiveRooms.Follower
import LiveRooms.Pager
import LiveRooms.Pipeline
import LiveRooms.Status
import LiveRooms.Subscriber

/-!
# The projection

The live, ordered projection of a remote room list: the stored entries, the list and the status that
others watch, the stream it is attached to, and those who react to the viewport and to the settings.
-/

namespace LiveRooms

/-- A value that others watch.  Sending counts even when the value stays the same. -/
structure Watched (α : Type) where
  value : α
  sends : Nat := 0
  deriving DecidableEq, Repr

/-- Sends a new value. -/
def Watched.send {α : Type} (value : α) (w : Watched α) : Watched α := ⟨value, w.sends + 1⟩

/-- The remote list that a projection follows. -/
structure Attachment where
  /-- The position of the list among the sources. -/
  source : Nat
  batcher : Batcher (Edit String)
  /-- The loading state of the list changed and the change was not read. -/
  hasStatusReport : Bool := false
  followsStatus : Bool := true
  deriving Repr

/-- How much is left to do before time passes. -/
def Attachment.load (a : Attachment) : Nat :=
  a.batcher.load + a.hasStatusReport.toNat + a.followsStatus.toNat

/-- The live, ordered projection of a remote room list. -/
structure Projection where
  config : Config
  store : Store
  /-- The list that others watch. -/
  published : Watched (List Summary) := { value := [] }
  status : Watched ListStatus := { value := .notLoaded }
  attachment : Option Attachment := none
  /-- A rebuild was asked for; further requests collapse into this one. -/
  rebuildQueued : Bool := false
  isPipelineStopped : Bool := false
  /-- The viewport reported last. -/
  viewport : Viewport := .empty
  pager : Pager := {}
  subscriber : Subscriber := {}
  followers : List Follower := []
  /-- The projection is gone; what it started is told to stop. -/
  isDropped : Bool := false
  deriving Repr

namespace Projection

/-- The most batches that wait to be applied. -/
def batchCapacity : Nat := 16

/-- The projection before it is attached. -/
def new (config : Config) : Projection := { config, store := .empty config.maxVisible }

/-- Stores the entries and shows their summaries. -/
def publish (entries : List Entry) (p : Projection) : Projection :=
  { p with
    store := { p.store with entries }
    published := p.published.send (entries.map Entry.summary) }

/-- Asks for a rebuild. -/
def requestRebuild (p : Projection) : Projection :=
  if p.isPipelineStopped then p else { p with rebuildQueued := true }

/-- A batcher over a stream on which some updates wait. -/
def newBatcher (config : Config) (updates : List (List (Edit String))) : Batcher (Edit String) :=
  { window := config.batchWindow.toNat, capacity := batchCapacity, inbox := updates }

/-- The instants that the projection waits for. -/
def timers (p : Projection) : List Nat :=
  p.attachment.elim [] (fun a => a.batcher.timers) ++ p.pager.timers ++ p.subscriber.timers

/-- How much is left to do before time passes. -/
def load (p : Projection) : Nat :=
  p.attachment.elim 0 Attachment.load + p.rebuildQueued.toNat + (!p.isPipelineStopped).toNat +
    p.pager.load + p.subscriber.load + Follower.totalLoad p.followers

end Projection

end LiveRooms
