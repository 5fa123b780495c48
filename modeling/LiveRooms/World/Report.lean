import LiveRooms.World.Run

/-!
# What can be seen of a world

The difference that a step or the passing of time makes to those who watch the projection and the
remote side.
-/

namespace LiveRooms

/-- What a watcher sees of a watched value. -/
inductive Sight (α : Type) where
  | unchanged
  /-- It was sent again, perhaps with the same value. -/
  | sent (value : α)
  /-- It will not be sent any more. -/
  | closed
  deriving Repr

namespace Sight

/-- What a watcher sees who looked before. -/
def between {α : Type} (isClosed : Bool) (before after : Watched α) : Sight α :=
  if isClosed then .closed
  else if before.sends = after.sends then .unchanged
  else .sent after.value

end Sight

/-- What changed. -/
structure Report where
  rooms : Sight (List Summary)
  status : Sight ListStatus
  /-- The new control calls at each source. -/
  calls : List (List Call)
  /-- The new requests for live rooms. -/
  requests : List (List String)
  /-- The followers that have finished, in ascending order. -/
  finished : List String
  deriving Repr

namespace World

/-- Whether the list will not be sent any more. -/
def roomsClosed (w : World) : Bool := w.projection.isDropped && w.projection.isPipelineStopped

/-- Whether the status will not be sent any more. -/
def statusClosed (w : World) : Bool :=
  w.projection.isDropped && w.projection.attachment.elim true fun a => !a.followsStatus

/-- The ids of the followers that have finished. -/
def finishedFollowers (w : World) : List String :=
  (w.projection.followers.filter Follower.isFinished).map Follower.id

/-- What changed between two worlds, the second later than the first. -/
def changes (before after : World) : Report where
  rooms := .between after.roomsClosed before.projection.published after.projection.published
  status := .between after.statusClosed before.projection.status after.projection.status
  calls := List.zipWith (fun old new : Source => new.calls.drop old.calls.length)
    before.remote.sources after.remote.sources
  requests := after.remote.service.requests.drop before.remote.service.requests.length
  finished := (StringSet.ofList
    (after.finishedFollowers.filter fun id => !before.finishedFollowers.contains id)).toList

/-- What each of some happenings changes, with the time after it and what it came to. -/
def reports (t : Timeline World) (hs : List Happening) : List (Nat × Outcome × Report) :=
  let later := history t hs
  List.zipWith (fun before after => (after.1.now, after.2, changes before.state after.1.state))
    (t :: later.map Prod.fst) later

end World

end LiveRooms
