import LiveRooms.Filter
import LiveRooms.Room
import LiveRooms.Status
import LiveRooms.Viewport

/-!
# The remote side

Remote room lists that can be followed, the service that keeps rooms live, and the rooms.  Whatever
is asked of them is recorded.
-/

namespace LiveRooms

/-- A control call that a remote list receives from those who follow it. -/
inductive Call where
  | page (request : PageRequest)
  | setFilter (filter : RemoteFilter)
  deriving Repr

/-- A remote room list. -/
structure Source where
  /-- Its loading state cannot be read. -/
  failsLoading : Bool := false
  /-- It records filters but does not accept them. -/
  rejectsFilters : Bool := false
  loading : LoadingState := .notLoaded
  /-- The updates that wait for someone to take the stream, until it is taken. -/
  stream : Option (List (List (Edit String))) := some []
  /-- How often the stream was asked for. -/
  entriesCalls : Nat := 0
  calls : List Call := []
  isDropped : Bool := false
  deriving Repr

namespace Source

/-- Reads the loading state. -/
def loadingState (s : Source) : Except Failure LoadingState :=
  if s.failsLoading then .error (.remote "loading_state_failed" "loading state failure")
  else .ok s.loading

/-- Takes the stream of updates, which can be taken once. -/
def takeStream (s : Source) : Source × Except Failure (List (List (Edit String))) :=
  let asked := { s with entriesCalls := s.entriesCalls + 1 }
  match s.stream with
  | some updates => ({ asked with stream := none }, .ok updates)
  | none =>
    (asked, .error (.remote "entries_already_subscribed"
      "mock room list supports a single entries subscription"))

/-- Records a control call. -/
def record (call : Call) (s : Source) : Source := { s with calls := s.calls ++ [call] }

end Source

/-- What a request for live rooms comes to. -/
inductive Response where
  | accepted
  | refused
  /-- No answer comes. -/
  | silent
  deriving DecidableEq, Repr

/-- The service that keeps rooms live. -/
structure RoomService where
  fails : Bool := false
  hangs : Bool := false
  /-- The lists of ids that were asked for, in order. -/
  requests : List (List String) := []
  deriving Repr, Inhabited

/-- Asks to keep rooms live. -/
def RoomService.subscribe (ids : List String) (s : RoomService) : RoomService × Response :=
  ({ s with requests := s.requests ++ [ids] },
    if s.hangs then .silent
    else if s.fails then .refused
    else .accepted)

/-- The remote side as a whole. -/
structure Remote where
  directory : Directory := default
  sources : List Source := []
  service : RoomService := default
  deriving Repr

namespace Remote

/-- Changes one of the sources. -/
def updateSource (i : Nat) (change : Source → Source) (r : Remote) : Remote :=
  { r with sources := r.sources.modify i change }

/-- Records a control call at one of the sources. -/
def record (i : Nat) (call : Call) (r : Remote) : Remote := r.updateSource i (Source.record call)

end Remote

end LiveRooms
