import LiveRooms.Failure
import LiveRooms.Summary
import LiveRooms.Text.Quoted

/-!
# Remote rooms

A remote room can be asked for its metadata and its latest event, and a summary is built from the
two.  A room that is not readable refuses its metadata; a missing event leaves the preview empty.
-/

namespace LiveRooms

/-- A room of the remote list. -/
structure Room where
  id : String
  info : Metadata
  latestEvent : Option Event := none
  readable : Bool := true
  deriving DecidableEq, Repr

namespace Room

/-- The room with the given metadata. -/
def ofInfo (info : Metadata) : Room := { id := info.id, info }

/-- A joined room of which nothing but the id is known. -/
def joined (id : String) : Room := ofInfo (.joined id)

/-- Replaces the metadata; the room keeps its id. -/
def setInfo (info : Metadata) (room : Room) : Room :=
  { room with info := { info with id := room.id } }

/-- Reads the metadata. -/
def fetch (room : Room) : Except Failure Metadata :=
  if room.readable then .ok room.info
  else .error (.remote "room_info_unavailable" ("room info of " ++ room.id ++ " is unavailable"))

/-- Builds the summary of a room from a fresh reading. -/
def summarize (room : Room) : Except Failure Summary :=
  match room.fetch with
  | .ok info => .ok (.of info room.latestEvent)
  | .error failure => .error (.missingRoomInfo room.id failure.message)

/-- The text that a room is named by in diagnostics. -/
def describe (room : Room) : String := "RemoteRoom(" ++ Text.quoted room.id ++ ")"

end Room

/-- The rooms of the remote side by key, as far as anything but the key is known of them. -/
structure Directory where
  known : List (String × Room)
  deriving Repr, Inhabited

namespace Directory

/-- The room behind a key; a key of which nothing is known names a joined room with that id. -/
def room (d : Directory) (key : String) : Room := (d.known.lookup key).getD (.joined key)

/-- Changes the room behind a key. -/
def update (key : String) (change : Room → Room) (d : Directory) : Directory :=
  ⟨(key, change (d.room key)) :: d.known.filter fun entry => entry.1 != key⟩

/-- The directory of the given rooms; of several under one key the last one counts. -/
def ofList (rooms : List (String × Room)) : Directory :=
  rooms.foldl (fun d entry => d.update entry.1 fun _ => entry.2) ⟨[]⟩

end Directory

end LiveRooms
