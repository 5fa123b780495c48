import LiveRooms.Store

/-!
# From remote edits to entries

Remote edits bring rooms along by key.  An edit that does not fit the list is left out before any
room is read; an edit that brings along a room that cannot be read is left out as a whole.  A
rebuild reads every room of the list again and keeps the entry of a room that cannot be read.
-/

namespace LiveRooms

namespace Directory

/-- The entries after one remote edit. -/
def applyEdit (d : Directory) (entries : List Entry) (edit : Edit String) : List Entry :=
  match edit.check entries.length with
  | .error _ => entries
  | .ok () =>
    match edit.traverse d.entry with
    | .error _ => entries
    | .ok built =>
      match built.apply entries with
      | .error _ => entries
      | .ok entries' => entries'

/-- The entries after a batch of remote edits. -/
def applyBatch (d : Directory) (edits : List (Edit String)) (entries : List Entry) : List Entry :=
  edits.foldl d.applyEdit entries

/-- The entry after its room was read again. -/
def refresh (d : Directory) (entry : Entry) : Entry :=
  match d.entry entry.key with
  | .ok fresh => fresh
  | .error _ => entry

/-- The entries after all rooms were read again. -/
def rebuild (d : Directory) (entries : List Entry) : List Entry := entries.map d.refresh

end Directory

end LiveRooms
