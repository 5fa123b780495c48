import LiveRooms.Edit

/-!
# Failures of the room list

A failure has a category, which decides how it is handled, a stable code, and a message.
-/

namespace LiveRooms

/-- The broad category of a failure. -/
inductive FailureCategory where
  /-- The remote side failed for now. -/
  | remote
  /-- An edit did not fit the list. -/
  | consistency
  /-- A room that should be live could not be read. -/
  | invariant
  /-- A configuration or an input is invalid. -/
  | config
  /-- The engine itself failed. -/
  | internal
  deriving DecidableEq, Repr

/-- The name of a category. -/
def FailureCategory.name : FailureCategory → String
  | .remote => "Remote"
  | .consistency => "Consistency"
  | .invariant => "Invariant"
  | .config => "Config"
  | .internal => "Internal"

/-- A failure of the room list. -/
structure Failure where
  category : FailureCategory
  code : String
  message : String
  deriving DecidableEq, Repr

namespace Failure

/-- A failure of the remote side. -/
def remote (code message : String) : Failure := ⟨.remote, code, message⟩

/-- The metadata of a room could not be read. -/
def missingRoomInfo (roomId reason : String) : Failure :=
  ⟨.invariant, "missing_room_info", "missing room info for " ++ roomId ++ ": " ++ reason⟩

/-- An edit did not fit the list. -/
def ofFault (fault : Edit.Fault) : Failure :=
  let code := match fault with
    | .emptySequence => "empty_sequence"
    | .outOfBounds .. => "index_out_of_bounds"
  ⟨.consistency, code, fault.message⟩

/-- The store no longer answers. -/
def storeClosed : Failure := ⟨.internal, "store_closed", "room store actor is closed"⟩

/-- The text of a failure. -/
def text (f : Failure) : String := f.category.name ++ ":" ++ f.code ++ ": " ++ f.message

/-- Whether a later signal may succeed where this one failed. -/
def isTransient (f : Failure) : Bool :=
  match f.category with
  | .remote | .invariant => true
  | _ => false

end Failure

end LiveRooms
