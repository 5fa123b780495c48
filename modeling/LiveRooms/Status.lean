/-!
# Loading states

How far the remote list has come, as the remote side reports it and as it is shown.
-/

namespace LiveRooms

/-- What the remote list reports. -/
inductive LoadingState where
  | notLoaded
  | loaded (maximumRooms : Option UInt32)
  deriving DecidableEq, Repr, Inhabited

/-- What is shown of the list. -/
inductive ListStatus where
  | notLoaded
  | loaded (totalRooms : Option UInt64)
  deriving DecidableEq, Repr, Inhabited

/-- How a reported state is shown. -/
def LoadingState.status : LoadingState → ListStatus
  | .notLoaded => .notLoaded
  | .loaded maximumRooms => .loaded (maximumRooms.map UInt32.toUInt64)

end LiveRooms
