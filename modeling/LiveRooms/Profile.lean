/-!
# User profiles
-/

namespace LiveRooms

/-- What is known of a user. -/
structure Profile where
  userId : String
  displayName : Option String := none
  avatarUrl : Option String := none
  deriving DecidableEq, Repr, Inhabited

/-- The name a user is shown by: the display name, or the id of a user without one. -/
def Profile.shownName (p : Profile) : String := p.displayName.getD p.userId

end LiveRooms
