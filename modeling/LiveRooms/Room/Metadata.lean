import LiveRooms.Profile

/-!
# Room metadata

What the remote side says of a room, apart from its latest event.
-/

namespace LiveRooms

/-- How the current user stands to a room. -/
inductive Membership where
  | invited
  | joined
  | left
  | knocked
  | banned
  deriving DecidableEq, Repr

/-- For which messages of a room the user wants to be notified. -/
inductive NotificationMode where
  | allMessages
  | mentionsAndKeywordsOnly
  | mute
  deriving DecidableEq, Repr

/-- The metadata of a room. -/
structure Metadata where
  id : String
  displayName : Option String
  avatarUrl : Option String
  heroes : List Profile
  activeMembers : UInt64
  unreadMessages : UInt64
  unreadMentions : UInt64
  unreadNotifications : UInt64
  /-- The mode that the user chose for this room. -/
  chosenMode : Option NotificationMode
  canonicalAlias : Option String
  alternativeAliases : List String
  hasCall : Bool
  isMarkedUnread : Bool
  isFavourite : Bool
  isDirect : Bool
  isSpace : Bool
  /-- The room that replaced this one. -/
  successor : Option String
  membership : Membership
  inviter : Option Profile
  deriving DecidableEq, Repr

/-- The metadata of a joined room of which nothing but the id is known. -/
def Metadata.joined (id : String) : Metadata where
  id := id
  displayName := none
  avatarUrl := none
  heroes := []
  activeMembers := 0
  unreadMessages := 0
  unreadMentions := 0
  unreadNotifications := 0
  chosenMode := none
  canonicalAlias := none
  alternativeAliases := []
  hasCall := false
  isMarkedUnread := false
  isFavourite := false
  isDirect := false
  isSpace := false
  successor := none
  membership := .joined
  inviter := none

end LiveRooms
