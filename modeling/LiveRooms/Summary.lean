import LiveRooms.Event.Preview
import LiveRooms.Room.Metadata
import LiveRooms.Text.StringSet

/-!
# Room summaries

The row of a room list: the metadata of a room and the preview of its latest event, ready to be
shown.
-/

namespace LiveRooms

/-- The preview of a room's latest event. -/
structure LastMessage where
  /-- The text, if the event has one. -/
  text : Option String
  timestamp : UInt64
  status : SendStatus
  deriving DecidableEq, Repr

/-- A request to join a room that waits for an answer. -/
inductive JoinRequest where
  /-- The user was invited, perhaps by a known member. -/
  | invite (inviter : Option Profile)
  /-- The user asked to join. -/
  | knock
  deriving DecidableEq, Repr

/-- A row of the room list. -/
structure Summary where
  id : String
  /-- The display name, or the id of a room without one. -/
  name : String
  avatarUrl : Option String
  heroes : List Profile
  activeMembers : UInt64
  lastMessage : Option LastMessage
  unreadMessages : UInt64
  unreadMentions : UInt64
  unreadNotifications : UInt64
  notificationMode : Option NotificationMode
  canonicalAlias : Option String
  alternativeAliases : StringSet
  joinRequest : Option JoinRequest
  isDirect : Bool
  isSpace : Bool
  isTombstoned : Bool
  isFavourite : Bool
  isMarkedUnread : Bool
  hasOngoingCall : Bool
  deriving DecidableEq, Repr

/-- The preview of an event. -/
def LastMessage.ofEvent (event : Event) : LastMessage :=
  ⟨event.headline.source.preview, event.headline.timestamp, event.headline.status⟩

/-- The request that a room's metadata stand for. -/
def Metadata.joinRequest (info : Metadata) : Option JoinRequest :=
  match info.membership with
  | .invited => some (.invite info.inviter)
  | .knocked => some .knock
  | .joined | .left | .banned => none

/-- The name a room is shown by. -/
def Metadata.shownName (info : Metadata) : String := info.displayName.getD info.id

/-- The summary of a room with the given metadata and latest event. -/
def Summary.of (info : Metadata) (event : Option Event) : Summary where
  id := info.id
  name := info.shownName
  avatarUrl := info.avatarUrl
  heroes := info.heroes
  activeMembers := info.activeMembers
  lastMessage := event.map LastMessage.ofEvent
  unreadMessages := info.unreadMessages
  unreadMentions := info.unreadMentions
  unreadNotifications := info.unreadNotifications
  notificationMode := info.chosenMode
  canonicalAlias := info.canonicalAlias
  alternativeAliases := .ofList info.alternativeAliases
  joinRequest := info.joinRequest
  isDirect := info.isDirect
  isSpace := info.isSpace
  isTombstoned := info.successor.isSome
  isFavourite := info.isFavourite
  isMarkedUnread := info.isMarkedUnread
  hasOngoingCall := info.hasCall

end LiveRooms
