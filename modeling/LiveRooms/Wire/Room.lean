import LiveRooms.Room.Metadata
import LiveRooms.Wire

/-!
# The wire form of rooms and users
-/

namespace LiveRooms

namespace Profile

def fieldNames : List String := ["user_id", "display_name", "avatar_url"]

def write (p : Profile) : Json :=
  .obj [("user_id", .str p.userId), ("display_name", Wire.write p.displayName),
    ("avatar_url", Wire.write p.avatarUrl)]

def read? (j : Json) : Option Profile := do
  let r ← j.record? fieldNames
  return {
    userId := ← Wire.field? r "user_id"
    displayName := ← Wire.optional? r "display_name"
    avatarUrl := ← Wire.optional? r "avatar_url" }

instance : Wire Profile := ⟨write, read?⟩

end Profile

namespace Membership

def tag : Membership → String
  | .invited => "Invited"
  | .joined => "Joined"
  | .left => "Left"
  | .knocked => "Knocked"
  | .banned => "Banned"

instance : Wire Membership := .ofTags tag [.invited, .joined, .left, .knocked, .banned]

end Membership

namespace NotificationMode

def tag : NotificationMode → String
  | .allMessages => "AllMessages"
  | .mentionsAndKeywordsOnly => "MentionsAndKeywordsOnly"
  | .mute => "Mute"

instance : Wire NotificationMode := .ofTags tag [.allMessages, .mentionsAndKeywordsOnly, .mute]

end NotificationMode

namespace Metadata

def fieldNames : List String :=
  ["id", "display_name", "avatar_url", "heroes", "active_members_count", "num_unread_messages",
    "num_unread_mentions", "num_unread_notifications", "cached_user_defined_notification_mode",
    "canonical_alias", "alternative_aliases", "has_room_call", "is_marked_unread", "is_favourite",
    "is_direct", "is_space", "successor_room", "membership", "inviter"]

/-- The fields of written metadata. -/
def fields (info : Metadata) : List (String × Json) :=
  [("id", .str info.id),
    ("display_name", Wire.write info.displayName),
    ("avatar_url", Wire.write info.avatarUrl),
    ("heroes", Wire.write info.heroes),
    ("active_members_count", Wire.write info.activeMembers),
    ("num_unread_messages", Wire.write info.unreadMessages),
    ("num_unread_mentions", Wire.write info.unreadMentions),
    ("num_unread_notifications", Wire.write info.unreadNotifications),
    ("cached_user_defined_notification_mode", Wire.write info.chosenMode),
    ("canonical_alias", Wire.write info.canonicalAlias),
    ("alternative_aliases", Wire.write info.alternativeAliases),
    ("has_room_call", Wire.write info.hasCall),
    ("is_marked_unread", Wire.write info.isMarkedUnread),
    ("is_favourite", Wire.write info.isFavourite),
    ("is_direct", Wire.write info.isDirect),
    ("is_space", Wire.write info.isSpace),
    ("successor_room", Wire.write info.successor),
    ("membership", Wire.write info.membership),
    ("inviter", Wire.write info.inviter)]

def read? (j : Json) : Option Metadata := do
  let r ← j.record? fieldNames
  return {
    id := ← Wire.field? r "id"
    displayName := ← Wire.optional? r "display_name"
    avatarUrl := ← Wire.optional? r "avatar_url"
    heroes := ← Wire.field? r "heroes"
    activeMembers := ← Wire.field? r "active_members_count"
    unreadMessages := ← Wire.field? r "num_unread_messages"
    unreadMentions := ← Wire.field? r "num_unread_mentions"
    unreadNotifications := ← Wire.field? r "num_unread_notifications"
    chosenMode := ← Wire.optional? r "cached_user_defined_notification_mode"
    canonicalAlias := ← Wire.optional? r "canonical_alias"
    alternativeAliases := ← Wire.field? r "alternative_aliases"
    hasCall := ← Wire.field? r "has_room_call"
    isMarkedUnread := ← Wire.field? r "is_marked_unread"
    isFavourite := ← Wire.field? r "is_favourite"
    isDirect := ← Wire.field? r "is_direct"
    isSpace := ← Wire.field? r "is_space"
    successor := ← Wire.optional? r "successor_room"
    membership := ← Wire.field? r "membership"
    inviter := ← Wire.optional? r "inviter" }

instance : Wire Metadata := ⟨fun info => .obj info.fields, read?⟩

end Metadata

end LiveRooms
