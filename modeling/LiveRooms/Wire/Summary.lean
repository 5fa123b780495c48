import LiveRooms.Summary
import LiveRooms.Wire.Event

/-!
# The wire form of summaries
-/

namespace LiveRooms

namespace LastMessage

def write (m : LastMessage) : Json :=
  .obj [("text", Wire.write m.text), ("timestamp_ms", Wire.write m.timestamp),
    ("state", Wire.write m.status)]

def read? (j : Json) : Option LastMessage := do
  let r ← j.record? ["text", "timestamp_ms", "state"]
  return {
    text := ← Wire.optional? r "text"
    timestamp := ← Wire.field? r "timestamp_ms"
    status := ← Wire.field? r "state" }

instance : Wire LastMessage := ⟨write, read?⟩

end LastMessage

namespace JoinRequest

def write : JoinRequest → Json
  | .invite inviter => .tagged "Invite" (.obj [("inviter", Wire.write inviter)])
  | .knock => .str "Knock"

def read? : Json → Option JoinRequest :=
  Wire.bareOrOptional? "Knock" .knock "Invite" "inviter" .invite

instance : Wire JoinRequest := ⟨write, read?⟩

end JoinRequest

namespace Summary

def fieldNames : List String :=
  ["id", "name", "avatar_url", "heroes", "active_members_count", "last_message",
    "unread_messages_count", "unread_mentions_count", "unread_notifications_count",
    "notification_mode", "canonical_alias", "alternative_aliases", "join_request_type", "is_direct",
    "is_space", "is_tombstoned", "is_favourite", "is_marked_unread", "has_ongoing_call"]

def write (s : Summary) : Json :=
  .obj [("id", .str s.id),
    ("name", .str s.name),
    ("avatar_url", Wire.write s.avatarUrl),
    ("heroes", Wire.write s.heroes),
    ("active_members_count", Wire.write s.activeMembers),
    ("last_message", Wire.write s.lastMessage),
    ("unread_messages_count", Wire.write s.unreadMessages),
    ("unread_mentions_count", Wire.write s.unreadMentions),
    ("unread_notifications_count", Wire.write s.unreadNotifications),
    ("notification_mode", Wire.write s.notificationMode),
    ("canonical_alias", Wire.write s.canonicalAlias),
    ("alternative_aliases", Wire.write s.alternativeAliases),
    ("join_request_type", Wire.write s.joinRequest),
    ("is_direct", Wire.write s.isDirect),
    ("is_space", Wire.write s.isSpace),
    ("is_tombstoned", Wire.write s.isTombstoned),
    ("is_favourite", Wire.write s.isFavourite),
    ("is_marked_unread", Wire.write s.isMarkedUnread),
    ("has_ongoing_call", Wire.write s.hasOngoingCall)]

def read? (j : Json) : Option Summary := do
  let r ← j.record? fieldNames
  return {
    id := ← Wire.field? r "id"
    name := ← Wire.field? r "name"
    avatarUrl := ← Wire.optional? r "avatar_url"
    heroes := ← Wire.field? r "heroes"
    activeMembers := ← Wire.field? r "active_members_count"
    lastMessage := ← Wire.optional? r "last_message"
    unreadMessages := ← Wire.field? r "unread_messages_count"
    unreadMentions := ← Wire.field? r "unread_mentions_count"
    unreadNotifications := ← Wire.field? r "unread_notifications_count"
    notificationMode := ← Wire.optional? r "notification_mode"
    canonicalAlias := ← Wire.optional? r "canonical_alias"
    alternativeAliases := ← Wire.field? r "alternative_aliases"
    joinRequest := ← Wire.optional? r "join_request_type"
    isDirect := ← Wire.field? r "is_direct"
    isSpace := ← Wire.field? r "is_space"
    isTombstoned := ← Wire.field? r "is_tombstoned"
    isFavourite := ← Wire.field? r "is_favourite"
    isMarkedUnread := ← Wire.field? r "is_marked_unread"
    hasOngoingCall := ← Wire.field? r "has_ongoing_call" }

instance : Wire Summary := ⟨write, read?⟩

end Summary

end LiveRooms
