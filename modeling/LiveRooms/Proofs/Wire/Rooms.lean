import LiveRooms.Proofs.Wire.Represents
import LiveRooms.Wire.Summary

/-!
# The forms of rooms, events and summaries

The parts of each type of data about rooms, and that its reader and writer go by them.
-/

namespace LiveRooms

instance : Represented MessageType := .ofTags MessageType.tag

instance : LawfulWire MessageType := lawfulWire_ofTags (by decide) (by rintro ⟨⟩ <;> decide)

instance : Represented Delivery := .ofTags Delivery.tag

instance : LawfulWire Delivery := lawfulWire_ofTags (by decide) (by rintro ⟨⟩ <;> decide)

instance : Represented SendStatus := .ofTags SendStatus.tag

instance : LawfulWire SendStatus := lawfulWire_ofTags (by decide) (by rintro ⟨⟩ <;> decide)

instance : Represented Membership := .ofTags Membership.tag

instance : LawfulWire Membership := lawfulWire_ofTags (by decide) (by rintro ⟨⟩ <;> decide)

instance : Represented NotificationMode := .ofTags NotificationMode.tag

instance : LawfulWire NotificationMode := lawfulWire_ofTags (by decide) (by rintro ⟨⟩ <;> decide)

instance : NeverNull NotificationMode := ⟨fun _ => not_isTagged_null⟩

/-! ## Users and rooms -/

namespace Profile

def parts (p : Profile) : List Part :=
  [.required "user_id" p.userId, .optional "display_name" p.displayName,
    .optional "avatar_url" p.avatarUrl]

instance : Represented Profile := ⟨fun j p => IsRecord p.parts j⟩

instance : LawfulWire Profile := by
  refine lawfulWire_ofRecord (by decide) (fun _ => rfl) (fun r p => ?_) (fun _ => rfl) fun p => ?_
  · cases p
    simp [parts, ↓do_eq_some_iff, -Bool.exists_bool]
  · simp [parts]

instance : NeverNull Profile := ⟨fun _ => not_isRecord_null⟩

end Profile

namespace Metadata

def parts (info : Metadata) : List Part :=
  [.required "id" info.id,
    .optional "display_name" info.displayName,
    .optional "avatar_url" info.avatarUrl,
    .required "heroes" info.heroes,
    .required "active_members_count" info.activeMembers,
    .required "num_unread_messages" info.unreadMessages,
    .required "num_unread_mentions" info.unreadMentions,
    .required "num_unread_notifications" info.unreadNotifications,
    .optional "cached_user_defined_notification_mode" info.chosenMode,
    .optional "canonical_alias" info.canonicalAlias,
    .required "alternative_aliases" info.alternativeAliases,
    .required "has_room_call" info.hasCall,
    .required "is_marked_unread" info.isMarkedUnread,
    .required "is_favourite" info.isFavourite,
    .required "is_direct" info.isDirect,
    .required "is_space" info.isSpace,
    .optional "successor_room" info.successor,
    .required "membership" info.membership,
    .optional "inviter" info.inviter]

instance : Represented Metadata := ⟨fun j info => IsRecord info.parts j⟩

instance : LawfulWire Metadata := by
  refine lawfulWire_ofRecord (by decide) (fun _ => rfl) (fun r x => ?_) (fun _ => rfl) fun x => ?_
  · cases x
    simp [parts, ↓do_eq_some_iff, -Bool.exists_bool]
  · simp [parts, fields]

end Metadata

/-! ## Events -/

namespace Content

/-- The tag of a content and what it carries. -/
def form : Content → String × Carried
  | .message type body => ("Message", .fields [.required "msgtype" type, .required "body" body])
  | .sticker body => ("Sticker", .fields [.required "body" body])
  | .poll question => ("Poll", .fields [.required "question" question])
  | .redacted => ("Redacted", .nothing)
  | .other => ("Other", .nothing)

instance : Represented Content := ⟨fun j x => IsTagged x.form.1 x.form.2 j⟩

instance : LawfulWire Content where
  read?_eq_some_iff {j x} := by
    refine read?_tagged_iff (x := x) fun t content => ⟨fun h => ?_, ?_⟩
    · dsimp only at h
      split at h <;> simp only [Option.bind_eq_bind, Option.bind_eq_some_iff, Option.pure_def,
        Option.some.injEq, field?_eq_some_iff, bare_eq_some_iff, reduceCtorEq] at h
      · obtain ⟨c, rfl, r, hf, type, ht, body, hb, rfl⟩ := h
        exact ⟨rfl, c, rfl, r, hf, by simp [ht, hb]⟩
      · obtain ⟨c, rfl, r, hf, body, hb, rfl⟩ := h
        exact ⟨rfl, c, rfl, r, hf, by simp [hb]⟩
      · obtain ⟨c, rfl, r, hf, question, hq, rfl⟩ := h
        exact ⟨rfl, c, rfl, r, hf, by simp [hq]⟩
      · obtain ⟨hb, rfl⟩ := h
        exact ⟨rfl, hb⟩
      · obtain ⟨hb, rfl⟩ := h
        exact ⟨rfl, hb⟩
    · rintro ⟨rfl, h⟩
      cases x with
      | message type body =>
        obtain ⟨c, rfl, r, hf, h⟩ := h
        simpa [form, hf, Option.bind_eq_some_iff] using h
      | sticker body | poll question =>
        obtain ⟨c, rfl, r, hf, h⟩ := h
        simpa [form, hf, Option.bind_eq_some_iff] using h
      | redacted | other => exact bare_eq_some_iff.2 ⟨h, rfl⟩
  represents_write x := by
    cases x with
    | message type body => exact isTagged_fields (by simp) rfl (by simp)
    | sticker body | poll question => exact isTagged_fields (by simp) rfl (by simp)
    | redacted | other => exact .str

end Content

namespace Event

/-- The tag of an event and what it carries. -/
def form : Event → String × Carried
  | .sent timestamp sender content delivery =>
    ("Local", .fields [.required "timestamp_ms" timestamp, .required "sender" sender,
      .required "content" content, .required "send_state" delivery])
  | .received timestamp sender isOwn content =>
    ("Remote", .fields [.required "timestamp_ms" timestamp, .required "sender" sender,
      .required "is_own" isOwn, .required "content" content])
  | .invite timestamp inviter =>
    ("RemoteInvite", .fields [.required "timestamp_ms" timestamp, .optional "inviter" inviter])

instance : Represented Event := ⟨fun j x => IsTagged x.form.1 x.form.2 j⟩

instance : LawfulWire Event where
  read?_eq_some_iff {j x} := by
    refine read?_tagged_iff (x := x) fun t content => ⟨fun h => ?_, ?_⟩
    · dsimp only at h
      split at h <;> simp only [Option.bind_eq_bind, Option.bind_eq_some_iff, Option.pure_def,
        Option.some.injEq, field?_eq_some_iff, optional?_eq_some_iff, reduceCtorEq] at h
      · obtain ⟨c, rfl, r, hf, timestamp, ht, sender, hs, content, hc, delivery, hd, rfl⟩ := h
        exact ⟨rfl, c, rfl, r, hf, by simp [ht, hs, hc, hd]⟩
      · obtain ⟨c, rfl, r, hf, timestamp, ht, sender, hs, isOwn, ho, content, hc, rfl⟩ := h
        exact ⟨rfl, c, rfl, r, hf, by simp [ht, hs, ho, hc]⟩
      · obtain ⟨c, rfl, r, hf, timestamp, ht, inviter, hi, rfl⟩ := h
        exact ⟨rfl, c, rfl, r, hf, by simp [ht, hi]⟩
    · rintro ⟨rfl, h⟩
      cases x with
      | sent | received | invite =>
        obtain ⟨c, rfl, r, hf, h⟩ := h
        simpa [form, hf, Option.bind_eq_some_iff, -Bool.exists_bool] using h
  represents_write x := by
    cases x with
    | sent | received | invite => exact isTagged_fields (by simp) rfl (by simp)

end Event

/-! ## Summaries -/

namespace LastMessage

def parts (m : LastMessage) : List Part :=
  [.optional "text" m.text, .required "timestamp_ms" m.timestamp, .required "state" m.status]

instance : Represented LastMessage := ⟨fun j m => IsRecord m.parts j⟩

instance : LawfulWire LastMessage := by
  refine lawfulWire_ofRecord (by decide) (fun _ => rfl) (fun r m => ?_) (fun _ => rfl) fun m => ?_
  · cases m
    simp [parts, ↓do_eq_some_iff]
  · simp [parts]

instance : NeverNull LastMessage := ⟨fun _ => not_isRecord_null⟩

end LastMessage

namespace JoinRequest

/-- The tag of a join request and what it carries. -/
def form : JoinRequest → String × Carried
  | .invite inviter => ("Invite", .fields [.optional "inviter" inviter])
  | .knock => ("Knock", .nothing)

instance : Represented JoinRequest := ⟨fun j x => IsTagged x.form.1 x.form.2 j⟩

instance : LawfulWire JoinRequest := by
  refine lawfulWire_ofBareOrOptional (by decide) rfl (fun _ => rfl) (fun x => ?_) rfl fun _ => rfl
  cases x with
  | knock => exact Or.inl rfl
  | invite inviter => exact Or.inr ⟨inviter, rfl⟩

instance : NeverNull JoinRequest := ⟨fun _ => not_isTagged_null⟩

end JoinRequest

namespace Summary

def parts (s : Summary) : List Part :=
  [.required "id" s.id,
    .required "name" s.name,
    .optional "avatar_url" s.avatarUrl,
    .required "heroes" s.heroes,
    .required "active_members_count" s.activeMembers,
    .optional "last_message" s.lastMessage,
    .required "unread_messages_count" s.unreadMessages,
    .required "unread_mentions_count" s.unreadMentions,
    .required "unread_notifications_count" s.unreadNotifications,
    .optional "notification_mode" s.notificationMode,
    .optional "canonical_alias" s.canonicalAlias,
    .required "alternative_aliases" s.alternativeAliases,
    .optional "join_request_type" s.joinRequest,
    .required "is_direct" s.isDirect,
    .required "is_space" s.isSpace,
    .required "is_tombstoned" s.isTombstoned,
    .required "is_favourite" s.isFavourite,
    .required "is_marked_unread" s.isMarkedUnread,
    .required "has_ongoing_call" s.hasOngoingCall]

instance : Represented Summary := ⟨fun j s => IsRecord s.parts j⟩

instance : LawfulWire Summary := by
  refine lawfulWire_ofRecord (by decide) (fun _ => rfl) (fun r s => ?_) (fun _ => rfl) fun s => ?_
  · cases s
    simp [parts, ↓do_eq_some_iff, -Bool.exists_bool]
  · simp [parts]

end Summary

end LiveRooms
