import LiveRooms.Room

/-!
# What a summary shows of a room

A summary has a part for each `Aspect` of the metadata, and the preview of the latest event.  Two
rooms have summaries that agree in an aspect exactly when their metadata agree in it, so every part
comes from its own aspect, and nothing else of the metadata shows: not who invited to a room that was
joined, not which room replaced this one, not how the aliases were listed
(`summarize_eq_iff_agrees`).
-/

namespace LiveRooms

/-- What a summary shows of the metadata of a room. -/
inductive Aspect where
  | id
  | name
  | avatar
  | heroes
  | activeMembers
  | unreadMessages
  | unreadMentions
  | unreadNotifications
  | notificationMode
  | canonicalAlias
  | alternativeAliases
  | joinRequest
  | direct
  | space
  | tombstone
  | favourite
  | markedUnread
  | ongoingCall
  deriving DecidableEq

namespace Metadata

variable {i j : Metadata}

/-- The user was invited to both rooms by the same member, asked to join both, or neither was
invited to nor asked to join one of them. -/
def SameRequest (i j : Metadata) : Prop :=
  (i.membership = .invited ∧ j.membership = .invited ∧ i.inviter = j.inviter) ∨
    (i.membership = .knocked ∧ j.membership = .knocked) ∨
    ∀ m ∈ [i.membership, j.membership], m ≠ .invited ∧ m ≠ .knocked

/-- The metadata are alike in an aspect. -/
def Agrees (i j : Metadata) : Aspect → Prop
  | .id => i.id = j.id
  | .name => i.displayName.getD i.id = j.displayName.getD j.id
  | .avatar => i.avatarUrl = j.avatarUrl
  | .heroes => i.heroes = j.heroes
  | .activeMembers => i.activeMembers = j.activeMembers
  | .unreadMessages => i.unreadMessages = j.unreadMessages
  | .unreadMentions => i.unreadMentions = j.unreadMentions
  | .unreadNotifications => i.unreadNotifications = j.unreadNotifications
  | .notificationMode => i.chosenMode = j.chosenMode
  | .canonicalAlias => i.canonicalAlias = j.canonicalAlias
  | .alternativeAliases => ∀ s, s ∈ i.alternativeAliases ↔ s ∈ j.alternativeAliases
  | .joinRequest => i.SameRequest j
  | .direct => i.isDirect = j.isDirect
  | .space => i.isSpace = j.isSpace
  | .tombstone => i.successor = none ↔ j.successor = none
  | .favourite => i.isFavourite = j.isFavourite
  | .markedUnread => i.isMarkedUnread = j.isMarkedUnread
  | .ongoingCall => i.hasCall = j.hasCall

theorem joinRequest_eq_iff : i.joinRequest = j.joinRequest ↔ i.SameRequest j := by
  unfold joinRequest SameRequest
  cases i.membership <;> cases j.membership <;> simp

end Metadata

namespace Summary

variable {s t : Summary}

/-- The summaries are alike in what they show of an aspect. -/
def Agrees (s t : Summary) : Aspect → Prop
  | .id => s.id = t.id
  | .name => s.name = t.name
  | .avatar => s.avatarUrl = t.avatarUrl
  | .heroes => s.heroes = t.heroes
  | .activeMembers => s.activeMembers = t.activeMembers
  | .unreadMessages => s.unreadMessages = t.unreadMessages
  | .unreadMentions => s.unreadMentions = t.unreadMentions
  | .unreadNotifications => s.unreadNotifications = t.unreadNotifications
  | .notificationMode => s.notificationMode = t.notificationMode
  | .canonicalAlias => s.canonicalAlias = t.canonicalAlias
  | .alternativeAliases => s.alternativeAliases = t.alternativeAliases
  | .joinRequest => s.joinRequest = t.joinRequest
  | .direct => s.isDirect = t.isDirect
  | .space => s.isSpace = t.isSpace
  | .tombstone => s.isTombstoned = t.isTombstoned
  | .favourite => s.isFavourite = t.isFavourite
  | .markedUnread => s.isMarkedUnread = t.isMarkedUnread
  | .ongoingCall => s.hasOngoingCall = t.hasOngoingCall

/-- Beside the aspects a summary has nothing but the last message. -/
theorem eq_of_agrees (hm : s.lastMessage = t.lastMessage) (h : ∀ a, s.Agrees t a) : s = t := by
  cases s
  cases t
  obtain rfl := hm
  obtain rfl := h .id
  obtain rfl := h .name
  obtain rfl := h .avatar
  obtain rfl := h .heroes
  obtain rfl := h .activeMembers
  obtain rfl := h .unreadMessages
  obtain rfl := h .unreadMentions
  obtain rfl := h .unreadNotifications
  obtain rfl := h .notificationMode
  obtain rfl := h .canonicalAlias
  obtain rfl := h .alternativeAliases
  obtain rfl := h .joinRequest
  obtain rfl := h .direct
  obtain rfl := h .space
  obtain rfl := h .tombstone
  obtain rfl := h .favourite
  obtain rfl := h .markedUnread
  obtain rfl := h .ongoingCall
  rfl

theorem agrees_self (s : Summary) (a : Aspect) : s.Agrees s a := by
  cases a <;> rfl

/-- A summary shows of every aspect what the metadata say of it. -/
theorem agrees_of_iff (i j : Metadata) (event event' : Option Event) (a : Aspect) :
    (Summary.of i event).Agrees (Summary.of j event') a ↔ i.Agrees j a := by
  cases a with
  | alternativeAliases => exact StringSet.ofList_eq_ofList_iff
  | joinRequest => exact Metadata.joinRequest_eq_iff
  | tombstone =>
    show i.successor.isSome = j.successor.isSome ↔ (i.successor = none ↔ j.successor = none)
    cases i.successor <;> cases j.successor <;> simp
  | _ => exact Iff.rfl

end Summary

namespace Room

variable {r r' : Room}

theorem summarize_of_readable (h : r.readable = true) :
    r.summarize = .ok (.of r.info r.latestEvent) := by
  rw [summarize, fetch, if_pos h]

/-- Two rooms with the same latest event have the same summary exactly when their metadata agree in
every aspect, and the summaries are alike in an aspect exactly when the metadata are. -/
theorem summarize_eq_iff_agrees (hr : r.readable = true) (hr' : r'.readable = true)
    (he : r.latestEvent = r'.latestEvent) :
    ∃ s s', r.summarize = .ok s ∧ r'.summarize = .ok s' ∧
      (s = s' ↔ ∀ a, r.info.Agrees r'.info a) ∧
      ∀ a, s.Agrees s' a ↔ r.info.Agrees r'.info a := by
  have ha := Summary.agrees_of_iff r.info r'.info r.latestEvent r'.latestEvent
  refine ⟨_, _, summarize_of_readable hr, summarize_of_readable hr', ⟨fun h a => ?_, fun h => ?_⟩,
    ha⟩
  · rw [← ha, h]
    exact Summary.agrees_self _ a
  · refine Summary.eq_of_agrees ?_ fun a => (ha a).2 (h a)
    show r.latestEvent.map _ = r'.latestEvent.map _
    rw [he]

/-- The inviter of a joined room does not show, nor which room replaced it, nor how its aliases are
listed, nor whether it is named by its id or its display name is the id. -/
theorem summarize_eq_of_unshown :
    let r := ofInfo { Metadata.joined "a" with
      alternativeAliases := ["y", "x", "y"], successor := some "b", inviter := some ⟨"u", none, none⟩ }
    let r' := ofInfo { Metadata.joined "a" with
      displayName := some "a", alternativeAliases := ["x", "y"], successor := some "c",
      membership := .left }
    (r.readable = true ∧ r'.readable = true ∧ r.latestEvent = r'.latestEvent) ∧
      r.info ≠ r'.info ∧ r.summarize = r'.summarize := by
  intro r r'
  obtain ⟨s, s', hs, hs', h, -⟩ := summarize_eq_iff_agrees (rfl : r.readable = true)
    (rfl : r'.readable = true) rfl
  refine ⟨⟨rfl, rfl, rfl⟩, fun hi => ?_, ?_⟩
  · exact nomatch (congrArg Metadata.membership hi : Membership.joined = .left)
  rw [hs, hs', h.2]
  intro a
  cases a with
  | alternativeAliases =>
    intro s
    show s ∈ ["y", "x", "y"] ↔ s ∈ ["x", "y"]
    grind
  | joinRequest => exact Or.inr (Or.inr (by decide))
  | tombstone => exact iff_of_false nofun nofun
  | _ => rfl

end Room

end LiveRooms
