import LiveRooms.Event

/-!
# Preview texts

The line of text that stands for an event in a room list.
-/

namespace LiveRooms

namespace Preview

/-- The name that an event is shown under; the user's own events are shown under no profile. -/
def author (sender : Profile) (isOutgoing : Bool) : String :=
  if isOutgoing then "You" else sender.shownName

/-- The text for a content under an author's name, if the content has a textual form. -/
def line (name : String) : Content → Option String
  | .message .emote body => some ("* " ++ name ++ " " ++ body)
  | .message .image _ => some (name ++ ": Image")
  | .message .file _ => some (name ++ ": File")
  | .message .text body => some (name ++ ": " ++ body)
  | .message .notice body => some (name ++ ": " ++ body)
  | .sticker _ => some (name ++ ": Sticker")
  | .poll question => some (name ++ ": Poll: " ++ question)
  | .redacted => some (name ++ ": Message removed")
  | .other => none

/-- The text for a content, if it has a textual form. -/
def text (content : Content) (sender : Profile) (isOutgoing : Bool) : Option String :=
  line (author sender isOutgoing) content

/-- The text for an invite. -/
def invitedYou (inviterName : String) : String := inviterName ++ " invited you"

end Preview

/-- The preview of an event.  An invite has one when its inviter is known. -/
def Event.Source.preview : Event.Source → Option String
  | .content body sender isOutgoing => Preview.text body sender isOutgoing
  | .invite inviter => inviter.map fun profile => Preview.invitedYou profile.shownName

end LiveRooms
