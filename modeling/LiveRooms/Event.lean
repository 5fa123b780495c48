import LiveRooms.Profile

/-!
# Latest events

The latest event of a room, and its headline: when it happened, how far its delivery has come, and
what a preview is rendered from.
-/

namespace LiveRooms

/-- The kind of a message. -/
inductive MessageType where
  | text
  | notice
  | emote
  | image
  | file
  deriving DecidableEq, Repr

/-- The content of an event. -/
inductive Content where
  | message (type : MessageType) (body : String)
  | sticker (body : String)
  | poll (question : String)
  | redacted
  /-- Anything without a textual preview. -/
  | other
  deriving DecidableEq, Repr

/-- How far an event of this device has come on its way to the server. -/
inductive Delivery where
  | isSending
  | cannotBeSent
  | hasBeenSent
  deriving DecidableEq, Repr

/-- The latest event of a room. -/
inductive Event where
  /-- An event of this device. -/
  | sent (timestamp : UInt64) (sender : Profile) (content : Content) (delivery : Delivery)
  /-- An event from the server; `isOwn` when the current user sent it. -/
  | received (timestamp : UInt64) (sender : Profile) (isOwn : Bool) (content : Content)
  /-- An invite from the server. -/
  | invite (timestamp : UInt64) (inviter : Option Profile)
  deriving DecidableEq, Repr

/-- The delivery state shown beside a last message. -/
inductive SendStatus where
  | sending
  | failed
  | sent
  deriving DecidableEq, Repr

instance : Inhabited SendStatus := ⟨.sent⟩

/-- How the delivery of an event is shown. -/
def Delivery.status : Delivery → SendStatus
  | .isSending => .sending
  | .cannotBeSent => .failed
  | .hasBeenSent => .sent

namespace Event

/-- What a preview is rendered from. -/
inductive Source where
  | content (content : Content) (sender : Profile) (isOutgoing : Bool)
  | invite (inviter : Option Profile)
  deriving DecidableEq, Repr

/-- An event reduced to what its preview needs. -/
structure Headline where
  timestamp : UInt64
  status : SendStatus
  source : Source
  deriving DecidableEq, Repr

/-- The headline of an event.  Events of this device are outgoing, and so are the user's own events
from other devices; what comes from the server has been sent. -/
def headline : Event → Headline
  | .sent timestamp sender content delivery =>
    ⟨timestamp, delivery.status, .content content sender true⟩
  | .received timestamp sender isOwn content =>
    ⟨timestamp, .sent, .content content sender isOwn⟩
  | .invite timestamp inviter => ⟨timestamp, .sent, .invite inviter⟩

end Event

end LiveRooms
