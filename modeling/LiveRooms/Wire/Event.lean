import LiveRooms.Event
import LiveRooms.Wire.Room

/-!
# The wire form of events
-/

namespace LiveRooms

namespace MessageType

def tag : MessageType → String
  | .text => "Text"
  | .notice => "Notice"
  | .emote => "Emote"
  | .image => "Image"
  | .file => "File"

instance : Wire MessageType := .ofTags tag [.text, .notice, .emote, .image, .file]

end MessageType

namespace Delivery

def tag : Delivery → String
  | .isSending => "IsSending"
  | .cannotBeSent => "CannotBeSent"
  | .hasBeenSent => "HasBeenSent"

instance : Wire Delivery := .ofTags tag [.isSending, .cannotBeSent, .hasBeenSent]

end Delivery

namespace SendStatus

def tag : SendStatus → String
  | .sending => "Sending"
  | .failed => "Failed"
  | .sent => "Sent"

instance : Wire SendStatus := .ofTags tag [.sending, .failed, .sent]

end SendStatus

namespace Content

def write : Content → Json
  | .message type body =>
    .tagged "Message" (.obj [("msgtype", Wire.write type), ("body", .str body)])
  | .sticker body => .tagged "Sticker" (.obj [("body", .str body)])
  | .poll question => .tagged "Poll" (.obj [("question", .str question)])
  | .redacted => .str "Redacted"
  | .other => .str "Other"

def read? (j : Json) : Option Content := do
  let (tag, content) ← j.variant?
  match tag with
  | "Message" =>
    let r ← (← content).fields?
    return .message (← Wire.field? r "msgtype") (← Wire.field? r "body")
  | "Sticker" =>
    let r ← (← content).fields?
    return .sticker (← Wire.field? r "body")
  | "Poll" =>
    let r ← (← content).fields?
    return .poll (← Wire.field? r "question")
  | "Redacted" => Wire.bare content .redacted
  | "Other" => Wire.bare content .other
  | _ => none

instance : Wire Content := ⟨write, read?⟩

end Content

namespace Event

def write : Event → Json
  | .sent timestamp sender content delivery =>
    .tagged "Local" (.obj [("timestamp_ms", Wire.write timestamp), ("sender", Wire.write sender),
      ("content", Wire.write content), ("send_state", Wire.write delivery)])
  | .received timestamp sender isOwn content =>
    .tagged "Remote" (.obj [("timestamp_ms", Wire.write timestamp), ("sender", Wire.write sender),
      ("is_own", Wire.write isOwn), ("content", Wire.write content)])
  | .invite timestamp inviter =>
    .tagged "RemoteInvite" (.obj [("timestamp_ms", Wire.write timestamp),
      ("inviter", Wire.write inviter)])

def read? (j : Json) : Option Event := do
  let (tag, content) ← j.variant?
  match tag with
  | "Local" =>
    let r ← (← content).fields?
    return .sent (← Wire.field? r "timestamp_ms") (← Wire.field? r "sender")
      (← Wire.field? r "content") (← Wire.field? r "send_state")
  | "Remote" =>
    let r ← (← content).fields?
    return .received (← Wire.field? r "timestamp_ms") (← Wire.field? r "sender")
      (← Wire.field? r "is_own") (← Wire.field? r "content")
  | "RemoteInvite" =>
    let r ← (← content).fields?
    return .invite (← Wire.field? r "timestamp_ms") (← Wire.optional? r "inviter")
  | _ => none

instance : Wire Event := ⟨write, read?⟩

end Event

end LiveRooms
