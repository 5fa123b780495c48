import LiveRooms.Proofs.Room.Shown

/-!
# What a last message shows of the sender

The text for a content tells the name it is under and nothing else of the sender
(`Preview.line_eq_iff`).  An outgoing event is under no one's name, so its last message is the same
whoever the sender is, and the same when the event has been sent and when it has come back from the
server; that of an incoming event depends on the name that the sender is shown by
(`LastMessage.ofEvent_sentBy_eq_iff`).
-/

namespace LiveRooms

theorem Preview.line_eq_none_iff {name : String} {content : Content} :
    line name content = none ↔ content = .other := by
  unfold line
  split <;> simp

/-- Where a content has a text, the name can be read off it. -/
theorem Preview.line_eq_iff {a b : String} {content : Content} :
    line a content = line b content ↔ content = .other ∨ a = b := by
  unfold line
  split <;> simp [String.append_assoc]

namespace Event

variable {e : Event} {p q : Profile}

/-- When the event happened. -/
def timestamp : Event → UInt64
  | .sent timestamp .. | .received timestamp .. | .invite timestamp _ => timestamp

/-- What the event says; an invite has no content. -/
def content? : Event → Option Content
  | .sent _ _ content _ | .received _ _ _ content => some content
  | .invite .. => none

/-- Whether the current user wrote the event. -/
def isOutgoing : Event → Bool
  | .sent .. => true
  | .received _ _ isOwn _ => isOwn
  | .invite .. => false

/-- The event as it would be from another sender.  An invite comes from the inviter, if it is known
who that is. -/
def sentBy (p : Profile) : Event → Event
  | .sent timestamp _ content delivery => .sent timestamp p content delivery
  | .received timestamp _ isOwn content => .received timestamp p isOwn content
  | .invite timestamp inviter => .invite timestamp (inviter.map fun _ => p)

/-- The text of the last message. -/
def text? (e : Event) : Option String := e.headline.source.preview

@[simp] theorem text?_sent (timestamp : UInt64) (sender : Profile) (content : Content)
    (delivery : Delivery) :
    (sent timestamp sender content delivery).text? = Preview.line "You" content := rfl

@[simp] theorem text?_received (timestamp : UInt64) (sender : Profile) (isOwn : Bool)
    (content : Content) :
    (received timestamp sender isOwn content).text? =
      Preview.line (Preview.author sender isOwn) content := rfl

@[simp] theorem text?_invite (timestamp : UInt64) (inviter : Option Profile) :
    (invite timestamp inviter).text? =
      inviter.map fun profile => Preview.invitedYou profile.shownName := rfl

theorem text?_eq_none_iff :
    e.text? = none ↔ e.content? = some .other ∨ ∃ timestamp, e = .invite timestamp none := by
  cases e with
  | sent | received => simp [content?, Preview.line_eq_none_iff]
  | invite => simp [content?]

/-- Of an outgoing event it does not matter who the sender is. -/
theorem text?_sentBy (h : e.isOutgoing = true) (p : Profile) : (e.sentBy p).text? = e.text? := by
  cases e with
  | sent timestamp sender content delivery => rfl
  | received timestamp sender isOwn content =>
    obtain rfl : isOwn = true := h
    rfl
  | invite timestamp inviter => cases h

/-- Of an incoming event that has a text it matters by which name the sender is shown. -/
theorem text?_sentBy_eq_iff (h : e.isOutgoing = false) :
    (e.sentBy p).text? = (e.sentBy q).text? ↔ e.text? = none ∨ p.shownName = q.shownName := by
  cases e with
  | sent timestamp sender content delivery => cases h
  | received timestamp sender isOwn content =>
    obtain rfl : isOwn = false := h
    rw [text?_eq_none_iff]
    simp [sentBy, content?, Preview.line_eq_iff, Preview.author]
  | invite timestamp inviter =>
    cases inviter with
    | none => exact iff_of_true rfl (Or.inl rfl)
    | some inviter => simp [sentBy, Preview.invitedYou]

end Event

namespace LastMessage

open Event

variable {e e' : Event}

theorem ofEvent_eq_iff :
    ofEvent e = ofEvent e' ↔ e.text? = e'.text? ∧
      e.headline.timestamp = e'.headline.timestamp ∧ e.headline.status = e'.headline.status := by
  rw [ofEvent, ofEvent, mk.injEq]
  rfl

theorem ofEvent_timestamp (e : Event) : (ofEvent e).timestamp = e.timestamp := by
  cases e <;> rfl

theorem ofEvent_sentBy_eq_iff (e : Event) (p q : Profile) :
    ofEvent (e.sentBy p) = ofEvent (e.sentBy q) ↔ (e.sentBy p).text? = (e.sentBy q).text? := by
  rw [ofEvent_eq_iff]
  cases e <;> exact and_iff_left ⟨rfl, rfl⟩

/-- An event of this device that has been sent looks like the same event when it has come back from
the server, whoever the senders are, and no outgoing event shows anything of its sender.  An
incoming event that has a text shows the display name of its sender, or the user id if there is
none, and nothing else of the sender.  The timestamp is always shown; the text is missing just for a
content without a textual form and for an invite from someone unknown.  The summary of a readable
room shows this last message of its latest event. -/
theorem shows_sender_by_name :
    (∀ timestamp p q content,
      ofEvent (.sent timestamp p content .hasBeenSent) =
        ofEvent (.received timestamp q true content)) ∧
    (∀ e : Event, e.isOutgoing = true → ∀ p q, ofEvent (e.sentBy p) = ofEvent (e.sentBy q)) ∧
    (∀ e : Event, e.isOutgoing = false → ∀ p q : Profile,
      (ofEvent (e.sentBy p) = ofEvent (e.sentBy q) ↔ (ofEvent e).text = none ∨
        p.displayName.getD p.userId = q.displayName.getD q.userId)) ∧
    (∀ e : Event, (ofEvent e).timestamp = e.timestamp ∧
      ((ofEvent e).text = none ↔
        e.content? = some .other ∨ ∃ timestamp, e = .invite timestamp none)) ∧
    ∀ r : Room, r.readable = true →
      ∃ s, r.summarize = .ok s ∧ s.lastMessage = r.latestEvent.map ofEvent := by
  refine ⟨fun timestamp p q content => rfl, fun e he p q => ?_, fun e he p q => ?_, fun e => ?_,
    fun r hr => ⟨_, Room.summarize_of_readable hr, rfl⟩⟩
  · rw [ofEvent_sentBy_eq_iff, text?_sentBy he, text?_sentBy he]
  · rw [ofEvent_sentBy_eq_iff]
    exact text?_sentBy_eq_iff he
  · exact ⟨ofEvent_timestamp e, text?_eq_none_iff⟩

/-- A user whose id is the display name of another one looks the same, and one with another name
does not; from another device of the user's own both look the same. -/
theorem shows_sender_by_name_of_emote :
    let e : Event := .received 5 ⟨"@bob", some "Bob", none⟩ false (.message .emote "waves")
    let own : Event := .received 5 ⟨"@bob", some "Bob", none⟩ true (.message .emote "waves")
    let r : Room := { Room.joined "a" with latestEvent := some e }
    (e.isOutgoing = false ∧ ofEvent e = ofEvent (e.sentBy ⟨"Bob", none, some "picture"⟩) ∧
      ofEvent e ≠ ofEvent (e.sentBy ⟨"@bob", none, none⟩)) ∧
    (own.isOutgoing = true ∧ ofEvent own = ofEvent (own.sentBy ⟨"@carol", none, none⟩)) ∧
    r.readable = true ∧
      ∃ s, r.summarize = .ok s ∧ s.lastMessage = some ⟨some "* Bob waves", 5, .sent⟩ := by
  intro e own r
  obtain ⟨-, hout, hin, -, hroom⟩ := shows_sender_by_name
  have hne : (ofEvent e).text ≠ none := nofun
  refine ⟨⟨rfl, ?_, ?_⟩, ⟨rfl, ?_⟩, rfl, hroom r rfl⟩
  · exact (hin e rfl ⟨"@bob", some "Bob", none⟩ ⟨"Bob", none, some "picture"⟩).2 (Or.inr rfl)
  · intro h
    have hname := (hin e rfl ⟨"@bob", some "Bob", none⟩ ⟨"@bob", none, none⟩).1 h
    exact absurd (hname.resolve_left hne) (by decide)
  · exact hout own rfl ⟨"@bob", some "Bob", none⟩ ⟨"@carol", none, none⟩

end LastMessage

end LiveRooms
