import LiveRooms.Proofs.World.Changes
import LiveRooms.Proofs.World.Looks

/-!
# The subscriber side of a world

What a subscriber does depends on the configuration, the viewport reported last, the subscriber
itself, the stored ids and whether the service answers.  `World.subscriberSide` is the part of this
that other moves than those of the subscriber leave as it is, together with the requests that the
service received.  `Moment.Stirs` lists what can become of it at a moment; only when the subscriber
considers the viewport is the service asked for something.
-/

namespace LiveRooms

/-- The part of a world that its subscriber depends on, and what the service was asked for. -/
structure SubscriberSide where
  config : Config
  /-- Most ids that one reading covers. -/
  limit : UInt64
  viewport : Viewport
  subscriber : Subscriber
  isDropped : Bool
  requests : List (List String)

namespace World

def subscriberSide (w : World) : SubscriberSide where
  config := w.projection.config
  limit := w.projection.store.limit
  viewport := w.projection.viewport
  subscriber := w.projection.subscriber
  isDropped := w.projection.isDropped
  requests := w.remote.service.requests

/-- The request that the viewport leads to once reports have settled. -/
def request? (w : World) : Option (List String) :=
  w.projection.subscriber.request? w.projection.config.managesSubscriptions w.projection.viewport
    (w.projection.store.ids w.projection.viewport)

end World

namespace Subscriber

variable {s s' : Subscriber} {now debounce : Nat}

theorem notice?_eq_some (h : s.notice? now debounce = some s') :
    s.hasReport = true ∧ (s.phase = .idle ∨ ∃ deadline, s.phase = .settling deadline) ∧
      s' = { s with hasReport := false, phase := .settling (now + Pause.length debounce) } := by
  unfold notice? at h
  split at h
  · rename_i hr
    split at h <;> rename_i hp <;> cases h
    · exact ⟨hr, Or.inl hp, rfl⟩
    · exact ⟨hr, Or.inr ⟨_, hp⟩, rfl⟩
  · cases h

theorem isSettled_eq_true : s.isSettled now = true ↔ ∃ deadline, s.phase = .settling deadline ∧
    deadline ≤ now := by
  unfold isSettled
  split <;> rename_i hp
  · simp [hp]
  · constructor
    · intro h
      cases h
    · rintro ⟨deadline, hd, -⟩
      exact absurd hd (hp deadline)

theorem giveUp?_eq_some (h : s.giveUp? now = some s') :
    ∃ deadline, s.phase = .asking deadline ∧ deadline ≤ now ∧ s' = { s with phase := .idle } := by
  unfold giveUp? at h
  split at h
  · rename_i hp
    split at h
    · rename_i hle
      cases h
      exact ⟨_, hp, hle, rfl⟩
    · cases h
  · cases h

theorem stop?_eq_some (h : s.stop? = some s') :
    (∀ deadline, s.phase ≠ .asking deadline) ∧ s' = { s with phase := .stopped } := by
  unfold stop? at h
  split at h <;> rename_i hp <;> cases h <;> exact ⟨by simp [hp], rfl⟩

end Subscriber

namespace Moment

/-- Whether the subscriber considers the viewport. -/
def considers (m : Moment) : Bool :=
  match m.cause with
  | .move .considerViewport => true
  | _ => false

/-- The service is asked for these ids. -/
def requests (m : Moment) : List (List String) :=
  m.after.remote.service.requests.drop m.before.remote.service.requests.length

/-- A moment at which the subscriber considers nothing and nothing is reported to it. -/
def IsAside (m : Moment) : Prop := m.considers = false ∧ m.reported? = none

/-- What becomes of the subscriber side at a moment. -/
inductive Stirs (m : Moment) : SubscriberSide → Prop where
  | report {v : Viewport} : m.considers = false → m.step?.isSome = true → m.reported? = some v →
      m.Stirs { m.before.subscriberSide with
        viewport := v, subscriber := m.before.subscriberSide.subscriber.report }
  | notice : m.IsAside → m.before.subscriberSide.subscriber.hasReport = true →
      (m.before.subscriberSide.subscriber.phase = .idle ∨
        ∃ deadline, m.before.subscriberSide.subscriber.phase = .settling deadline) →
      m.Stirs { m.before.subscriberSide with
        subscriber := { m.before.subscriberSide.subscriber with
          hasReport := false
          phase := .settling
            (m.time + Pause.length m.before.subscriberSide.config.subscriptionDebounce.toNat) } }
  | rest {deadline : Nat} : m.considers = true → m.reported? = none →
      m.before.subscriberSide.subscriber.phase = .settling deadline → deadline ≤ m.time →
      m.before.request? = none →
      m.Stirs { m.before.subscriberSide with
        subscriber := m.before.subscriberSide.subscriber.rest }
  | ask {deadline : Nat} {ids : List String} : m.considers = true → m.reported? = none →
      m.before.subscriberSide.subscriber.phase = .settling deadline → deadline ≤ m.time →
      m.before.request? = some ids →
      m.Stirs { m.before.subscriberSide with
        subscriber :=
          m.before.subscriberSide.subscriber.ask m.time ids !m.before.remote.service.hangs
        requests := m.before.subscriberSide.requests ++ [ids] }
  | giveUp {deadline : Nat} : m.IsAside →
      m.before.subscriberSide.subscriber.phase = .asking deadline → deadline ≤ m.time →
      m.Stirs { m.before.subscriberSide with
        subscriber := { m.before.subscriberSide.subscriber with phase := .idle } }
  | stop : m.IsAside → (∀ deadline, m.before.subscriberSide.subscriber.phase ≠ .asking deadline) →
      m.before.subscriberSide.isDropped = true →
      m.Stirs { m.before.subscriberSide with
        subscriber := { m.before.subscriberSide.subscriber with phase := .stopped } }
  | drop : m.IsAside → m.Stirs { m.before.subscriberSide with isDropped := true }
  | still : m.IsAside → m.Stirs m.before.subscriberSide

theorem Stirs.config_eq {m : Moment} {s : SubscriberSide} (h : m.Stirs s) :
    s.config = m.before.subscriberSide.config := by
  cases h <;> rfl

theorem Stirs.limit_eq {m : Moment} {s : SubscriberSide} (h : m.Stirs s) :
    s.limit = m.before.subscriberSide.limit := by
  cases h <;> rfl

end Moment

namespace World

variable {w w' : World} {now : Nat}

/-! ## What leaves the subscriber side as it is -/

theorem subscriberSide_decideAtLook (w : World) :
    w.decideAtLook.subscriberSide = w.subscriberSide := by
  unfold decideAtLook decidePages
  split
  · split <;> rfl
  · rfl

theorem subscriberSide_updateAttachment (i : Nat) (change : Attachment → Attachment) (w : World) :
    (w.updateAttachment i change).subscriberSide = w.subscriberSide := by
  rw [updateAttachment_eq]
  rfl

theorem subscriberSide_requestRebuild (p : Projection) (remote : Remote) :
    subscriberSide ⟨remote, p.requestRebuild⟩ = subscriberSide ⟨remote, p⟩ := by
  unfold Projection.requestRebuild
  split <;> rfl

theorem subscriberSide_filter (filter : Filter) (w : World) :
    (w.filter filter).1.subscriberSide = w.subscriberSide := by
  unfold World.filter
  split <;> rfl

theorem silent_subscribe (ids : List String) (s : RoomService) :
    ((s.subscribe ids).2 != .silent) = !s.hangs := by
  unfold RoomService.subscribe
  cases s.hangs with
  | true => rfl
  | false => cases s.fails <;> rfl

/-! ## Moments -/

theorem stirs_move {move : Move} (h : w.move? now move = some w') :
    Moment.Stirs ⟨now, w, .move move⟩ w'.subscriberSide := by
  cases moved_of_move? h with
  | noticeReport hs =>
    obtain ⟨hr, hp, rfl⟩ := Subscriber.notice?_eq_some hs
    exact .notice ⟨rfl, rfl⟩ hr hp
  | rest hs hr =>
    obtain ⟨deadline, hp, hle⟩ := Subscriber.isSettled_eq_true.1 hs
    exact .rest rfl rfl hp hle hr
  | ask hs hr =>
    obtain ⟨deadline, hp, hle⟩ := Subscriber.isSettled_eq_true.1 hs
    rw [silent_subscribe]
    exact .ask rfl rfl hp hle hr
  | giveUpRequest hs =>
    obtain ⟨deadline, hp, hle, rfl⟩ := Subscriber.giveUp?_eq_some hs
    exact .giveUp ⟨rfl, rfl⟩ hp hle
  | stopSubscriber hd hs =>
    obtain ⟨hp, rfl⟩ := Subscriber.stop?_eq_some hs
    exact .stop ⟨rfl, rfl⟩ hp hd
  | @readNotice i _ _ _ _ _ =>
    have hs : Moment.Stirs ⟨now, w, .move (.readNotice i)⟩ w.subscriberSide := .still ⟨rfl, rfl⟩
    split
    · rwa [subscriberSide_requestRebuild]
    · exact hs
  | lookAtViewport _ =>
    have hs := subscriberSide_decideAtLook w
    exact hs ▸ .still ⟨rfl, rfl⟩
  | _ => exact .still ⟨rfl, rfl⟩

theorem stirs_report (now : Nat) (viewports : List Viewport)
    (hd : w.projection.isDropped = false) :
    Moment.Stirs ⟨now, w, .step (.report viewports)⟩
      (w.reportViewports viewports).subscriberSide := by
  unfold reportViewports
  split
  · rename_i hv
    exact .still ⟨rfl, by simp [Moment.reported?, hv]⟩
  · rename_i v hv
    exact .report rfl rfl (by simp [Moment.reported?, hd, hv])

theorem stirs_step (w : World) (now : Nat) (step : Step) :
    Moment.Stirs ⟨now, w, .step step⟩ (w.step step).1.subscriberSide := by
  have hs := stepped_of_step w step
  generalize (w.step step).1 = w', (w.step step).2 = outcome at hs
  cases hs with
  | report hd => exact stirs_report now _ hd
  | dropProjection => exact .drop ⟨rfl, rfl⟩
  | noProjection _ hd _ =>
    refine .still ⟨rfl, ?_⟩
    cases step <;> simp [Moment.reported?, hd]
  | noSource ht _ =>
    refine .still ⟨rfl, ?_⟩
    cases step with
    | report viewports => cases ht
    | _ => rfl
  | push _ =>
    rw [World.push, subscriberSide_updateAttachment]
    exact .still ⟨rfl, rfl⟩
  | loading _ =>
    rw [setLoading, subscriberSide_updateAttachment]
    exact .still ⟨rfl, rfl⟩
  | dropSource =>
    rw [World.dropSource, subscriberSide_updateAttachment]
    exact .still ⟨rfl, rfl⟩
  | filter _ => exact subscriberSide_filter _ w ▸ .still ⟨rfl, rfl⟩
  | @settingsChanged times _ =>
    have h : Moment.Stirs ⟨now, w, .step (.settingsChanged times)⟩ w.subscriberSide :=
      .still ⟨rfl, rfl⟩
    split
    · exact h
    · rwa [subscriberSide_requestRebuild]
  | _ => exact .still ⟨rfl, rfl⟩

theorem stirs_of_happens {m : Moment} (h : m.Happens) : m.Stirs m.after.subscriberSide :=
  h.elim (Q := fun m w => m.Stirs w.subscriberSide) (fun time w s => stirs_step w time s)
    fun _ _ _ _ hw => stirs_move hw

end World

end LiveRooms
