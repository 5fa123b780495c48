import LiveRooms.Proofs.Store.Ids
import LiveRooms.Proofs.World.SubscriberSide

/-!
# What the subscriber considers

The subscriber considers the viewport that was reported last, once no report has come and no request
has been waited for during a pause for the length of the debounce (`settleTime`).  It then asks the
service for the ids in the viewport, unless they are those of its last request.  What it recalls
follows from the reports and the requests in the log (`Records`), and so does when it acts, as long
as steps from outside are made at rest (`Paces`).
-/

namespace LiveRooms

namespace World

/-- The ids of the stored rooms, in order. -/
def storedIds (w : World) : List String := w.projection.store.entries.map fun e => e.summary.id

/-- The stored ids at the positions of a viewport, up to `limit` positions from its start. -/
def idsIn (limit : Nat) (v : Viewport) (w : World) : List String :=
  (w.storedIds.take (min v.stop.toNat (v.start.toNat + limit))).drop v.start.toNat

end World

namespace Moment

/-- Whether the service is asked for something. -/
def asks (m : Moment) : Bool := !m.requests.isEmpty

/-- When a request made at a moment has its answer or is given up. -/
def answerTime (m : Moment) : Nat :=
  if m.before.remote.service.hangs then m.time + Subscriber.answerLimit else m.time

end Moment

/-- The ids that the service was asked for last. -/
def lastRequest? (log : List Moment) : Option (List String) :=
  (log.flatMap Moment.requests).getLast?

/-- The time of the last report, zero where there was none. -/
def lastReportTime (log : List Moment) : Nat :=
  (log.filter fun m => m.reported?.isSome).getLast?.elim 0 Moment.time

/-- The end of the last request, zero where there was none. -/
def busyUntil (log : List Moment) : Nat :=
  (log.filter Moment.asks).getLast?.elim 0 Moment.answerTime

/-- When the latest report has settled. -/
def settleTime (debounce : Nat) (log : List Moment) : Nat :=
  max (lastReportTime log) (busyUntil log) + Pause.length debounce

/-- A viewport was reported that was neither considered nor superseded since. -/
def IsUnread (v : Viewport) (log : List Moment) : Prop :=
  ∃ early r late, log = early ++ r :: late ∧ r.reported? = some v ∧
    ∀ m ∈ late, m.reported? = none ∧ m.considers = false

/-- How a moment after `early` treats the viewport.  It is considered when the latest report has
settled and was not considered yet.  If rooms are kept live at all and the viewport is not empty,
the service is asked for the ids in it, unless it was asked for the same list last; nothing else is
asked for. -/
structure Considers (config : Config) (early : List Moment) (m : Moment) : Prop where
  consider : m.considers = true →
    m.time = settleTime config.subscriptionDebounce.toNat early ∧
    ∃ v, IsUnread v early ∧
      m.requests =
        if config.managesSubscriptions = true ∧ v.isEmpty = false ∧
            lastRequest? early ≠ some (m.before.idsIn (max 1 config.maxVisible.toNat) v) then
          [m.before.idsIn (max 1 config.maxVisible.toNat) v]
        else []
  other : m.considers = false → m.requests = []

section

variable {log early late : List Moment} {m r : Moment} {debounce : Nat} {v : Viewport}

theorem lastRequest?_snoc (log : List Moment) (m : Moment) :
    lastRequest? (log ++ [m]) = m.requests.getLast?.or (lastRequest? log) := by
  simp [lastRequest?, List.flatMap_append, List.getLast?_append]

theorem lastReportTime_snoc (log : List Moment) (m : Moment) :
    lastReportTime (log ++ [m]) = if m.reported?.isSome then m.time else lastReportTime log := by
  cases h : m.reported?.isSome <;> simp [lastReportTime, List.filter_append, h]

theorem busyUntil_snoc (log : List Moment) (m : Moment) :
    busyUntil (log ++ [m]) = if m.asks then m.answerTime else busyUntil log := by
  cases h : m.asks <;> simp [busyUntil, List.filter_append, h]

theorem isUnread_snoc : IsUnread v (log ++ [m]) ↔
    m.reported? = some v ∨ m.reported? = none ∧ m.considers = false ∧ IsUnread v log := by
  constructor
  · rintro ⟨early, r, late, he, hv, hl⟩
    rcases snoc_eq_append_cons he with ⟨-, rfl, -⟩ | ⟨late', rfl, rfl⟩
    · exact Or.inl hv
    · obtain ⟨hr, hc⟩ := hl m (by simp)
      exact Or.inr ⟨hr, hc, early, r, late', rfl, hv, fun x hx => hl x (by simp [hx])⟩
  · rintro (hv | ⟨hr, hc, early, r, late, rfl, hv, hl⟩)
    · exact ⟨log, m, [], rfl, hv, by simp⟩
    · refine ⟨early, r, late ++ [m], by simp, hv, fun x hx => ?_⟩
      rcases List.mem_append.1 hx with hx | hx
      · exact hl x hx
      · rw [List.mem_singleton.1 hx]
        exact ⟨hr, hc⟩

/-! ## What is asked for at a moment -/

/-- The service is asked for what the viewport leads to when it is considered, and for nothing at
other moments. -/
theorem Moment.Stirs.requests_eq (h : m.Stirs m.after.subscriberSide) :
    m.requests = if m.considers then m.before.request?.toList else [] := by
  have hr : m.requests =
      m.after.subscriberSide.requests.drop m.before.subscriberSide.requests.length := rfl
  rw [hr]
  generalize m.after.subscriberSide = s' at h
  cases h with
  | report hc _ _ => simp [hc]
  | notice ha _ _ | giveUp ha _ _ | stop ha _ _ | drop ha | still ha => simp [ha.1]
  | rest hc _ _ _ hn => simp [hc, hn]
  | ask hc _ _ _ hn => simp [hc, hn]

theorem Moment.Stirs.requests_after (h : m.Stirs m.after.subscriberSide) :
    m.after.subscriberSide.requests = m.before.subscriberSide.requests ++ m.requests := by
  have hr : m.requests =
      m.after.subscriberSide.requests.drop m.before.subscriberSide.requests.length := rfl
  rw [hr]
  generalize m.after.subscriberSide = s' at h
  cases h <;> simp

theorem Moment.Stirs.lastRequest_after (h : m.Stirs m.after.subscriberSide) :
    m.after.subscriberSide.subscriber.lastRequest =
      m.requests.getLast?.or m.before.subscriberSide.subscriber.lastRequest := by
  rw [h.requests_eq]
  generalize m.after.subscriberSide = s' at h
  cases h with
  | report hc _ _ =>
    rw [hc]
    rfl
  | notice ha _ _ | giveUp ha _ _ | stop ha _ _ | drop ha | still ha =>
    rw [ha.1]
    rfl
  | rest hc _ _ _ hn | ask hc _ _ _ hn =>
    rw [hc, hn]
    rfl

theorem Moment.asks_eq_false (h : m.Stirs m.after.subscriberSide) (hc : m.considers = false) :
    m.asks = false := by
  simp [Moment.asks, h.requests_eq, hc]

/-! ## What the subscriber recalls -/

/-- The subscriber recalls its last request, and whether a report came that it did not consider. -/
structure Records (config : Config) (log : List Moment) (s : SubscriberSide) : Prop where
  config_eq : s.config = config
  limit_eq : s.limit.toNat = max 1 config.maxVisible.toNat
  requests_eq : s.requests = log.flatMap Moment.requests
  lastRequest_eq : s.subscriber.lastRequest = lastRequest? log
  unread : (s.subscriber.hasReport = true ∨ ∃ deadline, s.subscriber.phase = .settling deadline) →
    IsUnread s.viewport log
  waits (v : Viewport) : IsUnread v log → s.subscriber.hasReport = true ∨
    (∃ deadline, s.subscriber.phase = .settling deadline) ∨ s.subscriber.phase = .stopped

variable {config : Config}

/-- What is unread stays so at a moment at which nothing is considered and nothing reported. -/
theorem isUnread_snoc_of_isAside (ha : m.IsAside) : IsUnread v (log ++ [m]) ↔ IsUnread v log := by
  simp [isUnread_snoc, ha.1, ha.2]

theorem Records.unread_stirs (h : Records config log m.before.subscriberSide)
    (hm : m.Stirs m.after.subscriberSide)
    (hr : m.after.subscriberSide.subscriber.hasReport = true ∨
      ∃ deadline, m.after.subscriberSide.subscriber.phase = .settling deadline) :
    IsUnread m.after.subscriberSide.viewport (log ++ [m]) := by
  generalize m.after.subscriberSide = s' at hm hr ⊢
  cases hm with
  | report _ _ hv => exact isUnread_snoc.2 (Or.inl hv)
  | notice ha hr' _ => exact (isUnread_snoc_of_isAside ha).2 (h.unread (Or.inl hr'))
  | rest => simp [Subscriber.rest] at hr
  | ask => cases hh : m.before.remote.service.hangs <;> simp [Subscriber.ask, hh] at hr
  | giveUp ha _ _ | stop ha _ _ =>
    rcases hr with hr | ⟨_, hp⟩
    · exact (isUnread_snoc_of_isAside ha).2 (h.unread (Or.inl hr))
    · cases hp
  | drop ha | still ha => exact (isUnread_snoc_of_isAside ha).2 (h.unread hr)

theorem Records.waits_stirs (h : Records config log m.before.subscriberSide)
    (hm : m.Stirs m.after.subscriberSide) (hu : IsUnread v (log ++ [m])) :
    m.after.subscriberSide.subscriber.hasReport = true ∨
      (∃ deadline, m.after.subscriberSide.subscriber.phase = .settling deadline) ∨
      m.after.subscriberSide.subscriber.phase = .stopped := by
  generalize m.after.subscriberSide = s' at hm
  cases hm with
  | report => exact Or.inl rfl
  | notice => exact Or.inr (Or.inl ⟨_, rfl⟩)
  | rest hc hn _ _ _ | ask hc hn _ _ _ => simp [isUnread_snoc, hc, hn] at hu
  | giveUp ha hp _ =>
    have hw := h.waits v ((isUnread_snoc_of_isAside ha).1 hu)
    simp only [hp] at hw
    exact Or.inl (by simpa using hw)
  | stop => exact Or.inr (Or.inr rfl)
  | drop ha | still ha => exact h.waits v ((isUnread_snoc_of_isAside ha).1 hu)

theorem Records.stirs (h : Records config log m.before.subscriberSide)
    (hm : m.Stirs m.after.subscriberSide) : Records config (log ++ [m]) m.after.subscriberSide where
  config_eq := hm.config_eq.trans h.config_eq
  limit_eq := (congrArg UInt64.toNat hm.limit_eq).trans h.limit_eq
  requests_eq := by
    rw [hm.requests_after, h.requests_eq, List.flatMap_append, List.flatMap_singleton]
  lastRequest_eq := by rw [hm.lastRequest_after, h.lastRequest_eq, lastRequest?_snoc]
  unread := h.unread_stirs hm
  waits _ := h.waits_stirs hm

/-! ## When the subscriber acts -/

/-- Time does not go back, and requests do not overlap. -/
structure Spaced (log : List Moment) (now : Nat) : Prop where
  time_le : ∀ m ∈ log, m.time ≤ now
  lastReportTime_le : lastReportTime log ≤ now
  le_lastReportTime : ∀ r ∈ log, r.reported?.isSome = true → r.time ≤ lastReportTime log
  le_busyUntil : ∀ m ∈ log, m.asks = true → m.answerTime ≤ busyUntil log
  apart : (log.filter Moment.asks).Pairwise fun m m' => m.answerTime ≤ m'.time

variable {now later : Nat}

theorem Spaced.wait (h : Spaced log now) (hl : now ≤ later) : Spaced log later where
  time_le m hm := (h.time_le m hm).trans hl
  lastReportTime_le := h.lastReportTime_le.trans hl
  le_lastReportTime := h.le_lastReportTime
  le_busyUntil := h.le_busyUntil
  apart := h.apart

theorem le_answerTime (m : Moment) : m.time ≤ m.answerTime := by
  unfold Moment.answerTime
  split
  · exact Nat.le_add_right ..
  · exact Nat.le_refl _

/-- A request is made when the one before it has ended. -/
theorem Spaced.snoc (h : Spaced log m.time) (hfree : m.asks = true → busyUntil log ≤ m.time) :
    Spaced (log ++ [m]) m.time where
  time_le x hx := by
    rcases List.mem_append.1 hx with hx | hx
    · exact h.time_le x hx
    · rw [List.mem_singleton.1 hx]
  lastReportTime_le := by
    rw [lastReportTime_snoc]
    split
    · exact Nat.le_refl _
    · exact h.lastReportTime_le
  le_lastReportTime r hr hs := by
    rw [lastReportTime_snoc]
    rcases List.mem_append.1 hr with hr | hr
    · split
      · exact h.time_le r hr
      · exact h.le_lastReportTime r hr hs
    · rw [List.mem_singleton.1 hr] at hs ⊢
      rw [if_pos hs]
  le_busyUntil x hx ha := by
    rw [busyUntil_snoc]
    rcases List.mem_append.1 hx with hx | hx
    · have hle := h.le_busyUntil x hx ha
      split
      · rename_i hm
        exact hle.trans ((hfree hm).trans (le_answerTime m))
      · exact hle
    · rw [List.mem_singleton.1 hx] at ha ⊢
      rw [if_pos ha]
  apart := by
    rw [List.filter_append, List.pairwise_append]
    refine ⟨h.apart, List.Pairwise.sublist List.filter_sublist (List.pairwise_singleton _ _), ?_⟩
    intro x hx y hy
    obtain ⟨hx, hxa⟩ := List.mem_filter.1 hx
    obtain ⟨hy, hya⟩ := List.mem_filter.1 hy
    rw [List.mem_singleton.1 hy] at hya ⊢
    exact (h.le_busyUntil x hx hxa).trans (hfree hya)

/-- The subscriber waits for reports to stay away and for its requests to end. -/
inductive Paces (debounce : Nat) (log : List Moment) (now : Nat) (s : SubscriberSide) : Prop where
  | idle : s.subscriber.phase = .idle → s.subscriber.hasReport = false → busyUntil log ≤ now →
      Paces debounce log now s
  /-- Time does not pass before a report is noticed. -/
  | reported : s.subscriber.phase = .idle → s.subscriber.hasReport = true →
      now = max (lastReportTime log) (busyUntil log) → Paces debounce log now s
  | settling : s.subscriber.phase = .settling (settleTime debounce log) →
      s.subscriber.hasReport = false → busyUntil log ≤ now → now ≤ settleTime debounce log →
      Paces debounce log now s
  /-- A report that puts off a deadline comes before it. -/
  | putOff (deadline : Nat) : s.subscriber.phase = .settling deadline →
      s.subscriber.hasReport = true → busyUntil log ≤ now → now = lastReportTime log →
      now < deadline → Paces debounce log now s
  | asking : s.subscriber.phase = .asking (busyUntil log) → now ≤ busyUntil log →
      Paces debounce log now s
  | stopped : s.subscriber.phase = .stopped → s.isDropped = true → busyUntil log ≤ now →
      Paces debounce log now s

/-! ### At rest -/

section

variable {w : World}

theorem lt_of_settling_of_quiet (hq : Timed.Quiet now w) {deadline : Nat}
    (hp : w.projection.subscriber.phase = .settling deadline) : now < deadline := by
  have h : w.considerViewport? now = none :=
    hq .considerViewport (by simp [Timed.moves, World.moves])
  by_contra hle
  have hs : w.projection.subscriber.isSettled now = true :=
    Subscriber.isSettled_eq_true.2 ⟨deadline, hp, Nat.not_lt.1 hle⟩
  simp only [World.considerViewport?, if_pos hs] at h
  split at h <;> cases h

theorem lt_of_asking_of_quiet (hq : Timed.Quiet now w) {deadline : Nat}
    (hp : w.projection.subscriber.phase = .asking deadline) : now < deadline := by
  have h : (w.projection.subscriber.giveUp? now).map w.setSubscriber = none :=
    hq .giveUpRequest (by simp [Timed.moves, World.moves])
  simpa [Subscriber.giveUp?, hp] using h

/-- At rest a subscriber that has not read a report is stopped or waits for an answer. -/
theorem phase_of_quiet (hq : Timed.Quiet now w) (hr : w.projection.subscriber.hasReport = true) :
    w.projection.subscriber.phase ≠ .idle ∧
      ∀ deadline, w.projection.subscriber.phase ≠ .settling deadline := by
  have h : (w.projection.subscriber.notice? now
      w.projection.config.subscriptionDebounce.toNat).map w.setSubscriber = none :=
    hq .noticeReport (by simp [Timed.moves, World.moves])
  constructor
  · intro hp
    simp [Subscriber.notice?, hr, hp] at h
  · intro deadline hp
    simp [Subscriber.notice?, hr, hp] at h

theorem mem_timers_of_phase {deadline : Nat}
    (hp : w.projection.subscriber.phase = .settling deadline ∨
      w.projection.subscriber.phase = .asking deadline) : deadline ∈ Timed.timers w := by
  rcases hp with hp | hp <;> simp [Timed.timers, Projection.timers, Subscriber.timers, hp]

end

theorem Paces.sleep {w : World} (h : Paces debounce log now w.subscriberSide)
    (hs : Timed.Sleeps now later w) : Paces debounce log later w.subscriberSide := by
  cases h with
  | idle hp hr hb => exact .idle hp hr (hb.trans hs.le)
  | reported hp hr _ => exact absurd hp (phase_of_quiet hs.quiet hr).1
  | settling hp hr hb _ =>
    exact .settling hp hr (hb.trans hs.le)
      (hs.timers _ (mem_timers_of_phase (Or.inl hp)) (lt_of_settling_of_quiet hs.quiet hp))
  | putOff deadline hp hr _ _ _ => exact absurd hp ((phase_of_quiet hs.quiet hr).2 deadline)
  | asking hp _ =>
    exact .asking hp
      (hs.timers _ (mem_timers_of_phase (Or.inr hp)) (lt_of_asking_of_quiet hs.quiet hp))
  | stopped hp hd hb => exact .stopped hp hd (hb.trans hs.le)

/-! ### At a moment -/

section

variable {s : SubscriberSide}

/-- What is due at a moment at which nothing is considered and nothing reported is still due. -/
theorem times_snoc_of_isAside (hm : m.Stirs m.after.subscriberSide) (ha : m.IsAside) :
    lastReportTime (log ++ [m]) = lastReportTime log ∧ busyUntil (log ++ [m]) = busyUntil log := by
  rw [lastReportTime_snoc, busyUntil_snoc, ha.2, Moment.asks_eq_false hm ha.1]
  exact ⟨rfl, rfl⟩

theorem Paces.congr (h : Paces debounce early now s)
    (hl : lastReportTime log = lastReportTime early) (hb : busyUntil log = busyUntil early) :
    Paces debounce log now s := by
  have hs : settleTime debounce log = settleTime debounce early := by
    rw [settleTime, settleTime, hl, hb]
  cases h with
  | idle hp hr hle => exact .idle hp hr (hb.trans_le hle)
  | reported hp hr hn => exact .reported hp hr (by rw [hl, hb]; exact hn)
  | settling hp hr hle hn => exact .settling (hs ▸ hp) hr (hb.trans_le hle) (hs ▸ hn)
  | putOff deadline hp hr hle hn hlt =>
    exact .putOff deadline hp hr (hb.trans_le hle) (hn.trans hl.symm) hlt
  | asking hp hn => exact .asking (hb ▸ hp) (hb ▸ hn)
  | stopped hp hd hle => exact .stopped hp hd (hb.trans_le hle)

theorem Paces.drop (h : Paces debounce log now s) :
    Paces debounce log now { s with isDropped := true } := by
  cases h with
  | idle hp hr hb => exact .idle hp hr hb
  | reported hp hr hn => exact .reported hp hr hn
  | settling hp hr hb hn => exact .settling hp hr hb hn
  | putOff deadline hp hr hb hn hlt => exact .putOff deadline hp hr hb hn hlt
  | asking hp hn => exact .asking hp hn
  | stopped hp _ hb => exact .stopped hp rfl hb

/-- Outside a request the last one has ended. -/
theorem Paces.busyUntil_le (h : Paces debounce log now s)
    (hp : ∀ deadline, s.subscriber.phase ≠ .asking deadline) : busyUntil log ≤ now := by
  cases h with
  | idle _ _ hb | settling _ _ hb _ | putOff _ _ _ hb _ _ | stopped _ _ hb => exact hb
  | reported _ _ hn => exact (Nat.le_max_right ..).trans_eq hn.symm
  | asking hp' _ => exact absurd hp' (hp _)

/-- A report at rest puts off the deadline that was waited for. -/
theorem Paces.report (h : Paces debounce log m.time s) (hv : m.reported? = some v)
    (hb : busyUntil (log ++ [m]) = busyUntil log)
    (hlt : ∀ deadline, s.subscriber.phase = .settling deadline → m.time < deadline) :
    Paces debounce (log ++ [m]) m.time
      { s with viewport := v, subscriber := s.subscriber.report } := by
  have hl : lastReportTime (log ++ [m]) = m.time := by
    rw [lastReportTime_snoc, hv]
    rfl
  cases h with
  | idle hp _ hle => exact .reported hp rfl (by omega)
  | reported hp _ hn => exact .reported hp rfl (by omega)
  | settling hp _ hle _ => exact .putOff _ hp rfl (hb.trans_le hle) hl.symm (hlt _ hp)
  | putOff deadline hp _ hle _ hlt' => exact .putOff deadline hp rfl (hb.trans_le hle) hl.symm hlt'
  | asking hp hn => exact .asking (hb ▸ hp) (hb ▸ hn)
  | stopped hp hd hle => exact .stopped hp hd (hb.trans_le hle)

/-- A report is noticed at the instant it comes, or when the request that it met has ended. -/
theorem Paces.now_eq (h : Paces debounce log now s) (hr : s.subscriber.hasReport = true)
    (hp : s.subscriber.phase = .idle ∨ ∃ deadline, s.subscriber.phase = .settling deadline) :
    now = max (lastReportTime log) (busyUntil log) := by
  cases h with
  | reported _ _ hn => exact hn
  | putOff _ _ _ hb hn _ => omega
  | idle _ hr' _ | settling _ hr' _ _ => cases hr.symm.trans hr'
  | asking hp' _ | stopped hp' _ _ => simp [hp'] at hp

/-- A deadline that has come is that of the latest report. -/
theorem Paces.eq_settleTime {deadline : Nat} (h : Paces debounce log now s)
    (hp : s.subscriber.phase = .settling deadline) (hle : deadline ≤ now) :
    now = settleTime debounce log := by
  cases h with
  | settling hp' _ _ hn =>
    cases hp.symm.trans hp'
    exact Nat.le_antisymm hn hle
  | putOff _ hp' _ _ _ hlt =>
    cases hp.symm.trans hp'
    exact absurd hlt (Nat.not_lt.2 hle)
  | idle hp' _ _ | reported hp' _ _ | asking hp' _ | stopped hp' _ _ => cases hp.symm.trans hp'

/-- The time of a request is over when it is given up. -/
theorem Paces.busyUntil_eq {deadline : Nat} (h : Paces debounce log now s)
    (hp : s.subscriber.phase = .asking deadline) (hle : deadline ≤ now) : now = busyUntil log := by
  cases h with
  | asking hp' hn =>
    cases hp.symm.trans hp'
    exact Nat.le_antisymm hn hle
  | idle hp' _ _ | reported hp' _ _ | settling hp' _ _ _ | putOff _ hp' _ _ _ _
  | stopped hp' _ _ => cases hp.symm.trans hp'

theorem Paces.stirs (h : Paces debounce log m.time m.before.subscriberSide)
    (hlog : Spaced log m.time)
    (hd : m.before.subscriberSide.config.subscriptionDebounce.toNat = debounce)
    (hm : m.Stirs m.after.subscriberSide)
    (hrest : m.step?.isSome = true → Timed.Quiet m.time m.before) :
    Paces debounce (log ++ [m]) m.time m.after.subscriberSide := by
  have hasks := hm.requests_eq
  have hbusy := busyUntil_snoc log m
  have haside (ha : m.IsAside) : Paces debounce (log ++ [m]) m.time m.before.subscriberSide :=
    h.congr (times_snoc_of_isAside hm ha).1 (times_snoc_of_isAside hm ha).2
  have hlast (ha : m.IsAside) : lastReportTime (log ++ [m]) ≤ m.time :=
    (times_snoc_of_isAside hm ha).1.trans_le hlog.lastReportTime_le
  generalize m.after.subscriberSide = s' at hm
  cases hm with
  | report hc hs hv =>
    rw [if_neg (by simp [Moment.asks, hasks, hc])] at hbusy
    exact h.report hv hbusy fun deadline hp => lt_of_settling_of_quiet (hrest hs) hp
  | notice ha hr hp =>
    have hnow := (haside ha).now_eq hr hp
    have hset : m.time + Pause.length debounce = settleTime debounce (log ++ [m]) := by
      rw [settleTime, ← hnow]
    rw [hd, hset]
    exact .settling rfl rfl (by omega) (by omega)
  | rest hc _ hp _ hreq =>
    rw [if_neg (by simp [Moment.asks, hasks, hc, hreq])] at hbusy
    exact .idle rfl rfl (hbusy.trans_le (h.busyUntil_le (by simp [hp])))
  | ask hc _ _ _ hreq =>
    rw [if_pos (by simp [Moment.asks, hasks, hc, hreq]), Moment.answerTime] at hbusy
    cases hh : m.before.remote.service.hangs <;> rw [hh] at hbusy
    · exact .idle rfl rfl hbusy.le
    · exact .asking (congrArg _ hbusy.symm) (hbusy ▸ Nat.le_add_right ..)
  | giveUp ha hp hle =>
    have hnow := (haside ha).busyUntil_eq hp hle
    cases hr : m.before.subscriberSide.subscriber.hasReport with
    | false => exact .idle rfl hr hnow.ge
    | true => exact .reported rfl hr (by rw [← hnow, Nat.max_eq_right (hlast ha)])
  | stop ha hp hd => exact .stopped rfl hd ((haside ha).busyUntil_le hp)
  | drop ha => exact (haside ha).drop
  | still ha => exact haside ha

/-! ### Before the latest report has settled -/

/-- A report that is not considered yet has not settled, or settles now. -/
theorem Paces.le_settleTime (h : Paces debounce log now s) (hd : s.isDropped = false)
    (hw : s.subscriber.hasReport = true ∨
      (∃ deadline, s.subscriber.phase = .settling deadline) ∨ s.subscriber.phase = .stopped) :
    now ≤ settleTime debounce log := by
  unfold settleTime
  cases h with
  | idle hp hr _ => simp [hp, hr] at hw
  | reported _ _ hn => omega
  | settling _ _ _ hn => exact hn
  | putOff _ _ _ _ hn _ => omega
  | asking _ hn => omega
  | stopped _ hd' _ => cases hd.symm.trans hd'

theorem Paces.lt_settleTime {w : World} (h : Paces debounce log now w.subscriberSide)
    (hd : w.projection.isDropped = false)
    (hw : w.subscriberSide.subscriber.hasReport = true ∨
      (∃ deadline, w.subscriberSide.subscriber.phase = .settling deadline) ∨
      w.subscriberSide.subscriber.phase = .stopped)
    (hq : Timed.Quiet now w) : now < settleTime debounce log := by
  cases h with
  | idle hp hr _ => simp [hp, hr] at hw
  | reported hp hr _ => exact absurd hp (phase_of_quiet hq hr).1
  | settling hp _ _ _ => exact lt_of_settling_of_quiet hq hp
  | putOff deadline hp hr _ _ _ => exact absurd hp ((phase_of_quiet hq hr).2 deadline)
  | asking hp _ =>
    have hlt : now < busyUntil log := lt_of_asking_of_quiet hq hp
    unfold settleTime
    omega
  | stopped _ hd' _ => cases hd.symm.trans hd'

end

/-! ## How the subscriber considers -/

theorem Moment.Stirs.exists_deadline (hm : m.Stirs m.after.subscriberSide)
    (hc : m.considers = true) :
    ∃ deadline, m.before.subscriberSide.subscriber.phase = .settling deadline ∧
      deadline ≤ m.time := by
  generalize m.after.subscriberSide = s' at hm
  cases hm with
  | rest _ _ hp hle _ | ask _ _ hp hle _ => exact ⟨_, hp, hle⟩
  | report hn _ _ => rw [hn] at hc; cases hc
  | notice ha _ _ | giveUp ha _ _ | stop ha _ _ | drop ha | still ha => rw [ha.1] at hc; cases hc

theorem Records.request?_eq {w : World} (h : Records config log w.subscriberSide) :
    w.request? =
      if config.managesSubscriptions = true ∧ w.projection.viewport.isEmpty = false ∧
          lastRequest? log ≠
            some (w.idsIn (max 1 config.maxVisible.toNat) w.projection.viewport) then
        some (w.idsIn (max 1 config.maxVisible.toNat) w.projection.viewport)
      else none := by
  have hids : w.projection.store.ids w.projection.viewport =
      w.idsIn (max 1 config.maxVisible.toNat) w.projection.viewport := by
    rw [← h.limit_eq]
    exact Store.ids_eq ..
  have hconfig : w.projection.config = config := h.config_eq
  have hlast : w.projection.subscriber.lastRequest = lastRequest? log := h.lastRequest_eq
  rw [World.request?, Subscriber.request?, hids, hconfig, hlast]
  cases config.managesSubscriptions <;> cases w.projection.viewport.isEmpty <;> simp

theorem considers_of_stirs (hrec : Records config log m.before.subscriberSide)
    (hpaces : Paces config.subscriptionDebounce.toNat log m.time m.before.subscriberSide)
    (hm : m.Stirs m.after.subscriberSide) : Considers config log m := by
  refine ⟨fun hc => ?_, fun hc => ?_⟩
  · obtain ⟨deadline, hp, hle⟩ := hm.exists_deadline hc
    refine ⟨hpaces.eq_settleTime hp hle, m.before.projection.viewport,
      hrec.unread (Or.inr ⟨deadline, hp⟩), ?_⟩
    rw [hm.requests_eq, if_pos hc, hrec.request?_eq, apply_ite Option.toList]
    rfl
  · rw [hm.requests_eq, hc]
    rfl

/-! ## Along a course -/

/-- What the subscriber recalls, when it acts and how it considers, after the moments of a log. -/
structure SubscriberFacts (config : Config) (log : List Moment) (now : Nat) (s : SubscriberSide) :
    Prop where
  records : Records config log s
  spaced : Spaced log now
  paces : Paces config.subscriptionDebounce.toNat log now s
  considers (early : List Moment) (m : Moment) (late : List Moment) :
    log = early ++ m :: late → Considers config early m

theorem SubscriberFacts.stirs (h : SubscriberFacts config log m.time m.before.subscriberSide)
    (hm : m.Stirs m.after.subscriberSide)
    (hrest : m.step?.isSome = true → Timed.Quiet m.time m.before) :
    SubscriberFacts config (log ++ [m]) m.time m.after.subscriberSide := by
  have hfree : m.asks = true → busyUntil log ≤ m.time := by
    intro ha
    have hc : m.considers = true := by
      by_contra hc
      rw [Moment.asks_eq_false hm (Bool.eq_false_iff.2 hc)] at ha
      cases ha
    obtain ⟨deadline, hp, -⟩ := hm.exists_deadline hc
    exact h.paces.busyUntil_le (by simp [hp])
  have hdebounce := congrArg (fun c => c.subscriptionDebounce.toNat) h.records.config_eq
  refine ⟨h.records.stirs hm, h.spaced.snoc hfree, h.paces.stirs h.spaced hdebounce hm hrest, ?_⟩
  intro early x late he
  rcases snoc_eq_append_cons he with ⟨rfl, rfl, rfl⟩ | ⟨late', rfl, hlog⟩
  · exact considers_of_stirs h.records h.paces hm
  · exact h.considers early x late' hlog

/-- Until the latest report has settled it waits, and then it is considered. -/
theorem SubscriberFacts.le_settleTime {w : World} {v : Viewport}
    (h : SubscriberFacts config log now w.subscriberSide) (hd : w.projection.isDropped = false)
    (hv : IsUnread v log) :
    now ≤ settleTime config.subscriptionDebounce.toNat log ∧
      (Timed.Quiet now w → now < settleTime config.subscriptionDebounce.toNat log) := by
  have hwaits := h.records.waits v hv
  exact ⟨h.paces.le_settleTime hd hwaits, fun hq => h.paces.lt_settleTime hd hwaits hq⟩

end

namespace World

variable {config : Config} {sources : List Source} {directory : Directory} {log : List Moment}
  {t : Timeline World}

theorem records_origin : Records config [] (new config sources directory).subscriberSide := by
  refine ⟨rfl, Store.toNat_limit_empty _, rfl, rfl, ?_, ?_⟩
  · rintro (h | ⟨_, h⟩) <;> cases h
  · rintro v ⟨early, r, late, h, -⟩
    simp at h

theorem records_of_course (hc : Course (origin config sources directory) log t) :
    Records config log t.state.subscriberSide :=
  hc.moment_induction (P := fun log w => Records config log w.subscriberSide) records_origin
    fun _ _ _ hm h => h.stirs (stirs_of_happens hm)

theorem subscriberFacts_of_punctual (hp : Punctual (origin config sources directory) log t)
    (hr : StepsAtRest log) : SubscriberFacts config log t.now t.state.subscriberSide := by
  induction hp with
  | start =>
    exact ⟨records_origin, ⟨by simp, Nat.le_refl 0, by simp, by simp, .nil⟩,
      .idle rfl rfl (Nat.le_refl 0), by simp⟩
  | sleep later _ hs ih =>
    have h := ih hr
    exact ⟨h.records, h.spaced.wait hs.le, h.paces.sleep hs, h.considers⟩
  | @step log t step hp ih =>
    obtain ⟨hr, hq⟩ := stepsAtRest_append.1 hr
    exact (ih hr).stirs (m := ⟨t.now, t.state, .step step⟩) (stirs_step t.state t.now step)
      (hq _ (List.mem_singleton_self _))
  | @move log t w move hp hm ih =>
    have h := (ih (stepsAtRest_append.1 hr).1).stirs (m := ⟨t.now, t.state, .move move⟩)
    rw [after_move hm] at h
    exact h (stirs_move hm) fun hs => by cases hs

/-- The subscriber considers the viewport reported last when that has settled, and asks for the ids
in it where these are not those it asked for last (`Considers`).  So requests do not overlap, every
report before a request is at least as old as the debounce, and at the end only reports are left
that have not settled. -/
theorem considers_of_punctual (hp : Punctual (origin config sources directory) log t)
    (hr : StepsAtRest log) :
    t.state.remote.service.requests = log.flatMap Moment.requests ∧
    (∀ early m late, log = early ++ m :: late → Considers config early m) ∧
    ((log.filter Moment.asks).Pairwise fun m m' => m.answerTime ≤ m'.time) ∧
    (∀ early m late, log = early ++ m :: late → m.asks = true →
      ∀ r ∈ early, r.reported?.isSome = true →
        r.time + Pause.length config.subscriptionDebounce.toNat ≤ m.time) ∧
    (t.state.projection.isDropped = false → ∀ v, IsUnread v log →
      t.now ≤ settleTime config.subscriptionDebounce.toNat log ∧
        (Timed.Quiet t.now t.state →
          t.now < settleTime config.subscriptionDebounce.toNat log)) := by
  have h := subscriberFacts_of_punctual hp hr
  refine ⟨h.records.requests_eq, h.considers, h.spaced.apart, ?_,
    fun hd v hv => h.le_settleTime hd hv⟩
  rintro early m late rfl ha r hre hs
  have hc : m.considers = true := by
    by_contra hc
    simp [Moment.asks, (h.considers early m late rfl).other (Bool.eq_false_iff.2 hc)] at ha
  obtain ⟨ht, -⟩ := (h.considers early m late rfl).consider hc
  have hle := (subscriberFacts_of_punctual hp.of_append_cons
    (stepsAtRest_append.1 hr).1).spaced.le_lastReportTime r hre hs
  rw [ht]
  exact Nat.add_le_add_right (hle.trans (Nat.le_max_left ..)) _

/-- A viewport that is superseded before it has settled is not asked for. -/
theorem considers_after_debounce : ∃ log t,
    Punctual (origin { managesSubscriptions := true } [{}] ⟨[]⟩) log t ∧ StepsAtRest log ∧
    stepsOf log =
      [.attach 0, .push 0 [.pushBack "a", .pushBack "b"], .report [⟨0, 1⟩], .report [⟨0, 2⟩]] ∧
    t.state.remote.service.requests = log.flatMap Moment.requests ∧
    (∀ early m late, log = early ++ m :: late →
      Considers { managesSubscriptions := true } early m) ∧
    (log.filter Moment.considers).map (fun m => (m.time, m.requests)) =
      [(800, [["a", "b"]])] := by
  have h₀ : Punctual (origin { managesSubscriptions := true } [{}] ⟨[]⟩) [] _ := .start
  have h₁ := ((h₀.step (.attach 0)).step (.push 0 [.pushBack "a", .pushBack "b"])).move
    (.batch .read) rfl
  have h₂ := ((h₁.step (.report [⟨0, 1⟩])).move .lookAtViewport rfl).move .noticeReport rfl
  have h₃ := (h₂.sleep_of 100 (by decide) rfl (by decide)).move (.batch .release) rfl
  have h₄ := (h₃.move (.batch .hand) rfl).move .applyBatch rfl
  have h₅ := (h₄.sleep_of 300 (by decide) rfl (by decide)).step (.report [⟨0, 2⟩])
  have h₆ := (h₅.move .noticeReport rfl).sleep_of 500 (by decide) rfl (by decide)
  have h₇ := ((h₆.move .wakePager rfl).move .lookAtViewport rfl).sleep_of 800
    (by decide) rfl (by decide)
  have h₈ := h₇.move .considerViewport rfl
  obtain ⟨hreq, hcons, -⟩ := considers_of_punctual h₈ (by decide)
  exact ⟨_, _, h₈, by decide, rfl, hreq, hcons, rfl⟩

/-- A pause ends after thirty years.  With a debounce of sixty years a report has settled, and leads
to a request, after thirty. -/
theorem exists_request_before_debounce : ∃ log t,
    Punctual (origin { managesSubscriptions := true, subscriptionDebounce := 1892160000000 } [{}]
      ⟨[]⟩) log t ∧ StepsAtRest log ∧
    stepsOf log = [.attach 0, .push 0 [.pushBack "a"], .report [⟨0, 1⟩]] ∧
    log.filterMap (fun m => m.reported?.map fun v => (m.time, v)) = [(0, ⟨0, 1⟩)] ∧
    (log.filter Moment.considers).map (fun m => (m.time, m.requests)) =
      [(946080000000, [["a"]])] ∧
    ¬ ∀ early m late, log = early ++ m :: late → m.considers = true →
      m.time = max (lastReportTime early) (busyUntil early) + 1892160000000 := by
  have h₀ : Punctual (origin { managesSubscriptions := true, subscriptionDebounce := 1892160000000 }
    [{}] ⟨[]⟩) [] _ := .start
  have h₁ := ((h₀.step (.attach 0)).step (.push 0 [.pushBack "a"])).move (.batch .read) rfl
  have h₂ := ((h₁.step (.report [⟨0, 1⟩])).move .lookAtViewport rfl).move .noticeReport rfl
  have h₃ := (h₂.sleep_of 100 (by decide) rfl (by decide)).move (.batch .release) rfl
  have h₄ := (h₃.move (.batch .hand) rfl).move .applyBatch rfl
  have h₅ := (h₄.sleep_of 500 (by decide) rfl (by decide)).move .wakePager rfl
  have h₆ := (h₅.sleep_of 946080000000 (by decide) rfl (by decide)).move .considerViewport rfl
  refine ⟨_, _, h₆, by decide, rfl, rfl, rfl, fun h => ?_⟩
  have ht := h _ _ [] rfl rfl
  revert ht
  decide

end World

end LiveRooms
