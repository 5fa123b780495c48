import LiveRooms.Proofs.Exchange.SingleWriter
import LiveRooms.Proofs.World.Punctual

/-!
# Punctual courses of an exchange

A course of an exchange is punctual when time passes only while no move is left and up to the next
timer.  While a client waits for the store a move is left, so at rest nobody waits and the world has
no move left either (`rests_of_quiet`).  Every punctual course of a world is one of an exchange, with
the same steps at the same times (`exists_punctual`).
-/

namespace LiveRooms.Exchange

/-- The moves that may be possible. -/
def moves (x : Exchange) : List Move :=
  [.takeBatch, .takeRebuild, .receiveEntries, .readRoom, .storeEntries, .publish, .askCount,
    .receiveCount, .askIds, .receiveIds, .serve] ++ (Timed.moves x.world).map .world

/-- No move is left. -/
def Quiet (now : Nat) (x : Exchange) : Prop := ∀ m ∈ x.moves, x.move? now m = none

instance (now : Nat) (x : Exchange) : Decidable (x.Quiet now) :=
  decidable_of_iff (∀ m ∈ x.moves, (x.move? now m).isNone = true)
    (by simp only [Quiet, Option.isNone_iff_eq_none])

/-- From `now` up to `later` the exchange has no move and waits for no instant in between. -/
structure Sleeps (now later : Nat) (x : Exchange) : Prop where
  le : now ≤ later
  quiet : x.Quiet now
  timers (timer : Nat) : timer ∈ Timed.timers x.world → now < timer → later ≤ timer

/-- The courses in which nobody is late. -/
inductive Punctual (t₀ : Timeline Exchange) : List Moment → Timeline Exchange → Prop where
  | start : Punctual t₀ [] t₀
  | sleep {log : List Moment} {t : Timeline Exchange} (later : Nat) :
      Punctual t₀ log t → Sleeps t.now later t.state → Punctual t₀ log ⟨later, t.state⟩
  | step {log : List Moment} {t : Timeline Exchange} (s : Step) :
      Punctual t₀ log t →
        Punctual t₀ (log ++ [⟨t.now, t.state, .step s⟩]) ⟨t.now, t.state.step s⟩
  | move {log : List Moment} {t : Timeline Exchange} {x : Exchange} (m : Move) :
      Punctual t₀ log t → t.state.move? t.now m = some x →
        Punctual t₀ (log ++ [⟨t.now, t.state, .move m⟩]) ⟨t.now, x⟩

/-- The steps from outside in a log, in order, each with its time. -/
def timedStepsOf (log : List Moment) : List (Nat × Step) :=
  log.filterMap fun m => m.step?.map (Prod.mk m.time)

theorem timedStepsOf_append (log log' : List Moment) :
    timedStepsOf (log ++ log') = timedStepsOf log ++ timedStepsOf log' := List.filterMap_append

variable {now : Nat} {x x' : Exchange} {w w' : World} {log log' : List Moment}
  {t₀ t t' : Timeline Exchange}

namespace Punctual

theorem course (h : Punctual t₀ log t) : Course t₀ log t := by
  induction h with
  | start => exact .start
  | sleep later _ hs ih => exact ih.wait later hs.le
  | step s _ ih => exact ih.step s
  | move m _ hm ih => exact ih.move m hm

theorem trans (h : Punctual t₀ log t) (h' : Punctual t log' t') :
    Punctual t₀ (log ++ log') t' := by
  induction h' with
  | start => rwa [List.append_nil]
  | sleep later _ hs ih => exact ih.sleep later hs
  | step s _ ih => rw [← List.append_assoc]; exact ih.step s
  | move m _ hm ih => rw [← List.append_assoc]; exact ih.move m hm

theorem sleep_of (h : Punctual t₀ log t) (later : Nat) (hl : t.now ≤ later)
    (hq : t.state.Quiet t.now)
    (ht : ∀ timer ∈ Timed.timers t.state.world, t.now < timer → later ≤ timer) :
    Punctual t₀ log ⟨later, t.state⟩ :=
  h.sleep later ⟨hl, hq, ht⟩

end Punctual

/-! ## At rest nobody waits -/

theorem channel_of_quiet (hq : x.Quiet now) : x.channel = [] := by
  have h : x.serve? = none := hq .serve (by simp [moves])
  cases hc : x.channel with
  | nil => rfl
  | cons sent channel => simp [serve?, hc] at h

/-- Whoever waits has a reply to receive. -/
theorem reply_of_quiet (ho : Orderly x) (hq : x.Quiet now) {client : Client}
    {command : Store.Command} (ha : x.awaits client = some command) :
    ∃ reply, x.replies client = some reply ∧ fits command reply = true := by
  have h := ho client
  have hf : x.inFlight client = [] := by
    rw [inFlight, channel_of_quiet hq]
    rfl
  rw [ha, hf] at h
  generalize x.replies client = reply at h
  cases h with
  | answered hfits => exact ⟨_, rfl, hfits⟩

theorem phase_of_quiet (ho : Orderly x) (hq : x.Quiet now) : x.phase = .idle := by
  cases hp : x.phase with
  | idle => rfl
  | fetching job =>
    obtain ⟨reply, hr, hf⟩ := reply_of_quiet ho hq
      (show x.awaits .pipeline = some .snapshot by rw [awaits, hp])
    cases reply with
    | entries entries =>
      have h : x.receiveEntries? = none := hq .receiveEntries (by simp [moves])
      simp [receiveEntries?, hp, hr] at h
    | _ => cases hf
  | working job task =>
    cases task with
    | done entries =>
      have h : x.storeEntries? = none := hq .storeEntries (by simp [moves])
      simp [storeEntries?, hp] at h
    | ask q next =>
      have h : x.readRoom? = none := hq .readRoom (by simp [moves])
      simp [readRoom?, hp] at h
  | storing entries =>
    obtain ⟨reply, hr, hf⟩ := reply_of_quiet ho hq
      (show x.awaits .pipeline = some (.replace entries) by rw [awaits, hp])
    cases reply with
    | done =>
      have h : x.publish? = none := hq .publish (by simp [moves])
      simp [publish?, hp, hr] at h
    | _ => cases hf

theorem paging_of_quiet (ho : Orderly x) (hq : x.Quiet now) : x.paging = none := by
  cases hp : x.paging with
  | none => rfl
  | some v =>
    obtain ⟨reply, hr, hf⟩ := reply_of_quiet ho hq
      (show x.awaits .pager = some .count by rw [awaits, hp]; rfl)
    cases reply with
    | count n =>
      have h : x.receiveCount? now = none := hq .receiveCount (by simp [moves])
      simp [receiveCount?, hp, hr] at h
    | _ => cases hf

theorem showing_of_quiet (ho : Orderly x) (hq : x.Quiet now) : x.showing = none := by
  cases hp : x.showing with
  | none => rfl
  | some v =>
    obtain ⟨reply, hr, hf⟩ := reply_of_quiet ho hq
      (show x.awaits .subscriber = some (.ids v) by rw [awaits, hp]; rfl)
    cases reply with
    | ids ids =>
      have h : x.receiveIds? now = none := hq .receiveIds (by simp [moves])
      simp [receiveIds?, hp, hr] at h
    | _ => cases hf

theorem eq_calm_of_quiet (ho : Orderly x) (hq : x.Quiet now) : x = calm x.world := by
  have hphase := phase_of_quiet ho hq
  have hpaging := paging_of_quiet ho hq
  have hshowing := showing_of_quiet ho hq
  have hreplies : x.replies = fun _ => none := by
    funext client
    refine (ho.free ?_).2
    cases client <;> simp [awaits, hphase, hpaging, hshowing]
  have hchannel := channel_of_quiet hq
  obtain ⟨world, phase, paging, showing, channel, replies⟩ := x
  subst hphase hpaging hshowing hreplies hchannel
  rfl

/-! ## The world at rest -/

theorem takeBatch?_eq_some (h : x.takeBatch? = some x') :
    x.phase = .idle ∧ x.world.projection.isPipelineStopped = false ∧
      ∃ a batch queue, x.world.projection.attachment = some a ∧
        a.batcher.queue = batch :: queue ∧
        x' = send .pipeline .snapshot
          { x.setProjection { x.world.projection with
              attachment := some { a with batcher := { a.batcher with queue } } } with
            phase := .fetching (.batch batch) } := by
  unfold takeBatch? at h
  split at h
  · rename_i hf
    obtain ⟨hp, hs⟩ := phase_of_isFree hf
    split at h
    · cases h
    · rename_i a ha
      split at h
      · cases h
      · rename_i batch queue hq
        cases h
        exact ⟨hp, hs, a, batch, queue, ha, hq, rfl⟩
  · cases h

/-- Where the world has a move, the exchange has one. -/
theorem exists_move_of_world {m : World.Move} (hm : m ∈ Timed.moves w)
    (h : w.move? now m = some w') :
    ∃ m' ∈ (calm w).moves, ((calm w).move? now m').isSome = true := by
  have hallowed (ha : (calm w).allows m = true) :
      ∃ m' ∈ (calm w).moves, ((calm w).move? now m').isSome = true := by
    have hw : (calm w).world.move? now m = some w' := h
    refine ⟨.world m, List.mem_append_right _ (List.mem_map_of_mem hm), ?_⟩
    simp [move?, worldMove?, ha, hw]
  cases m with
  | applyBatch =>
    obtain ⟨hs, a, batch, queue, ha, hq, -⟩ := World.applyBatch?_eq_some_iff.1 h
    refine ⟨.takeBatch, by simp [moves], ?_⟩
    simp [move?, takeBatch?, isFree, calm, Phase.isIdle, hs, ha, hq]
  | rebuild =>
    obtain ⟨⟨hs, hr⟩, -⟩ := World.rebuild?_eq_some_iff.1 h
    refine ⟨.takeRebuild, by simp [moves], ?_⟩
    simp [move?, takeRebuild?, isFree, calm, Phase.isIdle, hs, hr]
  | lookAtViewport =>
    by_cases hd : w.projection.pager.decidesOn w.projection.viewport = true
    · have hr : w.projection.pager.isReady = true := by
        by_contra hr
        simp [World.move?, World.lookAtViewport?, hr] at h
      refine ⟨.askCount, by simp [moves], ?_⟩
      simp [move?, askCount?, calm, hr, hd]
    · exact hallowed (by simpa [allows, calm] using hd)
  | considerViewport =>
    by_cases hk : w.keepsLive = true
    · have hs : w.projection.subscriber.isSettled now = true := by
        by_contra hs
        simp [World.move?, World.considerViewport?, hs] at h
      refine ⟨.askIds, by simp [moves], ?_⟩
      simp [move?, askIds?, calm, hs, hk]
    · exact hallowed (by simpa [allows, calm] using hk)
  | _ => exact hallowed rfl

theorem quiet_calm (hq : Timed.Quiet now w) : (calm w).Quiet now := by
  have hnone {m : World.Move} (hm : m ∈ Timed.moves w) : w.move? now m = none := hq m hm
  intro m hm
  rw [Option.eq_none_iff_forall_ne_some]
  intro x' hx
  cases m with
  | world m =>
    have hm' : m ∈ Timed.moves w := by simpa [moves, calm] using hm
    have hw : (calm w).world.move? now m = none := hnone hm'
    simp [move?, worldMove?, hw] at hx
  | takeBatch =>
    obtain ⟨-, hs, a, batch, queue, ha, hqueue, -⟩ := takeBatch?_eq_some hx
    have h : (calm w).world.applyBatch? = none :=
      hnone (m := .applyBatch) (by simp [Timed.moves, World.moves])
    rw [World.applyBatch?_eq_some_iff.2 ⟨hs, a, batch, queue, ha, hqueue, rfl⟩] at h
    cases h
  | takeRebuild =>
    cases acts_of_move? hx with
    | takeRebuild _ hs hr =>
      have h : (calm w).world.rebuild? = none :=
        hnone (m := .rebuild) (by simp [Timed.moves, World.moves])
      rw [World.rebuild?_eq_some_iff.2 ⟨⟨hs, hr⟩, rfl⟩] at h
      cases h
  | askCount =>
    have h : w.lookAtViewport? now = none :=
      hnone (m := .lookAtViewport) (by simp [Timed.moves, World.moves])
    have hr : w.projection.pager.isReady = false := by simpa [World.lookAtViewport?] using h
    simp [move?, askCount?, calm, hr] at hx
  | askIds =>
    have h : w.considerViewport? now = none :=
      hnone (m := .considerViewport) (by simp [Timed.moves, World.moves])
    have hs : w.projection.subscriber.isSettled now = false := by
      by_contra hs
      simp only [World.considerViewport?, Bool.not_eq_false] at h hs
      rw [if_pos hs] at h
      split at h <;> cases h
    simp [move?, askIds?, calm, hs] at hx
  | _ => cases hx

theorem quiet_world (hq : (calm w).Quiet now) : Timed.Quiet now w := by
  intro m hm
  rw [Option.eq_none_iff_forall_ne_some]
  intro w' hw
  obtain ⟨m', hm', hsome⟩ := exists_move_of_world hm hw
  rw [hq m' hm'] at hsome
  cases hsome

/-- An exchange at rest is a world at rest. -/
theorem rests_of_quiet (ho : Orderly x) (hq : x.Quiet now) :
    x = calm x.world ∧ Timed.Quiet now x.world := by
  have hx := eq_calm_of_quiet ho hq
  refine ⟨hx, quiet_world ?_⟩
  rwa [← hx]

/-! ## Punctual courses of a world -/

theorem now_le_of_course (h : Course t₀ log t) : t₀.now ≤ t.now := by
  induction h with
  | start => exact Nat.le_refl _
  | wait later _ hl ih => exact Nat.le_trans ih hl
  | step s _ ih => exact ih
  | move m _ _ ih => exact ih

/-- Nobody is late when no time passes. -/
theorem Course.punctual (h : Course t₀ log t) (hn : t.now = t₀.now) : Punctual t₀ log t := by
  induction h with
  | start => exact .start
  | @wait log t later hc hl ih =>
    have hle := now_le_of_course hc
    have hlater : later = t₀.now := hn
    obtain rfl : t.now = later := by omega
    exact ih hn
  | step s _ ih => exact (ih hn).step s
  | move m _ hm ih => exact (ih hn).move m hm

/-- Every punctual course of a world is one of exchanges, with the same steps from outside. -/
theorem exists_punctual {t₀ t : Timeline World} {log : List LiveRooms.Moment}
    (h : World.Punctual t₀ log t) :
    ∃ log', Punctual (still t₀) log' (still t) ∧
      timedStepsOf log' = LiveRooms.timedStepsOf log ∧
      ∀ m ∈ log', ∀ s, m.step? = some s →
        ∃ m' ∈ log, m'.step? = some s ∧ m'.time = m.time ∧ m.before = calm m'.before := by
  induction h with
  | start => exact ⟨[], .start, rfl, fun m hm => absurd hm List.not_mem_nil⟩
  | sleep later _ hs ih =>
    obtain ⟨log', hp, htimed, hsteps⟩ := ih
    exact ⟨log', hp.sleep later ⟨hs.le, quiet_calm hs.quiet, hs.timers⟩, htimed, hsteps⟩
  | @step log t s _ ih =>
    obtain ⟨log', hp, htimed, hsteps⟩ := ih
    refine ⟨_, hp.step s, ?_, fun m hm s' hs' => ?_⟩
    · rw [timedStepsOf_append, htimed, LiveRooms.timedStepsOf_snoc_step]
      rfl
    · rcases List.mem_append.1 hm with hm | hm
      · obtain ⟨m', hm', h⟩ := hsteps m hm s' hs'
        exact ⟨m', List.mem_append_left _ hm', h⟩
      · obtain rfl := List.mem_singleton.1 hm
        exact ⟨⟨t.now, t.state, .step s⟩, by simp, hs', rfl, rfl⟩
  | @move log t w m _ hm ih =>
    obtain ⟨log', hp, htimed, hsteps⟩ := ih
    obtain ⟨log'', hc, hs⟩ := leads_move hm
    have hnone : ∀ m ∈ log'', m.step? = none := List.filterMap_eq_nil_iff.1 hs
    refine ⟨_, hp.trans (hc.punctual rfl), ?_, fun m hm s' hs' => ?_⟩
    · have htimed' : timedStepsOf log'' = [] :=
        List.filterMap_eq_nil_iff.2 fun m hm => by rw [hnone m hm]; rfl
      rw [timedStepsOf_append, htimed, htimed', LiveRooms.timedStepsOf_snoc_move, List.append_nil]
    · rcases List.mem_append.1 hm with hm | hm
      · obtain ⟨m', hm', h⟩ := hsteps m hm s' hs'
        exact ⟨m', List.mem_append_left _ hm', h⟩
      · rw [hnone m hm] at hs'
        cases hs'

end LiveRooms.Exchange
