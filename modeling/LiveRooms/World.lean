import LiveRooms.Projection
import LiveRooms.Remote

/-!
# The world of a projection

The remote side and a projection that follows it.  Everything that the projection does on its own is
a `Move`; the moves of different parts may come in any order.
-/

namespace LiveRooms

/-- The remote side and a projection. -/
structure World where
  remote : Remote
  projection : Projection
  deriving Repr

namespace World

/-- A move of a part of the projection. -/
inductive Move where
  | stopPipeline
  /-- Apply the next batch and publish the result. -/
  | applyBatch
  /-- Read all rooms again and publish the result. -/
  | rebuild
  | batch (m : Batcher.Move)
  | stopStatus
  /-- Show the loading state of the source. -/
  | followStatus
  /-- Read a settings notice of the follower at a position. -/
  | readNotice (i : Nat)
  | finishFollower (i : Nat)
  | stopPager
  | wakePager
  /-- Look at the viewport and decide about pages. -/
  | lookAtViewport
  | stopSubscriber
  | noticeReport
  /-- Decide about the rooms to keep live. -/
  | considerViewport
  | giveUpRequest
  deriving DecidableEq, Repr

/-- Applies the next batch of the attachment's queue. -/
def applyBatch? (w : World) : Option World :=
  if w.projection.isPipelineStopped then none
  else
    match w.projection.attachment with
    | none => none
    | some a =>
      match a.batcher.queue with
      | [] => none
      | batch :: queue =>
        let entries := w.remote.directory.applyBatch batch w.projection.store.entries
        let attachment := some { a with batcher := { a.batcher with queue } }
        some { w with projection := { w.projection.publish entries with attachment } }

/-- Reads all rooms again, if that was asked for. -/
def rebuild? (w : World) : Option World :=
  if !w.projection.isPipelineStopped && w.projection.rebuildQueued then
    let entries := w.remote.directory.rebuild w.projection.store.entries
    some { w with projection := { w.projection.publish entries with rebuildQueued := false } }
  else none

/-- Stops applying batches once the projection is dropped. -/
def stopPipeline? (w : World) : Option World :=
  if w.projection.isDropped && !w.projection.isPipelineStopped then
    some { w with projection := { w.projection with isPipelineStopped := true } }
  else none

/-- Lets the batcher of the attachment make a move. -/
def moveBatcher? (now : Nat) (m : Batcher.Move) (w : World) : Option World := do
  let a ← w.projection.attachment
  let batcher ← a.batcher.move? now m
  return { w with projection := { w.projection with attachment := some { a with batcher } } }

/-- The loading state of the followed source. -/
def sourceStatus? (a : Attachment) (w : World) : Option ListStatus :=
  w.remote.sources[a.source]?.map fun source => source.loading.status

/-- Shows the loading state of the followed source after it changed. -/
def followStatus? (w : World) : Option World :=
  w.projection.attachment.bind fun a =>
    if a.followsStatus && a.hasStatusReport then
      (w.sourceStatus? a).map fun status =>
        { w with
          projection := { w.projection with
            status := w.projection.status.send status
            attachment := some { a with hasStatusReport := false } } }
    else none

/-- Whether the followed source is gone. -/
def sourceIsGone (a : Attachment) (w : World) : Bool :=
  w.remote.sources[a.source]?.elim true Source.isDropped

/-- Stops following the loading state once nobody needs it or none will come. -/
def stopStatus? (w : World) : Option World :=
  w.projection.attachment.bind fun a =>
    if a.followsStatus &&
        (w.projection.isDropped || w.sourceIsGone a && !a.hasStatusReport) then
      let attachment := some { a with followsStatus := false }
      some { w with projection := { w.projection with attachment } }
    else none

/-- Lets a follower read a notice, which may ask for a rebuild. -/
def readNotice? (i : Nat) (w : World) : Option World := do
  let f ← w.projection.followers[i]?
  let (f, asks) ← f.read?
  let projection := { w.projection with followers := w.projection.followers.set i f }
  return { w with projection := if asks then projection.requestRebuild else projection }

/-- Lets a follower finish. -/
def finishFollower? (i : Nat) (w : World) : Option World := do
  let f ← w.projection.followers[i]?
  let f ← f.finish? w.projection.isDropped
  return { w with
    projection := { w.projection with followers := w.projection.followers.set i f } }

/-- The pager of the projection is replaced. -/
def setPager (w : World) (pager : Pager) : World :=
  { w with projection := { w.projection with pager } }

/-- Stops the pager once the projection is dropped. -/
def stopPager? (w : World) : Option World :=
  if w.projection.isDropped then w.projection.pager.stop?.map w.setPager else none

/-- Asks the followed source for pages, as the viewport and the number of entries have it. -/
def decidePages (v : Viewport) (w : World) : World :=
  match w.projection.attachment, v.pageRequest w.projection.store.count with
  | some a, some request => { w with remote := w.remote.record a.source (.page request) }
  | _, _ => w

/-- Lets the pager look at the viewport. -/
def lookAtViewport? (now : Nat) (w : World) : Option World :=
  let p := w.projection
  if p.pager.isReady then
    let w' := if p.pager.decidesOn p.viewport then w.decidePages p.viewport else w
    some (w'.setPager (p.pager.look now p.config.paginationThrottle.toNat p.viewport))
  else none

/-- The subscriber of the projection is replaced. -/
def setSubscriber (w : World) (subscriber : Subscriber) : World :=
  { w with projection := { w.projection with subscriber } }

/-- Stops the subscriber once the projection is dropped. -/
def stopSubscriber? (w : World) : Option World :=
  if w.projection.isDropped then w.projection.subscriber.stop?.map w.setSubscriber else none

/-- Lets the subscriber consider the viewport once reports have settled. -/
def considerViewport? (now : Nat) (w : World) : Option World :=
  let p := w.projection
  if p.subscriber.isSettled now then
    let ids := p.store.ids p.viewport
    match p.subscriber.request? p.config.managesSubscriptions p.viewport ids with
    | none => some (w.setSubscriber p.subscriber.rest)
    | some ids =>
      let (service, response) := w.remote.service.subscribe ids
      let w' := { w with remote := { w.remote with service } }
      some (w'.setSubscriber (p.subscriber.ask now ids (response != .silent)))
  else none

/-- The world after a move, if the move is possible. -/
def move? (now : Nat) (w : World) : Move → Option World
  | .stopPipeline => w.stopPipeline?
  | .applyBatch => w.applyBatch?
  | .rebuild => w.rebuild?
  | .batch m => w.moveBatcher? now m
  | .stopStatus => w.stopStatus?
  | .followStatus => w.followStatus?
  | .readNotice i => w.readNotice? i
  | .finishFollower i => w.finishFollower? i
  | .stopPager => w.stopPager?
  | .wakePager => (w.projection.pager.wake? now).map w.setPager
  | .lookAtViewport => w.lookAtViewport? now
  | .stopSubscriber => w.stopSubscriber?
  | .noticeReport =>
    (w.projection.subscriber.notice? now w.projection.config.subscriptionDebounce.toNat).map
      w.setSubscriber
  | .considerViewport => w.considerViewport? now
  | .giveUpRequest => (w.projection.subscriber.giveUp? now).map w.setSubscriber

/-- The moves in the order in which they are tried: first what stops, then what changes the list,
then what reads it. -/
def moves (w : World) : List Move :=
  let positions := List.range w.projection.followers.length
  [.stopPipeline, .stopStatus, .stopPager, .stopSubscriber] ++ positions.map .finishFollower ++
    Batcher.moveOrder.map .batch ++ [.applyBatch] ++ positions.map .readNotice ++
    [.rebuild, .followStatus, .wakePager, .lookAtViewport, .noticeReport, .considerViewport,
      .giveUpRequest]

/-- How much is left to do before time passes. -/
def load (w : World) : Nat := w.projection.load

/-! ## Every move uses up load -/

theorem load_applyBatch? {w w' : World} (h : w.applyBatch? = some w') : w'.load < w.load := by
  unfold applyBatch? at h
  split at h
  · cases h
  · split at h
    · cases h
    · rename_i a ha
      split at h
      · cases h
      · rename_i batch queue hq
        cases h
        simp only [load, Projection.load, Projection.publish, ha, Option.elim, Attachment.load,
          Batcher.load, hq, List.length_cons]
        omega

theorem load_rebuild? {w w' : World} (h : w.rebuild? = some w') : w'.load < w.load := by
  unfold rebuild? at h
  split at h
  · rename_i hc
    simp only [Bool.and_eq_true] at hc
    cases h
    simp only [load, Projection.load, Projection.publish, hc.2, Bool.toNat_true, Bool.toNat_false]
    omega
  · cases h

theorem load_stopPipeline? {w w' : World} (h : w.stopPipeline? = some w') : w'.load < w.load := by
  unfold stopPipeline? at h
  split at h
  · rename_i hc
    simp only [Bool.and_eq_true, Bool.not_eq_true'] at hc
    cases h
    simp only [load, Projection.load, hc.2, Bool.not_true, Bool.not_false, Bool.toNat_true,
      Bool.toNat_false]
    omega
  · cases h

theorem load_moveBatcher? {w w' : World} {now : Nat} {m : Batcher.Move}
    (h : w.moveBatcher? now m = some w') : w'.load < w.load := by
  simp only [moveBatcher?, Option.bind_eq_bind, Option.bind_eq_some_iff, Option.pure_def,
    Option.some.injEq] at h
  obtain ⟨a, ha, batcher, hb, rfl⟩ := h
  have := Batcher.load_lt hb
  simp only [load, Projection.load, ha, Option.elim, Attachment.load]
  omega

theorem load_followStatus? {w w' : World} (h : w.followStatus? = some w') : w'.load < w.load := by
  obtain ⟨a, ha, h⟩ := Option.bind_eq_some_iff.1 h
  split at h
  · rename_i hc
    simp only [Bool.and_eq_true] at hc
    obtain ⟨status, -, rfl⟩ := Option.map_eq_some_iff.1 h
    simp only [load, Projection.load, ha, Option.elim, Attachment.load, hc.2, Bool.toNat_true,
      Bool.toNat_false]
    omega
  · cases h

theorem load_stopStatus? {w w' : World} (h : w.stopStatus? = some w') : w'.load < w.load := by
  obtain ⟨a, ha, h⟩ := Option.bind_eq_some_iff.1 h
  split at h
  · rename_i hc
    simp only [Bool.and_eq_true] at hc
    cases h
    simp only [load, Projection.load, ha, Option.elim, Attachment.load, hc.1, Bool.toNat_true,
      Bool.toNat_false]
    omega
  · cases h

theorem load_readNotice? {w w' : World} {i : Nat} (h : w.readNotice? i = some w') :
    w'.load < w.load := by
  simp only [readNotice?, Option.bind_eq_bind, Option.bind_eq_some_iff, Option.pure_def,
    Option.some.injEq, Prod.exists] at h
  obtain ⟨f, hf, f', asks, hr, rfl⟩ := h
  have h₁ := Follower.load_read? hr
  have h₂ := Follower.totalLoad_set hf f'
  have h₃ := Bool.toNat_le w.projection.rebuildQueued
  cases asks with
  | false => simp only [Bool.false_eq_true, if_false, load, Projection.load]; omega
  | true =>
    simp only [if_true, Projection.requestRebuild]
    split <;> simp only [load, Projection.load, Bool.toNat_true] <;> omega

theorem load_finishFollower? {w w' : World} {i : Nat} (h : w.finishFollower? i = some w') :
    w'.load < w.load := by
  simp only [finishFollower?, Option.bind_eq_bind, Option.bind_eq_some_iff, Option.pure_def,
    Option.some.injEq] at h
  obtain ⟨f, hf, f', hr, rfl⟩ := h
  have h₁ := Follower.load_finish? hr
  have h₂ := Follower.totalLoad_set hf f'
  simp only [load, Projection.load]
  omega

theorem load_setPager {w : World} {pager : Pager} (h : pager.load < w.projection.pager.load) :
    (w.setPager pager).load < w.load := by
  simp only [load, Projection.load, setPager]
  omega

theorem projection_decidePages (v : Viewport) (w : World) :
    (w.decidePages v).projection = w.projection := by
  unfold decidePages
  split <;> rfl

theorem load_lookAtViewport? {w w' : World} {now : Nat} (h : w.lookAtViewport? now = some w') :
    w'.load < w.load := by
  simp only [lookAtViewport?] at h
  split at h
  · rename_i hr
    cases h
    have hl := Pager.load_look now w.projection.config.paginationThrottle.toNat
      w.projection.viewport hr
    split
    · have hd := projection_decidePages w.projection.viewport w
      refine Nat.lt_of_lt_of_eq (load_setPager ?_) ?_
      · rw [hd]; exact hl
      · simp only [load, hd]
    · exact load_setPager hl
  · cases h

theorem load_setSubscriber {w : World} {s : Subscriber}
    (h : s.load < w.projection.subscriber.load) : (w.setSubscriber s).load < w.load := by
  simp only [load, Projection.load, setSubscriber]
  omega

theorem load_considerViewport? {w w' : World} {now : Nat}
    (h : w.considerViewport? now = some w') : w'.load < w.load := by
  simp only [considerViewport?] at h
  split at h
  · rename_i hs
    split at h
    · cases h
      exact load_setSubscriber (Subscriber.load_rest hs)
    · cases h
      exact load_setSubscriber (Subscriber.load_ask hs _ _)
  · cases h

theorem load_lt {now : Nat} {w w' : World} {m : Move} (h : w.move? now m = some w') :
    w'.load < w.load := by
  cases m with
  | stopPipeline => exact load_stopPipeline? h
  | applyBatch => exact load_applyBatch? h
  | rebuild => exact load_rebuild? h
  | batch m => exact load_moveBatcher? h
  | stopStatus => exact load_stopStatus? h
  | followStatus => exact load_followStatus? h
  | readNotice i => exact load_readNotice? h
  | finishFollower i => exact load_finishFollower? h
  | stopPager =>
    simp only [move?, stopPager?] at h
    split at h
    · obtain ⟨pager, hp, rfl⟩ := Option.map_eq_some_iff.1 h
      exact load_setPager (Pager.load_stop? hp)
    · cases h
  | wakePager =>
    obtain ⟨pager, hp, rfl⟩ := Option.map_eq_some_iff.1 h
    exact load_setPager (Pager.load_wake? hp)
  | lookAtViewport => exact load_lookAtViewport? h
  | stopSubscriber =>
    simp only [move?, stopSubscriber?] at h
    split at h
    · obtain ⟨s, hs, rfl⟩ := Option.map_eq_some_iff.1 h
      exact load_setSubscriber (Subscriber.load_stop? hs)
    · cases h
  | noticeReport =>
    obtain ⟨s, hs, rfl⟩ := Option.map_eq_some_iff.1 h
    exact load_setSubscriber (Subscriber.load_notice? hs)
  | considerViewport => exact load_considerViewport? h
  | giveUpRequest =>
    obtain ⟨s, hs, rfl⟩ := Option.map_eq_some_iff.1 h
    exact load_setSubscriber (Subscriber.load_giveUp? hs)

instance : Timed World Move where
  moves := moves
  move? := move?
  load := load
  load_lt := load_lt
  timers w := w.projection.timers

end World

end LiveRooms
