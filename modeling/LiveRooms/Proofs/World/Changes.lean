import LiveRooms.World.Step

/-!
# What changes a world

`World.Moved` lists all that a move can do, with the conditions under which it is possible, and
`World.Stepped` all that a step from outside can do, with what it comes to.  So what a move or a
step keeps is shown by going through these cases (`moved_of_move?`, `stepped_of_step`).
-/

namespace LiveRooms

/-- The source that a step is about, which must be there. -/
def Step.target? : Step → Option Nat
  | .attach i | .push i _ | .loading i _ | .consume i => some i
  | _ => none

/-- Whether a step is one of those who use the projection. -/
def Step.usesProjection : Step → Bool
  | .attach _ | .report _ | .filter _ | .settingsChanged _ | .follow _ => true
  | _ => false

/-- What taking the stream of a source comes to. -/
def Source.takenOutcome (s : Source) : Outcome :=
  match s.takeStream.2 with
  | .ok _ => .done
  | .error failure => .failed failure

namespace World

/-- The service is asked to keep rooms live. -/
def subscribe (ids : List String) (w : World) : World :=
  { w with remote := { w.remote with service := (w.remote.service.subscribe ids).1 } }

/-- A look of the pager, apart from what it does to the pager itself. -/
def decideAtLook (w : World) : World :=
  if w.projection.pager.decidesOn w.projection.viewport then w.decidePages w.projection.viewport
  else w

/-- What moves do. -/
inductive Moved (now : Nat) (w : World) : Move → World → Prop where
  | stopPipeline : w.projection.isDropped = true → w.projection.isPipelineStopped = false →
      Moved now w .stopPipeline
        { w with projection := { w.projection with isPipelineStopped := true } }
  | applyBatch {a : Attachment} {batch : List (Edit String)} {queue : List (List (Edit String))} :
      w.projection.isPipelineStopped = false → w.projection.attachment = some a →
      a.batcher.queue = batch :: queue →
      Moved now w .applyBatch
        { w with
          projection := { w.projection.publish
              (w.remote.directory.applyBatch batch w.projection.store.entries) with
            attachment := some { a with batcher := { a.batcher with queue } } } }
  | rebuild : w.projection.isPipelineStopped = false → w.projection.rebuildQueued = true →
      Moved now w .rebuild
        { w with
          projection := { w.projection.publish
              (w.remote.directory.rebuild w.projection.store.entries) with
            rebuildQueued := false } }
  | batch {a : Attachment} {b : Batcher (Edit String)} {m : Batcher.Move} :
      w.projection.attachment = some a → a.batcher.move? now m = some b →
      Moved now w (.batch m)
        { w with projection := { w.projection with attachment := some { a with batcher := b } } }
  | stopStatus {a : Attachment} : w.projection.attachment = some a → a.followsStatus = true →
      (w.projection.isDropped || w.sourceIsGone a && !a.hasStatusReport) = true →
      Moved now w .stopStatus
        { w with
          projection := { w.projection with attachment := some { a with followsStatus := false } } }
  | followStatus {a : Attachment} {status : ListStatus} : w.projection.attachment = some a →
      a.followsStatus = true → a.hasStatusReport = true → w.sourceStatus? a = some status →
      Moved now w .followStatus
        { w with
          projection := { w.projection with
            status := w.projection.status.send status
            attachment := some { a with hasStatusReport := false } } }
  | readNotice {i : Nat} {f f' : Follower} {asks : Bool} : w.projection.followers[i]? = some f →
      f.read? = some (f', asks) →
      Moved now w (.readNotice i)
        { w with
          projection :=
            let projection := { w.projection with followers := w.projection.followers.set i f' }
            if asks then projection.requestRebuild else projection }
  | finishFollower {i : Nat} {f f' : Follower} : w.projection.followers[i]? = some f →
      f.finish? w.projection.isDropped = some f' →
      Moved now w (.finishFollower i)
        { w with
          projection := { w.projection with followers := w.projection.followers.set i f' } }
  | stopPager {p : Pager} : w.projection.isDropped = true → w.projection.pager.stop? = some p →
      Moved now w .stopPager (w.setPager p)
  | wakePager {p : Pager} : w.projection.pager.wake? now = some p →
      Moved now w .wakePager (w.setPager p)
  | lookAtViewport : w.projection.pager.isReady = true →
      Moved now w .lookAtViewport
        (w.decideAtLook.setPager (w.projection.pager.look now
          w.projection.config.paginationThrottle.toNat w.projection.viewport))
  | stopSubscriber {s : Subscriber} : w.projection.isDropped = true →
      w.projection.subscriber.stop? = some s → Moved now w .stopSubscriber (w.setSubscriber s)
  | noticeReport {s : Subscriber} :
      w.projection.subscriber.notice? now w.projection.config.subscriptionDebounce.toNat = some s →
      Moved now w .noticeReport (w.setSubscriber s)
  /-- Nothing has to be asked for. -/
  | rest : w.projection.subscriber.isSettled now = true →
      w.projection.subscriber.request? w.projection.config.managesSubscriptions
        w.projection.viewport (w.projection.store.ids w.projection.viewport) = none →
      Moved now w .considerViewport (w.setSubscriber w.projection.subscriber.rest)
  | ask {ids : List String} : w.projection.subscriber.isSettled now = true →
      w.projection.subscriber.request? w.projection.config.managesSubscriptions
        w.projection.viewport (w.projection.store.ids w.projection.viewport) = some ids →
      Moved now w .considerViewport
        ((w.subscribe ids).setSubscriber
          (w.projection.subscriber.ask now ids ((w.remote.service.subscribe ids).2 != .silent)))
  | giveUpRequest {s : Subscriber} : w.projection.subscriber.giveUp? now = some s →
      Moved now w .giveUpRequest (w.setSubscriber s)

/-- What steps from outside do, and what they come to. -/
inductive Stepped (w : World) : Step → World → Outcome → Prop where
  | noSource {s : Step} {i : Nat} : s.target? = some i → w.hasSource i = false →
      Stepped w s w .noSource
  | noProjection {s : Step} : s.usesProjection = true → w.projection.isDropped = true →
      (∀ i, s.target? = some i → w.hasSource i = true) → Stepped w s w .noProjection
  /-- A projection that is attached stays as it is. -/
  | attachAgain {i : Nat} : w.hasSource i = true → w.projection.isDropped = false →
      w.projection.attachment.isSome = true → Stepped w (.attach i) w .done
  | attachUnreadable {i : Nat} {source : Source} {failure : Failure} : w.hasSource i = true →
      w.projection.isDropped = false → w.projection.attachment = none →
      w.remote.sources[i]? = some source → source.loadingState = .error failure →
      Stepped w (.attach i) w (.failed failure)
  | attachTaken {i : Nat} {source : Source} {loading : LoadingState} {failure : Failure} :
      w.hasSource i = true → w.projection.isDropped = false → w.projection.attachment = none →
      w.remote.sources[i]? = some source → source.loadingState = .ok loading →
      source.takeStream.2 = .error failure →
      Stepped w (.attach i) (w.updateSource i fun s => s.takeStream.1) (.failed failure)
  | attach {i : Nat} {source : Source} {loading : LoadingState}
      {updates : List (List (Edit String))} : w.hasSource i = true →
      w.projection.isDropped = false → w.projection.attachment = none →
      w.remote.sources[i]? = some source → source.loadingState = .ok loading →
      source.takeStream.2 = .ok updates →
      Stepped w (.attach i) ((w.updateSource i fun s => s.takeStream.1).follow i loading updates)
        .done
  | push {i : Nat} {edits : List (Edit String)} : w.hasSource i = true →
      Stepped w (.push i edits) (w.push i edits) .nothing
  | loading {i : Nat} {state : LoadingState} : w.hasSource i = true →
      Stepped w (.loading i state) (w.setLoading i state) .nothing
  | consume {i : Nat} {source : Source} : w.hasSource i = true →
      w.remote.sources[i]? = some source →
      Stepped w (.consume i) (w.updateSource i fun s => s.takeStream.1) source.takenOutcome
  | dropSource {i : Nat} : Stepped w (.dropSource i) (w.dropSource i) .nothing
  | report {viewports : List Viewport} : w.projection.isDropped = false →
      Stepped w (.report viewports) (w.reportViewports viewports) .nothing
  | filter {filter : Filter} : w.projection.isDropped = false →
      Stepped w (.filter filter) (w.filter filter).1 (.answered (w.filter filter).2)
  | settingsChanged {times : Nat} : w.projection.isDropped = false →
      Stepped w (.settingsChanged times)
        (if times = 0 then w else { w with projection := w.projection.requestRebuild }) .nothing
  | follow {id : String} : w.projection.isDropped = false →
      Stepped w (.follow id) (w.addFollower id) .nothing
  | notify {id : String} {times : Nat} :
      Stepped w (.notify id times) (w.updateFollower id (Follower.notify times)) .nothing
  | unfollow {id : String} :
      Stepped w (.unfollow id) (w.updateFollower id Follower.finishStream) .nothing
  | setRoom {key : String} {info : Option Metadata} {event : Option (Option Event)}
      {readable : Option Bool} :
      Stepped w (.setRoom key info event readable) (w.setRoom key info event readable) .nothing
  | setService {fails hangs : Option Bool} :
      Stepped w (.setService fails hangs) (w.setService fails hangs) .nothing
  | dropProjection : Stepped w .dropProjection w.dropProjection .nothing

variable {w w' : World} {now i : Nat}

/-! ## Sources -/

/-- What is read off a source, when one source is changed. -/
theorem elim_updateSource {α : Type} {a : α} (f : Source → α) (change : Source → Source)
    (w : World) (j : Nat) : (w.updateSource i change).remote.sources[j]?.elim a f =
      if i = j then w.remote.sources[i]?.elim a fun s => f (change s)
      else w.remote.sources[j]?.elim a f := by
  simp only [updateSource, Remote.updateSource, List.getElem?_modify]
  split
  · rename_i hij
    subst hij
    cases w.remote.sources[i]? <;> rfl
  · simp

theorem elim_updateSource_of_eq {α : Type} {a : α} {f : Source → α} {change : Source → Source}
    (h : ∀ s, f (change s) = f s) (w : World) (j : Nat) :
    (w.updateSource i change).remote.sources[j]?.elim a f =
      w.remote.sources[j]?.elim a f := by
  rw [elim_updateSource]
  split
  · rename_i hij
    simp only [h, hij]
  · rfl

theorem calls_takeStream (s : Source) : s.takeStream.1.calls = s.calls := by
  unfold Source.takeStream
  split <;> rfl

/-- A change of the attachment to a source changes nothing beside the attachment. -/
theorem updateAttachment_eq (i : Nat) (change : Attachment → Attachment) (w : World) :
    w.updateAttachment i change =
      { w with
        projection := { w.projection with
          attachment := w.projection.attachment.map fun a =>
            if a.source = i then change a else a } } := by
  unfold updateAttachment
  split
  · rename_i a ha
    rw [ha, Option.map_some]
    split
    · rfl
    · rw [← ha]
  · rename_i ha
    rw [ha, Option.map_none, ← ha]

theorem projection_decideAtLook (w : World) : w.decideAtLook.projection = w.projection := by
  unfold decideAtLook
  split
  · exact projection_decidePages ..
  · rfl

/-! ## Moves -/

theorem moved_stopPipeline? (h : w.stopPipeline? = some w') : Moved now w .stopPipeline w' := by
  unfold stopPipeline? at h
  split at h
  · rename_i hc
    rw [Bool.and_eq_true, Bool.not_eq_true'] at hc
    cases h
    exact .stopPipeline hc.1 hc.2
  · cases h

theorem applyBatch?_eq_some_iff :
    w.applyBatch? = some w' ↔ w.projection.isPipelineStopped = false ∧
      ∃ a batch queue, w.projection.attachment = some a ∧ a.batcher.queue = batch :: queue ∧
        w' = { w with
          projection := { w.projection.publish
              (w.remote.directory.applyBatch batch w.projection.store.entries) with
            attachment := some { a with batcher := { a.batcher with queue } } } } := by
  unfold applyBatch?
  constructor
  · intro h
    split at h
    · cases h
    · rename_i hs
      split at h
      · cases h
      · rename_i a ha
        split at h
        · cases h
        · rename_i batch queue hq
          exact ⟨Bool.eq_false_iff.2 hs, a, batch, queue, ha, hq, (Option.some.inj h).symm⟩
  · rintro ⟨hs, a, batch, queue, ha, hq, rfl⟩
    simp [hs, ha, hq]

theorem rebuild?_eq_some_iff :
    w.rebuild? = some w' ↔
      (w.projection.isPipelineStopped = false ∧ w.projection.rebuildQueued = true) ∧
        w' = { w with
          projection := { w.projection.publish
              (w.remote.directory.rebuild w.projection.store.entries) with
            rebuildQueued := false } } := by
  unfold rebuild?
  constructor
  · intro h
    split at h
    · rename_i hc
      rw [Bool.and_eq_true, Bool.not_eq_true'] at hc
      exact ⟨hc, (Option.some.inj h).symm⟩
    · cases h
  · rintro ⟨⟨hs, hr⟩, rfl⟩
    simp [hs, hr]

theorem moved_applyBatch? (h : w.applyBatch? = some w') : Moved now w .applyBatch w' := by
  obtain ⟨hs, a, batch, queue, ha, hq, rfl⟩ := applyBatch?_eq_some_iff.1 h
  exact .applyBatch hs ha hq

theorem moved_rebuild? (h : w.rebuild? = some w') : Moved now w .rebuild w' := by
  obtain ⟨⟨hs, hr⟩, rfl⟩ := rebuild?_eq_some_iff.1 h
  exact .rebuild hs hr

theorem moved_moveBatcher? {m : Batcher.Move} (h : w.moveBatcher? now m = some w') :
    Moved now w (.batch m) w' := by
  simp only [moveBatcher?, Option.bind_eq_bind, Option.bind_eq_some_iff, Option.pure_def,
    Option.some.injEq] at h
  obtain ⟨a, ha, b, hb, rfl⟩ := h
  exact .batch ha hb

theorem moved_stopStatus? (h : w.stopStatus? = some w') : Moved now w .stopStatus w' := by
  obtain ⟨a, ha, h⟩ := Option.bind_eq_some_iff.1 h
  split at h
  · rename_i hc
    rw [Bool.and_eq_true] at hc
    cases h
    exact .stopStatus ha hc.1 hc.2
  · cases h

theorem moved_followStatus? (h : w.followStatus? = some w') : Moved now w .followStatus w' := by
  obtain ⟨a, ha, h⟩ := Option.bind_eq_some_iff.1 h
  split at h
  · rename_i hc
    rw [Bool.and_eq_true] at hc
    obtain ⟨status, hs, rfl⟩ := Option.map_eq_some_iff.1 h
    exact .followStatus ha hc.1 hc.2 hs
  · cases h

theorem moved_readNotice? (h : w.readNotice? i = some w') : Moved now w (.readNotice i) w' := by
  simp only [readNotice?, Option.bind_eq_bind, Option.bind_eq_some_iff, Option.pure_def,
    Option.some.injEq, Prod.exists] at h
  obtain ⟨f, hf, f', asks, hr, rfl⟩ := h
  exact .readNotice hf hr

theorem moved_finishFollower? (h : w.finishFollower? i = some w') :
    Moved now w (.finishFollower i) w' := by
  simp only [finishFollower?, Option.bind_eq_bind, Option.bind_eq_some_iff, Option.pure_def,
    Option.some.injEq] at h
  obtain ⟨f, hf, f', hr, rfl⟩ := h
  exact .finishFollower hf hr

theorem moved_stopPager? (h : w.stopPager? = some w') : Moved now w .stopPager w' := by
  unfold stopPager? at h
  split at h
  · rename_i hd
    obtain ⟨p, hp, rfl⟩ := Option.map_eq_some_iff.1 h
    exact .stopPager hd hp
  · cases h

theorem moved_lookAtViewport? (h : w.lookAtViewport? now = some w') :
    Moved now w .lookAtViewport w' := by
  simp only [lookAtViewport?] at h
  split at h
  · rename_i hr
    cases h
    exact .lookAtViewport hr
  · cases h

theorem moved_stopSubscriber? (h : w.stopSubscriber? = some w') :
    Moved now w .stopSubscriber w' := by
  unfold stopSubscriber? at h
  split at h
  · rename_i hd
    obtain ⟨s, hs, rfl⟩ := Option.map_eq_some_iff.1 h
    exact .stopSubscriber hd hs
  · cases h

theorem moved_considerViewport? (h : w.considerViewport? now = some w') :
    Moved now w .considerViewport w' := by
  simp only [considerViewport?] at h
  split at h
  · rename_i hs
    split at h
    · rename_i hr
      cases h
      exact .rest hs hr
    · rename_i ids hr
      cases h
      exact .ask hs hr
  · cases h

theorem moved_of_move? {m : Move} (h : w.move? now m = some w') : Moved now w m w' := by
  cases m with
  | stopPipeline => exact moved_stopPipeline? h
  | applyBatch => exact moved_applyBatch? h
  | rebuild => exact moved_rebuild? h
  | batch m => exact moved_moveBatcher? h
  | stopStatus => exact moved_stopStatus? h
  | followStatus => exact moved_followStatus? h
  | readNotice i => exact moved_readNotice? h
  | finishFollower i => exact moved_finishFollower? h
  | stopPager => exact moved_stopPager? h
  | wakePager =>
    obtain ⟨p, hp, rfl⟩ := Option.map_eq_some_iff.1 h
    exact .wakePager hp
  | lookAtViewport => exact moved_lookAtViewport? h
  | stopSubscriber => exact moved_stopSubscriber? h
  | noticeReport =>
    obtain ⟨s, hs, rfl⟩ := Option.map_eq_some_iff.1 h
    exact .noticeReport hs
  | considerViewport => exact moved_considerViewport? h
  | giveUpRequest =>
    obtain ⟨s, hs, rfl⟩ := Option.map_eq_some_iff.1 h
    exact .giveUpRequest hs

/-! ## Steps from outside -/

theorem exists_source_of_hasSource (h : w.hasSource i = true) :
    ∃ source, w.remote.sources[i]? = some source ∧ source.isDropped = false := by
  cases hs : w.remote.sources[i]? with
  | none => simp [hasSource, hs] at h
  | some source => exact ⟨source, rfl, by simpa [hasSource, hs] using h⟩

theorem takeStream_eq {source : Source} (h : w.remote.sources[i]? = some source) :
    w.takeStream i = (w.updateSource i fun s => s.takeStream.1, source.takeStream.2) := by
  simp [takeStream, h]

theorem stepped_attach (hs : w.hasSource i = true) (hd : w.projection.isDropped = false) :
    Stepped w (.attach i) (w.attach i).1 (w.attach i).2 := by
  obtain ⟨source, hi, -⟩ := exists_source_of_hasSource hs
  unfold World.attach
  split
  · rename_i ha
    exact .attachAgain hs hd ha
  · rename_i ha
    rw [Option.not_isSome_iff_eq_none] at ha
    rw [hi, takeStream_eq hi]
    dsimp only
    cases hl : source.loadingState with
    | error failure => exact .attachUnreadable hs hd ha hi hl
    | ok loading =>
      cases ht : source.takeStream.2 with
      | error failure => exact .attachTaken hs hd ha hi hl ht
      | ok updates => exact .attach hs hd ha hi hl ht

theorem stepped_consume (hs : w.hasSource i = true) :
    Stepped w (.consume i) (w.step (.consume i)).1 (w.step (.consume i)).2 := by
  obtain ⟨source, hi, -⟩ := exists_source_of_hasSource hs
  have h : Stepped w (.consume i) (w.updateSource i fun s => s.takeStream.1)
      source.takenOutcome := .consume hs hi
  simp only [step, atSource, if_pos hs, takeStream_eq hi]
  cases ht : source.takeStream.2 <;> simpa only [Source.takenOutcome, ht] using h

theorem stepped_atSource {s : Step} {action : World → World × Outcome} (ht : s.target? = some i)
    (h : w.hasSource i = true → Stepped w s (action w).1 (action w).2) :
    Stepped w s (w.atSource i action).1 (w.atSource i action).2 := by
  unfold atSource
  split
  · rename_i hs
    exact h hs
  · rename_i hs
    exact .noSource ht (Bool.eq_false_iff.2 hs)

theorem stepped_atProjection {s : Step} {action : World → World × Outcome}
    (hu : s.usesProjection = true) (hi : ∀ i, s.target? = some i → w.hasSource i = true)
    (h : w.projection.isDropped = false → Stepped w s (action w).1 (action w).2) :
    Stepped w s (atProjection action w).1 (atProjection action w).2 := by
  unfold atProjection
  split
  · rename_i hd
    exact .noProjection hu hd hi
  · rename_i hd
    exact h (Bool.eq_false_iff.2 hd)

theorem stepped_of_step (w : World) (s : Step) : Stepped w s (w.step s).1 (w.step s).2 := by
  cases s with
  | attach i =>
    refine stepped_atSource rfl fun hs => stepped_atProjection rfl ?_ fun hd => stepped_attach hs hd
    intro j hj
    cases hj
    exact hs
  | push i edits => exact stepped_atSource rfl fun hs => .push hs
  | loading i state => exact stepped_atSource rfl fun hs => .loading hs
  | consume i =>
    by_cases hs : w.hasSource i = true
    · exact stepped_consume hs
    · simp only [step, atSource, if_neg hs]
      exact .noSource rfl (Bool.eq_false_iff.2 hs)
  | dropSource i => exact .dropSource
  | report viewports => exact stepped_atProjection rfl (fun _ h => by cases h) fun hd => .report hd
  | filter filter => exact stepped_atProjection rfl (fun _ h => by cases h) fun hd => .filter hd
  | settingsChanged times =>
    exact stepped_atProjection rfl (fun _ h => by cases h) fun hd => .settingsChanged hd
  | follow id => exact stepped_atProjection rfl (fun _ h => by cases h) fun hd => .follow hd
  | notify id times => exact .notify
  | unfollow id => exact .unfollow
  | setRoom key info event readable => exact .setRoom
  | setService fails hangs => exact .setService
  | dropProjection => exact .dropProjection

end World

end LiveRooms
