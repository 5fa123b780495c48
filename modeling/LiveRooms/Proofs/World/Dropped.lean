import LiveRooms.Proofs.World.FirstNotice
import LiveRooms.Proofs.World.Rest
import LiveRooms.Proofs.World.ShownStatus
import LiveRooms.Proofs.World.SubscriberSide

/-!
# After the projection is dropped

A world at rest that waits for no answer of the service has nothing to do but to wait, so when its
projection is dropped every part can stop and do nothing else (`Ceases`).  No part changes anything
that can be seen by stopping, and once all have stopped (`IsStopped`) no move is ever possible
again, whatever happens outside.
-/

namespace LiveRooms

/-- A batcher that was told to stop and has nothing else to do. -/
structure Batcher.Ceases {α : Type} (now : Nat) (b : Batcher α) : Prop where
  isCancelled : b.isCancelled = true
  queue : b.queue = []
  phase : b.phase = .finished ∨ b.phase = .collecting ∧ ∀ m, m ≠ .stop → b.move? now m = none

namespace World

/-- The projection was dropped, and no part that the list depends on has anything to do but to
stop. -/
structure ListCeases (now : Nat) (w : World) : Prop where
  isDropped : w.projection.isDropped = true
  pipeline : w.projection.isPipelineStopped = true ∨ w.projection.rebuildQueued = false
  batcher : ∀ a, w.projection.attachment = some a → a.batcher.Ceases now
  followers : ∀ f ∈ w.projection.followers, f.read? = none

/-- The projection was dropped, and no part has anything to do but to stop. -/
structure Ceases (now : Nat) (w : World) : Prop extends ListCeases now w where
  status : ∀ a, w.projection.attachment = some a → a.followsStatus = true →
    a.hasStatusReport = false
  pager : w.projection.pager.isReady = false ∧ w.projection.pager.wake? now = none
  subscriber : (∀ debounce, w.projection.subscriber.notice? now debounce = none) ∧
    w.projection.subscriber.isSettled now = false ∧
    ∀ deadline, w.projection.subscriber.phase ≠ .asking deadline

/-- Every part has stopped. -/
structure IsStopped (w : World) : Prop where
  isDropped : w.projection.isDropped = true
  pipeline : w.projection.isPipelineStopped = true
  attachment : ∀ a, w.projection.attachment = some a →
    a.batcher.phase = .finished ∧ a.followsStatus = false
  pager : w.projection.pager.isStopped = true
  subscriber : w.projection.subscriber.phase = .stopped
  followers : ∀ f ∈ w.projection.followers, f.isFinished = true

end World

/-- What is shown of a list, and what was asked of the remote side. -/
structure Surface where
  published : Watched (List Summary)
  status : Watched ListStatus
  /-- The control calls that each source received. -/
  calls : Nat → List Call
  requests : List (List String)

def World.surface (w : World) : Surface where
  published := w.projection.published
  status := w.projection.status
  calls i := w.calls i
  requests := w.remote.service.requests

section

variable {α : Type} {b b' : Batcher α} {m : Batcher.Move} {f f' : Follower} {now : Nat}

theorem Batcher.Ceases.move (h : b.Ceases now) (hm : b.move? now m = some b') : b'.Ceases now := by
  rcases h.phase with hp | ⟨hp, hn⟩
  · simp [Batcher.move?, hp] at hm
  · by_cases hs : m = .stop
    · subst hs
      rw [Batcher.move?, hp] at hm
      dsimp only at hm
      rw [if_pos h.isCancelled] at hm
      cases hm
      exact ⟨h.isCancelled, h.queue, Or.inl rfl⟩
    · rw [hn m hs] at hm
      cases hm

theorem Batcher.Ceases.finished_of_quiet (h : b.Ceases now) (hq : ∀ m, b.move? now m = none) :
    b.phase = .finished := by
  refine h.phase.resolve_right fun hp => ?_
  have := hq .stop
  simp [Batcher.move?, hp.1, h.isCancelled] at this

theorem Follower.isFinished_of_finish? {isCancelled : Bool} (h : f.finish? isCancelled = some f') :
    f' = { f with isFinished := true } := by
  unfold finish? at h
  split at h <;> cases h
  rfl

end

namespace World

variable {w w' : World} {now : Nat}

/-! ## Stopping -/

theorem ListCeases.setAttachment (h : w.ListCeases now) {a : Attachment}
    (hb : a.batcher.Ceases now) :
    ListCeases now { w with projection := { w.projection with attachment := some a } } where
  isDropped := h.isDropped
  pipeline := h.pipeline
  batcher _ ha := Option.some.inj ha ▸ hb
  followers := h.followers

/-- A move that does something to the list. -/
def Move.works : Move → Bool
  | .applyBatch | .rebuild | .readNotice _ => true
  | _ => false

/-- A part that has nothing to do but to stop does nothing to the list. -/
theorem ListCeases.move {m : Move} (h : w.ListCeases now) (hw : w.move? now m = some w') :
    w'.ListCeases now ∧ m.works = false := by
  cases moved_of_move? hw with
  | stopPipeline => exact ⟨{ h with pipeline := Or.inl rfl }, rfl⟩
  | applyBatch _ ha hq =>
    rw [(h.batcher _ ha).queue] at hq
    cases hq
  | rebuild hs hr =>
    rcases h.pipeline with hp | hp
    · rw [hs] at hp
      cases hp
    · rw [hr] at hp
      cases hp
  | @batch a b _ ha hb =>
    exact ⟨h.setAttachment (a := { a with batcher := b }) ((h.batcher a ha).move hb), rfl⟩
  | @stopStatus a ha =>
    exact ⟨h.setAttachment (a := { a with followsStatus := false }) (h.batcher a ha), rfl⟩
  | @followStatus a status ha =>
    have h' := h.setAttachment (a := { a with hasStatusReport := false }) (h.batcher a ha)
    exact ⟨⟨h'.isDropped, h'.pipeline, h'.batcher, h'.followers⟩, rfl⟩
  | readNotice hf hr =>
    rw [h.followers _ (List.mem_of_getElem? hf)] at hr
    cases hr
  | finishFollower hf hr =>
    refine ⟨{ h with followers := fun g hg => ?_ }, rfl⟩
    rcases List.mem_or_eq_of_mem_set hg with hg | rfl
    · exact h.followers g hg
    · rw [Follower.isFinished_of_finish? hr]
      rfl
  | lookAtViewport =>
    have hp := projection_decideAtLook w
    refine ⟨⟨?_, ?_, ?_, ?_⟩, rfl⟩
    · exact (congrArg Projection.isDropped hp).trans h.isDropped
    · show w.decideAtLook.projection.isPipelineStopped = true ∨
        w.decideAtLook.projection.rebuildQueued = false
      rw [hp]
      exact h.pipeline
    · show ∀ a, w.decideAtLook.projection.attachment = some a → a.batcher.Ceases now
      rw [hp]
      exact h.batcher
    · show ∀ f ∈ w.decideAtLook.projection.followers, f.read? = none
      rw [hp]
      exact h.followers
  | _ => exact ⟨{ h with }, rfl⟩

/-- A part that has nothing to do but to stop changes nothing that can be seen. -/
theorem Ceases.move {m : Move} (h : w.Ceases now) (hw : w.move? now m = some w') :
    w'.Ceases now ∧ w'.surface = w.surface := by
  obtain ⟨hlist, hworks⟩ := h.toListCeases.move hw
  cases moved_of_move? hw with
  | applyBatch | rebuild | readNotice => cases hworks
  | stopPipeline | finishFollower => exact ⟨{ h with toListCeases := hlist }, rfl⟩
  | @batch a b _ ha hb =>
    refine ⟨{ h with toListCeases := hlist, status := ?_ }, rfl⟩
    exact fun _ ha' => Option.some.inj ha' ▸ h.status a ha
  | @stopStatus a ha =>
    refine ⟨{ h with toListCeases := hlist, status := ?_ }, rfl⟩
    exact fun _ ha' hf => by cases ha'; cases hf
  | followStatus ha hf hr _ =>
    rw [h.status _ ha hf] at hr
    cases hr
  | stopPager _ hp =>
    obtain rfl := Pager.stop?_eq_some hp
    refine ⟨{ h with pager := ⟨rfl, ?_⟩ }, rfl⟩
    simp only [setPager, Pager.wake?]
    split <;> rfl
  | wakePager hp =>
    rw [h.pager.2] at hp
    cases hp
  | lookAtViewport hr =>
    rw [h.pager.1] at hr
    cases hr
  | stopSubscriber _ hs =>
    obtain ⟨-, rfl⟩ := Subscriber.stop?_eq_some hs
    exact ⟨{ h with subscriber := ⟨fun _ => ite_self none, rfl, fun _ hp => by cases hp⟩ }, rfl⟩
  | noticeReport hs =>
    rw [h.subscriber.1] at hs
    cases hs
  | rest hs | ask hs =>
    rw [h.subscriber.2.1] at hs
    cases hs
  | giveUpRequest hs =>
    obtain ⟨deadline, hp, -⟩ := Subscriber.giveUp?_eq_some hs
    exact absurd hp (h.subscriber.2.2 deadline)

theorem ListCeases.isPipelineStopped (h : w.ListCeases now) (hq : Timed.Quiet now w) :
    w.projection.isPipelineStopped = true := by
  have hm : w.stopPipeline? = none := hq .stopPipeline (by simp [Timed.moves, moves])
  simpa [stopPipeline?, h.isDropped] using hm

theorem ListCeases.phase_eq_finished (h : w.ListCeases now) (hq : Timed.Quiet now w)
    {a : Attachment} (ha : w.projection.attachment = some a) : a.batcher.phase = .finished :=
  (h.batcher a ha).finished_of_quiet (batcher_of_quiet hq ha)

theorem ListCeases.isFinished (h : w.ListCeases now) (hq : Timed.Quiet now w) {f : Follower}
    (hf : f ∈ w.projection.followers) : f.isFinished = true := by
  obtain ⟨i, hi⟩ := List.mem_iff_getElem?.1 hf
  have hn := (follower_of_quiet hq hi).2
  simpa [Follower.finish?, h.isDropped] using hn

/-- Without a move left all parts have stopped. -/
theorem Ceases.isStopped (h : w.Ceases now) (hq : Timed.Quiet now w) : w.IsStopped where
  isDropped := h.isDropped
  pipeline := h.isPipelineStopped hq
  attachment a ha := by
    refine ⟨h.phase_eq_finished hq ha, ?_⟩
    have hm : w.stopStatus? = none := hq .stopStatus (by simp [Timed.moves, moves])
    simpa [stopStatus?, ha, h.isDropped] using hm
  pager := by
    have hm : w.stopPager? = none := hq .stopPager (by simp [Timed.moves, moves])
    simpa [stopPager?, h.isDropped, Pager.stop?] using hm
  subscriber := by
    have hm : w.stopSubscriber? = none := hq .stopSubscriber (by simp [Timed.moves, moves])
    simp only [stopSubscriber?, h.isDropped, if_true, Option.map_eq_none_iff] at hm
    cases hp : w.projection.subscriber.phase with
    | stopped => rfl
    | asking deadline => exact absurd hp (h.subscriber.2.2 deadline)
    | idle | settling => simp [Subscriber.stop?, hp] at hm
  followers f hf := h.isFinished hq hf

/-! ## Stopped for good -/

theorem IsStopped.move?_eq_none (h : w.IsStopped) (now : Nat) (m : Move) :
    w.move? now m = none := by
  rw [Option.eq_none_iff_forall_ne_some]
  intro w' hw
  have hpager := h.pager
  have hsub := h.subscriber
  cases moved_of_move? hw with
  | stopPipeline _ hs | applyBatch hs _ _ | rebuild hs _ => simp [h.pipeline] at hs
  | batch ha hb => simp [Batcher.move?, (h.attachment _ ha).1] at hb
  | stopStatus ha hf | followStatus ha hf => simp [(h.attachment _ ha).2] at hf
  | readNotice hf hr => simp [Follower.read?, h.followers _ (List.mem_of_getElem? hf)] at hr
  | finishFollower hf hr => simp [Follower.finish?, h.followers _ (List.mem_of_getElem? hf)] at hr
  | stopPager _ hp => simp [Pager.stop?, hpager] at hp
  | wakePager hp =>
    obtain ⟨e, -, hs, -⟩ := Pager.wake?_eq_some hp
    simp [hpager] at hs
  | lookAtViewport hr => simp [Pager.isReady, hpager] at hr
  | stopSubscriber _ hs => simp [Subscriber.stop?, hsub] at hs
  | noticeReport hs => simp [Subscriber.notice?, hsub] at hs
  | rest hs | ask hs => simp [Subscriber.isSettled, hsub] at hs
  | giveUpRequest hs => simp [Subscriber.giveUp?, hsub] at hs

theorem surface_updateSource {change : Source → Source} (h : ∀ s, (change s).calls = s.calls)
    (i : Nat) (w : World) : (w.updateSource i change).surface = w.surface :=
  congrArg (fun calls => { w.surface with calls }) (funext (elim_updateSource_of_eq h w))

theorem surface_updateAttachment (i : Nat) (change : Attachment → Attachment) (w : World) :
    (w.updateAttachment i change).surface = w.surface := by
  rw [updateAttachment_eq]
  rfl

theorem IsStopped.updateAttachment {change : Attachment → Attachment}
    (h : w.IsStopped) (hb : ∀ a, a.batcher.phase = .finished → (change a).batcher.phase = .finished)
    (hs : ∀ a, (change a).followsStatus = a.followsStatus) :
    (w.updateAttachment i change).IsStopped := by
  unfold World.updateAttachment
  split
  · rename_i a ha
    split
    · obtain ⟨hp, hf⟩ := h.attachment a ha
      exact { h with
        attachment := fun _ ha' => Option.some.inj ha' ▸ ⟨hb a hp, (hs a).trans hf⟩ }
    · exact h
  · exact h

theorem IsStopped.updateFollower {change : Follower → Follower} (h : w.IsStopped) (id : String)
    (hf : ∀ f, f.isFinished = true → (change f).isFinished = true) :
    (w.updateFollower id change).IsStopped := by
  refine { h with followers := fun g hg => ?_ }
  obtain ⟨f, hmem, rfl⟩ := List.mem_map.1 hg
  have hfin := h.followers f hmem
  split
  · exact hf f hfin
  · exact hfin

/-- When all parts have stopped, steps from outside change nothing that can be seen. -/
theorem IsStopped.step (h : w.IsStopped) (s : Step) :
    (w.step s).1.IsStopped ∧ (w.step s).1.surface = w.surface := by
  have hs := stepped_of_step w s
  generalize (w.step s).1 = w', (w.step s).2 = outcome at hs
  have hd := h.isDropped
  cases hs with
  | noSource | noProjection => exact ⟨h, rfl⟩
  | attachAgain _ hn | attachUnreadable _ hn | attachTaken _ hn | attach _ hn | report hn
  | filter hn | settingsChanged hn | follow hn => simp [hn] at hd
  | @push i edits =>
    refine ⟨IsStopped.updateAttachment (w := w.updateSource i _) { h with } (fun a hp => ?_)
      fun _ => rfl, (surface_updateAttachment ..).trans (surface_updateSource ?_ i w)⟩
    · exact (congrArg Batcher.phase (Batcher.push_of_finished edits hp)).trans hp
    · exact fun _ => rfl
  | @loading i | @dropSource i =>
    refine ⟨IsStopped.updateAttachment (w := w.updateSource i _) { h with } (fun _ hp => hp)
      fun _ => rfl, (surface_updateAttachment ..).trans (surface_updateSource ?_ i w)⟩
    exact fun _ => rfl
  | @consume i => exact ⟨{ h with }, surface_updateSource calls_takeStream i w⟩
  | notify =>
    refine ⟨h.updateFollower _ fun f hf => ?_, rfl⟩
    simp [Follower.notify, hf]
  | unfollow => exact ⟨h.updateFollower _ fun _ hf => hf, rfl⟩
  | setRoom | setService => exact ⟨{ h with }, rfl⟩
  | dropProjection =>
    refine ⟨{ h with isDropped := rfl, attachment := fun a' ha' => ?_ }, rfl⟩
    obtain ⟨a, ha, rfl⟩ := Option.map_eq_some_iff.1 ha'
    exact h.attachment a ha

/-! ## From the drop on -/

/-- What is left of a batcher at rest when it is told to stop. -/
theorem ceases_cancel_of_quiet {b : Batcher (Edit String)} (hq : ∀ m, b.move? now m = none)
    (hc : b.isClosed = false) (he : b.queue = []) (hr : 0 < b.capacity) :
    b.cancel.Ceases now := by
  refine ⟨rfl, he, ?_⟩
  cases hp : b.phase with
  | finished => exact Or.inl hp
  | handing batch isLast =>
    have := hq .hand
    simp [Batcher.move?, hp, hc, he, hr] at this
  | collecting =>
    refine Or.inr ⟨hp, fun m hm => ?_⟩
    have hn := hq m
    cases m with
    | stop => exact absurd rfl hm
    | hand => simp [Batcher.move?, Batcher.cancel, hp]
    | release =>
      simp only [Batcher.move?, hp] at hn
      simpa [Batcher.move?, Batcher.cancel, hp] using hn
    | read =>
      cases hi : b.inbox with
      | nil => simp [Batcher.move?, Batcher.cancel, hp, hi]
      | cons items inbox => simp [Batcher.move?, hp, hi] at hn
    | flush =>
      have hf : ¬(b.hasEnded && b.inbox.isEmpty) = true := by
        intro hf
        simp only [Batcher.move?, hp, if_pos hf] at hn
        split at hn <;> cases hn
      simp only [Batcher.move?, Batcher.cancel, hp]
      exact if_neg hf

/-- Whether a report can be read does not depend on the length of the pause that follows. -/
theorem notice?_eq_none_of {s : Subscriber} {debounce : Nat} (h : s.notice? now debounce = none)
    (debounce' : Nat) : s.notice? now debounce' = none := by
  unfold Subscriber.notice? at h ⊢
  split
  · rename_i hr
    rw [if_pos hr] at h
    split at h
    · cases h
    · cases h
    · rfl
    · rfl
  · rfl

/-- A list at rest has nothing to do but to stop when its projection is dropped. -/
theorem listCeases_of_quiet {config : Config} {sent : Nat → List (Edit String)}
    {done : List (Edit String)} (hf : Flows config sent done now w.listSide)
    (hd : w.projection.isDropped = false) (hq : Timed.Quiet now w) :
    w.dropProjection.ListCeases now where
  isDropped := rfl
  pipeline := by
    have hr := rebuildQueued_of_quiet hq (hf.isPipelineStopped hd)
    exact Or.inr hr
  batcher a' ha' := by
    obtain ⟨a, ha, rfl⟩ := Option.map_eq_some_iff.1 ha'
    refine ceases_cancel_of_quiet (batcher_of_quiet hq ha) (hf.attached ha).isClosed
      (queue_of_quiet hq ha (hf.isPipelineStopped hd)) ?_
    rw [(hf.attached ha).capacity]
    decide
  followers f hf := by
    obtain ⟨i, hi⟩ := List.mem_iff_getElem?.1 hf
    exact (follower_of_quiet hq hi).1

theorem ceases_of_quiet {config : Config} {sources : List Source} {directory : Directory}
    {log : List Moment} {t : Timeline World}
    (hc : Course (origin config sources directory) log t)
    (hd : t.state.projection.isDropped = false) (hq : Timed.Quiet t.now t.state)
    (hn : ∀ deadline, t.state.projection.subscriber.phase ≠ .asking deadline) :
    t.state.dropProjection.Ceases t.now where
  toListCeases := listCeases_of_quiet (flows_of_course hc) hd hq
  status a' ha' hf := by
    obtain ⟨a, ha, rfl⟩ := Option.map_eq_some_iff.1 ha'
    obtain ⟨p, hp, -⟩ := (tells_of_course hc).shown hd a.watch (by simp [statusSide, ha])
    obtain ⟨source, hs, -⟩ := Option.map_eq_some_iff.1 hp
    exact hasStatusReport_of_quiet (a := a) hq ha hs hf
  pager := by
    have hl : t.state.lookAtViewport? t.now = none :=
      hq .lookAtViewport (by simp [Timed.moves, moves])
    have hw : (t.state.projection.pager.wake? t.now).map t.state.setPager = none :=
      hq .wakePager (by simp [Timed.moves, moves])
    have hr : t.state.projection.pager.isReady = false := by simpa [lookAtViewport?] using hl
    exact ⟨hr, Option.map_eq_none_iff.1 hw⟩
  subscriber := by
    have hm : (t.state.projection.subscriber.notice? t.now
        t.state.projection.config.subscriptionDebounce.toNat).map t.state.setSubscriber = none :=
      hq .noticeReport (by simp [Timed.moves, moves])
    have hs : t.state.considerViewport? t.now = none :=
      hq .considerViewport (by simp [Timed.moves, moves])
    refine ⟨notice?_eq_none_of (Option.map_eq_none_iff.1 hm), Bool.eq_false_iff.2 fun h => ?_, hn⟩
    have h : t.state.projection.subscriber.isSettled t.now = true := h
    simp only [considerViewport?, if_pos h] at hs
    split at hs <;> cases hs

/-- Parts that have nothing to do but to stop do so before time passes and before the next step. -/
theorem surface_of_ceases {t₀ t : Timeline World} {log : List Moment}
    (h : t₀.state.Ceases t₀.now) (hp : Punctual t₀ log t) (hr : StepsAtRest log) :
    t.state.surface = t₀.state.surface ∧ (t.state.Ceases t.now ∨ t.state.IsStopped) := by
  induction hp with
  | start => exact ⟨rfl, Or.inl h⟩
  | sleep later _ hs ih =>
    obtain ⟨hsame, hleft⟩ := ih hr
    exact ⟨hsame, Or.inr (hleft.elim (fun hleft => hleft.isStopped hs.quiet) id)⟩
  | @step log t s _ ih =>
    obtain ⟨hr, hstep⟩ := stepsAtRest_append.1 hr
    obtain ⟨hsame, hleft⟩ := ih hr
    have hq : Timed.Quiet t.now t.state :=
      hstep ⟨t.now, t.state, .step s⟩ (List.mem_singleton_self _) rfl
    obtain ⟨hstopped, hsame'⟩ := (hleft.elim (fun hleft => hleft.isStopped hq) id).step s
    exact ⟨hsame'.trans hsame, Or.inr hstopped⟩
  | move m _ hm ih =>
    obtain ⟨hsame, hleft⟩ := ih (stepsAtRest_append.1 hr).1
    rcases hleft with hleft | hleft
    · obtain ⟨hleft, hsame'⟩ := hleft.move hm
      exact ⟨hsame'.trans hsame, Or.inl hleft⟩
    · rw [hleft.move?_eq_none] at hm
      cases hm

/-- When a projection is dropped at rest, while the service owes no answer, the list and the status
that it showed last and all that was asked of the remote side stay as they are.  This holds in
whatever order the parts stop and whatever happens outside later; and as soon as no move is left,
every part has stopped. -/
theorem surface_of_dropped {config : Config} {sources : List Source} {directory : Directory}
    {log log' : List Moment} {t t' : Timeline World}
    (hc : Course (origin config sources directory) log t)
    (hd : t.state.projection.isDropped = false) (hq : Timed.Quiet t.now t.state)
    (hn : ∀ deadline, t.state.projection.subscriber.phase ≠ .asking deadline)
    (hp : Punctual ⟨t.now, (t.state.step .dropProjection).1⟩ log' t') (hr : StepsAtRest log') :
    t'.state.surface = t.state.surface ∧ (Timed.Quiet t'.now t'.state → t'.state.IsStopped) := by
  obtain ⟨hsame, hleft⟩ := surface_of_ceases (ceases_of_quiet hc hd hq hn) hp hr
  exact ⟨hsame, fun hq' => hleft.elim (fun hleft => hleft.isStopped hq') id⟩

/-- The projection is dropped while an edit is pending, the pager rests and the subscriber waits for
reports to settle; what the source says later and notices of the settings reach nobody. -/
theorem surface_of_dropped_pending : ∃ log t log' t',
    Course (origin { managesSubscriptions := true } [{}] ⟨[]⟩) log t ∧
    stepsOf log = [.attach 0, .push 0 [.pushBack "a"], .follow "s", .report [⟨0, 5⟩]] ∧
    Timed.Quiet t.now t.state ∧
    Punctual ⟨t.now, (t.state.step .dropProjection).1⟩ log' t' ∧ StepsAtRest log' ∧
    stepsOf log' = [.push 0 [.pushBack "b"], .loading 0 (.loaded none), .notify "s" 2] ∧
    t'.now = 1000 ∧ t'.state.surface = t.state.surface ∧ t'.state.IsStopped := by
  have h₀ : Course (origin { managesSubscriptions := true } [{}] ⟨[]⟩) [] _ := .start
  have h₁ := ((h₀.step (.attach 0)).step (.push 0 [.pushBack "a"])).move (.batch .read) rfl
  have h₂ := ((h₁.step (.follow "s")).step (.report [⟨0, 5⟩])).move .lookAtViewport rfl
  have h₃ := h₂.move .noticeReport rfl
  have hdrop {t₀ t : Timeline World} {log : List Moment} (_ : Course t₀ log t) :
      Punctual ⟨t.now, (t.state.step .dropProjection).1⟩ [] _ := .start
  have h₄ := ((hdrop h₃).move .stopPager rfl).move (.batch .stop) rfl
  have h₅ := ((h₄.move .stopSubscriber rfl).move (.finishFollower 0) rfl).move .stopStatus rfl
  have h₆ := ((h₅.move .stopPipeline rfl).step (.push 0 [.pushBack "b"])).step
    (.loading 0 (.loaded none))
  have h₇ := (h₆.step (.notify "s" 2)).sleep_of 1000 (by decide) rfl (by decide)
  obtain ⟨hsame, hstopped⟩ := surface_of_dropped h₃ rfl (Timed.next?_eq_none_iff.1 rfl)
    (fun _ h => by cases h) h₇ (by decide)
  exact ⟨_, _, _, _, h₃, rfl, Timed.next?_eq_none_iff.1 rfl, h₇, by decide, rfl, rfl, hsame,
    hstopped (Timed.next?_eq_none_iff.1 rfl)⟩

end World

end LiveRooms
