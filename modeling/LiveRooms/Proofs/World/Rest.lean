import LiveRooms.Proofs.World.Frame

/-!
# A projection at rest

Without a move left the batcher of a projection holds the pending edits alone (`sent_of_quiet`), and
those not longer than the window (`pending_of_window`).  So a projection that is left alone for the
length of the window has worked on all that its source sent (`exists_course_push`).
-/

namespace LiveRooms.World

open Work

variable {config : Config} {sources : List Source} {directory : Directory}
  {log log' : List Moment} {t t' : Timeline World} {i : Nat} {a : Attachment}

theorem batcher_of_quiet {now : Nat} {w : World} (hq : Timed.Quiet now w)
    (ha : w.projection.attachment = some a) (m : Batcher.Move) :
    a.batcher.move? now m = none := by
  have hm : Move.batch m ∈ Timed.moves w := by
    cases m <;> simp [Timed.moves, moves, Batcher.moveOrder]
  have h : w.moveBatcher? now m = none := hq (.batch m) hm
  cases hb : a.batcher.move? now m with
  | none => rfl
  | some b => simp [moveBatcher?, ha, hb] at h

theorem queue_of_quiet {now : Nat} {w : World} (hq : Timed.Quiet now w)
    (ha : w.projection.attachment = some a) (hs : w.projection.isPipelineStopped = false) :
    a.batcher.queue = [] := by
  have hm : Move.applyBatch ∈ Timed.moves w := by simp [Timed.moves, moves]
  have h : w.applyBatch? = none := hq .applyBatch hm
  cases hb : a.batcher.queue with
  | nil => rfl
  | cons batch queue =>
    rw [applyBatch?_eq_some_iff.2 ⟨hs, a, batch, queue, ha, hb, rfl⟩] at h
    cases h

theorem isPipelineStopped_of_course (hc : Course (origin config sources directory) log t)
    (hd : t.state.projection.isDropped = false) :
    t.state.projection.isPipelineStopped = false := (flows_of_course hc).isPipelineStopped hd

theorem rebuildQueued_of_quiet {now : Nat} {w : World} (hq : Timed.Quiet now w)
    (hs : w.projection.isPipelineStopped = false) : w.projection.rebuildQueued = false := by
  have hm : w.rebuild? = none := hq .rebuild (by simp [Timed.moves, moves])
  simpa [rebuild?, hs] using hm

/-- A projection that was not dropped and has no move left has taken all batches. -/
theorem batcher_state_of_quiet (hc : Course (origin config sources directory) log t)
    (hd : t.state.projection.isDropped = false) (hq : Timed.Quiet t.now t.state)
    (ha : t.state.projection.attachment = some a) :
    a.batcher.isCancelled = false ∧ a.batcher.queue = [] :=
  ⟨(flows_of_course hc).isCancelled hd ha, queue_of_quiet hq ha (isPipelineStopped_of_course hc hd)⟩

/-- A projection that was not dropped and has no move left holds back the pending edits alone. -/
theorem sent_of_quiet (hc : Course (origin config sources directory) log t)
    (hd : t.state.projection.isDropped = false) (hq : Timed.Quiet t.now t.state)
    (ha : t.state.projection.attachment = some a) :
    editsOf (workOf log) ++ a.batcher.pending = sentBy sources a.source log := by
  have hf := follows_of_course hc ha
  obtain ⟨hn, he⟩ := batcher_state_of_quiet hc hd hq ha
  have hcap : 0 < a.batcher.capacity := by rw [hf.capacity]; decide
  rw [← hf.sent_eq (Or.inr hn),
    Batcher.contents_of_quiet (batcher_of_quiet hq ha) hf.sound hn hf.isClosed he hcap]

/-- A projection that had no move left, was sent nothing since, and has no move left when the window
is over holds nothing back. -/
theorem pending_of_window (hc : Course (origin config sources directory) log t)
    (hd : t.state.projection.isDropped = false) (hq : Timed.Quiet t.now t.state)
    (ha : t.state.projection.attachment = some a) (hc' : Course t log' t')
    (hn : ∀ edits, .push a.source edits ∉ stepsOf log')
    (hd' : t'.state.projection.isDropped = false) (hq' : Timed.Quiet t'.now t'.state)
    (hw : t.now + config.batchWindow.toNat ≤ t'.now) {a' : Attachment}
    (ha' : t'.state.projection.attachment = some a') : a'.batcher.pending = [] := by
  have hf := follows_of_course hc ha
  obtain ⟨hx, he⟩ := batcher_state_of_quiet hc hd hq ha
  have hcap : a.batcher.queue.length < a.batcher.capacity := by rw [he, hf.capacity]; decide
  have hi := Batcher.inbox_of_quiet (batcher_of_quiet hq ha) hf.sound hx hf.isClosed hcap
  have hl := closesBy_of_course hc' ha ⟨hi.1, hf.closesBy⟩ hn ha'
  -- pending items would leave the batcher a move
  by_contra hp
  have hf' := follows_of_course (hc.trans hc') ha'
  obtain ⟨hx', -⟩ := batcher_state_of_quiet (hc.trans hc') hd' hq' ha'
  have hlt := Batcher.lt_deadline_of_quiet (batcher_of_quiet hq' ha') hf'.sound hx' hf'.isClosed hp
  have hle := hl hp
  rw [hf.window] at hle
  omega

/-! ## Catching up -/

/-- The projection follows a source, and both are there. -/
structure Live (i : Nat) (t : Timeline World) : Prop where
  isDropped : t.state.projection.isDropped = false
  hasSource : t.state.hasSource i = true
  follows : ∃ a, t.state.projection.attachment = some a ∧ a.source = i

/-- The projection follows a source, both are there, and all that the source sent was worked on. -/
structure CaughtUp (sources : List Source) (i : Nat) (log : List Moment) (t : Timeline World) :
    Prop extends Live i t where
  sent : editsOf (workOf log) = sentBy sources i log

theorem Live.of_course (h : Live i t) (hc : Course t log t') (hn : .dropProjection ∉ stepsOf log)
    (hn' : .dropSource i ∉ stepsOf log) : Live i t' where
  isDropped := isDropped_of_course hc hn h.isDropped
  hasSource := hasSource_of_course hc hn' h.hasSource
  follows := by
    obtain ⟨a, ha, rfl⟩ := h.follows
    exact attachment_of_course hc ha

/-- What a source sends is worked on in the end, when the projection is left alone for the length
of the window. -/
theorem exists_course_push (hc : Course (origin config sources directory) log t) (h : Live i t)
    (edits : List (Edit String)) :
    ∃ log' t', Course t log' t' ∧ stepsOf log' = [.push i edits] ∧
      log'.flatMap (Moment.sent i) = edits ∧ CaughtUp sources i (log ++ log') t' := by
  -- the source sends, and the world settles twice, now and when the window is over
  let m : Moment := ⟨t.now, t.state, .step (.push i edits)⟩
  let t₁ : Timeline World := ⟨t.now, (t.state.step (.push i edits)).1⟩
  have hc₁ : Course t [m] t₁ := Course.start.step (.push i edits)
  obtain ⟨log₂, hc₂, hs₂⟩ := Course.exists_settle t₁
  let t₂ : Timeline World := ⟨t₁.now, Timed.settle t₁.now t₁.state⟩
  obtain ⟨log₃, hc₃, hs₃⟩ := Course.exists_settle ⟨t₂.now + config.batchWindow.toNat, t₂.state⟩
  have hc₃ : Course t₂ log₃ _ := (Course.start.wait _ (Nat.le_add_right _ _)).trans hc₃
  have hc₂ : Course t ([m] ++ log₂) t₂ := hc₁.trans hc₂
  have hs₂' : stepsOf ([m] ++ log₂) = [.push i edits] := by
    rw [stepsOf_append, hs₂]
    rfl
  have h₂ : Live i t₂ := h.of_course hc₂ (by rw [hs₂']; simp) (by rw [hs₂']; simp)
  have h₃ := h₂.of_course hc₃ (by rw [hs₃]; simp) (by rw [hs₃]; simp)
  obtain ⟨a₂, ha₂, rfl⟩ := h₂.follows
  obtain ⟨a₃, ha₃, hi₃⟩ := h₃.follows
  have hp := pending_of_window (hc.trans hc₂) h₂.isDropped (Timed.quiet_settle t₁.now t₁.state)
    ha₂ hc₃ (by rw [hs₃]; simp) h₃.isDropped (Timed.quiet_settle _ _) (Nat.le_refl _) ha₃
  refine ⟨_, _, hc₂.trans hc₃, by rw [stepsOf_append, hs₂', hs₃]; rfl, ?_, h₃, ?_⟩
  · have hm : Moment.sent a₂.source m = edits := by simp [Moment.sent, m, h.hasSource]
    rw [List.flatMap_append, List.flatMap_append, List.flatMap_singleton, hm,
      sent_eq_nil (by rw [hs₂]; simp), sent_eq_nil (by rw [hs₃]; simp), List.append_nil,
      List.append_nil]
  · have he := sent_of_quiet (hc.trans (hc₂.trans hc₃)) h₃.isDropped (Timed.quiet_settle _ _) ha₃
    rwa [hp, List.append_nil, hi₃] at he

/-- A source sends one update, and the projection works on it at the end of the window. -/
theorem exists_course_batch (d : Directory) (e : Edit String) (es : List (Edit String)) :
    ∃ log t, Course (origin {} [{}] d) log t ∧ stepsOf log = [.attach 0, .push 0 (e :: es)] ∧
      Timed.Quiet t.now t.state ∧ CaughtUp [{}] 0 log t ∧ sentBy [{}] 0 log = e :: es ∧
      workOf log = (e :: es).map (Work.edit d) := by
  have h₀ : Course (origin {} [{}] d) [] _ := .start
  have h₁ := (h₀.step (.attach 0)).step (.push 0 (e :: es))
  have h₂ := (h₁.move (.batch .read) rfl).wait 100 (Nat.zero_le 100)
  have h₃ := (h₂.move (.batch .release) rfl).move (.batch .hand) rfl
  have h₄ := h₃.move .applyBatch rfl
  refine ⟨_, _, h₄, rfl, Timed.next?_eq_none_iff.1 rfl, ⟨⟨rfl, rfl, ⟨_, rfl, rfl⟩⟩, ?_⟩, ?_, ?_⟩
  · have hs := sent_of_quiet h₄ rfl (Timed.next?_eq_none_iff.1 rfl) rfl
    exact (List.append_nil _).symm.trans hs
  · exact List.append_nil (e :: es)
  · exact List.append_nil ((e :: es).map (Work.edit d))

end LiveRooms.World
