import LiveRooms.Proofs.Pipeline.Work
import LiveRooms.Proofs.World.Course
import LiveRooms.Proofs.World.ListSide

/-!
# From the stream to the list

Along a course edits go from a source through its stream, the batcher and the queue to the pipeline,
which works on the entries.  The entries are the result of the work done so far
(`entries_of_course`).  The edits in that work, followed by those that the batcher holds, are the
edits that the source sent, in the order in which it sent them (`flows_of_course`).
-/

namespace LiveRooms

open ListSide Work

/-- The work that the pipeline does at a moment. -/
def Moment.work (m : Moment) : List Work :=
  match m.cause with
  | .move .applyBatch => m.before.nextBatch.map (.edit m.before.remote.directory)
  | .move .rebuild => [.rebuild m.before.remote.directory]
  | _ => []

/-- The work that the pipeline does in a log. -/
def workOf (log : List Moment) : List Work := log.flatMap Moment.work

/-- The edits that a source sends at a moment, if it is there. -/
def Moment.sent (i : Nat) (m : Moment) : List (Edit String) :=
  match m.cause with
  | .step (.push j edits) => if j = i ∧ m.before.hasSource j then edits else []
  | _ => []

/-- The edits that wait in the stream of a source. -/
def Source.waiting (s : Source) : List (Edit String) := (s.stream.getD []).flatten

/-- The edits that a source sends up to the end of a log. -/
def sentBy (sources : List Source) (i : Nat) (log : List Moment) : List (Edit String) :=
  sources[i]?.elim [] Source.waiting ++ log.flatMap (Moment.sent i)

theorem workOf_append (log log' : List Moment) :
    workOf (log ++ log') = workOf log ++ workOf log' := List.flatMap_append

theorem workOf_snoc (log : List Moment) (m : Moment) :
    workOf (log ++ [m]) = workOf log ++ m.work := by
  rw [workOf_append]
  exact congrArg _ (List.flatMap_singleton ..)

theorem sentBy_append (sources : List Source) (i : Nat) (log log' : List Moment) :
    sentBy sources i (log ++ log') = sentBy sources i log ++ log'.flatMap (Moment.sent i) := by
  rw [sentBy, List.flatMap_append, ← List.append_assoc, sentBy]

theorem sentBy_snoc (sources : List Source) (i : Nat) (log : List Moment) (m : Moment) :
    sentBy sources i (log ++ [m]) = sentBy sources i log ++ m.sent i := by
  rw [sentBy_append, List.flatMap_singleton]

namespace World

theorem feed_eq_some_iff {w : World} {i : Nat} {b : Batcher (Edit String)} :
    w.listSide.feed = some (i, b) ↔
      ∃ a, w.projection.attachment = some a ∧ a.source = i ∧ a.batcher = b := by
  simp [listSide]

theorem nextBatch_of_feed {w : World} {i : Nat} {b : Batcher (Edit String)}
    (h : w.listSide.feed = some (i, b)) : w.nextBatch = b.queue.head?.getD [] := by
  obtain ⟨a, ha, -, rfl⟩ := feed_eq_some_iff.1 h
  simp [nextBatch, ha]

theorem work_eq_nil {m : Move} (h : movesList m = false) (now : Nat) (w : World) :
    Moment.work ⟨now, w, .move m⟩ = [] := by
  cases m with
  | applyBatch | rebuild => cases h
  | _ => rfl

theorem sent_of_ne_push {s : Step} (h : ∀ j edits, s ≠ .push j edits) (i now : Nat) (w : World) :
    Moment.sent i ⟨now, w, .step s⟩ = [] := by
  cases s with
  | push j edits => exact absurd rfl (h j edits)
  | _ => rfl

/-! ## The entries are the result of the work -/

theorem entries_of_move {w w' : World} {now : Nat} {m : Move} (h : w.move? now m = some w')
    (hp : w.listSide.published = w.listSide.entries.map Entry.summary) :
    w'.listSide.entries = performAll (Moment.work ⟨now, w, .move m⟩) w.listSide.entries ∧
      w'.listSide.published = w'.listSide.entries.map Entry.summary := by
  have hm := moves_of_move? h
  generalize w'.listSide = s' at hm
  cases hm with
  | @applyBatch i b batch queue hf hq =>
    have hn : w.nextBatch = batch := by rw [nextBatch_of_feed hf, hq]; rfl
    refine ⟨?_, rfl⟩
    show w.remote.directory.applyBatch batch _ = performAll (w.nextBatch.map _) _
    rw [hn, performAll_batch]
  | rebuild => exact ⟨rfl, rfl⟩
  | batch | stopPipeline => exact ⟨rfl, hp⟩
  | other ho => exact ⟨by rw [work_eq_nil ho]; rfl, hp⟩

theorem entries_of_step (w : World) (s : Step) :
    (w.step s).1.listSide.entries = w.listSide.entries ∧
      (w.step s).1.listSide.published = w.listSide.published := by
  have hs := steps_of_step w s
  generalize (w.step s).1.listSide = s' at hs
  cases hs <;> exact ⟨rfl, rfl⟩

variable {config : Config} {sources : List Source} {directory : Directory}
  {log : List Moment} {t : Timeline World}

/-- The entries are what the work on them came to, and their summaries are shown. -/
theorem entries_of_course (hc : Course (origin config sources directory) log t) :
    t.state.projection.store.entries = performAll (workOf log) [] ∧
      t.state.projection.published.value =
        t.state.projection.store.entries.map Entry.summary := by
  induction hc with
  | start => exact ⟨rfl, rfl⟩
  | wait later _ hl ih => exact ih
  | @step log t s _ ih =>
    obtain ⟨he, hp⟩ := entries_of_step t.state s
    have hw : workOf (log ++ [⟨t.now, t.state, .step s⟩]) = workOf log := by
      rw [workOf_snoc]
      exact List.append_nil _
    rw [hw]
    exact ⟨he.trans ih.1, (hp.trans ih.2).trans (congrArg _ he.symm)⟩
  | @move log t w m _ hm ih =>
    obtain ⟨he, hp⟩ := entries_of_move hm ih.2
    rw [workOf_snoc, performAll_append, ← ih.1]
    exact ⟨he, hp⟩

end World

/-! ## Nothing is lost on the way -/

/-- How a followed source and its batcher go together: nothing of what the source sent is lost or
out of order, between the edits that were done and those that the batcher holds.  A batcher that
was told to stop may have finished before the last ones came. -/
structure Follows (config : Config) (sent done : List (Edit String)) (now : Nat)
    (stream : Option (Option (List (List (Edit String))))) (isDropped : Bool)
    (b : Batcher (Edit String)) : Prop where
  sound : b.Sound
  window : b.window = config.batchWindow.toNat
  capacity : b.capacity = Projection.batchCapacity
  isClosed : b.isClosed = false
  isDropped_of_cancelled : b.isCancelled = true → isDropped = true
  stream_of_ended : b.hasEnded = true → stream = none
  closesBy : b.ClosesBy (now + b.window)
  isPrefix : done ++ b.contents <+: sent
  sent_eq : b.phase ≠ .finished ∨ b.isCancelled = false → done ++ b.contents = sent

/-- What holds of the list side all along a course, when each source has sent the edits `sent` and
the edits `done` were worked on. -/
structure Flows (config : Config) (sent : Nat → List (Edit String)) (done : List (Edit String))
    (now : Nat) (s : ListSide) : Prop where
  config_eq : s.config = config
  isDropped_of_stopped : s.isStopped = true → s.isDropped = true
  done_eq : s.feed = none → done = []
  waiting (i : Nat) (updates : List (List (Edit String))) :
    s.feed = none → s.streams i = some (some updates) → updates.flatten = sent i
  follows (i : Nat) (b : Batcher (Edit String)) : s.feed = some (i, b) →
    Follows config (sent i) done now (s.streams i) s.isDropped b

namespace Follows

variable {config : Config} {sent done : List (Edit String)} {now : Nat}
  {stream : Option (Option (List (List (Edit String))))} {isDropped : Bool}
  {b b' : Batcher (Edit String)}

/-- A batcher that starts holds what waited in the stream. -/
theorem newBatcher (updates : List (List (Edit String))) (h : updates.flatten = sent) :
    Follows config sent [] now stream isDropped (Projection.newBatcher config updates) where
  sound := .of_collecting rfl
  window := rfl
  capacity := rfl
  isClosed := rfl
  isDropped_of_cancelled h := by cases h
  stream_of_ended h := by cases h
  closesBy hp := absurd rfl hp
  isPrefix := h ▸ List.prefix_refl _
  sent_eq _ := h

theorem wait (h : Follows config sent done now stream isDropped b) {later : Nat}
    (hl : now ≤ later) : Follows config sent done later stream isDropped b :=
  { h with closesBy := h.closesBy.mono (Nat.add_le_add_right hl _) }

theorem moves (h : Follows config sent done now stream isDropped b) {m : Batcher.Move}
    (hm : b.Moves now m b') : Follows config sent done now stream isDropped b' := by
  have ho := Batcher.sameOutside_of_moves hm
  have hk := Batcher.contents_of_moves hm h.sound h.isClosed
  have he : done ++ b'.contents = sent :=
    hk ▸ h.sent_eq (Or.inl (Batcher.phase_ne_finished_of_moves hm))
  exact {
    sound := Batcher.sound_of_moves hm h.sound
    window := ho.window.trans h.window
    capacity := ho.capacity.trans h.capacity
    isClosed := ho.isClosed.trans h.isClosed
    isDropped_of_cancelled := fun hx => h.isDropped_of_cancelled (ho.isCancelled ▸ hx)
    stream_of_ended := fun hx => h.stream_of_ended (ho.hasEnded ▸ hx)
    closesBy := ho.window ▸ Batcher.closesBy_of_moves hm h.closesBy
    isPrefix := he ▸ List.prefix_refl _
    sent_eq := fun _ => he }

/-- The pipeline takes a batch and works on it. -/
theorem take (h : Follows config sent done now stream isDropped b) {batch : List (Edit String)}
    {queue : List (List (Edit String))} (hq : b.queue = batch :: queue) :
    Follows config sent (done ++ batch) now stream isDropped { b with queue } := by
  have hk : (done ++ batch) ++ Batcher.contents { b with queue } = done ++ b.contents := by
    simp [Batcher.contents, hq]
  exact {
    sound := ⟨h.sound.1, h.sound.2, h.sound.3⟩
    window := h.window
    capacity := h.capacity
    isClosed := h.isClosed
    isDropped_of_cancelled := h.isDropped_of_cancelled
    stream_of_ended := h.stream_of_ended
    closesBy := h.closesBy
    isPrefix := hk ▸ h.isPrefix
    sent_eq := fun hx => hk.trans (h.sent_eq hx) }

/-- The source is there and sends some edits. -/
theorem push {updates updates' : Option (List (List (Edit String)))}
    (h : Follows config sent done now (some updates) isDropped b) (edits : List (Edit String)) :
    Follows config (sent ++ edits) done now (some updates') isDropped (b.push edits).1 := by
  have hn : b.hasEnded = false := by
    rw [← Bool.not_eq_true]
    intro he
    cases h.stream_of_ended he
  have ho := Batcher.sameOutside_push edits b
  have hk : b.phase ≠ .finished → done ++ (b.push edits).1.contents = sent ++ edits := by
    intro hf
    rw [Batcher.contents_push edits hn hf, ← List.append_assoc, h.sent_eq (Or.inl hf)]
  have hf : b.phase = .finished → (b.push edits).1 = b ∧ b.isCancelled = true := by
    intro hf
    refine ⟨Batcher.push_of_finished edits hf, ?_⟩
    rw [← Bool.not_eq_false]
    intro hc
    rw [(h.sound.read_of_finished hf hc h.isClosed).1] at hn
    cases hn
  refine {
    sound := Batcher.sound_push edits h.sound
    window := ho.window.trans h.window
    capacity := ho.capacity.trans h.capacity
    isClosed := ho.isClosed.trans h.isClosed
    isDropped_of_cancelled := fun hx => h.isDropped_of_cancelled (ho.isCancelled ▸ hx)
    stream_of_ended := fun hx => by rw [ho.hasEnded, hn] at hx; cases hx
    closesBy := ho.window ▸ Batcher.closesBy_push edits h.closesBy
    isPrefix := ?_
    sent_eq := ?_ }
  · by_cases hp : b.phase = .finished
    · rw [(hf hp).1]
      exact h.isPrefix.trans (List.prefix_append sent edits)
    · exact hk hp ▸ List.prefix_refl _
  · intro hx
    by_cases hp : b.phase = .finished
    · rw [(hf hp).1, (hf hp).2, hp] at hx
      simp at hx
    · exact hk hp

theorem finishStream (h : Follows config sent done now stream isDropped b) :
    Follows config sent done now none isDropped b.finishStream :=
  { h with sound := Batcher.sound_finishStream h.sound, stream_of_ended := fun _ => rfl }

theorem cancel (h : Follows config sent done now stream isDropped b) :
    Follows config sent done now stream true b.cancel :=
  { h with
    sound := Batcher.sound_cancel h.sound
    isDropped_of_cancelled := fun _ => rfl
    sent_eq := fun hx => h.sent_eq (Or.inl (hx.resolve_right fun hc => by cases hc)) }

end Follows

namespace Flows

variable {config : Config} {sent : Nat → List (Edit String)} {done : List (Edit String)}
  {now : Nat} {s s' : ListSide}

theorem wait (h : Flows config sent done now s) {later : Nat} (hl : now ≤ later) :
    Flows config sent done later s :=
  { h with follows := fun i b hf => (h.follows i b hf).wait hl }

/-- A piece of work takes a batch from the queue or none. -/
theorem moves {w w' : World} {m : World.Move}
    (h : Flows config sent done now w.listSide) (hm : w.move? now m = some w') :
    Flows config sent (done ++ editsOf (Moment.work ⟨now, w, .move m⟩)) now w'.listSide := by
  have hs := World.moves_of_move? hm
  generalize w'.listSide = s' at hs
  cases hs with
  | @applyBatch i b batch queue hf hq =>
    have hn : editsOf (Moment.work ⟨now, w, .move .applyBatch⟩) = batch := by
      show editsOf (w.nextBatch.map _) = batch
      rw [editsOf_batch, World.nextBatch_of_feed hf, hq]
      rfl
    rw [hn]
    exact {
      config_eq := h.config_eq
      isDropped_of_stopped := h.isDropped_of_stopped
      done_eq := fun hx => by cases hx
      waiting := fun _ _ hx => by cases hx
      follows := fun i' b' hx => by
        cases hx
        exact (h.follows i b hf).take hq }
  | rebuild =>
    show Flows config sent (done ++ []) now _
    rw [List.append_nil]
    exact { h with }
  | @batch i b b' m hf hb =>
    show Flows config sent (done ++ []) now _
    rw [List.append_nil]
    exact {
      config_eq := h.config_eq
      isDropped_of_stopped := h.isDropped_of_stopped
      done_eq := fun hx => by cases hx
      waiting := fun _ _ hx => by cases hx
      follows := fun i' b'' hx => by
        cases hx
        exact (h.follows i b hf).moves hb }
  | stopPipeline hd =>
    show Flows config sent (done ++ []) now _
    rw [List.append_nil]
    exact { h with isDropped_of_stopped := fun _ => hd }
  | other ho =>
    rw [World.work_eq_nil ho]
    show Flows config sent (done ++ []) now _
    rwa [List.append_nil]

/-- The stream of a source is taken to be followed. -/
theorem attach (h : Flows config sent done now s) {i : Nat} {updates : List (List (Edit String))}
    (hf : s.feed = none) (hi : s.streams i = some (some updates)) :
    Flows config sent done now
      { s.setStream i (some none) with
        feed := some (i, Projection.newBatcher s.config updates) } where
  config_eq := h.config_eq
  isDropped_of_stopped := h.isDropped_of_stopped
  done_eq hx := by cases hx
  waiting _ _ hx := by cases hx
  follows i' b hx := by
    cases hx
    rw [h.done_eq hf, h.config_eq]
    exact .newBatcher updates (h.waiting i updates hf hi)

/-- Someone else takes the stream of a source. -/
theorem consume (h : Flows config sent done now s) {i : Nat} {updates : List (List (Edit String))}
    (hi : s.streams i = some (some updates)) :
    Flows config sent done now (s.setStream i (some none)) where
  config_eq := h.config_eq
  isDropped_of_stopped := h.isDropped_of_stopped
  done_eq := h.done_eq
  waiting j updates' hf hj := by
    by_cases hij : j = i
    · subst hij
      rw [streams_setStream_self] at hj
      cases hj
    · rw [streams_setStream_of_ne hij] at hj
      exact h.waiting j updates' hf hj
  follows j b hf := by
    have hb := h.follows j b hf
    refine { hb with stream_of_ended := fun he => ?_ }
    have hn := hb.stream_of_ended he
    by_cases hij : j = i
    · subst hij
      rw [hi] at hn
      cases hn
    · rwa [streams_setStream_of_ne hij]

/-- What a source sends goes to the stream or to the batcher. -/
theorem push (h : Flows config sent done now s) {i : Nat} (edits : List (Edit String))
    {stream : Option (List (List (Edit String)))} (hs : s.streams i = some stream) :
    Flows config (fun j => sent j ++ if i = j then edits else []) done now
      ((s.setStream i (some (stream.map fun updates => updates ++ [edits]))).updateFeed i
        fun b => (b.push edits).1) where
  config_eq := h.config_eq
  isDropped_of_stopped := h.isDropped_of_stopped
  done_eq hf := h.done_eq (feed_updateFeed_eq_none (s := s.setStream i _) hf)
  waiting j updates hf hj := by
    have hn : s.feed = none := feed_updateFeed_eq_none (s := s.setStream i _) hf
    change (s.setStream i _).streams j = _ at hj
    by_cases hij : i = j
    · subst hij
      rw [streams_setStream_self] at hj
      obtain ⟨updates', rfl, rfl⟩ := Option.map_eq_some_iff.1 (Option.some.inj hj)
      rw [if_pos rfl, List.flatten_concat, h.waiting i updates' hn hs]
    · rw [streams_setStream_of_ne (Ne.symm hij)] at hj
      rw [if_neg hij, List.append_nil]
      exact h.waiting j updates hn hj
  follows j b hf := by
    obtain ⟨b', hf', rfl⟩ := feed_updateFeed_eq_some hf
    have hb := h.follows j b' hf'
    show Follows config _ done now ((s.setStream i _).streams j) s.isDropped _
    by_cases hij : i = j
    · subst hij
      rw [hs] at hb
      rw [streams_setStream_self, if_pos rfl, if_pos rfl]
      exact hb.push edits
    · rw [streams_setStream_of_ne (Ne.symm hij), if_neg hij, if_neg (Ne.symm hij), List.append_nil]
      exact hb

/-- A source goes away. -/
theorem dropSource (h : Flows config sent done now s) (i : Nat) :
    Flows config sent done now ((s.setStream i none).updateFeed i Batcher.finishStream) where
  config_eq := h.config_eq
  isDropped_of_stopped := h.isDropped_of_stopped
  done_eq hf := h.done_eq (feed_updateFeed_eq_none (s := s.setStream i _) hf)
  waiting j updates hf hj := by
    have hn : s.feed = none := feed_updateFeed_eq_none (s := s.setStream i _) hf
    change (s.setStream i none).streams j = _ at hj
    by_cases hij : j = i
    · subst hij
      rw [streams_setStream_self] at hj
      cases hj
    · rw [streams_setStream_of_ne hij] at hj
      exact h.waiting j updates hn hj
  follows j b hf := by
    obtain ⟨b', hf', rfl⟩ := feed_updateFeed_eq_some hf
    have hb := h.follows j b' hf'
    show Follows config _ done now ((s.setStream i none).streams j) s.isDropped _
    by_cases hij : j = i
    · subst hij
      rw [streams_setStream_self, if_pos rfl]
      exact hb.finishStream
    · rw [streams_setStream_of_ne hij, if_neg hij]
      exact hb

/-- The projection is dropped. -/
theorem dropProjection (h : Flows config sent done now s) :
    Flows config sent done now
      { s with isDropped := true, feed := s.feed.map fun (i, b) => (i, b.cancel) } where
  config_eq := h.config_eq
  isDropped_of_stopped _ := rfl
  done_eq hf := h.done_eq (Option.map_eq_none_iff.1 hf)
  waiting j updates hf hj := h.waiting j updates (Option.map_eq_none_iff.1 hf) hj
  follows j b hf := by
    obtain ⟨⟨j', b'⟩, hf', he⟩ := Option.map_eq_some_iff.1 hf
    obtain ⟨rfl, rfl⟩ := Prod.mk.inj he
    exact (h.follows j' b' hf').cancel

/-- A push to a source that is there adds to what it sent; no other step does. -/
theorem steps {w : World} {step : Step} (h : Flows config sent done now w.listSide) :
    Flows config (fun i => sent i ++ Moment.sent i ⟨now, w, .step step⟩) done now
      (w.step step).1.listSide := by
  have hs := World.steps_of_step w step
  generalize (w.step step).1.listSide = s' at hs
  by_cases hp : ∃ i edits, step = .push i edits
  · obtain ⟨i, edits, rfl⟩ := hp
    cases hs with
    | @push _ _ stream hi =>
      have hi' : w.hasSource i = true := World.hasSource_iff.2 ⟨stream, hi⟩
      have he : (fun j => sent j ++ Moment.sent j ⟨now, w, .step (.push i edits)⟩) =
          fun j => sent j ++ if i = j then edits else [] := by
        funext j
        simp [Moment.sent, hi']
      rw [he]
      exact h.push edits hi
    | noSource hi =>
      have hi' : w.hasSource i = false := by
        rw [← Bool.not_eq_true, World.hasSource_iff, hi]
        rintro ⟨stream, hx⟩
        cases hx
      simpa [Moment.sent, hi'] using h
    | other ho => cases ho
  · have he : (fun i => sent i ++ Moment.sent i ⟨now, w, .step step⟩) = sent := by
      funext i
      rw [World.sent_of_ne_push fun j edits hj => hp ⟨j, edits, hj⟩, List.append_nil]
    rw [he]
    cases hs with
    | attach hf hi => exact h.attach hf hi
    | consume hi => exact h.consume hi
    | push | noSource => exact absurd ⟨_, _, rfl⟩ hp
    | dropSource => exact h.dropSource _
    | setRoom => exact { h with }
    | dropProjection => exact h.dropProjection
    | other => exact h

variable {w : World} {a : Attachment}

theorem isPipelineStopped (h : Flows config sent done now w.listSide)
    (hd : w.projection.isDropped = false) : w.projection.isPipelineStopped = false := by
  rw [← Bool.not_eq_true]
  intro hx
  have hd' : w.projection.isDropped = true := h.isDropped_of_stopped hx
  rw [hd'] at hd
  cases hd

theorem attached (h : Flows config sent done now w.listSide)
    (ha : w.projection.attachment = some a) :
    Follows config (sent a.source) done now (w.listSide.streams a.source) w.projection.isDropped
      a.batcher :=
  h.follows a.source a.batcher (World.feed_eq_some_iff.2 ⟨a, ha, rfl, rfl⟩)

theorem isCancelled (h : Flows config sent done now w.listSide)
    (hd : w.projection.isDropped = false) (ha : w.projection.attachment = some a) :
    a.batcher.isCancelled = false := by
  rw [← Bool.not_eq_true]
  intro hx
  rw [(h.attached ha).isDropped_of_cancelled hx] at hd
  cases hd

end Flows

namespace World

variable {config : Config} {sources : List Source} {directory : Directory}
  {log : List Moment} {t : Timeline World} {i : Nat} {a : Attachment}

theorem flows_origin (config : Config) (sources : List Source) (directory : Directory) :
    Flows config (fun i => sentBy sources i []) [] 0 (new config sources directory).listSide where
  config_eq := rfl
  isDropped_of_stopped h := by cases h
  done_eq _ := rfl
  waiting i updates _ hi := by
    obtain ⟨s, hs, ho⟩ := Option.bind_eq_some_iff.1 hi
    have hs : sources[i]? = some s := hs
    cases hd : s.isDropped <;> simp_all [Source.open?, sentBy, Source.waiting]
  follows _ _ hf := by cases hf

/-- All along a course, what was worked on and what the batcher holds is what was sent. -/
theorem flows_of_course (hc : Course (origin config sources directory) log t) :
    Flows config (fun i => sentBy sources i log) (editsOf (workOf log)) t.now t.state.listSide := by
  induction hc with
  | start => exact flows_origin config sources directory
  | wait later _ hl ih => exact ih.wait hl
  | @step log t s _ ih =>
    have hw : workOf (log ++ [⟨t.now, t.state, .step s⟩]) = workOf log := by
      rw [workOf_snoc]
      exact List.append_nil _
    simp only [hw, sentBy_snoc]
    exact ih.steps
  | @move log t w m _ hm ih =>
    have hs : ∀ i, Moment.sent i ⟨t.now, t.state, .move m⟩ = [] := fun _ => rfl
    simp only [sentBy_snoc, hs, List.append_nil]
    rw [workOf_snoc, editsOf_append]
    exact ih.moves hm

theorem follows_of_course (hc : Course (origin config sources directory) log t)
    (ha : t.state.projection.attachment = some a) :
    Follows config (sentBy sources a.source log) (editsOf (workOf log)) t.now
      (t.state.listSide.streams a.source) t.state.projection.isDropped a.batcher :=
  (flows_of_course hc).attached ha

/-- What was worked on is the beginning of what was sent. -/
theorem prefix_of_course (hc : Course (origin config sources directory) log t)
    (hi : ∀ a, t.state.projection.attachment = some a → a.source = i) :
    editsOf (workOf log) <+: sentBy sources i log := by
  cases ha : t.state.projection.attachment with
  | none =>
    rw [(flows_of_course hc).done_eq (by simp [listSide, ha])]
    exact List.nil_prefix
  | some a =>
    obtain rfl := hi a ha
    exact (List.prefix_append ..).trans (follows_of_course hc ha).isPrefix

end World

end LiveRooms
