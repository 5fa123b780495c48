import LiveRooms.Proofs.World.Changes
import LiveRooms.Proofs.Batcher.Contents
import LiveRooms.Proofs.Room.Directory
import Mathlib.Logic.Function.Basic

/-!
# The list side of a world

The list of a projection depends on part of the world only: the rooms, the streams of the sources,
the batcher of the followed source, and the stored and published list.  `World.listSide` is that
part.  Few moves change it (`ListSide.Moves`), and of the steps from outside those that attach,
push, take or end a stream, change a room or drop the projection (`ListSide.Steps`).
-/

namespace LiveRooms

/-- The part of a world that its list depends on. -/
structure ListSide where
  config : Config
  directory : Directory
  /-- For each source that is there the updates that wait in its stream, unless it was taken. -/
  streams : Nat → Option (Option (List (List (Edit String))))
  /-- The followed source and the batcher over its stream. -/
  feed : Option (Nat × Batcher (Edit String))
  entries : List Entry
  published : List Summary
  isDropped : Bool
  /-- No more batches are applied. -/
  isStopped : Bool

/-- The stream of a source that is there. -/
def Source.open? (s : Source) : Option (Option (List (List (Edit String)))) :=
  if s.isDropped then none else some s.stream

namespace World

/-- The list side of a world. -/
def listSide (w : World) : ListSide where
  config := w.projection.config
  directory := w.remote.directory
  streams i := w.remote.sources[i]?.bind Source.open?
  feed := w.projection.attachment.map fun a => (a.source, a.batcher)
  entries := w.projection.store.entries
  published := w.projection.published.value
  isDropped := w.projection.isDropped
  isStopped := w.projection.isPipelineStopped

/-- The batch that is applied next. -/
def nextBatch (w : World) : List (Edit String) :=
  (w.projection.attachment.bind fun a => a.batcher.queue.head?).getD []

end World

namespace ListSide

/-- Stores entries and shows their summaries. -/
def publish (entries : List Entry) (s : ListSide) : ListSide :=
  { s with entries, published := entries.map Entry.summary }

/-- Changes the stream of a source. -/
def setStream (i : Nat) (stream : Option (Option (List (List (Edit String))))) (s : ListSide) :
    ListSide :=
  { s with streams := Function.update s.streams i stream }

/-- Changes the batcher over the stream of a source, if that source is followed. -/
def updateFeed (i : Nat) (change : Batcher (Edit String) → Batcher (Edit String)) (s : ListSide) :
    ListSide :=
  { s with feed := s.feed.map fun (j, b) => (j, if j = i then change b else b) }

/-- Whether a move does something to the list side. -/
def movesList : World.Move → Bool
  | .applyBatch | .rebuild | .batch _ | .stopPipeline => true
  | _ => false

/-- What moves do to the list side. -/
inductive Moves (now : Nat) (s : ListSide) : World.Move → ListSide → Prop where
  | applyBatch {i : Nat} {b : Batcher (Edit String)} {batch : List (Edit String)}
      {queue : List (List (Edit String))} : s.feed = some (i, b) → b.queue = batch :: queue →
      Moves now s .applyBatch
        { s.publish (s.directory.applyBatch batch s.entries) with
          feed := some (i, { b with queue }) }
  | rebuild : Moves now s .rebuild (s.publish (s.directory.rebuild s.entries))
  | batch {i : Nat} {b b' : Batcher (Edit String)} {m : Batcher.Move} :
      s.feed = some (i, b) → b.Moves now m b' →
      Moves now s (.batch m) { s with feed := some (i, b') }
  | stopPipeline : s.isDropped = true → Moves now s .stopPipeline { s with isStopped := true }
  | other {m : World.Move} : movesList m = false → Moves now s m s

/-- Whether a step always does something to the list side, or to a stream that is there. -/
def stepsList : Step → Bool
  | .push .. | .dropSource _ | .setRoom .. | .dropProjection => true
  | _ => false

/-- What steps from outside do to the list side. -/
inductive Steps (s : ListSide) : Step → ListSide → Prop where
  | attach {i : Nat} {updates : List (List (Edit String))} : s.feed = none →
      s.streams i = some (some updates) →
      Steps s (.attach i)
        { s.setStream i (some none) with
          feed := some (i, Projection.newBatcher s.config updates) }
  | consume {i : Nat} {updates : List (List (Edit String))} :
      s.streams i = some (some updates) → Steps s (.consume i) (s.setStream i (some none))
  | push {i : Nat} {edits : List (Edit String)} {stream : Option (List (List (Edit String)))} :
      s.streams i = some stream →
      Steps s (.push i edits)
        ((s.setStream i (some (stream.map fun updates => updates ++ [edits]))).updateFeed i
          fun b => (b.push edits).1)
  | noSource {i : Nat} {edits : List (Edit String)} : s.streams i = none →
      Steps s (.push i edits) s
  | dropSource {i : Nat} :
      Steps s (.dropSource i) ((s.setStream i none).updateFeed i Batcher.finishStream)
  | setRoom {key : String} {info : Option Metadata} {event : Option (Option Event)}
      {readable : Option Bool} :
      Steps s (.setRoom key info event readable)
        { s with directory := s.directory.update key (Room.change info event readable) }
  | dropProjection :
      Steps s .dropProjection
        { s with isDropped := true, feed := s.feed.map fun (i, b) => (i, b.cancel) }
  | other {step : Step} : stepsList step = false → Steps s step s

variable {s s' : ListSide} {i j : Nat} {b : Batcher (Edit String)}
  {change : Batcher (Edit String) → Batcher (Edit String)}

@[simp] theorem streams_setStream_self (i : Nat)
    (stream : Option (Option (List (List (Edit String))))) (s : ListSide) :
    (s.setStream i stream).streams i = stream := Function.update_self ..

theorem streams_setStream_of_ne (h : j ≠ i)
    (stream : Option (Option (List (List (Edit String))))) (s : ListSide) :
    (s.setStream i stream).streams j = s.streams j := Function.update_of_ne h ..

theorem feed_updateFeed_eq_none (h : (s.updateFeed i change).feed = none) : s.feed = none :=
  Option.map_eq_none_iff.1 h

theorem feed_updateFeed_eq_some (h : (s.updateFeed i change).feed = some (j, b)) :
    ∃ b', s.feed = some (j, b') ∧ b = if j = i then change b' else b' := by
  obtain ⟨⟨j', b'⟩, hf, he⟩ := Option.map_eq_some_iff.1 h
  obtain ⟨rfl, rfl⟩ := Prod.mk.inj he
  exact ⟨b', hf, rfl⟩

/-! ## What stays -/

/-- Moves touch the followed batcher and the list alone. -/
theorem frame_of_moves {now : Nat} {m : World.Move} (h : Moves now s m s') :
    s'.directory = s.directory ∧ s'.streams = s.streams ∧ s'.isDropped = s.isDropped := by
  cases h <;> exact ⟨rfl, rfl, rfl⟩

theorem directory_of_steps {step : Step} (h : Steps s step s') :
    s'.directory = s.directory ∨ ∃ key info event readable,
      step = .setRoom key info event readable ∧
        s'.directory = s.directory.update key (Room.change info event readable) := by
  cases h with
  | setRoom => exact Or.inr ⟨_, _, _, _, rfl, rfl⟩
  | _ => exact Or.inl rfl

theorem isDropped_of_steps {step : Step} (h : Steps s step s') (hn : step ≠ .dropProjection) :
    s'.isDropped = s.isDropped := by
  cases h with
  | dropProjection => exact absurd rfl hn
  | _ => rfl

theorem isDropped_of_steps_of_dropped {step : Step} (h : Steps s step s')
    (hd : s.isDropped = true) : s'.isDropped = true := by
  cases h with
  | dropProjection => rfl
  | _ => exact hd

/-- A source stays there until it goes away. -/
theorem isSome_streams_of_steps {step : Step} (h : Steps s step s') (hn : step ≠ .dropSource i)
    (hi : (s.streams i).isSome = true) : (s'.streams i).isSome = true := by
  cases h with
  | @attach j updates | @consume j updates =>
    show ((s.setStream j (some none)).streams i).isSome = true
    by_cases hij : i = j
    · subst hij
      rw [streams_setStream_self]
      rfl
    · rwa [streams_setStream_of_ne hij]
  | @push j edits stream =>
    show ((s.setStream j (some _)).streams i).isSome = true
    by_cases hij : i = j
    · subst hij
      rw [streams_setStream_self]
      rfl
    · rwa [streams_setStream_of_ne hij]
  | @dropSource j =>
    show ((s.setStream j none).streams i).isSome = true
    by_cases hij : i = j
    · exact absurd (congrArg Step.dropSource hij.symm) hn
    · rwa [streams_setStream_of_ne hij]
  | _ => exact hi

/-- A followed source stays followed, and moves change its batcher by moves or take a batch. -/
theorem feed_of_moves {now : Nat} {m : World.Move} (h : Moves now s m s')
    (hf : s.feed = some (i, b)) : ∃ b', s'.feed = some (i, b') ∧
      (b' = b ∨ (∃ m, b.Moves now m b') ∨ ∃ queue, b' = { b with queue }) := by
  cases h with
  | @applyBatch j b' batch queue hf' hq =>
    obtain ⟨rfl, rfl⟩ := Prod.mk.inj (Option.some.inj (hf'.symm.trans hf))
    exact ⟨_, rfl, Or.inr (Or.inr ⟨queue, rfl⟩)⟩
  | @batch j b' b'' m hf' hb =>
    obtain ⟨rfl, rfl⟩ := Prod.mk.inj (Option.some.inj (hf'.symm.trans hf))
    exact ⟨_, rfl, Or.inr (Or.inl ⟨m, hb⟩)⟩
  | _ => exact ⟨b, hf, Or.inl rfl⟩

/-- A followed source stays followed, and only a push of its own brings its batcher anything. -/
theorem feed_of_steps {step : Step} (h : Steps s step s') (hf : s.feed = some (i, b)) :
    ∃ b', s'.feed = some (i, b') ∧
      (b' = b ∨ (∃ edits, step = .push i edits) ∨ b' = b.finishStream ∨ b' = b.cancel) := by
  cases h with
  | attach hn =>
    rw [hf] at hn
    cases hn
  | @push j edits stream =>
    refine ⟨if i = j then (b.push edits).1 else b, ?_, ?_⟩
    · simp [updateFeed, setStream, hf]
    · by_cases hij : i = j
      · exact Or.inr (Or.inl ⟨edits, by rw [hij]⟩)
      · exact Or.inl (if_neg hij)
  | @dropSource j =>
    refine ⟨if i = j then b.finishStream else b, ?_, ?_⟩
    · simp [updateFeed, setStream, hf]
    · by_cases hij : i = j
      · exact Or.inr (Or.inr (Or.inl (if_pos hij)))
      · exact Or.inl (if_neg hij)
  | dropProjection => exact ⟨b.cancel, by simp [hf], Or.inr (Or.inr (Or.inr rfl))⟩
  | _ => exact ⟨b, hf, Or.inl rfl⟩

end ListSide

namespace World

open ListSide

theorem listSide_requestRebuild (w : World) :
    listSide { w with projection := w.projection.requestRebuild } = w.listSide := by
  simp only [Projection.requestRebuild]
  split <;> rfl

/-- Changing a source changes its stream at most. -/
theorem listSide_updateSource_eq (i : Nat) (change : Source → Source) (w : World) :
    (w.updateSource i change).listSide =
      w.listSide.setStream i ((w.remote.sources[i]?.map change).bind Source.open?) := by
  simp only [listSide, updateSource, Remote.updateSource, setStream, ListSide.mk.injEq, true_and,
    and_true]
  funext j
  rw [List.getElem?_modify, Function.update_apply]
  by_cases hij : i = j
  · subst hij; simp
  · simp [hij, Ne.symm hij]

/-- Changing what the list does not depend on in a source leaves the list side as it is. -/
theorem listSide_updateSource (i : Nat) (change : Source → Source) (w : World)
    (h : ∀ s, w.remote.sources[i]? = some s → (change s).open? = s.open?) :
    (w.updateSource i change).listSide = w.listSide := by
  have hi : (w.remote.sources[i]?.map change).bind Source.open? = w.listSide.streams i := by
    cases hs : w.remote.sources[i]? with
    | none => simp [listSide, hs]
    | some s => simp [listSide, hs, h s hs]
  rw [listSide_updateSource_eq, hi]
  simp [setStream]

/-- Changing the attachment to a source changes its batcher at most. -/
theorem listSide_updateAttachment (i : Nat) (change : Attachment → Attachment)
    (f : Batcher (Edit String) → Batcher (Edit String)) (w : World)
    (hs : ∀ a, (change a).source = a.source) (hb : ∀ a, (change a).batcher = f a.batcher) :
    (w.updateAttachment i change).listSide = w.listSide.updateFeed i f := by
  unfold updateAttachment
  split
  · rename_i a ha
    split
    · rename_i hi
      simp [listSide, updateFeed, ha, hs, hb, hi]
    · rename_i hi
      simp [listSide, updateFeed, ha, hi]
  · rename_i ha
    simp [listSide, updateFeed, ha]

theorem listSide_record (i : Nat) (call : Call) (w : World) :
    listSide { w with remote := w.remote.record i call } = w.listSide :=
  listSide_updateSource i (Source.record call) w fun _ _ => rfl

theorem listSide_decidePages (v : Viewport) (w : World) :
    (w.decidePages v).listSide = w.listSide := by
  unfold decidePages
  split
  · exact listSide_record ..
  · rfl

/-! ## Moves -/

theorem moves_of_listSide_eq {w w' : World} {now : Nat} {m : Move} (hm : movesList m = false)
    (h : w'.listSide = w.listSide) : Moves now w.listSide m w'.listSide := h ▸ .other hm

theorem moves_of_move? {w w' : World} {now : Nat} {m : Move} (h : w.move? now m = some w') :
    Moves now w.listSide m w'.listSide := by
  cases moved_of_move? h with
  | stopPipeline hd _ => exact .stopPipeline (s := w.listSide) hd
  | applyBatch _ ha hq => exact .applyBatch (s := w.listSide) (by simp [listSide, ha]) hq
  | rebuild => exact .rebuild (s := w.listSide)
  | batch ha hb =>
    exact .batch (s := w.listSide) (by simp [listSide, ha]) (Batcher.moves_of_move? hb)
  | stopStatus ha | followStatus ha =>
    refine moves_of_listSide_eq rfl ?_
    simp [listSide, ha]
  | readNotice =>
    refine moves_of_listSide_eq rfl ?_
    split
    · exact listSide_requestRebuild ⟨w.remote, _⟩
    · rfl
  | lookAtViewport =>
    refine moves_of_listSide_eq rfl ?_
    unfold decideAtLook
    split
    · exact listSide_decidePages w.projection.viewport w
    · rfl
  | _ => exact .other rfl

/-! ## Steps from outside -/

theorem hasSource_iff {i : Nat} {w : World} :
    w.hasSource i = true ↔ ∃ stream, w.listSide.streams i = some stream := by
  cases hs : w.remote.sources[i]? with
  | none => simp [hasSource, listSide, hs]
  | some s => cases hd : s.isDropped <;> simp [hasSource, listSide, hs, Source.open?, hd]

theorem streams_eq_none {i : Nat} {w : World} (h : w.hasSource i = false) :
    w.listSide.streams i = none := by
  rw [Option.eq_none_iff_forall_ne_some]
  intro stream hs
  rw [hasSource_iff.2 ⟨stream, hs⟩] at h
  cases h

/-- The stream of a source is taken with what waits in it. -/
theorem listSide_taken {i : Nat} {w : World} {source : Source}
    {updates : List (List (Edit String))} (hs : w.hasSource i = true)
    (hi : w.remote.sources[i]? = some source) (ht : source.takeStream.2 = .ok updates) :
    w.listSide.streams i = some (some updates) ∧
      (w.updateSource i fun s => s.takeStream.1).listSide = w.listSide.setStream i (some none) := by
  have hd : source.isDropped = false := by simpa [hasSource, hi] using hs
  have hst : source.stream = some updates := by
    unfold Source.takeStream at ht
    split at ht <;> cases ht
    assumption
  refine ⟨by simp [listSide, hi, Source.open?, hd, hst], ?_⟩
  rw [listSide_updateSource_eq]
  simp [hi, Source.takeStream, Source.open?, hd, hst]

/-- A stream that was taken before stays taken. -/
theorem listSide_taken_before {i : Nat} {w : World} {source : Source} {failure : Failure}
    (hi : w.remote.sources[i]? = some source) (ht : source.takeStream.2 = .error failure) :
    (w.updateSource i fun s => s.takeStream.1).listSide = w.listSide := by
  have hst : source.stream = none := by
    unfold Source.takeStream at ht
    split at ht <;> cases ht
    assumption
  refine listSide_updateSource i (fun s => s.takeStream.1) w fun s hs => ?_
  obtain rfl := Option.some.inj (hi.symm.trans hs)
  simp [Source.takeStream, Source.open?, hst]

theorem listSide_follow (i : Nat) (loading : LoadingState) (updates : List (List (Edit String)))
    (w : World) :
    (w.follow i loading updates).listSide =
      { w.listSide with feed := some (i, Projection.newBatcher w.listSide.config updates) } := by
  have := listSide_record i
    (.setFilter ((default : Filter).toRemote w.projection.config.filterSettings)) w
  simp only [listSide, ListSide.mk.injEq] at this
  simp only [listSide, follow, sendFilter, Option.map_some, this]

theorem steps_of_listSide_eq {w w' : World} {s : Step} (hs : stepsList s = false)
    (h : w'.listSide = w.listSide) : Steps w.listSide s w'.listSide := h ▸ .other hs

theorem steps_consume {i : Nat} {w : World} {source : Source} (hs : w.hasSource i = true)
    (hi : w.remote.sources[i]? = some source) :
    Steps w.listSide (.consume i) (w.updateSource i fun s => s.takeStream.1).listSide := by
  cases ht : source.takeStream.2 with
  | ok updates =>
    obtain ⟨hst, hl⟩ := listSide_taken hs hi ht
    rw [hl]
    exact .consume hst
  | error failure => exact steps_of_listSide_eq rfl (listSide_taken_before hi ht)

theorem steps_push {i : Nat} {edits : List (Edit String)} {w : World}
    (h : w.hasSource i = true) : Steps w.listSide (.push i edits) (w.push i edits).listSide := by
  obtain ⟨stream, hs⟩ := hasSource_iff.1 h
  have ha := listSide_updateAttachment i (fun a => { a with batcher := (a.batcher.push edits).1 })
    (fun b => (b.push edits).1)
    (w.updateSource i fun s => { s with stream := s.stream.map fun updates => updates ++ [edits] })
    (fun _ => rfl) (fun _ => rfl)
  have hi : (w.remote.sources[i]?.map fun s =>
      { s with stream := s.stream.map fun updates => updates ++ [edits] }).bind Source.open? =
      some (stream.map fun updates => updates ++ [edits]) := by
    simp only [listSide, Option.bind_eq_some_iff] at hs
    obtain ⟨s, hs, ho⟩ := hs
    cases hd : s.isDropped <;> simp_all [Source.open?]
  rw [push, ha, listSide_updateSource_eq, hi]
  exact .push hs

theorem steps_dropSource (i : Nat) (w : World) :
    Steps w.listSide (.dropSource i) (w.dropSource i).listSide := by
  have ha := listSide_updateAttachment i (fun a => { a with batcher := a.batcher.finishStream })
    Batcher.finishStream
    (w.updateSource i fun s => { s with isDropped := true }) (fun _ => rfl) (fun _ => rfl)
  have hi : (w.remote.sources[i]?.map fun s => { s with isDropped := true }).bind Source.open? =
      none := by
    cases w.remote.sources[i]? <;> simp [Source.open?]
  rw [dropSource, ha, listSide_updateSource_eq, hi]
  exact .dropSource

theorem steps_dropProjection (w : World) :
    Steps w.listSide .dropProjection w.dropProjection.listSide := by
  have h : w.dropProjection.listSide =
      { w.listSide with
        isDropped := true, feed := w.listSide.feed.map fun (i, b) => (i, b.cancel) } := by
    cases ha : w.projection.attachment <;> simp [listSide, dropProjection, ha]
  rw [h]
  exact .dropProjection

theorem listSide_setLoading (i : Nat) (state : LoadingState) (w : World) :
    (w.setLoading i state).listSide = w.listSide := by
  have ha := listSide_updateAttachment i (fun a => { a with hasStatusReport := true }) id
    (w.updateSource i fun s => { s with loading := state }) (fun _ => rfl) (fun _ => rfl)
  have hs := listSide_updateSource i (fun s => { s with loading := state }) w fun _ _ => rfl
  rw [setLoading, ha, hs]
  simp [updateFeed]

theorem listSide_reportViewports (viewports : List Viewport) (w : World) :
    (w.reportViewports viewports).listSide = w.listSide := by
  unfold reportViewports
  split <;> rfl

theorem listSide_filter (filter : Filter) (w : World) :
    (w.filter filter).1.listSide = w.listSide := by
  unfold World.filter
  split
  · exact listSide_record ..
  · rfl

theorem steps_of_step (w : World) (s : Step) : Steps w.listSide s (w.step s).1.listSide := by
  have hs := stepped_of_step w s
  generalize (w.step s).1 = w', (w.step s).2 = outcome at hs
  cases hs with
  | noSource ht hn =>
    cases s with
    | push i edits =>
      cases ht
      exact .noSource (streams_eq_none hn)
    | attach i | loading i state | consume i => exact .other rfl
    | _ => cases ht
  | noProjection hu =>
    refine .other ?_
    cases s <;> first | rfl | cases hu
  | attachTaken _ _ _ hi _ ht => exact steps_of_listSide_eq rfl (listSide_taken_before hi ht)
  | attach hs _ ha hi _ ht =>
    obtain ⟨hst, hl⟩ := listSide_taken hs hi ht
    rw [listSide_follow, hl]
    exact .attach (s := w.listSide) (by simp [listSide, ha]) hst
  | push hs => exact steps_push hs
  | loading => exact steps_of_listSide_eq rfl (listSide_setLoading _ _ w)
  | consume hs hi => exact steps_consume hs hi
  | dropSource => exact steps_dropSource _ w
  | report => exact steps_of_listSide_eq rfl (listSide_reportViewports _ w)
  | filter => exact steps_of_listSide_eq rfl (listSide_filter _ w)
  | settingsChanged =>
    refine steps_of_listSide_eq rfl ?_
    split
    · rfl
    · exact listSide_requestRebuild w
  | setRoom => exact .setRoom
  | dropProjection => exact steps_dropProjection w
  | _ => exact .other rfl

end World

end LiveRooms
