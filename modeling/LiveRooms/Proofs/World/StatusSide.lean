import LiveRooms.Proofs.World.Looks
import Mathlib.Logic.Function.Basic

/-!
# The status side of a world

The shown status depends on the loading states of the sources, on which source is followed, and on
whether a report of that source is still to be read.  `World.statusSide` is this part of a world.
`Moment.Informs` lists what can become of it at a moment: an attach shows the loading state that it
finds, a report waits until it is read, and whoever reads it shows what the source says then.
-/

namespace LiveRooms

/-- The loading state of a source, and whether the source is gone. -/
structure Progress where
  state : LoadingState
  isGone : Bool
  deriving DecidableEq, Repr

def Source.progress (s : Source) : Progress := ⟨s.loading, s.isDropped⟩

/-- How the loading state of a source is followed. -/
structure Watch where
  source : Nat
  /-- A report was not read. -/
  hasReport : Bool
  isFollowed : Bool
  deriving DecidableEq, Repr

def Attachment.watch (a : Attachment) : Watch := ⟨a.source, a.hasStatusReport, a.followsStatus⟩

/-- The part of a world that the shown status depends on. -/
structure StatusSide where
  status : ListStatus
  watch : Option Watch
  /-- The sources. -/
  progress : Nat → Option Progress
  isDropped : Bool

namespace StatusSide

/-- The progress of a source is replaced. -/
def setProgress (i : Nat) (progress : Option Progress) (s : StatusSide) : StatusSide :=
  { s with progress := Function.update s.progress i progress }

/-- A report reaches whoever follows the source. -/
def report (i : Nat) (s : StatusSide) : StatusSide :=
  { s with watch := s.watch.map fun a => if a.source = i then { a with hasReport := true } else a }

variable {s : StatusSide} {i j : Nat} {progress : Option Progress}

@[simp] theorem progress_setProgress_self (i : Nat) (progress : Option Progress) (s : StatusSide) :
    (s.setProgress i progress).progress i = progress := Function.update_self ..

theorem progress_setProgress_of_ne (h : j ≠ i) (progress : Option Progress) (s : StatusSide) :
    (s.setProgress i progress).progress j = s.progress j := Function.update_of_ne h ..

theorem setProgress_eq_self (i : Nat) (s : StatusSide) : s.setProgress i (s.progress i) = s := by
  rw [setProgress, Function.update_eq_self]

end StatusSide

def World.statusSide (w : World) : StatusSide where
  status := w.projection.status.value
  watch := w.projection.attachment.map Attachment.watch
  progress i := w.remote.sources[i]?.map Source.progress
  isDropped := w.projection.isDropped

namespace Moment

/-- The loading state that a source reports, if it is there. -/
def loads? (i : Nat) (m : Moment) : Option LoadingState :=
  match m.cause with
  | .step (.loading j state) => if j = i ∧ m.before.hasSource j then some state else none
  | _ => none

/-- No source reports a loading state. -/
def IsSilent (m : Moment) : Prop := ∀ i, m.loads? i = none

/-- What becomes of the status side at a moment. -/
inductive Informs (m : Moment) : StatusSide → Prop where
  | attach {i : Nat} {state : LoadingState} : m.IsSilent → m.before.statusSide.watch = none →
      m.before.statusSide.progress i = some ⟨state, false⟩ →
      m.Informs { m.before.statusSide with status := state.status, watch := some ⟨i, false, true⟩ }
  | loading {i : Nat} {state old : LoadingState} : m.loads? i = some state →
      (∀ j, j ≠ i → m.loads? j = none) →
      m.before.statusSide.progress i = some ⟨old, false⟩ →
      m.Informs ((m.before.statusSide.setProgress i (some ⟨state, false⟩)).report i)
  | dropSource {i : Nat} : m.IsSilent →
      m.Informs (m.before.statusSide.setProgress i
        ((m.before.statusSide.progress i).map fun p => { p with isGone := true }))
  | read {a : Watch} {p : Progress} : m.IsSilent → m.before.statusSide.watch = some a →
      m.before.statusSide.progress a.source = some p →
      m.Informs { m.before.statusSide with
        status := p.state.status, watch := some { a with hasReport := false } }
  | stop {a : Watch} : m.IsSilent → m.before.statusSide.watch = some a →
      (m.before.statusSide.isDropped = false → a.hasReport = false ∧
        ∀ p, m.before.statusSide.progress a.source = some p → p.isGone = true) →
      m.Informs { m.before.statusSide with watch := some { a with isFollowed := false } }
  | dropProjection : m.IsSilent → m.Informs { m.before.statusSide with isDropped := true }
  | still : m.IsSilent → m.Informs m.before.statusSide

end Moment

namespace World

variable {w w' : World} {now i : Nat}

/-! ## Sources and the attachment -/

theorem statusSide_updateSource (i : Nat) (change : Source → Source) (w : World) :
    (w.updateSource i change).statusSide = w.statusSide.setProgress i
      (w.remote.sources[i]?.map fun s => (change s).progress) := by
  simp only [statusSide, updateSource, Remote.updateSource, StatusSide.setProgress,
    StatusSide.mk.injEq, true_and, and_true]
  funext j
  rw [List.getElem?_modify, Function.update_apply]
  by_cases hij : i = j
  · subst hij
    cases w.remote.sources[i]? <;> simp
  · simp [hij, Ne.symm hij]

/-- A change of a source that leaves its loading state as it is. -/
theorem statusSide_updateSource_of_eq {change : Source → Source}
    (h : ∀ s, (change s).progress = s.progress) (i : Nat) (w : World) :
    (w.updateSource i change).statusSide = w.statusSide := by
  have hp : (w.remote.sources[i]?.map fun s => (change s).progress) = w.statusSide.progress i := by
    simp only [h]
    rfl
  rw [statusSide_updateSource, hp, StatusSide.setProgress_eq_self]

theorem statusSide_record (i : Nat) (call : Call) (w : World) :
    statusSide { w with remote := w.remote.record i call } = w.statusSide := by
  have h : ∀ s, (Source.record call s).progress = s.progress := fun _ => rfl
  exact statusSide_updateSource_of_eq h i w

theorem progress_takeStream (s : Source) : s.takeStream.1.progress = s.progress := by
  unfold Source.takeStream
  split <;> rfl

theorem statusSide_updateAttachment {change : Attachment → Attachment}
    (h : ∀ a, (change a).watch = a.watch) (i : Nat) (w : World) :
    (w.updateAttachment i change).statusSide = w.statusSide := by
  unfold updateAttachment
  split
  · rename_i a ha
    split
    · simp [statusSide, ha, h]
    · rfl
  · rfl

theorem statusSide_reportStatus (i : Nat) (w : World) :
    (w.updateAttachment i fun a => { a with hasStatusReport := true }).statusSide =
      w.statusSide.report i := by
  unfold updateAttachment
  split
  · rename_i a ha
    split
    · rename_i hi
      simp [statusSide, StatusSide.report, ha, Attachment.watch, hi]
    · rename_i hi
      simp [statusSide, StatusSide.report, ha, Attachment.watch, hi]
  · rename_i ha
    simp [statusSide, StatusSide.report, ha]

theorem statusSide_requestRebuild (p : Projection) (remote : Remote) :
    statusSide ⟨remote, p.requestRebuild⟩ = statusSide ⟨remote, p⟩ := by
  unfold Projection.requestRebuild
  split <;> rfl

theorem statusSide_decideAtLook (w : World) : w.decideAtLook.statusSide = w.statusSide := by
  unfold decideAtLook decidePages
  split
  · split
    · exact statusSide_record ..
    · rfl
  · rfl

/-! ## Moments -/

theorem informs_move {move : Move} (h : w.move? now move = some w') :
    Moment.Informs ⟨now, w, .move move⟩ w'.statusSide := by
  have hstill {s : StatusSide} (hs : s = w.statusSide) :
      Moment.Informs ⟨now, w, .move move⟩ s := hs ▸ .still fun _ => rfl
  cases moved_of_move? h with
  | applyBatch _ ha _ | batch ha _ =>
    exact hstill (by simp [statusSide, ha, Attachment.watch, Projection.publish])
  | @followStatus a status ha _ _ hs =>
    obtain ⟨source, hsource, rfl⟩ := Option.map_eq_some_iff.1 hs
    have hw : w.statusSide.watch = some a.watch := by simp [statusSide, ha]
    have hp : w.statusSide.progress a.watch.source = some source.progress := by
      simp [statusSide, Attachment.watch, hsource]
    show Moment.Informs _ { w.statusSide with
      status := source.progress.state.status, watch := some { a.watch with hasReport := false } }
    exact .read (fun _ => rfl) hw hp
  | @stopStatus a ha _ hs =>
    have hw : w.statusSide.watch = some a.watch := by simp [statusSide, ha]
    show Moment.Informs _ { w.statusSide with watch := some { a.watch with isFollowed := false } }
    refine .stop (fun _ => rfl) hw fun hd => ?_
    have hd' : w.projection.isDropped = false := hd
    simp only [hd', Bool.false_or, Bool.and_eq_true, Bool.not_eq_true'] at hs
    refine ⟨hs.2, fun p hp => ?_⟩
    obtain ⟨source, hsource, rfl⟩ := Option.map_eq_some_iff.1 hp
    have hsource : w.remote.sources[a.source]? = some source := hsource
    show source.isDropped = true
    simpa [sourceIsGone, hsource] using hs.1
  | lookAtViewport _ => exact hstill (statusSide_decideAtLook w)
  | readNotice _ _ =>
    refine hstill ?_
    split
    · rw [statusSide_requestRebuild]
      rfl
    · rfl
  | _ => exact hstill rfl

theorem informs_loading (now : Nat) (state : LoadingState) (hs : w.hasSource i = true) :
    Moment.Informs ⟨now, w, .step (.loading i state)⟩ (w.setLoading i state).statusSide := by
  obtain ⟨source, hsource, hd⟩ := exists_source_of_hasSource hs
  have hp : w.statusSide.progress i = some ⟨source.loading, false⟩ := by
    simp [statusSide, hsource, Source.progress, hd]
  have hl (j : Nat) : Moment.loads? j ⟨now, w, .step (.loading i state)⟩ =
      if i = j then some state else none := by simp [Moment.loads?, hs]
  rw [setLoading, statusSide_reportStatus, statusSide_updateSource, hsource]
  simp only [Option.map_some, Source.progress, hd]
  exact .loading ((hl i).trans (if_pos rfl)) (fun j hj => (hl j).trans (if_neg (Ne.symm hj))) hp

theorem informs_attach (now : Nat) {source : Source} {loading : LoadingState}
    (updates : List (List (Edit String))) (hs : w.hasSource i = true)
    (ha : w.projection.attachment = none) (hi : w.remote.sources[i]? = some source)
    (hl : source.loadingState = .ok loading) :
    Moment.Informs ⟨now, w, .step (.attach i)⟩
      ((w.updateSource i fun s => s.takeStream.1).follow i loading updates).statusSide := by
  have hd : source.isDropped = false := by simpa [hasSource, hi] using hs
  have hstate : source.loading = loading := by
    unfold Source.loadingState at hl
    split at hl <;> cases hl
    rfl
  have hp : w.statusSide.progress i = some ⟨loading, false⟩ := by
    simp [statusSide, hi, Source.progress, hd, hstate]
  have hw : w.statusSide.watch = none := by simp [statusSide, ha]
  have he : ((w.updateSource i fun s => s.takeStream.1).follow i loading updates).statusSide =
      { w.statusSide with status := loading.status, watch := some ⟨i, false, true⟩ } := by
    have hr := (statusSide_record i
      (.setFilter ((default : Filter).toRemote w.projection.config.filterSettings))
      (w.updateSource i fun s => s.takeStream.1)).trans
      (statusSide_updateSource_of_eq progress_takeStream i w)
    exact congrArg (fun s : StatusSide =>
      { s with status := loading.status, watch := some ⟨i, false, true⟩ }) hr
  exact he ▸ .attach (fun _ => rfl) hw hp

theorem informs_step (w : World) (now : Nat) (step : Step) :
    Moment.Informs ⟨now, w, .step step⟩ (w.step step).1.statusSide := by
  have hs := stepped_of_step w step
  generalize (w.step step).1 = w', (w.step step).2 = outcome at hs
  have hstill {s : StatusSide} (hn : ∀ i state, step = .loading i state → w.hasSource i = false)
      (he : s = w.statusSide) : Moment.Informs ⟨now, w, .step step⟩ s := by
    refine he ▸ .still fun i => ?_
    cases step with
    | loading j state => simp [Moment.loads?, hn j state rfl]
    | _ => rfl
  cases hs with
  | noSource ht hn =>
    refine hstill (fun i state he => ?_) rfl
    subst he
    cases ht
    exact hn
  | noProjection hu =>
    refine hstill (fun i state he => ?_) rfl
    subst he
    cases hu
  | attachTaken | consume =>
    exact hstill (fun _ _ h => by cases h) (statusSide_updateSource_of_eq progress_takeStream _ w)
  | attach hs _ ha hi hl _ => exact informs_attach now _ hs ha hi hl
  | push _ =>
    refine hstill (fun _ _ h => by cases h) ((statusSide_updateAttachment ?_ _ _).trans
      (statusSide_updateSource_of_eq ?_ _ w)) <;> exact fun _ => rfl
  | loading hs => exact informs_loading now _ hs
  | @dropSource i =>
    have he : (w.dropSource i).statusSide = w.statusSide.setProgress i
        ((w.statusSide.progress i).map fun p => { p with isGone := true }) := by
      rw [World.dropSource, statusSide_updateAttachment, statusSide_updateSource]
      · simp [statusSide, Source.progress, Function.comp_def]
      · exact fun _ => rfl
    exact he ▸ .dropSource fun _ => rfl
  | report _ =>
    refine hstill (fun _ _ h => by cases h) ?_
    unfold reportViewports
    split <;> rfl
  | filter _ =>
    refine hstill (fun _ _ h => by cases h) ?_
    unfold World.filter
    split
    · exact statusSide_record ..
    · rfl
  | settingsChanged _ =>
    refine hstill (fun _ _ h => by cases h) ?_
    split
    · rfl
    · rw [statusSide_requestRebuild]
  | dropProjection =>
    have hw : (w.projection.attachment.map fun a =>
        { a with batcher := a.batcher.cancel }).map Attachment.watch = w.statusSide.watch := by
      rw [Option.map_map]
      rfl
    have he : w.dropProjection.statusSide = { w.statusSide with isDropped := true } :=
      congrArg (fun watch => { w.statusSide with watch, isDropped := true }) hw
    exact he ▸ .dropProjection fun _ => rfl
  | _ => exact hstill (fun _ _ h => by cases h) rfl

theorem informs_of_happens {m : Moment} (h : m.Happens) : m.Informs m.after.statusSide :=
  h.elim (Q := fun m w => m.Informs w.statusSide) (fun time w s => informs_step w time s)
    fun _ _ _ _ hw => informs_move hw

end World

end LiveRooms
