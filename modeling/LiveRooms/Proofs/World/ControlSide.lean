import LiveRooms.Proofs.World.Changes
import LiveRooms.Proofs.World.Looks

/-!
# The control side of a world

Which source a projection is attached to, and the control calls that each source received.
`Moment.Controls` lists what can become of this at a moment: an attach that succeeds first, a filter
and a look of the pager bring a call to one source, and nothing else brings any.
-/

namespace LiveRooms

/-- The attached source and the control calls. -/
structure ControlSide where
  settings : FilterSettings
  source? : Option Nat
  /-- The number of sources. -/
  sources : Nat
  /-- The control calls that each source received. -/
  calls : Nat → List Call

/-- A source receives a control call, if there is such a source. -/
def ControlSide.receive (i : Nat) (call : Call) (s : ControlSide) : ControlSide :=
  { s with calls := fun j => if i = j ∧ j < s.sources then s.calls j ++ [call] else s.calls j }

namespace ControlSide

variable {s : ControlSide} {i j : Nat} {call : Call}

theorem calls_receive_self (h : i < s.sources) : (s.receive i call).calls i = s.calls i ++ [call] :=
  if_pos ⟨rfl, h⟩

theorem calls_receive_of_ne (h : j ≠ i) : (s.receive i call).calls j = s.calls j :=
  if_neg fun hij => h hij.1.symm

theorem calls_receive_of_le (h : s.sources ≤ i) : (s.receive i call).calls i = s.calls i :=
  if_neg fun hi => Nat.not_lt.2 h hi.2

end ControlSide

def Call.filter? : Call → Option RemoteFilter
  | .page _ => none
  | .setFilter filter => some filter

namespace World

/-- The control calls that a source received. -/
def calls (i : Nat) (w : World) : List Call := w.remote.sources[i]?.elim [] Source.calls

def controlSide (w : World) : ControlSide where
  settings := w.projection.config.filterSettings
  source? := w.projection.attachment.map Attachment.source
  sources := w.remote.sources.length
  calls i := w.calls i

end World

namespace Moment

/-- What a step comes to. -/
def outcome (m : Moment) : Outcome :=
  match m.cause with
  | .step s => (m.before.step s).2
  | .move _ => .nothing

/-- The source that the projection is to be attached to. -/
def attaches? (m : Moment) : Option Nat :=
  match m.cause with
  | .step (.attach i) => some i
  | _ => none

/-- The source that an attach succeeds at. -/
def succeeds? (m : Moment) : Option Nat :=
  match m.outcome with
  | .done => m.attaches?
  | _ => none

/-- The filter that is set on a projection that is there. -/
def filter? (m : Moment) : Option Filter :=
  match m.cause with
  | .step (.filter filter) => if m.before.projection.isDropped then none else some filter
  | _ => none

theorem succeeds?_eq_none {m : Moment} (h : m.attaches? = none) : m.succeeds? = none := by
  unfold succeeds?
  split
  · exact h
  · rfl

/-- What becomes of the control side at a moment. -/
inductive Controls (m : Moment) : ControlSide → Prop where
  | attach {i : Nat} : m.succeeds? = some i → m.filter? = none →
      m.before.controlSide.source? = none → i < m.before.controlSide.sources →
      m.Controls
        (({ m.before.controlSide with source? := some i }).receive i
          (.setFilter ((default : Filter).toRemote m.before.controlSide.settings)))
  | filter {i : Nat} {filter : Filter} : m.succeeds? = none → m.filter? = some filter →
      m.before.controlSide.source? = some i →
      m.Controls (m.before.controlSide.receive i
        (.setFilter (filter.toRemote m.before.controlSide.settings)))
  | page {i : Nat} {request : PageRequest} : m.succeeds? = none → m.filter? = none →
      m.before.controlSide.source? = some i →
      m.Controls (m.before.controlSide.receive i (.page request))
  | still : (m.succeeds?.isSome = true → m.before.controlSide.source?.isSome = true) →
      (m.filter?.isSome = true → m.before.controlSide.source? = none) →
      m.Controls m.before.controlSide

end Moment

namespace World

variable {w w' : World} {now i : Nat}

/-! ## Sources -/

/-- A change of a source that records no call leaves the control side as it is. -/
theorem controlSide_updateSource (i : Nat) (change : Source → Source) (w : World)
    (h : ∀ s, (change s).calls = s.calls) :
    (w.updateSource i change).controlSide = w.controlSide := by
  have hc : ∀ j, (w.updateSource i change).calls j = w.calls j := elim_updateSource_of_eq h w
  simp only [controlSide, hc]
  simp [updateSource, Remote.updateSource]

theorem controlSide_record (i : Nat) (call : Call) (w : World) :
    controlSide { w with remote := w.remote.record i call } = w.controlSide.receive i call := by
  have hc : ∀ j, calls j { w with remote := w.remote.record i call } =
      (w.controlSide.receive i call).calls j := by
    intro j
    refine (elim_updateSource Source.calls (Source.record call) w j).trans ?_
    by_cases hij : j = i
    · subst hij
      rw [if_pos rfl]
      cases hs : w.remote.sources[j]? with
      | none =>
        have hj : w.calls j = [] := by simp [calls, hs]
        exact ((ControlSide.calls_receive_of_le (List.getElem?_eq_none_iff.1 hs)).trans hj).symm
      | some source =>
        have hj : w.calls j = source.calls := by simp [calls, hs]
        have hlt : j < w.controlSide.sources := (List.getElem?_eq_some_iff.1 hs).1
        exact ((ControlSide.calls_receive_self hlt).trans (congrArg (· ++ [call]) hj)).symm
    · rw [if_neg (Ne.symm hij)]
      exact (ControlSide.calls_receive_of_ne (s := w.controlSide) hij).symm
  simp only [controlSide, hc]
  simp [Remote.record, Remote.updateSource, ControlSide.receive]

theorem controlSide_updateAttachment (i : Nat) (change : Attachment → Attachment) (w : World)
    (h : ∀ a, (change a).source = a.source) :
    (w.updateAttachment i change).controlSide = w.controlSide := by
  unfold updateAttachment
  split
  · rename_i a ha
    split
    · simp [controlSide, ha, h, calls]
    · rfl
  · rfl

theorem controlSide_requestRebuild (p : Projection) (remote : Remote) :
    controlSide ⟨remote, p.requestRebuild⟩ = controlSide ⟨remote, p⟩ := by
  unfold Projection.requestRebuild
  split <;> rfl

theorem controlSide_eq {p : Projection}
    (hs : p.attachment.map Attachment.source = w.projection.attachment.map Attachment.source)
    (hc : p.config = w.projection.config) : controlSide ⟨w.remote, p⟩ = w.controlSide := by
  simp only [controlSide, hs, hc]
  rfl

/-! ## Moments -/

theorem controls_look (now : Nat) (w : World) :
    Moment.Controls ⟨now, w, .move .lookAtViewport⟩ w.decideAtLook.controlSide := by
  have hstill : Moment.Controls ⟨now, w, .move .lookAtViewport⟩ w.controlSide :=
    .still (fun h => by cases h) (fun h => by cases h)
  unfold decideAtLook decidePages
  split
  · split
    · rename_i a request ha hr
      rw [controlSide_record]
      exact .page rfl rfl (by simp [controlSide, ha])
    · exact hstill
  · exact hstill

theorem controls_move {move : Move} (h : w.move? now move = some w') :
    Moment.Controls ⟨now, w, .move move⟩ w'.controlSide := by
  have hstill {s : ControlSide} (hs : s = w.controlSide) :
      Moment.Controls ⟨now, w, .move move⟩ s :=
    hs ▸ .still (fun h => by cases h) (fun h => by cases h)
  cases moved_of_move? h with
  | applyBatch _ ha _ | batch ha _ | stopStatus ha _ _ | followStatus ha _ _ _ =>
    exact hstill (controlSide_eq (by rw [ha]; rfl) rfl)
  | lookAtViewport _ => exact controls_look now w
  | readNotice _ _ =>
    refine hstill ?_
    split
    · rw [controlSide_requestRebuild]
      rfl
    · rfl
  | _ => exact hstill rfl

theorem controlSide_follow (loading : LoadingState) (updates : List (List (Edit String)))
    (w : World) :
    (w.follow i loading updates).controlSide =
      ({ w.controlSide with source? := some i }).receive i
        (.setFilter ((default : Filter).toRemote w.controlSide.settings)) := by
  have h : (w.follow i loading updates).controlSide =
      { controlSide { w with
          remote := w.remote.record i
            (.setFilter ((default : Filter).toRemote w.projection.config.filterSettings)) } with
        source? := some i } := rfl
  rw [h, controlSide_record]
  rfl

theorem controls_filter (now : Nat) (filter : Filter) (hd : w.projection.isDropped = false) :
    Moment.Controls ⟨now, w, .step (.filter filter)⟩ (w.filter filter).1.controlSide := by
  have hs : Moment.succeeds? ⟨now, w, .step (.filter filter)⟩ = none :=
    Moment.succeeds?_eq_none rfl
  have hf : Moment.filter? ⟨now, w, .step (.filter filter)⟩ = some filter := by
    simp [Moment.filter?, hd]
  unfold World.filter
  split
  · rename_i a ha
    have hc := controlSide_record a.source
      (.setFilter (filter.toRemote w.projection.config.filterSettings)) w
    exact hc ▸ .filter hs hf (by simp [controlSide, ha])
  · rename_i ha
    exact .still (fun h => by simp [hs] at h) fun _ => by simp [controlSide, ha]

theorem controls_step (w : World) (now : Nat) (step : Step) :
    Moment.Controls ⟨now, w, .step step⟩ (w.step step).1.controlSide := by
  have hs := stepped_of_step w step
  have hfailed (h : ∀ i, step = .attach i → (w.step step).2 ≠ .done) :
      Moment.succeeds? ⟨now, w, .step step⟩ = none := by
    unfold Moment.succeeds?
    split
    · rename_i ho
      cases step with
      | attach i => exact absurd ho (h i rfl)
      | _ => rfl
    · rfl
  -- what neither attaches nor sets a filter
  have hstill {s : ControlSide} (ha : ∀ i, step = .attach i → (w.step step).2 ≠ .done)
      (hf : Moment.filter? ⟨now, w, .step step⟩ = none) (hc : s = w.controlSide) :
      Moment.Controls ⟨now, w, .step step⟩ s :=
    hc ▸ .still (fun h => by simp [hfailed ha] at h) (fun h => by simp [hf] at h)
  generalize (w.step step).1 = w', ho : (w.step step).2 = outcome at hs hstill
  cases hs with
  | noSource ht _ =>
    refine hstill (fun _ _ h => by cases h) ?_ rfl
    cases step with
    | filter filter => cases ht
    | _ => rfl
  | noProjection _ hd _ =>
    refine hstill (fun _ _ h => by cases h) ?_ rfl
    cases step <;> simp [Moment.filter?, hd]
  | attachAgain _ _ ha =>
    exact .still (fun _ => by simpa [controlSide] using ha) (fun h => by cases h)
  | attachUnreadable => exact hstill (fun _ _ h => by cases h) rfl rfl
  | attachTaken =>
    exact hstill (fun _ _ h => by cases h) rfl (controlSide_updateSource _ _ w calls_takeStream)
  | @attach i source loading updates _ _ ha hi _ _ =>
    have hlt : i < w.remote.sources.length := (List.getElem?_eq_some_iff.1 hi).1
    rw [controlSide_follow, controlSide_updateSource _ _ w calls_takeStream]
    refine .attach ?_ rfl (by simp [controlSide, ha]) hlt
    simp [Moment.succeeds?, Moment.outcome, ho, Moment.attaches?]
  | push _ | loading _ | dropSource =>
    refine hstill (fun _ h => by cases h) rfl ((controlSide_updateAttachment _ _ _ ?_).trans
      (controlSide_updateSource _ _ w ?_)) <;> exact fun _ => rfl
  | consume =>
    exact hstill (fun _ h => by cases h) rfl (controlSide_updateSource _ _ w calls_takeStream)
  | report _ =>
    refine hstill (fun _ h => by cases h) rfl ?_
    unfold reportViewports
    split <;> rfl
  | filter hd => exact controls_filter now _ hd
  | settingsChanged _ =>
    refine hstill (fun _ h => by cases h) rfl ?_
    split
    · rfl
    · rw [controlSide_requestRebuild]
  | dropProjection =>
    refine hstill (fun _ h => by cases h) rfl (controlSide_eq ?_ rfl)
    rw [Option.map_map]
    rfl
  | _ => exact hstill (fun _ h => by cases h) rfl rfl

theorem controls_of_happens {m : Moment} (h : m.Happens) : m.Controls m.after.controlSide :=
  h.elim (Q := fun m w => m.Controls w.controlSide) (fun time w s => controls_step w time s)
    fun _ _ _ _ hw => controls_move hw

end World

end LiveRooms
