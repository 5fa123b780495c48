import LiveRooms.Proofs.World.ControlSide

/-!
# Attaching once

The first attach that succeeds decides which source is followed (`attachedTo?`).  Before it, an
attach that fails counts the question for the stream at most and leaves everything else as it was,
and a filter reaches nobody; after it, an attach changes nothing.  The followed source receives the
default filter when it is attached to, and then the filters that are set, in order
(`FiltersSince`); the other sources receive nothing.
-/

namespace LiveRooms

/-- Why a source cannot be followed, if it cannot. -/
def Source.refusal? (s : Source) : Option Failure :=
  match s.loadingState, s.takeStream.2 with
  | .error failure, _ => some failure
  | .ok _, .error failure => some failure
  | .ok _, .ok _ => none

/-- A source that could not be followed.  It was asked for its stream if its loading state could be
read, and keeps the stream. -/
def Source.refused (s : Source) : Source :=
  if s.failsLoading then s else { s with entriesCalls := s.entriesCalls + 1 }

/-- Nothing is known of a list. -/
def Projection.IsBlank (p : Projection) : Prop :=
  p.status.value = .notLoaded ∧ p.store.entries = [] ∧ p.published.value = []

/-- Without an attachment nothing is known of a list. -/
def Projection.StartsBlank (p : Projection) : Prop := p.attachment = none → p.IsBlank

/-- The source at which an attach succeeded first. -/
def attachedTo? (log : List Moment) : Option Nat := (log.filterMap Moment.succeeds?).head?

/-- How a moment after `early` attaches and sets filters. -/
structure Attaches (config : Config) (early : List Moment) (m : Moment) : Prop where
  first (i : Nat) (source : Source) : m.cause = .step (.attach i) →
    m.before.remote.sources[i]? = some source → source.isDropped = false →
    m.before.projection.isDropped = false → attachedTo? early = none →
    m.outcome = source.refusal?.elim .done .failed ∧
      (source.refusal?.isSome = true → m.after = m.before.updateSource i Source.refused)
  again (i : Nat) : m.cause = .step (.attach i) → m.before.hasSource i = true →
    m.before.projection.isDropped = false → (attachedTo? early).isSome = true →
    m.outcome = .done ∧ m.after = m.before
  unset (filter : Filter) : m.cause = .step (.filter filter) →
    m.before.projection.isDropped = false → attachedTo? early = none →
    m.outcome = .answered false ∧ m.after = m.before
  set (filter : Filter) (i : Nat) : m.cause = .step (.filter filter) →
    m.before.projection.isDropped = false → attachedTo? early = some i →
    ∃ source, m.before.remote.sources[i]? = some source ∧
      m.outcome = .answered (!source.rejectsFilters) ∧
      m.after = { m.before with
        remote := m.before.remote.record i (.setFilter (filter.toRemote config.filterSettings)) }

/-- A source that received some calls received, with the attach and since, the default filter first
and then the filters that were set, among requests for pages. -/
def FiltersSince (settings : FilterSettings) (before calls : List Call) (late : List Moment) :
    Prop :=
  ∃ rest, calls = before ++ .setFilter ((default : Filter).toRemote settings) :: rest ∧
    rest.filterMap Call.filter? = (late.filterMap Moment.filter?).map fun f => f.toRemote settings

section

variable {log early late : List Moment} {m a : Moment} {i : Nat} {settings : FilterSettings}
  {before calls : List Call}

theorem attachedTo?_snoc (log : List Moment) (m : Moment) :
    attachedTo? (log ++ [m]) = (attachedTo? log).or m.succeeds? := by
  cases h : m.succeeds? <;> simp [attachedTo?, List.filterMap_append, List.head?_append, h]

theorem attachedTo?_of_succeeds? (hn : attachedTo? early = none) (ha : a.succeeds? = some i) :
    attachedTo? (early ++ a :: late) = some i := by
  have hn' : early.filterMap Moment.succeeds? = [] := List.head?_eq_none_iff.1 hn
  simp [attachedTo?, List.filterMap_append, hn', ha]

theorem FiltersSince.snoc (h : FiltersSince settings before calls late) {new : List Call}
    (hn : new.filterMap Call.filter? = m.filter?.toList.map fun f => f.toRemote settings) :
    FiltersSince settings before (calls ++ new) (late ++ [m]) := by
  obtain ⟨rest, rfl, hr⟩ := h
  refine ⟨rest ++ new, by simp, ?_⟩
  rw [List.filterMap_append, hr, hn, List.filterMap_append, List.map_append]
  cases hm : m.filter? <;> simp [hm]

end

/-- The control side after the moments of a log. -/
structure Commands (config : Config) (calls : Nat → List Call) (log : List Moment)
    (s : ControlSide) : Prop where
  settings_eq : s.settings = config.filterSettings
  source?_eq : s.source? = attachedTo? log
  lt (i : Nat) : attachedTo? log = some i → i < s.sources
  other (j : Nat) : attachedTo? log ≠ some j → s.calls j = calls j
  since (i : Nat) (early : List Moment) (a : Moment) (late : List Moment) :
    log = early ++ a :: late → attachedTo? early = none → a.succeeds? = some i →
    FiltersSince config.filterSettings (calls i) (s.calls i) late

section

variable {config : Config} {calls : Nat → List Call} {log : List Moment} {m : Moment}
  {s s' : ControlSide} {i : Nat}

/-- After the attach the followed source alone receives calls. -/
theorem Commands.snoc (h : Commands config calls log s)
    (ha : attachedTo? (log ++ [m]) = attachedTo? log)
    (hs : s'.settings = s.settings ∧ s'.source? = s.source? ∧ s'.sources = s.sources)
    (hother : ∀ j, attachedTo? log ≠ some j → s'.calls j = s.calls j)
    (hnew : ∀ i, attachedTo? log = some i → ∃ new, s'.calls i = s.calls i ++ new ∧
      new.filterMap Call.filter? =
        m.filter?.toList.map fun f => f.toRemote config.filterSettings) :
    Commands config calls (log ++ [m]) s' where
  settings_eq := hs.1.trans h.settings_eq
  source?_eq := hs.2.1.trans (h.source?_eq.trans ha.symm)
  lt i hi := hs.2.2 ▸ h.lt i (ha ▸ hi)
  other j hj := (hother j (ha ▸ hj)).trans (h.other j (ha ▸ hj))
  since i early a late he hn hi := by
    rcases snoc_eq_append_cons he with ⟨rfl, rfl, rfl⟩ | ⟨late', rfl, rfl⟩
    · rw [attachedTo?_snoc, hn, hi] at ha
      cases ha
    · obtain ⟨new, hc, hf⟩ := hnew i (attachedTo?_of_succeeds? hn hi)
      rw [hc]
      exact (h.since i early a late' rfl hn hi).snoc hf

theorem Commands.receive (h : Commands config calls log s) (hm : m.succeeds? = none)
    (hi : s.source? = some i) {call : Call}
    (hf : call.filter? = m.filter?.map fun f => f.toRemote config.filterSettings) :
    Commands config calls (log ++ [m]) (s.receive i call) := by
  rw [h.source?_eq] at hi
  refine h.snoc ?_ ⟨rfl, rfl, rfl⟩ (fun j hj => ?_) fun j hj => ⟨[call], ?_, ?_⟩
  · rw [attachedTo?_snoc, hm, Option.or_none]
  · refine ControlSide.calls_receive_of_ne fun hji => hj ?_
    rw [hi, hji]
  · obtain rfl := Option.some.inj (hi.symm.trans hj)
    exact ControlSide.calls_receive_self (h.lt i hi)
  · cases hm : m.filter? <;> simp [hf, hm]

theorem Commands.controls (h : Commands config calls log m.before.controlSide)
    (hm : m.Controls m.after.controlSide) :
    Commands config calls (log ++ [m]) m.after.controlSide := by
  generalize m.after.controlSide = s' at hm
  cases hm with
  | @attach i hs hf hn hlt =>
    rw [h.source?_eq] at hn
    rw [h.settings_eq]
    have ha : attachedTo? (log ++ [m]) = some i := by rw [attachedTo?_snoc, hn, hs]; rfl
    refine ⟨h.settings_eq, ha.symm, fun j hj => ?_, fun j hj => ?_,
      fun j early a late he hn' hj => ?_⟩
    · obtain rfl := Option.some.inj (ha.symm.trans hj)
      exact hlt
    · refine (ControlSide.calls_receive_of_ne fun hji => hj ?_).trans (h.other j (by simp [hn]))
      rw [ha, hji]
    · rcases snoc_eq_append_cons he with ⟨rfl, rfl, rfl⟩ | ⟨late', rfl, rfl⟩
      · obtain rfl := Option.some.inj (hs.symm.trans hj)
        refine ⟨[], (ControlSide.calls_receive_self hlt).trans ?_, rfl⟩
        exact congrArg (· ++ _) (h.other i (by simp [hn]))
      · rw [attachedTo?_of_succeeds? hn' hj] at hn
        cases hn
  | filter hs hf hi =>
    rw [h.settings_eq]
    exact h.receive hs hi (by rw [hf]; rfl)
  | page hs hf hi => exact h.receive hs hi (by rw [hf]; rfl)
  | still hs hf =>
    rw [h.source?_eq] at hs hf
    refine h.snoc ?_ ⟨rfl, rfl, rfl⟩ (fun _ _ => rfl) fun j hj => ⟨[], by simp, ?_⟩
    · rw [attachedTo?_snoc]
      cases ha : attachedTo? log with
      | some i => rfl
      | none =>
        cases hm : m.succeeds? with
        | none => rfl
        | some i => simp [ha, hm] at hs
    · cases hm : m.filter? with
      | none => rfl
      | some filter => simp [hj, hm] at hf

end

/-! ## Before the attach -/

theorem Projection.startsBlank_requestRebuild {p : Projection} (h : p.StartsBlank) :
    p.requestRebuild.StartsBlank := by
  unfold requestRebuild
  split <;> exact h

namespace World

variable {w w' : World} {now i : Nat}

theorem startsBlank_updateAttachment (change : Attachment → Attachment)
    (h : w.projection.StartsBlank) : (w.updateAttachment i change).projection.StartsBlank := by
  unfold updateAttachment
  split
  · split
    · exact fun hn => by cases hn
    · exact h
  · exact h

theorem startsBlank_move {move : Move} (h : w.move? now move = some w')
    (ih : w.projection.StartsBlank) : w'.projection.StartsBlank := by
  cases moved_of_move? h with
  | applyBatch | batch | stopStatus | followStatus => exact fun hn => by cases hn
  | rebuild =>
    intro hn
    obtain ⟨hs, he, -⟩ := ih hn
    have hr : w.remote.directory.rebuild w.projection.store.entries = [] := by
      rw [he]
      rfl
    rw [hr]
    exact ⟨hs, rfl, rfl⟩
  | lookAtViewport =>
    simp only [setPager, projection_decideAtLook]
    exact ih
  | readNotice =>
    split
    · exact Projection.startsBlank_requestRebuild ih
    · exact ih
  | _ => exact ih

theorem startsBlank_step (step : Step) (ih : w.projection.StartsBlank) :
    (w.step step).1.projection.StartsBlank := by
  have hs := stepped_of_step w step
  generalize (w.step step).1 = w', (w.step step).2 = outcome at hs
  cases hs with
  | attach => exact fun hn => by cases hn
  | push | loading | dropSource => exact startsBlank_updateAttachment _ ih
  | report =>
    unfold reportViewports
    split <;> exact ih
  | filter =>
    unfold World.filter
    split <;> exact ih
  | settingsChanged =>
    split
    · exact ih
    · exact Projection.startsBlank_requestRebuild ih
  | dropProjection => exact fun hn => ih (Option.map_eq_none_iff.1 hn)
  | _ => exact ih

variable {config : Config} {sources : List Source} {directory : Directory} {log : List Moment}
  {t : Timeline World}

theorem startsBlank_of_happens {m : Moment} (h : m.Happens)
    (ih : m.before.projection.StartsBlank) : m.after.projection.StartsBlank :=
  h.elim (Q := fun m w => m.before.projection.StartsBlank → w.projection.StartsBlank)
    (fun _ _ s => startsBlank_step s) (fun _ _ _ _ hw => startsBlank_move hw) ih

theorem startsBlank_of_course (hc : Course (origin config sources directory) log t) :
    t.state.projection.StartsBlank :=
  hc.moment_induction (P := fun _ w => w.projection.StartsBlank) (fun _ => ⟨rfl, rfl, rfl⟩)
    fun _ _ _ hm ih => startsBlank_of_happens hm ih

theorem commands_of_course (hc : Course (origin config sources directory) log t) :
    Commands config (fun i => (new config sources directory).calls i) log t.state.controlSide :=
  hc.moment_induction (P := fun log w => Commands config _ log w.controlSide)
    ⟨rfl, rfl, (fun _ h => by cases h), fun _ _ => rfl, by simp⟩
    fun _ _ _ hm h => h.controls (controls_of_happens hm)

/-! ## At a moment -/

theorem updateSource_congr {source : Source} {change change' : Source → Source}
    (hi : w.remote.sources[i]? = some source) (h : change source = change' source) :
    w.updateSource i change = w.updateSource i change' := by
  have hm : w.remote.sources.modify i change = w.remote.sources.modify i change' := by
    apply List.ext_getElem?
    intro j
    rw [List.getElem?_modify, List.getElem?_modify]
    by_cases hij : i = j
    · subst hij
      simp [hi, h]
    · simp [hij]
  simp only [updateSource, Remote.updateSource, hm]

/-- An attach before the first that succeeds comes to what the source has it come to. -/
theorem step_attach_first {source : Source} (hi : w.remote.sources[i]? = some source)
    (hs : source.isDropped = false) (hd : w.projection.isDropped = false)
    (ha : w.projection.attachment = none) :
    (w.step (.attach i)).2 = source.refusal?.elim .done .failed ∧
      (source.refusal?.isSome = true →
        (w.step (.attach i)).1 = w.updateSource i Source.refused) := by
  have hstep := stepped_of_step w (.attach i)
  generalize (w.step (.attach i)).1 = w', (w.step (.attach i)).2 = outcome at hstep ⊢
  cases hstep with
  | noSource ht hn =>
    cases ht
    simp [hasSource, hi, hs] at hn
  | noProjection _ hd' _ => simp [hd] at hd'
  | attachAgain _ _ ha' => simp [ha] at ha'
  | attachUnreadable _ _ _ hi' hl =>
    obtain rfl := Option.some.inj (hi.symm.trans hi')
    refine ⟨by simp [Source.refusal?, hl], fun _ => ?_⟩
    have hf : source.failsLoading = true := by
      by_contra hf
      simp [Source.loadingState, hf] at hl
    have hid : w.updateSource i id = w := by
      simp [updateSource, Remote.updateSource, List.modify_id]
    have hr : w.updateSource i Source.refused = w.updateSource i id :=
      updateSource_congr hi (if_pos hf)
    rw [hr, hid]
  | attachTaken _ _ _ hi' hl ht =>
    obtain rfl := Option.some.inj (hi.symm.trans hi')
    refine ⟨by simp [Source.refusal?, hl, ht], fun _ => updateSource_congr hi ?_⟩
    have hf : source.failsLoading = false := by
      refine Bool.eq_false_iff.2 fun hf => ?_
      simp [Source.loadingState, hf] at hl
    cases hst : source.stream with
    | none => simp [Source.takeStream, Source.refused, hst, hf]
    | some updates => simp [Source.takeStream, hst] at ht
  | attach _ _ _ hi' hl ht =>
    obtain rfl := Option.some.inj (hi.symm.trans hi')
    have hr : source.refusal? = none := by simp [Source.refusal?, hl, ht]
    rw [hr]
    exact ⟨rfl, fun h => by cases h⟩

theorem step_attach_again (hs : w.hasSource i = true) (hd : w.projection.isDropped = false)
    (ha : w.projection.attachment.isSome = true) : w.step (.attach i) = (w, .done) := by
  simp [step, atSource, hs, atProjection, hd, World.attach, ha]

theorem step_filter_unset (filter : Filter) (hd : w.projection.isDropped = false)
    (ha : w.projection.attachment = none) : w.step (.filter filter) = (w, .answered false) := by
  simp [step, atProjection, hd, World.filter, ha]

theorem step_filter_set {source : Source} {a : Attachment} (filter : Filter)
    (hd : w.projection.isDropped = false) (ha : w.projection.attachment = some a)
    (hi : w.remote.sources[a.source]? = some source) :
    w.step (.filter filter) =
      ({ w with
          remote := w.remote.record a.source
            (.setFilter (filter.toRemote w.projection.config.filterSettings)) },
        .answered !source.rejectsFilters) := by
  simp [step, atProjection, hd, World.filter, ha, sendFilter, hi]

theorem attaches_of_commands {m : Moment} {calls : Nat → List Call}
    (h : Commands config calls log m.before.controlSide) : Attaches config log m := by
  obtain ⟨time, w, cause⟩ := m
  have ha : w.projection.attachment.map Attachment.source = attachedTo? log := h.source?_eq
  refine ⟨?_, ?_, ?_, ?_⟩
  · rintro i source rfl hi hs hd hn
    rw [hn, Option.map_eq_none_iff] at ha
    exact step_attach_first hi hs hd ha
  · rintro i rfl hs hd hn
    rw [← ha, Option.isSome_map] at hn
    have hstep := step_attach_again hs hd hn
    exact ⟨congrArg Prod.snd hstep, congrArg Prod.fst hstep⟩
  · rintro filter rfl hd hn
    rw [hn, Option.map_eq_none_iff] at ha
    have hstep := step_filter_unset filter hd ha
    exact ⟨congrArg Prod.snd hstep, congrArg Prod.fst hstep⟩
  · rintro filter i rfl hd hi
    obtain ⟨a, ha, rfl⟩ := Option.map_eq_some_iff.1 (ha.trans hi)
    have hlt : a.source < w.remote.sources.length := h.lt a.source hi
    have hconfig : w.projection.config.filterSettings = config.filterSettings := h.settings_eq
    have hsource := List.getElem?_eq_getElem hlt
    have hstep := step_filter_set filter hd ha hsource
    rw [hconfig] at hstep
    exact ⟨_, hsource, congrArg Prod.snd hstep, congrArg Prod.fst hstep⟩

/-- The first attach that succeeds counts.  Until then an attach comes to what the source has it
come to, and one that fails leaves everything but the source as it was, which keeps its stream; a
filter reaches nobody.  From then on an attach changes nothing, and the followed source has received
the default filter and after it the filters that were set, which it answers.  No other source
receives a call. -/
theorem attach_once_of_course (hc : Course (origin config sources directory) log t) :
    (∀ early m late, log = early ++ m :: late → Attaches config early m) ∧
    t.state.projection.attachment.map Attachment.source = attachedTo? log ∧
    (attachedTo? log = none → t.state.projection.IsBlank) ∧
    (∀ j, attachedTo? log ≠ some j →
      t.state.calls j = (new config sources directory).calls j) ∧
    ∀ i early a late, log = early ++ a :: late → attachedTo? early = none →
      a.succeeds? = some i →
      FiltersSince config.filterSettings ((new config sources directory).calls i)
        (t.state.calls i) late := by
  have h := commands_of_course hc
  have hsource : t.state.projection.attachment.map Attachment.source = attachedTo? log :=
    h.source?_eq
  refine ⟨?_, hsource, fun hn => ?_, h.other, h.since⟩
  · rintro early m late rfl
    exact attaches_of_commands (commands_of_course hc.of_append_cons.1)
  · exact startsBlank_of_course hc (Option.map_eq_none_iff.1 (hsource.trans hn))

/-- Two attaches fail, the third succeeds, and a fourth changes nothing; the filter that comes
before the third is lost. -/
theorem attach_once_after_failures : ∃ log t,
    Course (origin {} [{ failsLoading := true }, { stream := none }, {}] ⟨[]⟩) log t ∧
    stepsOf log = [.attach 0, .attach 1, .filter .excludeAll, .attach 2, .filter (.all [.unreads]),
      .attach 0] ∧
    log.filterMap Moment.succeeds? = [2, 0] ∧
    t.state.projection.attachment.map Attachment.source = some 2 ∧
    (∀ j, j ≠ 2 → t.state.calls j =
      (new {} [{ failsLoading := true }, { stream := none }, {}] ⟨[]⟩).calls j) ∧
    t.state.calls 2 = [.setFilter ((default : Filter).toRemote {}),
      .setFilter ((Filter.all [.unreads]).toRemote {})] := by
  have h₀ : Course (origin {} [{ failsLoading := true }, { stream := none }, {}] ⟨[]⟩) [] _ :=
    .start
  have h₁ := ((h₀.step (.attach 0)).step (.attach 1)).step (.filter .excludeAll)
  have h₂ := ((h₁.step (.attach 2)).step (.filter (.all [.unreads]))).step (.attach 0)
  obtain ⟨-, hatt, -, hother, -⟩ := attach_once_of_course h₂
  exact ⟨_, _, h₂, rfl, rfl, hatt, fun j hj => hother j fun h => hj (Option.some.inj h).symm, rfl⟩

end World

end LiveRooms
