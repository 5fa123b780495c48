import LiveRooms.Proofs.World.AttachOnce
import LiveRooms.Proofs.World.StatusSide

/-!
# The shown status

Before a source is followed the list is shown as not loaded.  After that the shown status is that of
the loading state which the followed source reported last, unless a report is still to be read
(`Tells`), and a world at rest has none.  Several reports between two readings count as the last of
them; what other sources report reaches nobody.
-/

namespace LiveRooms

/-- The loading state that a source was in at first or reported last. -/
def lastLoading? (sources : List Source) (i : Nat) (log : List Moment) : Option LoadingState :=
  (log.filterMap (Moment.loads? i)).getLast?.or (sources[i]?.map Source.loading)

/-- How the shown status goes with what the sources reported.  Nobody stops following a source that
is there, nor before the last report was read. -/
structure Tells (sources : List Source) (log : List Moment) (s : StatusSide) : Prop where
  progress (i : Nat) : (s.progress i).map Progress.state = lastLoading? sources i log
  shown : s.isDropped = false → ∀ a, s.watch = some a → ∃ p, s.progress a.source = some p ∧
    (a.hasReport = false → s.status = p.state.status) ∧
    (a.isFollowed = false → a.hasReport = false ∧ p.isGone = true)

section

variable {sources : List Source} {log : List Moment} {m : Moment} {i : Nat} {s : StatusSide}

theorem lastLoading?_snoc (sources : List Source) (i : Nat) (log : List Moment) (m : Moment) :
    lastLoading? sources i (log ++ [m]) = (m.loads? i).or (lastLoading? sources i log) := by
  cases h : m.loads? i <;> simp [lastLoading?, List.filterMap_append, h]

theorem lastLoading?_snoc_of_none (h : m.loads? i = none) :
    lastLoading? sources i (log ++ [m]) = lastLoading? sources i log := by
  rw [lastLoading?_snoc, h, Option.none_or]

/-- While nothing is reported the sources say what they said. -/
theorem Tells.of_silent (h : Tells sources log m.before.statusSide) (hm : m.IsSilent)
    (hp : ∀ i, (s.progress i).map Progress.state =
      (m.before.statusSide.progress i).map Progress.state)
    (hs : s.isDropped = false → ∀ a, s.watch = some a → ∃ p, s.progress a.source = some p ∧
      (a.hasReport = false → s.status = p.state.status) ∧
      (a.isFollowed = false → a.hasReport = false ∧ p.isGone = true)) :
    Tells sources (log ++ [m]) s where
  progress i := by rw [hp, h.progress, lastLoading?_snoc_of_none (hm i)]
  shown := hs

theorem Tells.loading (h : Tells sources log m.before.statusSide) {state old : LoadingState}
    (hi : m.loads? i = some state) (hn : ∀ j, j ≠ i → m.loads? j = none)
    (hold : m.before.statusSide.progress i = some ⟨old, false⟩) :
    Tells sources (log ++ [m])
      ((m.before.statusSide.setProgress i (some ⟨state, false⟩)).report i) where
  progress j := by
    by_cases hj : j = i
    · subst hj
      rw [lastLoading?_snoc, hi]
      exact congrArg (Option.map Progress.state) (StatusSide.progress_setProgress_self ..)
    · rw [lastLoading?_snoc_of_none (hn j hj), ← h.progress]
      exact congrArg (Option.map Progress.state) (StatusSide.progress_setProgress_of_ne hj ..)
  shown hd a' ha' := by
    obtain ⟨a, ha, rfl⟩ := Option.map_eq_some_iff.1 ha'
    obtain ⟨p, hp, hshown, hfollows⟩ := h.shown hd a ha
    by_cases hs : a.source = i
    · subst hs
      rw [if_pos rfl]
      refine ⟨⟨state, false⟩, StatusSide.progress_setProgress_self .., (fun h => by cases h),
        fun hf => ?_⟩
      -- a source that is there is followed
      obtain rfl := Option.some.inj (hold.symm.trans hp)
      cases (hfollows hf).2
    · rw [if_neg hs]
      exact ⟨p, (StatusSide.progress_setProgress_of_ne hs ..).trans hp, hshown, hfollows⟩

theorem Tells.dropSource (h : Tells sources log m.before.statusSide) (hm : m.IsSilent) (i : Nat) :
    Tells sources (log ++ [m]) (m.before.statusSide.setProgress i
      ((m.before.statusSide.progress i).map fun p => { p with isGone := true })) := by
  refine h.of_silent hm (fun j => ?_) fun hd a ha => ?_
  · by_cases hj : j = i
    · subst hj
      rw [StatusSide.progress_setProgress_self, Option.map_map]
      rfl
    · rw [StatusSide.progress_setProgress_of_ne hj]
  · obtain ⟨p, hp, hshown, hfollows⟩ := h.shown hd a ha
    by_cases hs : a.source = i
    · subst hs
      refine ⟨{ p with isGone := true }, ?_, hshown, fun hf => ⟨(hfollows hf).1, rfl⟩⟩
      rw [StatusSide.progress_setProgress_self, hp]
      rfl
    · exact ⟨p, (StatusSide.progress_setProgress_of_ne hs ..).trans hp, hshown, hfollows⟩

theorem Tells.informs (h : Tells sources log m.before.statusSide) (hm : m.Informs s) :
    Tells sources (log ++ [m]) s := by
  cases hm with
  | attach hm _ hp =>
    refine h.of_silent hm (fun _ => rfl) fun _ a ha => ?_
    obtain rfl := Option.some.inj ha
    exact ⟨_, hp, fun _ => rfl, fun hf => by cases hf⟩
  | loading hi hn hold => exact h.loading hi hn hold
  | dropSource hm => exact h.dropSource hm _
  | @read a p hm hw hp =>
    refine h.of_silent hm (fun _ => rfl) fun hd a' ha' => ?_
    obtain rfl := Option.some.inj ha'
    obtain ⟨p', hp', -, hfollows⟩ := h.shown hd a hw
    obtain rfl := Option.some.inj (hp.symm.trans hp')
    exact ⟨p, hp, fun _ => rfl, fun hf => ⟨rfl, (hfollows hf).2⟩⟩
  | @stop a hm hw hgone =>
    refine h.of_silent hm (fun _ => rfl) fun hd a' ha' => ?_
    obtain rfl := Option.some.inj ha'
    obtain ⟨p, hp, hshown, -⟩ := h.shown hd a hw
    obtain ⟨hr, hg⟩ := hgone hd
    exact ⟨p, hp, hshown, fun _ => ⟨hr, hg p hp⟩⟩
  | dropProjection hm => exact h.of_silent hm (fun _ => rfl) fun hd => by cases hd
  | still hm => exact h.of_silent hm (fun _ => rfl) h.shown

end

namespace World

variable {config : Config} {sources : List Source} {directory : Directory} {log : List Moment}
  {t : Timeline World} {now i : Nat} {w : World}

theorem tells_of_course (hc : Course (origin config sources directory) log t) :
    Tells sources log t.state.statusSide :=
  hc.moment_induction (P := fun log w => Tells sources log w.statusSide)
    ⟨fun i => by simp [origin, new, statusSide, lastLoading?, Function.comp_def, Source.progress],
      fun _ _ ha => by cases ha⟩
    fun _ _ _ hm h => h.informs (informs_of_happens hm)

/-- A world at rest has read the last report of a source that it follows. -/
theorem hasStatusReport_of_quiet {a : Attachment} {source : Source} (hq : Timed.Quiet now w)
    (ha : w.projection.attachment = some a) (hs : w.remote.sources[a.source]? = some source)
    (hf : a.followsStatus = true) : a.hasStatusReport = false := by
  have hm : Move.followStatus ∈ Timed.moves w := by simp [Timed.moves, moves]
  have hn : w.followStatus? = none := hq .followStatus hm
  refine Bool.eq_false_iff.2 fun hr => ?_
  simp [followStatus?, ha, hf, hr, sourceStatus?, hs] at hn

/-- What a source that is not followed reports does nothing to the projection. -/
theorem projection_setLoading (state : LoadingState)
    (h : w.projection.attachment.map Attachment.source ≠ some i) :
    (w.setLoading i state).projection = w.projection := by
  unfold setLoading updateAttachment
  split
  · rename_i a ha
    have hsource : w.projection.attachment.map Attachment.source = some a.source :=
      congrArg (Option.map Attachment.source) ha
    rw [if_neg fun hi : a.source = i => h (hi ▸ hsource)]
    rfl
  · rfl

theorem projection_step_loading (state : LoadingState)
    (h : w.projection.attachment.map Attachment.source ≠ some i) :
    (w.step (.loading i state)).1.projection = w.projection := by
  simp only [step, atSource]
  split
  · exact projection_setLoading state h
  · rfl

/-- As long as the projection is not dropped, it shows its list as not loaded until an attach
succeeds, and from then on, whenever it is at rest, as the source of that attach reported it last.
What another source reports does nothing to the projection. -/
theorem status_of_course (hc : Course (origin config sources directory) log t)
    (hdrop : .dropProjection ∉ stepsOf log) :
    (attachedTo? log = none → t.state.projection.status.value = .notLoaded) ∧
    (∀ i, attachedTo? log = some i → Timed.Quiet t.now t.state →
      ∃ source, t.state.remote.sources[i]? = some source ∧
        lastLoading? sources i log = some source.loading ∧
        t.state.projection.status.value = source.loading.status) ∧
    ∀ early m late j state, log = early ++ m :: late → m.cause = .step (.loading j state) →
      attachedTo? early ≠ some j → m.after.projection = m.before.projection := by
  have hsource : t.state.projection.attachment.map Attachment.source = attachedTo? log :=
    (commands_of_course hc).source?_eq
  refine ⟨fun hn => ?_, fun i hi hq => ?_, ?_⟩
  · exact (startsBlank_of_course hc (Option.map_eq_none_iff.1 (hsource.trans hn))).1
  · have htells := tells_of_course hc
    obtain ⟨a, ha, rfl⟩ := Option.map_eq_some_iff.1 (hsource.trans hi)
    obtain ⟨p, hp, hshown, hfollows⟩ := htells.shown (isDropped_of_course hc hdrop rfl) a.watch
      (by simp [statusSide, ha])
    obtain ⟨source, hs, rfl⟩ := Option.map_eq_some_iff.1 hp
    have hr : a.watch.hasReport = false := by
      cases hf : a.followsStatus with
      | false => exact (hfollows hf).1
      | true => exact hasStatusReport_of_quiet hq ha hs hf
    have hlast : lastLoading? sources a.source log = some source.loading := by
      rw [← htells.progress, show t.state.statusSide.progress a.source = _ from hp]
      rfl
    exact ⟨source, hs, hlast, hshown hr⟩
  · rintro early ⟨time, before, cause⟩ late j state rfl hm hj
    cases hm
    have hbefore : before.projection.attachment.map Attachment.source = attachedTo? early :=
      (commands_of_course hc.of_append_cons.1).source?_eq
    exact projection_step_loading state (hbefore ▸ hj)

/-- The first attach fails; the second source reports before the attach to it and three times after,
the last two at once, and the first source in between. -/
theorem status_after_reports : ∃ log t,
    Course (origin {} [{ failsLoading := true }, {}] ⟨[]⟩) log t ∧
    stepsOf log = [.loading 1 (.loaded none), .attach 0, .attach 1, .loading 1 .notLoaded,
      .loading 0 (.loaded (some 3)), .loading 1 (.loaded (some 8)), .loading 1 (.loaded (some 5))] ∧
    Timed.Quiet t.now t.state ∧ t.state.projection.status.value = .loaded (some 5) := by
  have h₀ : Course (origin {} [{ failsLoading := true }, {}] ⟨[]⟩) [] _ := .start
  have h₁ := ((h₀.step (.loading 1 (.loaded none))).step (.attach 0)).step (.attach 1)
  have h₂ := (h₁.step (.loading 1 .notLoaded)).move .followStatus rfl
  have h₃ := (h₂.step (.loading 0 (.loaded (some 3)))).step (.loading 1 (.loaded (some 8)))
  have h₄ := (h₃.step (.loading 1 (.loaded (some 5)))).move .followStatus rfl
  obtain ⟨source, hs, -, hv⟩ := (status_of_course h₄ (by simp [stepsOf, Moment.step?])).2.1 1 rfl
    (Timed.next?_eq_none_iff.1 rfl)
  cases hs
  exact ⟨_, _, h₄, rfl, Timed.next?_eq_none_iff.1 rfl, hv⟩

end World

end LiveRooms
