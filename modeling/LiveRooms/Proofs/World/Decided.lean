import LiveRooms.Proofs.World.Looks

/-!
# Viewports looked at while nothing is followed

The pager recalls the viewport it looked at, whether or not a source was followed then.  A look
decides about pages only while a source is followed; before that nobody is asked for anything.  So
the same viewport, reported again once a source is followed, asks for what it needs unless the last
look took it (`pages_after_report`), although nothing was decided on it.
-/

namespace LiveRooms

/-- The viewport that is decided on: a look takes it while a source is followed. -/
def Moment.decided? (m : Moment) : Option Viewport :=
  if m.before.projection.attachment.isSome then m.looked? else none

/-- The viewport that was decided on last. -/
def lastDecided? (log : List Moment) : Option Viewport := (log.filterMap Moment.decided?).getLast?

/-- The viewport stays the latest report up to the next look. -/
def StaysLatest (v : Viewport) (late : List Moment) : Prop :=
  ∀ m ∈ late.takeWhile fun m => !m.looks, m.reported? = none ∨ m.reported? = some v

instance (v : Viewport) (late : List Moment) : Decidable (StaysLatest v late) :=
  inferInstanceAs (Decidable (∀ m ∈ late.takeWhile fun m => !m.looks,
    m.reported? = none ∨ m.reported? = some v))

section

variable {early late : List Moment} {m r : Moment} {v : Viewport}

theorem lastDecided?_snoc (log : List Moment) (m : Moment) :
    lastDecided? (log ++ [m]) = m.decided?.or (lastDecided? log) := by
  cases h : m.decided? <;> simp [lastDecided?, List.filterMap_append, h]

theorem Moment.looked?_eq_none (h : m.looks = false) : m.looked? = none := by
  rw [Moment.looked?, h]
  rfl

theorem lastLooked?_append_of_not_looks (h : ∀ m ∈ late, m.looks = false) :
    lastLooked? (early ++ late) = lastLooked? early := by
  have hl : late.filterMap Moment.looked? = [] :=
    List.filterMap_eq_nil_iff.2 fun m hm => Moment.looked?_eq_none (h m hm)
  rw [lastLooked?, lastLooked?, List.filterMap_append, hl, List.append_nil]

/-- A source that is followed when a viewport is decided on is followed at the next look. -/
theorem lastLooked?_snoc_of_lastDecided? {log : List Moment}
    (ih : lastDecided? log = some v →
      lastLooked? log = some v ∧ m.before.projection.attachment.isSome = true)
    (h : lastDecided? (log ++ [m]) = some v) :
    lastLooked? (log ++ [m]) = some v ∧ m.before.projection.attachment.isSome = true := by
  rw [lastDecided?_snoc] at h
  rw [lastLooked?_snoc]
  by_cases ha : m.before.projection.attachment.isSome = true
  · have hd : m.decided? = m.looked? := if_pos ha
    rw [hd] at h
    refine ⟨?_, ha⟩
    cases hl : m.looked? with
    | none =>
      rw [hl] at h
      exact (ih h).1
    | some v' => rwa [hl] at h
  · have hd : m.decided? = none := if_neg ha
    rw [hd] at h
    exact absurd (ih h).2 ha

/-- It makes a difference to leave out under `p` what `q` alone leaves out only where `p` holds
without `q` and there is something to leave out. -/
theorem ite_toList_eq_iff {α : Type} {p q : Prop} [Decidable p] [Decidable q] {o : Option α}
    (h : q → p) :
    (if p then [] else o.toList) = (if q then [] else o.toList) ↔ (p → q) ∨ o = none := by
  by_cases hq : q
  · simp [hq, h hq]
  · by_cases hp : p
    · rw [if_pos hp, if_neg hq, eq_comm]
      simp [hp, hq]
    · simp [hp, hq]

/-- The viewport that stays the latest is the last one reported before the next look. -/
theorem lastReport?_of_staysLatest (hr : r.reported? = some v)
    (hs : ∀ m ∈ late, m.reported? = none ∨ m.reported? = some v) :
    lastReport? (early ++ r :: late) = some v := by
  induction late using List.reverseRecOn with
  | nil => simp [lastReport?, List.filterMap_append, hr]
  | append_singleton late m ih =>
    have ih := ih fun x hx => hs x (List.mem_append_left _ hx)
    rw [← List.cons_append, ← List.append_assoc, lastReport?_snoc, ih]
    rcases hs m (by simp) with hm | hm <;> rw [hm] <;> rfl

end

namespace World

variable {config : Config} {sources : List Source} {directory : Directory}
  {log early late : List Moment} {t t₀ : Timeline World} {r : Moment} {v : Viewport} {i : Nat}

theorem isSome_attachment_of_course (hc : Course t₀ log t)
    (h : t₀.state.projection.attachment.isSome = true) :
    t.state.projection.attachment.isSome = true := by
  obtain ⟨a, ha⟩ := Option.isSome_iff_exists.1 h
  obtain ⟨a', ha', -⟩ := attachment_of_course hc ha
  exact Option.isSome_iff_exists.2 ⟨a', ha'⟩

theorem isFollowed_of_course (hc : Course t₀ log t) (h : t₀.state.follows i = true) :
    t.state.follows i = true := by
  obtain ⟨a, ha, hi⟩ := (Option.any_eq_true _ _).1 h
  obtain ⟨a', ha', hs⟩ := attachment_of_course hc ha
  exact (Option.any_eq_true _ _).2 ⟨a', ha', by rwa [hs]⟩

/-- Once a viewport was decided on, a source is followed, and every look decides. -/
theorem lastLooked?_of_lastDecided? (hc : Course t₀ log t) (h : lastDecided? log = some v) :
    lastLooked? log = some v ∧ t.state.projection.attachment.isSome = true := by
  revert h
  refine hc.moment_induction (P := fun log w => lastDecided? log = some v →
    lastLooked? log = some v ∧ w.projection.attachment.isSome = true)
    (fun h => by cases h) fun log m _ hm ih h => ?_
  obtain ⟨hl, ha⟩ := lastLooked?_snoc_of_lastDecided? ih h
  exact ⟨hl, isSome_attachment_of_course hm.course ha⟩

/-- At rest the first look after a report was made when the report was due. -/
theorem find?_looks_of_punctual (hp : Punctual (origin config sources directory) log t)
    (hd : t.state.projection.isDropped = false) (hq : Timed.Quiet t.now t.state)
    (hlog : log = early ++ r :: late) (hr : r.reported? = some v)
    (hdue : dueTime config.paginationThrottle.toNat early r ≤ t.now) :
    (late.find? Moment.looks).map Moment.time =
      some (dueTime config.paginationThrottle.toNat early r) := by
  obtain ⟨-, hrest, hans, -⟩ := pagerFacts_of_punctual hp
  have hr' : r.reported?.isSome = true := by rw [hr]; rfl
  rcases hans.answered hd early r late hlog hr' with ha | ⟨hn, hrep, -⟩
  · exact ha
  · have hst : t.state.projection.pager.isStopped = false :=
      Bool.eq_false_iff.2 fun hst => by
        have hd' : t.state.projection.isDropped = true := hans.stopped hst
        rw [hd] at hd'
        cases hd'
    obtain ⟨e, he, hlt, -⟩ := exists_rest_of_quiet hq hst hrep
    rw [hrest.rests e he, restEnd_of_report hlog hr' hn] at hlt
    exact absurd hdue (Nat.not_le.2 (hlt.trans_le (Nat.le_max_right ..)))

/-- The first look after a report that stays the latest takes it, and is the first since the one
before the report. -/
theorem exists_look_of_report (hp : Punctual (origin config sources directory) log t)
    (hd : t.state.projection.isDropped = false) (hq : Timed.Quiet t.now t.state)
    (hlog : log = early ++ r :: late) (hr : r.reported? = some v) (hs : StaysLatest v late)
    (hdue : dueTime config.paginationThrottle.toNat early r ≤ t.now) :
    ∃ before look after, late = before ++ look :: after ∧
      (∀ m ∈ before, m.looks = false) ∧ look.looks = true ∧
      look.time = dueTime config.paginationThrottle.toNat early r ∧
      lastReport? (early ++ r :: before) = some v ∧
      lastLooked? (early ++ r :: before) = lastLooked? early := by
  obtain ⟨look, hfind, ht⟩ :=
    Option.map_eq_some_iff.1 (find?_looks_of_punctual hp hd hq hlog hr hdue)
  obtain ⟨hl, before, after, hlate, hb⟩ := List.find?_eq_some_iff_append.1 hfind
  have hb : ∀ m ∈ before, m.looks = false := fun m hm => by simpa using hb m hm
  have hstays : ∀ m ∈ before, m.reported? = none ∨ m.reported? = some v := by
    intro m hm
    refine hs m ?_
    rw [hlate, List.takeWhile_append_of_pos (by simpa using hb)]
    exact List.mem_append_left _ hm
  have hreport : r.looks = false := by
    refine Bool.eq_false_iff.2 fun hrl => ?_
    rw [Moment.reported?_of_looks hrl] at hr
    cases hr
  exact ⟨before, look, after, hlate, hb, hl, ht, lastReport?_of_staysLatest hr hstays,
    lastLooked?_append_of_not_looks (List.forall_mem_cons.2 ⟨hreport, hb⟩)⟩

/-- A viewport that is reported while a source is followed, and stays the latest report until the
pager looks, asks that source for what it needs unless it is what the pager looked at last.  So it
asks for what it would ask for if only looks that decide were recalled, except where the last look
took it and did not decide. -/
theorem pages_after_report (hp : Punctual (origin config sources directory) log t)
    (hd : t.state.projection.isDropped = false) (hq : Timed.Quiet t.now t.state)
    (hlog : log = early ++ r :: late) (hr : r.reported? = some v) (hf : r.before.follows i = true)
    (hs : StaysLatest v late)
    (hdue : dueTime config.paginationThrottle.toNat early r ≤ t.now) :
    ∃ before look after, late = before ++ look :: after ∧
      (∀ m ∈ before, m.looks = false) ∧ look.looks = true ∧
      look.time = dueTime config.paginationThrottle.toNat early r ∧
      look.pages i =
        (if lastLooked? early = some v then []
          else (v.pageRequest look.before.projection.store.count).toList) ∧
      (look.pages i =
          (if lastDecided? early = some v then []
            else (v.pageRequest look.before.projection.store.count).toList) ↔
        (lastLooked? early = some v → lastDecided? early = some v) ∨
          v.pageRequest look.before.projection.store.count = none) := by
  obtain ⟨before, look, after, hlate, hb, hl, ht, hlast, hlooked⟩ :=
    exists_look_of_report hp hd hq hlog hr hs hdue
  have hsplit : log = (early ++ r :: before) ++ look :: after := by simp [hlog, hlate]
  have hfollows : look.before.follows i = true := by
    have hc := hp.course
    rw [hlog] at hc
    have hc' := hc.of_append_cons.2
    rw [hlate, ← List.cons_append] at hc'
    exact isFollowed_of_course hc'.of_append_cons.1 hf
  have hpages : look.pages i = if lastLooked? early = some v then []
      else (v.pageRequest look.before.projection.store.count).toList := by
    obtain ⟨-, -, -, hdec⟩ := pagerFacts_of_punctual hp
    obtain ⟨v', -, hv', hpages⟩ := (hdec _ look after hsplit).look hl
    obtain rfl := Option.some.inj (hlast.symm.trans hv')
    rw [hpages i, hlooked]
    by_cases h : lastLooked? early = some v <;> simp [h, hfollows]
  have hrecalled : lastDecided? early = some v → lastLooked? early = some v := by
    rw [hlog] at hp
    exact fun h => (lastLooked?_of_lastDecided? hp.of_append_cons.course h).1
  refine ⟨before, look, after, hlate, hb, hl, ht, hpages, ?_⟩
  rw [hpages]
  exact ite_toList_eq_iff hrecalled

/-- A viewport that was looked at before a source was followed asks for a page when it is reported
again after another one was looked at. -/
theorem pages_after_other_look : ∃ log t, Punctual (origin {} [{}] ⟨[]⟩) log t ∧
    stepsOf log = [.report [⟨0, 5⟩], .report [⟨0, 6⟩], .attach 0, .report [⟨0, 5⟩]] ∧
    (log.filter Moment.looks).map (fun m => (m.time, m.looked?, m.pages 0)) =
      [(0, some ⟨0, 5⟩, []), (500, some ⟨0, 6⟩, []), (1000, some ⟨0, 5⟩, [.addPage])] ∧
    ∃ early r late, log = early ++ r :: late ∧ r.reported? = some ⟨0, 5⟩ ∧
      lastDecided? early = none ∧ ∃ look ∈ late, look.time = 1000 ∧ look.pages 0 =
        (Viewport.pageRequest look.before.projection.store.count ⟨0, 5⟩).toList := by
  have h₀ : Punctual (origin {} [{}] ⟨[]⟩) [] _ := .start
  have h₁ := ((h₀.step (.report [⟨0, 5⟩])).move .lookAtViewport rfl).move .noticeReport rfl
  have h₂ := (h₁.sleep_of 500 (by decide) rfl (by decide)).move .wakePager rfl
  have h₃ := ((h₂.move .considerViewport rfl).step (.report [⟨0, 6⟩])).move .lookAtViewport rfl
  have h₄ := (h₃.move .noticeReport rfl).sleep_of 1000 (by decide) rfl (by decide)
  have h₅ := ((h₄.move .wakePager rfl).move .considerViewport rfl).step (.attach 0)
  have h₆ := ((h₅.step (.report [⟨0, 5⟩])).move .noticeReport rfl).move .lookAtViewport rfl
  obtain ⟨before, look, after, hlate, -, -, ht, -, hpages⟩ :=
    pages_after_report (v := ⟨0, 5⟩) (i := 0) h₆ rfl (Timed.next?_eq_none_iff.1 rfl)
      ((List.append_assoc ..).trans (List.append_assoc ..)) rfl rfl (by decide) (by decide)
  refine ⟨_, _, h₆, rfl, rfl, _, _, _, (List.append_assoc ..).trans (List.append_assoc ..), rfl,
    rfl, look, ?_, ht, hpages.2 (Or.inl ?_)⟩
  · rw [hlate]
    simp
  · decide

/-- A look that decides nothing makes the viewport it takes count as looked at.  Reported again once
a source is followed, the viewport asks for no page, although it needs one. -/
theorem exists_report_without_pages : ∃ log t, Punctual (origin {} [{}] ⟨[]⟩) log t ∧
    Timed.Quiet t.now t.state ∧
    stepsOf log = [.report [⟨0, 5⟩], .attach 0, .report [⟨0, 5⟩]] ∧
    (log.filter Moment.looks).map
        (fun m => (m.time, m.looked?, m.before.follows 0, m.pages 0)) =
      [(0, some ⟨0, 5⟩, false, []), (500, some ⟨0, 5⟩, true, [])] ∧
    (∀ m ∈ log, Viewport.pageRequest m.before.projection.store.count ⟨0, 5⟩ = some .addPage) ∧
    lastDecided? (log.dropLast) = none := by
  have h₀ : Punctual (origin {} [{}] ⟨[]⟩) [] _ := .start
  have h₁ := ((h₀.step (.report [⟨0, 5⟩])).move .lookAtViewport rfl).move .noticeReport rfl
  have h₂ := (h₁.sleep_of 500 (by decide) rfl (by decide)).move .wakePager rfl
  have h₃ := ((h₂.move .considerViewport rfl).step (.attach 0)).step (.report [⟨0, 5⟩])
  have h₄ := (h₃.move .noticeReport rfl).move .lookAtViewport rfl
  exact ⟨_, _, h₄, Timed.next?_eq_none_iff.1 rfl, rfl, rfl, by decide, rfl⟩

end World

end LiveRooms
