import LiveRooms.Proofs.World.Frame
import LiveRooms.Proofs.World.PagerSide
import LiveRooms.Proofs.World.Punctual

/-!
# What the pager looks at

The pager takes the latest viewport that was reported, rests after each look, and asks for pages
only when it looks.  What it recalls and when it rests follows from the looks and the reports in the
log (`Recalls`, `Rests`).  In a punctual course a report is answered by the first look after it,
made when the rest after the look before the report is over, or at once (`Answered`).
-/

namespace LiveRooms

namespace Moment

/-- The world right after a moment. -/
def after (m : Moment) : World :=
  match m.cause with
  | .step s => (m.before.step s).1
  | .move move => (m.before.move? m.time move).getD m.before

/-- A step can always be made, a move when it is possible. -/
def Happens (m : Moment) : Prop :=
  ∀ move, m.cause = .move move → (m.before.move? m.time move).isSome = true

/-- Whether the pager looks at the viewport. -/
def looks (m : Moment) : Bool :=
  match m.cause with
  | .move .lookAtViewport => true
  | _ => false

/-- The viewport that a look takes. -/
def looked? (m : Moment) : Option Viewport :=
  if m.looks then some m.before.projection.viewport else none

/-- The last of the viewports that are reported to a projection that is there. -/
def reported? (m : Moment) : Option Viewport :=
  match m.cause with
  | .step (.report viewports) =>
    if m.before.projection.isDropped then none else viewports.getLast?
  | _ => none

/-- The pages that a source is asked for. -/
def pages (i : Nat) (m : Moment) : List PageRequest :=
  (m.after.pages i).drop (m.before.pages i).length

theorem reported?_of_looks {m : Moment} (h : m.looks = true) : m.reported? = none := by
  obtain ⟨time, before, cause⟩ := m
  cases cause with
  | step s => cases h
  | move move => rfl

end Moment

/-- The viewport that was reported last. -/
def lastReport? (log : List Moment) : Option Viewport := (log.filterMap Moment.reported?).getLast?

/-- The viewport that the pager looked at last. -/
def lastLooked? (log : List Moment) : Option Viewport := (log.filterMap Moment.looked?).getLast?

/-- The end of the rest after the last look, zero where there was none. -/
def restEnd (throttle : Nat) (log : List Moment) : Nat :=
  (log.filter Moment.looks).getLast?.elim 0 fun m => m.time + Pause.length throttle

/-- A viewport was reported that was neither looked at nor superseded since. -/
def IsFresh (v : Viewport) (log : List Moment) : Prop :=
  ∃ early r late, log = early ++ r :: late ∧ r.reported? = some v ∧
    ∀ m ∈ late, m.reported? = none ∧ m.looks = false

/-- The instant by which a report is answered that comes after `early`. -/
def dueTime (throttle : Nat) (early : List Moment) (r : Moment) : Nat :=
  max r.time (restEnd throttle early)

/-- How a moment after `early` decides about pages.  A look takes the latest viewport; unless it was
looked at just before, the followed source is asked for what it needs, and nothing else is asked. -/
structure Decides (early : List Moment) (m : Moment) : Prop where
  look : m.looks = true → ∃ v, IsFresh v early ∧ lastReport? early = some v ∧
    ∀ i, m.pages i =
      if lastLooked? early ≠ some v ∧ m.before.follows i = true then
        (v.pageRequest m.before.projection.store.count).toList
      else []
  other : m.looks = false → ∀ i, m.pages i = []

section

variable {log early late : List Moment} {m r : Moment} {throttle : Nat} {v : Viewport}

theorem lastReport?_snoc (log : List Moment) (m : Moment) :
    lastReport? (log ++ [m]) = m.reported?.or (lastReport? log) := by
  cases h : m.reported? <;> simp [lastReport?, List.filterMap_append, h]

theorem lastLooked?_snoc (log : List Moment) (m : Moment) :
    lastLooked? (log ++ [m]) = m.looked?.or (lastLooked? log) := by
  cases h : m.looked? <;> simp [lastLooked?, List.filterMap_append, h]

theorem restEnd_snoc (throttle : Nat) (log : List Moment) (m : Moment) :
    restEnd throttle (log ++ [m]) =
      if m.looks then m.time + Pause.length throttle else restEnd throttle log := by
  cases h : m.looks <;> simp [restEnd, List.filter_append, h]

theorem restEnd_append (h : ∀ m ∈ late, m.looks = false) :
    restEnd throttle (log ++ late) = restEnd throttle log := by
  have hf : late.filter Moment.looks = [] :=
    List.filter_eq_nil_iff.2 fun m hm => Bool.eq_false_iff.1 (h m hm)
  rw [restEnd, restEnd, List.filter_append, hf, List.append_nil]

theorem lastReport?_of_isFresh (h : IsFresh v log) : lastReport? log = some v := by
  obtain ⟨early, r, late, rfl, hr, hl⟩ := h
  have hf : late.filterMap Moment.reported? = [] :=
    List.filterMap_eq_nil_iff.2 fun m hm => (hl m hm).1
  simp [lastReport?, List.filterMap_append, hr, hf]

theorem isFresh_snoc_report (h : m.reported? = some v) : IsFresh v (log ++ [m]) :=
  ⟨log, m, [], rfl, h, by simp⟩

theorem IsFresh.snoc (h : IsFresh v log) (hr : m.reported? = none) (hl : m.looks = false) :
    IsFresh v (log ++ [m]) := by
  obtain ⟨early, r, late, rfl, hv, hlate⟩ := h
  refine ⟨early, r, late ++ [m], by simp, hv, fun x hx => ?_⟩
  rcases List.mem_append.1 hx with hx | hx
  · exact hlate x hx
  · rw [List.mem_singleton.1 hx]
    exact ⟨hr, hl⟩

end

/-! ## Moments of the pager -/

/-- A moment at which the pager does not look and nothing is reported to it. -/
def Moment.IsIdle (m : Moment) : Prop := m.looks = false ∧ m.reported? = none

/-- What becomes of the pager side at a moment, apart from requests for pages. -/
inductive Moment.Beats (m : Moment) : PagerSide → Prop where
  | look {pages : Nat → List PageRequest} : m.looks = true →
      m.before.pagerSide.pager.isReady = true →
      m.Beats { m.before.pagerSide with
        pager := m.before.pagerSide.pager.look m.time m.before.pagerSide.throttle
          m.before.pagerSide.viewport
        pages }
  | report {v : Viewport} : m.looks = false → m.reported? = some v →
      m.Beats { m.before.pagerSide with
        viewport := v, pager := m.before.pagerSide.pager.report }
  | wake {e : Nat} : m.IsIdle → m.before.pagerSide.pager.restsUntil = some e → e ≤ m.time →
      m.Beats { m.before.pagerSide with
        pager := { m.before.pagerSide.pager with restsUntil := none } }
  | stop : m.IsIdle → m.before.pagerSide.isDropped = true →
      m.Beats { m.before.pagerSide with
        pager := { m.before.pagerSide.pager with isStopped := true } }
  | drop : m.IsIdle → m.Beats { m.before.pagerSide with isDropped := true }
  | still : m.IsIdle → m.Beats m.before.pagerSide

theorem beats_move {w w' : World} {now : Nat} {move : World.Move}
    (h : w.move? now move = some w') : Moment.Beats ⟨now, w, .move move⟩ w'.pagerSide := by
  generalize hs : w'.pagerSide = s'
  cases hs ▸ World.pagerMoves_of_move? h with
  | look hr => exact .look rfl hr
  | wake he _ hle => exact .wake ⟨rfl, rfl⟩ he hle
  | stop hd => exact .stop ⟨rfl, rfl⟩ hd
  | other hm =>
    refine .still ⟨?_, rfl⟩
    cases move with
    | lookAtViewport => cases hm
    | _ => rfl

theorem beats_step (w : World) (now : Nat) (step : Step) :
    Moment.Beats ⟨now, w, .step step⟩ (w.step step).1.pagerSide := by
  generalize hs : (w.step step).1.pagerSide = s'
  cases hs ▸ World.pagerSteps_of_step w step with
  | @report viewports v hd hv =>
    refine .report rfl ?_
    have hd' : w.projection.isDropped = false := hd
    simp [Moment.reported?, hd', hv]
  | dropProjection => exact .drop ⟨rfl, rfl⟩
  | other hn hr =>
    refine .still ⟨rfl, ?_⟩
    cases step with
    | report viewports =>
      rcases hr viewports rfl with hd | hv
      · have hd' : w.projection.isDropped = true := hd
        simp [Moment.reported?, hd']
      · simp [Moment.reported?, hv]
    | _ => rfl

/-! ## What the pager recalls -/

/-- The pager recalls the last look, and whether a report came after it. -/
structure Recalls (log : List Moment) (s : PagerSide) : Prop where
  handled : s.pager.handled = lastLooked? log
  fresh : s.pager.hasReport = true → IsFresh s.viewport log
  looked : s.pager.hasReport = false → lastLooked? log = lastReport? log

section

variable {log : List Moment} {m : Moment} {s s' : PagerSide} {throttle now : Nat}

theorem lastLooked?_snoc_of_not_looks (h : m.looks = false) :
    lastLooked? (log ++ [m]) = lastLooked? log := by
  rw [lastLooked?_snoc, Moment.looked?, h]
  rfl

theorem restEnd_snoc_of_not_looks (h : m.looks = false) :
    restEnd throttle (log ++ [m]) = restEnd throttle log := by
  rw [restEnd_snoc, h]
  rfl

theorem Recalls.idle (h : Recalls log s) (hi : m.IsIdle) : Recalls (log ++ [m]) s where
  handled := h.handled.trans (lastLooked?_snoc_of_not_looks hi.1).symm
  fresh hr := (h.fresh hr).snoc hi.2 hi.1
  looked hr := by
    rw [lastLooked?_snoc_of_not_looks hi.1, lastReport?_snoc, hi.2, h.looked hr]
    rfl

theorem Recalls.beats (h : Recalls log m.before.pagerSide) (hb : m.Beats s') :
    Recalls (log ++ [m]) s' := by
  cases hb with
  | look hl hr =>
    have hr' : m.before.pagerSide.pager.hasReport = true := by
      simp only [Pager.isReady, Bool.and_eq_true] at hr
      exact hr.2
    have hlast : lastLooked? (log ++ [m]) = some m.before.pagerSide.viewport := by
      rw [lastLooked?_snoc, Moment.looked?, if_pos hl]
      rfl
    refine ⟨hlast.symm, (fun hf => by cases hf), fun _ => ?_⟩
    rw [hlast, lastReport?_snoc, m.reported?_of_looks hl, lastReport?_of_isFresh (h.fresh hr')]
    rfl
  | report hl hv =>
    exact ⟨h.handled.trans (lastLooked?_snoc_of_not_looks hl).symm,
      fun _ => isFresh_snoc_report hv, (fun hf => by cases hf)⟩
  | wake hi _ _ | stop hi _ | drop hi =>
    exact ⟨(h.idle hi).handled, (h.idle hi).fresh, (h.idle hi).looked⟩
  | still hi => exact h.idle hi

/-! ## When the pager rests -/

/-- The pager rests after a look, so looks are spaced. -/
structure Rests (throttle : Nat) (log : List Moment) (now : Nat) (s : PagerSide) : Prop where
  throttle_eq : s.throttle = throttle
  time_le : ∀ m ∈ log, m.time ≤ now
  rests : ∀ e, s.pager.restsUntil = some e → e = restEnd throttle log
  awake : s.pager.restsUntil = none → restEnd throttle log ≤ now
  le_restEnd : ∀ m ∈ log, m.looks = true → m.time + Pause.length throttle ≤ restEnd throttle log
  spaced : (log.filter Moment.looks).Pairwise fun m m' => m.time + Pause.length throttle ≤ m'.time

theorem Rests.wait (h : Rests throttle log now s) {later : Nat} (hl : now ≤ later) :
    Rests throttle log later s where
  throttle_eq := h.throttle_eq
  time_le m hm := (h.time_le m hm).trans hl
  rests := h.rests
  awake he := (h.awake he).trans hl
  le_restEnd := h.le_restEnd
  spaced := h.spaced

theorem Rests.not_looks (h : Rests throttle log m.time s) (hl : m.looks = false) :
    Rests throttle (log ++ [m]) m.time s := by
  have hrest : restEnd throttle (log ++ [m]) = restEnd throttle log :=
    restEnd_snoc_of_not_looks hl
  refine ⟨h.throttle_eq, fun x hx => ?_, fun e he => (h.rests e he).trans hrest.symm,
    fun he => hrest.trans_le (h.awake he), fun x hx hxl => ?_, ?_⟩
  · rcases List.mem_append.1 hx with hx | hx
    · exact h.time_le x hx
    · rw [List.mem_singleton.1 hx]
  · rw [hrest]
    rcases List.mem_append.1 hx with hx | hx
    · exact h.le_restEnd x hx hxl
    · rw [List.mem_singleton.1 hx, hl] at hxl
      cases hxl
  · rw [List.filter_append, List.filter_singleton, hl]
    simpa using h.spaced

theorem Rests.restEnd_le (h : Rests throttle log now s) (hr : s.pager.isReady = true) :
    restEnd throttle log ≤ now := by
  simp only [Pager.isReady, Bool.and_eq_true, Option.isNone_iff_eq_none] at hr
  exact h.awake hr.1.2

theorem Rests.beats (h : Rests throttle log m.time m.before.pagerSide) (hb : m.Beats s') :
    Rests throttle (log ++ [m]) m.time s' := by
  cases hb with
  | look hl hr =>
    have hrest : restEnd throttle (log ++ [m]) = m.time + Pause.length throttle := by
      rw [restEnd_snoc, if_pos hl]
    refine ⟨h.throttle_eq, fun x hx => ?_, fun e he => ?_, (fun he => by cases he),
      fun x hx hxl => ?_, ?_⟩
    · rcases List.mem_append.1 hx with hx | hx
      · exact h.time_le x hx
      · rw [List.mem_singleton.1 hx]
    · rw [hrest, ← h.throttle_eq]
      exact (Option.some.inj he).symm
    · rw [hrest]
      rcases List.mem_append.1 hx with hx | hx
      · exact Nat.add_le_add_right (h.time_le x hx) _
      · rw [List.mem_singleton.1 hx]
    · rw [List.filter_append, List.filter_singleton, hl, List.pairwise_append]
      refine ⟨h.spaced, by simp, fun x hx y hy => ?_⟩
      obtain ⟨hx, hxl⟩ := List.mem_filter.1 hx
      obtain rfl : y = m := by simpa using hy
      exact (h.le_restEnd x hx hxl).trans (h.restEnd_le hr)
  | report hl _ =>
    have h' := h.not_looks hl
    exact ⟨h'.throttle_eq, h'.time_le, h'.rests, h'.awake, h'.le_restEnd, h'.spaced⟩
  | wake hi he hle =>
    have h' := h.not_looks hi.1
    exact ⟨h'.throttle_eq, h'.time_le, (fun _ hn => by cases hn),
      fun _ => (h'.rests _ he).symm.trans_le hle, h'.le_restEnd, h'.spaced⟩
  | stop hi _ | drop hi =>
    have h' := h.not_looks hi.1
    exact ⟨h'.throttle_eq, h'.time_le, h'.rests, h'.awake, h'.le_restEnd, h'.spaced⟩
  | still hi => exact h.not_looks hi.1

/-! ## How the pager decides -/

/-- Moves follow no other source. -/
theorem ListSide.exists_feed_of_moves {l l' : ListSide} {move : World.Move} {i : Nat}
    {b : Batcher (Edit String)} (h : Moves now l move l') (hf : l'.feed = some (i, b)) :
    ∃ b', l.feed = some (i, b') := by
  cases h with
  | applyBatch hf' _ | batch hf' _ =>
    cases hf
    exact ⟨_, hf'⟩
  | _ => exact ⟨b, hf⟩

/-- A source that is followed is one that was followed or is there. -/
theorem ListSide.exists_feed_of_steps {l l' : ListSide} {step : Step} {i : Nat}
    {b : Batcher (Edit String)} (h : Steps l step l') (hf : l'.feed = some (i, b)) :
    (∃ b', l.feed = some (i, b')) ∨ ∃ stream, l.streams i = some stream := by
  cases h with
  | attach _ hs =>
    cases hf
    exact Or.inr ⟨_, hs⟩
  | push _ | dropSource =>
    obtain ⟨b', hb, -⟩ := feed_updateFeed_eq_some hf
    exact Or.inl ⟨b', hb⟩
  | dropProjection =>
    obtain ⟨⟨j, b'⟩, hb, he⟩ := Option.map_eq_some_iff.1 hf
    cases he
    exact Or.inl ⟨b', hb⟩
  | _ => exact Or.inl ⟨b, hf⟩

/-- A followed source is one of the sources. -/
theorem source_lt_of_course {config : Config} {sources : List Source} {directory : Directory}
    {t : Timeline World} (hc : World.Course (World.origin config sources directory) log t) {i : Nat}
    {b : Batcher (Edit String)} (hf : t.state.listSide.feed = some (i, b)) :
    i < t.state.pagerSide.sources := by
  induction hc generalizing i b with
  | start => cases hf
  | wait later _ _ ih => exact ih hf
  | @step log t step _ ih =>
    rw [(World.pagerSteps_of_step t.state step).sources_eq]
    rcases ListSide.exists_feed_of_steps (World.steps_of_step t.state step) hf with
      ⟨b', hb⟩ | ⟨stream, hs⟩
    · exact ih hb
    · obtain ⟨source, hs, -⟩ := Option.bind_eq_some_iff.1 hs
      exact (List.getElem?_eq_some_iff.1 hs).1
  | @move log t w' move _ hm ih =>
    rw [(World.pagerMoves_of_move? hm).sources_eq]
    obtain ⟨b', hb⟩ := ListSide.exists_feed_of_moves (World.moves_of_move? hm) hf
    exact ih hb

theorem after_move {w w' : World} {move : World.Move} (h : w.move? now move = some w') :
    Moment.after ⟨now, w, .move move⟩ = w' := by
  simp [Moment.after, h]

/-- What is shown of steps and of moves is shown of what happens. -/
theorem Moment.Happens.elim {Q : Moment → World → Prop} (h : m.Happens)
    (hs : ∀ time w s, Q ⟨time, w, .step s⟩ (w.step s).1)
    (hmove : ∀ time w w' move, w.move? time move = some w' → Q ⟨time, w, .move move⟩ w') :
    Q m m.after := by
  obtain ⟨time, before, cause⟩ := m
  cases cause with
  | step s => exact hs time before s
  | move move =>
    obtain ⟨w', hw⟩ := Option.isSome_iff_exists.1 (h move rfl)
    rw [after_move hw]
    exact hmove time before w' move hw

theorem Moment.Happens.course (h : m.Happens) :
    World.Course ⟨m.time, m.before⟩ [m] ⟨m.time, m.after⟩ :=
  h.elim (Q := fun m w => World.Course ⟨m.time, m.before⟩ [m] ⟨m.time, w⟩)
    (fun _ _ s => World.Course.start.step s) fun _ _ _ move hw => World.Course.start.move move hw

theorem World.Course.moment_induction {P : List Moment → World → Prop} {t₀ t : Timeline World}
    (hc : World.Course t₀ log t) (h₀ : P [] t₀.state)
    (hm : ∀ log m, World.Course t₀ log ⟨m.time, m.before⟩ → m.Happens → P log m.before →
      P (log ++ [m]) m.after) : P log t.state := by
  induction hc with
  | start => exact h₀
  | wait later _ _ ih => exact ih
  | @step log t s hc ih => exact hm log ⟨t.now, t.state, .step s⟩ hc (fun _ h => by cases h) ih
  | @move log t w move hc h ih =>
    have h' := hm log ⟨t.now, t.state, .move move⟩ hc (fun _ he => by cases he; rw [h]; rfl) ih
    rwa [after_move h] at h'

theorem pages_eq {i : Nat} {asked : List PageRequest}
    (h : m.after.pages i = m.before.pages i ++ asked) : m.pages i = asked := by
  rw [Moment.pages, h, List.drop_left]

theorem decides_of_pages_eq (hl : m.looks = false)
    (hp : m.after.pagerSide.pages = m.before.pagerSide.pages) : Decides log m where
  look h := by rw [hl] at h; cases h
  other _ i := pages_eq ((congrFun hp i).trans (List.append_nil _).symm)

theorem decides_step (w : World) (step : Step) : Decides log ⟨now, w, .step step⟩ := by
  refine decides_of_pages_eq rfl ?_
  show (w.step step).1.pagerSide.pages = w.pagerSide.pages
  generalize hs : (w.step step).1.pagerSide = s'
  cases hs ▸ World.pagerSteps_of_step w step <;> rfl

theorem decides_move {w w' : World} {move : World.Move} (h : w.move? now move = some w')
    (hr : Recalls log w.pagerSide)
    (hs : ∀ i, w.follows i = true → i < w.pagerSide.sources) :
    Decides log ⟨now, w, .move move⟩ := by
  have ha := after_move h
  generalize hs' : w'.pagerSide = s'
  cases hs' ▸ World.pagerMoves_of_move? h with
  | look hready =>
    have hrep : w.pagerSide.pager.hasReport = true := by
      simp only [Pager.isReady, Bool.and_eq_true] at hready
      exact hready.2
    have hfresh := hr.fresh hrep
    refine ⟨fun _ => ⟨_, hfresh, lastReport?_of_isFresh hfresh, fun i => pages_eq ?_⟩,
      (fun hl => by cases hl)⟩
    rw [ha]
    refine (congrFun (congrArg PagerSide.pages hs') i).trans (congrArg (w.pages i ++ ·) ?_)
    have hdec : w.pagerSide.pager.decidesOn w.pagerSide.viewport = true ↔
        lastLooked? log ≠ some w.pagerSide.viewport := by
      rw [Pager.decidesOn, hr.handled, bne_iff_ne]
    by_cases hf : w.follows i = true
    · simp [World.asks, hf, hs i hf, hdec, -ne_eq]
      rfl
    · simp [World.asks, hf]
  | wake | stop =>
    refine decides_of_pages_eq rfl ?_
    rw [ha, hs']
  | other hm =>
    refine decides_of_pages_eq (by cases move with | lookAtViewport => cases hm | _ => rfl) ?_
    rw [ha, hs']

/-! ## How reports are answered -/

/-- A report is answered by the first look after it, made when it is due; or it waits. -/
def Answered (throttle now : Nat) (p : Pager) (early : List Moment) (r : Moment)
    (late : List Moment) : Prop :=
  (late.find? Moment.looks).map Moment.time = some (dueTime throttle early r) ∨
    (∀ m ∈ late, m.looks = false) ∧ p.hasReport = true ∧ now ≤ dueTime throttle early r

/-- Every report is answered in time. -/
structure Answers (throttle : Nat) (log : List Moment) (now : Nat) (s : PagerSide) : Prop where
  stopped : s.pager.isStopped = true → s.isDropped = true
  answered : s.isDropped = false → ∀ early r late, log = early ++ r :: late →
    r.reported?.isSome = true → Answered throttle now s.pager early r late

variable {early late : List Moment} {r : Moment} {p p' : Pager}

theorem Answered.not_looks (h : Answered throttle now p early r late) (hl : m.looks = false)
    (hp : p.hasReport = true → p'.hasReport = true) :
    Answered throttle now p' early r (late ++ [m]) := by
  rcases h with h | ⟨hn, hr, hle⟩
  · refine Or.inl ?_
    obtain ⟨x, hx, hxt⟩ := Option.map_eq_some_iff.1 h
    rw [List.find?_append, hx]
    exact congrArg some hxt
  · refine Or.inr ⟨fun x hx => ?_, hp hr, hle⟩
    rcases List.mem_append.1 hx with hx | hx
    · exact hn x hx
    · rwa [List.mem_singleton.1 hx]

/-- Until the first look after it a report changes nothing about the rest. -/
theorem restEnd_of_report (hlog : log = early ++ r :: late) (hr : r.reported?.isSome = true)
    (hn : ∀ m ∈ late, m.looks = false) : restEnd throttle log = restEnd throttle early := by
  rw [hlog]
  refine restEnd_append fun x hx => ?_
  rcases List.mem_cons.1 hx with rfl | hx
  · refine Bool.eq_false_iff.2 fun hl => ?_
    rw [Moment.reported?_of_looks hl] at hr
    cases hr
  · exact hn x hx

theorem Answered.look (h : Answered throttle m.time m.before.pagerSide.pager early r late)
    (hlog : log = early ++ r :: late) (hr : r.reported?.isSome = true)
    (hrests : Rests throttle log m.time m.before.pagerSide) (hl : m.looks = true)
    (hready : m.before.pagerSide.pager.isReady = true) :
    Answered throttle m.time p' early r (late ++ [m]) := by
  refine Or.inl ?_
  rcases h with h | ⟨hn, -, hle⟩
  · obtain ⟨x, hx, hxt⟩ := Option.map_eq_some_iff.1 h
    rw [List.find?_append, hx]
    exact congrArg some hxt
  · have hf : late.find? Moment.looks = none := by simpa using hn
    have hrt : r.time ≤ m.time := hrests.time_le r (by simp [hlog])
    have hre : restEnd throttle early ≤ m.time :=
      (restEnd_of_report hlog hr hn).symm.trans_le (hrests.restEnd_le hready)
    have ht : m.time = dueTime throttle early r := Nat.le_antisymm hle (Nat.max_le.2 ⟨hrt, hre⟩)
    simp [List.find?_append, hf, hl, ht]

theorem Answers.not_looks (h : Answers throttle log m.time s) (hl : m.looks = false)
    (hst : s'.pager.isStopped = true → s'.isDropped = true)
    (hd : s'.isDropped = false → s.isDropped = false)
    (hp : s.pager.hasReport = true → s'.pager.hasReport = true)
    (hm : m.reported?.isSome = true → s'.pager.hasReport = true) :
    Answers throttle (log ++ [m]) m.time s' where
  stopped := hst
  answered hd' early r late he hr := by
    rcases snoc_eq_append_cons he with ⟨rfl, rfl, rfl⟩ | ⟨late', rfl, hlog⟩
    · exact Or.inr ⟨by simp, hm hr, Nat.le_max_left ..⟩
    · exact (h.answered (hd hd') early r late' hlog hr).not_looks hl hp

theorem Answers.beats (h : Answers throttle log m.time m.before.pagerSide)
    (hrests : Rests throttle log m.time m.before.pagerSide) (hb : m.Beats s') :
    Answers throttle (log ++ [m]) m.time s' := by
  cases hb with
  | look hl hready =>
    refine ⟨h.stopped, fun hd early r late he hr => ?_⟩
    rcases snoc_eq_append_cons he with ⟨rfl, rfl, rfl⟩ | ⟨late', rfl, hlog⟩
    · rw [Moment.reported?_of_looks hl] at hr
      cases hr
    · exact (h.answered hd early r late' hlog hr).look hlog hr hrests hl hready
  | report hl _ => exact h.not_looks hl h.stopped id (fun _ => rfl) fun _ => rfl
  | wake hi _ _ => exact h.not_looks hi.1 h.stopped id id fun hr => by simp [hi.2] at hr
  | stop hi hd =>
    exact h.not_looks hi.1 (fun _ => hd) id id fun hr => by simp [hi.2] at hr
  | drop hi =>
    exact h.not_looks hi.1 (fun _ => rfl) (fun hd => by cases hd) id fun hr => by simp [hi.2] at hr
  | still hi => exact h.not_looks hi.1 h.stopped id id fun hr => by simp [hi.2] at hr

/-- A pager that has a report and no move left rests. -/
theorem exists_rest_of_quiet {w : World} (hq : Timed.Quiet now w)
    (hs : w.projection.pager.isStopped = false) (hr : w.projection.pager.hasReport = true) :
    ∃ e, w.projection.pager.restsUntil = some e ∧ now < e ∧ e ∈ Timed.timers w := by
  have hlook : w.lookAtViewport? now = none :=
    hq .lookAtViewport (by simp [Timed.moves, World.moves])
  have hwake : (w.projection.pager.wake? now).map w.setPager = none :=
    hq .wakePager (by simp [Timed.moves, World.moves])
  cases he : w.projection.pager.restsUntil with
  | none => simp [World.lookAtViewport?, Pager.isReady, hs, hr, he] at hlook
  | some e =>
    refine ⟨e, rfl, ?_, ?_⟩
    · simpa [Pager.wake?, hs, he] using hwake
    · simp [Timed.timers, Projection.timers, Pager.timers, hs, he]

theorem Answers.sleep {w : World} {later : Nat} (h : Answers throttle log now w.pagerSide)
    (hrests : Rests throttle log now w.pagerSide) (hs : Timed.Sleeps now later w) :
    Answers throttle log later w.pagerSide where
  stopped := h.stopped
  answered hd early r late hlog hr := by
    rcases h.answered hd early r late hlog hr with ha | ⟨hn, hrep, -⟩
    · exact Or.inl ha
    · have hst : w.projection.pager.isStopped = false :=
        Bool.eq_false_iff.2 fun hst => by rw [h.stopped hst] at hd; cases hd
      obtain ⟨e, he, hlt, ht⟩ := exists_rest_of_quiet hs.quiet hst hrep
      refine Or.inr ⟨hn, hrep, (hs.timers e ht hlt).trans ?_⟩
      rw [hrests.rests e he, restEnd_of_report hlog hr hn]
      exact Nat.le_max_right ..

end

namespace World

variable {config : Config} {sources : List Source} {directory : Directory} {log : List Moment}
  {t : Timeline World}

theorem lt_of_follows (hc : Course (origin config sources directory) log t) {i : Nat}
    (h : t.state.follows i = true) : i < t.state.pagerSide.sources := by
  obtain ⟨a, ha, hi⟩ := (Option.any_eq_true _ _).1 h
  rw [decide_eq_true_eq] at hi
  refine source_lt_of_course hc (b := a.batcher) ?_
  simp [listSide, ha, hi]

/-- What the pager recalls, when it rests, how it decides and how it answers, along a course. -/
theorem pagerFacts_of_punctual (hp : Punctual (origin config sources directory) log t) :
    Recalls log t.state.pagerSide ∧
      Rests config.paginationThrottle.toNat log t.now t.state.pagerSide ∧
      Answers config.paginationThrottle.toNat log t.now t.state.pagerSide ∧
      ∀ early m late, log = early ++ m :: late → Decides early m := by
  induction hp with
  | start =>
    exact ⟨⟨rfl, (fun hf => by cases hf), fun _ => rfl⟩,
      ⟨rfl, by simp, (fun _ he => by cases he), fun _ => Nat.le_refl 0, by simp, .nil⟩,
      ⟨(fun hs => by cases hs), by simp⟩, by simp⟩
  | sleep later _ hs ih =>
    obtain ⟨hrec, hrest, hans, hdec⟩ := ih
    exact ⟨hrec, hrest.wait hs.le, hans.sleep hrest hs, hdec⟩
  | @step log t step hp ih =>
    obtain ⟨hrec, hrest, hans, hdec⟩ := ih
    have hb := beats_step t.state t.now step
    refine ⟨hrec.beats hb, hrest.beats hb, hans.beats hrest hb, fun early m late he => ?_⟩
    rcases snoc_eq_append_cons he with ⟨rfl, rfl, rfl⟩ | ⟨late', rfl, hlog⟩
    · exact decides_step t.state step
    · exact hdec early m late' hlog
  | @move log t w move hp hm ih =>
    obtain ⟨hrec, hrest, hans, hdec⟩ := ih
    have hb := beats_move hm
    refine ⟨hrec.beats hb, hrest.beats hb, hans.beats hrest hb, fun early m late he => ?_⟩
    rcases snoc_eq_append_cons he with ⟨rfl, rfl, rfl⟩ | ⟨late', rfl, hlog⟩
    · exact decides_move hm hrec fun i hi => lt_of_follows hp.course hi
    · exact hdec early m late' hlog

/-- Two looks are a pause for the length of the throttle apart.  A look takes the latest viewport,
and unless that was looked at just before it asks the followed source for what the viewport needs;
nothing else is asked for, so a viewport that was superseded before a look asks for nothing.  A
report is answered by the first look after it, which is made at once or when the rest is over, and
at the end nothing is left to look at outside a rest. -/
theorem looks_of_punctual (hp : Punctual (origin config sources directory) log t) :
    ((log.filter Moment.looks).Pairwise fun m m' =>
      m.time + Pause.length config.paginationThrottle.toNat ≤ m'.time) ∧
    (∀ early m late, log = early ++ m :: late → Decides early m) ∧
    (t.state.projection.isDropped = false → Timed.Quiet t.now t.state →
      (∀ early r late, log = early ++ r :: late → r.reported?.isSome = true →
        dueTime config.paginationThrottle.toNat early r ≤ t.now →
        (late.find? Moment.looks).map Moment.time =
          some (dueTime config.paginationThrottle.toNat early r)) ∧
      (restEnd config.paginationThrottle.toNat log ≤ t.now →
        lastLooked? log = lastReport? log)) := by
  obtain ⟨hrec, hrest, hans, hdec⟩ := pagerFacts_of_punctual hp
  refine ⟨hrest.spaced, hdec, fun hd hq => ?_⟩
  have hst : t.state.projection.pager.isStopped = false :=
    Bool.eq_false_iff.2 fun hst => by
      have hd' : t.state.projection.isDropped = true := hans.stopped hst
      rw [hd] at hd'
      cases hd'
  have hwaits : t.state.projection.pager.hasReport = true →
      t.now < restEnd config.paginationThrottle.toNat log := by
    intro hr
    obtain ⟨e, he, hlt, -⟩ := exists_rest_of_quiet hq hst hr
    rwa [← hrest.rests e he]
  constructor
  · intro early r late hlog hr hdue
    rcases hans.answered hd early r late hlog hr with ha | ⟨hn, hrep, -⟩
    · exact ha
    · have hlt := hwaits hrep
      rw [restEnd_of_report hlog hr hn] at hlt
      exact absurd hdue (Nat.not_le.2 (hlt.trans_le (Nat.le_max_right ..)))
  · intro hle
    exact hrec.looked (Bool.eq_false_iff.2 fun hr => Nat.not_le.2 (hwaits hr) hle)

/-- A viewport that is reported during a rest is looked at when the rest is over. -/
theorem looks_after_rest : ∃ log t, Punctual (origin {} [{}] ⟨[]⟩) log t ∧
    stepsOf log = [.attach 0, .report [⟨0, 5⟩], .report [⟨0, 6⟩]] ∧
    ((log.filter Moment.looks).Pairwise fun m m' => m.time + 500 ≤ m'.time) ∧
    (∀ early m late, log = early ++ m :: late → Decides early m) ∧
    (log.filter Moment.looks).map Moment.time = [0, 500] ∧
    lastLooked? log = lastReport? log := by
  have h₀ : Punctual (origin {} [{}] ⟨[]⟩) [] _ := .start
  have h₁ := ((h₀.step (.attach 0)).step (.report [⟨0, 5⟩])).move .lookAtViewport rfl
  have h₂ := (h₁.step (.report [⟨0, 6⟩])).move .noticeReport rfl
  have h₃ := (h₂.sleep_of 500 (by decide) rfl (by decide)).move .considerViewport rfl
  have h₄ := ((h₃.move .wakePager rfl).move .lookAtViewport rfl).sleep_of 1000
    (by decide) rfl (by decide)
  have h₅ := h₄.move .wakePager rfl
  obtain ⟨hspaced, hdec, hend⟩ := looks_of_punctual h₅
  exact ⟨_, _, h₅, rfl, hspaced, hdec, rfl,
    (hend rfl (Timed.next?_eq_none_iff.1 rfl)).2 (by decide)⟩

/-- A rest ends after thirty years.  With a throttle of sixty years two looks that ask for a page
are thirty years apart. -/
theorem exists_looks_closer_than_throttle : ∃ log t,
    Punctual (origin { paginationThrottle := 1892160000000 } [{}] ⟨[]⟩) log t ∧
      stepsOf log = [.attach 0, .report [⟨0, 5⟩], .report [⟨0, 6⟩]] ∧
      (log.filter Moment.looks).map (fun m => (m.time, m.pages 0)) =
        [(0, [.addPage]), (946080000000, [.addPage])] ∧
      ¬ (log.filter Moment.looks).Pairwise fun m m' => m.time + 1892160000000 ≤ m'.time := by
  have h₀ : Punctual (origin { paginationThrottle := 1892160000000 } [{}] ⟨[]⟩) [] _ := .start
  have h₁ := ((h₀.step (.attach 0)).step (.report [⟨0, 5⟩])).move .lookAtViewport rfl
  have h₂ := (h₁.step (.report [⟨0, 6⟩])).move .noticeReport rfl
  have h₃ := h₂.sleep_of 500 (by decide) rfl (by decide)
  have h₄ := (h₃.move .considerViewport rfl).sleep_of 946080000000 (by decide) rfl (by decide)
  have h₅ := (h₄.move .wakePager rfl).move .lookAtViewport rfl
  exact ⟨_, _, h₅, rfl, rfl, by decide⟩

end World

end LiveRooms
