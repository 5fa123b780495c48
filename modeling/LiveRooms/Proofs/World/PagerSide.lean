import LiveRooms.Proofs.World.Changes

/-!
# The pager side of a world

What a pager does depends on part of the world only: the viewport reported last, the pager itself
and whether the projection is dropped.  `World.pagerSide` is that part, together with the requests
for pages that each source received.  Three moves and two steps from outside change it
(`PagerSide.Moves`, `PagerSide.Steps`), and only a look at the viewport leads to requests.
-/

namespace LiveRooms

/-- The part of a world that its pager depends on, and the pages asked for. -/
structure PagerSide where
  throttle : Nat
  viewport : Viewport
  pager : Pager
  isDropped : Bool
  /-- The number of sources. -/
  sources : Nat
  /-- The requests that each source received. -/
  pages : Nat → List PageRequest

def Call.page? : Call → Option PageRequest
  | .page request => some request
  | .setFilter _ => none

def Source.pages (s : Source) : List PageRequest := s.calls.filterMap Call.page?

namespace World

/-- The requests for pages that a source received. -/
def pages (i : Nat) (w : World) : List PageRequest := w.remote.sources[i]?.elim [] Source.pages

def pagerSide (w : World) : PagerSide where
  throttle := w.projection.config.paginationThrottle.toNat
  viewport := w.projection.viewport
  pager := w.projection.pager
  isDropped := w.projection.isDropped
  sources := w.remote.sources.length
  pages i := w.pages i

/-- Whether the projection follows a source. -/
def follows (i : Nat) (w : World) : Bool := w.projection.attachment.any fun a => a.source = i

/-- What the viewport asks of a source, unless it is not followed. -/
def asks (i : Nat) (w : World) : List PageRequest :=
  if w.follows i then (w.projection.viewport.pageRequest w.projection.store.count).toList else []

end World

namespace PagerSide

/-- Whether a move does something to the pager side. -/
def movesPager : World.Move → Bool
  | .lookAtViewport | .wakePager | .stopPager => true
  | _ => false

/-- What moves do to the pager side, when the viewport asks the sources for `asked`. -/
inductive Moves (now : Nat) (asked : Nat → List PageRequest) (s : PagerSide) :
    World.Move → PagerSide → Prop where
  | look : s.pager.isReady = true →
      Moves now asked s .lookAtViewport
        { s with
          pager := s.pager.look now s.throttle s.viewport
          pages := fun i => s.pages i ++
            if i < s.sources && s.pager.decidesOn s.viewport then asked i else [] }
  | wake {e : Nat} : s.pager.restsUntil = some e → s.pager.isStopped = false → e ≤ now →
      Moves now asked s .wakePager { s with pager := { s.pager with restsUntil := none } }
  | stop : s.isDropped = true →
      Moves now asked s .stopPager { s with pager := { s.pager with isStopped := true } }
  | other {m : World.Move} : movesPager m = false → Moves now asked s m s

/-- What steps from outside do to the pager side. -/
inductive Steps (s : PagerSide) : Step → PagerSide → Prop where
  | report {viewports : List Viewport} {v : Viewport} : s.isDropped = false →
      viewports.getLast? = some v →
      Steps s (.report viewports) { s with viewport := v, pager := s.pager.report }
  | dropProjection : Steps s .dropProjection { s with isDropped := true }
  | other {step : Step} : step ≠ .dropProjection →
      (∀ viewports, step = .report viewports → s.isDropped = true ∨ viewports.getLast? = none) →
      Steps s step s

variable {s s' : PagerSide} {now : Nat} {asked : Nat → List PageRequest}

theorem Moves.sources_eq {m : World.Move} (h : Moves now asked s m s') :
    s'.sources = s.sources := by
  cases h <;> rfl

theorem Steps.sources_eq {step : Step} (h : Steps s step s') : s'.sources = s.sources := by
  cases h <;> rfl

end PagerSide

namespace Pager

variable {p p' : Pager} {now : Nat}

theorem wake?_eq_some (h : p.wake? now = some p') :
    ∃ e, p.restsUntil = some e ∧ p.isStopped = false ∧ e ≤ now ∧
      p' = { p with restsUntil := none } := by
  unfold wake? at h
  split at h
  · rename_i e he
    split at h
    · rename_i hc
      simp only [Bool.and_eq_true, Bool.not_eq_true', decide_eq_true_eq] at hc
      cases h
      exact ⟨e, he, hc.1, hc.2, rfl⟩
    · cases h
  · cases h

theorem stop?_eq_some (h : p.stop? = some p') : p' = { p with isStopped := true } := by
  unfold stop? at h
  split at h <;> cases h
  rfl

end Pager

namespace World

open PagerSide

variable {w w' : World} {now i : Nat}

/-! ## Sources -/

/-- A change of a source that records no request for pages leaves the pager side as it is. -/
theorem pagerSide_updateSource (i : Nat) (change : Source → Source) (w : World)
    (h : ∀ s, (change s).pages = s.pages) : (w.updateSource i change).pagerSide = w.pagerSide := by
  have hp : ∀ j, (w.updateSource i change).pages j = w.pages j := elim_updateSource_of_eq h w
  simp only [pagerSide, hp]
  simp [updateSource, Remote.updateSource]

theorem pagerSide_record (i : Nat) (filter : RemoteFilter) (w : World) :
    pagerSide { w with remote := w.remote.record i (.setFilter filter) } = w.pagerSide :=
  pagerSide_updateSource i (Source.record (.setFilter filter)) w fun s => by
    simp [Source.pages, Source.record, Call.page?]

theorem pagerSide_updateAttachment (i : Nat) (change : Attachment → Attachment) (w : World) :
    (w.updateAttachment i change).pagerSide = w.pagerSide := by
  rw [updateAttachment_eq]
  rfl

theorem pages_decidePages (w : World) (i : Nat) :
    (w.decidePages w.projection.viewport).pages i =
      w.pages i ++ if i < w.remote.sources.length then w.asks i else [] := by
  unfold decidePages
  cases ha : w.projection.attachment with
  | none => simp [asks, follows, ha]
  | some a =>
    cases hr : w.projection.viewport.pageRequest w.projection.store.count with
    | none => simp [asks, hr]
    | some request =>
      refine (elim_updateSource Source.pages (Source.record (.page request)) w i).trans ?_
      by_cases hi : a.source = i
      · subst hi
        have hasks : w.asks a.source = [request] := by simp [asks, follows, ha, hr]
        rw [if_pos rfl, hasks]
        by_cases hl : a.source < w.remote.sources.length
        · simp [pages, hl, Source.pages, Source.record, Call.page?]
        · simp [pages, hl]
      · simp [asks, follows, ha, hi, pages]

theorem length_sources_decidePages (v : Viewport) (w : World) :
    (w.decidePages v).remote.sources.length = w.remote.sources.length := by
  unfold decidePages
  split
  · simp [Remote.record, Remote.updateSource]
  · rfl

/-! ## Moves -/

theorem pagerSide_look (now : Nat) (w : World) :
    pagerSide (w.decideAtLook.setPager (w.projection.pager.look now
        w.projection.config.paginationThrottle.toNat w.projection.viewport)) =
      { w.pagerSide with
        pager := w.pagerSide.pager.look now w.pagerSide.throttle w.pagerSide.viewport
        pages := fun i => w.pagerSide.pages i ++
          if i < w.pagerSide.sources && w.pagerSide.pager.decidesOn w.pagerSide.viewport then
            w.asks i
          else [] } := by
  unfold decideAtLook
  cases hd : w.projection.pager.decidesOn w.projection.viewport with
  | false => simp [pagerSide, setPager, pages, hd]
  | true =>
    have hproj := projection_decidePages w.projection.viewport w
    simp only [pagerSide, setPager, if_true, hproj, length_sources_decidePages, hd,
      Bool.and_true, PagerSide.mk.injEq, true_and]
    funext i
    refine (pages_decidePages w i).trans (congrArg (w.pages i ++ ·) ?_)
    by_cases hl : i < w.remote.sources.length <;> simp [hl]

theorem pagerSide_requestRebuild (p : Projection) (remote : Remote) :
    pagerSide ⟨remote, p.requestRebuild⟩ = pagerSide ⟨remote, p⟩ := by
  unfold Projection.requestRebuild
  split <;> rfl

theorem pagerMoves_of_move? {m : Move} (h : w.move? now m = some w') :
    PagerSide.Moves now w.asks w.pagerSide m w'.pagerSide := by
  cases moved_of_move? h with
  | lookAtViewport hr =>
    rw [pagerSide_look]
    exact .look (s := w.pagerSide) hr
  | wakePager hp =>
    obtain ⟨e, he, hs, hle, rfl⟩ := Pager.wake?_eq_some hp
    exact .wake (s := w.pagerSide) he hs hle
  | stopPager hd hp =>
    obtain rfl := Pager.stop?_eq_some hp
    exact .stop (s := w.pagerSide) hd
  | readNotice =>
    split
    · rw [pagerSide_requestRebuild]
      exact .other rfl
    · exact .other rfl
  | _ => exact .other rfl

/-! ## Steps from outside -/

theorem pages_takeStream (s : Source) : s.takeStream.1.pages = s.pages :=
  congrArg (List.filterMap Call.page?) (calls_takeStream s)

theorem pagerSide_follow (i : Nat) (loading : LoadingState) (updates : List (List (Edit String)))
    (w : World) : (w.follow i loading updates).pagerSide = w.pagerSide :=
  pagerSide_record i ((default : Filter).toRemote w.projection.config.filterSettings) w

theorem pagerSide_filter (filter : Filter) (w : World) :
    (w.filter filter).1.pagerSide = w.pagerSide := by
  unfold World.filter
  split
  · exact pagerSide_record ..
  · rfl

/-- Most steps leave the pager side as it is. -/
theorem steps_of_pagerSide_eq {s : Step} (hd : s ≠ .dropProjection)
    (hr : ∀ viewports, s ≠ .report viewports) (h : w'.pagerSide = w.pagerSide) :
    PagerSide.Steps w.pagerSide s w'.pagerSide :=
  h ▸ .other hd fun viewports hs => absurd hs (hr viewports)

theorem steps_reportViewports (viewports : List Viewport) (hd : w.projection.isDropped = false) :
    PagerSide.Steps w.pagerSide (.report viewports) (w.reportViewports viewports).pagerSide := by
  unfold reportViewports
  split
  · rename_i hv
    exact .other (by simp) fun vs hvs => Or.inr (by cases hvs; exact hv)
  · rename_i v hv
    exact .report (s := w.pagerSide) hd hv

theorem pagerSteps_of_step (w : World) (s : Step) :
    PagerSide.Steps w.pagerSide s (w.step s).1.pagerSide := by
  have hs := stepped_of_step w s
  generalize (w.step s).1 = w', (w.step s).2 = outcome at hs
  cases hs with
  | report hd => exact steps_reportViewports _ hd
  | dropProjection => exact .dropProjection (s := w.pagerSide)
  | noSource ht _ =>
    exact steps_of_pagerSide_eq (fun he => by subst he; cases ht)
      (fun _ he => by subst he; cases ht) rfl
  | noProjection hu hd _ =>
    exact .other (fun he => by subst he; cases hu) fun _ _ => Or.inl hd
  | attach =>
    refine steps_of_pagerSide_eq (by simp) (by simp) ((pagerSide_follow ..).trans ?_)
    exact pagerSide_updateSource _ _ w pages_takeStream
  | attachTaken | consume =>
    exact steps_of_pagerSide_eq (by simp) (by simp) (pagerSide_updateSource _ _ w pages_takeStream)
  | push | loading | dropSource =>
    refine steps_of_pagerSide_eq (by simp) (by simp) ((pagerSide_updateAttachment ..).trans ?_)
    exact pagerSide_updateSource _ _ _ fun _ => rfl
  | filter => exact steps_of_pagerSide_eq (by simp) (by simp) (pagerSide_filter _ w)
  | settingsChanged =>
    refine steps_of_pagerSide_eq (by simp) (by simp) ?_
    split
    · rfl
    · rw [pagerSide_requestRebuild]
  | _ => exact steps_of_pagerSide_eq (by simp) (by simp) rfl

end World

end LiveRooms
