import LiveRooms.Proofs.World.Prospect
import LiveRooms.Proofs.World.Rest

/-!
# The prospect of a world

As long as a projection is there, no move changes what its prospect comes to (`settle_of_move`), and
those who look at the list change nothing that it depends on (`listAgrees_of_view`).  What other
steps from outside do to the prospect depends on nothing else in the world (`prospect_step`).
-/

namespace LiveRooms

/-- Whether a step is one of the view side: it reports viewports, sends a filter, changes a loading
state or how the service answers. -/
def Step.isView : Step → Bool
  | .report _ | .filter _ | .loading .. | .setService .. => true
  | _ => false

namespace World

/-- Whether the loading state of a source cannot be read. -/
def refuses (w : World) (i : Nat) : Bool := w.remote.sources[i]?.elim false Source.failsLoading

/-- What the list of the projection depends on. -/
def prospect (w : World) : Prospect where
  config := w.listSide.config
  refuses := w.refuses
  directory := w.listSide.directory
  streams := w.listSide.streams
  feed := w.listSide.feed.map fun f => (f.1, f.2.stock)
  entries := w.listSide.entries
  wantsRebuild := w.projection.rebuildQueued
  followers := w.projection.followers.map Follower.trim

/-- The projection is there, and its batcher is sound. -/
structure Working (now : Nat) (w : World) : Prop where
  isDropped : w.projection.isDropped = false
  isPipelineStopped : w.projection.isPipelineStopped = false
  batcher : ∀ a, w.projection.attachment = some a → a.batcher.isCancelled = false ∧
    a.batcher.isClosed = false ∧ a.batcher.Sound ∧ a.batcher.Timely now

/-- Two worlds agree on all that the list depends on. -/
structure ListAgrees (w w' : World) : Prop where
  listSide : w'.listSide = w.listSide
  refuses : w'.refuses = w.refuses
  rebuildQueued : w'.projection.rebuildQueued = w.projection.rebuildQueued
  followers : w'.projection.followers = w.projection.followers

variable {w w' : World} {now i : Nat}

theorem ListAgrees.prospect_eq (h : ListAgrees w w') : w'.prospect = w.prospect := by
  rw [prospect, prospect, h.listSide, h.refuses, h.rebuildQueued, h.followers]

theorem refuses_updateSource {change : Source → Source}
    (h : ∀ s, (change s).failsLoading = s.failsLoading) (i : Nat) (w : World) :
    (w.updateSource i change).refuses = w.refuses :=
  funext (elim_updateSource_of_eq h w)

theorem refuses_decideAtLook (w : World) : w.decideAtLook.refuses = w.refuses := by
  unfold decideAtLook decidePages
  split
  · split
    · rename_i a request _ _
      have h : ∀ s, (Source.record (.page request) s).failsLoading = s.failsLoading :=
        fun _ => rfl
      exact refuses_updateSource h a.source w
    · rfl
  · rfl

theorem listAgrees_decideAtLook (w : World) : ListAgrees w w.decideAtLook where
  listSide := by
    unfold decideAtLook
    split
    · exact listSide_decidePages ..
    · rfl
  refuses := refuses_decideAtLook w
  rebuildQueued := congrArg Projection.rebuildQueued (projection_decideAtLook w)
  followers := congrArg Projection.followers (projection_decideAtLook w)

/-! ## Moves -/

theorem feed_prospect {a : Attachment} (ha : w.projection.attachment = some a) :
    w.prospect.feed = some (a.source, a.batcher.stock) := by
  simp only [prospect, listSide, ha, Option.map_some]

end World

namespace Prospect

variable {p : Prospect} {now i : Nat} {s s' : Stock (Edit String)}

/-- Items leave the batcher, or are on their way out of it. -/
theorem settle_of_sameAt (hf : p.feed = some (i, s)) (h : s.SameAt now s') :
    settle now { p with feed := some (i, s') } = p.settle now := by
  obtain ⟨hdue, hrest⟩ := h
  simp only [settle, due, asks, hf, Option.map_some, Option.elim, hdue, hrest]

/-- A batch is applied. -/
theorem settle_of_applied {batch : List (Edit String)} (hf : p.feed = some (i, s))
    (hdue : s.due now = batch ++ s'.due now) (hrest : s.settle now = s'.settle now) :
    settle now { p with
      feed := some (i, s'), entries := p.directory.applyBatch batch p.entries } =
        p.settle now := by
  simp only [settle, due, asks, hf, Option.map_some, Option.elim, hdue, hrest,
    Directory.applyBatch_append]
  rfl

/-- The rebuild that was asked for is made. -/
theorem settle_of_rebuilt (hr : p.wantsRebuild = true) :
    settle now { p with
      entries := p.directory.rebuild p.entries, wantsRebuild := false } = p.settle now := by
  have he : p.asks = true := by rw [asks, hr, Bool.true_or]
  simp only [settle, he, if_true, due, Prospect.mk.injEq, true_and, and_true]
  split
  · rw [← Directory.rebuild_applyBatch, Directory.rebuild_rebuild]
  · exact (Directory.rebuild_applyBatch ..).symm

theorem settle_of_followers {followers : List Follower} {wantsRebuild : Bool}
    (hf : followers.map Follower.settle = p.followers.map Follower.settle)
    (ha : (wantsRebuild || followers.any Follower.asks) = p.asks) :
    settle now { p with followers, wantsRebuild } = p.settle now := by
  have ha' : asks { p with followers, wantsRebuild } = p.asks := ha
  simp only [settle, ha', hf, due]

/-- One of the followers reads a notice or finishes. -/
theorem any_asks_set {followers : List Follower} {f f' : Follower} {asked : Bool}
    (hf : followers[i]? = some f) (ha : f.trim.asks = (asked || f'.trim.asks)) :
    (asked || ((followers.set i f').map Follower.trim).any Follower.asks) =
      (followers.map Follower.trim).any Follower.asks := by
  induction followers generalizing i with
  | nil => cases hf
  | cons g followers ih =>
    cases i with
    | zero =>
      cases hf
      simp only [List.set_cons_zero, List.map_cons, List.any_cons, ha, Bool.or_assoc]
    | succ i =>
      have := ih (i := i) hf
      simp only [List.set_cons_succ, List.map_cons, List.any_cons]
      rw [← this, Bool.or_left_comm]

theorem map_settle_set {followers : List Follower} {f f' : Follower}
    (hf : followers[i]? = some f) (hs : f'.trim.settle = f.trim.settle) :
    ((followers.set i f').map Follower.trim).map Follower.settle =
      (followers.map Follower.trim).map Follower.settle := by
  induction followers generalizing i with
  | nil => cases hf
  | cons g followers ih =>
    cases i with
    | zero =>
      cases hf
      simp only [List.set_cons_zero, List.map_cons, hs]
    | succ i => simp only [List.set_cons_succ, List.map_cons, ih (i := i) hf]

end Prospect

namespace World

variable {w w' : World} {now i : Nat}

theorem prospect_readNotice (hs : w.projection.isPipelineStopped = false)
    {followers : List Follower} {asked : Bool} :
    prospect { w with
      projection :=
        let projection := { w.projection with followers }
        if asked then projection.requestRebuild else projection } =
      { w.prospect with
        followers := followers.map Follower.trim
        wantsRebuild := w.projection.rebuildQueued || asked } := by
  cases asked with
  | false =>
    rw [Bool.or_false]
    rfl
  | true =>
    have hr : Projection.requestRebuild { w.projection with followers } =
        { w.projection with followers, rebuildQueued := true } := if_neg (by simp [hs])
    simp only [if_true, hr, Bool.or_true]
    rfl

/-- But for those of a batch and of a rebuild no move changes what the prospect comes to, whatever
the entries are. -/
theorem settle_of_move {m : Move} (h : w.move? now m = some w') (hw : w.Working now)
    (hn : m ≠ .applyBatch) (hn' : m ≠ .rebuild) (entries : List Entry) :
    Prospect.settle now { w'.prospect with entries } =
      Prospect.settle now { w.prospect with entries } := by
  have hdropped := hw.isDropped
  have hsame (ha : ListAgrees w w') : Prospect.settle now { w'.prospect with entries } =
      Prospect.settle now { w.prospect with entries } := by rw [ha.prospect_eq]
  cases moved_of_move? h with
  | applyBatch => exact absurd rfl hn
  | rebuild => exact absurd rfl hn'
  | stopPipeline hd | stopPager hd | stopSubscriber hd =>
    rw [hd] at hdropped
    cases hdropped
  | @batch a b m ha hb =>
    obtain ⟨hx, hc, -, ht⟩ := hw.batcher a ha
    exact Prospect.settle_of_sameAt (p := { w.prospect with entries }) (feed_prospect ha)
      (Batcher.sameAt_of_moves (Batcher.moves_of_move? hb) ht hx hc)
  | stopStatus ha | followStatus ha =>
    refine hsame ⟨?_, rfl, rfl, rfl⟩
    simp only [listSide, ha, Option.map_some]
  | @readNotice i f f' asked hf hr =>
    obtain ⟨hsettle, hasks⟩ := Follower.settle_of_read? hr
    rw [prospect_readNotice hw.isPipelineStopped]
    refine Prospect.settle_of_followers (p := { w.prospect with entries })
      (Prospect.map_settle_set hf ?_) ?_
    · rw [Follower.settle_trim, Follower.settle_trim, hsettle]
    · rw [Bool.or_assoc, Prospect.any_asks_set hf]
      · rfl
      · rw [Follower.asks_trim, Follower.asks_trim, hasks]
  | @finishFollower i f f' hf hr =>
    rw [hdropped] at hr
    obtain ⟨hsettle, hasks⟩ := Follower.settle_of_finish? hr
    refine Prospect.settle_of_followers (p := { w.prospect with entries })
      (Prospect.map_settle_set hf ?_) ?_
    · rw [Follower.settle_trim, Follower.settle_trim, hsettle]
    · have hany := Prospect.any_asks_set hf (show f.trim.asks = (false || f'.trim.asks) by
        rw [Follower.asks_trim, Follower.asks_trim, hasks, Bool.false_or])
      rw [Bool.false_or] at hany
      exact congrArg (w.prospect.wantsRebuild || ·) hany
  | lookAtViewport =>
    obtain ⟨hl, hs, hq, hf⟩ := listAgrees_decideAtLook w
    exact hsame ⟨hl, hs, hq, hf⟩
  | _ => rfl

/-! ## Steps from outside -/

/-- A change of a source and of the attachment to it leaves alone what else the list depends on. -/
theorem aside_of_updates {change : Source → Source}
    (h : ∀ s, (change s).failsLoading = s.failsLoading) (i : Nat)
    (change' : Attachment → Attachment) (w : World) :
    ((w.updateSource i change).updateAttachment i change').refuses = w.refuses ∧
      ((w.updateSource i change).updateAttachment i change').projection.rebuildQueued =
        w.projection.rebuildQueued ∧
      ((w.updateSource i change).updateAttachment i change').projection.followers =
        w.projection.followers := by
  have hr := refuses_updateSource h i w
  rw [updateAttachment_eq]
  exact ⟨hr, rfl, rfl⟩

theorem listAgrees_setLoading (i : Nat) (state : LoadingState) (w : World) :
    ListAgrees w (w.setLoading i state) := by
  have hl : ∀ s : Source, { s with loading := state }.failsLoading = s.failsLoading :=
    fun _ => rfl
  obtain ⟨hr, hq, hf⟩ := aside_of_updates hl i (fun a => { a with hasStatusReport := true }) w
  exact ⟨listSide_setLoading i state w, hr, hq, hf⟩

theorem listAgrees_reportViewports (viewports : List Viewport) (w : World) :
    ListAgrees w (w.reportViewports viewports) := by
  unfold reportViewports
  split <;> exact ⟨rfl, rfl, rfl, rfl⟩

theorem listAgrees_filter (filter : Filter) (w : World) : ListAgrees w (w.filter filter).1 := by
  have hl := listSide_filter filter w
  unfold World.filter at hl ⊢
  split
  · rename_i a ha
    rw [ha] at hl
    have hr : ∀ s, (Source.record (.setFilter
        (filter.toRemote w.projection.config.filterSettings)) s).failsLoading = s.failsLoading :=
      fun _ => rfl
    exact ⟨hl, refuses_updateSource hr a.source w, rfl, rfl⟩
  · exact ⟨rfl, rfl, rfl, rfl⟩

/-- The view side changes nothing that the list depends on. -/
theorem listAgrees_of_view {s : Step} (hs : s.isView = true) (w : World) :
    ListAgrees w (w.step s).1 := by
  have h := stepped_of_step w s
  generalize (w.step s).1 = w', (w.step s).2 = outcome at h
  cases h with
  | noSource | noProjection | setService => exact ⟨rfl, rfl, rfl, rfl⟩
  | loading => exact listAgrees_setLoading ..
  | report => exact listAgrees_reportViewports ..
  | filter => exact listAgrees_filter ..
  | _ => cases hs

/-- The stream of a source changes, and what the batcher over it holds. -/
theorem prospect_of_updates {stream : Option (Option (List (List (Edit String))))}
    {change : Batcher (Edit String) → Batcher (Edit String)}
    {change' : Stock (Edit String) → Stock (Edit String)}
    (hl : w'.listSide = (w.listSide.setStream i stream).updateFeed i change)
    (hr : w'.refuses = w.refuses)
    (hq : w'.projection.rebuildQueued = w.projection.rebuildQueued)
    (hf : w'.projection.followers = w.projection.followers)
    (hc : ∀ j b, w.listSide.feed = some (j, b) → (change b).stock = change' b.stock) :
    w'.prospect = (w.prospect.setStream i stream).updateFeed i change' := by
  have hfeed : ((w.listSide.updateFeed i change).feed.map fun f => (f.1, f.2.stock)) =
      (w.listSide.feed.map fun f => (f.1, f.2.stock)).map fun f =>
        (f.1, if f.1 = i then change' f.2 else f.2) := by
    cases hf : w.listSide.feed with
    | none => simp [ListSide.updateFeed, hf]
    | some f =>
      obtain ⟨j, b⟩ := f
      simp only [ListSide.updateFeed, hf, Option.map_some, Option.some.injEq, Prod.mk.injEq,
        true_and]
      split
      · exact hc j b hf
      · rfl
  rw [prospect, hl, hr, hq, hf]
  exact congrArg (fun feed => { w.prospect.setStream i stream with feed }) hfeed

theorem refuses_takeStream (i : Nat) (w : World) :
    (w.updateSource i fun s => s.takeStream.1).refuses = w.refuses := by
  have h : ∀ s : Source, s.takeStream.1.failsLoading = s.failsLoading := by
    intro s
    unfold Source.takeStream
    split <;> rfl
  exact refuses_updateSource h i w

/-- The stream of a source is taken. -/
theorem prospect_taken {source : Source} {updates : List (List (Edit String))}
    (hs : w.hasSource i = true) (hi : w.remote.sources[i]? = some source)
    (ht : source.takeStream.2 = .ok updates) :
    w.prospect.streams i = some (some updates) ∧
      (w.updateSource i fun s => s.takeStream.1).prospect =
        w.prospect.setStream i (some none) := by
  obtain ⟨hst, hl⟩ := listSide_taken hs hi ht
  refine ⟨hst, ?_⟩
  rw [prospect, hl, refuses_takeStream]
  rfl

/-- A stream that was taken before stays taken. -/
theorem prospect_taken_before {source : Source} {failure : Failure} (hs : w.hasSource i = true)
    (hi : w.remote.sources[i]? = some source) (ht : source.takeStream.2 = .error failure) :
    w.prospect.streams i = some none ∧
      (w.updateSource i fun s => s.takeStream.1).prospect = w.prospect := by
  constructor
  · have hd : source.isDropped = false := by simpa [hasSource, hi] using hs
    have hst : source.stream = none := by
      unfold Source.takeStream at ht
      split at ht <;> cases ht
      assumption
    simp [prospect, listSide, hi, Source.open?, hd, hst]
  · exact ListAgrees.prospect_eq ⟨listSide_taken_before hi ht, refuses_takeStream i w, rfl, rfl⟩

theorem refuses_of_loadingState {source : Source} (hi : w.remote.sources[i]? = some source) :
    w.prospect.refuses i = source.failsLoading := by
  simp [prospect, refuses, hi]

theorem prospect_follow (i : Nat) (loading : LoadingState) (updates : List (List (Edit String)))
    (w : World) :
    (w.follow i loading updates).prospect =
      { w.prospect with
        feed := some (i, {
          window := w.prospect.config.batchWindow.toNat, fresh := updates.flatten }) } := by
  have hr : ∀ s, (Source.record (.setFilter
      ((default : Filter).toRemote w.projection.config.filterSettings)) s).failsLoading =
      s.failsLoading := fun _ => rfl
  have hr' : (w.follow i loading updates).refuses = w.refuses := refuses_updateSource hr i w
  rw [prospect, listSide_follow, hr']
  rfl

theorem prospect_attach {outcome : Outcome} (h : Stepped w (.attach i) w' outcome)
    (hd : w.projection.isDropped = false) : w'.prospect = w.prospect.step (.attach i) := by
  cases h with
  | noSource ht hn =>
    cases ht
    have hst : w.prospect.streams i = none := streams_eq_none hn
    exact (Prospect.step_attach_eq_self (Or.inr (Or.inr (by simp [hst])))).symm
  | noProjection _ hd' =>
    rw [hd] at hd'
    cases hd'
  | attachAgain _ _ ha =>
    refine (Prospect.step_attach_eq_self (Or.inl ?_)).symm
    simpa [prospect, listSide] using ha
  | @attachUnreadable _ source failure _ _ _ hi hl =>
    refine (Prospect.step_attach_eq_self (Or.inr (Or.inl ?_))).symm
    rw [refuses_of_loadingState hi]
    unfold Source.loadingState at hl
    split at hl
    · assumption
    · cases hl
  | attachTaken hs _ _ hi _ ht =>
    obtain ⟨hst, hp⟩ := prospect_taken_before hs hi ht
    rw [hp]
    exact (Prospect.step_attach_eq_self (Or.inr (Or.inr (by simp [hst])))).symm
  | @attach _ source loading updates hs _ ha hi hl ht =>
    obtain ⟨hst, hp⟩ := prospect_taken hs hi ht
    have hf : w.prospect.feed = none := by simp [prospect, listSide, ha]
    have hr : w.prospect.refuses i = false := by
      rw [refuses_of_loadingState hi]
      unfold Source.loadingState at hl
      split at hl
      · cases hl
      · exact Bool.eq_false_iff.2 ‹_›
    rw [prospect_follow, hp]
    simp only [Prospect.step, hf, hr, hst]
    rfl

theorem prospect_consume {outcome : Outcome} (h : Stepped w (.consume i) w' outcome) :
    w'.prospect = w.prospect.step (.consume i) := by
  cases h with
  | noSource ht hn =>
    cases ht
    have hst : w.prospect.streams i = none := streams_eq_none hn
    simp only [Prospect.step, hst]
  | noProjection hu => cases hu
  | @consume _ source hs hi =>
    cases ht : source.takeStream.2 with
    | ok updates =>
      obtain ⟨hst, hp⟩ := prospect_taken hs hi ht
      rw [hp]
      simp only [Prospect.step, hst]
    | error failure =>
      obtain ⟨hst, hp⟩ := prospect_taken_before hs hi ht
      rw [hp]
      simp only [Prospect.step, hst]

/-- The update reaches the batcher of the source if it is followed. -/
theorem prospect_push {edits : List (Edit String)} (hw : w.Working now)
    (hs : w.hasSource i = true) :
    (w.push i edits).prospect = w.prospect.step (.push i edits) := by
  have hfails : ∀ s : Source, { s with
      stream := s.stream.map fun updates => updates ++ [edits] }.failsLoading = s.failsLoading :=
    fun _ => rfl
  obtain ⟨hr, hq, hf⟩ :=
    aside_of_updates hfails i (fun a => { a with batcher := (a.batcher.push edits).1 }) w
  have hstock (j : Nat) (b : Batcher (Edit String)) (hb : w.listSide.feed = some (j, b)) :
      (b.push edits).1.stock = b.stock.push edits := by
    obtain ⟨a, ha, -, rfl⟩ := feed_eq_some_iff.1 hb
    obtain ⟨hn, hc, hsound, -⟩ := hw.batcher a ha
    exact Batcher.stock_push hsound hn hc edits
  have hl : ListSide.Steps w.listSide (.push i edits) (w.push i edits).listSide := steps_push hs
  generalize hside : (w.push i edits).listSide = s' at hl
  cases hl with
  | noSource hn => exact absurd (hasSource_iff.1 hs) (by simp [hn])
  | other h => cases h
  | push hst =>
    have hst' : w.prospect.streams i = some _ := hst
    simp only [Prospect.step, hst']
    exact prospect_of_updates hside hr hq hf hstock

theorem prospect_dropSource (i : Nat) (w : World) :
    (w.dropSource i).prospect = w.prospect.step (.dropSource i) := by
  have hfails : ∀ s : Source, { s with isDropped := true }.failsLoading = s.failsLoading :=
    fun _ => rfl
  obtain ⟨hr, hq, hf⟩ :=
    aside_of_updates hfails i (fun a => { a with batcher := a.batcher.finishStream }) w
  have hl := steps_dropSource i w
  generalize hside : (w.dropSource i).listSide = s' at hl
  cases hl with
  | other h => cases h
  | dropSource => exact prospect_of_updates hside hr hq hf fun _ _ _ => rfl

theorem prospect_settingsChanged (times : Nat) (hs : w.projection.isPipelineStopped = false) :
    prospect (if times = 0 then w else { w with projection := w.projection.requestRebuild }) =
      w.prospect.step (.settingsChanged times) := by
  have hr : w.projection.requestRebuild = { w.projection with rebuildQueued := true } :=
    if_neg (by simp [hs])
  split
  · rename_i h
    simp [Prospect.step, h]
  · rename_i h
    have ht : (w.projection.rebuildQueued || times != 0) = true := by simp [h]
    rw [hr]
    exact congrArg (fun wantsRebuild => { w.prospect with wantsRebuild }) ht.symm

theorem prospect_updateFollower {id : String} {change : Follower → Follower}
    (hc : ∀ f, (change f).trim = change f.trim) (w : World) :
    (w.updateFollower id change).prospect = w.prospect.updateFollower id change := by
  have hf : ((w.projection.followers.map fun f => if f.id = id then change f else f).map
      Follower.trim) =
      (w.projection.followers.map Follower.trim).map fun f =>
        if f.id = id then change f else f := by
    rw [List.map_map, List.map_map]
    refine List.map_congr_left fun f _ => ?_
    simp only [Function.comp_apply, Follower.id_trim]
    split
    · exact hc f
    · rfl
  exact congrArg (fun followers => { w.prospect with followers }) hf

theorem prospect_addFollower (id : String) (w : World) :
    (w.addFollower id).prospect = w.prospect.step (.follow id) := by
  have hf : (w.projection.followers.filter fun f => f.id != id).map Follower.trim =
      (w.projection.followers.map Follower.trim).filter fun f => f.id != id := by
    rw [List.filter_map]
    exact congrArg (List.map Follower.trim)
      (List.filter_congr fun f _ => congrArg (· != id) f.id_trim.symm)
  have hf' : (w.projection.followers.filter (fun f => f.id != id) ++
      [({ id } : Follower)]).map Follower.trim =
      (w.projection.followers.map Follower.trim).filter (fun f => f.id != id) ++
        [({ id } : Follower)] := by
    rw [List.map_append, hf]
    rfl
  exact congrArg (fun followers => { w.prospect with followers }) hf'

/-- What other steps than a drop do to the prospect depends on nothing else in the world. -/
theorem prospect_step {s : Step} (hw : w.Working now) (hs : s.isView = false)
    (hd : s ≠ .dropProjection) : (w.step s).1.prospect = w.prospect.step s := by
  have hdropped := hw.isDropped
  have h := stepped_of_step w s
  generalize (w.step s).1 = w', (w.step s).2 = outcome at h
  cases s with
  | attach i => exact prospect_attach h hdropped
  | consume i => exact prospect_consume h
  | push i edits =>
    cases h with
    | noSource ht hn =>
      cases ht
      have hst : w.prospect.streams i = none := streams_eq_none hn
      simp only [Prospect.step, hst]
    | noProjection hu => cases hu
    | push hi => exact prospect_push hw hi
  | dropSource i =>
    cases h with
    | noSource ht => cases ht
    | noProjection hu => cases hu
    | dropSource => exact prospect_dropSource i w
  | settingsChanged times =>
    cases h with
    | noSource ht => cases ht
    | noProjection _ hd' =>
      rw [hdropped] at hd'
      cases hd'
    | settingsChanged => exact prospect_settingsChanged times hw.isPipelineStopped
  | follow id =>
    cases h with
    | noSource ht => cases ht
    | noProjection _ hd' =>
      rw [hdropped] at hd'
      cases hd'
    | follow => exact prospect_addFollower id w
  | notify id times =>
    cases h with
    | noSource ht => cases ht
    | noProjection hu => cases hu
    | notify => exact prospect_updateFollower (Follower.trim_notify times) w
  | unfollow id =>
    cases h with
    | noSource ht => cases ht
    | noProjection hu => cases hu
    | unfollow => exact prospect_updateFollower Follower.trim_finishStream w
  | setRoom key info event readable =>
    cases h with
    | noSource ht => cases ht
    | noProjection hu => cases hu
    | setRoom => rfl
  | dropProjection => exact absurd rfl hd
  | loading | report | filter | setService => cases hs

end World

end LiveRooms
