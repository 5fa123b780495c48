import LiveRooms.Proofs.Exchange.Rebuilds
import LiveRooms.Proofs.Pipeline.Reference
import LiveRooms.Proofs.World.LaterNotices
import LiveRooms.Proofs.World.Rest

/-!
# The list after a request

A room that no step changes is the same at every read of it (`room_of_reads`).  So once nothing is
left to do after a request, every room that can be read and did not change since shows its metadata
(`current_of_quiet`), whatever was under way when the request came.  That holds from a notice on,
unless it is the first of its stream, since by then it was read.
-/

namespace LiveRooms

theorem Directory.info_of_readable {d : Directory} {key : String}
    (h : (d.room key).readable = true) : d.info key = .ok (d.room key).info := by
  simp [info, Room.fetch, h]

/-- An entry that was built from a room as it is now, and can be read now, is up to date. -/
theorem Covers.eq_built {reads : List Read} {entries : List Entry} (h : Covers reads entries)
    {entry : Entry} (he : entry ∈ entries) {d : Directory}
    (hd : ∀ read ∈ reads, read.directory.room entry.key = d.room entry.key)
    (hr : (d.room entry.key).readable = true) : entry = d.built entry.key := by
  have hinfo : ∀ d', ⟨.info entry.key, d'⟩ ∈ reads →
      d'.info entry.key = .ok (d.room entry.key).info := by
    intro d' hm
    have hroom : d'.room entry.key = d.room entry.key := hd _ hm
    rw [Directory.info_of_readable (by rw [hroom, hr]), hroom]
  rcases h entry he with ⟨d₁, d₂, info, hm₁, hm₂, hi, hs⟩ | ⟨d', failure, hm, hf⟩
  · rw [hinfo d₂ hm₂] at hi
    have hroom : d₁.room entry.key = d.room entry.key := hd _ hm₁
    rw [Directory.event, hroom, ← Except.ok.inj hi] at hs
    exact congrArg (Entry.mk entry.key) hs
  · rw [hinfo d' hm] at hf
    cases hf

namespace Exchange

variable {config : Config} {sources : List Source} {directory : Directory} {now : Nat}
  {log : List Moment} {t : Timeline Exchange} {x x' : Exchange} {m : Moment}

/-! ## Rooms that stay as they are -/

/-- No step changes a room. -/
def Spares (key : String) (steps : List Step) : Prop :=
  ∀ info event readable, .setRoom key info event readable ∉ steps

theorem Spares.mono {key : String} {steps steps' : List Step} (h : Spares key steps)
    (hs : steps' ⊆ steps) : Spares key steps' := fun info event readable hm =>
  h info event readable (hs hm)

/-- A request changes no room. -/
theorem spares_of_asks {key : String} {late : List Moment} (hr : m.asks = true)
    (hs : Spares key (stepsOf late)) : Spares key (stepsOf (m :: late)) := by
  obtain ⟨time, before, cause⟩ := m
  cases cause with
  | move move => exact hs
  | step s =>
    intro info event readable hm
    rcases List.mem_cons.1 hm with he | hm
    · cases he
      cases hr
    · exact hs info event readable hm

theorem directory_of_acts {move : Move} (ha : Acts now x move x') :
    x'.world.remote.directory = x.world.remote.directory := by
  cases ha with
  | world _ hw => exact (ListSide.frame_of_moves (World.moves_of_move? hw)).1
  | takeBatch _ _ _ hsame | askCount _ hsame | receiveCount _ _ hsame | askIds _ hsame
  | receiveIds _ _ hsame => exact hsame.directory
  | takeRebuild | receiveEntries | readRoom | storeEntries | publish | serve => rfl

/-- What holds of the rooms at first, and still holds after every change that is made, holds of them
always. -/
theorem directory_of_course {t₀ : Timeline Exchange} {P : Directory → Prop} (hc : Course t₀ log t)
    (h₀ : P t₀.state.world.remote.directory)
    (hs : ∀ key info event readable, .setRoom key info event readable ∈ stepsOf log →
      ∀ d, P d → P (d.update key (Room.change info event readable))) :
    P t.state.world.remote.directory ∧ ∀ m ∈ log, P m.before.world.remote.directory := by
  induction hc with
  | start => exact ⟨h₀, fun m h => absurd h List.not_mem_nil⟩
  | wait later _ _ ih => exact ih hs
  | @step log t s _ ih =>
    rw [stepsOf_append] at hs
    obtain ⟨hd, hm⟩ := ih fun key info event readable h =>
      hs key info event readable (List.mem_append_left _ h)
    refine ⟨?_, List.forall_mem_append.2 ⟨hm, by simpa using hd⟩⟩
    rcases ListSide.directory_of_steps (World.steps_of_step t.state.world s) with
      he | ⟨key, info, event, readable, rfl, he⟩
    · exact (congrArg P he).mpr hd
    · exact (congrArg P he).mpr
        (hs key info event readable (List.mem_append_right _ (List.mem_singleton_self _)) _ hd)
  | move move _ hmove ih =>
    rw [stepsOf_append] at hs
    obtain ⟨hd, hm⟩ := ih fun key info event readable h =>
      hs key info event readable (List.mem_append_left _ h)
    refine ⟨?_, List.forall_mem_append.2 ⟨hm, by simpa using hd⟩⟩
    rwa [directory_of_acts (acts_of_move? hmove)]

theorem directory_of_read? {read : Read} (h : m.read? = some read) :
    read.directory = m.before.world.remote.directory := by
  unfold Moment.read? at h
  split at h
  · cases h
    rfl
  · cases h

/-- What holds of the rooms at every moment holds at every read. -/
theorem directory_of_reads {P : Directory → Prop}
    (h : ∀ m ∈ log, P m.before.world.remote.directory) : ∀ read ∈ readsOf log, P read.directory := by
  intro read hr
  obtain ⟨m, hm, hread⟩ := List.mem_filterMap.1 hr
  rw [directory_of_read? hread]
  exact h m hm

/-- Reads of a room that no step changed since see it as it is. -/
theorem room_of_reads {t₀ : Timeline Exchange} {key : String} (hc : Course t₀ log t)
    (hs : Spares key (stepsOf log)) :
    ∀ read ∈ readsOf log, read.directory.room key = t.state.world.remote.directory.room key := by
  let P : Directory → Prop := fun d => d.room key = t₀.state.world.remote.directory.room key
  have hsame : P t.state.world.remote.directory ∧ ∀ m ∈ log, P m.before.world.remote.directory := by
    refine directory_of_course hc rfl fun key' info event readable hmem d h => ?_
    have hk : key ≠ key' := by
      rintro rfl
      exact hs info event readable hmem
    exact (Directory.room_update_of_ne hk d _).trans h
  intro read hr
  have hread : P read.directory := directory_of_reads hsame.2 read hr
  exact hread.trans hsame.1.symm

/-! ## In a world -/

section

variable {early late : List LiveRooms.Moment} {r : LiveRooms.Moment} {w : Timeline World}

theorem allows_readNotice {i : Nat} {w w' : World} (h : w.move? now (.readNotice i) = some w') :
    (calm w).move? now (.world (.readNotice i)) = some (calm w') := by
  have hw : (calm w).world.move? now (.readNotice i) = some w' := h
  simp only [move?, worldMove?, allows, if_true, hw]
  rfl

/-- A course of a world in which something asks for a rebuild is one of exchanges. -/
theorem exists_course_of_request {t₀ : Timeline World} {log : List LiveRooms.Moment}
    (hc : World.Course t₀ log w) (hlog : log = early ++ r :: late)
    (hr : r.before.requests r.cause = true) :
    ∃ early' r' late', Course (still t₀) (early' ++ r' :: late') (still w) ∧ r'.asks = true ∧
      stepsOf late' = LiveRooms.stepsOf late := by
  induction hc generalizing late with
  | start => simp at hlog
  | wait later _ hl ih =>
    obtain ⟨early', r', late', hc', hr', hs'⟩ := ih hlog
    exact ⟨early', r', late', hc'.wait later hl, hr', hs'⟩
  | @step log t s hc ih =>
    rcases snoc_eq_append_cons hlog with ⟨rfl, rfl, rfl⟩ | ⟨late, rfl, hlog'⟩
    · obtain ⟨log', hc', -⟩ := exists_course hc
      exact ⟨log', _, [], hc'.step s, hr, rfl⟩
    · obtain ⟨early', r', late', hc', hr', hs'⟩ := ih hlog'
      refine ⟨early', r', late' ++ [⟨t.now, calm t.state, .step s⟩], ?_, hr', ?_⟩
      · have h := hc'.step s
        rwa [List.append_assoc] at h
      · rw [stepsOf_append, hs', stepsOf_snoc_step]
        rfl
  | @move log t w move hc hm ih =>
    rcases snoc_eq_append_cons hlog with ⟨rfl, rfl, rfl⟩ | ⟨late, rfl, hlog'⟩
    · obtain ⟨log', hc', -⟩ := exists_course hc
      cases move with
      | readNotice i =>
        exact ⟨log', _, [], hc'.move (.world (.readNotice i)) (allows_readNotice hm), hr, rfl⟩
      | _ => cases hr
    · obtain ⟨early', r', late', hc', hr', hs'⟩ := ih hlog'
      obtain ⟨log'', hc'', hs''⟩ := leads_move hm
      refine ⟨early', r', late' ++ log'', ?_, hr', ?_⟩
      · have h := hc'.trans hc''
        rwa [List.append_assoc] at h
      · rw [stepsOf_append, hs', hs'', stepsOf_snoc_move, List.append_nil]

/-- When nothing is left to do after a request, a room that can be read and did not change since
shows its metadata. -/
theorem current_of_request
    (hc : World.Course (World.origin config sources directory) (early ++ r :: late) w)
    (hr : r.before.requests r.cause = true) (hd : w.state.projection.isDropped = false)
    (hq : Timed.Quiet w.now w.state) : ∀ entry ∈ w.state.projection.store.entries,
      Spares entry.key (LiveRooms.stepsOf late) →
      (w.state.remote.directory.room entry.key).readable = true →
      entry = w.state.remote.directory.built entry.key := by
  have hs := World.isPipelineStopped_of_course hc hd
  obtain ⟨early', r', late', hc', hr', hsteps⟩ := exists_course_of_request hc rfl hr
  have hcov := covers_of_course hc' rfl hr' rfl hs (World.rebuildQueued_of_quiet hq hs)
  intro entry he hspare hread
  have hreads := room_of_reads hc'.of_append_cons.2 (spares_of_asks hr' (hsteps ▸ hspare))
  refine hcov.eq_built he (fun read hm => hreads read ?_) hread
  obtain ⟨m, hm, hmr⟩ := List.mem_filterMap.1 hm
  exact List.mem_filterMap.2 ⟨m, List.mem_cons_of_mem r' hm, hmr⟩

/-- So does one that did not change since something that led to a request. -/
theorem current_of_quiet {m : LiveRooms.Moment}
    (hc : World.Course (World.origin config sources directory) (early ++ r :: late) w)
    (hm : m ∈ r :: late) (hr : m.before.requests m.cause = true)
    (hd : w.state.projection.isDropped = false) (hq : Timed.Quiet w.now w.state) :
    ∀ entry ∈ w.state.projection.store.entries, Spares entry.key (LiveRooms.stepsOf late) →
      (w.state.remote.directory.room entry.key).readable = true →
      entry = w.state.remote.directory.built entry.key := by
  obtain ⟨mid, late', he⟩ := List.append_of_mem hm
  have hlate : late' ⊆ late := by
    cases mid with
    | nil =>
      obtain ⟨-, rfl⟩ := List.cons.inj he
      exact List.Subset.refl late
    | cons m' mid =>
      obtain ⟨-, rfl⟩ := List.cons.inj he
      exact fun _ h => List.mem_append_right mid (List.mem_cons_of_mem m h)
  rw [he, ← List.append_assoc] at hc
  exact fun entry hentry hs =>
    current_of_request hc hr hd hq entry hentry (hs.mono (List.filterMap_subset _ hlate))

end

/-- No request is lost.  While the pipeline is idle and no request waits, every entry was built from
a read made after the last request, or its room could not be read then.  When nothing is left to do
after a request, or after a notice that is not the first of its stream, a rebuild was asked for, no
follower that goes on has a notice to read, and a room that can be read and did not change since
shows its metadata.  And the first notice of a stream changes nothing but its followers. -/
theorem no_request_lost (config : Config) (sources : List Source) (directory : Directory) :
    (∀ early r late t, Course (origin config sources directory) (early ++ r :: late) t →
      r.asks = true → t.state.phase = .idle →
      t.state.world.projection.isPipelineStopped = false →
      t.state.world.projection.rebuildQueued = false →
      t.state.world.projection.published.value =
          t.state.world.projection.store.entries.map Entry.summary ∧
        Covers (readsOf late) t.state.world.projection.store.entries) ∧
    (∀ early r late w,
      World.Course (World.origin config sources directory) (early ++ r :: late) w →
      r.LeadsToRequest late → w.state.projection.isDropped = false →
      Timed.Quiet w.now w.state →
      (∃ m ∈ r :: late, m.before.requests m.cause = true) ∧
        (∀ f ∈ w.state.projection.followers, f.isFinished = false → f.backlog = 0) ∧
        w.state.projection.published.value = w.state.projection.store.entries.map Entry.summary ∧
        ∀ entry ∈ w.state.projection.store.entries, Spares entry.key (LiveRooms.stepsOf late) →
          (w.state.remote.directory.room entry.key).readable = true →
          entry = w.state.remote.directory.built entry.key) ∧
    (∀ (w : Timeline World) id, Timed.Quiet w.now w.state →
      (∀ f ∈ w.state.projection.followers, f.id = id → f.sawFirst = false) →
      ∃ followers, (World.happen (.step (.notify id 1)) w).1 =
        ⟨w.now, w.state.withFollowers followers⟩) := by
  refine ⟨?_, ?_, ?_⟩
  · intro early r late t hc hr hp hs hq
    refine ⟨?_, covers_of_course hc rfl hr hp hs hq⟩
    have hk := keeps_of_course hc
    refine hk.shown ?_
    simp [(hk.orderly.free (awaits_pipeline_of_idle hp)).2]
  · intro early r late w hc hr hd hq
    obtain ⟨m, hm, ha⟩ := World.exists_request_of_leadsToRequest hc hr hd hq
    refine ⟨⟨m, hm, ha⟩, fun f hf hn => World.backlog_of_quiet hq hf hn, ?_,
      current_of_quiet hc hm ha hd hq⟩
    obtain ⟨log, hc', -⟩ := exists_course hc
    exact (keeps_of_course hc').shown (by simp [still, calm])
  · intro w id hq hs
    exact World.exists_followers_of_first_notice hq hs

theorem Course.goOn {t₀ t t' : Timeline Exchange} {early late : List Moment} {r : Moment}
    (h : Course t₀ (early ++ [r]) t) (h' : Course t late t') : Course t₀ (early ++ r :: late) t' :=
  List.append_cons early r late ▸ h.trans h'

/-- A room changes, then the second notice of a followed stream comes and is read, and the list is
rebuilt. -/
theorem exists_course_laterNotice : ∃ early r late w,
    World.Course (World.origin {} [{}] ⟨[]⟩) (early ++ r :: late) w ∧
      r.before.requests r.cause = false ∧ r.LeadsToRequest late ∧
      w.state.projection.isDropped = false ∧ Timed.Quiet w.now w.state ∧
      w.state.projection.store.entries.map Entry.key = ["a"] ∧ LiveRooms.stepsOf late = [] ∧
      (w.state.remote.directory.room "a").readable = true := by
  have h₀ : World.Course (World.origin {} [{}] ⟨[]⟩) [] _ := .start
  have h₁ := ((h₀.step (.attach 0)).step (.push 0 [.pushBack "a"])).move (.batch .read) rfl
  have h₂ := ((h₁.wait 100 (by decide)).move (.batch .release) rfl).move (.batch .hand) rfl
  have h₃ := ((h₂.move .applyBatch rfl).step (.follow "s")).step (.notify "s" 1)
  have h₄ := (h₃.move (.readNotice 0) rfl).step
    (.setRoom "a" (some { Metadata.joined "a" with isFavourite := true }) none none)
  have h₅ := h₄.step (.notify "s" 1)
  have onward : ∀ {t₀ t log}, World.Course t₀ log t → World.Course t [] t := fun _ => .start
  have hc := h₅.goOn (((onward h₅).move (.readNotice 0) rfl).move .rebuild rfl)
  refine ⟨_, _, _, _, hc, rfl, Or.inr ⟨"s", 1, rfl, ?_, List.not_mem_nil⟩, rfl,
    Timed.next?_eq_none_iff.1 rfl, rfl, rfl, rfl⟩
  exact ⟨_, List.mem_singleton_self _, rfl, rfl⟩

/-- The settings change in the middle of a rebuild, between the latest event and the metadata of the
second of two rooms: both rooms are read once more.  The second notice of a stream leads to a
rebuild, the first to none. -/
theorem no_request_lost_during_rebuild :
    (∃ early r late t, Course (origin {} [{}] ⟨[]⟩) (early ++ r :: late) t ∧ r.asks = true ∧
      r.before.phase.isIdle = false ∧ t.state.phase = .idle ∧
      t.state.world.projection.rebuildQueued = false ∧
      (readsOf late).map Read.question =
        [.info "b", .event "a", .info "a", .event "b", .info "b"] ∧
      Covers (readsOf late) t.state.world.projection.store.entries) ∧
    (∃ early r late w, World.Course (World.origin {} [{}] ⟨[]⟩) (early ++ r :: late) w ∧
      r.before.requests r.cause = false ∧ r.LeadsToRequest late ∧ Timed.Quiet w.now w.state ∧
      (∃ m ∈ r :: late, m.before.requests m.cause = true) ∧
      w.state.projection.store.entries.map Entry.key = ["a"] ∧
      ∀ entry ∈ w.state.projection.store.entries,
        entry = w.state.remote.directory.built entry.key) ∧
    ∃ (w : Timeline World) (followers : List Follower), w.state.projection.followers.length = 1 ∧
      (World.happen (.step (.notify "a" 1)) w).1 = ⟨w.now, w.state.withFollowers followers⟩ := by
  obtain ⟨hcovers, hcurrent, hfirst⟩ := no_request_lost {} [{}] ⟨[]⟩
  refine ⟨?_, ?_, ?_⟩
  · have onward : ∀ {t₀ t log}, Course t₀ log t → Course t [] t := fun _ => .start
    have h₀ : Course (origin {} [{}] ⟨[]⟩) [] _ := .start
    have h₁ := ((h₀.step (.attach 0)).step (.push 0 [.pushBack "a", .pushBack "b"])).move
      (.world (.batch .read)) rfl
    have h₂ := ((h₁.wait 100 (by decide)).move (.world (.batch .release)) rfl).move
      (.world (.batch .hand)) rfl
    have h₃ := (((h₂.move .takeBatch rfl).move .serve rfl).move .receiveEntries rfl)
    have h₄ := (((h₃.move .readRoom rfl).move .readRoom rfl).move .readRoom rfl)
    have h₅ := (((h₄.move .readRoom rfl).move .storeEntries rfl).move .serve rfl)
    have h₆ := ((h₅.move .publish rfl).step (.settingsChanged 1)).move .takeRebuild rfl
    have h₇ := (((h₆.move .serve rfl).move .receiveEntries rfl).move .readRoom rfl)
    have h₈ := ((h₇.move .readRoom rfl).move .readRoom rfl).step (.settingsChanged 1)
    have l₁ := ((((onward h₈).move .readRoom rfl).move .storeEntries rfl).move .serve rfl)
    have l₂ := (((l₁.move .publish rfl).move .takeRebuild rfl).move .serve rfl)
    have l₃ := (((l₂.move .receiveEntries rfl).move .readRoom rfl).move .readRoom rfl)
    have l₄ := (((l₃.move .readRoom rfl).move .readRoom rfl).move .storeEntries rfl)
    have hc := h₈.goOn ((l₄.move .serve rfl).move .publish rfl)
    exact ⟨_, _, _, _, hc, rfl, rfl, rfl, rfl, rfl, (hcovers _ _ _ _ hc rfl rfl rfl rfl).2⟩
  · obtain ⟨early, r, late, w, hc, hn, hr, hd, hq, hkeys, hsteps, hread⟩ :=
      exists_course_laterNotice
    obtain ⟨hm, -, -, hbuilt⟩ := hcurrent _ _ _ _ hc hr hd hq
    refine ⟨early, r, late, w, hc, hn, hr, hq, hm, hkeys, fun entry he => ?_⟩
    have hk : entry.key ∈ ["a"] := hkeys ▸ List.mem_map_of_mem he
    rw [List.mem_singleton] at hk
    exact hbuilt entry he (by simp [Spares, hsteps]) (by rw [hk, hread])
  · obtain ⟨followers, he⟩ := hfirst
      ⟨0, ((World.new {} [{}] ⟨[]⟩).step (.follow "a")).1⟩ "a" (Timed.next?_eq_none_iff.1 rfl)
      (fun f hf _ => List.mem_singleton.1 hf ▸ rfl)
    exact ⟨_, followers, rfl, he⟩

end Exchange

end LiveRooms
