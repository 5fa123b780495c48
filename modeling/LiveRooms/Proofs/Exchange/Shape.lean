import LiveRooms.Proofs.Exchange.Current

/-!
# Rebuilds keep the shape of the list

The id in a summary comes from the metadata of the room, not from its key.  A room keeps its id when
its metadata are replaced, so every read of a room tells the same id, and every entry shows the id
of its room (`namesRooms_of_course`).  A rebuild therefore leaves the keys and the ids of the
entries in their places, whatever became of the rooms before it or becomes of them meanwhile.
-/

namespace LiveRooms

theorem Directory.eq_info_of_info_eq_ok {d : Directory} {key : String} {info : Metadata}
    (h : d.info key = .ok info) : info = (d.room key).info := by
  cases hr : (d.room key).readable with
  | true => rw [info_of_readable hr] at h; exact (Except.ok.inj h).symm
  | false => simp [Directory.info, Room.fetch, hr] at h

variable {idOf : String → String} {reads : List Read} {entry old new : Entry}
  {entries entries' : List Entry}

/-- Every entry shows the id of its room. -/
def NamesRooms (idOf : String → String) (entries : List Entry) : Prop :=
  ∀ entry ∈ entries, entry.summary.id = idOf entry.key

theorem BuiltFrom.id_eq (h : BuiltFrom reads entry)
    (hd : ∀ read ∈ reads, read.directory.Identifies idOf) :
    entry.summary.id = idOf entry.key := by
  obtain ⟨d, d', info, -, hm, hi, hs⟩ := h
  rw [hs, Directory.eq_info_of_info_eq_ok hi]
  exact (hd _ hm entry.key).2

theorem Reread.id_eq (h : Reread reads old new)
    (hd : ∀ read ∈ reads, read.directory.Identifies idOf) (ho : old.summary.id = idOf old.key) :
    new.summary.id = old.summary.id := by
  obtain ⟨hk, hb | ⟨-, rfl⟩⟩ := h
  · rw [hb.id_eq hd, hk, ho]
  · rfl

/-- A rebuild at once, entry by entry. -/
theorem Directory.forall₂_rebuild {d : Directory} (hd : d.Identifies idOf)
    (hn : NamesRooms idOf entries) :
    List.Forall₂ (fun old new => new.key = old.key ∧ new.summary.id = old.summary.id ∧
      if (d.room old.key).readable then (d.room old.key).summarize = .ok new.summary
      else new = old) entries (d.rebuild entries) := by
  rw [rebuild, List.forall₂_map_right_iff, List.forall₂_same]
  intro entry he
  refine ⟨d.key_refresh entry, ?_⟩
  cases hr : (d.room entry.key).readable with
  | true =>
    rw [refresh_of_readable hr, if_pos rfl]
    refine ⟨?_, ?_⟩
    · rw [hn entry he]
      exact (hd entry.key).2
    · simp [Room.summarize, Room.fetch, hr, built]
  | false => simp [refresh_of_not_readable hr]

namespace Exchange

variable {config : Config} {sources : List Source} {directory : Directory}
  {log : List Moment} {t : Timeline Exchange} {run : Run}

/-! ## Reads of the jobs -/

/-- The runs of a ledger. -/
def Ledger.runs (l : Ledger) : List Run := l.finished ++ l.current.toList

/-- What was read for a job was read in the course. -/
theorem reads_subset_of_mem_runs (h : run ∈ (ledger log).runs) : run.reads ⊆ readsOf log := by
  induction log using List.reverseRecOn generalizing run with
  | nil => cases h
  | append_singleton log m ih =>
    rw [readsOf_snoc]
    rw [ledger_snoc, Ledger.runs, Ledger.note] at h
    have hold : ∀ run ∈ (ledger log).runs, run.reads ⊆ readsOf log ++ m.read?.toList :=
      fun run hr => List.Subset.trans (ih hr) (List.subset_append_left _ _)
    split at h
    · rcases List.mem_append.1 h with h | h
      · exact hold run (List.mem_append_left _ h)
      · rw [List.mem_singleton.1 h]
        exact List.nil_subset _
    · rw [Option.toList_none, List.append_nil] at h
      exact hold run h
    · rcases List.mem_append.1 h with h | h
      · exact hold run (List.mem_append_left _ h)
      · obtain ⟨run', hr, rfl⟩ := Option.map_eq_some_iff.1 (Option.mem_toList.1 h)
        have hmem : run' ∈ (ledger log).runs :=
          List.mem_append_right _ (Option.mem_toList.2 hr)
        exact List.append_subset.2 ⟨hold run' hmem, List.subset_append_right _ _⟩

theorem Run.Gives.namesRooms (h : run.Gives entries entries')
    (hd : ∀ read ∈ run.reads, read.directory.Identifies idOf) (hn : NamesRooms idOf entries) :
    NamesRooms idOf entries' := by
  obtain ⟨job, reads⟩ := run
  intro entry he
  cases job with
  | batch edits =>
    rcases Reading.mem_of_goes_applyBatch h entry he with hm | hb
    · exact hn entry hm
    · exact hb.id_eq hd
  | rebuild =>
    obtain ⟨old, hm, hr⟩ := exists_reread_of_mem (Reading.forall₂_of_goes_rebuild h) he
    rw [hr.id_eq hd (hn old hm), hn old hm, hr.1]

theorem Results.namesRooms {runs : List Run} (h : Results runs entries)
    (hd : ∀ run ∈ runs, ∀ read ∈ run.reads, read.directory.Identifies idOf) :
    NamesRooms idOf entries := by
  induction h with
  | nil => exact fun entry he => absurd he List.not_mem_nil
  | @snoc runs entries entries' run _ hg ih =>
    refine hg.namesRooms (hd run (by simp)) (ih fun run' hr => hd run' ?_)
    exact List.mem_append_left _ hr

/-- Rooms keep their ids, so every read tells the same ones. -/
theorem identifies_of_course (hc : Course (origin config sources directory) log t)
    (hid : directory.Identifies idOf) :
    t.state.world.remote.directory.Identifies idOf ∧
      ∀ run ∈ (ledger log).runs, ∀ read ∈ run.reads, read.directory.Identifies idOf := by
  obtain ⟨hd, hm⟩ := directory_of_course (P := (·.Identifies idOf)) hc hid
    fun key info event readable _ d h => Directory.identifies_update h info event readable
  have hreads := directory_of_reads (P := (·.Identifies idOf)) hm
  exact ⟨hd, fun run hr read hread => hreads read (reads_subset_of_mem_runs hr hread)⟩

/-- Every stored entry shows the id of its room. -/
theorem namesRooms_of_course (hc : Course (origin config sources directory) log t)
    (hid : directory.Identifies idOf) :
    NamesRooms idOf t.state.world.projection.store.entries :=
  (keeps_of_course hc).results.namesRooms fun run hr =>
    (identifies_of_course hc hid).2 run (List.mem_append_left _ hr)

/-- The metadata of a room carry its id, as they do when the room is made from them
(`Room.ofInfo`), whatever they are replaced by later.  Then a rebuild leaves the number, the order,
the keys and the ids of the entries as they were.  A room that can be read gets a fresh summary, and
any other entry stays the same; to rebuild once more with the same rooms changes nothing.  The shape
stays the same also when rooms change in the middle of the rebuild that the pipeline makes, with
each entry built from reads of that rebuild or unchanged because its room could not be read in
it. -/
theorem shape_of_rebuild (hc : Course (origin config sources directory) log t)
    (hid : ∀ key, (directory.room key).info.id = (directory.room key).id) :
    let entries := t.state.world.projection.store.entries
    let d := t.state.world.remote.directory
    (∀ entry ∈ entries, entry.summary.id = (d.room entry.key).id) ∧
    List.Forall₂ (fun old new => new.key = old.key ∧ new.summary.id = old.summary.id ∧
      if (d.room old.key).readable then (d.room old.key).summarize = .ok new.summary
      else new = old) entries ((Reading.rebuild entries).run d) ∧
    (Reading.rebuild ((Reading.rebuild entries).run d)).run d = (Reading.rebuild entries).run d ∧
    ∀ early m late client entries' reads, log = early ++ m :: late →
      m.served? = some (client, .replace entries') →
      (ledger early).current = some ⟨.rebuild, reads⟩ →
      List.Forall₂ (fun old new => Reread reads old new ∧ new.summary.id = old.summary.id)
        m.entries entries' := by
  intro entries d
  let idOf := fun key => (directory.room key).id
  have hid' : directory.Identifies idOf := fun key => ⟨rfl, hid key⟩
  have hd : d.Identifies idOf := (identifies_of_course hc hid').1
  have hn : NamesRooms idOf entries := namesRooms_of_course hc hid'
  refine ⟨fun entry he => (hn entry he).trans (hd entry.key).1.symm, ?_, ?_, ?_⟩
  · rw [Reading.run_rebuild]
    exact Directory.forall₂_rebuild hd hn
  · rw [Reading.run_rebuild, Reading.run_rebuild, Directory.rebuild_rebuild]
  · rintro early m late client entries' reads rfl hs hrun
    have hc' := hc.of_append_cons.1
    obtain ⟨run, hr, hg⟩ := (keeps_of_course hc').gives_of_served hs
    obtain rfl : run = ⟨.rebuild, reads⟩ := Option.some.inj (hr.symm.trans hrun)
    have hreads := (identifies_of_course hc' hid').2 ⟨.rebuild, reads⟩
      (List.mem_append_right _ (Option.mem_toList.2 hrun))
    have hn' : NamesRooms idOf m.entries := namesRooms_of_course hc' hid'
    have hplaces := (List.forall₂_and_left _ _).2 ⟨hn', Reading.forall₂_of_goes_rebuild hg⟩
    exact hplaces.imp fun old new h => ⟨h.2, h.2.id_eq hreads h.1⟩

/-- The metadata of two rooms are replaced by ones with other ids, one of the rooms cannot be read
any more, and the list is rebuilt: the ids are still there, and only the other room is fresh. -/
theorem shape_of_rebuild_after_changes : ∃ early m t entries reads,
    Course (origin {} [{}] ⟨[]⟩) (early ++ [m]) t ∧
    m.served? = some (.pipeline, .replace entries) ∧
    (ledger early).current = some ⟨.rebuild, reads⟩ ∧
    m.entries.map (fun entry => (entry.key, entry.summary.id, entry.summary.isFavourite)) =
      [("a", "a", false), ("b", "b", false)] ∧
    entries.map (fun entry => (entry.key, entry.summary.id, entry.summary.isFavourite)) =
      [("a", "a", true), ("b", "b", false)] ∧
    List.Forall₂ (fun old new => Reread reads old new ∧ new.summary.id = old.summary.id)
      m.entries entries ∧
    (Reading.rebuild entries).run t.state.world.remote.directory = entries := by
  have h₀ : Course (origin {} [{}] ⟨[]⟩) [] _ := .start
  have h₁ := ((h₀.step (.attach 0)).step (.push 0 [.pushBack "a", .pushBack "b"])).move
    (.world (.batch .read)) rfl
  have h₂ := ((h₁.wait 100 (by decide)).move (.world (.batch .release)) rfl).move
    (.world (.batch .hand)) rfl
  have h₃ := ((h₂.move .takeBatch rfl).move .serve rfl).move .receiveEntries rfl
  have h₄ := (((h₃.move .readRoom rfl).move .readRoom rfl).move .readRoom rfl).move .readRoom rfl
  have h₅ := ((h₄.move .storeEntries rfl).move .serve rfl).move .publish rfl
  have h₆ := (h₅.step (.setRoom "a" (some { Metadata.joined "c" with isFavourite := true }) none
    none)).step (.setRoom "b" (some { Metadata.joined "d" with isFavourite := true }) none
    (some false))
  have h₇ := (((h₆.step (.settingsChanged 1)).move .takeRebuild rfl).move .serve rfl).move
    .receiveEntries rfl
  have h₈ := (((h₇.move .readRoom rfl).move .readRoom rfl).move .readRoom rfl).move .readRoom rfl
  have h₉ := (h₈.move .storeEntries rfl).move .serve rfl
  obtain ⟨-, -, hagain, hplaces⟩ := shape_of_rebuild h₉ fun key => rfl
  exact ⟨_, _, _, _, _, h₉, rfl, rfl, rfl, rfl, hplaces _ _ [] _ _ _ rfl rfl rfl, hagain⟩

end Exchange

end LiveRooms
