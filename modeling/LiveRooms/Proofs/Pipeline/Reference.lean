import LiveRooms.Pipeline
import LiveRooms.Proofs.Edit.Mapping

/-!
# The reference step

The pipeline checks an edit, looks its rooms up one by one and applies what it has built
(`Directory.applyEdit`).  The reference step says what this comes to: an edit that does not fit is
left out, so is one with a room that cannot be read, and any other edit is applied with each of its
rooms replaced by the entry built from it.  The two are the same function (`applyEdit_eq`).
-/

namespace LiveRooms.Directory

/-- The entry that is built from the room behind a key when the room can be read. -/
def built (d : Directory) (key : String) : Entry :=
  ⟨key, .of (d.room key).info (d.room key).latestEvent⟩

/-- Whether every room that an edit brings along can be read. -/
def reads (d : Directory) (edit : Edit String) : Bool :=
  edit.payload.all fun key => (d.room key).readable

/-- The entries after one edit.  An edit that does not fit, or that brings along a room that cannot
be read, leaves them as they are. -/
def referenceStep (d : Directory) (entries : List Entry) (edit : Edit String) : List Entry :=
  match edit.check entries.length with
  | .error _ => entries
  | .ok () => if d.reads edit then (edit.map d.built).edited entries else entries

/-- The entries after some edits, from an empty list. -/
def replay (d : Directory) (edits : List (Edit String)) : List Entry :=
  edits.foldl d.referenceStep []

variable {d : Directory} {key : String} {edit : Edit String} {entries : List Entry}

@[simp] theorem key_built (d : Directory) (key : String) : (d.built key).key = key := rfl

theorem reads_iff : d.reads edit = true ↔ ∀ key ∈ edit.payload, (d.room key).readable = true := by
  simp [reads]

theorem entry_of_readable (h : (d.room key).readable = true) : d.entry key = .ok (d.built key) := by
  simp [entry, Room.summarize, Room.fetch, h, Except.map, built]

theorem exists_entry_eq_error (h : (d.room key).readable = false) :
    ∃ failure, d.entry key = .error failure := by
  simp [entry, Room.summarize, Room.fetch, h, Except.map]

/-! ## Applying one edit -/

theorem traverse_entry_of_reads (hr : d.reads edit = true) :
    edit.traverse d.entry = .ok (edit.map d.built) :=
  Edit.traverse_eq_ok fun key hk => entry_of_readable (reads_iff.1 hr key hk)

theorem exists_traverse_entry_eq_error (hr : d.reads edit = false) :
    ∃ failure, edit.traverse d.entry = .error failure := by
  obtain ⟨key, hk, hf⟩ : ∃ key ∈ edit.payload, (d.room key).readable = false := by
    simpa [reads] using hr
  obtain ⟨failure, he⟩ := exists_entry_eq_error hf
  exact Edit.exists_traverse_eq_error hk he

theorem applyEdit_of_reads (hc : edit.check entries.length = .ok ()) (hr : d.reads edit = true) :
    d.applyEdit entries edit = (edit.map d.built).edited entries := by
  have ha : (edit.map d.built).apply entries = .ok ((edit.map d.built).edited entries) :=
    Edit.apply_eq_ok_iff.2 ⟨by rw [Edit.check_map, hc], rfl⟩
  simp [applyEdit, hc, traverse_entry_of_reads hr, ha]

theorem applyEdit_of_not_reads (hr : d.reads edit = false) :
    d.applyEdit entries edit = entries := by
  obtain ⟨failure, ht⟩ := exists_traverse_entry_eq_error hr
  unfold applyEdit
  split
  · rfl
  · rw [ht]

theorem applyEdit_of_check_eq_error {fault : Edit.Fault}
    (hc : edit.check entries.length = .error fault) : d.applyEdit entries edit = entries := by
  simp [applyEdit, hc]

/-- The pipeline takes the reference step. -/
theorem applyEdit_eq (d : Directory) (entries : List Entry) (edit : Edit String) :
    d.applyEdit entries edit = d.referenceStep entries edit := by
  unfold referenceStep
  cases hc : edit.check entries.length with
  | error fault => exact applyEdit_of_check_eq_error hc
  | ok _ =>
    by_cases hr : d.reads edit = true
    · rw [applyEdit_of_reads hc hr, if_pos hr]
    · rw [applyEdit_of_not_reads (Bool.eq_false_iff.2 hr), if_neg hr]

/-- An edit is either left out, or it fits, its rooms can be read, and it is applied. -/
theorem applyEdit_cases (d : Directory) (entries : List Entry) (edit : Edit String) :
    d.applyEdit entries edit = entries ∨
      edit.check entries.length = .ok () ∧ d.reads edit = true ∧
        d.applyEdit entries edit = (edit.map d.built).edited entries := by
  cases hc : edit.check entries.length with
  | error fault => exact Or.inl (applyEdit_of_check_eq_error hc)
  | ok _ =>
    by_cases hr : d.reads edit = true
    · exact Or.inr ⟨rfl, hr, applyEdit_of_reads hc hr⟩
    · exact Or.inl (applyEdit_of_not_reads (Bool.eq_false_iff.2 hr))

theorem map_key_edited (d : Directory) (entries : List Entry) (edit : Edit String) :
    ((edit.map d.built).edited entries).map Entry.key = edit.edited (entries.map Entry.key) := by
  rw [← Edit.edited_map, Edit.map_map]
  exact congrArg (Edit.edited _) (Edit.map_id' edit)

/-- What becomes of the keys of the entries depends on the keys alone. -/
theorem map_key_applyEdit_congr {entries' : List Entry}
    (h : entries.map Entry.key = entries'.map Entry.key) (edit : Edit String) :
    (d.applyEdit entries edit).map Entry.key = (d.applyEdit entries' edit).map Entry.key := by
  have hl : entries.length = entries'.length := by
    have := congrArg List.length h
    rwa [List.length_map, List.length_map] at this
  cases hc : edit.check entries.length with
  | error fault =>
    rw [applyEdit_of_check_eq_error hc, applyEdit_of_check_eq_error (hl ▸ hc), h]
  | ok _ =>
    by_cases hr : d.reads edit = true
    · rw [applyEdit_of_reads hc hr, applyEdit_of_reads (hl ▸ hc) hr, map_key_edited,
        map_key_edited, h]
    · have hr' := Bool.eq_false_iff.2 hr
      rw [applyEdit_of_not_reads hr', applyEdit_of_not_reads hr', h]

/-- A room that is replaced by one that cannot be read is still there when it is added again. -/
theorem map_key_applyBatch_repeat {a b : String} (ha : (d.room a).readable = true)
    (hb : (d.room b).readable = false) (entries : List Entry) :
    (d.applyBatch [.clear, .pushBack a, .setAt 0 b, .pushBack a] entries).map Entry.key =
      [a, a] := by
  have hpush : ∀ entries, d.applyEdit entries (.pushBack a) = entries ++ [d.built a] :=
    fun entries => applyEdit_of_reads rfl (by simp [reads, Edit.payload, ha])
  have hset : ∀ entries, d.applyEdit entries (.setAt 0 b) = entries :=
    fun entries => applyEdit_of_not_reads (by simp [reads, Edit.payload, hb])
  have hclear : d.applyEdit entries .clear = [] := applyEdit_of_reads rfl rfl
  simp only [applyBatch, List.foldl_cons, List.foldl_nil, hclear, hpush, hset]
  rfl

/-! ## Reading rooms again -/

theorem refresh_of_readable {entry : Entry} (h : (d.room entry.key).readable = true) :
    d.refresh entry = d.built entry.key := by
  simp [refresh, entry_of_readable h]

theorem refresh_of_not_readable {entry : Entry} (h : (d.room entry.key).readable = false) :
    d.refresh entry = entry := by
  obtain ⟨failure, he⟩ := exists_entry_eq_error h
  simp [refresh, he]

@[simp] theorem key_refresh (d : Directory) (entry : Entry) :
    (d.refresh entry).key = entry.key := by
  by_cases h : (d.room entry.key).readable = true
  · rw [refresh_of_readable h, key_built]
  · rw [refresh_of_not_readable (Bool.eq_false_iff.2 h)]

@[simp] theorem map_key_rebuild (d : Directory) (entries : List Entry) :
    (d.rebuild entries).map Entry.key = entries.map Entry.key := by
  simp [rebuild]

theorem refresh_built (h : (d.room key).readable = true) :
    d.refresh (d.built key) = d.built key := refresh_of_readable h

theorem refresh_refresh (d : Directory) (entry : Entry) :
    d.refresh (d.refresh entry) = d.refresh entry := by
  by_cases h : (d.room entry.key).readable = true
  · rw [refresh_of_readable h, refresh_built h]
  · have he := refresh_of_not_readable (Bool.eq_false_iff.2 h)
    rw [he, he]

/-- To read all rooms twice is no different from reading them once. -/
theorem rebuild_rebuild (d : Directory) (entries : List Entry) :
    d.rebuild (d.rebuild entries) = d.rebuild entries := by
  simp only [rebuild, List.map_map]
  exact List.map_congr_left fun entry _ => refresh_refresh d entry

theorem applyBatch_append (d : Directory) (edits edits' : List (Edit String))
    (entries : List Entry) : d.applyBatch (edits ++ edits') entries =
      d.applyBatch edits' (d.applyBatch edits entries) := List.foldl_append

/-- An edit and a rebuild can change places. -/
theorem rebuild_applyEdit (d : Directory) (entries : List Entry) (edit : Edit String) :
    d.rebuild (d.applyEdit entries edit) = d.applyEdit (d.rebuild entries) edit := by
  have hl : (d.rebuild entries).length = entries.length := List.length_map _
  cases hc : edit.check entries.length with
  | error fault =>
    rw [applyEdit_of_check_eq_error hc, applyEdit_of_check_eq_error (hl ▸ hc)]
  | ok _ =>
    by_cases hr : d.reads edit = true
    · rw [applyEdit_of_reads hc hr, applyEdit_of_reads (hl ▸ hc) hr, rebuild, rebuild,
        ← Edit.edited_map, Edit.map_map]
      have hb : edit.map (d.refresh ∘ d.built) = edit.map d.built :=
        Edit.map_congr_payload fun key hk => refresh_built (reads_iff.1 hr key hk)
      rw [hb]
    · have hr' := Bool.eq_false_iff.2 hr
      rw [applyEdit_of_not_reads hr', applyEdit_of_not_reads hr']

/-- A batch and a rebuild can change places. -/
theorem rebuild_applyBatch (d : Directory) (edits : List (Edit String)) (entries : List Entry) :
    d.rebuild (d.applyBatch edits entries) = d.applyBatch edits (d.rebuild entries) := by
  induction edits generalizing entries with
  | nil => rfl
  | cons edit edits ih =>
    show d.rebuild (d.applyBatch edits (d.applyEdit entries edit)) =
      d.applyBatch edits (d.applyEdit (d.rebuild entries) edit)
    rw [ih, rebuild_applyEdit]

theorem applyBatch_nil (d : Directory) (edits : List (Edit String)) :
    d.applyBatch edits [] = d.replay edits := by
  have h : d.applyEdit = d.referenceStep := funext fun _ => funext fun _ => applyEdit_eq ..
  rw [applyBatch, replay, h]

/-- Entries that were all built with the rooms as they are stay as they are in a rebuild. -/
theorem rebuild_replay (d : Directory) (edits : List (Edit String)) :
    d.rebuild (d.replay edits) = d.replay edits := by
  rw [← applyBatch_nil, rebuild_applyBatch]
  rfl

end LiveRooms.Directory
