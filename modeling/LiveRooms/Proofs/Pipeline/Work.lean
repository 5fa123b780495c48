import LiveRooms.Proofs.Edit.InRange
import LiveRooms.Proofs.Pipeline.Reference
import LiveRooms.Proofs.Room.Directory

/-!
# Work on the entries

The pipeline does one piece of work on the entries after the other: an edit or a rebuild, each with
the rooms as they are at that time.  Pieces of work whose rooms can be read change the keys of the
entries as the edits change the list of the one who sends them (`map_key_performAll`).  An edit that
forgets brings the two lists together from wherever they are (`map_key_performAll_of_forgets`).
-/

namespace LiveRooms

/-- A piece of work on the entries, with the rooms as they are then. -/
inductive Work where
  | edit (directory : Directory) (edit : Edit String)
  | rebuild (directory : Directory)
  deriving Repr

namespace Work

/-- The rooms as they are when the work is done. -/
def directory : Work → Directory
  | .edit d _ => d
  | .rebuild d => d

/-- The edit that a piece of work consists of, unless it is a rebuild. -/
def edits : Work → List (Edit String)
  | .edit _ e => [e]
  | .rebuild _ => []

/-- The edits in some work, in order. -/
def editsOf (works : List Work) : List (Edit String) := works.flatMap edits

/-- Every room that a piece of work brings along can be read. -/
def Reads (w : Work) : Prop := ∀ e ∈ w.edits, w.directory.reads e = true

/-- The entries after a piece of work. -/
def perform (entries : List Entry) : Work → List Entry
  | .edit d e => d.applyEdit entries e
  | .rebuild d => d.rebuild entries

/-- The entries after some work. -/
def performAll (works : List Work) (entries : List Entry) : List Entry :=
  works.foldl perform entries

/-- The entries after a piece of work that nothing is left out of: the edit is applied, each room
that it brings along with the summary built from it. -/
def carryOut (entries : List Entry) : Work → List Entry
  | .edit d e => (e.map d.built).edited entries
  | .rebuild d => d.rebuild entries

variable {d : Directory} {works works' : List Work} {entries : List Entry}

theorem editsOf_append (works works' : List Work) :
    editsOf (works ++ works') = editsOf works ++ editsOf works' := List.flatMap_append

@[simp] theorem editsOf_cons (w : Work) (works : List Work) :
    editsOf (w :: works) = w.edits ++ editsOf works := List.flatMap_cons

theorem performAll_append (works works' : List Work) (entries : List Entry) :
    performAll (works ++ works') entries = performAll works' (performAll works entries) :=
  List.foldl_append

theorem performAll_batch (d : Directory) (edits : List (Edit String)) (entries : List Entry) :
    performAll (edits.map (.edit d)) entries = d.applyBatch edits entries := by
  rw [performAll, List.foldl_map]
  rfl

@[simp] theorem editsOf_batch (d : Directory) (edits : List (Edit String)) :
    editsOf (edits.map (.edit d)) = edits := by
  rw [editsOf, List.flatMap_map]
  exact List.flatMap_singleton' edits

/-! ## Rooms that stay as they are -/

theorem performAll_replay (hd : ∀ w ∈ works, w.directory = d) (edits : List (Edit String)) :
    performAll works (d.replay edits) = d.replay (edits ++ editsOf works) := by
  induction works generalizing edits with
  | nil => exact congrArg d.replay (List.append_nil edits).symm
  | cons w works ih =>
    have hw := hd w List.mem_cons_self
    have ih := ih fun w' hw' => hd w' (List.mem_cons_of_mem _ hw')
    cases w with
    | edit d' e =>
      obtain rfl : d' = d := hw
      have hs : perform (d'.replay edits) (.edit d' e) = d'.replay (edits ++ [e]) := by
        show d'.applyEdit (d'.replay edits) e = _
        rw [Directory.applyEdit_eq, Directory.replay, Directory.replay, List.foldl_concat]
      show performAll works (perform _ _) = _
      rw [hs, ih, editsOf_cons, List.append_assoc]
      rfl
    | rebuild d' =>
      obtain rfl : d' = d := hw
      have hs : perform (d'.replay edits) (.rebuild d') = d'.replay edits :=
        Directory.rebuild_replay d' edits
      show performAll works (perform _ _) = _
      rw [hs, ih, editsOf_cons]
      rfl

/-- As long as the rooms stay as they are, rebuilds change nothing and the entries are those of the
reference steps. -/
theorem performAll_eq_replay (hd : ∀ w ∈ works, w.directory = d) :
    performAll works [] = d.replay (editsOf works) := performAll_replay hd []

/-- As long as the rooms stay as they are, rebuilds do not matter for the keys. -/
theorem map_key_performAll_of_directory (hd : ∀ w ∈ works, w.directory = d)
    {entries' : List Entry} (h : entries.map Entry.key = entries'.map Entry.key) :
    (performAll works entries).map Entry.key =
      (d.applyBatch (editsOf works) entries').map Entry.key := by
  induction works generalizing entries entries' with
  | nil => exact h
  | cons w works ih =>
    have hw := hd w List.mem_cons_self
    have hd' : ∀ w' ∈ works, w'.directory = d := fun w' hw' => hd w' (List.mem_cons_of_mem _ hw')
    cases w with
    | edit d' e =>
      obtain rfl : d' = d := hw
      exact ih hd' (Directory.map_key_applyEdit_congr h e)
    | rebuild d' => exact ih hd' ((Directory.map_key_rebuild d' entries).trans h)

/-! ## Rooms that can be read -/

theorem map_key_perform {w : Work} (hw : w.Reads) :
    (perform entries w).map Entry.key = (Edit.applyAll w.edits (entries.map Entry.key)).1 := by
  cases w with
  | rebuild d => exact Directory.map_key_rebuild d entries
  | edit d e =>
    have hl : (entries.map Entry.key).length = entries.length := List.length_map _
    show (d.applyEdit entries e).map Entry.key = (Edit.applyAll [e] (entries.map Entry.key)).1
    cases hc : e.check entries.length with
    | error fault =>
      have ha : e.apply (entries.map Entry.key) = .error fault :=
        Edit.apply_eq_error_iff.2 (hl ▸ hc)
      rw [Directory.applyEdit_of_check_eq_error hc]
      simp [Edit.applyAll, ha]
    | ok _ =>
      have hr : d.reads e = true := hw e (List.mem_singleton_self e)
      rw [Directory.applyEdit_of_reads hc hr, Directory.map_key_edited,
        Edit.applyAll_cons_of_check (hl ▸ hc)]
      rfl

theorem map_key_performAll_eq_applyAll (hw : ∀ w ∈ works, w.Reads) :
    (performAll works entries).map Entry.key =
      (Edit.applyAll (editsOf works) (entries.map Entry.key)).1 := by
  induction works generalizing entries with
  | nil => rfl
  | cons w works ih =>
    rw [editsOf_cons, Edit.fst_applyAll_append, ← map_key_perform (hw w List.mem_cons_self)]
    exact ih fun w' hw' => hw w' (List.mem_cons_of_mem _ hw')

/-- While rooms can be read, the keys follow the list whose edits come in. -/
theorem map_key_performAll (hw : ∀ w ∈ works, w.Reads)
    (hr : Edit.InRange (editsOf works) (entries.map Entry.key)) :
    (performAll works entries).map Entry.key =
      Edit.editedAll (editsOf works) (entries.map Entry.key) := by
  rw [map_key_performAll_eq_applyAll hw, Edit.applyAll_of_inRange hr]

/-- While rooms can be read and edits are in range, nothing is left out. -/
theorem performAll_eq_carryOut (hw : ∀ w ∈ works, w.Reads)
    (hr : Edit.InRange (editsOf works) (entries.map Entry.key)) :
    performAll works entries = works.foldl carryOut entries := by
  induction works generalizing entries with
  | nil => rfl
  | cons w works ih =>
    have hw' : ∀ w' ∈ works, w'.Reads := fun w' h => hw w' (List.mem_cons_of_mem _ h)
    rw [editsOf_cons, Edit.inRange_append] at hr
    have hp : perform entries w = carryOut entries w := by
      cases w with
      | rebuild d => rfl
      | edit d e =>
        have hc : e.check entries.length = .ok () := by
          have := hr.1.1
          rwa [List.length_map] at this
        exact Directory.applyEdit_of_reads hc
          (hw _ List.mem_cons_self e (List.mem_singleton_self e))
    have hk : (perform entries w).map Entry.key =
        Edit.editedAll w.edits (entries.map Entry.key) := by
      rw [map_key_perform (hw w List.mem_cons_self), Edit.applyAll_of_inRange hr.1]
    show performAll works (perform entries w) = works.foldl carryOut (carryOut entries w)
    rw [← hp]
    exact ih hw' (by rw [hk]; exact hr.2)

/-- After an edit that forgets the keys are those of the list whose edits come in, whatever they
were before, and they follow it while rooms can be read. -/
theorem map_key_performAll_of_forgets {e : Edit String} (hf : e.forgets = true)
    (he : d.reads e = true) (hw : ∀ w ∈ works', w.Reads) {items : List String}
    (hr : Edit.InRange (editsOf (works ++ .edit d e :: works')) items) :
    (performAll (works ++ .edit d e :: works') entries).map Entry.key =
      Edit.editedAll (editsOf (works ++ .edit d e :: works')) items := by
  rw [editsOf_append, Edit.inRange_append, editsOf_cons] at hr
  have hk : (perform (performAll works entries) (.edit d e)).map Entry.key =
      e.edited (Edit.editedAll (editsOf works) items) := by
    show (d.applyEdit _ e).map Entry.key = _
    rw [Directory.applyEdit_of_reads (Edit.check_of_forgets hf _) he, Directory.map_key_edited]
    exact Edit.edited_of_forgets hf _ _
  rw [performAll_append, editsOf_append, editsOf_cons, Edit.editedAll_append]
  show (performAll works' (perform _ _)).map Entry.key = _
  rw [map_key_performAll hw (by rw [hk]; exact hr.2.2), hk]
  rfl

/-! ## Where entries come from -/

theorem mem_perform {w : Work} {entry : Entry} (h : entry ∈ perform entries w) :
    entry ∈ entries ∨
      (w.directory.room entry.key).readable = true ∧ entry = w.directory.built entry.key := by
  cases w with
  | edit d e =>
    rcases Directory.applyEdit_cases d entries e with ha | ⟨-, hr, ha⟩
    · exact Or.inl (ha ▸ h)
    · have hm : entry ∈ (e.map d.built).edited entries := ha ▸ h
      rcases Edit.mem_of_mem_edited hm with hm | hm
      · exact Or.inl hm
      · rw [Edit.payload_map] at hm
        obtain ⟨key, hk, rfl⟩ := List.mem_map.1 hm
        exact Or.inr ⟨Directory.reads_iff.1 hr key hk, rfl⟩
  | rebuild d =>
    obtain ⟨entry', hm, rfl⟩ := List.mem_map.1 h
    by_cases hr : (d.room entry'.key).readable = true
    · rw [Directory.refresh_of_readable hr]
      exact Or.inr ⟨hr, rfl⟩
    · rw [Directory.refresh_of_not_readable (Bool.eq_false_iff.2 hr)]
      exact Or.inl hm

theorem mem_performAll {entry : Entry} (h : entry ∈ performAll works entries) :
    entry ∈ entries ∨ ∃ w ∈ works,
      (w.directory.room entry.key).readable = true ∧ entry = w.directory.built entry.key := by
  induction works generalizing entries with
  | nil => exact Or.inl h
  | cons w works ih =>
    rcases ih h with hm | ⟨w', hw', hb⟩
    · rcases mem_perform hm with hm | hb
      · exact Or.inl hm
      · exact Or.inr ⟨w, List.mem_cons_self, hb⟩
    · exact Or.inr ⟨w', List.mem_cons_of_mem _ hw', hb⟩

/-- Every entry was built from its room, which could be read then. -/
theorem exists_built {entry : Entry} (h : entry ∈ performAll works []) : ∃ w ∈ works,
    (w.directory.room entry.key).readable = true ∧ entry = w.directory.built entry.key := by
  rcases mem_performAll h with hm | hb
  · cases hm
  · exact hb

/-- The entries show the ids of their rooms. -/
theorem map_id_performAll {idOf : String → String}
    (hd : ∀ w ∈ works, w.directory.Identifies idOf) :
    ((performAll works []).map Entry.summary).map Summary.id =
      ((performAll works []).map Entry.key).map idOf := by
  rw [List.map_map, List.map_map]
  refine List.map_congr_left fun entry hm => ?_
  obtain ⟨w, hw, -, he⟩ := exists_built hm
  show entry.summary.id = idOf entry.key
  rw [he]
  exact (hd w hw entry.key).2

end Work

end LiveRooms
