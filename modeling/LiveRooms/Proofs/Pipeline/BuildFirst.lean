import LiveRooms.Proofs.Pipeline.Reading
import LiveRooms.Proofs.Pipeline.Reference

/-!
# Building the entries first

The pipeline checks an edit before it reads any room.  The same entries come out when the whole
batch is built first: the edits with a room that cannot be read are left out, the others get their
rooms replaced by the entries built from them, and the edits that do not fit are left out last
(`Directory.applyBatch_eq_applyAll`).  An edit that is left out does not matter for the others, and
every other edit takes effect with all of its rooms (`Directory.applyBatch_append_cons`).
-/

namespace LiveRooms.Directory

variable {d : Directory} {edit : Edit String} {entries : List Entry}

/-- A batch with its entries built: edits with a room that cannot be read are left out, and in the
others the entry built from a room takes its place. -/
def builtBatch (d : Directory) (edits : List (Edit String)) : List (Edit Entry) :=
  (edits.filter d.reads).map (Edit.map d.built)

/-- Whether an edit takes effect on a list of the given length: it fits the list, and its rooms can
be read. -/
def accepts (d : Directory) (length : Nat) (edit : Edit String) : Bool :=
  (edit.check length).isOk && d.reads edit

/-- Whether and how an edit is built. -/
theorem traverse_entry_eq_ok_iff {built : Edit Entry} :
    edit.traverse d.entry = .ok built ↔ d.reads edit = true ∧ edit.map d.built = built := by
  cases hr : d.reads edit with
  | false =>
    obtain ⟨failure, ht⟩ := exists_traverse_entry_eq_error hr
    simp [ht]
  | true => simp [traverse_entry_of_reads hr]

/-- An edit takes effect with all of its rooms, or not at all. -/
theorem applyEdit_eq_ite (d : Directory) (entries : List Entry) (edit : Edit String) :
    d.applyEdit entries edit =
      if d.accepts entries.length edit then (edit.map d.built).edited entries else entries := by
  rw [applyEdit_eq, referenceStep, accepts]
  cases edit.check entries.length with
  | error fault => rfl
  | ok _ => rfl

theorem applyBatch_cons (d : Directory) (edit : Edit String) (edits : List (Edit String))
    (entries : List Entry) :
    d.applyBatch (edit :: edits) entries = d.applyBatch edits (d.applyEdit entries edit) := rfl

/-- To build first and check the built edits is no different from checking first. -/
theorem applyBatch_eq_applyAll (d : Directory) (edits : List (Edit String)) (entries : List Entry) :
    d.applyBatch edits entries = (Edit.applyAll (d.builtBatch edits) entries).1 := by
  induction edits generalizing entries with
  | nil => rfl
  | cons edit edits ih =>
    rw [applyBatch_cons, ih]
    by_cases hr : d.reads edit = true
    · have hb : d.builtBatch (edit :: edits) = edit.map d.built :: d.builtBatch edits := by
        simp [builtBatch, hr]
      rw [hb, Edit.applyAll, Edit.apply, Edit.check_map]
      cases hc : edit.check entries.length with
      | error fault => rw [applyEdit_of_check_eq_error hc]
      | ok _ => rw [applyEdit_of_reads hc hr]
    · have hb : d.builtBatch (edit :: edits) = d.builtBatch edits := by simp [builtBatch, hr]
      rw [hb, applyEdit_of_not_reads (Bool.eq_false_iff.2 hr)]

/-- An edit in the middle of a batch acts on the list that the edits before it leave, and the edits
after it see nothing of it but the list. -/
theorem applyBatch_append_cons (d : Directory) (before after : List (Edit String))
    (edit : Edit String) (entries : List Entry) :
    d.applyBatch (before ++ edit :: after) entries =
      if d.accepts (d.applyBatch before entries).length edit then
        d.applyBatch after ((edit.map d.built).edited (d.applyBatch before entries))
      else d.applyBatch (before ++ after) entries := by
  rw [applyBatch_append, applyBatch_append, applyBatch_cons, applyEdit_eq_ite]
  split <;> rfl

end LiveRooms.Directory

namespace LiveRooms.Reading

/-- While the rooms stay as they are, it makes no difference whether the pipeline checks an edit
before it builds the entries or after.  A built edit passes the check that the edit passes, and
with it is applied; an edit is applied with all of its rooms or not at all; and one that is not
applied may as well not be in the batch. -/
theorem run_applyBatch_of_built (d : Directory) (edits : List (Edit String))
    (entries : List Entry) :
    (applyBatch edits entries).run d = (Edit.applyAll (d.builtBatch edits) entries).1 ∧
      (∀ edit built, (build edit).run d = .ok built →
        (∀ length, built.check length = edit.check length) ∧
          ∀ items : List Entry, edit.check items.length = .ok () →
            built.apply items = .ok (built.edited items)) ∧
      (∀ items edit, (applyEdit items edit).run d =
        if d.accepts items.length edit then (edit.map d.built).edited items else items) ∧
      ∀ before edit after, edits = before ++ edit :: after →
        (applyBatch edits entries).run d =
          if d.accepts ((applyBatch before entries).run d).length edit then
            (applyBatch after ((edit.map d.built).edited ((applyBatch before entries).run d))).run d
          else (applyBatch (before ++ after) entries).run d := by
  simp only [run_applyBatch, run_applyEdit, run_build]
  refine ⟨d.applyBatch_eq_applyAll edits entries, ?_, d.applyEdit_eq_ite, ?_⟩
  · intro edit built hb
    obtain ⟨-, rfl⟩ := Directory.traverse_entry_eq_ok_iff.1 hb
    refine ⟨Edit.check_map d.built edit, fun items hc => ?_⟩
    exact Edit.apply_eq_ok_iff.2 ⟨(Edit.check_map d.built edit _).trans hc, rfl⟩
  · rintro before edit after rfl
    exact d.applyBatch_append_cons before after edit entries

/-- Of two rooms that are added together one cannot be read, and neither is added; the room that is
added before them and the one that is added after them are there. -/
theorem run_applyBatch_of_unreadable :
    let d := Directory.ofList [("b", { Room.joined "b" with readable := false })]
    let edits : List (Edit String) := [.pushBack "a", .append ["c", "b"], .insertAt 1 "c"]
    let built : Edit Entry := .insertAt 1 (d.built "c")
    (applyBatch edits []).run d = [d.built "a", d.built "c"] ∧
      (applyBatch edits []).run d = (applyBatch [.pushBack "a", .insertAt 1 "c"] []).run d ∧
      built.apply [d.built "a"] = .ok [d.built "a", d.built "c"] := by
  intro d edits built
  have h := run_applyBatch_of_built d edits []
  refine ⟨h.1, h.2.2.2 [.pushBack "a"] (.append ["c", "b"]) [.insertAt 1 "c"] rfl, ?_⟩
  exact (h.2.1 (.insertAt 1 "c") built rfl).2 [d.built "a"] rfl

end LiveRooms.Reading
