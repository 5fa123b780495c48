import LiveRooms.Proofs.World.Rest

/-!
# The rooms of the source and the rooms of the list

A source edits its own list of rooms and sends each edit.  As long as the rooms in them can be read,
the projection has the same rooms.  An edit that is left out because a room cannot be read sets the
two lists apart until an edit comes that forgets the former list.
-/

namespace LiveRooms.World

open Work

variable {config : Config} {sources : List Source} {directory : Directory}
  {log log' : List Moment} {t t' : Timeline World} {i : Nat}

/-- The stored rooms are those of the source after the edits that were worked on. -/
def Mirrors (log : List Moment) (t : Timeline World) : Prop :=
  t.state.projection.store.entries.map Entry.key = Edit.editedAll (editsOf (workOf log)) []

/-- The rooms of the edits that are worked on can be read. -/
def Readable (log : List Moment) : Prop := ∀ w ∈ workOf log, w.Reads

theorem entries_of_course_append (hc : Course (origin config sources directory) log t)
    (hc' : Course t log' t') :
    t'.state.projection.store.entries =
      performAll (workOf log') t.state.projection.store.entries := by
  rw [(entries_of_course (hc.trans hc')).1, (entries_of_course hc).1, workOf_append,
    performAll_append]

theorem mirrors_append (hc : Course (origin config sources directory) log t) (hm : Mirrors log t)
    (hc' : Course t log' t') (hr : Edit.InRange (editsOf (workOf (log ++ log'))) [])
    (hw : Readable log') : Mirrors (log ++ log') t' := by
  rw [workOf_append, editsOf_append, Edit.inRange_append] at hr
  rw [Mirrors, entries_of_course_append hc hc', workOf_append, editsOf_append,
    Edit.editedAll_append, ← hm]
  exact map_key_performAll hw (hm ▸ hr.2)

/-- A projection works on the edits of a source in the order in which they were sent.  When they are
in range, its rooms follow those of the source: from the start, while all rooms can be read, and
from an edit on that forgets, whatever was left out before.  While nothing is left out, each edit
is applied with the summaries built from its rooms. -/
theorem mirrors_of_course (hc : Course (origin config sources directory) log t)
    (hi : ∀ a, t.state.projection.attachment = some a → a.source = i)
    (hr : Edit.InRange (sentBy sources i log) []) :
    editsOf (workOf log) <+: sentBy sources i log ∧
      (Readable log → Mirrors log t ∧
        t.state.projection.store.entries = (workOf log).foldl carryOut [] ∧
        ∀ entry ∈ t.state.projection.store.entries,
          ∃ w ∈ workOf log, entry = w.directory.built entry.key) ∧
      ∀ before d e after, workOf log = before ++ .edit d e :: after → e.forgets = true →
        d.reads e = true → (∀ w ∈ after, w.Reads) → Mirrors log t := by
  obtain ⟨he, -⟩ := entries_of_course hc
  have hp := prefix_of_course hc hi
  have hr' : Edit.InRange (editsOf (workOf log)) [] := Edit.InRange.of_prefix hr hp
  rw [Mirrors, he]
  refine ⟨hp, fun hw => ⟨map_key_performAll hw hr', performAll_eq_carryOut hw hr', ?_⟩, ?_⟩
  · intro entry hm
    obtain ⟨w, hw, -, hb⟩ := exists_built hm
    exact ⟨w, hw, hb⟩
  · intro before d e after hlog hf hd hw
    rw [hlog] at hr' ⊢
    exact map_key_performAll_of_forgets hf hd hw hr'

/-- The rooms in which one cannot be read. -/
def unreadable (key : String) : Directory :=
  ⟨[(key, { Room.joined key with readable := false })]⟩

/-- A room that could not be read is left out until the list is cleared. -/
theorem mirrors_after_clear : ∃ log t, Course (origin {} [{}] (unreadable "b")) log t ∧
    stepsOf log = [.attach 0, .push 0 [.pushBack "b", .clear, .pushBack "a"]] ∧
    t.state.projection.store.entries.map Entry.key = ["a"] := by
  obtain ⟨log, t, hc, hs, -, ⟨⟨-, -, a, ha, hi⟩, -⟩, hsent, hw⟩ :=
    exists_course_batch (unreadable "b") (.pushBack "b") [.clear, .pushBack "a"]
  obtain ⟨-, -, hm⟩ := mirrors_of_course hc
    (fun a' ha' => Option.some.inj (ha.symm.trans ha') ▸ hi) (by rw [hsent]; decide)
  have hm := hm [.edit (unreadable "b") (.pushBack "b")] (unreadable "b") .clear
    [.edit (unreadable "b") (.pushBack "a")] hw rfl rfl (by simp [Work.Reads, Work.edits]; rfl)
  rw [Mirrors, hw] at hm
  exact ⟨log, t, hc, hs, hm⟩

end LiveRooms.World
