import LiveRooms.Proofs.World.Mirror

/-!
# Rooms shown twice

A source may keep its own list free of repeats and still have a room shown twice: an edit that is
left out sets the list of the projection apart, and a later edit then adds a room that was never
removed.  A projection is safe from this as long as its rooms are those of the source and rooms can
be read, and in no other case.
-/

namespace LiveRooms.World

open Work

variable {config : Config} {sources : List Source} {directory : Directory}
  {log log' : List Moment} {t t' : Timeline World} {i : Nat} {idOf : String → String}

/-- In all that may come and is allowed, the projection shows no id twice, as long as the source
sends edits in range that leave no room twice in its own list. -/
def ShowsEachOnce (allowed : List Moment → Prop) (sources : List Source) (i : Nat)
    (log : List Moment) (t : Timeline World) : Prop :=
  ∀ log' t', Course t log' t' → allowed log' →
    (∀ a, t'.state.projection.attachment = some a → a.source = i) →
    Edit.InRange (sentBy sources i (log ++ log')) [] →
    Edit.LeavesNodup (sentBy sources i (log ++ log')) [] →
    (t'.state.projection.published.value.map Summary.id).Nodup

theorem map_id_published (hc : Course (origin config sources directory) log t)
    (hid : directory.Identifies idOf) :
    t.state.projection.published.value.map Summary.id =
      (t.state.projection.store.entries.map Entry.key).map idOf := by
  obtain ⟨he, hp⟩ := entries_of_course hc
  have hd := directory_of_workOf (P := fun d => d.Identifies idOf) hc hid
    fun key info event readable _ d h => Directory.identifies_update h info event readable
  rw [hp, he]
  exact map_id_performAll hd

theorem readable_of_unchanged (hc : Course t log' t') (hu : Unchanged log')
    (hk : ∀ key, (t.state.remote.directory.room key).readable = true) : Readable log' := by
  intro w hw e _
  rw [directory_eq_of_workOf hc hu w hw]
  exact Directory.reads_iff.2 fun key _ => hk key

/-- A projection whose rooms are those of the source shows no id twice while rooms can be read. -/
theorem showsEachOnce_of_mirrors (hc : Course (origin config sources directory) log t)
    (hid : directory.Identifies idOf) (hinj : Function.Injective idOf) (hm : Mirrors log t) :
    ShowsEachOnce Readable sources i log t := by
  intro log' t' hc' hw hi hr hn
  have hp := prefix_of_course (hc.trans hc') hi
  have hm' := mirrors_append hc hm hc' (hr.of_prefix hp) hw
  rw [map_id_published (hc.trans hc') hid, hm']
  exact (Edit.nodup_editedAll (hn.of_prefix hp) List.nodup_nil).map hinj

/-! ## Sending what puts a room twice into the list -/

/-- The source can send some edits, and all of them are worked on, in a course that is allowed. -/
def CanSend (allowed : List Moment → Prop) (sources : List Source) (i : Nat) (log : List Moment)
    (t : Timeline World) (edits : List (Edit String)) : Prop :=
  ∃ log' t', Course t log' t' ∧ allowed log' ∧ Live i t' ∧
    sentBy sources i (log ++ log') = sentBy sources i log ++ edits ∧ editsOf (workOf log') = edits

/-- Without a change of the rooms anything can be sent. -/
theorem canSend_unchanged (hc : Course (origin config sources directory) log t)
    (h : CaughtUp sources i log t) (edits : List (Edit String)) :
    CanSend Unchanged sources i log t edits := by
  obtain ⟨log', t', hc', hs', hsent', h'⟩ := exists_course_push hc h.toLive edits
  have hsent : sentBy sources i (log ++ log') = sentBy sources i log ++ edits := by
    rw [sentBy_append, hsent']
  refine ⟨log', t', hc', fun _ _ _ _ => by rw [hs']; simp, h'.toLive, hsent, ?_⟩
  have he := h'.sent
  rw [hsent, workOf_append, editsOf_append, h.sent] at he
  exact List.append_cancel_left he

/-- Rooms can be made readable one after the other, and nothing else happens. -/
theorem exists_course_readable (keys : List String) (t : Timeline World) :
    ∃ log' t', Course t log' t' ∧ workOf log' = [] ∧
      (∀ s ∈ stepsOf log', ∃ key, s = .setRoom key none none (some true)) ∧
      ∀ key, key ∈ keys ∨ (t.state.remote.directory.room key).readable = true →
        (t'.state.remote.directory.room key).readable = true := by
  induction keys generalizing t with
  | nil => exact ⟨[], t, .start, rfl, fun s hs => absurd hs List.not_mem_nil, fun key hk =>
      hk.resolve_left List.not_mem_nil⟩
  | cons key keys ih =>
    let s : Step := .setRoom key none none (some true)
    obtain ⟨log', t', hc, hw, hs, hk⟩ := ih ⟨t.now, (t.state.step s).1⟩
    refine ⟨_, t', (Course.start.step s).trans hc, ?_, ?_, ?_⟩
    · rw [workOf_append, hw]
      rfl
    · intro s' hs'
      rw [stepsOf_append, List.mem_append] at hs'
      rcases hs' with hs' | hs'
      · exact ⟨key, List.mem_singleton.1 hs'⟩
      · exact hs s' hs'
    · intro key' hk'
      refine hk key' ?_
      rw [List.mem_cons, or_assoc] at hk'
      rcases hk' with rfl | hk' | hk'
      · exact Or.inr (Directory.readable_update _ _)
      · exact Or.inl hk'
      · exact Or.inr (Directory.readable_update_of_readable hk' _)

/-- Once the rooms in them are made readable, anything can be sent. -/
theorem canSend_readable (hc : Course (origin config sources directory) log t)
    (h : CaughtUp sources i log t) (edits : List (Edit String)) :
    CanSend Readable sources i log t edits := by
  obtain ⟨log₁, t₁, hc₁, hw₁, hs₁, hk₁⟩ := exists_course_readable (edits.flatMap Edit.payload) t
  have hne : ∀ s ∈ stepsOf log₁, ∀ j es,
      s ≠ .push j es ∧ s ≠ .dropSource j ∧ s ≠ .dropProjection := by
    intro s hs j es
    obtain ⟨key, rfl⟩ := hs₁ s hs
    simp
  have hsent₁ : sentBy sources i (log ++ log₁) = sentBy sources i log := by
    rw [sentBy_append, sent_eq_nil (fun j es hm => (hne _ hm j es).1 rfl), List.append_nil]
  have hwork₁ : workOf (log ++ log₁) = workOf log := by
    rw [workOf_append, hw₁, List.append_nil]
  have h₁ : CaughtUp sources i (log ++ log₁) t₁ := by
    refine ⟨h.toLive.of_course hc₁ (fun hm => (hne _ hm 0 []).2.2 rfl)
      (fun hm => (hne _ hm i []).2.1 rfl), ?_⟩
    rw [hwork₁, hsent₁, h.sent]
  obtain ⟨log₂, t₂, hc₂, hu₂, hl₂, hsent₂, hedits⟩ := canSend_unchanged (hc.trans hc₁) h₁ edits
  have hwork : workOf (log₁ ++ log₂) = workOf log₂ := by rw [workOf_append, hw₁, List.nil_append]
  refine ⟨log₁ ++ log₂, t₂, hc₁.trans hc₂, ?_, hl₂, ?_, by rw [hwork, hedits]⟩
  · intro w hw e hm
    rw [hwork] at hw
    have hm' : e ∈ edits := hedits ▸ List.mem_flatMap.2 ⟨w, hw, hm⟩
    rw [directory_eq_of_workOf hc₂ hu₂ w hw]
    exact Directory.reads_iff.2 fun key hkey => hk₁ key (Or.inl (List.mem_flatMap.2 ⟨e, hm', hkey⟩))
  · rw [← List.append_assoc, hsent₂, hsent₁]

/-- What can be sent leaves no room twice in the stored list, if no id is ever shown twice. -/
theorem exists_nodup_of_canSend {allowed : List Moment → Prop} {edits : List (Edit String)}
    (hc : Course (origin config sources directory) log t) (hid : directory.Identifies idOf)
    (hr : Edit.InRange (sentBy sources i log ++ edits) [])
    (hn : Edit.LeavesNodup (sentBy sources i log ++ edits) [])
    (hs : ShowsEachOnce allowed sources i log t) (hcan : CanSend allowed sources i log t edits) :
    ∃ log' t', Course t log' t' ∧ allowed log' ∧ editsOf (workOf log') = edits ∧
      ((performAll (workOf log') t.state.projection.store.entries).map Entry.key).Nodup := by
  obtain ⟨log', t', hc', ha, ⟨-, -, a, hat, hi⟩, hsent, hedits⟩ := hcan
  have hshow := hs log' t' hc' ha (fun a' ha' => Option.some.inj (hat.symm.trans ha') ▸ hi)
    (hsent ▸ hr) (hsent ▸ hn)
  rw [map_id_published (hc.trans hc') hid, entries_of_course_append hc hc'] at hshow
  exact ⟨log', t', hc', ha, hedits, hshow.of_map⟩

/-- If anything can be sent and read, the lists must agree for no id to be shown twice. -/
theorem mirrors_of_showsEachOnce {allowed : List Moment → Prop}
    (hc : Course (origin config sources directory) log t) (hid : directory.Identifies idOf)
    (hr : Edit.InRange (sentBy sources i log) []) (hn : Edit.LeavesNodup (sentBy sources i log) [])
    (h : CaughtUp sources i log t) (hs : ShowsEachOnce allowed sources i log t)
    (hcan : ∀ edits, CanSend allowed sources i log t edits)
    (hread : ∀ log' t', Course t log' t' → allowed log' → Readable log') : Mirrors log t := by
  by_contra hm
  rw [Mirrors, h.sent] at hm
  obtain ⟨edits, hr', hn', hrep⟩ := Edit.exists_repeat hm (Edit.nodup_editedAll hn List.nodup_nil)
  obtain ⟨log', t', hc', ha, hedits, hk⟩ := exists_nodup_of_canSend hc hid
    (Edit.inRange_append.2 ⟨hr, hr'⟩) (Edit.leavesNodup_append.2 ⟨hn, hn'⟩) hs (hcan edits)
  rw [map_key_performAll_eq_applyAll (hread log' t' hc' ha), hedits] at hk
  exact hrep hk

/-- If rooms do not change, every room must be readable for no id to be shown twice. -/
theorem readable_of_showsEachOnce (hc : Course (origin config sources directory) log t)
    (hid : directory.Identifies idOf) (hr : Edit.InRange (sentBy sources i log) [])
    (hn : Edit.LeavesNodup (sentBy sources i log) []) (h : CaughtUp sources i log t)
    (hs : ShowsEachOnce Unchanged sources i log t) (key : String) :
    (t.state.remote.directory.room key).readable = true := by
  by_contra hb
  rw [Bool.not_eq_true] at hb
  obtain ⟨a, ha⟩ := t.state.remote.directory.exists_readable
  have hne : key ≠ a := by
    rintro rfl
    rw [ha] at hb
    cases hb
  let edits : List (Edit String) := [.clear, .pushBack a, .setAt 0 key, .pushBack a]
  have hr' : Edit.InRange edits (Edit.editedAll (sentBy sources i log) []) :=
    ⟨rfl, rfl, rfl, rfl, trivial⟩
  have hn' : Edit.LeavesNodup edits (Edit.editedAll (sentBy sources i log) []) := by
    simp [edits, Edit.LeavesNodup, Edit.edited, hne]
  obtain ⟨log', t', hc', hu, hedits, hk⟩ := exists_nodup_of_canSend hc hid
    (Edit.inRange_append.2 ⟨hr, hr'⟩) (Edit.leavesNodup_append.2 ⟨hn, hn'⟩) hs
    (canSend_unchanged hc h edits)
  rw [map_key_performAll_of_directory (directory_eq_of_workOf hc' hu) rfl, hedits,
    Directory.map_key_applyBatch_repeat ha hb] at hk
  simp at hk

/-- When rooms have different ids, a projection that has the rooms of the source shows no id twice
while rooms can be read.  Once it has caught up with its source this is the only case: when the
lists differ, some edits in range that leave no room twice at the source put one twice into the
list.  If no room changes any more, the lists must agree and every room be readable. -/
theorem showsEachOnce_iff_mirrors (hc : Course (origin config sources directory) log t)
    (hid : directory.Identifies idOf) (hinj : Function.Injective idOf)
    (hr : Edit.InRange (sentBy sources i log) [])
    (hn : Edit.LeavesNodup (sentBy sources i log) []) :
    (Mirrors log t → ShowsEachOnce Readable sources i log t) ∧
      (CaughtUp sources i log t →
        (ShowsEachOnce Readable sources i log t ↔ Mirrors log t) ∧
        (ShowsEachOnce Unchanged sources i log t ↔
          Mirrors log t ∧ ∀ key, (t.state.remote.directory.room key).readable = true)) := by
  have hshows : Mirrors log t → ShowsEachOnce Readable sources i log t :=
    showsEachOnce_of_mirrors hc hid hinj
  refine ⟨hshows, fun h => ⟨⟨fun hs => ?_, hshows⟩, fun hs => ?_, ?_⟩⟩
  · exact mirrors_of_showsEachOnce hc hid hr hn h hs (canSend_readable hc h) fun _ _ _ hw => hw
  · have hk := readable_of_showsEachOnce hc hid hr hn h hs
    refine ⟨mirrors_of_showsEachOnce hc hid hr hn h hs (canSend_unchanged hc h) ?_, hk⟩
    intro log' t' hc' hu
    exact readable_of_unchanged hc' hu hk
  · rintro ⟨hm, hk⟩ log' t' hc' hu
    exact hshows hm log' t' hc' (readable_of_unchanged hc' hu hk)

theorem identifies_unreadable (key : String) : (unreadable key).Identifies id := by
  intro key'
  by_cases hk : key' = key
  · subst hk
    simp [unreadable, Directory.room, Room.joined, Room.ofInfo, Metadata.joined]
  · simp [unreadable, Directory.room, List.lookup_cons, beq_false_of_ne hk, Room.joined,
      Room.ofInfo, Metadata.joined]

/-- The source replaced the first room by one that cannot be read, so the projection shows the first
one still, and nothing keeps it from showing that one twice. -/
theorem not_showsEachOnce_after_setAt : ∃ log t, Course (origin {} [{}] (unreadable "b")) log t ∧
    stepsOf log = [.attach 0, .push 0 [.pushBack "a", .setAt 0 "b"]] ∧ CaughtUp [{}] 0 log t ∧
    ¬ ShowsEachOnce Readable [{}] 0 log t := by
  obtain ⟨log, t, hc, hs, -, hcu, hsent, hw⟩ :=
    exists_course_batch (unreadable "b") (.pushBack "a") [.setAt 0 "b"]
  have h := showsEachOnce_iff_mirrors hc (identifies_unreadable "b") Function.injective_id
    (by rw [hsent]; decide) (by rw [hsent]; decide)
  refine ⟨log, t, hc, hs, hcu, ?_⟩
  rw [(h.2 hcu).1, Mirrors, (entries_of_course hc).1, hw]
  decide

/-- The source adds a room, replaces it by one that cannot be read and adds it again.  Its own list
never has a room twice, and the published list does. -/
theorem exists_id_shown_twice : ∃ log t, Course (origin {} [{}] (unreadable "b")) log t ∧
    stepsOf log = [.attach 0, .push 0 [.pushBack "a", .setAt 0 "b", .pushBack "a"]] ∧
    (unreadable "b").Identifies id ∧
    Edit.InRange (sentBy [{}] 0 log) [] ∧ Edit.LeavesNodup (sentBy [{}] 0 log) [] ∧
    ¬ (t.state.projection.published.value.map Summary.id).Nodup := by
  obtain ⟨log, t, hc, hs, -, -, hsent, hw⟩ :=
    exists_course_batch (unreadable "b") (.pushBack "a") [.setAt 0 "b", .pushBack "a"]
  refine ⟨log, t, hc, hs, identifies_unreadable "b", ?_, ?_, ?_⟩
  · rw [hsent]
    decide
  · rw [hsent]
    decide
  · rw [map_id_published hc (identifies_unreadable "b"), (entries_of_course hc).1, hw]
    decide

end LiveRooms.World
