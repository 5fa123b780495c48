import LiveRooms.Proofs.World.Flow

/-!
# What stays along a course

What every move and every step of a course keeps of the list side holds all along it
(`listSide_induction`).  So rooms that no step changes stay as they are, a followed source stays
followed, and what is there stays there until a step takes it away.
-/

namespace LiveRooms.World

open ListSide Work

variable {log : List Moment} {t₀ t : Timeline World} {i : Nat} {a : Attachment}

theorem listSide_induction {P : ListSide → Prop} (hc : Course t₀ log t) (h₀ : P t₀.state.listSide)
    (hm : ∀ now s s' m, Moves now s m s' → P s → P s')
    (hs : ∀ s s' step, step ∈ stepsOf log → Steps s step s' → P s → P s') :
    P t.state.listSide ∧ ∀ m ∈ log, P m.before.listSide := by
  induction hc with
  | start => exact ⟨h₀, fun m hm => absurd hm List.not_mem_nil⟩
  | wait later _ hl ih => exact ih hs
  | @step log t s _ ih =>
    rw [stepsOf_snoc_step] at hs
    obtain ⟨ih, ih'⟩ := ih fun l l' step hmem => hs l l' step (List.mem_append_left _ hmem)
    have hmem : s ∈ stepsOf log ++ [s] := List.mem_append_right _ (List.mem_singleton_self s)
    refine ⟨hs _ _ s hmem (steps_of_step t.state s) ih, fun m hm => ?_⟩
    rcases List.mem_append.1 hm with hm | hm
    · exact ih' m hm
    · rw [List.mem_singleton.1 hm]
      exact ih
  | @move log t w m _ hmove ih =>
    rw [stepsOf_snoc_move] at hs
    obtain ⟨ih, ih'⟩ := ih hs
    refine ⟨hm _ _ _ m (moves_of_move? hmove) ih, fun m' hm' => ?_⟩
    rcases List.mem_append.1 hm' with hm' | hm'
    · exact ih' m' hm'
    · rw [List.mem_singleton.1 hm']
      exact ih

/-! ## Rooms -/

theorem directory_of_work {m : Moment} {w : Work} (hw : w ∈ m.work) :
    w.directory = m.before.listSide.directory := by
  obtain ⟨time, before, cause⟩ := m
  cases cause with
  | step s => cases hw
  | move m =>
    cases m with
    | applyBatch =>
      obtain ⟨e, -, rfl⟩ := List.mem_map.1 hw
      rfl
    | rebuild =>
      rw [List.mem_singleton.1 hw]
      rfl
    | _ => cases hw

/-- All work sees what every change of a room keeps of the rooms. -/
theorem directory_of_workOf {P : Directory → Prop} (hc : Course t₀ log t)
    (h₀ : P t₀.state.remote.directory)
    (hs : ∀ key info event readable, .setRoom key info event readable ∈ stepsOf log →
      ∀ d, P d → P (d.update key (Room.change info event readable))) :
    ∀ w ∈ workOf log, P w.directory := by
  have h := listSide_induction (P := fun s => P s.directory) hc h₀
    (fun now s s' m hm hp => by rwa [(frame_of_moves hm).1])
    (fun s s' step hmem hstep hp => by
      rcases directory_of_steps hstep with hd | ⟨key, info, event, readable, rfl, hd⟩
      · rwa [hd]
      · rw [hd]
        exact hs key info event readable hmem s.directory hp)
  intro w hw
  obtain ⟨m, hm, hw⟩ := List.mem_flatMap.1 hw
  rw [directory_of_work hw]
  exact h.2 m hm

/-- No room is changed. -/
def Unchanged (log : List Moment) : Prop :=
  ∀ key info event readable, .setRoom key info event readable ∉ stepsOf log

theorem directory_eq_of_workOf (hc : Course t₀ log t) (hn : Unchanged log) :
    ∀ w ∈ workOf log, w.directory = t₀.state.remote.directory :=
  directory_of_workOf (P := fun d => d = t₀.state.remote.directory) hc rfl
    fun key info event readable hmem => absurd hmem (hn key info event readable)

/-! ## The projection and its source -/

theorem isDropped_of_course (hc : Course t₀ log t) (hn : .dropProjection ∉ stepsOf log)
    (hd : t₀.state.projection.isDropped = false) : t.state.projection.isDropped = false := by
  refine (listSide_induction (P := fun s => s.isDropped = false) hc hd ?_ ?_).1
  · intro now s s' m hm hp
    rw [(frame_of_moves hm).2.2, hp]
  · intro s s' step hmem hstep hp
    rw [isDropped_of_steps hstep fun he => hn (he ▸ hmem), hp]

theorem hasSource_of_course (hc : Course t₀ log t) (hn : .dropSource i ∉ stepsOf log)
    (hs : t₀.state.hasSource i = true) : t.state.hasSource i = true := by
  rw [hasSource_iff, ← Option.isSome_iff_exists] at hs ⊢
  refine (listSide_induction (P := fun s => (s.streams i).isSome = true) hc hs ?_ ?_).1
  · intro now s s' m hm hp
    rwa [(frame_of_moves hm).2.1]
  · intro s s' step hmem hstep hp
    exact isSome_streams_of_steps hstep (fun he => hn (he ▸ hmem)) hp

/-- A followed source stays followed. -/
theorem attachment_of_course (hc : Course t₀ log t)
    (ha : t₀.state.projection.attachment = some a) :
    ∃ a', t.state.projection.attachment = some a' ∧ a'.source = a.source := by
  have h := listSide_induction (P := fun s => ∃ b, s.feed = some (a.source, b)) hc
    ⟨_, feed_eq_some_iff.2 ⟨a, ha, rfl, rfl⟩⟩
    (fun now s s' m hm ⟨b, hb⟩ => (feed_of_moves hm hb).imp fun _ h => h.1)
    (fun s s' step _ hstep ⟨b, hb⟩ => (feed_of_steps hstep hb).imp fun _ h => h.1)
  obtain ⟨b, hb⟩ := h.1
  obtain ⟨a', ha', hs, -⟩ := feed_eq_some_iff.1 hb
  exact ⟨a', ha', hs⟩

/-- Once a batcher has read everything and nothing more is sent to it, its window closes in time. -/
theorem closesBy_of_course (hc : Course t₀ log t) (ha : t₀.state.projection.attachment = some a)
    {limit : Nat} (hb : a.batcher.inbox = [] ∧ a.batcher.ClosesBy limit)
    (hn : ∀ edits, .push a.source edits ∉ stepsOf log) {a' : Attachment}
    (ha' : t.state.projection.attachment = some a') : a'.batcher.ClosesBy limit := by
  have h := listSide_induction hc
    (P := fun s => ∃ b, s.feed = some (a.source, b) ∧ b.inbox = [] ∧ b.ClosesBy limit)
    ⟨_, feed_eq_some_iff.2 ⟨a, ha, rfl, rfl⟩, hb⟩ ?_ ?_
  · obtain ⟨b, hf, -, hl⟩ := h.1
    obtain ⟨a'', ha'', -, rfl⟩ := feed_eq_some_iff.1 hf
    obtain rfl := Option.some.inj (ha'.symm.trans ha'')
    exact hl
  · rintro now s s' m hm ⟨b, hf, hb⟩
    obtain ⟨b', hf', hs⟩ := feed_of_moves hm hf
    refine ⟨b', hf', ?_⟩
    rcases hs with rfl | ⟨m, hm⟩ | ⟨queue, rfl⟩
    · exact hb
    · exact Batcher.closesBy_of_moves_of_inbox hm hb.1 hb.2
    · exact hb
  · rintro s s' step hmem hstep ⟨b, hf, hb⟩
    obtain ⟨b', hf', hs⟩ := feed_of_steps hstep hf
    refine ⟨b', hf', ?_⟩
    rcases hs with rfl | ⟨edits, rfl⟩ | rfl | rfl
    · exact hb
    · exact absurd hmem (hn edits)
    · exact hb
    · exact hb

/-! ## What is sent -/

theorem sent_eq_nil (hn : ∀ j edits, .push j edits ∉ stepsOf log) (i : Nat) :
    log.flatMap (Moment.sent i) = [] := by
  rw [List.flatMap_eq_nil_iff]
  rintro ⟨time, before, cause⟩ hm
  cases cause with
  | move m => rfl
  | step s =>
    refine sent_of_ne_push (fun j edits hs => hn j edits ?_) i time before
    exact List.mem_filterMap.2 ⟨_, hm, congrArg some hs⟩

end LiveRooms.World
