import LiveRooms.Proofs.World.Rest

/-!
# The published list

When a batch and a rebuild are both possible, it does not matter which is done first.  While the
rooms stay as they are, the published list of a projection at rest is the list of the reference
steps over a beginning of what the source sent.  Only the edits of an open window are missing.
-/

namespace LiveRooms.World

open Work

/-! ## The choice between a batch and a rebuild -/

/-- For any entries, batch and rooms, a batch and a rebuild come to the same in either order, so the
choice between the two does not change what becomes of a world. -/
theorem applyBatch_rebuild_comm :
    (∀ (d : Directory) (edits : List (Edit String)) (entries : List Entry),
      d.rebuild (d.applyBatch edits entries) = d.applyBatch edits (d.rebuild entries)) ∧
      ∀ w w₁ w₂ : World, w.applyBatch? = some w₁ → w.rebuild? = some w₂ →
        ∃ w', w₁.rebuild? = some w' ∧ w₂.applyBatch? = some w' := by
  refine ⟨Directory.rebuild_applyBatch, fun w w₁ w₂ h₁ h₂ => ?_⟩
  obtain ⟨hs, a, batch, queue, ha, hq, rfl⟩ := applyBatch?_eq_some_iff.1 h₁
  obtain ⟨⟨-, hr⟩, rfl⟩ := rebuild?_eq_some_iff.1 h₂
  refine ⟨_, rebuild?_eq_some_iff.2 ⟨⟨hs, hr⟩, rfl⟩, ?_⟩
  refine applyBatch?_eq_some_iff.2 ⟨hs, a, batch, queue, ha, hq, ?_⟩
  have hc := Directory.rebuild_applyBatch w.remote.directory batch w.projection.store.entries
  simp [Projection.publish, Watched.send, hc]

/-- A world in which a batch and a rebuild wait, and one room of the batch cannot be read. -/
def bothWaiting : World :=
  ⟨{ directory := ⟨[("b", { Room.joined "b" with readable := false })]⟩, sources := [{}] },
    { Projection.new {} with
      attachment := some
        { source := 0
          batcher :=
            { window := 100, capacity := 16, queue := [[.pushBack "a", .pushBack "b"]] } }
      rebuildQueued := true }⟩

theorem bothWaiting_comm : ∃ w₁ w₂ w', bothWaiting.applyBatch? = some w₁ ∧
    bothWaiting.rebuild? = some w₂ ∧ w₁.rebuild? = some w' ∧ w₂.applyBatch? = some w' := by
  obtain ⟨w', h₁, h₂⟩ := applyBatch_rebuild_comm.2 bothWaiting _ _ rfl rfl
  exact ⟨_, _, w', rfl, rfl, h₁, h₂⟩

/-! ## The list of a projection at rest -/

variable {config : Config} {sources : List Source} {directory : Directory} {log : List Moment}
  {t : Timeline World} {i : Nat}

/-- As long as no room is changed and the projection is not dropped, the published list of a
projection at rest holds the summaries of the reference steps over a beginning of what the source
sent.  Nothing is missing when the batcher holds nothing pending, and that is so once the source has
sent nothing for the length of the window since the projection, following it, was at rest. -/
theorem published_of_quiet (hc : Course (origin config sources directory) log t)
    (hrooms : Unchanged log) (hdrop : .dropProjection ∉ stepsOf log)
    (hi : ∀ a, t.state.projection.attachment = some a → a.source = i)
    (hq : Timed.Quiet t.now t.state) :
    ∃ applied rest, applied ++ rest = sentBy sources i log ∧
      t.state.projection.published.value = (directory.replay applied).map Entry.summary ∧
      (∀ a, t.state.projection.attachment = some a → a.batcher.pending = [] → rest = []) ∧
      ∀ log₀ log₁ t₀, log = log₀ ++ log₁ → Course (origin config sources directory) log₀ t₀ →
        Course t₀ log₁ t → t₀.state.projection.attachment.isSome →
        Timed.Quiet t₀.now t₀.state → (∀ edits, .push i edits ∉ stepsOf log₁) →
        t₀.now + config.batchWindow.toNat ≤ t.now → rest = [] := by
  obtain ⟨rest, hrest⟩ := prefix_of_course hc hi
  have hd : t.state.projection.isDropped = false := isDropped_of_course hc hdrop rfl
  have hpending : ∀ a, t.state.projection.attachment = some a → a.batcher.pending = [] →
      rest = [] := by
    intro a ha hp
    have hs := sent_of_quiet hc hd hq ha
    rw [hi a ha, hp, ← hrest] at hs
    exact (List.append_cancel_left hs).symm
  obtain ⟨he, hp⟩ := entries_of_course hc
  refine ⟨editsOf (workOf log), rest, hrest, ?_, hpending, ?_⟩
  · rw [hp, he, performAll_eq_replay (directory_eq_of_workOf hc hrooms)]
    rfl
  · intro log₀ log₁ t₀ hlog hc₀ hc₁ ha₀ hq₀ hn hw
    obtain ⟨a₀, ha₀⟩ := Option.isSome_iff_exists.1 ha₀
    obtain ⟨a, ha, hs⟩ := attachment_of_course hc₁ ha₀
    have hd₀ : t₀.state.projection.isDropped = false := by
      refine isDropped_of_course hc₀ ?_ rfl
      rw [hlog, stepsOf_append, List.mem_append, not_or] at hdrop
      exact hdrop.1
    have hi₀ : a₀.source = i := hs.symm.trans (hi a ha)
    exact hpending a ha (pending_of_window hc₀ hd₀ hq₀ ha₀ hc₁ (hi₀ ▸ hn) hd hq hw ha)

/-- A room that is sent is shown at the end of the window. -/
theorem published_of_quiet_one_room : ∃ log t, Course (origin {} [{}] ⟨[]⟩) log t ∧
    stepsOf log = [.attach 0, .push 0 [.pushBack "a"]] ∧ Timed.Quiet t.now t.state ∧
    t.state.projection.published.value.map Summary.id = ["a"] := by
  obtain ⟨log, t, hc, hs, hq, ⟨⟨hd, -, a, ha, hi⟩, he⟩, hsent, -⟩ :=
    exists_course_batch ⟨[]⟩ (.pushBack "a") []
  obtain ⟨applied, rest, hrest, hp, hn, -⟩ := published_of_quiet (i := 0) hc
    (by simp [Unchanged, hs]) (by simp [hs])
    (fun a' ha' => Option.some.inj (ha.symm.trans ha') ▸ hi) hq
  refine ⟨log, t, hc, hs, hq, ?_⟩
  have hpend : a.batcher.pending = [] := by
    have := sent_of_quiet hc hd hq ha
    rw [he, hi] at this
    exact List.append_cancel_left (this.trans (List.append_nil _).symm)
  rw [hp]
  rw [hn a ha hpend, List.append_nil, hsent] at hrest
  rw [hrest]
  decide

end LiveRooms.World
