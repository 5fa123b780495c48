import LiveRooms.Proofs.World.Dropped
import LiveRooms.Proofs.World.Outlook

/-!
# Forecasts

What becomes of a list can be told from the start and from the steps of the list side, each with its
time (`forecast`), when nothing is left to do before each of those steps.  This module has what a
world keeps on the way: as long as the projection is there its batcher is sound and never late
(`Working`), and when the projection was dropped at rest the list stays as it is (`Idle`).
-/

namespace LiveRooms

/-- The steps of the list side among some steps with their times. -/
def listSteps (steps : List (Nat × Step)) : List (Nat × Step) := steps.filter fun s => !s.2.isView

theorem listSteps_append (steps steps' : List (Nat × Step)) :
    listSteps (steps ++ steps') = listSteps steps ++ listSteps steps' := List.filter_append ..

theorem listSteps_singleton (time : Nat) (s : Step) :
    listSteps [(time, s)] = if s.isView then [] else [(time, s)] := by
  cases hs : s.isView <;> simp [listSteps, hs]

/-- What a list comes to: as long as its projection is there all that it depends on, and later the
list alone. -/
inductive Outlook where
  | there (p : Prospect)
  | gone (entries : List Entry)

namespace Outlook

/-- The entries of the list. -/
def entries : Outlook → List Entry
  | .there p => p.entries
  | .gone entries => entries

/-- What it comes to when nothing is left to do at an instant. -/
def settle (now : Nat) : Outlook → Outlook
  | .there p => .there (p.settle now)
  | .gone entries => .gone entries

/-- What a step of the list side does. -/
def step (s : Step) : Outlook → Outlook
  | .there p =>
    match s with
    | .dropProjection => .gone p.entries
    | s => .there (p.step s)
  | .gone entries => .gone entries

/-- Nothing happens at once, and nothing before the window of the pending edits closes. -/
def RestsAt (now : Nat) : Outlook → Prop
  | .there p => p.RestsAt now
  | .gone _ => True

variable {o : Outlook} {now later target : Nat}

theorem restsAt_settle (now : Nat) (o : Outlook) : (o.settle now).RestsAt now := by
  cases o with
  | there p => exact p.restsAt_settle now
  | gone => trivial

theorem RestsAt.settle_eq_self (h : o.RestsAt now) : o.settle now = o := by
  cases o with
  | there p => exact congrArg there (Prospect.RestsAt.settle_eq_self h)
  | gone => rfl

theorem RestsAt.settle_settle (h : o.RestsAt now) (hl : later ≤ target) :
    (o.settle later).settle target = o.settle target := by
  cases o with
  | there p => exact congrArg there (Prospect.RestsAt.settle_settle h hl)
  | gone => rfl

theorem step_there {s : Step} (hs : s ≠ .dropProjection) (p : Prospect) :
    (there p).step s = there (p.step s) := by
  cases s with
  | dropProjection => exact absurd rfl hs
  | _ => rfl

end Outlook

/-- What a list comes to when steps of the list side are made at their times: before and after each
of them all is done that can be done then. -/
def forecast (o : Outlook) (steps : List (Nat × Step)) : Outlook :=
  steps.foldl (fun o s => ((o.settle s.1).step s.2).settle s.1) o

theorem forecast_snoc (o : Outlook) (steps : List (Nat × Step)) (time : Nat) (s : Step) :
    forecast o (steps ++ [(time, s)]) =
      (((forecast o steps).settle time).step s).settle time := by
  simp [forecast]

/-- Nothing is left to do after the last of the steps. -/
theorem exists_restsAt_forecast {o : Outlook} {now : Nat} (h : o.RestsAt now)
    (steps : List (Nat × Step)) : ∃ time, (forecast o steps).RestsAt time := by
  rcases List.eq_nil_or_concat steps with rfl | ⟨steps, ⟨time, s⟩, rfl⟩
  · exact ⟨now, h⟩
  · rw [List.concat_eq_append, forecast_snoc]
    exact ⟨time, Outlook.restsAt_settle ..⟩

namespace ListSide

variable {now : Nat} {s s' : ListSide}

/-- Only batches and rebuilds change the entries. -/
theorem entries_of_moves {m : World.Move} (h : Moves now s m s') (hn : m ≠ .applyBatch)
    (hn' : m ≠ .rebuild) : s'.entries = s.entries ∧ (s.isStopped = true → s'.isStopped = true) := by
  cases h with
  | applyBatch => exact absurd rfl hn
  | rebuild => exact absurd rfl hn'
  | batch | other => exact ⟨rfl, id⟩
  | stopPipeline => exact ⟨rfl, fun _ => rfl⟩

theorem isStopped_of_steps {step : Step} (h : Steps s step s') : s'.isStopped = s.isStopped := by
  cases h <;> rfl

/-- The batcher is not late. -/
def Timely (now : Nat) (s : ListSide) : Prop :=
  ∀ (i : Nat) (b : Batcher (Edit String)), s.feed = some (i, b) → b.Timely now

theorem timely_of_moves {m : World.Move} (h : Moves now s m s') (ht : s.Timely now) :
    s'.Timely now := by
  cases h with
  | @applyBatch i b batch queue hf =>
    intro j b' hb
    cases hb
    exact ht i b hf
  | @batch i b b' m hf hm =>
    intro j b'' hb
    cases hb
    exact Batcher.timely_of_moves hm (ht i b hf)
  | _ => exact ht

theorem timely_updateFeed {change : Batcher (Edit String) → Batcher (Edit String)} {i : Nat}
    (ht : s.Timely now) (hc : ∀ j b, s.feed = some (j, b) → (change b).Timely now) :
    (s.updateFeed i change).Timely now := by
  intro j b' hb
  obtain ⟨b, hf, rfl⟩ := feed_updateFeed_eq_some hb
  split
  · exact hc j b hf
  · exact ht j b hf

/-- Whoever changes the list side while the pending edits wait does not make the batcher late. -/
theorem timely_of_steps {step : Step} (h : Steps s step s') (hn : step ≠ .dropProjection)
    (ht : s.Timely now)
    (hd : ∀ i b, s.feed = some (i, b) → b.pending ≠ [] → now < b.deadline) : s'.Timely now := by
  cases h with
  | attach =>
    intro j b hb hp
    cases hb
    exact absurd rfl hp
  | push => exact timely_updateFeed ht fun j b hf => Batcher.timely_push _ (hd j b hf)
  | dropSource => exact timely_updateFeed ht fun _ _ _ _ _ => Or.inr (Or.inl rfl)
  | dropProjection => exact absurd rfl hn
  | _ => exact ht

end ListSide

namespace World

variable {w w' : World} {now : Nat}

/-! ## After the projection is dropped -/

/-- The projection was dropped, and its list does not change any more. -/
structure Idle (now : Nat) (w : World) : Prop where
  isDropped : w.projection.isDropped = true
  ceases : w.projection.isPipelineStopped = true ∨ w.ListCeases now

theorem Idle.ne_of_move? {m : Move} (h : w.Idle now) (hm : w.move? now m = some w') :
    m ≠ .applyBatch ∧ m ≠ .rebuild := by
  rcases h.ceases with hs | hc
  · constructor <;> rintro rfl <;> cases moved_of_move? hm <;> simp_all
  · obtain ⟨-, hw⟩ := hc.move hm
    constructor <;> rintro rfl <;> cases hw

theorem Idle.move {m : Move} (h : w.Idle now) (hm : w.move? now m = some w') :
    w'.Idle now ∧ w'.projection.store.entries = w.projection.store.entries := by
  have hmoves := moves_of_move? hm
  obtain ⟨hn, hn'⟩ := h.ne_of_move? hm
  obtain ⟨he, hs⟩ := ListSide.entries_of_moves hmoves hn hn'
  refine ⟨⟨(ListSide.frame_of_moves hmoves).2.2.trans h.isDropped, ?_⟩, he⟩
  exact h.ceases.imp hs fun hc => (hc.move hm).1

theorem ListAgrees.exists_attachment (h : ListAgrees w w') {a' : Attachment}
    (ha' : w'.projection.attachment = some a') :
    ∃ a, w.projection.attachment = some a ∧ a.batcher = a'.batcher := by
  have hf : w.listSide.feed = some (a'.source, a'.batcher) := by
    rw [← h.listSide]
    exact feed_eq_some_iff.2 ⟨a', ha', rfl, rfl⟩
  obtain ⟨a, ha, -, hb⟩ := feed_eq_some_iff.1 hf
  exact ⟨a, ha, hb⟩

theorem ListCeases.of_listAgrees (h : w.ListCeases now) (hw : ListAgrees w w') :
    w'.ListCeases now where
  isDropped := (congrArg ListSide.isDropped hw.listSide).trans h.isDropped
  pipeline := h.pipeline.imp (congrArg ListSide.isStopped hw.listSide).trans hw.rebuildQueued.trans
  batcher a' ha' := by
    obtain ⟨a, ha, hb⟩ := hw.exists_attachment ha'
    exact hb ▸ h.batcher a ha
  followers := by
    rw [hw.followers]
    exact h.followers

theorem Idle.of_listAgrees (h : w.Idle now) (hw : ListAgrees w w') : w'.Idle now where
  isDropped := (congrArg ListSide.isDropped hw.listSide).trans h.isDropped
  ceases := h.ceases.imp (congrArg ListSide.isStopped hw.listSide).trans fun h =>
    h.of_listAgrees hw

theorem Idle.isPipelineStopped (h : w.Idle now) (hq : Timed.Quiet now w) :
    w.projection.isPipelineStopped = true :=
  h.ceases.elim id fun hc => hc.isPipelineStopped hq

theorem Idle.sleep {later : Nat} (h : w.Idle now) (hq : Timed.Quiet now w) : w.Idle later :=
  ⟨h.isDropped, Or.inl (h.isPipelineStopped hq)⟩

theorem Idle.step (h : w.Idle now) (hq : Timed.Quiet now w) (s : Step) :
    (w.step s).1.Idle now ∧
      (w.step s).1.projection.store.entries = w.projection.store.entries := by
  have hsteps := steps_of_step w s
  refine ⟨⟨ListSide.isDropped_of_steps_of_dropped hsteps h.isDropped, Or.inl ?_⟩,
    (entries_of_step w s).1⟩
  exact (ListSide.isStopped_of_steps hsteps).trans (h.isPipelineStopped hq)

/-! ## As long as the projection is there -/

variable {config : Config} {sent : Nat → List (Edit String)} {done : List (Edit String)}

theorem working_of_flows (hf : Flows config sent done now w.listSide)
    (hd : w.projection.isDropped = false) (ht : w.listSide.Timely now) : w.Working now where
  isDropped := hd
  isPipelineStopped := hf.isPipelineStopped hd
  batcher a ha := ⟨hf.isCancelled hd ha, (hf.attached ha).isClosed, (hf.attached ha).sound,
    ht a.source a.batcher (feed_eq_some_iff.2 ⟨a, ha, rfl, rfl⟩)⟩

theorem Working.of_listAgrees (h : w.Working now) (hw : ListAgrees w w') : w'.Working now where
  isDropped := (congrArg ListSide.isDropped hw.listSide).trans h.isDropped
  isPipelineStopped := (congrArg ListSide.isStopped hw.listSide).trans h.isPipelineStopped
  batcher a' ha' := by
    obtain ⟨a, ha, hb⟩ := hw.exists_attachment ha'
    exact hb ▸ h.batcher a ha

theorem Working.timely (h : w.Working now) : w.listSide.Timely now := by
  intro i b hb
  obtain ⟨a, ha, -, rfl⟩ := feed_eq_some_iff.1 hb
  exact (h.batcher a ha).2.2.2

/-- At rest nothing is left of the prospect that could happen at once. -/
theorem restsAt_prospect (hf : Flows config sent done now w.listSide)
    (hd : w.projection.isDropped = false) (hq : Timed.Quiet now w) :
    w.prospect.RestsAt now where
  feed i s hs := by
    obtain ⟨⟨j, b⟩, hb, he⟩ := Option.map_eq_some_iff.1 hs
    cases he
    obtain ⟨a, ha, -, rfl⟩ := feed_eq_some_iff.1 hb
    have hfa := hf.attached ha
    refine Batcher.restsAt_of_quiet (batcher_of_quiet hq ha) hfa.sound (hf.isCancelled hd ha)
      hfa.isClosed (queue_of_quiet hq ha (hf.isPipelineStopped hd)) ?_ hfa.closesBy
    rw [hfa.capacity]
    decide
  wantsRebuild := rebuildQueued_of_quiet hq (hf.isPipelineStopped hd)
  followers f hf := by
    obtain ⟨g, hg, rfl⟩ := List.mem_map.1 hf
    obtain ⟨i, hi⟩ := List.mem_iff_getElem?.1 hg
    obtain ⟨hr, hfin⟩ := follower_of_quiet hq hi
    rw [hd] at hfin
    exact Follower.rests_trim hr hfin

/-- At rest the pending edits wait for the end of their window. -/
theorem lt_deadline_of_rest (hf : Flows config sent done now w.listSide)
    (hd : w.projection.isDropped = false) (hq : Timed.Quiet now w) (i : Nat)
    (b : Batcher (Edit String)) (hb : w.listSide.feed = some (i, b)) (hp : b.pending ≠ []) :
    now < b.deadline := by
  obtain ⟨a, ha, -, rfl⟩ := feed_eq_some_iff.1 hb
  exact Batcher.lt_deadline_of_quiet (batcher_of_quiet hq ha) (hf.attached ha).sound
    (hf.isCancelled hd ha) (hf.attached ha).isClosed hp

/-- At rest the batcher has nothing to read, and so it will not be late. -/
theorem timely_of_rest (hf : Flows config sent done now w.listSide)
    (hd : w.projection.isDropped = false) (hq : Timed.Quiet now w) (later : Nat) :
    w.listSide.Timely later := by
  intro i b hb _ _
  obtain ⟨a, ha, -, rfl⟩ := feed_eq_some_iff.1 hb
  have hcap : a.batcher.queue.length < a.batcher.capacity := by
    rw [queue_of_quiet hq ha (hf.isPipelineStopped hd), (hf.attached ha).capacity]
    decide
  have hi := (Batcher.inbox_of_quiet (batcher_of_quiet hq ha) (hf.attached ha).sound
    (hf.isCancelled hd ha) (hf.attached ha).isClosed hcap).1
  exact Or.inl (by rw [hi, List.flatten_nil])

/-- A step of the list side at rest does not make the batcher late. -/
theorem Working.step {s : Step} (h : w.Working now)
    (hf : Flows config sent done now w.listSide) (hq : Timed.Quiet now w)
    (hn : s ≠ .dropProjection) : (w.step s).1.Working now := by
  have hsteps := steps_of_step w s
  have hd : (w.step s).1.projection.isDropped = false :=
    (ListSide.isDropped_of_steps hsteps hn).trans h.isDropped
  exact working_of_flows hf.steps hd
    (ListSide.timely_of_steps hsteps hn h.timely (lt_deadline_of_rest hf h.isDropped hq))

theorem restsAt_prospect_new (config : Config) (sources : List Source) (directory : Directory) :
    (new config sources directory).prospect.RestsAt 0 where
  feed _ _ h := by cases h
  wantsRebuild := rfl
  followers _ h := by cases h

end World

end LiveRooms
