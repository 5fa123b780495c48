import LiveRooms.Proofs.World.FirstNotice
import LiveRooms.Proofs.World.Frame
import LiveRooms.Proofs.World.Prospect
import LiveRooms.Proofs.World.Requests

/-!
# Later notices of a stream

A notice of a followed stream asks for a rebuild when it is read, not when it comes.  Until it is
read its follower is left to ask (`World.MustAsk`), and a world without a move left has no follower
with notices to read (`World.backlog_of_quiet`).  So a notice that is not the first of its stream
has led to a request once nothing is left to do (`World.exists_request_of_leadsToRequest`).
-/

namespace LiveRooms

namespace Follower

variable {f f' : Follower}

theorem id_of_read? {asks : Bool} (h : f.read? = some (f', asks)) : f'.id = f.id := by
  unfold read? at h
  split at h <;> cases h
  rfl

theorem id_of_finish? {isCancelled : Bool} (h : f.finish? isCancelled = some f') :
    f'.id = f.id := by
  unfold finish? at h
  split at h <;> cases h
  rfl

theorem id_notify (times : Nat) (f : Follower) : (f.notify times).id = f.id := by
  unfold notify
  split <;> rfl

/-- More notices leave a follower to ask. -/
theorem asks_notify (times : Nat) (h : f.asks = true) : (f.notify times).asks = true := by
  unfold notify
  split
  · exact h
  · simp only [asks, Bool.and_eq_true, Bool.or_eq_true, bne_iff_ne, decide_eq_true_eq] at h ⊢
    obtain ⟨hf, hs⟩ := h
    exact ⟨hf, hs.imp (fun hs => ⟨hs.1, by omega⟩) (by omega)⟩

end Follower

namespace World

variable {now i times : Nat} {id : String} {w w' : World} {f f' : Follower}

/-- A follower with the id is left to ask for a rebuild. -/
def MustAsk (id : String) (w : World) : Prop :=
  ∃ f ∈ w.projection.followers, f.id = id ∧ f.asks = true

/-- Notices that come leave a follower with the id to ask for a rebuild: they are more than the
first one of its stream. -/
def Prompts (id : String) (times : Nat) (w : World) : Prop :=
  ∃ f ∈ w.projection.followers, f.id = id ∧ (f.notify times).asks = true

/-! ## Followers -/

theorem MustAsk.of_eq (h : w.MustAsk id) (he : w'.projection.followers = w.projection.followers) :
    w'.MustAsk id := by
  unfold MustAsk
  rwa [he]

/-- One of the followers moves, and asks before it has nothing to ask for any more. -/
theorem MustAsk.set (h : w.MustAsk id) (hf : w.projection.followers[i]? = some f)
    (hid : f'.id = f.id) (ha : f.asks = true → f'.asks = true)
    (he : w'.projection.followers = w.projection.followers.set i f') : w'.MustAsk id := by
  obtain ⟨g, hmem, hgid, hg⟩ := h
  obtain ⟨j, hj⟩ := List.mem_iff_getElem?.1 hmem
  unfold MustAsk
  rw [he]
  by_cases hij : i = j
  · subst hij
    obtain rfl := Option.some.inj (hf.symm.trans hj)
    have hi : i < w.projection.followers.length := (List.getElem?_eq_some_iff.1 hf).1
    exact ⟨f', List.mem_set hi f', hid.trans hgid, ha hg⟩
  · have hj' : (w.projection.followers.set i f')[j]? = some g := by
      rw [List.getElem?_set_ne hij, hj]
    exact ⟨g, List.mem_of_getElem? hj', hgid, hg⟩

/-- The followers change, each by itself. -/
theorem MustAsk.updateFollower (h : w.MustAsk id) {id' : String} {change : Follower → Follower}
    (hid : ∀ f, (change f).id = f.id) (ha : ∀ f, f.asks = true → (change f).asks = true) :
    (w.updateFollower id' change).MustAsk id := by
  obtain ⟨f, hmem, hfid, hf⟩ := h
  refine ⟨_, List.mem_map_of_mem hmem, ?_⟩
  split
  · exact ⟨(hid f).trans hfid, ha f hf⟩
  · exact ⟨hfid, hf⟩

theorem MustAsk.addFollower (h : w.MustAsk id) {id' : String} (hn : id' ≠ id) :
    (w.addFollower id').MustAsk id := by
  obtain ⟨f, hmem, hfid, hf⟩ := h
  have hkeep : f ∈ w.projection.followers.filter fun f => f.id != id' := by
    rw [List.mem_filter, bne_iff_ne, hfid]
    exact ⟨hmem, hn.symm⟩
  exact ⟨f, List.mem_append_left _ hkeep, hfid, hf⟩

theorem Prompts.mustAsk (h : w.Prompts id times) :
    (w.step (.notify id times)).1.MustAsk id := by
  obtain ⟨f, hmem, rfl, hf⟩ := h
  refine ⟨_, List.mem_map_of_mem hmem, ?_⟩
  rw [if_pos rfl]
  exact ⟨Follower.id_notify times f, hf⟩

theorem followers_requestRebuild (p : Projection) : p.requestRebuild.followers = p.followers := by
  unfold Projection.requestRebuild
  split <;> rfl

theorem followers_updateAttachment (i : Nat) (change : Attachment → Attachment) (w : World) :
    (w.updateAttachment i change).projection.followers = w.projection.followers := by
  rw [updateAttachment_eq]

/-! ## What moves and steps keep -/

/-- A follower that is left to ask stays so until it asks. -/
theorem MustAsk.move {m : Move} (h : w.MustAsk id) (hd : w.projection.isDropped = false)
    (hm : w.move? now m = some w') : w.requests (.move m) = true ∨ w'.MustAsk id := by
  cases moved_of_move? hm with
  | @readNotice i f f' asks hf hr =>
    obtain ⟨-, ha⟩ := Follower.settle_of_read? hr
    cases asks with
    | true =>
      refine Or.inl ?_
      rw [requests, hf, Option.any_some]
      exact (Follower.asks_of_read? hr).symm
    | false =>
      refine Or.inr (h.set hf (Follower.id_of_read? hr) (fun hf' => ?_) rfl)
      exact ha.symm.trans hf'
  | finishFollower hf hr =>
    have hid := Follower.id_of_finish? hr
    rw [hd] at hr
    obtain ⟨-, ha⟩ := Follower.settle_of_finish? hr
    exact Or.inr (h.set hf hid (fun hf' => ha.symm.trans hf') rfl)
  | lookAtViewport =>
    refine Or.inr (h.of_eq ?_)
    rw [setPager, projection_decideAtLook]
  | _ => exact Or.inr h

theorem MustAsk.step {s : Step} (h : w.MustAsk id) (hn : s ≠ .follow id) :
    (w.step s).1.MustAsk id := by
  have hs := stepped_of_step w s
  generalize (w.step s).1 = w', (w.step s).2 = outcome at hs
  cases hs with
  | push | loading | dropSource => exact h.of_eq (followers_updateAttachment _ _ _)
  | report =>
    unfold reportViewports
    split <;> exact h
  | filter =>
    unfold World.filter
    split <;> exact h
  | settingsChanged =>
    split
    · exact h
    · exact h.of_eq (followers_requestRebuild w.projection)
  | @follow id' => exact h.addFollower fun he => hn (congrArg Step.follow he)
  | notify => exact h.updateFollower (Follower.id_notify _) fun _ => Follower.asks_notify _
  | unfollow => exact h.updateFollower (fun _ => rfl) fun _ hf => hf
  | _ => exact h

/-- When nothing is left to do, the followers have read all their notices. -/
theorem backlog_of_quiet (hq : Timed.Quiet now w) (hf : f ∈ w.projection.followers)
    (hn : f.isFinished = false) : f.backlog = 0 := by
  obtain ⟨i, hi⟩ := List.mem_iff_getElem?.1 hf
  simpa [Follower.read?, hn] using (follower_of_quiet hq hi).1

theorem not_mustAsk_of_quiet (hq : Timed.Quiet now w) : ¬ w.MustAsk id := by
  rintro ⟨f, hmem, -, hf⟩
  have hn : f.isFinished = false := by
    cases hfin : f.isFinished with
    | false => rfl
    | true => simp [Follower.asks, hfin] at hf
  simp [Follower.asks, backlog_of_quiet hq hmem hn] at hf

end World

/-- Something asks for a rebuild, or it is a notice, not the first of its stream, and no newer stream
takes the place of that one later. -/
def Moment.LeadsToRequest (late : List Moment) (m : Moment) : Prop :=
  m.before.requests m.cause = true ∨
    ∃ id times, m.cause = .step (.notify id times) ∧ m.before.Prompts id times ∧
      .follow id ∉ stepsOf late

namespace World

variable {id : String} {times : Nat} {log early late : List Moment} {r : Moment}
  {t₀ t : Timeline World}

/-- After a notice that is not the first of its stream a rebuild was asked for, or a follower is left
to ask. -/
theorem exists_request_or_mustAsk (hc : Course t₀ log t) (hlog : log = early ++ r :: late)
    (hr : r.cause = .step (.notify id times)) (hp : r.before.Prompts id times)
    (hn : .follow id ∉ stepsOf late) (hd : t.state.projection.isDropped = false) :
    (∃ m ∈ late, m.before.requests m.cause = true) ∨ t.state.MustAsk id := by
  induction hc generalizing late with
  | start => simp at hlog
  | wait later _ _ ih => exact ih hlog hn hd
  | @step log t s hc ih =>
    rcases snoc_eq_append_cons hlog with ⟨rfl, rfl, rfl⟩ | ⟨late', rfl, hlog'⟩
    · cases hr
      exact Or.inr hp.mustAsk
    · rw [stepsOf_snoc_step, List.mem_append, not_or, List.mem_singleton] at hn
      have hd' : t.state.projection.isDropped = false := by
        rw [← Bool.not_eq_true] at hd ⊢
        exact fun h => hd (ListSide.isDropped_of_steps_of_dropped (steps_of_step t.state s) h)
      rcases ih hlog' hn.1 hd' with ⟨m, hm, ha⟩ | hmust
      · exact Or.inl ⟨m, List.mem_append_left _ hm, ha⟩
      · exact Or.inr (hmust.step (Ne.symm hn.2))
  | @move log t w m hc hm ih =>
    rcases snoc_eq_append_cons hlog with ⟨rfl, rfl, rfl⟩ | ⟨late', rfl, hlog'⟩
    · cases hr
    · rw [stepsOf_snoc_move] at hn
      have hd' : t.state.projection.isDropped = false :=
        (ListSide.frame_of_moves (moves_of_move? hm)).2.2.symm.trans hd
      rcases ih hlog' hn hd' with ⟨m', hm', ha⟩ | hmust
      · exact Or.inl ⟨m', List.mem_append_left _ hm', ha⟩
      · refine (hmust.move hd' hm).imp_left fun ha => ?_
        exact ⟨_, List.mem_append_right _ (List.mem_singleton_self _), ha⟩

/-- When nothing is left to do after something that leads to a request, there was one. -/
theorem exists_request_of_leadsToRequest (hc : Course t₀ (early ++ r :: late) t)
    (hr : r.LeadsToRequest late) (hd : t.state.projection.isDropped = false)
    (hq : Timed.Quiet t.now t.state) : ∃ m ∈ r :: late, m.before.requests m.cause = true := by
  rcases hr with hr | ⟨id, times, hcause, hp, hn⟩
  · exact ⟨r, List.mem_cons_self, hr⟩
  · have h := exists_request_or_mustAsk hc rfl hcause hp hn hd
    obtain ⟨m, hm, ha⟩ := h.resolve_right (not_mustAsk_of_quiet hq)
    exact ⟨m, List.mem_cons_of_mem r hm, ha⟩

end World

end LiveRooms
