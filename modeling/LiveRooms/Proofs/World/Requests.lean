import LiveRooms.Proofs.World.Frame

/-!
# Requests for a rebuild

A change of the settings asks for a rebuild, and so does every notice that a follower reads but its
first.  Requests collapse into one, which is left until the pipeline takes it up.
-/

namespace LiveRooms

/-- A follower that reads a notice asks for a rebuild unless the notice is its first. -/
theorem Follower.asks_of_read? {f f' : Follower} {asks : Bool} (h : f.read? = some (f', asks)) :
    asks = f.sawFirst := by
  unfold read? at h
  split at h <;> cases h
  rfl

namespace World

/-- Whether something asks for a rebuild. -/
def requests (w : World) : Cause → Bool
  | .step (.settingsChanged times) => times != 0 && !w.projection.isDropped
  | .move (.readNotice i) => w.projection.followers[i]?.any Follower.sawFirst
  | _ => false

/-- A rebuild was asked for and not taken up, or the pipeline takes nothing up any more. -/
def HasRequest (w : World) : Prop :=
  w.projection.isPipelineStopped = true ∨ w.projection.rebuildQueued = true

variable {w w' : World} {now i : Nat}

theorem hasRequest_requestRebuild (w : World) :
    HasRequest { w with projection := w.projection.requestRebuild } := by
  unfold Projection.requestRebuild
  split
  · rename_i hs
    exact Or.inl hs
  · exact Or.inr rfl

/-- A request is left by every move but the rebuild, and made by some. -/
theorem hasRequest_of_move? {m : Move} (hm : m ≠ .rebuild) (h : w.move? now m = some w')
    (hr : w.requests (.move m) = true ∨ w.HasRequest) : w'.HasRequest := by
  cases moved_of_move? h with
  | rebuild => exact absurd rfl hm
  | stopPipeline => exact Or.inl rfl
  | readNotice hf hread =>
    split
    · exact hasRequest_requestRebuild ⟨w.remote, _⟩
    · rename_i hasks
      refine hr.resolve_left fun hr => hasks ?_
      simp only [requests, hf, Option.any_some] at hr
      exact (Follower.asks_of_read? hread).trans hr
  | lookAtViewport =>
    have hr' : w.HasRequest := hr.resolve_left fun hr => by cases hr
    simpa only [HasRequest, setPager, projection_decideAtLook] using hr'
  | _ => exact hr.resolve_left fun hr => by cases hr

theorem hasRequest_updateAttachment {change : Attachment → Attachment} (h : w.HasRequest) :
    (w.updateAttachment i change).HasRequest := by
  rw [updateAttachment_eq]
  exact h

/-- A request is left by every step, and made by some. -/
theorem hasRequest_of_step {s : Step} (hr : w.requests (.step s) = true ∨ w.HasRequest) :
    (w.step s).1.HasRequest := by
  have hs := stepped_of_step w s
  generalize (w.step s).1 = w', (w.step s).2 = outcome at hs
  have hleft (hn : w.requests (.step s) = false) : w.HasRequest :=
    hr.resolve_left (Bool.eq_false_iff.1 hn)
  cases hs with
  | noProjection _ hd =>
    refine hleft ?_
    cases s <;> simp [requests, hd]
  | noSource ht =>
    refine hleft ?_
    cases s with
    | settingsChanged => cases ht
    | _ => rfl
  | settingsChanged =>
    split
    · rename_i ht
      exact hleft (by simp [requests, ht])
    · exact hasRequest_requestRebuild w
  | push | loading | dropSource => exact hasRequest_updateAttachment (hleft rfl)
  | report =>
    unfold reportViewports
    split <;> exact hleft rfl
  | filter =>
    unfold World.filter
    split <;> exact hleft rfl
  | _ => exact hleft rfl

end World

end LiveRooms
