import LiveRooms.Proofs.Timeline.Pass
import LiveRooms.World.Run

/-!
# The first notice of a stream

The first notice that a follower reads asks for nothing.  So when it comes to a world without a move
left, the follower reads it and nothing else happens (`exists_followers_of_first_notice`).
-/

namespace LiveRooms.World

/-- The followers are replaced. -/
def withFollowers (followers : List Follower) (w : World) : World :=
  { w with projection := { w.projection with followers } }

variable {now : Nat} {w w' w'' : World} {followers : List Follower} {f f' : Follower}

theorem decidePages_withFollowers (v : Viewport) (followers : List Follower) (w : World) :
    (w.withFollowers followers).decidePages v = (w.decidePages v).withFollowers followers := by
  unfold decidePages withFollowers
  dsimp only
  split <;> rfl

theorem ite_eq_map {c : Prop} [Decidable c] {a b a' b' : Option World}
    (ha : a' = a.map (withFollowers followers)) (hb : b' = b.map (withFollowers followers)) :
    (if c then a' else b') = (if c then a else b).map (withFollowers followers) := by
  by_cases h : c
  · rw [if_pos h, if_pos h, ha]
  · rw [if_neg h, if_neg h, hb]

/-- The moves of other parts have nothing to do with the followers. -/
theorem move?_withFollowers {m : Move} (hr : ∀ i, m ≠ .readNotice i)
    (hf : ∀ i, m ≠ .finishFollower i) (followers : List Follower) :
    (w.withFollowers followers).move? now m = (w.move? now m).map (withFollowers followers) := by
  cases m with
  | readNotice i => exact absurd rfl (hr i)
  | finishFollower i => exact absurd rfl (hf i)
  | stopPipeline | rebuild => exact ite_eq_map rfl rfl
  | applyBatch =>
    refine ite_eq_map rfl ?_
    dsimp only [withFollowers]
    cases w.projection.attachment with
    | none => rfl
    | some a =>
      dsimp only
      cases a.batcher.queue <;> rfl
  | batch m =>
    simp only [move?, moveBatcher?, withFollowers]
    cases w.projection.attachment with
    | none => rfl
    | some a =>
      show (a.batcher.move? now m).bind _ = Option.map _ ((a.batcher.move? now m).bind _)
      cases a.batcher.move? now m <;> rfl
  | stopStatus =>
    simp only [move?, stopStatus?, withFollowers]
    cases w.projection.attachment with
    | none => rfl
    | some a => exact ite_eq_map rfl rfl
  | followStatus =>
    simp only [move?, followStatus?, withFollowers]
    cases w.projection.attachment with
    | none => rfl
    | some a =>
      refine ite_eq_map ?_ rfl
      show (w.sourceStatus? a).map _ = Option.map _ ((w.sourceStatus? a).map _)
      cases w.sourceStatus? a <;> rfl
  | stopPager | stopSubscriber =>
    refine ite_eq_map ?_ rfl
    rw [Option.map_map]
    rfl
  | wakePager | noticeReport | giveUpRequest =>
    simp only [move?, Option.map_map]
    rfl
  | lookAtViewport =>
    refine ite_eq_map ?_ rfl
    rw [decidePages_withFollowers]
    show some (setPager (if w.projection.pager.decidesOn w.projection.viewport then _ else _) _) = _
    cases w.projection.pager.decidesOn w.projection.viewport <;> rfl
  | considerViewport =>
    refine ite_eq_map ?_ rfl
    dsimp only [withFollowers]
    cases w.projection.subscriber.request? w.projection.config.managesSubscriptions
      w.projection.viewport (w.projection.store.ids w.projection.viewport) <;> rfl

/-- What can become of a follower to which the first notice comes while nothing is left to do. -/
inductive Greeted (f : Follower) : Follower → Prop where
  | unchanged : Greeted f f
  | waiting : f.isFinished = false → f.hasEnded = false → f.backlog = 0 → f.sawFirst = false →
      Greeted f { f with backlog := 1 }
  | seen : f.isFinished = false → f.hasEnded = false → f.backlog = 0 → f.sawFirst = false →
      Greeted f { f with sawFirst := true }

theorem Greeted.of_read? (h : Greeted f f') {g : Follower} {asks : Bool} (hq : f.read? = none)
    (hr : f'.read? = some (g, asks)) : asks = false ∧ Greeted f g := by
  obtain ⟨id, backlog, hasEnded, sawFirst, isFinished⟩ := f
  cases h with
  | unchanged => rw [hq] at hr; cases hr
  | waiting hf he hb hs =>
    cases hf; cases he; cases hb; cases hs
    cases hr
    exact ⟨rfl, .seen rfl rfl rfl rfl⟩
  | seen hf he hb hs =>
    cases hf; cases hb
    cases hr

theorem Greeted.finish?_eq_none (h : Greeted f f') {isCancelled : Bool}
    (hq : f.finish? isCancelled = none) : f'.finish? isCancelled = none := by
  cases h with
  | unchanged => exact hq
  | waiting hf he hb hs | seen hf he hb hs =>
    simp only [Follower.finish?, hf, he] at hq ⊢
    simpa using hq

theorem follower_of_quiet (hq : Timed.Quiet now w) {i : Nat}
    (hf : w.projection.followers[i]? = some f) :
    f.read? = none ∧ f.finish? w.projection.isDropped = none := by
  have hi : i < w.projection.followers.length := (List.getElem?_eq_some_iff.1 hf).1
  have hr : w.readNotice? i = none :=
    hq (.readNotice i) (by simp [Timed.moves, moves, hi])
  have hfin : w.finishFollower? i = none :=
    hq (.finishFollower i) (by simp [Timed.moves, moves, hi])
  constructor
  · cases h : f.read? with
    | none => rfl
    | some read => simp [readNotice?, hf, h] at hr
  · cases h : f.finish? w.projection.isDropped with
    | none => rfl
    | some f' => simp [finishFollower?, hf, h] at hfin

/-- The first notice came to some of the followers. -/
def Greets (w w' : World) : Prop :=
  ∃ followers : List Follower, w' = w.withFollowers followers ∧
    followers.length = w.projection.followers.length ∧
    ∀ (i : Nat) (f' : Follower), followers[i]? = some f' →
      ∃ f, w.projection.followers[i]? = some f ∧ Greeted f f'

theorem Greets.readNotice (h : Greets w w') (hq : Timed.Quiet now w) {i : Nat}
    (hw : w'.readNotice? i = some w'') : Greets w w'' := by
  obtain ⟨followers, rfl, hl, hg⟩ := h
  simp only [readNotice?, Option.bind_eq_bind, Option.bind_eq_some_iff, Option.pure_def,
    Option.some.injEq, Prod.exists] at hw
  obtain ⟨f', hf', g, asks, hread, rfl⟩ := hw
  obtain ⟨f, hf, hgreet⟩ := hg i f' hf'
  obtain ⟨rfl, hgreet'⟩ := hgreet.of_read? (follower_of_quiet hq hf).1 hread
  refine ⟨followers.set i g, rfl, by rw [List.length_set, hl], fun j g' hj => ?_⟩
  rw [List.getElem?_set] at hj
  split at hj
  · rename_i hij
    subst hij
    split at hj
    · cases hj
      exact ⟨f, hf, hgreet'⟩
    · cases hj
  · exact hg j g' hj

theorem Greets.finishFollower (h : Greets w w') (hq : Timed.Quiet now w) (i : Nat) :
    w'.finishFollower? i = none := by
  obtain ⟨followers, rfl, hl, hg⟩ := h
  cases hf' : followers[i]? with
  | none => simp [finishFollower?, withFollowers, hf']
  | some f' =>
    obtain ⟨f, hf, hgreet⟩ := hg i f' hf'
    have hn := hgreet.finish?_eq_none (follower_of_quiet hq hf).2
    simp [finishFollower?, withFollowers, hf', hn]

/-- Such a world moves by reading the notices only. -/
theorem Greets.move (h : Greets w w') (hq : Timed.Quiet now w) {m : Move}
    (hm : m ∈ Timed.moves w') (hw : w'.move? now m = some w'') : Greets w w'' := by
  by_cases hr : ∀ i, m ≠ .readNotice i
  · by_cases hf : ∀ i, m ≠ .finishFollower i
    · obtain ⟨followers, rfl, hl, hg⟩ := h
      have hm' : m ∈ Timed.moves w := by
        have he : Timed.moves (w.withFollowers followers) = Timed.moves w := by
          simp only [Timed.moves, moves, withFollowers, hl]
        rwa [he] at hm
      have hn : w.move? now m = none := hq m hm'
      rw [move?_withFollowers hr hf, hn] at hw
      cases hw
    · obtain ⟨i, rfl⟩ : ∃ i, m = .finishFollower i := by simpa using hf
      rw [move?, h.finishFollower hq i] at hw
      cases hw
  · obtain ⟨i, rfl⟩ : ∃ i, m = .readNotice i := by simpa using hr
    exact h.readNotice hq hw

/-- The first notice changes nothing but the followers to which it comes. -/
theorem exists_followers_of_first_notice {t : Timeline World} (hq : Timed.Quiet t.now t.state)
    {id : String} (hs : ∀ f ∈ t.state.projection.followers, f.id = id → f.sawFirst = false) :
    ∃ followers,
      (happen (.step (.notify id 1)) t).1 = ⟨t.now, t.state.withFollowers followers⟩ := by
  have hnotify : Greets t.state (t.state.step (.notify id 1)).1 := by
    refine ⟨_, rfl, List.length_map _, fun i f' hf' => ?_⟩
    rw [List.getElem?_map, Option.map_eq_some_iff] at hf'
    obtain ⟨f, hf, rfl⟩ := hf'
    refine ⟨f, hf, ?_⟩
    split
    · rename_i hid
      have hsaw := hs f (List.mem_of_getElem? hf) hid
      have hread := (follower_of_quiet hq hf).1
      unfold Follower.notify
      split
      · exact .unchanged
      · rename_i hc
        simp only [Bool.or_eq_true, not_or, Bool.not_eq_true] at hc
        have hb : f.backlog = 0 := by simpa [Follower.read?, hc.2] using hread
        rw [hb]
        exact .waiting hc.2 hc.1 hb hsaw
    · exact .unchanged
  have hsettle : Greets t.state (Timed.settle t.now (t.state.step (.notify id 1)).1) :=
    Timed.settle_induction (P := Greets t.state) (fun _ _ _ h hm hw => h.move hq hm hw) hnotify
  obtain ⟨followers, he, -, -⟩ := hsettle
  exact ⟨followers, congrArg (Timeline.mk t.now) he⟩

end LiveRooms.World
