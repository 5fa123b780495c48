import LiveRooms.Exchange
import LiveRooms.Proofs.Pipeline.Reading
import LiveRooms.Proofs.World.Frame

/-!
# Courses of an exchange

In a course of an exchange the moves of all parts, the store among them, steps from outside and the
passing of time follow each other in any order.  In a world a batch, a rebuild, a look at the
viewport and a decision about live rooms are one move each; here each is one way among others in
which the parts can take turns.  So every course of a world is one of exchanges that begins and ends
where nobody waits for the store (`exists_course`).
-/

namespace LiveRooms.Exchange

/-- What changes an exchange. -/
inductive Cause where
  | step (s : Step)
  | move (m : Move)
  deriving Repr

/-- A change of an exchange, with the time and the exchange right before it. -/
structure Moment where
  time : Nat
  before : Exchange
  cause : Cause

/-- The step from outside at a moment, if there is one. -/
def Moment.step? (m : Moment) : Option Step :=
  match m.cause with
  | .step s => some s
  | .move _ => none

/-- The steps from outside in a log, in order. -/
def stepsOf (log : List Moment) : List Step := log.filterMap Moment.step?

theorem stepsOf_append (log log' : List Moment) :
    stepsOf (log ++ log') = stepsOf log ++ stepsOf log' := List.filterMap_append

/-- What can become of an exchange, with the log of how it came about. -/
inductive Course (t₀ : Timeline Exchange) : List Moment → Timeline Exchange → Prop where
  | start : Course t₀ [] t₀
  | wait {log : List Moment} {t : Timeline Exchange} (later : Nat) :
      Course t₀ log t → t.now ≤ later → Course t₀ log ⟨later, t.state⟩
  | step {log : List Moment} {t : Timeline Exchange} (s : Step) :
      Course t₀ log t →
        Course t₀ (log ++ [⟨t.now, t.state, .step s⟩]) ⟨t.now, t.state.step s⟩
  | move {log : List Moment} {t : Timeline Exchange} {x : Exchange} (m : Move) :
      Course t₀ log t → t.state.move? t.now m = some x →
        Course t₀ (log ++ [⟨t.now, t.state, .move m⟩]) ⟨t.now, x⟩

/-- A world without exchanges, on the same clock. -/
def still (t : Timeline World) : Timeline Exchange := ⟨t.now, calm t.state⟩

/-- The exchange at time zero. -/
def origin (config : Config) (sources : List Source) (directory : Directory) :
    Timeline Exchange := still (World.origin config sources directory)

theorem Course.trans {t₀ t t' : Timeline Exchange} {log log' : List Moment}
    (h : Course t₀ log t) (h' : Course t log' t') : Course t₀ (log ++ log') t' := by
  induction h' with
  | start => rwa [List.append_nil]
  | wait later _ hl ih => exact ih.wait later hl
  | step s _ ih => rw [← List.append_assoc]; exact ih.step s
  | move m _ hm ih => rw [← List.append_assoc]; exact ih.move m hm

/-- A course goes through the exchange before each of its moments. -/
theorem Course.of_append_cons {t₀ t : Timeline Exchange} {early late : List Moment} {m : Moment}
    (h : Course t₀ (early ++ m :: late) t) :
    Course t₀ early ⟨m.time, m.before⟩ ∧ Course ⟨m.time, m.before⟩ (m :: late) t := by
  generalize hlog : early ++ m :: late = log at h
  induction h generalizing late with
  | start => simp at hlog
  | wait later _ hl ih => exact (ih hlog).imp id fun h => h.wait later hl
  | step s hc ih =>
    rcases snoc_eq_append_cons hlog.symm with ⟨rfl, rfl, rfl⟩ | ⟨late', rfl, rfl⟩
    · exact ⟨hc, Course.start.step s⟩
    · exact (ih rfl).imp id fun h => h.step s
  | move mv hc hm ih =>
    rcases snoc_eq_append_cons hlog.symm with ⟨rfl, rfl, rfl⟩ | ⟨late', rfl, rfl⟩
    · exact ⟨hc, Course.start.move mv hm⟩
    · exact (ih rfl).imp id fun h => h.move mv hm

/-- Moves alone lead from one exchange to another, at one time. -/
def Leads (now : Nat) (x x' : Exchange) : Prop :=
  ∃ log, Course ⟨now, x⟩ log ⟨now, x'⟩ ∧ stepsOf log = []

namespace Leads

variable {now : Nat} {x x' x'' : Exchange}

theorem refl (now : Nat) (x : Exchange) : Leads now x x := ⟨[], .start, rfl⟩

theorem trans (h : Leads now x x') (h' : Leads now x' x'') : Leads now x x'' := by
  obtain ⟨log, hc, hs⟩ := h
  obtain ⟨log', hc', hs'⟩ := h'
  exact ⟨log ++ log', hc.trans hc', by rw [stepsOf_append, hs, hs']; rfl⟩

theorem move (h : Leads now x x') (m : Move) (hm : x'.move? now m = some x'') :
    Leads now x x'' :=
  h.trans ⟨_, Course.start.move m hm, rfl⟩

end Leads

variable {now : Nat} {w w' : World}

/-! ## A job of the pipeline -/

/-- The pipeline reads all rooms that a task asks for. -/
theorem leads_task (now : Nat) {x : Exchange} {job : Job} {task : Reading (List Entry)}
    (h : x.phase = .working job task) :
    Leads now x { x with phase := .working job (.done (task.run x.world.remote.directory)) } := by
  induction task generalizing x with
  | done entries =>
    have hx : x = { x with phase := .working job (.done entries) } := by rw [← h]
    exact Eq.mp (congrArg (Leads now x) hx) (.refl now x)
  | ask q next ih =>
    have hm : x.move? now .readRoom = some { x with
        phase := .working job (next (x.world.remote.directory.answer q)) } := by
      simp [move?, readRoom?, h]
    exact ((Leads.refl now x).move .readRoom hm).trans (ih _ rfl)

theorem Leads.calm {x x' : Exchange} (h : Leads now x x') (hw : x'.world = w)
    (hp : x'.phase = .idle) (hpaging : x'.paging = none) (hshowing : x'.showing = none)
    (hc : x'.channel = []) (hr : ∀ client, x'.replies client = none) :
    Leads now x (calm w) := by
  obtain ⟨world, phase, paging, showing, channel, replies⟩ := x'
  obtain rfl : replies = fun _ => none := funext hr
  subst hw hp hpaging hshowing hc
  exact h

/-- The world after a job that was done in one go. -/
def perform (job : Job) (w : World) : World :=
  let entries := (job.task w.projection.store.entries).run w.remote.directory
  { w with projection := w.projection.publish entries }

/-- The pipeline does a job in one go. -/
theorem leads_job (now : Nat) (w : World) (job : Job) :
    Leads now (send .pipeline .snapshot { calm w with phase := .fetching job })
      (calm (perform job w)) := by
  have h₁ := ((Leads.refl now (send .pipeline .snapshot
    { calm w with phase := .fetching job })).move .serve rfl).move .receiveEntries rfl
  have h₂ := (h₁.trans (leads_task now rfl)).move .storeEntries rfl
  have h₃ := (h₂.move .serve rfl).move .publish rfl
  exact h₃.calm rfl rfl rfl rfl rfl fun client => by cases client <;> rfl

/-! ## Moves of a world -/

theorem leads_applyBatch (h : w.applyBatch? = some w') : Leads now (calm w) (calm w') := by
  obtain ⟨hs, a, batch, queue, ha, hq, rfl⟩ := World.applyBatch?_eq_some_iff.1 h
  have hm : (calm w).move? now .takeBatch = some (send .pipeline .snapshot
      { (calm w).setProjection { w.projection with
          attachment := some { a with batcher := { a.batcher with queue } } } with
        phase := .fetching (.batch batch) }) := by
    simp [move?, takeBatch?, isFree, calm, Phase.isIdle, hs, ha, hq]
  have hl := ((Leads.refl now (calm w)).move .takeBatch hm).trans (leads_job now _ (.batch batch))
  refine Eq.mp (congrArg (Leads now (calm w)) (congrArg calm ?_)) hl
  simp only [perform, Job.task, Reading.run_applyBatch]
  rfl

theorem leads_rebuild (h : w.rebuild? = some w') : Leads now (calm w) (calm w') := by
  obtain ⟨⟨hs, hr⟩, rfl⟩ := World.rebuild?_eq_some_iff.1 h
  have hm : (calm w).move? now .takeRebuild = some (send .pipeline .snapshot
      { (calm w).setProjection { w.projection with rebuildQueued := false } with
        phase := .fetching .rebuild }) := by
    simp [move?, takeRebuild?, isFree, calm, Phase.isIdle, hs, hr]
  have hl := ((Leads.refl now (calm w)).move .takeRebuild hm).trans (leads_job now _ .rebuild)
  refine Eq.mp (congrArg (Leads now (calm w)) (congrArg calm ?_)) hl
  simp only [perform, Job.task, Reading.run_rebuild]
  rfl

theorem leads_allowed {m : World.Move} (ha : (calm w).allows m = true)
    (h : w.move? now m = some w') : Leads now (calm w) (calm w') := by
  refine (Leads.refl now (calm w)).move (.world m) ?_
  have hw : (calm w).world.move? now m = some w' := h
  simp only [move?, worldMove?, if_pos ha, hw]
  rfl

theorem requestPages_setPager (v : Viewport) (count : Nat) (w : World) (pager : Pager) :
    (w.setPager pager).requestPages v count = (w.requestPages v count).setPager pager := by
  unfold World.requestPages World.setPager
  dsimp only
  split <;> rfl

theorem decidePages_eq (v : Viewport) (w : World) :
    w.decidePages v = w.requestPages v w.projection.store.count := rfl

theorem leads_lookAtViewport (h : w.lookAtViewport? now = some w') :
    Leads now (calm w) (calm w') := by
  by_cases hd : w.projection.pager.decidesOn w.projection.viewport = true
  · simp only [World.lookAtViewport?, if_pos hd] at h
    split at h
    · rename_i hr
      cases h
      have hm : (calm w).move? now .askCount = some (send .pager .count
          { (calm w).setProjection { w.projection with
              pager := { w.projection.pager with
                hasReport := false, handled := some w.projection.viewport } } with
            paging := some w.projection.viewport }) := by
        simp [move?, askCount?, calm, hr, hd]
      have hl := (((Leads.refl now (calm w)).move .askCount hm).move .serve rfl).move
        .receiveCount rfl
      refine hl.calm ?_ rfl rfl rfl rfl fun client => by cases client <;> rfl
      show World.setPager (World.requestPages w.projection.viewport w.projection.store.count
        (World.setPager w _)) _ = World.setPager (World.decidePages w.projection.viewport w) _
      rw [requestPages_setPager, decidePages_eq]
      rfl
    · cases h
  · exact leads_allowed (m := .lookAtViewport) (by simpa [allows, calm] using hd) h

theorem considerIds_rest (now : Nat) (v : Viewport) (ids : List String) (w : World) :
    (w.setSubscriber w.projection.subscriber.rest).considerIds now v ids =
      match w.projection.subscriber.request? w.projection.config.managesSubscriptions v ids with
      | none => w.setSubscriber w.projection.subscriber.rest
      | some ids =>
        World.setSubscriber
          { w with remote := { w.remote with service := (w.remote.service.subscribe ids).1 } }
          (w.projection.subscriber.ask now ids
            ((w.remote.service.subscribe ids).2 != .silent)) := by
  have hr : w.projection.subscriber.rest.request? w.projection.config.managesSubscriptions v ids =
    w.projection.subscriber.request? w.projection.config.managesSubscriptions v ids := rfl
  unfold World.considerIds
  dsimp only [World.setSubscriber]
  rw [hr]
  cases w.projection.subscriber.request? w.projection.config.managesSubscriptions v ids <;> rfl

theorem leads_considerViewport (h : w.considerViewport? now = some w') :
    Leads now (calm w) (calm w') := by
  by_cases hk : w.keepsLive = true
  · simp only [World.considerViewport?] at h
    split at h
    · rename_i hs
      have hm : (calm w).move? now .askIds = some (send .subscriber (.ids w.projection.viewport)
          { (calm w).setProjection { w.projection with
              subscriber := w.projection.subscriber.rest } with
            showing := some w.projection.viewport }) := by
        simp [move?, askIds?, calm, hs, hk]
      have hl := (((Leads.refl now (calm w)).move .askIds hm).move .serve rfl).move
        .receiveIds rfl
      refine hl.calm ?_ rfl rfl rfl rfl fun client => by cases client <;> rfl
      show World.considerIds now w.projection.viewport
        (w.projection.store.ids w.projection.viewport)
        (w.setSubscriber w.projection.subscriber.rest) = w'
      rw [considerIds_rest, ← Option.some_inj, ← h]
      cases w.projection.subscriber.request? w.projection.config.managesSubscriptions
        w.projection.viewport (w.projection.store.ids w.projection.viewport) <;> rfl
    · cases h
  · exact leads_allowed (m := .considerViewport) (by simpa [allows, calm] using hk) h

/-- A move of a world is made by moves of the exchange. -/
theorem leads_move {m : World.Move} (h : w.move? now m = some w') :
    Leads now (calm w) (calm w') := by
  cases m with
  | applyBatch => exact leads_applyBatch h
  | rebuild => exact leads_rebuild h
  | lookAtViewport => exact leads_lookAtViewport h
  | considerViewport => exact leads_considerViewport h
  | _ => exact leads_allowed rfl h

/-- Every course of a world is a course of exchanges, with the same steps from outside. -/
theorem exists_course {t₀ t : Timeline World} {log : List LiveRooms.Moment}
    (h : World.Course t₀ log t) :
    ∃ log', Course (still t₀) log' (still t) ∧ stepsOf log' = LiveRooms.stepsOf log := by
  induction h with
  | start => exact ⟨[], .start, rfl⟩
  | wait later _ hl ih =>
    obtain ⟨log', hc, hs⟩ := ih
    exact ⟨log', hc.wait later hl, hs⟩
  | step s _ ih =>
    obtain ⟨log', hc, hs⟩ := ih
    exact ⟨_, hc.step s, by rw [stepsOf_append, hs, stepsOf_snoc_step]; rfl⟩
  | move m _ hm ih =>
    obtain ⟨log', hc, hs⟩ := ih
    obtain ⟨log'', hc', hs'⟩ := leads_move hm
    exact ⟨_, hc.trans hc', by rw [stepsOf_append, hs, hs', stepsOf_snoc_move, List.append_nil]⟩

end LiveRooms.Exchange
