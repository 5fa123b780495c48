import LiveRooms.Proofs.Exchange.Punctual
import LiveRooms.Proofs.World.Forecast

/-!
# The list does not depend on the view side

What becomes of a list can be told from the start and from the steps of the list side with their
times alone (`foretold_of_punctual`), as long as those steps are made at rest; otherwise it could
matter which of a step and a move comes first.  The view side may do what it likes at any time: it
reaches the same store as the pipeline, pages are asked for, subscriptions sent, given up or left
without an answer, filters refused, and none of it can be seen in the list.
-/

namespace LiveRooms

namespace World

theorem listAgrees_requestPages (v : Viewport) (count : Nat) (pager : Pager) (w : World) :
    ListAgrees w ((w.requestPages v count).setPager pager) := by
  unfold requestPages
  split
  · rename_i a request _ _
    have hr : ∀ s, (Source.record (.page request) s).failsLoading = s.failsLoading := fun _ => rfl
    have hl := listSide_record a.source (.page request) w
    exact ⟨hl, refuses_updateSource hr a.source w, rfl, rfl⟩
  · exact ⟨rfl, rfl, rfl, rfl⟩

theorem listAgrees_considerIds (now : Nat) (v : Viewport) (ids : List String) (w : World) :
    ListAgrees w (w.considerIds now v ids) := by
  unfold considerIds
  dsimp only
  split <;> exact ⟨rfl, rfl, rfl, rfl⟩

end World

namespace Exchange

/-- The entries that are stored when the job under way is done. -/
def entries (x : Exchange) : List Entry :=
  match x.phase with
  | .idle => x.world.projection.store.entries
  | .fetching job => (job.task x.world.projection.store.entries).run x.world.remote.directory
  | .working _ task => task.run x.world.remote.directory
  | .storing entries => entries

/-- What the list of the projection depends on. -/
def prospect (x : Exchange) : Prospect := { x.world.prospect with entries := x.entries }

/-- What the list comes to. -/
def outlook (x : Exchange) : Outlook :=
  if x.world.projection.isDropped then .gone x.entries else .there x.prospect

/-- Whoever makes a step of the list side waits until no move is left. -/
def ListStepsAtRest (log : List Moment) : Prop :=
  ∀ m ∈ log, m.step?.any (fun s => !s.isView) = true → m.before.Quiet m.time

instance (log : List Moment) : Decidable (ListStepsAtRest log) :=
  inferInstanceAs (Decidable (∀ m ∈ log, _ → _))

theorem listStepsAtRest_append {log log' : List Moment} :
    ListStepsAtRest (log ++ log') ↔ ListStepsAtRest log ∧ ListStepsAtRest log' :=
  List.forall_mem_append

variable {now : Nat} {x x' : Exchange} {log log' : List Moment}

theorem entries_of_idle (h : x.phase = .idle) :
    x.entries = x.world.projection.store.entries := by
  rw [entries, h]

theorem entries_congr (hp : x'.phase = x.phase)
    (he : x'.world.listSide.entries = x.world.listSide.entries)
    (hd : x'.world.listSide.directory = x.world.listSide.directory) : x'.entries = x.entries := by
  have he' : x'.world.projection.store.entries = x.world.projection.store.entries := he
  have hd' : x'.world.remote.directory = x.world.remote.directory := hd
  rw [entries, entries, hp, he', hd']

theorem prospect_of_idle (h : x.phase = .idle) : x.prospect = x.world.prospect := by
  rw [prospect, entries_of_idle h]
  rfl

theorem prospect_congr
    (hw : ∀ entries, { x'.world.prospect with entries } = { x.world.prospect with entries })
    (he : x'.entries = x.entries) : x'.prospect = x.prospect := by
  rw [prospect, prospect, he, hw]

theorem prospect_of_listAgrees (ha : World.ListAgrees x.world x'.world)
    (hp : x'.phase = x.phase) : x'.prospect = x.prospect :=
  prospect_congr (fun _ => by rw [ha.prospect_eq])
    (entries_congr hp (congrArg ListSide.entries ha.listSide)
      (congrArg ListSide.directory ha.listSide))

/-! ## Moves -/

/-- What moves do to what the list depends on: but for those of the world, the pipeline takes a job
or goes on with the one that is under way, and nobody else does anything. -/
inductive Turns (now : Nat) (x : Exchange) : Exchange → Prop where
  | world {m : World.Move} {w : World} : m ≠ .applyBatch → m ≠ .rebuild →
      x.world.move? now m = some w → Turns now x { x with world := w }
  | takeBatch {x' : Exchange} {a : Attachment} {batch : List (Edit String)}
      {queue : List (List (Edit String))} : x.phase = .idle →
      x.world.projection.isPipelineStopped = false → x.world.projection.attachment = some a →
      a.batcher.queue = batch :: queue → x'.phase = .fetching (.batch batch) →
      x'.world = { x.world with
        projection := { x.world.projection with
          attachment := some { a with batcher := { a.batcher with queue } } } } →
      Turns now x x'
  | takeRebuild {x' : Exchange} : x.phase = .idle →
      x.world.projection.isPipelineStopped = false → x.world.projection.rebuildQueued = true →
      x'.phase = .fetching .rebuild →
      x'.world = { x.world with
        projection := { x.world.projection with rebuildQueued := false } } →
      Turns now x x'
  | onward {x' : Exchange} {entries : List Entry} {published : List Summary} :
      x'.world.listSide = { x.world.listSide with entries, published } →
      x'.prospect = x.prospect →
      (x.phase = .idle → x'.phase = .idle ∧ World.ListAgrees x.world x'.world) → Turns now x x'

theorem turns_of_listAgrees (ha : World.ListAgrees x.world x'.world) (hp : x'.phase = x.phase) :
    Turns now x x' :=
  .onward ha.listSide (prospect_of_listAgrees ha hp) fun h => ⟨hp.trans h, ha⟩

/-- The pipeline goes on with its job. -/
theorem turns_of_entries (hw : x'.world = x.world) (hp : x.phase ≠ .idle)
    (he : x'.entries = x.entries) : Turns now x x' :=
  .onward (congrArg World.listSide hw) (prospect_congr (fun _ => by rw [hw]) he)
    fun h => absurd h hp

/-- The store handles a command. -/
theorem turns_of_serve (hk : Keeps log x) (h : x.serve? = some x') : Turns now x x' := by
  unfold serve? at h
  split at h
  · cases h
  · rename_i client command channel hc
    cases h
    cases command with
    | replace entries =>
      obtain ⟨-, hp⟩ := hk.orderly.phase_of_replace hc
      refine .onward rfl (prospect_congr (fun _ => rfl) ?_) fun hi => by rw [hi] at hp; cases hp
      simp only [Exchange.entries, setProjection, hp]
    | snapshot | count | ids v => exact turns_of_listAgrees ⟨rfl, rfl, rfl, rfl⟩ rfl

theorem turns_of_move? {m : Move} (hk : Keeps log x) (h : x.move? now m = some x') :
    Turns now x x' := by
  have hb := hk.busy
  cases m with
  | world m =>
    simp only [move?, worldMove?] at h
    split at h
    · rename_i ha
      obtain ⟨w, hm, rfl⟩ := Option.map_eq_some_iff.1 h
      refine .world ?_ ?_ hm <;>
      · rintro rfl
        cases ha
    · cases h
  | takeBatch =>
    obtain ⟨hp, hs, a, batch, queue, ha, hq, rfl⟩ := takeBatch?_eq_some h
    exact .takeBatch hp hs ha hq rfl rfl
  | takeRebuild =>
    cases acts_of_move? h with
    | takeRebuild hp hs hq => exact .takeRebuild hp hs hq rfl rfl
  | receiveEntries =>
    cases acts_of_move? h with
    | receiveEntries hp hr =>
      rw [hp, hr] at hb
      obtain ⟨-, rfl⟩ := hb.of_fetched
      refine turns_of_entries rfl (by simp [hp]) ?_
      simp only [entries, received, hp]
  | readRoom =>
    cases acts_of_move? h with
    | readRoom hp =>
      refine turns_of_entries rfl (by simp [hp]) ?_
      simp only [entries, hp, Reading.run]
  | storeEntries =>
    cases acts_of_move? h with
    | storeEntries hp =>
      refine turns_of_entries rfl (by simp [hp]) ?_
      simp only [entries, send, hp, Reading.run]
  | publish =>
    cases acts_of_move? h with
    | publish hp hr =>
      rw [hp, hr] at hb
      obtain ⟨-, rfl⟩ := hb.of_stored
      refine .onward rfl (prospect_congr (fun _ => rfl) ?_) fun hi => by rw [hi] at hp; cases hp
      simp only [entries, received, setProjection, hp]
  | askCount =>
    simp only [move?, askCount?] at h
    split at h <;> cases h
    exact turns_of_listAgrees ⟨rfl, rfl, rfl, rfl⟩ rfl
  | receiveCount =>
    simp only [move?, receiveCount?] at h
    split at h <;> cases h
    exact turns_of_listAgrees (World.listAgrees_requestPages ..) rfl
  | askIds =>
    simp only [move?, askIds?] at h
    split at h <;> cases h
    exact turns_of_listAgrees ⟨rfl, rfl, rfl, rfl⟩ rfl
  | receiveIds =>
    simp only [move?, receiveIds?] at h
    split at h <;> cases h
    exact turns_of_listAgrees (World.listAgrees_considerIds ..) rfl
  | serve => exact turns_of_serve hk h

/-! ## What moves keep -/

variable {config : Config} {sent : Nat → List (Edit String)} {done : List (Edit String)}

theorem flows_of_turns (hf : Flows config sent done now x.world.listSide) (h : Turns now x x') :
    ∃ done, Flows config sent done now x'.world.listSide := by
  cases h with
  | world _ _ hm => exact ⟨_, hf.moves hm⟩
  | takeBatch hp hs ha hq _ hw =>
    have ht := hf.moves (m := .applyBatch) (World.applyBatch?_eq_some_iff.2
      ⟨hs, _, _, _, ha, hq, rfl⟩)
    rw [hw]
    exact ⟨_, { ht with }⟩
  | takeRebuild _ _ _ _ hw =>
    rw [hw]
    exact ⟨done, hf⟩
  | onward hl =>
    rw [hl]
    exact ⟨done, { hf with }⟩

theorem isDropped_of_turns (h : Turns now x x') :
    x'.world.projection.isDropped = x.world.projection.isDropped := by
  cases h with
  | world _ _ hm => exact (ListSide.frame_of_moves (World.moves_of_move? hm)).2.2
  | takeBatch _ _ _ _ _ hw | takeRebuild _ _ _ _ hw => rw [hw]
  | onward hl => exact congrArg ListSide.isDropped hl

theorem timely_of_turns (ht : x.world.listSide.Timely now) (h : Turns now x x') :
    x'.world.listSide.Timely now := by
  cases h with
  | world _ _ hm => exact ListSide.timely_of_moves (World.moves_of_move? hm) ht
  | @takeBatch _ a _ _ _ _ ha _ _ hw =>
    intro i b hb
    rw [hw] at hb
    cases hb
    exact ht a.source a.batcher (World.feed_eq_some_iff.2 ⟨a, ha, rfl, rfl⟩)
  | takeRebuild _ _ _ _ hw =>
    rw [hw]
    exact ht
  | onward hl =>
    rw [hl]
    exact ht

/-- As long as the projection is there, no move changes what the prospect comes to. -/
theorem settle_of_turns (hw : x.world.Working now) (h : Turns now x x') :
    x'.prospect.settle now = x.prospect.settle now := by
  cases h with
  | @world m w hn hn' hm =>
    have hmoves := World.moves_of_move? hm
    have he : entries { x with world := w } = x.entries := entries_congr rfl
      (ListSide.entries_of_moves hmoves hn hn').1 (ListSide.frame_of_moves hmoves).1
    rw [prospect, he]
    exact World.settle_of_move hm hw hn hn' x.entries
  | @takeBatch _ a batch queue hp _ ha hq hp' hw' =>
    obtain ⟨hdue, hrest⟩ := Batcher.stock_of_queue now hq
    have he : x'.entries =
        x.world.remote.directory.applyBatch batch x.world.projection.store.entries := by
      simp only [entries, hp', hw', Job.task, Reading.run_applyBatch]
    rw [prospect_of_idle hp, prospect, he, hw']
    exact Prospect.settle_of_applied (World.feed_prospect ha) hdue hrest
  | takeRebuild hp _ hr hp' hw' =>
    have he : x'.entries =
        x.world.remote.directory.rebuild x.world.projection.store.entries := by
      simp only [entries, hp', hw', Job.task, Reading.run_rebuild]
    rw [prospect_of_idle hp, prospect, he, hw']
    exact Prospect.settle_of_rebuilt (p := x.world.prospect) hr
  | onward _ hp => rw [hp]

/-- The projection was dropped, and the pipeline has nothing to do. -/
structure Idle (now : Nat) (x : Exchange) : Prop where
  phase : x.phase = .idle
  world : x.world.Idle now

/-- When the projection was dropped at rest, no move changes the list. -/
theorem Idle.turns (hi : x.Idle now) (h : Turns now x x') :
    x'.Idle now ∧ x'.entries = x.entries := by
  cases h with
  | @world m w _ _ hm =>
    obtain ⟨hw, he⟩ := hi.world.move hm
    have he' : entries { x with world := w } = w.projection.store.entries :=
      entries_of_idle hi.phase
    exact ⟨⟨hi.phase, hw⟩, by rw [he', he, entries_of_idle hi.phase]⟩
  | takeBatch _ hs ha hq =>
    rcases hi.world.ceases with hs' | hc
    · rw [hs] at hs'
      cases hs'
    · rw [(hc.batcher _ ha).queue] at hq
      cases hq
  | takeRebuild _ hs hr =>
    rcases hi.world.ceases with hs' | hc
    · rw [hs] at hs'
      cases hs'
    · rcases hc.pipeline with hs' | hr'
      · rw [hs] at hs'
        cases hs'
      · rw [hr] at hr'
        cases hr'
  | onward _ _ hi' =>
    obtain ⟨hp, ha⟩ := hi' hi.phase
    refine ⟨⟨hp, hi.world.of_listAgrees ha⟩, ?_⟩
    rw [entries_of_idle hp, entries_of_idle hi.phase]
    exact congrArg ListSide.entries ha.listSide

/-! ## Steps -/

theorem outlook_of_working (h : x.world.Working now) : x.outlook = .there x.prospect :=
  if_neg (by simp [h.isDropped])

theorem Idle.outlook_eq (h : x.Idle now) : x.outlook = .gone x.entries :=
  if_pos h.world.isDropped

/-- The view side changes nothing about the prospect, whenever it does something. -/
theorem outlook_of_view {s : Step} (hs : s.isView = true) (x : Exchange) :
    (x.step s).outlook = x.outlook := by
  have ha : World.ListAgrees x.world (x.step s).world := World.listAgrees_of_view hs x.world
  have hd : (x.step s).world.projection.isDropped = x.world.projection.isDropped :=
    congrArg ListSide.isDropped ha.listSide
  have he : (x.step s).entries = x.entries := entries_congr rfl
    (congrArg ListSide.entries ha.listSide) (congrArg ListSide.directory ha.listSide)
  rw [outlook, outlook, hd, he, prospect_of_listAgrees ha rfl]

theorem Idle.step (h : x.Idle now) (hq : Timed.Quiet now x.world) (s : Step) :
    (x.step s).Idle now ∧ (x.step s).entries = x.entries := by
  obtain ⟨hi, he⟩ := h.world.step hq s
  refine ⟨⟨h.phase, hi⟩, ?_⟩
  rw [entries_of_idle h.phase, ← he]
  exact entries_of_idle (x := x.step s) h.phase

/-- At rest the outlook is what it comes to. -/
theorem restsAt_outlook (ho : Orderly x) (hf : Flows config sent done now x.world.listSide)
    (hq : x.Quiet now) : x.outlook.RestsAt now := by
  obtain ⟨hx, hw⟩ := rests_of_quiet ho hq
  rw [outlook]
  split
  · trivial
  · rename_i hd
    rw [prospect_of_idle (phase_of_quiet ho hq)]
    exact World.restsAt_prospect hf (Bool.eq_false_iff.2 hd) hw

/-- An exchange whose list comes to what its steps lead to. -/
structure Foretold (o : Outlook) (steps : List (Nat × Step)) (now : Nat) (x : Exchange) :
    Prop where
  state : x.world.Working now ∨ x.Idle now
  outlook_settle : x.outlook.settle now = (forecast o steps).settle now

namespace Foretold

variable {o : Outlook} {steps : List (Nat × Step)} {later : Nat}

theorem sleep (h : Foretold o steps now x) (ho : Orderly x)
    (hf : Flows config sent done now x.world.listSide)
    (hr : ∃ time, (forecast o steps).RestsAt time) (hs : Sleeps now later x) :
    Foretold o steps later x where
  state := by
    obtain ⟨-, hq⟩ := rests_of_quiet ho hs.quiet
    refine h.state.imp (fun hw => ?_) fun hi => ⟨hi.phase, hi.world.sleep hq⟩
    exact World.working_of_flows (hf.wait hs.le) hw.isDropped
      (World.timely_of_rest hf hw.isDropped hq later)
  outlook_settle := by
    obtain ⟨time, hr⟩ := hr
    rw [← (restsAt_outlook ho hf hs.quiet).settle_eq_self, h.outlook_settle,
      hr.settle_settle hs.le]

/-- A step of the view side makes no difference, whenever it is made. -/
theorem view {s : Step} (h : Foretold o steps now x) (hs : s.isView = true) :
    Foretold o steps now (x.step s) where
  state := by
    have ha : World.ListAgrees x.world (x.step s).world := World.listAgrees_of_view hs x.world
    exact h.state.imp (fun hw => hw.of_listAgrees ha)
      fun hi => ⟨hi.phase, hi.world.of_listAgrees ha⟩
  outlook_settle := by rw [outlook_of_view hs, h.outlook_settle]

/-- What a step of the list side at rest leads to. -/
theorem outlook_of_step {s : Step} (h : Foretold o steps now x) (ho : Orderly x)
    (hf : Flows config sent done now x.world.listSide) (hq : x.Quiet now)
    (hs : s.isView = false) :
    ((x.step s).world.Working now ∨ (x.step s).Idle now) ∧
      (x.step s).outlook = x.outlook.step s := by
  obtain ⟨-, hquiet⟩ := rests_of_quiet ho hq
  have hp := phase_of_quiet ho hq
  have hp' : (x.step s).phase = .idle := hp
  rcases h.state with hw | hi
  · have hx := outlook_of_working hw
    by_cases hn : s = .dropProjection
    · subst hn
      have hi : (x.step .dropProjection).Idle now := ⟨hp, ⟨rfl, Or.inr
        (World.listCeases_of_quiet hf hw.isDropped hquiet)⟩⟩
      refine ⟨Or.inr hi, ?_⟩
      rw [hi.outlook_eq, hx, entries_of_idle hp', prospect_of_idle hp]
      rfl
    · have hw' : (x.step s).world.Working now := hw.step hf hquiet hn
      refine ⟨Or.inl hw', ?_⟩
      rw [outlook_of_working hw', hx, Outlook.step_there hn, prospect_of_idle hp,
        prospect_of_idle hp', ← World.prospect_step hw hs hn]
      rfl
  · obtain ⟨hi', he⟩ := hi.step hquiet s
    refine ⟨Or.inr hi', ?_⟩
    rw [hi'.outlook_eq, hi.outlook_eq, he]
    rfl

theorem step {s : Step} (h : Foretold o steps now x) (ho : Orderly x)
    (hf : Flows config sent done now x.world.listSide) (hq : x.Quiet now)
    (hs : s.isView = false) : Foretold o (steps ++ [(now, s)]) now (x.step s) := by
  obtain ⟨hstate, he⟩ := h.outlook_of_step ho hf hq hs
  refine ⟨hstate, ?_⟩
  rw [he, forecast_snoc, ← h.outlook_settle, (restsAt_outlook ho hf hq).settle_eq_self,
    (Outlook.restsAt_settle ..).settle_eq_self]

theorem turns (h : Foretold o steps now x) (hf : Flows config sent done now x.world.listSide)
    (ht : Turns now x x') : Foretold o steps now x' := by
  rcases h.state with hw | hi
  · obtain ⟨done', hf'⟩ := flows_of_turns hf ht
    have hw' : x'.world.Working now := World.working_of_flows hf'
      ((isDropped_of_turns ht).trans hw.isDropped) (timely_of_turns hw.timely ht)
    refine ⟨Or.inl hw', ?_⟩
    rw [← h.outlook_settle, outlook_of_working hw', outlook_of_working hw]
    exact congrArg Outlook.there (settle_of_turns hw ht)
  · obtain ⟨hi', he⟩ := hi.turns ht
    exact ⟨Or.inr hi', by rw [← h.outlook_settle, hi'.outlook_eq, hi.outlook_eq, he]⟩

end Foretold

/-! ## What becomes of the list -/

variable {sources : List Source} {directory : Directory} {t t' : Timeline Exchange}

theorem exists_flows_of_course (hc : Course (origin config sources directory) log t) :
    ∃ sent done, Flows config sent done t.now t.state.world.listSide := by
  induction hc with
  | start => exact ⟨_, _, World.flows_origin config sources directory⟩
  | wait later _ hl ih =>
    obtain ⟨sent, done, hf⟩ := ih
    exact ⟨sent, done, hf.wait hl⟩
  | step s _ ih =>
    obtain ⟨sent, done, hf⟩ := ih
    exact ⟨_, done, hf.steps⟩
  | move m hc hm ih =>
    obtain ⟨sent, done, hf⟩ := ih
    exact ⟨sent, flows_of_turns hf (turns_of_move? (keeps_of_course hc) hm)⟩

theorem listSteps_snoc_step (log : List Moment) (time : Nat) (x : Exchange) (s : Step) :
    listSteps (timedStepsOf (log ++ [⟨time, x, .step s⟩])) =
      listSteps (timedStepsOf log) ++ if s.isView then [] else [(time, s)] := by
  rw [timedStepsOf_append, listSteps_append]
  exact congrArg _ (listSteps_singleton time s)

theorem listSteps_snoc_move (log : List Moment) (time : Nat) (x : Exchange) (m : Move) :
    listSteps (timedStepsOf (log ++ [⟨time, x, .move m⟩])) = listSteps (timedStepsOf log) := by
  rw [timedStepsOf_append]
  exact congrArg listSteps (List.append_nil _)

/-- What the list of an exchange comes to can be told from the steps of the list side. -/
theorem foretold_of_punctual (hp : Punctual (origin config sources directory) log t)
    (hr : ListStepsAtRest log) :
    Foretold (.there (World.new config sources directory).prospect)
      (listSteps (timedStepsOf log)) t.now t.state := by
  induction hp with
  | start =>
    refine ⟨Or.inl (World.working_of_flows (World.flows_origin config sources directory) rfl ?_),
      rfl⟩
    intro i b hb
    cases hb
  | @sleep log t later hp hs ih =>
    obtain ⟨sent, done, hf⟩ := exists_flows_of_course hp.course
    have hrest : Outlook.RestsAt 0 (.there (World.new config sources directory).prospect) :=
      World.restsAt_prospect_new config sources directory
    exact (ih hr).sleep (keeps_of_course hp.course).orderly hf
      (exists_restsAt_forecast hrest _) hs
  | @step log t s hp ih =>
    obtain ⟨hr, hstep⟩ := listStepsAtRest_append.1 hr
    rw [listSteps_snoc_step]
    cases hs : s.isView with
    | true =>
      rw [if_pos rfl, List.append_nil]
      exact (ih hr).view hs
    | false =>
      have hq : t.state.Quiet t.now :=
        hstep ⟨t.now, t.state, .step s⟩ (List.mem_singleton_self _) (by simp [Moment.step?, hs])
      obtain ⟨sent, done, hf⟩ := exists_flows_of_course hp.course
      rw [if_neg Bool.false_ne_true]
      exact (ih hr).step (keeps_of_course hp.course).orderly hf hq hs
  | @move log t x m hp hm ih =>
    obtain ⟨sent, done, hf⟩ := exists_flows_of_course hp.course
    rw [listSteps_snoc_move]
    exact (ih (listStepsAtRest_append.1 hr).1).turns hf
      (turns_of_move? (keeps_of_course hp.course) hm)

theorem entries_outlook (x : Exchange) : x.outlook.entries = x.entries := by
  unfold outlook
  split <;> rfl

/-- At rest the entries are those that the steps of the list side lead to. -/
theorem entries_of_punctual (hp : Punctual (origin config sources directory) log t)
    (hr : ListStepsAtRest log) (hq : t.state.Quiet t.now) :
    t.state.world.projection.store.entries =
      ((forecast (.there (World.new config sources directory).prospect)
        (listSteps (timedStepsOf log))).settle t.now).entries := by
  have ho := (keeps_of_course hp.course).orderly
  obtain ⟨sent, done, hf⟩ := exists_flows_of_course hp.course
  rw [← (foretold_of_punctual hp hr).outlook_settle, (restsAt_outlook ho hf hq).settle_eq_self,
    entries_outlook, entries_of_idle (phase_of_quiet ho hq)]

theorem published_of_punctual (hp : Punctual (origin config sources directory) log t)
    (hr : ListStepsAtRest log) (hq : t.state.Quiet t.now) :
    t.state.world.projection.published.value =
      ((forecast (.there (World.new config sources directory).prospect)
        (listSteps (timedStepsOf log))).settle t.now).entries.map Entry.summary := by
  have hk := keeps_of_course hp.course
  have hn : t.state.replies .pipeline = none :=
    (hk.orderly.free (awaits_pipeline_of_idle (phase_of_quiet hk.orderly hq))).2
  rw [hk.shown (by simp [hn]), entries_of_punctual hp hr hq]

/-- The list does not depend on the view side: when two courses differ in the steps of the view side
alone, the entries and the list that is shown are the same at rest.  The view side may report
viewports, set filters, change loading states and let the service fail or hang at any time, and the
parts may take their turns in any order, whatever pages, subscriptions and filters are asked for. -/
theorem published_of_listSteps_eq
    (hp : Punctual (origin config sources directory) log t) (hr : ListStepsAtRest log)
    (hp' : Punctual (origin config sources directory) log' t') (hr' : ListStepsAtRest log')
    (hs : listSteps (timedStepsOf log) = listSteps (timedStepsOf log')) (hn : t.now = t'.now)
    (hq : t.state.Quiet t.now) (hq' : t'.state.Quiet t'.now) :
    t.state.world.projection.store.entries = t'.state.world.projection.store.entries ∧
      t.state.world.projection.published.value = t'.state.world.projection.published.value := by
  constructor
  · rw [entries_of_punctual hp hr hq, entries_of_punctual hp' hr' hq', hs, hn]
  · rw [published_of_punctual hp hr hq, published_of_punctual hp' hr' hq', hs, hn]

/-- In one course nobody looks at the list.  In the other one a viewport is reported while the
pipeline fetches the entries, the loading state and the filter change before it stores what it
computed, the ids are asked for in the middle of the next job, and the subscription to them stays
without an answer. -/
theorem published_of_listSteps_hanging : ∃ log t log' t',
    Punctual (origin { managesSubscriptions := true } [{}] ⟨[]⟩) log t ∧
    Punctual (origin { managesSubscriptions := true } [{}] ⟨[]⟩) log' t' ∧
    stepsOf log = [.attach 0, .push 0 [.pushBack "a"], .push 0 [.pushBack "b"]] ∧
    stepsOf log' = [.attach 0, .push 0 [.pushBack "a"], .report [⟨0, 1⟩],
      .setService none (some true), .loading 0 (.loaded none), .filter default,
      .push 0 [.pushBack "b"]] ∧
    listSteps (timedStepsOf log) = listSteps (timedStepsOf log') ∧
    t'.state.world.projection.subscriber.phase = .asking 10600 ∧
    t'.state.world.remote.service.requests = [["a"]] ∧
    t.state.world.projection.published.value.map Summary.id = ["a", "b"] ∧
    t.state.world.projection.published.value = t'.state.world.projection.published.value := by
  have h₀ : Punctual (origin { managesSubscriptions := true } [{}] ⟨[]⟩) [] _ := .start
  have h₁ := ((h₀.step (.attach 0)).step (.push 0 [.pushBack "a"])).move (.world (.batch .read)) rfl
  have h₂ := (h₁.sleep_of 100 (by decide) (by decide) (by decide)).move
    (.world (.batch .release)) rfl
  have h₃ := (h₂.move (.world (.batch .hand)) rfl).move .takeBatch rfl
  -- nobody looks
  have h₄ := ((h₃.move .serve rfl).move .receiveEntries rfl).move .readRoom rfl
  have h₅ := (h₄.move .readRoom rfl).move .storeEntries rfl
  have h₆ := ((h₅.move .serve rfl).move .publish rfl).sleep_of 500
    (by decide) (by decide) (by decide)
  have h₇ := (h₆.step (.push 0 [.pushBack "b"])).move (.world (.batch .read)) rfl
  have h₈ := (h₇.sleep_of 600 (by decide) (by decide) (by decide)).move
    (.world (.batch .release)) rfl
  have h₉ := ((h₈.move (.world (.batch .hand)) rfl).move .takeBatch rfl).move .serve rfl
  have h₁₀ := ((h₉.move .receiveEntries rfl).move .readRoom rfl).move .readRoom rfl
  have h := ((h₁₀.move .storeEntries rfl).move .serve rfl).move .publish rfl
  -- somebody does
  have k₄ := ((h₃.step (.report [⟨0, 1⟩])).move .askCount rfl).move (.world .noticeReport) rfl
  have k₅ := (((k₄.move .serve rfl).move .serve rfl).move .receiveCount rfl).move
    .receiveEntries rfl
  have k₆ := ((k₅.move .readRoom rfl).step (.setService none (some true))).step
    (.loading 0 (.loaded none))
  have k₇ := (((k₆.step (.filter default)).move .readRoom rfl).move .storeEntries rfl).move
    .serve rfl
  have k₈ := ((k₇.move .publish rfl).move (.world .followStatus) rfl).sleep_of 500
    (by decide) (by decide) (by decide)
  have k₉ := (k₈.step (.push 0 [.pushBack "b"])).move (.world (.batch .read)) rfl
  have k₁₀ := (k₉.sleep_of 600 (by decide) (by decide) (by decide)).move
    (.world (.batch .release)) rfl
  have k₁₁ := ((k₁₀.move (.world (.batch .hand)) rfl).move .takeBatch rfl).move .askIds rfl
  have k₁₂ := ((k₁₁.move .serve rfl).move .serve rfl).move .receiveIds rfl
  have k₁₃ := ((k₁₂.move .receiveEntries rfl).move .readRoom rfl).move .readRoom rfl
  have k₁₄ := ((k₁₃.move (.world .wakePager) rfl).move .storeEntries rfl).move .serve rfl
  have k := k₁₄.move .publish rfl
  have hsame := published_of_listSteps_eq h (by decide) k (by decide) rfl rfl
    (by decide) (by decide)
  exact ⟨_, _, _, _, h, k, rfl, rfl, rfl, rfl, rfl, rfl, hsame.2⟩

/-! ## Runs -/

/-- A run is a punctual course of an exchange with the same steps at the same times, all made at
rest, and at its end no move is left. -/
theorem exists_punctual_run (config : Config) (sources : List Source) (directory : Directory)
    (hs : List Happening) :
    (∃ log, Punctual (origin config sources directory) log
        (still (World.run (.start (World.new config sources directory)) hs)) ∧
      ListStepsAtRest log ∧ timedStepsOf log = World.timedSteps 0 hs) ∧
      (calm (World.run (.start (World.new config sources directory)) hs).state).Quiet
        (World.run (.start (World.new config sources directory)) hs).now := by
  obtain ⟨⟨log, hp, hr, hs⟩, hq⟩ := World.exists_punctual_run config sources directory hs
  obtain ⟨log', hp', hs', hsteps⟩ := exists_punctual hp
  refine ⟨⟨log', hp', fun m hm hm' => ?_, hs'.trans hs⟩, quiet_calm hq⟩
  cases hms : m.step? with
  | none =>
    rw [hms] at hm'
    cases hm'
  | some s =>
    obtain ⟨m', hmem, hs', ht, hb⟩ := hsteps m hm s hms
    rw [hb, ← ht]
    exact quiet_calm (hr m' hmem (by simp [hs']))

/-- Two runs that differ in the steps of the view side alone show the same list. -/
theorem published_run_of_listSteps_eq {t t' : Timeline World} {hs hs' : List Happening}
    (ht : t = World.run (.start (World.new config sources directory)) hs)
    (ht' : t' = World.run (.start (World.new config sources directory)) hs')
    (hsteps : listSteps (World.timedSteps 0 hs) = listSteps (World.timedSteps 0 hs'))
    (hn : t.now = t'.now) :
    t.state.projection.published.value = t'.state.projection.published.value := by
  obtain ⟨⟨log, hp, hr, hlog⟩, hq⟩ := exists_punctual_run config sources directory hs
  obtain ⟨⟨log', hp', hr', hlog'⟩, hq'⟩ := exists_punctual_run config sources directory hs'
  rw [← ht] at hp hq
  rw [← ht'] at hp' hq'
  have h := published_of_punctual hp hr hq
  have h' := published_of_punctual hp' hr' hq'
  rw [hlog, hsteps] at h
  rw [hlog', show (still t').now = (still t).now from hn.symm] at h'
  exact h.trans h'.symm

end Exchange

end LiveRooms
