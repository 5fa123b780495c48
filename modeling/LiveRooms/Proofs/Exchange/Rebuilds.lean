import LiveRooms.Proofs.Exchange.SingleWriter

/-!
# No request for a rebuild is lost

A request that comes while another one waits collapses into it, also one that comes in the middle of
a rebuild, of which some rooms were read before.  Either a request waits still, or the list is, or
will be, covered by reads that were made after the request (`Covering`).
-/

namespace LiveRooms.Exchange

/-- Whether something asks for a rebuild. -/
def Moment.asks (m : Moment) : Bool :=
  match m.cause with
  | .step s => m.before.world.requests (.step s)
  | .move (.world move) => m.before.world.requests (.move move)
  | .move _ => false

/-- What the pipeline read of rooms. -/
def readsOf (log : List Moment) : List Read := log.filterMap Moment.read?

theorem readsOf_snoc (log : List Moment) (m : Moment) :
    readsOf (log ++ [m]) = readsOf log ++ m.read?.toList := by
  cases h : m.read? <;> simp [readsOf, List.filterMap_append, h]

/-- Without a further request the reads cover the list: the stored one, or the one that the job
under way will leave. -/
inductive Covering (reads : List Read) (stored : List Entry) : Phase → Prop where
  | idle : Covers reads stored → Covering reads stored .idle
  | fetching {job : Job} : job = .rebuild ∨ Covers reads stored →
      Covering reads stored (.fetching job)
  | working {job : Job} {task : Reading (List Entry)} {done : List Read} {entries : List Entry} :
      (job.task entries).Goes done task → done ⊆ reads → job = .rebuild ∨ Covers reads entries →
      Covering reads stored (.working job task)
  | storing {entries : List Entry} : Covers reads entries →
      Covering reads stored (.storing entries)

variable {config : Config} {sources : List Source} {directory : Directory} {now : Nat}
  {log early late : List Moment} {t : Timeline Exchange} {x x' : Exchange} {r m : Moment}
  {reads reads' : List Read} {stored : List Entry} {phase : Phase}

/-! ## What moves keep -/

theorem Covering.mono (h : Covering reads stored phase) (hs : reads ⊆ reads') :
    Covering reads' stored phase := by
  cases h with
  | idle hc => exact .idle (hc.mono hs)
  | fetching hc => exact .fetching (hc.imp id fun hc => hc.mono hs)
  | working hg hd hc =>
    exact .working hg (fun _ hr => hs (hd hr)) (hc.imp id fun hc => hc.mono hs)
  | storing hc => exact .storing (hc.mono hs)

theorem Covering.of_idle (h : Covering reads stored .idle) : Covers reads stored := by
  cases h with
  | idle hc => exact hc

theorem Covering.of_fetching {job : Job} (h : Covering reads stored (.fetching job)) :
    job = .rebuild ∨ Covers reads stored := by
  cases h with
  | fetching hc => exact hc

theorem Covering.of_storing {entries : List Entry}
    (h : Covering reads stored (.storing entries)) : Covers reads entries := by
  cases h with
  | storing hc => exact hc

/-- The pipeline reads a room. -/
theorem Covering.read {job : Job} {q : Question} {next : q.Answer → Reading (List Entry)}
    (h : Covering reads stored (.working job (.ask q next))) (d : Directory) :
    Covering (reads ++ [⟨q, d⟩]) stored (.working job (next (d.answer q))) := by
  cases h with
  | working hg hd hc =>
    have hs : reads ⊆ reads ++ [⟨q, d⟩] := List.subset_append_left _ _
    refine .working (hg.snoc d) (fun read hr => ?_) (hc.imp id fun hc => hc.mono hs)
    rcases List.mem_append.1 hr with hr | hr
    · exact hs (hd hr)
    · exact List.mem_append_right _ hr

/-- The pipeline has read all rooms. -/
theorem Covering.done {job : Job} {entries : List Entry}
    (h : Covering reads stored (.working job (.done entries))) : Covers reads entries := by
  cases h with
  | working hg hd hc => exact Job.covers_of_goes hg hd hc

/-- The store does not change while the pipeline does not wait for it to. -/
theorem Covering.serve (h : Covering reads x.world.projection.store.entries x.phase)
    (ho : Orderly x) {client : Client} {command : Store.Command}
    {channel : List (Client × Store.Command)} (hc : x.channel = (client, command) :: channel) :
    Covering reads (x.world.projection.store.handle command).1.entries x.phase := by
  cases command with
  | replace entries =>
    have hp := (ho.phase_of_replace hc).2
    rw [hp] at h ⊢
    exact .storing h.of_storing
  | snapshot | count | ids v => exact h

theorem Covering.acts {move : Move} (hk : Keeps log x) (ha : Acts now x move x')
    (h : Covering reads x.world.projection.store.entries x.phase) :
    Covering (reads ++ (Moment.read? ⟨now, x, .move move⟩).toList)
      x'.world.projection.store.entries x'.phase := by
  have hmono := h.mono (List.subset_append_left reads
    (Moment.read? ⟨now, x, .move move⟩).toList)
  have hb := hk.busy
  cases ha with
  | @world m w hal hw =>
    show Covering _ w.projection.store.entries x.phase
    rw [(list_of_allowed hal hw).1]
    exact hmono
  | @takeBatch w batch hp hs hn hsame =>
    rw [hp] at hmono
    show Covering _ w.projection.store.entries _
    rw [hsame.store]
    exact .fetching (Or.inr hmono.of_idle)
  | takeRebuild hp hs hq => exact .fetching (Or.inl rfl)
  | receiveEntries hp hr =>
    rw [hp, hr] at hb
    rw [hp] at hmono
    obtain ⟨-, rfl⟩ := hb.of_fetched
    exact .working (.refl _) (List.nil_subset _) hmono.of_fetching
  | @readRoom job q next hp =>
    rw [hp] at h
    have hread : Moment.read? ⟨now, x, .move .readRoom⟩ =
        some ⟨q, x.world.remote.directory⟩ := by
      simp only [Moment.read?, hp]
    rw [hread]
    exact h.read x.world.remote.directory
  | storeEntries hp =>
    rw [hp] at hmono
    exact .storing hmono.done
  | publish hp hr =>
    rw [hp, hr] at hb
    rw [hp] at hmono
    obtain ⟨-, rfl⟩ := hb.of_stored
    exact .idle hmono.of_storing
  | @askCount w v _ hsame | @receiveCount w v _ _ _ hsame | @askIds w v _ hsame
  | @receiveIds w v _ _ _ hsame =>
    show Covering _ w.projection.store.entries x.phase
    rw [hsame.store]
    exact hmono
  | serve hc => exact hmono.serve hk.orderly hc

/-! ## Requests -/

theorem hasRequest_of_sameList {w w' : World} (h : w.SameList w') (hr : w.HasRequest) :
    w'.HasRequest := by
  unfold World.HasRequest at hr ⊢
  rwa [h.isPipelineStopped, h.rebuildQueued]

theorem move_ne_rebuild_of_allows {move : World.Move} (ha : x.allows move = true) :
    move ≠ .rebuild := by
  rintro rfl
  cases ha

/-- A request waits until the pipeline takes it up, and then reads all rooms. -/
theorem hasRequest_of_acts {move : Move} (ha : Acts now x move x')
    (hr : Moment.asks ⟨now, x, .move move⟩ = true ∨ x.world.HasRequest) :
    x'.world.HasRequest ∨ x'.phase = .fetching .rebuild := by
  cases ha with
  | world hal hw => exact Or.inl (World.hasRequest_of_move? (move_ne_rebuild_of_allows hal) hw hr)
  | takeRebuild => exact Or.inr rfl
  | takeBatch _ _ _ hsame | askCount _ hsame | receiveCount _ _ hsame | askIds _ hsame
  | receiveIds _ _ hsame =>
    exact Or.inl (hasRequest_of_sameList hsame (hr.resolve_left Bool.false_ne_true))
  | receiveEntries | readRoom | storeEntries | publish | serve =>
    exact Or.inl (hr.resolve_left Bool.false_ne_true)

/-- After a request either one waits, or the list is covered by what was read since. -/
theorem covering_of_course (hc : Course (origin config sources directory) log t)
    (hlog : log = early ++ r :: late) (hr : r.asks = true) :
    t.state.world.HasRequest ∨
      Covering (readsOf late) t.state.world.projection.store.entries t.state.phase := by
  induction hc generalizing late with
  | start => simp at hlog
  | wait later _ _ ih => exact ih hlog
  | @step log t s _ ih =>
    rcases snoc_eq_append_cons hlog with ⟨rfl, rfl, rfl⟩ | ⟨late', rfl, hlog'⟩
    · exact Or.inl (World.hasRequest_of_step (Or.inl hr))
    · rcases ih hlog' with hq | hcov
      · exact Or.inl (World.hasRequest_of_step (Or.inr hq))
      · have he : (t.state.step s).world.projection.store.entries =
            t.state.world.projection.store.entries := (World.entries_of_step _ s).1
        rw [he]
        exact Or.inr (hcov.mono (by rw [readsOf_snoc]; exact List.subset_append_left _ _))
  | @move log t x move hc hm ih =>
    have ha := acts_of_move? hm
    rcases snoc_eq_append_cons hlog with ⟨rfl, rfl, rfl⟩ | ⟨late', rfl, hlog'⟩
    · rcases hasRequest_of_acts ha (Or.inl hr) with hq | hp
      · exact Or.inl hq
      · exact Or.inr (hp ▸ .fetching (Or.inl rfl))
    · rcases ih hlog' with hq | hcov
      · rcases hasRequest_of_acts ha (Or.inr hq) with hq | hp
        · exact Or.inl hq
        · exact Or.inr (hp ▸ .fetching (Or.inl rfl))
      · rw [readsOf_snoc]
        exact Or.inr (hcov.acts (keeps_of_course hc) ha)

/-- While the pipeline is idle and no request waits, every entry was built from a read that was made
after the last request, or its room could not be read then. -/
theorem covers_of_course (hc : Course (origin config sources directory) log t)
    (hlog : log = early ++ r :: late) (hr : r.asks = true) (hp : t.state.phase = .idle)
    (hs : t.state.world.projection.isPipelineStopped = false)
    (hq : t.state.world.projection.rebuildQueued = false) :
    Covers (readsOf late) t.state.world.projection.store.entries := by
  have hn : ¬ t.state.world.HasRequest := by
    unfold World.HasRequest
    rw [hs, hq]
    simp
  exact (hp ▸ (covering_of_course hc hlog hr).resolve_left hn).of_idle

end LiveRooms.Exchange
