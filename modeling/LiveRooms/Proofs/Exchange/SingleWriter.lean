import LiveRooms.Proofs.Exchange.Orderly

/-!
# The pipeline alone writes

What the pipeline did is read off the log: the jobs that it took, what it read of rooms for each,
and the jobs whose entries were stored (`ledger`).  Only the pipeline replaces entries, so between
the snapshot that it asks for and the entries that it stores nothing changes them (`Busy`).  Hence
the stored entries are always what a whole number of jobs came to, in the order in which they were
taken, and every reply is one about such a list.
-/

namespace LiveRooms.Exchange

/-! ## What the log tells -/

/-- The job that the pipeline takes. -/
def Moment.taken? (m : Moment) : Option Job :=
  match m.cause with
  | .move .takeBatch => some (.batch m.before.world.nextBatch)
  | .move .takeRebuild => some .rebuild
  | _ => none

/-- What the pipeline reads of a room. -/
def Moment.read? (m : Moment) : Option Read :=
  match m.cause, m.before.phase with
  | .move .readRoom, .working _ (.ask q _) => some ⟨q, m.before.world.remote.directory⟩
  | _, _ => none

/-- The command that the store handles, and whose it is. -/
def Moment.served? (m : Moment) : Option (Client × Store.Command) :=
  match m.cause with
  | .move .serve => m.before.channel.head?
  | _ => none

/-- The entries that the store holds at a moment. -/
def Moment.entries (m : Moment) : List Entry := m.before.world.projection.store.entries

/-- The reply that the store gives to a command at a moment. -/
def Moment.replyTo (command : Store.Command) (m : Moment) : Store.Reply :=
  (m.before.world.projection.store.handle command).2

/-- A job, with what was read for it. -/
structure Run where
  job : Job
  reads : List Read

/-- A run takes the stored entries to new ones. -/
def Run.Gives (run : Run) (entries entries' : List Entry) : Prop :=
  (run.job.task entries).Goes run.reads (.done entries')

/-- What runs come to, one after the other, from an empty list. -/
inductive Results : List Run → List Entry → Prop where
  | nil : Results [] []
  | snoc {runs : List Run} {entries entries' : List Entry} {run : Run} : Results runs entries →
      run.Gives entries entries' → Results (runs ++ [run]) entries'

/-- The runs whose entries were stored, and the one that is under way. -/
structure Ledger where
  finished : List Run := []
  current : Option Run := none

/-- The jobs in a ledger, in order. -/
def Ledger.jobs (l : Ledger) : List Job := (l.finished ++ l.current.toList).map Run.job

def Ledger.note (l : Ledger) (m : Moment) : Ledger :=
  match m.taken?, m.served? with
  | some job, _ => { l with current := some ⟨job, []⟩ }
  | none, some (_, .replace _) => ⟨l.finished ++ l.current.toList, none⟩
  | none, _ =>
    { l with current := l.current.map fun run => { run with reads := run.reads ++ m.read?.toList } }

def ledger (log : List Moment) : Ledger := log.foldl Ledger.note {}

theorem ledger_snoc (log : List Moment) (m : Moment) :
    ledger (log ++ [m]) = (ledger log).note m := List.foldl_concat ..

/-- A moment at which the pipeline takes and reads nothing and the store replaces nothing. -/
structure Moment.IsBystander (m : Moment) : Prop where
  taken : m.taken? = none
  read : m.read? = none
  served : ∀ client entries, m.served? ≠ some (client, .replace entries)

theorem Moment.IsBystander.of_served {m : Moment} (ht : m.taken? = none) (hr : m.read? = none)
    (hs : m.served? = none) : m.IsBystander :=
  ⟨ht, hr, fun client entries => by simp [hs]⟩

theorem Ledger.note_bystander {m : Moment} (h : m.IsBystander) (l : Ledger) : l.note m = l := by
  unfold note
  rw [h.taken, h.read]
  split
  · rename_i he
    cases he
  · rename_i client entries _ hs
    exact absurd hs (h.served client entries)
  · simp

/-! ## The invariant -/

/-- How the run under way, the phase of the pipeline, the reply to it and the stored entries go
together. -/
inductive Busy : Option Run → Phase → Option Store.Reply → List Entry → Prop where
  | idle (stored : List Entry) : Busy none .idle none stored
  | asked (job : Job) (stored : List Entry) : Busy (some ⟨job, []⟩) (.fetching job) none stored
  | fetched (job : Job) (stored : List Entry) :
      Busy (some ⟨job, []⟩) (.fetching job) (some (.entries stored)) stored
  | working {job : Job} {reads : List Read} {task : Reading (List Entry)} {stored : List Entry} :
      (job.task stored).Goes reads task →
      Busy (some ⟨job, reads⟩) (.working job task) none stored
  | storing {run : Run} {entries stored : List Entry} : run.Gives stored entries →
      Busy (some run) (.storing entries) none stored
  | stored (entries : List Entry) : Busy none (.storing entries) (some .done) entries

/-- What the log of an exchange and the list have to do with each other. -/
structure Keeps (log : List Moment) (x : Exchange) : Prop where
  orderly : Orderly x
  results : Results (ledger log).finished x.world.projection.store.entries
  busy : Busy (ledger log).current x.phase (x.replies .pipeline) x.world.projection.store.entries
  shown : x.replies .pipeline ≠ some .done →
    x.world.projection.published.value = x.world.projection.store.entries.map Entry.summary

variable {now : Nat} {x x' : Exchange} {log : List Moment} {m : Moment}

/-- Nothing changes that has to do with the list. -/
theorem Keeps.bystander (h : Keeps log x) (hm : m.IsBystander) (ho : Orderly x')
    (hp : x'.phase = x.phase) (hr : x'.replies .pipeline = x.replies .pipeline)
    (he : x'.world.projection.store.entries = x.world.projection.store.entries)
    (hv : x'.world.projection.published.value = x.world.projection.published.value) :
    Keeps (log ++ [m]) x' := by
  have hl : ledger (log ++ [m]) = ledger log := by rw [ledger_snoc, Ledger.note_bystander hm]
  refine ⟨ho, ?_, ?_, ?_⟩
  · rw [hl, he]
    exact h.results
  · rw [hl, hp, hr, he]
    exact h.busy
  · rw [hr, he, hv]
    exact h.shown

theorem list_of_allowed {w : World} {m : World.Move} (ha : x.allows m = true)
    (h : x.world.move? now m = some w) :
    w.projection.store.entries = x.world.projection.store.entries ∧
      w.projection.published.value = x.world.projection.published.value := by
  have hm := World.moves_of_move? h
  have hl : w.listSide.entries = x.world.listSide.entries ∧
      w.listSide.published = x.world.listSide.published := by
    generalize w.listSide = s at hm
    cases hm with
    | applyBatch | rebuild => cases ha
    | batch | stopPipeline | other => exact ⟨rfl, rfl⟩
  exact hl

section

variable {run : Option Run} {job : Job} {task : Reading (List Entry)} {reply : Option Store.Reply}
  {entries stored : List Entry}

theorem Busy.of_idle (h : Busy run .idle reply stored) : run = none := by
  cases h
  rfl

theorem Busy.of_fetched (h : Busy run (.fetching job) (some (.entries entries)) stored) :
    run = some ⟨job, []⟩ ∧ entries = stored := by
  cases h
  exact ⟨rfl, rfl⟩

theorem Busy.of_fetching (h : Busy run (.fetching job) none stored) : run = some ⟨job, []⟩ := by
  cases h
  rfl

theorem Busy.of_working (h : Busy run (.working job task) reply stored) :
    ∃ reads, run = some ⟨job, reads⟩ ∧ reply = none ∧ (job.task stored).Goes reads task := by
  cases h with
  | working hg => exact ⟨_, rfl, rfl, hg⟩

theorem Busy.of_storing (h : Busy run (.storing entries) none stored) :
    ∃ r, run = some r ∧ r.Gives stored entries := by
  cases h with
  | storing hg => exact ⟨_, rfl, hg⟩

theorem Busy.of_stored (h : Busy run (.storing entries) (some .done) stored) :
    run = none ∧ entries = stored := by
  cases h
  exact ⟨rfl, rfl⟩

end

/-! ## Every move keeps it -/

theorem ledger_snoc_taken {job : Job} (h : m.taken? = some job) :
    ledger (log ++ [m]) = { ledger log with current := some ⟨job, []⟩ } := by
  rw [ledger_snoc, Ledger.note, h]

theorem ledger_snoc_read {run : Run} {read : Read} (hm : m.taken? = none) (hs : m.served? = none)
    (hr : m.read? = some read) (h : (ledger log).current = some run) :
    ledger (log ++ [m]) =
      { ledger log with current := some { run with reads := run.reads ++ [read] } } := by
  rw [ledger_snoc, Ledger.note, hm, hs, hr, h]
  rfl

theorem ledger_snoc_replaced {run : Run} {client : Client} {entries : List Entry}
    (hm : m.taken? = none) (hs : m.served? = some (client, .replace entries))
    (h : (ledger log).current = some run) :
    ledger (log ++ [m]) = ⟨(ledger log).finished ++ [run], none⟩ := by
  rw [ledger_snoc, Ledger.note, hm, hs, h]
  rfl

/-- The pipeline takes a job. -/
theorem Keeps.take {job : Job} (h : Keeps log x) (ho : Orderly x') (hm : m.taken? = some job)
    (hp : x.phase = .idle) (hp' : x'.phase = .fetching job) (hr : x'.replies = x.replies)
    (he : x'.world.projection.store = x.world.projection.store)
    (hv : x'.world.projection.published = x.world.projection.published) :
    Keeps (log ++ [m]) x' := by
  have hn : x.replies .pipeline = none := (h.orderly.free (awaits_pipeline_of_idle hp)).2
  refine ⟨ho, ?_, ?_, fun _ => ?_⟩
  · rw [ledger_snoc_taken hm, he]
    exact h.results
  · rw [ledger_snoc_taken hm, hp', hr, hn]
    exact .asked job _
  · rw [he, hv]
    exact h.shown (by simp [hn])

/-- The pipeline goes on without reading a room, and nothing is stored. -/
theorem Keeps.proceed (h : Keeps log x) (ho : Orderly x') (hm : m.IsBystander)
    (hw : x'.world = x.world)
    (hb : Busy (ledger log).current x'.phase (x'.replies .pipeline)
      x.world.projection.store.entries)
    (hr : x.replies .pipeline ≠ some .done) : Keeps (log ++ [m]) x' := by
  have hl : ledger (log ++ [m]) = ledger log := by rw [ledger_snoc, Ledger.note_bystander hm]
  refine ⟨ho, ?_, ?_, fun _ => ?_⟩
  · rw [hl, hw]
    exact h.results
  · rw [hl, hw]
    exact hb
  · rw [hw]
    exact h.shown hr

theorem Keeps.readRoom (h : Keeps log x) {job : Job} {q : Question}
    {next : q.Answer → Reading (List Entry)}
    (hp : x.phase = .working job (.ask q next)) (ho : Orderly x')
    (hx : x' = { x with phase := .working job (next (x.world.remote.directory.answer q)) }) :
    Keeps (log ++ [⟨now, x, .move .readRoom⟩]) x' := by
  obtain ⟨reads, hrun, hn, hg⟩ := (hp ▸ h.busy : Busy _ (.working _ _) _ _).of_working
  have hread : Moment.read? ⟨now, x, .move .readRoom⟩ = some ⟨q, x.world.remote.directory⟩ := by
    simp only [Moment.read?, hp]
  have hl := ledger_snoc_read rfl rfl hread hrun
  subst hx
  refine ⟨ho, ?_, ?_, h.shown⟩
  · rw [hl]
    exact h.results
  · rw [hl, hn]
    exact .working (hg.snoc x.world.remote.directory)

/-- The store handles a command that replaces nothing. -/
theorem Keeps.serveReader (h : Keeps log x) {client : Client} {command : Store.Command}
    {channel : List (Client × Store.Command)} (hc : x.channel = (client, command) :: channel)
    (hn : ∀ entries, command ≠ .replace entries) (ho : Orderly x') (hp : x'.phase = x.phase)
    (hs : x'.world.projection.store = (x.world.projection.store.handle command).1)
    (hv : x'.world.projection.published = x.world.projection.published)
    (hb : Busy (ledger log).current x.phase (x'.replies .pipeline)
      x.world.projection.store.entries)
    (hr : x'.replies .pipeline ≠ some .done → x.replies .pipeline ≠ some .done) :
    Keeps (log ++ [⟨now, x, .move .serve⟩]) x' := by
  have hserved : Moment.served? ⟨now, x, .move .serve⟩ = some (client, command) := by
    rw [Moment.served?, hc]
    rfl
  have hl : ledger (log ++ [⟨now, x, .move .serve⟩]) = ledger log := by
    rw [ledger_snoc, Ledger.note_bystander ⟨rfl, rfl, fun other entries he => ?_⟩]
    rw [hserved, Option.some_inj, Prod.mk.injEq] at he
    exact hn entries he.2
  have hs' : x'.world.projection.store = x.world.projection.store := by
    rw [hs]
    cases command with
    | replace entries => exact absurd rfl (hn entries)
    | snapshot | count | ids v => rfl
  refine ⟨ho, ?_, ?_, fun hd => ?_⟩
  · rw [hl, hs']
    exact h.results
  · rw [hl, hp, hs']
    exact hb
  · rw [hs', hv]
    exact h.shown (hr hd)

theorem Keeps.serve (h : Keeps log x) {client : Client} {command : Store.Command}
    {channel : List (Client × Store.Command)} (hc : x.channel = (client, command) :: channel)
    (ho : Orderly x')
    (hx : x' = { x.setProjection { x.world.projection with
        store := (x.world.projection.store.handle command).1 } with
      channel
      replies := Function.update x.replies client
        (some (x.world.projection.store.handle command).2) }) :
    Keeps (log ++ [⟨now, x, .move .serve⟩]) x' := by
  obtain ⟨ha, hnone⟩ := h.orderly.awaits_of_channel hc
  subst hx
  cases client with
  | pager =>
    obtain ⟨v, -, rfl⟩ := Option.map_eq_some_iff.1 ha
    exact h.serveReader hc (by simp) ho rfl rfl rfl h.busy id
  | subscriber =>
    obtain ⟨v, -, rfl⟩ := Option.map_eq_some_iff.1 ha
    exact h.serveReader hc (by simp) ho rfl rfl rfl h.busy id
  | pipeline =>
    have hb := h.busy
    rw [hnone] at hb
    cases hp : x.phase with
    | idle => rw [awaits, hp] at ha; cases ha
    | working job task => rw [awaits, hp] at ha; cases ha
    | fetching job =>
      rw [awaits, hp] at ha
      cases ha
      rw [hp] at hb
      refine h.serveReader hc (by simp) ho rfl rfl rfl ?_ fun _ => by simp [hnone]
      rw [hb.of_fetching, hp]
      exact .fetched job _
    | storing entries =>
      rw [awaits, hp] at ha
      cases ha
      rw [hp] at hb
      obtain ⟨run, hrun, hg⟩ := hb.of_storing
      have hserved : Moment.served? ⟨now, x, .move .serve⟩ =
          some (.pipeline, .replace entries) := by
        rw [Moment.served?, hc]
        rfl
      have hl := ledger_snoc_replaced rfl hserved hrun
      refine ⟨ho, ?_, ?_, fun hr => absurd rfl hr⟩
      · rw [hl]
        exact .snoc h.results hg
      · rw [hl]
        show Busy _ x.phase _ entries
        rw [hp]
        exact .stored entries

theorem Keeps.acts {move : Move} (h : Keeps log x) (ha : Acts now x move x') :
    Keeps (log ++ [⟨now, x, .move move⟩]) x' := by
  have ho := h.orderly.acts ha
  cases ha with
  | world hal hw =>
    obtain ⟨he, hv⟩ := list_of_allowed hal hw
    exact h.bystander (.of_served rfl rfl rfl) ho rfl rfl he hv
  | takeBatch hp hs hb hsame =>
    refine h.take ho ?_ hp rfl rfl hsame.store hsame.published
    rw [← hb]
    rfl
  | takeRebuild hp hs hq => exact h.take ho rfl hp rfl rfl rfl rfl
  | receiveEntries hp hr =>
    have hb := h.busy
    rw [hp, hr] at hb
    obtain ⟨hrun, rfl⟩ := hb.of_fetched
    refine h.proceed ho (.of_served rfl rfl rfl) rfl ?_ (by simp [hr])
    rw [hrun]
    show Busy _ _ (Function.update x.replies .pipeline none .pipeline) _
    rw [Function.update_self]
    exact .working (.refl _)
  | readRoom hp => exact h.readRoom hp ho rfl
  | storeEntries hp =>
    obtain ⟨reads, hrun, hn, hg⟩ := (hp ▸ h.busy : Busy _ (.working _ _) _ _).of_working
    refine h.proceed ho (.of_served rfl rfl rfl) rfl ?_ (by simp [hn])
    show Busy _ _ (x.replies .pipeline) _
    rw [hrun, hn]
    exact .storing hg
  | publish hp hr =>
    have hb := h.busy
    rw [hp, hr] at hb
    obtain ⟨hrun, rfl⟩ := hb.of_stored
    have hl : ledger (log ++ [⟨now, x, .move .publish⟩]) = ledger log := by
      have hm : Moment.IsBystander ⟨now, x, .move .publish⟩ := .of_served rfl rfl rfl
      rw [ledger_snoc, Ledger.note_bystander hm]
    refine ⟨ho, ?_, ?_, fun _ => rfl⟩
    · rw [hl]
      exact h.results
    · rw [hl, hrun]
      show Busy _ _ (Function.update x.replies .pipeline none .pipeline) _
      rw [Function.update_self]
      exact .idle _
  | askCount hp hsame | askIds hp hsame =>
    exact h.bystander (.of_served rfl rfl rfl) ho rfl rfl (congrArg Store.entries hsame.store)
      (congrArg Watched.value hsame.published)
  | receiveCount hp hr hsame | receiveIds hp hr hsame =>
    exact h.bystander (.of_served rfl rfl rfl) ho rfl rfl (congrArg Store.entries hsame.store)
      (congrArg Watched.value hsame.published)
  | serve hc => exact h.serve hc ho rfl

/-! ## Along a course -/

variable {config : Config} {sources : List Source} {directory : Directory} {t : Timeline Exchange}

theorem keeps_origin (config : Config) (sources : List Source) (directory : Directory) :
    Keeps [] (origin config sources directory).state where
  orderly client := by cases client <;> exact .free
  results := .nil
  busy := .idle []
  shown _ := rfl

theorem keeps_of_course (hc : Course (origin config sources directory) log t) :
    Keeps log t.state := by
  induction hc with
  | start => exact keeps_origin config sources directory
  | wait later _ _ ih => exact ih
  | step s _ ih =>
    obtain ⟨he, hv⟩ := World.entries_of_step _ s
    exact ih.bystander (.of_served rfl rfl rfl) (ih.orderly.stay rfl rfl fun other => rfl)
      rfl rfl he hv
  | move m _ hm ih => exact ih.acts (acts_of_move? hm)

/-- Jobs are noted in the order in which they are taken. -/
theorem Ledger.jobs_note (l : Ledger) (h : m.taken?.isSome = true → l.current = none) :
    (l.note m).jobs = l.jobs ++ m.taken?.toList := by
  unfold note jobs
  split
  · rename_i job ht
    simp [ht, h (by rw [ht]; rfl)]
  · rename_i ht _
    simp [ht]
  · rename_i ht _
    cases l.current <;> simp [ht]

theorem Keeps.current_eq_none (h : Keeps log x) {move : Move} (hm : x.move? now move = some x')
    (ht : (Moment.taken? ⟨now, x, .move move⟩).isSome = true) : (ledger log).current = none := by
  have hb := h.busy
  cases acts_of_move? hm with
  | takeBatch hp | takeRebuild hp =>
    rw [hp] at hb
    exact hb.of_idle
  | _ => cases ht

theorem filterMap_taken?_snoc (log : List Moment) (m : Moment) :
    (log ++ [m]).filterMap Moment.taken? = log.filterMap Moment.taken? ++ m.taken?.toList := by
  cases h : m.taken? <;> simp [List.filterMap_append, h]

theorem jobs_of_course (hc : Course (origin config sources directory) log t) :
    (ledger log).jobs = log.filterMap Moment.taken? := by
  induction hc with
  | start => rfl
  | wait later _ _ ih => exact ih
  | step s _ ih =>
    rw [ledger_snoc, Ledger.jobs_note _ (fun h => by simp [Moment.taken?] at h), ih,
      filterMap_taken?_snoc]
  | move m hc hm ih =>
    rw [ledger_snoc, Ledger.jobs_note _ ((keeps_of_course hc).current_eq_none hm), ih,
      filterMap_taken?_snoc]

/-- The store gave a client a reply. -/
def Gave (log : List Moment) (client : Client) (reply : Store.Reply) : Prop :=
  ∃ early m late command, log = early ++ m :: late ∧ m.served? = some (client, command) ∧
    reply = m.replyTo command

theorem Gave.snoc {client : Client} {reply : Store.Reply} (h : Gave log client reply) :
    Gave (log ++ [m]) client reply := by
  obtain ⟨early, r, late, command, rfl, hs, he⟩ := h
  exact ⟨early, r, late ++ [m], command, by simp, hs, he⟩

theorem gave_of_acts {move : Move} (ha : Acts now x move x')
    (h : ∀ client reply, x.replies client = some reply → Gave log client reply) (client : Client)
    (reply : Store.Reply) (hr : x'.replies client = some reply) :
    Gave (log ++ [⟨now, x, .move move⟩]) client reply := by
  cases ha with
  | world | takeBatch | takeRebuild | readRoom | storeEntries | askCount | askIds =>
    exact (h client reply hr).snoc
  | receiveEntries | publish | receiveCount | receiveIds =>
    simp only [received, Function.update_apply] at hr
    split at hr
    · cases hr
    · exact (h client reply hr).snoc
  | @serve client' command channel hc =>
    simp only [Function.update_apply] at hr
    split at hr
    · rename_i hcl
      subst hcl
      refine ⟨log, _, [], command, rfl, ?_, (Option.some.inj hr).symm⟩
      rw [Moment.served?, hc]
      rfl
    · exact (h client reply hr).snoc

/-- A reply at hand is one that the store gave. -/
theorem gave_of_course (hc : Course (origin config sources directory) log t) {client : Client}
    {reply : Store.Reply} (hr : t.state.replies client = some reply) : Gave log client reply := by
  induction hc generalizing client reply with
  | start => cases hr
  | wait later _ _ ih => exact ih hr
  | step s _ ih => exact (ih hr).snoc
  | move m _ hm ih => exact gave_of_acts (acts_of_move? hm) (fun _ _ => ih) client reply hr

theorem exists_channel_of_served {client : Client} {command : Store.Command}
    (hs : m.served? = some (client, command)) :
    ∃ channel, m.before.channel = (client, command) :: channel := by
  unfold Moment.served? at hs
  split at hs
  · exact List.head?_eq_some_iff.1 hs
  · cases hs

/-- The entries that are to be stored were computed from those that are stored. -/
theorem Keeps.gives_of_served (h : Keeps log m.before) {client : Client} {entries : List Entry}
    (hs : m.served? = some (client, .replace entries)) :
    ∃ run, (ledger log).current = some run ∧ run.Gives m.entries entries := by
  obtain ⟨channel, hc⟩ := exists_channel_of_served hs
  obtain ⟨rfl, hp⟩ := h.orderly.phase_of_replace hc
  have hb := h.busy
  rw [hp, (h.orderly.awaits_of_channel hc).2] at hb
  exact hb.of_storing

/-- However the parts take turns: entries are stored only where they were computed from those that
the store holds then.  What the store holds at any command, and so what any reply is about, is what
a whole number of jobs came to, in the order in which they were taken.  While the pipeline is idle
the published list shows the stored entries.  The channel never holds more than three commands. -/
theorem single_writer_of_course (hc : Course (origin config sources directory) log t) :
    (∀ early m late client entries, log = early ++ m :: late →
      m.served? = some (client, .replace entries) →
      ∃ run, (ledger early).current = some run ∧ run.Gives m.entries entries) ∧
    (∀ early m late client command, log = early ++ m :: late → m.served? = some (client, command) →
      Results (ledger early).finished m.entries) ∧
    (∀ client reply, t.state.replies client = some reply → ∃ early m late command,
      log = early ++ m :: late ∧ m.served? = some (client, command) ∧
      reply = m.replyTo command ∧ Results (ledger early).finished m.entries) ∧
    (ledger log).jobs = log.filterMap Moment.taken? ∧
    (t.state.phase = .idle → t.state.world.projection.published.value =
      t.state.world.projection.store.entries.map Entry.summary) ∧
    t.state.channel.length ≤ 3 := by
  have hkeeps : ∀ {early m late}, log = early ++ m :: late → Keeps early m.before := by
    intro early m late hlog
    subst hlog
    exact keeps_of_course hc.of_append_cons.1
  refine ⟨?_, ?_, ?_, jobs_of_course hc, ?_, (keeps_of_course hc).orderly.length_channel_le⟩
  · intro early m late client entries hlog hs
    exact (hkeeps hlog).gives_of_served hs
  · intro early m late client command hlog hs
    exact (hkeeps hlog).results
  · intro client reply hr
    obtain ⟨early, m, late, command, hlog, hs, he⟩ := gave_of_course hc hr
    exact ⟨early, m, late, command, hlog, hs, he, (hkeeps hlog).results⟩
  · intro hp
    have hk := keeps_of_course hc
    refine hk.shown ?_
    simp [(hk.orderly.free (awaits_pipeline_of_idle hp)).2]

/-- The pager counts the entries while a batch is applied: the count comes between the snapshot and
the new entries and is still zero. -/
theorem single_writer_during_batch : ∃ log t, Course (origin {} [{}] ⟨[]⟩) log t ∧
    log.filterMap Moment.served? =
      [(.pipeline, .snapshot), (.pager, .count), (.pipeline, .replace [Directory.built ⟨[]⟩ "a"])] ∧
    t.state.replies .pager = some (.count 0) ∧
    (∃ early m late command, log = early ++ m :: late ∧ m.served? = some (.pager, command) ∧
      .count 0 = m.replyTo command ∧ Results (ledger early).finished m.entries) ∧
    (ledger log).jobs = [.batch [.pushBack "a"]] ∧
    t.state.world.projection.published.value = [Directory.built ⟨[]⟩ "a"].map Entry.summary := by
  have h₀ : Course (origin {} [{}] ⟨[]⟩) [] _ := .start
  have h₁ := ((h₀.step (.attach 0)).step (.push 0 [.pushBack "a"])).move
    (.world (.batch .read)) rfl
  have h₂ := ((h₁.wait 100 (by decide)).move (.world (.batch .release)) rfl).move
    (.world (.batch .hand)) rfl
  have h₃ := ((h₂.move .takeBatch rfl).step (.report [⟨0, 5⟩])).move .askCount rfl
  have h₄ := (((h₃.move .serve rfl).move .receiveEntries rfl).move .readRoom rfl).move .serve rfl
  have h₅ := (((h₄.move .readRoom rfl).move .storeEntries rfl).move .serve rfl).move .publish rfl
  obtain ⟨-, -, hreply, hjobs, hidle, -⟩ := single_writer_of_course h₅
  exact ⟨_, _, h₅, rfl, rfl, hreply _ _ rfl, hjobs, hidle rfl⟩

end LiveRooms.Exchange
