import LiveRooms.Proofs.Exchange.Course
import LiveRooms.Proofs.World.Requests

/-!
# Commands and replies

A client that waits has its one command in the channel or the reply to it at hand, and a client that
does not wait has neither (`Attended`).  So the channel never holds more than three commands, far
from its bound of sixty-four, and nobody waits to send.
-/

namespace LiveRooms

/-- The list of a world and the request for a rebuild are the same as before. -/
structure World.SameList (w w' : World) : Prop where
  store : w'.projection.store = w.projection.store
  published : w'.projection.published = w.projection.published
  rebuildQueued : w'.projection.rebuildQueued = w.projection.rebuildQueued
  isPipelineStopped : w'.projection.isPipelineStopped = w.projection.isPipelineStopped
  directory : w'.remote.directory = w.remote.directory

theorem World.sameList_requestPages (v : Viewport) (count : Nat) (pager : Pager) (w : World) :
    w.SameList ((w.requestPages v count).setPager pager) := by
  unfold World.requestPages
  split <;> exact ⟨rfl, rfl, rfl, rfl, rfl⟩

theorem World.sameList_considerIds (now : Nat) (v : Viewport) (ids : List String) (w : World) :
    w.SameList (w.considerIds now v ids) := by
  unfold World.considerIds
  dsimp only
  split <;> exact ⟨rfl, rfl, rfl, rfl, rfl⟩

namespace Exchange

/-- What the moves of an exchange do. -/
inductive Acts (now : Nat) (x : Exchange) : Move → Exchange → Prop where
  | world {m : World.Move} {w : World} : x.allows m = true → x.world.move? now m = some w →
      Acts now x (.world m) { x with world := w }
  | takeBatch {w : World} {batch : List (Edit String)} : x.phase = .idle →
      x.world.projection.isPipelineStopped = false → x.world.nextBatch = batch →
      x.world.SameList w →
      Acts now x .takeBatch
        (send .pipeline .snapshot { x with world := w, phase := .fetching (.batch batch) })
  | takeRebuild : x.phase = .idle → x.world.projection.isPipelineStopped = false →
      x.world.projection.rebuildQueued = true →
      Acts now x .takeRebuild (send .pipeline .snapshot
        { x.setProjection { x.world.projection with rebuildQueued := false } with
          phase := .fetching .rebuild })
  | receiveEntries {job : Job} {entries : List Entry} : x.phase = .fetching job →
      x.replies .pipeline = some (.entries entries) →
      Acts now x .receiveEntries
        (received .pipeline { x with phase := .working job (job.task entries) })
  | readRoom {job : Job} {q : Question} {next : q.Answer → Reading (List Entry)} :
      x.phase = .working job (.ask q next) →
      Acts now x .readRoom
        { x with phase := .working job (next (x.world.remote.directory.answer q)) }
  | storeEntries {job : Job} {entries : List Entry} : x.phase = .working job (.done entries) →
      Acts now x .storeEntries
        (send .pipeline (.replace entries) { x with phase := .storing entries })
  | publish {entries : List Entry} : x.phase = .storing entries →
      x.replies .pipeline = some .done →
      Acts now x .publish (received .pipeline
        { x.setProjection { x.world.projection with
            published := x.world.projection.published.send (entries.map Entry.summary) } with
          phase := .idle })
  | askCount {w : World} {v : Viewport} : x.paging = none → x.world.SameList w →
      Acts now x .askCount (send .pager .count { x with world := w, paging := some v })
  | receiveCount {w : World} {v : Viewport} {count : Nat} : x.paging = some v →
      x.replies .pager = some (.count count) → x.world.SameList w →
      Acts now x .receiveCount (received .pager { x with world := w, paging := none })
  | askIds {w : World} {v : Viewport} : x.showing = none → x.world.SameList w →
      Acts now x .askIds (send .subscriber (.ids v) { x with world := w, showing := some v })
  | receiveIds {w : World} {v : Viewport} {ids : List String} : x.showing = some v →
      x.replies .subscriber = some (.ids ids) → x.world.SameList w →
      Acts now x .receiveIds (received .subscriber { x with world := w, showing := none })
  | serve {client : Client} {command : Store.Command}
      {channel : List (Client × Store.Command)} : x.channel = (client, command) :: channel →
      Acts now x .serve
        { x.setProjection { x.world.projection with
            store := (x.world.projection.store.handle command).1 } with
          channel
          replies := Function.update x.replies client
            (some (x.world.projection.store.handle command).2) }

variable {now : Nat} {x x' : Exchange}

theorem phase_of_isFree (h : x.isFree = true) :
    x.phase = .idle ∧ x.world.projection.isPipelineStopped = false := by
  simp only [isFree, Bool.and_eq_true, Bool.not_eq_true'] at h
  refine ⟨?_, h.2⟩
  cases hp : x.phase with
  | idle => rfl
  | _ => rw [hp] at h; exact absurd h.1 (by simp [Phase.isIdle])

theorem acts_takeBatch? (h : x.takeBatch? = some x') : Acts now x .takeBatch x' := by
  unfold takeBatch? at h
  split at h
  · rename_i hf
    obtain ⟨hp, hs⟩ := phase_of_isFree hf
    split at h
    · cases h
    · rename_i a ha
      split at h
      · cases h
      · rename_i batch queue hq
        cases h
        exact .takeBatch hp hs (by simp [World.nextBatch, ha, hq]) ⟨rfl, rfl, rfl, rfl, rfl⟩
  · cases h

theorem acts_takeRebuild? (h : x.takeRebuild? = some x') : Acts now x .takeRebuild x' := by
  unfold takeRebuild? at h
  split at h
  · rename_i hc
    rw [Bool.and_eq_true] at hc
    obtain ⟨hp, hs⟩ := phase_of_isFree hc.1
    cases h
    exact .takeRebuild hp hs hc.2
  · cases h

theorem acts_of_move? {m : Move} (h : x.move? now m = some x') : Acts now x m x' := by
  cases m with
  | world m =>
    simp only [move?, worldMove?] at h
    split at h
    · rename_i ha
      obtain ⟨w, hw, rfl⟩ := Option.map_eq_some_iff.1 h
      exact .world ha hw
    · cases h
  | takeBatch => exact acts_takeBatch? h
  | takeRebuild => exact acts_takeRebuild? h
  | receiveEntries =>
    simp only [move?, receiveEntries?] at h
    split at h
    · rename_i hp hr
      cases h
      exact .receiveEntries hp hr
    · cases h
  | readRoom =>
    simp only [move?, readRoom?] at h
    split at h
    · rename_i hp
      cases h
      exact .readRoom hp
    · cases h
  | storeEntries =>
    simp only [move?, storeEntries?] at h
    split at h
    · rename_i hp
      cases h
      exact .storeEntries hp
    · cases h
  | publish =>
    simp only [move?, publish?] at h
    split at h
    · rename_i hp hr
      cases h
      exact .publish hp hr
    · cases h
  | askCount =>
    simp only [move?, askCount?] at h
    split at h
    · rename_i hc
      simp only [Bool.and_eq_true, Option.isNone_iff_eq_none] at hc
      cases h
      exact .askCount hc.1.1 ⟨rfl, rfl, rfl, rfl, rfl⟩
    · cases h
  | receiveCount =>
    simp only [move?, receiveCount?] at h
    split at h
    · rename_i hp hr
      cases h
      exact .receiveCount hp hr (World.sameList_requestPages ..)
    · cases h
  | askIds =>
    simp only [move?, askIds?] at h
    split at h
    · rename_i hc
      simp only [Bool.and_eq_true, Option.isNone_iff_eq_none] at hc
      cases h
      exact .askIds hc.1.1 ⟨rfl, rfl, rfl, rfl, rfl⟩
    · cases h
  | receiveIds =>
    simp only [move?, receiveIds?] at h
    split at h
    · rename_i hp hr
      cases h
      exact .receiveIds hp hr (World.sameList_considerIds ..)
    · cases h
  | serve =>
    simp only [move?, serve?] at h
    split at h
    · cases h
    · rename_i hc
      cases h
      exact .serve hc

/-! ## Who waits for what -/

/-- The command to which a client waits for the reply. -/
def awaits (x : Exchange) : Client → Option Store.Command
  | .pipeline =>
    match x.phase with
    | .fetching _ => some .snapshot
    | .storing entries => some (.replace entries)
    | _ => none
  | .pager => x.paging.map fun _ => .count
  | .subscriber => x.showing.map .ids

/-- The commands of a client that the store has not handled. -/
def inFlight (client : Client) (x : Exchange) : List Store.Command :=
  x.channel.filterMap fun sent => if sent.1 = client then some sent.2 else none

/-- Whether a reply is of the kind that a command gets. -/
def fits : Store.Command → Store.Reply → Bool
  | .snapshot, .entries _ | .replace _, .done | .count, .count _ | .ids _, .ids _ => true
  | _, _ => false

/-- How a command that a client awaits, its commands in the channel and the reply at hand go
together. -/
inductive Attended : Option Store.Command → List Store.Command → Option Store.Reply → Prop where
  | free : Attended none [] none
  | sent (command : Store.Command) : Attended (some command) [command] none
  | answered {command : Store.Command} {reply : Store.Reply} : fits command reply = true →
      Attended (some command) [] (some reply)

/-- Every client is attended to. -/
def Orderly (x : Exchange) : Prop :=
  ∀ client, Attended (x.awaits client) (x.inFlight client) (x.replies client)

theorem fits_handle (s : Store) (command : Store.Command) :
    fits command (s.handle command).2 = true := by
  cases command <;> rfl

theorem inFlight_send (client other : Client) (command : Store.Command) (x : Exchange) :
    (x.send client command).inFlight other =
      x.inFlight other ++ if client = other then [command] else [] := by
  rw [inFlight, send, List.filterMap_append]
  split <;> simp_all [inFlight]

section

variable {awaited : Option Store.Command} {command : Store.Command}
  {commands : List Store.Command} {reply : Store.Reply} {before : Option Store.Reply}

theorem Attended.of_none (h : Attended none commands before) : commands = [] ∧ before = none := by
  cases h
  exact ⟨rfl, rfl⟩

theorem Attended.of_reply (h : Attended awaited commands (some reply)) : commands = [] := by
  cases h
  rfl

theorem Attended.of_command (h : Attended awaited (command :: commands) before) :
    awaited = some command ∧ commands = [] ∧ before = none := by
  cases h
  exact ⟨rfl, rfl, rfl⟩

theorem Attended.length_le (h : Attended awaited commands before) : commands.length ≤ 1 := by
  cases h <;> simp

end

theorem Orderly.free (h : Orderly x) {client : Client} (ha : x.awaits client = none) :
    x.inFlight client = [] ∧ x.replies client = none :=
  (ha ▸ h client : Attended none _ _).of_none

theorem inFlight_of_channel {client : Client} {command : Store.Command}
    {channel : List (Client × Store.Command)} (hx : x.channel = (client, command) :: channel)
    (hc : x'.channel = channel) (other : Client) :
    x.inFlight other = (if client = other then [command] else []) ++ x'.inFlight other := by
  rw [inFlight, hx, inFlight, hc, List.filterMap_cons]
  split <;> simp_all

/-- The command that the store handles next is one that its client awaits. -/
theorem Orderly.awaits_of_channel (h : Orderly x) {client : Client} {command : Store.Command}
    {channel : List (Client × Store.Command)} (hx : x.channel = (client, command) :: channel) :
    x.awaits client = some command ∧ x.replies client = none := by
  have hc := h client
  rw [inFlight_of_channel hx (show Exchange.channel { x with channel } = channel from rfl),
    if_pos rfl, List.singleton_append] at hc
  exact ⟨hc.of_command.1, hc.of_command.2.2⟩

/-- A client that did not wait sends a command. -/
theorem Orderly.send (h : Orderly x) {client : Client} {command : Store.Command}
    (hn : x.awaits client = none) (hc : x'.channel = x.channel ++ [(client, command)])
    (hr : x'.replies = x.replies) (ha : x'.awaits client = some command)
    (ho : ∀ other, other ≠ client → x'.awaits other = x.awaits other) : Orderly x' := by
  intro other
  have hf : x'.inFlight other = x.inFlight other ++ if client = other then [command] else [] := by
    rw [← inFlight_send]
    simp only [inFlight, hc, Exchange.send]
  rw [hf, hr]
  by_cases he : client = other
  · subst he
    obtain ⟨hl, hr⟩ := h.free hn
    rw [ha, hl, hr, if_pos rfl]
    exact .sent command
  · rw [if_neg he, List.append_nil, ho other (Ne.symm he)]
    exact h other

/-- A client receives the reply. -/
theorem Orderly.receive (h : Orderly x) {client : Client} {reply : Store.Reply}
    (hc : x'.channel = x.channel) (hp : x.replies client = some reply)
    (hr : x'.replies = Function.update x.replies client none) (ha : x'.awaits client = none)
    (ho : ∀ other, other ≠ client → x'.awaits other = x.awaits other) : Orderly x' := by
  intro other
  have hf : x'.inFlight other = x.inFlight other := by rw [inFlight, hc]; rfl
  rw [hf, hr]
  by_cases he : other = client
  · subst he
    have hcl := h other
    rw [hp] at hcl
    rw [ha, Function.update_self, hcl.of_reply]
    exact .free
  · rw [Function.update_of_ne he, ho other he]
    exact h other

/-- The store handles a command. -/
theorem Orderly.serve (h : Orderly x) {client : Client} {command : Store.Command}
    {channel : List (Client × Store.Command)} {reply : Store.Reply}
    (hx : x.channel = (client, command) :: channel) (hc : x'.channel = channel)
    (hr : x'.replies = Function.update x.replies client (some reply))
    (hf : fits command reply = true) (ho : ∀ other, x'.awaits other = x.awaits other) :
    Orderly x' := by
  intro other
  rw [hr, ho other]
  have hcl := h other
  rw [inFlight_of_channel hx hc other] at hcl
  by_cases he : other = client
  · subst he
    rw [if_pos rfl, List.singleton_append] at hcl
    rw [Function.update_self, hcl.of_command.1, hcl.of_command.2.1]
    exact .answered hf
  · rw [if_neg (Ne.symm he), List.nil_append] at hcl
    rw [Function.update_of_ne he]
    exact hcl

theorem Orderly.stay (h : Orderly x) (hc : x'.channel = x.channel) (hr : x'.replies = x.replies)
    (ho : ∀ other, x'.awaits other = x.awaits other) : Orderly x' := by
  intro other
  have hf : x'.inFlight other = x.inFlight other := by rw [inFlight, hc]; rfl
  rw [hf, hr, ho other]
  exact h other

theorem awaits_pipeline_of_idle (h : x.phase = .idle) : x.awaits .pipeline = none := by
  rw [awaits, h]

theorem Orderly.acts (h : Orderly x) {m : Move} (ha : Acts now x m x') : Orderly x' := by
  cases ha with
  | world => exact h.stay rfl rfl fun other => rfl
  | takeBatch hp | takeRebuild hp =>
    refine h.send (awaits_pipeline_of_idle hp) rfl rfl rfl fun other ho => ?_
    cases other <;> first | exact absurd rfl ho | rfl
  | receiveEntries hp hr =>
    refine h.receive rfl hr rfl rfl fun other ho => ?_
    cases other <;> first | exact absurd rfl ho | rfl
  | readRoom hp =>
    refine h.stay rfl rfl fun other => ?_
    cases other
    · show none = x.awaits .pipeline
      rw [awaits, hp]
    · rfl
    · rfl
  | storeEntries hp =>
    refine h.send (show x.awaits .pipeline = none by rw [awaits, hp]) rfl rfl rfl
      fun other ho => ?_
    cases other <;> first | exact absurd rfl ho | rfl
  | publish hp hr =>
    refine h.receive rfl hr rfl rfl fun other ho => ?_
    cases other <;> first | exact absurd rfl ho | rfl
  | askCount hp _ =>
    refine h.send (show x.awaits .pager = none by rw [awaits, hp]; rfl) rfl rfl rfl
      fun other ho => ?_
    cases other <;> first | exact absurd rfl ho | rfl
  | receiveCount hp hr _ =>
    refine h.receive rfl hr rfl rfl fun other ho => ?_
    cases other <;> first | exact absurd rfl ho | rfl
  | askIds hp _ =>
    refine h.send (show x.awaits .subscriber = none by rw [awaits, hp]; rfl) rfl rfl rfl
      fun other ho => ?_
    cases other <;> first | exact absurd rfl ho | rfl
  | receiveIds hp hr _ =>
    refine h.receive rfl hr rfl rfl fun other ho => ?_
    cases other <;> first | exact absurd rfl ho | rfl
  | serve hc => exact h.serve hc rfl rfl (fits_handle ..) fun other => rfl

/-- Only the pipeline replaces entries. -/
theorem Orderly.phase_of_replace (h : Orderly x) {client : Client} {entries : List Entry}
    {channel : List (Client × Store.Command)}
    (hc : x.channel = (client, .replace entries) :: channel) :
    client = .pipeline ∧ x.phase = .storing entries := by
  obtain ⟨ha, -⟩ := h.awaits_of_channel hc
  cases client with
  | pager =>
    obtain ⟨v, -, hv⟩ := Option.map_eq_some_iff.1 ha
    cases hv
  | subscriber =>
    obtain ⟨v, -, hv⟩ := Option.map_eq_some_iff.1 ha
    cases hv
  | pipeline =>
    refine ⟨rfl, ?_⟩
    cases hp : x.phase with
    | storing entries' =>
      rw [awaits, hp] at ha
      cases ha
      rfl
    | _ => rw [awaits, hp] at ha; cases ha

/-- The channel is never full. -/
theorem Orderly.length_channel_le (h : Orderly x) : x.channel.length ≤ 3 := by
  have hsum : x.channel.length = (x.inFlight .pipeline).length + (x.inFlight .pager).length +
      (x.inFlight .subscriber).length := by
    unfold inFlight
    induction x.channel with
    | nil => rfl
    | cons sent channel ih =>
      obtain ⟨client, command⟩ := sent
      cases client <;> simp [ih] <;> omega
  have := (h .pipeline).length_le
  have := (h .pager).length_le
  have := (h .subscriber).length_le
  omega

end Exchange

end LiveRooms
