import LiveRooms.Proofs.Exchange.SingleWriter
import LiveRooms.Proofs.Store.Desk
import LiveRooms.Proofs.World.SubscriberSide

/-!
# The desk of an exchange

The pipeline, the pager and the subscriber are the clients of a desk: whatever happens in an
exchange, the store, the channel and the replies change only by turns that can be taken at a desk
(`course_desk`).  So all that holds of desks holds of the store of a projection.
-/

namespace LiveRooms.Exchange

variable {now : Nat} {x x' : Exchange} {client : Client} {command : Store.Command}

/-- What a part is doing at the desk. -/
def stage (x : Exchange) (client : Client) : Desk.Stage :=
  match x.replies client with
  | some reply => .answered reply
  | none => if (x.awaits client).isSome then .waiting else .idle

/-- The store of an exchange, with the parts that share it. -/
def desk (x : Exchange) : Desk Client := ⟨x.world.projection.store, x.channel, x.stage⟩

theorem stage_of_reply {reply : Store.Reply} (h : x.replies client = some reply) :
    x.stage client = .answered reply := by
  rw [stage, h]

theorem stage_of_awaits (h : x.replies client = none) (ha : x.awaits client = some command) :
    x.stage client = .waiting := by
  rw [stage, h, ha]
  rfl

theorem stage_of_free (h : x.replies client = none) (ha : x.awaits client = none) :
    x.stage client = .idle := by
  rw [stage, h, ha]
  rfl

theorem stage_congr (hr : x'.replies client = x.replies client)
    (ha : x'.awaits client = x.awaits client) : x'.stage client = x.stage client := by
  rw [stage, stage, hr, ha]

/-- All parts but one are at the same stage as before. -/
theorem stage_eq_update {stage : Desk.Stage} (hs : x'.stage client = stage)
    (ho : ∀ other, other ≠ client → x'.stage other = x.stage other) :
    x'.stage = Function.update x.stage client stage := by
  funext other
  by_cases h : other = client
  · subst h
    rw [Function.update_self, hs]
  · rw [Function.update_of_ne h, ho other h]

/-- Nothing happens at the desk. -/
theorem desk_eq (hst : x'.world.projection.store = x.world.projection.store)
    (hc : x'.channel = x.channel) (hr : x'.replies = x.replies)
    (ho : ∀ other, x'.awaits other = x.awaits other) : x'.desk = x.desk := by
  have hs : x'.stage = x.stage := funext fun other => stage_congr (congrFun hr other) (ho other)
  rw [desk, desk, hst, hc, hs]

/-! ## Turns at the desk -/

theorem course_desk_send (h : Orderly x) (hn : x.awaits client = none)
    (hst : x'.world.projection.store = x.world.projection.store)
    (hc : x'.channel = x.channel ++ [(client, command)]) (hr : x'.replies = x.replies)
    (ha : x'.awaits client = some command)
    (ho : ∀ other, other ≠ client → x'.awaits other = x.awaits other) :
    Desk.Course x.desk [.calls client command, .sends client command] x'.desk := by
  have hfree := (h.free hn).2
  have hs : x'.stage = Function.update (Function.update x.stage client (.calling command)) client
      .waiting := by
    rw [Function.update_idem]
    exact stage_eq_update (stage_of_awaits (by rw [hr, hfree]) ha) fun other he =>
      stage_congr (congrFun hr other) (ho other he)
  have hroom : x.channel.length < Store.commandCapacity :=
    Nat.lt_of_le_of_lt h.length_channel_le (by decide)
  have hd : x'.desk = ⟨x.world.projection.store, x.channel ++ [(client, command)],
      Function.update (Function.update x.stage client (.calling command)) client .waiting⟩ := by
    rw [desk, hst, hc, hs]
  rw [hd]
  exact (Desk.Course.start.step (.calls (stage_of_free hfree hn))).step
    (.sends (Function.update_self ..) hroom)

theorem course_desk_receive {reply : Store.Reply}
    (hst : x'.world.projection.store = x.world.projection.store) (hc : x'.channel = x.channel)
    (hp : x.replies client = some reply) (hr : x'.replies = Function.update x.replies client none)
    (ha : x'.awaits client = none)
    (ho : ∀ other, other ≠ client → x'.awaits other = x.awaits other) :
    Desk.Course x.desk [.receives client reply] x'.desk := by
  have hs : x'.stage = Function.update x.stage client .idle :=
    stage_eq_update (stage_of_free (by rw [hr, Function.update_self]) ha) fun other he =>
      stage_congr (by rw [hr, Function.update_of_ne he]) (ho other he)
  have hd : x'.desk = x.desk.setStage client .idle := by
    rw [desk, hst, hc, hs]
    rfl
  rw [hd]
  exact Desk.Course.start.step (.receives (stage_of_reply hp))

theorem course_desk_serve {channel : List (Client × Store.Command)}
    (hx : x.channel = (client, command) :: channel)
    (hst : x'.world.projection.store = (x.world.projection.store.handle command).1)
    (hc : x'.channel = channel)
    (hr : x'.replies = Function.update x.replies client
      (some (x.world.projection.store.handle command).2))
    (ho : ∀ other, x'.awaits other = x.awaits other) :
    Desk.Course x.desk
      [.handles client command (x.world.projection.store.handle command).2] x'.desk := by
  have hs : x'.stage = Function.update x.stage client
      (.answered (x.world.projection.store.handle command).2) :=
    stage_eq_update (stage_of_reply (by rw [hr, Function.update_self])) fun other he =>
      stage_congr (by rw [hr, Function.update_of_ne he]) (ho other)
  have hd : x'.desk = ⟨(x.world.projection.store.handle command).1, channel,
      Function.update x.stage client (.answered (x.world.projection.store.handle command).2)⟩ := by
    rw [desk, hst, hc, hs]
  rw [hd]
  exact Desk.Course.start.step (.handles hx)

/-- What reaches the store neither by a command nor by a reply leaves it as it is. -/
theorem store_of_allowed {w : World} {m : World.Move} (ha : x.allows m = true)
    (h : x.world.move? now m = some w) : w.projection.store = x.world.projection.store :=
  Store.eq_of_parts (list_of_allowed ha h).1 (World.stirs_move h).limit_eq

theorem store_of_step (w : World) (s : Step) :
    (w.step s).1.projection.store = w.projection.store :=
  Store.eq_of_parts (World.entries_of_step w s).1 (World.stirs_step w 0 s).limit_eq

/-- A move of an exchange consists of turns at its desk. -/
theorem course_desk_acts (h : Orderly x) {m : Move} (ha : Acts now x m x') :
    ∃ turns, Desk.Course x.desk turns x'.desk := by
  cases ha with
  | @world m w ha hm =>
    have hd : desk { x with world := w } = x.desk :=
      desk_eq (store_of_allowed ha hm) rfl rfl fun _ => rfl
    exact ⟨[], hd ▸ .start⟩
  | takeBatch hp _ _ hs =>
    refine ⟨_, course_desk_send h (awaits_pipeline_of_idle hp) hs.store rfl rfl rfl
      fun other ho => ?_⟩
    cases other <;> first | exact absurd rfl ho | rfl
  | takeRebuild hp =>
    refine ⟨_, course_desk_send h (awaits_pipeline_of_idle hp) rfl rfl rfl rfl fun other ho => ?_⟩
    cases other <;> first | exact absurd rfl ho | rfl
  | receiveEntries hp hr =>
    refine ⟨_, course_desk_receive rfl rfl hr rfl rfl fun other ho => ?_⟩
    cases other <;> first | exact absurd rfl ho | rfl
  | @readRoom job q next hp =>
    have hd : desk { x with
        phase := .working job (next (x.world.remote.directory.answer q)) } = x.desk := by
      refine desk_eq rfl rfl rfl fun other => ?_
      cases other
      · show none = x.awaits .pipeline
        rw [awaits, hp]
      · rfl
      · rfl
    exact ⟨[], hd ▸ .start⟩
  | storeEntries hp =>
    refine ⟨_, course_desk_send h (show x.awaits .pipeline = none by rw [awaits, hp]) rfl rfl rfl
      rfl fun other ho => ?_⟩
    cases other <;> first | exact absurd rfl ho | rfl
  | publish hp hr =>
    refine ⟨_, course_desk_receive rfl rfl hr rfl rfl fun other ho => ?_⟩
    cases other <;> first | exact absurd rfl ho | rfl
  | askCount hp hs =>
    refine ⟨_, course_desk_send h (show x.awaits .pager = none by rw [awaits, hp]; rfl) hs.store
      rfl rfl rfl fun other ho => ?_⟩
    cases other <;> first | exact absurd rfl ho | rfl
  | receiveCount hp hr hs =>
    refine ⟨_, course_desk_receive hs.store rfl hr rfl rfl fun other ho => ?_⟩
    cases other <;> first | exact absurd rfl ho | rfl
  | askIds hp hs =>
    refine ⟨_, course_desk_send h (show x.awaits .subscriber = none by rw [awaits, hp]; rfl)
      hs.store rfl rfl rfl fun other ho => ?_⟩
    cases other <;> first | exact absurd rfl ho | rfl
  | receiveIds hp hr hs =>
    refine ⟨_, course_desk_receive hs.store rfl hr rfl rfl fun other ho => ?_⟩
    cases other <;> first | exact absurd rfl ho | rfl
  | serve hc => exact ⟨_, course_desk_serve hc rfl rfl rfl fun other => rfl⟩

/-- The store of a projection is at all times one at a desk that was opened with its limit. -/
theorem course_desk {config : Config} {sources : List Source} {directory : Directory}
    {log : List Moment} {t : Timeline Exchange}
    (hc : Course (origin config sources directory) log t) :
    ∃ turns, Desk.Course (Desk.opened Client config.maxVisible) turns t.state.desk := by
  induction hc with
  | start =>
    have hd : (origin config sources directory).state.desk =
        Desk.opened Client config.maxVisible :=
      congrArg (Desk.mk (Store.empty config.maxVisible) []) (funext fun other => by
        cases other <;> rfl)
    exact ⟨[], hd ▸ .start⟩
  | wait later _ _ ih => exact ih
  | @step log t s _ ih =>
    have hd : (t.state.step s).desk = t.state.desk :=
      desk_eq (store_of_step t.state.world s) rfl rfl fun _ => rfl
    rwa [hd]
  | move m hc hm ih =>
    obtain ⟨turns, hd⟩ := ih
    obtain ⟨turns', hd'⟩ := course_desk_acts (keeps_of_course hc).orderly (acts_of_move? hm)
    exact ⟨turns ++ turns', hd.trans hd'⟩

end LiveRooms.Exchange
