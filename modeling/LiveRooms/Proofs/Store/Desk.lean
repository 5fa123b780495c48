import LiveRooms.Proofs.Store.Positions
import LiveRooms.Proofs.World.Course
import LiveRooms.Store.Desk

/-!
# One command at a time

However the clients of a desk take their turns, the commands take effect one at a time in the order
in which they were sent, and each reply depends on nothing but the list that the last replacement
before it stored (`Store.answer`).  What a client receives is the reply to the one command that it
called with last, and that command took effect between the call and the receipt
(`Desk.linearizable_of_course`).
-/

namespace LiveRooms

namespace Store

/-- The list that a command stores. -/
def Command.replacement? : Command → Option (List Entry)
  | .replace entries => some entries
  | .snapshot | .count | .ids _ => none

/-- The list that the last replacement among some commands stored; at first it is empty. -/
def lastReplaced (commands : List Command) : List Entry :=
  (commands.filterMap Command.replacement?).getLast?.getD []

/-- The reply to a command when a list is stored and a reading of ids covers `limit` positions. -/
def answer (limit : Nat) (entries : List Entry) : Command → Reply
  | .snapshot => .entries entries
  | .replace _ => .done
  | .count => .count entries.length
  | .ids v => .ids (idsAt entries (v.positions limit entries.length))

theorem eq_of_parts {s s' : Store} (he : s'.entries = s.entries) (hl : s'.limit = s.limit) :
    s' = s := by
  cases s
  cases s'
  simp_all

theorem handle_fst (s : Store) (c : Command) :
    (s.handle c).1 = ⟨c.replacement?.getD s.entries, s.limit⟩ := by
  cases c <;> rfl

theorem handle_snd (s : Store) (c : Command) :
    (s.handle c).2 = answer s.limit.toNat s.entries c := by
  cases c with
  | ids v => exact congrArg Reply.ids (ids_eq_idsAt s v)
  | _ => rfl

theorem lastReplaced_snoc (commands : List Command) (c : Command) :
    lastReplaced (commands ++ [c]) = c.replacement?.getD (lastReplaced commands) := by
  rw [lastReplaced, List.filterMap_append]
  cases h : c.replacement? with
  | none => simp [h, lastReplaced]
  | some entries => simp [h]

/-- The replies to some commands and one more. -/
theorem replies_snoc (limit : UInt64) (commands : List Command) (c : Command) :
    (empty limit).replies (commands ++ [c]) = (empty limit).replies commands ++
      [(handle ⟨lastReplaced commands, (empty limit).limit⟩ c).2] := by
  suffices h : ∀ (before : List Command) (s : Store),
      s = ⟨lastReplaced before, (empty limit).limit⟩ →
      s.replies (commands ++ [c]) = s.replies commands ++
        [(handle ⟨lastReplaced (before ++ commands), (empty limit).limit⟩ c).2] from
    h [] (empty limit) rfl
  induction commands with
  | nil =>
    rintro before s rfl
    simp [replies]
  | cons c' commands ih =>
    rintro before s rfl
    have hs : (handle ⟨lastReplaced before, (empty limit).limit⟩ c').1 =
        ⟨lastReplaced (before ++ [c']), (empty limit).limit⟩ := by
      rw [handle_fst, lastReplaced_snoc]
    rw [List.cons_append, replies, replies, ih _ _ hs, List.append_assoc]
    rfl

end Store

namespace Desk

variable {κ : Type} {d d' : Desk κ} {log : List (Event κ)} {e : Event κ} {limit : UInt64}

/-- The commands that were handled, in order. -/
def commandsOf (log : List (Event κ)) : List Store.Command := (handledOf log).map (·.2.1)

theorem handledOf_snoc (log : List (Event κ)) (e : Event κ) :
    handledOf (log ++ [e]) = handledOf log ++ handledOf [e] := List.filterMap_append

theorem sentOf_snoc (log : List (Event κ)) (e : Event κ) :
    sentOf (log ++ [e]) = sentOf log ++ sentOf [e] := List.filterMap_append

theorem commandsOf_snoc (log : List (Event κ)) (e : Event κ) :
    commandsOf (log ++ [e]) = commandsOf log ++ commandsOf [e] := by
  rw [commandsOf, handledOf_snoc, List.map_append]
  rfl

theorem sentOf_snoc_of_nil (log : List (Event κ)) (h : sentOf [e] = []) :
    sentOf (log ++ [e]) = sentOf log := by
  rw [sentOf_snoc, h, List.append_nil]

theorem handledOf_snoc_of_nil (log : List (Event κ)) (h : handledOf [e] = []) :
    handledOf (log ++ [e]) = handledOf log := by
  rw [handledOf_snoc, h, List.append_nil]

theorem commandsOf_snoc_of_nil (log : List (Event κ)) (h : handledOf [e] = []) :
    commandsOf (log ++ [e]) = commandsOf log := by
  rw [commandsOf, handledOf_snoc_of_nil _ h, commandsOf]

theorem length_commandsOf (log : List (Event κ)) :
    (commandsOf log).length = (handledOf log).length := List.length_map _

/-! ## What the store has done -/

/-- The channel holds what was sent and not handled, and the store has replied to the rest. -/
structure Serves (limit : UInt64) (log : List (Event κ)) (d : Desk κ) : Prop where
  sent : sentOf log = (handledOf log).map (fun h => (h.1, h.2.1)) ++ d.channel
  room : d.channel.length ≤ Store.commandCapacity
  store : d.store = ⟨Store.lastReplaced (commandsOf log), (Store.empty limit).limit⟩
  replies : (handledOf log).map (·.2.2) = (Store.empty limit).replies (commandsOf log)
  answers : ∀ {n : Nat} {k : κ} {c : Store.Command} {r : Store.Reply},
    (handledOf log)[n]? = some (k, c, r) →
    r = Store.answer (max 1 limit.toNat) (Store.lastReplaced ((commandsOf log).take n)) c

/-- Nothing is handled. -/
theorem Serves.of_unhandled (h : Serves limit log d) (he : handledOf [e] = [])
    (hchannel : d'.channel = d.channel ++ sentOf [e])
    (hroom : d'.channel.length ≤ Store.commandCapacity) (hstore : d'.store = d.store) :
    Serves limit (log ++ [e]) d' where
  sent := by rw [handledOf_snoc_of_nil _ he, sentOf_snoc, h.sent, hchannel, List.append_assoc]
  room := hroom
  store := by rw [commandsOf_snoc_of_nil _ he, hstore, h.store]
  replies := by rw [handledOf_snoc_of_nil _ he, commandsOf_snoc_of_nil _ he, h.replies]
  answers := by
    rw [handledOf_snoc_of_nil _ he, commandsOf_snoc_of_nil _ he]
    exact h.answers

/-- The store handles the first command of the channel. -/
theorem Serves.handles (h : Serves limit log d) {k : κ} {c : Store.Command}
    {channel : List (κ × Store.Command)} (hc : d.channel = (k, c) :: channel)
    (hchannel : d'.channel = channel) (hstore : d'.store = (d.store.handle c).1) :
    Serves limit (log ++ [.handles k c (d.store.handle c).2]) d' := by
  have hcommands : commandsOf (log ++ [.handles k c (d.store.handle c).2]) =
      commandsOf log ++ [c] := commandsOf_snoc ..
  have hhandled : handledOf (log ++ [.handles k c (d.store.handle c).2]) =
      handledOf log ++ [(k, c, (d.store.handle c).2)] := handledOf_snoc ..
  refine ⟨?_, ?_, ?_, ?_, ?_⟩
  · rw [sentOf_snoc_of_nil _ rfl, hhandled, h.sent, hc, hchannel, List.map_append,
      List.append_assoc]
    rfl
  · have hroom := h.room
    rw [hc, List.length_cons] at hroom
    rw [hchannel]
    exact Nat.le_of_succ_le hroom
  · rw [hcommands, Store.lastReplaced_snoc, hstore, Store.handle_fst, h.store]
  · rw [hcommands, hhandled, Store.replies_snoc, ← h.store, ← h.replies, List.map_append]
    rfl
  · intro n k' c' r hn
    rw [hhandled, List.getElem?_append] at hn
    rw [hcommands]
    split at hn <;> rename_i hlt
    · rw [List.take_append_of_le_length (by rw [length_commandsOf]; exact Nat.le_of_lt hlt)]
      exact h.answers hn
    · -- the command handled last
      obtain ⟨hz, hx⟩ := List.getElem?_eq_some_iff.1 hn
      rw [List.length_singleton] at hz
      have hlen : n = (commandsOf log).length := by
        rw [length_commandsOf]
        omega
      simp only [List.getElem_singleton, Prod.mk.injEq] at hx
      obtain ⟨-, rfl, rfl⟩ := hx
      rw [hlen, List.take_left', Store.handle_snd, h.store, Store.toNat_limit_empty]
      rfl

theorem Serves.toNat_limit (h : Serves limit log d) : d.store.limit.toNat = max 1 limit.toNat := by
  rw [h.store, Store.toNat_limit_empty]

/-! ## What the clients have seen -/

/-- The last thing that a client did for itself was to call with a command, and the commands that
had been sent by then are all among the first `n`. -/
def Called (log : List (Event κ)) (k : κ) (c : Store.Command) (n : Nat) : Prop :=
  ∃ before during, log = before ++ .calls k c :: during ∧
    (∀ e ∈ during, e.caller? ≠ some k) ∧ (sentOf before).length ≤ n

/-- How what a client is doing goes together with the log and the channel. -/
inductive Attends (log : List (Event κ)) (channel : List (κ × Store.Command)) (k : κ) :
    Stage → Prop where
  | idle : Attends log channel k .idle
  | calling {c : Store.Command} : Called log k c (sentOf log).length →
      Attends log channel k (.calling c)
  | waiting {c : Store.Command} {ahead behind : List (κ × Store.Command)} :
      channel = ahead ++ (k, c) :: behind →
      Called log k c ((handledOf log).length + ahead.length) → Attends log channel k .waiting
  | answered {c : Store.Command} {r : Store.Reply} {n : Nat} :
      (handledOf log)[n]? = some (k, c, r) → Called log k c n →
      Attends log channel k (.answered r)

/-- Every client is attended to, and has at most one command in the channel. -/
structure Attentive (log : List (Event κ)) (d : Desk κ) : Prop where
  attends : ∀ k, Attends log d.channel k (d.stage k)
  nodup : (d.channel.map Prod.fst).Nodup
  waiting_of_mem : ∀ {k : κ}, k ∈ d.channel.map Prod.fst → d.stage k = .waiting

variable {k : κ} {c : Store.Command} {n m : Nat} {stage : Stage}
  {channel channel' : List (κ × Store.Command)}

/-- A client that is not waiting has no command in the channel. -/
theorem Attentive.not_mem (h : Attentive log d) (hs : d.stage k ≠ .waiting) :
    k ∉ d.channel.map Prod.fst := fun hmem => hs (h.waiting_of_mem hmem)

theorem called_snoc_calls (log : List (Event κ)) (k : κ) (c : Store.Command) :
    Called (log ++ [.calls k c]) k c (sentOf log).length :=
  ⟨log, [], rfl, fun _ h => absurd h List.not_mem_nil, Nat.le_refl _⟩

theorem Called.mono (h : Called log k c n) (hm : n ≤ m) : Called log k c m :=
  let ⟨before, during, hlog, hquiet, hn⟩ := h
  ⟨before, during, hlog, hquiet, hn.trans hm⟩

/-- Something happens that the client has no part in, or only waits for. -/
theorem Called.snoc (h : Called log k c n) (he : e.caller? ≠ some k) :
    Called (log ++ [e]) k c n := by
  obtain ⟨before, during, rfl, hquiet, hn⟩ := h
  refine ⟨before, during ++ [e], by simp, fun e' hmem => ?_, hn⟩
  rcases List.mem_append.1 hmem with hmem | hmem
  · exact hquiet e' hmem
  · rwa [List.mem_singleton.1 hmem]

/-- Nothing is handled, and the client does nothing. -/
theorem Attends.of_unhandled (h : Attends log channel k stage) (he : handledOf [e] = [])
    (hk : e.caller? ≠ some k) (hchannel : channel' = channel ++ sentOf [e]) :
    Attends (log ++ [e]) channel' k stage := by
  cases h with
  | idle => exact .idle
  | calling h =>
    refine .calling ((h.snoc hk).mono ?_)
    rw [sentOf_snoc, List.length_append]
    exact Nat.le_add_right ..
  | waiting hc h =>
    refine .waiting (by rw [hchannel, hc, List.append_assoc, List.cons_append]) ?_
    rw [handledOf_snoc_of_nil _ he]
    exact h.snoc hk
  | answered hn h =>
    rw [← handledOf_snoc_of_nil log he] at hn
    exact .answered hn (h.snoc hk)

/-- A command of another client is handled. -/
theorem Attends.of_handles_other {k' : κ} {c' : Store.Command} {r : Store.Reply}
    (h : Attends log ((k', c') :: channel) k stage) (hk : k' ≠ k) :
    Attends (log ++ [.handles k' c' r]) channel k stage := by
  have hhandled : handledOf (log ++ [.handles k' c' r]) = handledOf log ++ [(k', c', r)] :=
    handledOf_snoc ..
  have hquiet : (Event.handles k' c' r).caller? ≠ some k := by simp [Event.caller?]
  cases h with
  | idle => exact .idle
  | calling h =>
    rw [← sentOf_snoc_of_nil (e := .handles k' c' r) log rfl] at h
    exact .calling (h.snoc hquiet)
  | waiting hc h =>
    rename_i ahead behind
    cases ahead with
    | nil => cases hc; exact absurd rfl hk
    | cons first ahead =>
      -- one command fewer is ahead and one more is handled
      obtain ⟨-, rfl⟩ := List.cons.inj hc
      refine .waiting rfl ((h.snoc hquiet).mono ?_)
      rw [hhandled, List.length_append, List.length_cons, List.length_singleton]
      omega
  | answered hn h =>
    refine .answered ?_ (h.snoc hquiet)
    rw [hhandled, List.getElem?_append_left (List.getElem?_eq_some_iff.1 hn).1]
    exact hn

/-- The command of the client is handled. -/
theorem Attends.of_handles_self {r : Store.Reply}
    (h : Attends log ((k, c) :: channel) k .waiting) (hnodup : k ∉ channel.map Prod.fst) :
    Attends (log ++ [.handles k c r]) channel k (.answered r) := by
  have hhandled : handledOf (log ++ [.handles k c r]) = handledOf log ++ [(k, c, r)] :=
    handledOf_snoc ..
  cases h with
  | waiting hc h =>
    rename_i c' ahead behind
    cases ahead with
    | nil =>
      obtain ⟨hc, -⟩ := List.cons.inj hc
      cases hc
      refine .answered ?_ (h.snoc (by simp [Event.caller?]))
      rw [hhandled]
      exact List.getElem?_concat_length
    | cons first ahead =>
      obtain ⟨-, rfl⟩ := List.cons.inj hc
      have hmem : (k, c') ∈ ahead ++ (k, c') :: behind :=
        List.mem_append_right _ List.mem_cons_self
      exact absurd (List.mem_map_of_mem hmem) hnodup

section

variable [DecidableEq κ]

theorem Course.of_append_cons {d₀ : Desk κ} {early late : List (Event κ)}
    (h : Course d₀ (early ++ e :: late) d) : ∃ d₁ d₂, Course d₀ early d₁ ∧ Step d₁ e d₂ := by
  generalize hlog : early ++ e :: late = log at h
  induction h generalizing late with
  | start => simp at hlog
  | step hc hs ih =>
    rcases snoc_eq_append_cons hlog.symm with ⟨rfl, rfl, rfl⟩ | ⟨late', rfl, rfl⟩
    · exact ⟨_, _, hc, hs⟩
    · exact ih rfl

theorem Course.trans {d₀ : Desk κ} {log' : List (Event κ)} (h : Course d₀ log d)
    (h' : Course d log' d') : Course d₀ (log ++ log') d' := by
  induction h' with
  | start => rwa [List.append_nil]
  | step _ hs ih => rw [← List.append_assoc]; exact ih.step hs

theorem Serves.step (h : Serves limit log d) (hs : Step d e d') :
    Serves limit (log ++ [e]) d' := by
  cases hs with
  | calls _ | receives _ => exact h.of_unhandled rfl (List.append_nil _).symm h.room rfl
  | sends _ hroom =>
    refine h.of_unhandled rfl rfl ?_ rfl
    rw [List.length_append]
    exact hroom
  | handles hc => exact h.handles hc rfl rfl

theorem serves_of_course (hd : Course (opened κ limit) log d) : Serves limit log d := by
  induction hd with
  | start => exact ⟨rfl, Nat.zero_le _, rfl, rfl, fun h => by cases h⟩
  | step _ hs ih => exact ih.step hs

theorem setStage_stage_of_ne {k k' : κ} (h : k' ≠ k) (stage : Stage) (d : Desk κ) :
    (d.setStage k stage).stage k' = d.stage k' := Function.update_of_ne h ..

theorem setStage_stage_self (k : κ) (stage : Stage) (d : Desk κ) :
    (d.setStage k stage).stage k = stage := Function.update_self ..

/-- A client that is not waiting does something for itself. -/
theorem Attentive.of_caller (h : Attentive log d) (hw : d.stage k ≠ .waiting)
    (he : e.caller? = some k) (hn : handledOf [e] = []) (hs : sentOf [e] = [])
    (ha : Attends (log ++ [e]) d.channel k stage) :
    Attentive (log ++ [e]) (d.setStage k stage) where
  attends k' := by
    by_cases hk : k' = k
    · subst hk
      rw [setStage_stage_self]
      exact ha
    · rw [setStage_stage_of_ne hk]
      refine (h.attends k').of_unhandled hn ?_ (by rw [hs, List.append_nil]; rfl)
      rw [he]
      exact fun hk' => hk (Option.some.inj hk').symm
  nodup := h.nodup
  waiting_of_mem {k'} hmem := by
    have hne : k' ≠ k := fun hk => h.not_mem hw (hk ▸ hmem)
    rw [setStage_stage_of_ne hne]
    exact h.waiting_of_mem hmem

theorem Attentive.sends (h : Attentive log d) (hk : d.stage k = .calling c)
    (hs : Serves limit log d) :
    Attentive (log ++ [.sends k c])
      { d.setStage k .waiting with channel := d.channel ++ [(k, c)] } where
  attends k' := by
    by_cases he : k' = k
    · subst he
      have ha := h.attends k'
      rw [hk] at ha
      rw [setStage_stage_self]
      cases ha with
      | calling ha =>
        have hc : d.channel ++ [(k', c)] = d.channel ++ (k', c) :: [] := rfl
        refine .waiting hc ((ha.snoc (by simp [Event.caller?])).mono ?_)
        rw [handledOf_snoc_of_nil _ rfl, hs.sent, List.length_append, List.length_map]
    · rw [setStage_stage_of_ne he]
      exact (h.attends k').of_unhandled rfl (by simp [Event.caller?]) rfl
  nodup := by
    rw [List.map_append]
    refine List.nodup_append.2 ⟨h.nodup, by simp, ?_⟩
    rintro k₁ h₁ k₂ h₂ rfl
    cases List.mem_singleton.1 h₂
    exact h.not_mem (by rw [hk]; exact nofun) h₁
  waiting_of_mem {k'} hmem := by
    by_cases he : k' = k
    · rw [he, setStage_stage_self]
    · rw [setStage_stage_of_ne he]
      rw [List.map_append, List.mem_append] at hmem
      exact h.waiting_of_mem (hmem.resolve_right fun hm => he (List.mem_singleton.1 hm))

theorem Attentive.handles (h : Attentive log d) (hc : d.channel = (k, c) :: channel)
    (store : Store) (r : Store.Reply) :
    Attentive (log ++ [.handles k c r]) { d.setStage k (.answered r) with store, channel } := by
  have hnodup := h.nodup
  rw [hc, List.map_cons, List.nodup_cons] at hnodup
  refine ⟨fun k' => ?_, hnodup.2, fun {k'} hmem => ?_⟩
  · have ha := h.attends k'
    by_cases he : k' = k
    · subst he
      rw [h.waiting_of_mem (by rw [hc]; exact List.mem_cons_self), hc] at ha
      rw [setStage_stage_self]
      exact ha.of_handles_self hnodup.1
    · rw [hc] at ha
      rw [setStage_stage_of_ne he]
      exact ha.of_handles_other (Ne.symm he)
  · have hne : k' ≠ k := fun hk => hnodup.1 (hk ▸ hmem)
    rw [setStage_stage_of_ne hne]
    refine h.waiting_of_mem ?_
    rw [hc]
    exact List.mem_cons_of_mem _ hmem

theorem Attentive.step (h : Attentive log d) (hl : Serves limit log d) (hs : Step d e d') :
    Attentive (log ++ [e]) d' := by
  cases hs with
  | calls hk =>
    refine h.of_caller (by rw [hk]; exact nofun) rfl rfl rfl (.calling ?_)
    rw [sentOf_snoc_of_nil _ rfl]
    exact called_snoc_calls ..
  | sends hk _ => exact h.sends hk hl
  | handles hc => exact h.handles hc _ _
  | receives hk => exact h.of_caller (by rw [hk]; exact nofun) rfl rfl rfl .idle

theorem attentive_of_course (hd : Course (opened κ limit) log d) : Attentive log d := by
  induction hd with
  | start => exact ⟨fun _ => .idle, List.nodup_nil, fun hmem => absurd hmem List.not_mem_nil⟩
  | step hc hs ih => exact ih.step (serves_of_course hc) hs

/-- Whoever is not idle waits for nothing but turns that can be taken. -/
theorem Attentive.exists_step (h : Attentive log d) (hk : d.stage k ≠ .idle) :
    ∃ e d', Step d e d' ∧ ∀ k c, e ≠ .calls k c := by
  -- a command in the channel can be handled
  have hhandle (hc : d.channel ≠ []) : ∃ e d', Step d e d' ∧ ∀ k c, e ≠ .calls k c := by
    obtain ⟨⟨k', c'⟩, channel, hc⟩ := List.exists_cons_of_ne_nil hc
    exact ⟨_, _, .handles hc, fun _ _ => nofun⟩
  have ha := h.attends k
  cases hs : d.stage k with
  | idle => exact absurd hs hk
  | calling c =>
    by_cases hroom : d.channel.length < Store.commandCapacity
    · exact ⟨_, _, .sends hs hroom, fun _ _ => nofun⟩
    · refine hhandle fun hc => hroom ?_
      rw [hc]
      exact Nat.zero_lt_succ _
  | waiting =>
    rw [hs] at ha
    cases ha with
    | waiting hc _ => exact hhandle (by rw [hc]; simp)
  | answered r => exact ⟨_, _, .receives hs, fun _ _ => nofun⟩

/-- What is received is the reply to the last call, and was given after it. -/
theorem called_of_receives {early late : List (Event κ)} {r : Store.Reply}
    (hd : Course (opened κ limit) (early ++ .receives k r :: late) d) :
    ∃ c n, Called early k c n ∧ (handledOf early)[n]? = some (k, c, r) := by
  obtain ⟨d₁, d₂, hc, hs⟩ := hd.of_append_cons
  have ha := (attentive_of_course hc).attends k
  cases hs with
  | receives hk =>
    rw [hk] at ha
    cases ha with
    | answered hn h => exact ⟨_, _, h, hn⟩

/-- Whatever turns the clients of a desk take: the commands are handled in the order in which they
were sent, and each reply is determined by the last replacement before; a client receives the reply
to its last call, and that command was handled since; nobody waits for a turn that cannot be taken.
A reading of ids is never out of bounds and yields a piece of the list, as long as the limit allows,
and viewports that follow each other over the whole list yield every position once. -/
theorem linearizable_of_course (hd : Course (opened κ limit) log d) :
    (sentOf log = (handledOf log).map (fun h => (h.1, h.2.1)) ++ d.channel ∧
      d.channel.length ≤ Store.commandCapacity ∧
      (handledOf log).map (·.2.2) = (Store.empty limit).replies (commandsOf log)) ∧
    (d.store.entries = Store.lastReplaced (commandsOf log) ∧
      ∀ n k c r, (handledOf log)[n]? = some (k, c, r) →
        r = Store.answer (max 1 limit.toNat) (Store.lastReplaced ((commandsOf log).take n)) c) ∧
    (∀ early k r late, log = early ++ .receives k r :: late →
      ∃ c n, Called early k c n ∧ (handledOf early)[n]? = some (k, c, r)) ∧
    (∀ k, d.stage k ≠ .idle → ∃ e d', Step d e d' ∧ ∀ k c, e ≠ .calls k c) ∧
    (∀ v : Viewport,
      ((v.clamp d.store.limit).indicesWithin d.store.entries.length).1 ≤
        ((v.clamp d.store.limit).indicesWithin d.store.entries.length).2 ∧
      ((v.clamp d.store.limit).indicesWithin d.store.entries.length).2 ≤ d.store.entries.length ∧
      (¬v.width ≤ d.store.limit → v.start.toNat + d.store.limit.toNat < UInt64.size) ∧
      d.store.ids v = Store.idsAt d.store.entries
        (v.positions (max 1 limit.toNat) d.store.entries.length) ∧
      (d.store.ids v).length ≤ max 1 limit.toNat ∧
      d.store.ids v <:+: Store.allIds d.store.entries) ∧
    ∀ vs, Viewport.Tiles (max 1 limit.toNat) 0 vs d.store.entries.length →
      vs.flatMap (Viewport.positions (max 1 limit.toNat) d.store.entries.length) =
        List.range d.store.entries.length ∧
      vs.flatMap d.store.ids = Store.allIds d.store.entries := by
  have hs := serves_of_course hd
  rw [← hs.toNat_limit]
  refine ⟨⟨hs.sent, hs.room, hs.replies⟩, ⟨congrArg Store.entries hs.store, fun n k c r hn => ?_⟩,
    ?_, fun k hk => (attentive_of_course hd).exists_step hk, fun v => ?_, fun vs ht => ?_⟩
  · rw [hs.toNat_limit]
    exact hs.answers hn
  · rintro early k r late rfl
    exact called_of_receives hd
  · exact ⟨(Viewport.indicesWithin_le ..).1, (Viewport.indicesWithin_le ..).2,
      Viewport.add_lt_of_clamp, Store.ids_eq_idsAt .., Store.length_ids_le .., Store.ids_infix ..⟩
  · refine ⟨?_, Store.flatMap_ids ht⟩
    rw [Viewport.flatMap_positions ht, Nat.min_self, Nat.sub_zero, List.range_eq_range']

end

/-- The row of a joined room of which nothing but the id is known. -/
def row (id : String) : Entry := ⟨id, .of (.joined id) none⟩

/-- One client replaces the list while another one asks for more ids than a reading covers, and a
third one for the ids of an inverted viewport. -/
def talk : List (Event (Fin 3)) :=
  [.calls 1 (.ids ⟨1, 18446744073709551615⟩), .calls 0 (.replace [row "a", row "b", row "c"]),
    .sends 0 (.replace [row "a", row "b", row "c"]), .sends 1 (.ids ⟨1, 18446744073709551615⟩),
    .calls 2 (.ids ⟨5, 2⟩), .handles 0 (.replace [row "a", row "b", row "c"]) .done,
    .sends 2 (.ids ⟨5, 2⟩), .handles 1 (.ids ⟨1, 18446744073709551615⟩) (.ids ["b"]),
    .receives 1 (.ids ["b"]), .handles 2 (.ids ⟨5, 2⟩) (.ids []), .receives 0 .done]

theorem exists_course_talk : ∃ d, Course (opened (Fin 3) 0) talk d :=
  ⟨_, (((((((((((Course.start.step (.calls rfl)).step (.calls rfl)).step
    (.sends rfl (by decide))).step (.sends rfl (by decide))).step (.calls rfl)).step
    (.handles rfl)).step (.sends rfl (by decide))).step (.handles rfl)).step (.receives rfl)).step
    (.handles rfl)).step (.receives rfl))⟩

theorem linearizable_of_talk : ∃ d, Course (opened (Fin 3) 0) talk d ∧
    d.store.entries = [row "a", row "b", row "c"] ∧
    (∃ c n, Called (talk.take 8) 1 c n ∧
      (handledOf (talk.take 8))[n]? = some (1, c, .ids ["b"])) ∧
    [⟨0, 1⟩, ⟨1, 2⟩, ⟨2, 3⟩].flatMap d.store.ids = ["a", "b", "c"] := by
  obtain ⟨d, hd⟩ := exists_course_talk
  obtain ⟨-, ⟨he, -⟩, hreceived, -, -, htiles⟩ := linearizable_of_course hd
  have he' : d.store.entries = [row "a", row "b", row "c"] := he
  refine ⟨d, hd, he', hreceived (talk.take 8) 1 (.ids ["b"]) (talk.drop 9) rfl, ?_⟩
  rw [(htiles [⟨0, 1⟩, ⟨1, 2⟩, ⟨2, 3⟩] (by rw [he']; decide)).2, he']
  rfl

end Desk

end LiveRooms
