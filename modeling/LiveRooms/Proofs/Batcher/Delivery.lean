import LiveRooms.Proofs.Batcher.Contents
import LiveRooms.Proofs.Batcher.Course

/-!
# What a batcher delivers

Whatever is done to a batcher, and whenever it moves, the batches that it gives out are a beginning
of what it accepted, in order.  Items are lost in one way alone: a queue that is closed gets no
batch any more, and a batcher that was told to stop reads no more.  The two together are the
invariant `Delivers`.
-/

namespace LiveRooms.Batcher

variable {α : Type}

/-- The items that are accepted at a moment. -/
def Moment.accepted (m : Moment α) : List α :=
  match m.cause with
  | .action (.push items) => if (m.before.push items).2 then items else []
  | _ => []

/-- The batches that a receiver takes at a moment. -/
def Moment.received (m : Moment α) : List (List α) :=
  match m.cause with
  | .action .receive =>
    match m.before.receive.2 with
    | .batch items => [items]
    | .empty | .closed => []
  | _ => []

/-- All items that were accepted, in order. -/
def accepted (log : List (Moment α)) : List α := log.flatMap Moment.accepted

/-- All batches that were received, in order. -/
def received (log : List (Moment α)) : List (List α) := log.flatMap Moment.received

def Action.items : Action α → List α
  | .push items => items
  | _ => []

/-- The items that are sent before the end of the stream. -/
def sent : List (Action α) → List α
  | [] => []
  | .finishStream :: _ => []
  | a :: actions => a.items ++ sent actions

variable {log : List (Moment α)} {t : Timeline (Batcher α)} {b b' : Batcher α} {m : Move}
  {window capacity now : Nat}

theorem accepted_snoc (log : List (Moment α)) (m : Moment α) :
    accepted (log ++ [m]) = accepted log ++ m.accepted := by
  rw [accepted, List.flatMap_append, List.flatMap_singleton, accepted]

theorem received_snoc (log : List (Moment α)) (m : Moment α) :
    received (log ++ [m]) = received log ++ m.received := by
  rw [received, List.flatMap_append, List.flatMap_singleton, received]

theorem sent_append_of_ended {actions : List (Action α)} (h : .finishStream ∈ actions)
    (later : List (Action α)) : sent (actions ++ later) = sent actions := by
  induction actions with
  | nil => cases h
  | cons a actions ih =>
    cases a with
    | finishStream => rfl
    | _ =>
      have hm : Action.finishStream ∈ actions := by simpa using h
      simp only [List.cons_append, sent, ih hm]

theorem sent_append {actions : List (Action α)} (h : .finishStream ∉ actions)
    (later : List (Action α)) : sent (actions ++ later) = sent actions ++ sent later := by
  induction actions with
  | nil => rfl
  | cons a actions ih =>
    cases a with
    | finishStream => simp at h
    | _ =>
      have hm : Action.finishStream ∉ actions := by simpa using h
      simp only [List.cons_append, sent, ih hm, List.append_assoc]

/-! ## Single changes -/

theorem queue_of_moves (h : Moves now b m b') :
    b'.queue = b.queue ∨ ∃ batch isLast, b.phase = .handing batch isLast ∧ b.isClosed = false ∧
      b.queue.length < b.capacity ∧ b'.queue = b.queue ++ [batch] := by
  cases h with
  | hand hp hc hl => exact Or.inr ⟨_, _, hp, hc, hl, rfl⟩
  | read hp hi => exact Or.inl (queue_collect ..)
  | _ => exact Or.inl rfl

/-- A batch that is taken in hand consists of the pending items. -/
theorem handing_of_moves {batch : List α} {isLast : Bool} (h : Moves now b m b')
    (hp : b'.phase = .handing batch isLast) : batch = b.pending ∧ b.pending ≠ [] := by
  cases h with
  | release _ hn | flush _ _ _ hn =>
    cases hp
    exact ⟨rfl, hn⟩
  | @hand batch' isLast' _ _ _ => cases isLast' <;> cases hp
  | read hc =>
    rw [phase_collect, hc] at hp
    cases hp
  | stop | giveUp | finish => cases hp

theorem queue_prefix_contents (b : Batcher α) : b.queue.flatten <+: b.contents := by
  rw [contents, List.append_assoc, List.append_assoc]
  exact List.prefix_append ..

/-- An item is accepted before the end of the stream unless the batcher has finished. -/
theorem push_cases (items : List α) (b : Batcher α) :
    (b.push items = (b, false) ∧ (b.hasEnded = true ∨ b.phase = .finished)) ∨
      (b.push items).2 = true ∧ b.hasEnded = false ∧ b.phase ≠ .finished := by
  unfold push
  cases he : b.hasEnded with
  | true => exact Or.inl ⟨rfl, Or.inl rfl⟩
  | false =>
    cases hp : b.phase with
    | finished => exact Or.inl ⟨by simp [isFinished, hp], Or.inr rfl⟩
    | _ => exact Or.inr ⟨by simp [isFinished, hp], rfl, by simp⟩

theorem receive_cases (b : Batcher α) :
    (b.receive.1 = b ∧ ∀ batch, b.receive.2 ≠ .batch batch) ∨
      ∃ batch queue, b.queue = batch :: queue ∧ b.receive = ({ b with queue }, .batch batch) := by
  unfold receive
  cases hq : b.queue with
  | nil =>
    refine Or.inl ⟨rfl, fun batch => ?_⟩
    dsimp only
    split <;> simp
  | cons batch queue => exact Or.inr ⟨batch, queue, rfl, rfl⟩

/-! ## The invariant -/

/-- What is true of a batcher after some actions, when the items `accepted` were accepted and the
batches `received` were received. -/
structure Delivers (capacity : Nat) (actions : List (Action α)) (accepted : List α)
    (received : List (List α)) (b : Batcher α) : Prop where
  sound : b.Sound
  capacity_eq : b.capacity = capacity
  queue_le : b.queue.length ≤ capacity
  closed : b.isClosed = true → .close ∈ actions
  cancelled : b.isCancelled = true → .cancel ∈ actions
  ended : b.hasEnded = true ↔ .finishStream ∈ actions
  ne_nil (batch : List α) : batch ∈ received ++ b.queue → batch ≠ []
  ne_nil_of_handing (batch : List α) (isLast : Bool) : b.phase = .handing batch isLast → batch ≠ []
  isPrefix : (received ++ b.queue).flatten <+: accepted
  contents_eq : b.isClosed = false → received.flatten ++ b.contents = accepted
  accepted_eq : .close ∉ actions → .cancel ∉ actions → accepted = sent actions

theorem delivers_origin (window capacity : Nat) :
    Delivers capacity [] [] [] (origin (α := α) window capacity).state where
  sound := .of_collecting rfl
  capacity_eq := rfl
  queue_le := Nat.zero_le _
  closed h := by cases h
  cancelled h := by cases h
  ended := by simp [origin]
  ne_nil batch hb := by cases hb
  ne_nil_of_handing batch isLast hp := by cases hp
  isPrefix := List.nil_prefix
  contents_eq _ := rfl
  accepted_eq _ _ := rfl

namespace Delivers

variable {actions : List (Action α)} {accepted : List α} {received : List (List α)}

theorem isClosed_eq (h : Delivers capacity actions accepted received b) (hc : .close ∉ actions) :
    b.isClosed = false := by
  rw [← Bool.not_eq_true]
  exact fun hx => hc (h.closed hx)

theorem isCancelled_eq (h : Delivers capacity actions accepted received b)
    (hc : .cancel ∉ actions) : b.isCancelled = false := by
  rw [← Bool.not_eq_true]
  exact fun hx => hc (h.cancelled hx)

/-- Without a close and an order to stop, a batcher finishes at the end of the stream only. -/
theorem read_of_finished (h : Delivers capacity actions accepted received b)
    (hc : .close ∉ actions) (hn : .cancel ∉ actions) (hf : b.phase = .finished) :
    b.hasEnded = true ∧ b.inbox = [] ∧ b.pending = [] :=
  h.sound.read_of_finished hf (h.isCancelled_eq hn) (h.isClosed_eq hc)

theorem move (h : Delivers capacity actions accepted received b) (hm : Moves now b m b') :
    Delivers capacity actions accepted received b' := by
  have ho := sameOutside_of_moves hm
  have hk : b'.isClosed = false → received.flatten ++ b'.contents = accepted := by
    intro hc
    rw [ho.isClosed] at hc
    rw [contents_of_moves hm h.sound hc, h.contents_eq hc]
  have hh : ∀ batch isLast, b'.phase = .handing batch isLast → batch ≠ [] := by
    intro batch isLast hp
    obtain ⟨rfl, hn⟩ := handing_of_moves hm hp
    exact hn
  have hq : b'.queue.length ≤ capacity ∧ (∀ batch ∈ received ++ b'.queue, batch ≠ []) ∧
      (received ++ b'.queue).flatten <+: accepted := by
    rcases queue_of_moves hm with hq | ⟨batch, isLast, hp, hc, hl, hq⟩
    · rw [hq]
      exact ⟨h.queue_le, h.ne_nil, h.isPrefix⟩
    · refine ⟨?_, ?_, ?_⟩
      · rw [hq, List.length_append, List.length_singleton, ← h.capacity_eq]
        exact hl
      · intro batch' hb
        rw [hq, ← List.append_assoc, List.mem_append, List.mem_singleton] at hb
        rcases hb with hb | rfl
        · exact h.ne_nil batch' hb
        · exact h.ne_nil_of_handing _ _ hp
      · rw [← hk (ho.isClosed.trans hc), List.flatten_append]
        exact List.prefix_append_right_inj _ |>.2 (queue_prefix_contents b')
  exact {
    sound := sound_of_moves hm h.sound
    capacity_eq := ho.capacity.trans h.capacity_eq
    queue_le := hq.1
    closed := fun hx => h.closed (ho.isClosed ▸ hx)
    cancelled := fun hx => h.cancelled (ho.isCancelled ▸ hx)
    ended := ho.hasEnded ▸ h.ended
    ne_nil := hq.2.1
    ne_nil_of_handing := hh
    isPrefix := hq.2.2
    contents_eq := hk
    accepted_eq := h.accepted_eq }

/-- One more action after which nothing was accepted. -/
theorem sent_snoc {a : Action α} (h : Delivers capacity actions accepted received b)
    (ha : a.items = [] ∨ b.hasEnded = true) (hc : .close ∉ actions ++ [a])
    (hn : .cancel ∉ actions ++ [a]) : accepted = sent (actions ++ [a]) := by
  simp only [List.mem_append, not_or] at hc hn
  rw [h.accepted_eq hc.1 hn.1]
  by_cases he : .finishStream ∈ actions
  · rw [sent_append_of_ended he]
  · rw [sent_append he]
    rcases ha with ha | ha
    · cases a <;> simp_all [sent]
    · exact absurd (h.ended.1 ha) he

theorem push (h : Delivers capacity actions accepted received b) (items : List α) :
    Delivers capacity (actions ++ [.push items])
      (accepted ++ if (b.push items).2 then items else []) received (b.push items).1 := by
  have hs := sound_push items h.sound
  have ho := sameOutside_push items b
  have hcl : ∀ {a : Action α}, a ∈ actions → a ∈ actions ++ [.push items] :=
    fun hm => List.mem_append_left _ hm
  have hend : (b.push items).1.hasEnded = true ↔ .finishStream ∈ actions ++ [.push items] := by
    rw [ho.hasEnded, h.ended]
    simp
  have hbase : (b.push items).1.queue = b.queue ∧ (b.push items).1.phase = b.phase := by
    unfold Batcher.push
    split <;> exact ⟨rfl, rfl⟩
  refine {
    sound := hs
    capacity_eq := ho.capacity.trans h.capacity_eq
    queue_le := hbase.1 ▸ h.queue_le
    closed := fun hx => hcl (h.closed (ho.isClosed ▸ hx))
    cancelled := fun hx => hcl (h.cancelled (ho.isCancelled ▸ hx))
    ended := hend
    ne_nil := hbase.1 ▸ h.ne_nil
    ne_nil_of_handing := hbase.2 ▸ h.ne_nil_of_handing
    isPrefix := hbase.1 ▸ h.isPrefix.trans (List.prefix_append ..)
    contents_eq := ?_
    accepted_eq := ?_ }
  · intro hc
    have hk := h.contents_eq (ho.isClosed ▸ hc)
    rcases push_cases items b with ⟨hp, -⟩ | ⟨hp, he, hf⟩
    · rw [hp, if_neg Bool.false_ne_true, List.append_nil]
      exact hk
    · rw [contents_push items he hf, hp, if_pos rfl, ← List.append_assoc, hk]
  · intro hc hn
    have hc' : .close ∉ actions := fun hx => hc (hcl hx)
    have hn' : .cancel ∉ actions := fun hx => hn (hcl hx)
    rcases push_cases items b with ⟨hp, he⟩ | ⟨hp, he, -⟩
    · have he : b.hasEnded = true :=
        he.elim id fun hf => (h.read_of_finished hc' hn' hf).1
      rw [hp, if_neg Bool.false_ne_true, List.append_nil]
      exact h.sent_snoc (Or.inr he) hc hn
    · have hne : .finishStream ∉ actions := by
        rw [← h.ended, he]
        exact Bool.false_ne_true
      rw [hp, if_pos rfl, sent_append hne, h.accepted_eq hc' hn']
      simp [sent, Action.items]

/-- Waiting or taking a batch is one more action and tells the batcher nothing. -/
theorem snoc {a : Action α} (h : Delivers capacity actions accepted received b)
    (ha : a = .receive ∨ ∃ ms, a = .wait ms) :
    Delivers capacity (actions ++ [a]) accepted received b where
  sound := h.sound
  capacity_eq := h.capacity_eq
  queue_le := h.queue_le
  closed hx := List.mem_append_left _ (h.closed hx)
  cancelled hx := List.mem_append_left _ (h.cancelled hx)
  ended := by
    rw [h.ended]
    rcases ha with rfl | ⟨ms, rfl⟩ <;> simp
  ne_nil := h.ne_nil
  ne_nil_of_handing := h.ne_nil_of_handing
  isPrefix := h.isPrefix
  contents_eq := h.contents_eq
  accepted_eq := h.sent_snoc (Or.inl (by rcases ha with rfl | ⟨ms, rfl⟩ <;> rfl))

theorem take {batch : List α} {queue : List (List α)}
    (h : Delivers capacity actions accepted received b) (hq : b.queue = batch :: queue) :
    Delivers capacity actions accepted (received ++ [batch]) { b with queue } := by
  have hr : received ++ [batch] ++ queue = received ++ b.queue := by
    rw [hq, List.append_assoc, List.singleton_append]
  exact {
    sound := ⟨h.sound.1, h.sound.2, h.sound.3⟩
    capacity_eq := h.capacity_eq
    queue_le := Nat.le_trans (by rw [hq]; exact Nat.le_succ _) h.queue_le
    closed := h.closed
    cancelled := h.cancelled
    ended := h.ended
    ne_nil := hr ▸ h.ne_nil
    ne_nil_of_handing := h.ne_nil_of_handing
    isPrefix := hr ▸ h.isPrefix
    contents_eq := fun hc => by
      rw [← h.contents_eq hc]
      simp [contents, hq]
    accepted_eq := h.accepted_eq }

theorem close (h : Delivers capacity actions accepted received b) :
    Delivers capacity (actions ++ [.close]) accepted received b.close where
  sound := ⟨h.sound.1, h.sound.2, fun _ _ hc => by cases hc⟩
  capacity_eq := h.capacity_eq
  queue_le := h.queue_le
  closed _ := List.mem_append_right _ (List.mem_singleton_self _)
  cancelled hx := List.mem_append_left _ (h.cancelled hx)
  ended := h.ended.trans (by simp)
  ne_nil := h.ne_nil
  ne_nil_of_handing := h.ne_nil_of_handing
  isPrefix := h.isPrefix
  contents_eq hc := by cases hc
  accepted_eq hc := absurd (List.mem_append_right _ (List.mem_singleton_self _)) hc

theorem cancel (h : Delivers capacity actions accepted received b) :
    Delivers capacity (actions ++ [.cancel]) accepted received b.cancel where
  sound := sound_cancel h.sound
  capacity_eq := h.capacity_eq
  queue_le := h.queue_le
  closed hx := List.mem_append_left _ (h.closed hx)
  cancelled _ := List.mem_append_right _ (List.mem_singleton_self _)
  ended := h.ended.trans (by simp)
  ne_nil := h.ne_nil
  ne_nil_of_handing := h.ne_nil_of_handing
  isPrefix := h.isPrefix
  contents_eq := h.contents_eq
  accepted_eq _ hn := absurd (List.mem_append_right _ (List.mem_singleton_self _)) hn

theorem finishStream (h : Delivers capacity actions accepted received b) :
    Delivers capacity (actions ++ [.finishStream]) accepted received b.finishStream where
  sound := sound_finishStream h.sound
  capacity_eq := h.capacity_eq
  queue_le := h.queue_le
  closed hx := List.mem_append_left _ (h.closed hx)
  cancelled hx := List.mem_append_left _ (h.cancelled hx)
  ended := by simp [Batcher.finishStream]
  ne_nil := h.ne_nil
  ne_nil_of_handing := h.ne_nil_of_handing
  isPrefix := h.isPrefix
  contents_eq := h.contents_eq
  accepted_eq := h.sent_snoc (Or.inl rfl)

/-- What an action does to a batcher fits what it adds to the log. -/
theorem action (h : Delivers capacity actions accepted received b) (a : Action α) :
    Delivers capacity (actions ++ [a]) (accepted ++ Moment.accepted ⟨now, b, .action a⟩)
      (received ++ Moment.received ⟨now, b, .action a⟩) (a.effect b) := by
  cases a with
  | push items =>
    show Delivers _ _ _ (received ++ []) _
    rw [List.append_nil]
    exact h.push items
  | receive =>
    show Delivers _ _ (accepted ++ []) _ _
    rw [List.append_nil]
    rcases receive_cases b with ⟨hb, hn⟩ | ⟨batch, queue, hq, hb⟩
    · have hr : Moment.received ⟨now, b, .action .receive⟩ = [] := by
        unfold Moment.received
        dsimp only
        split
        · rename_i items hx
          exact absurd hx (hn items)
        all_goals rfl
      rw [Action.effect, hb, hr, List.append_nil]
      exact h.snoc (Or.inl rfl)
    · have hr : Moment.received ⟨now, b, .action .receive⟩ = [batch] := by
        simp [Moment.received, hb]
      rw [Action.effect, hb, hr]
      exact (h.snoc (Or.inl rfl)).take hq
  | wait ms =>
    simpa [Moment.accepted, Moment.received, Action.effect] using h.snoc (Or.inr ⟨ms, rfl⟩)
  | close => simpa [Moment.accepted, Moment.received, Action.effect] using h.close
  | cancel => simpa [Moment.accepted, Moment.received, Action.effect] using h.cancel
  | finishStream => simpa [Moment.accepted, Moment.received, Action.effect] using h.finishStream

end Delivers

theorem delivers_of_course (hc : Course (origin window capacity) log t) :
    Delivers capacity (actionsOf log) (accepted log) (received log) t.state := by
  induction hc with
  | start => exact delivers_origin window capacity
  | wait later _ hl ih => exact ih
  | action a _ ih =>
    rw [actionsOf_snoc_action, accepted_snoc, received_snoc]
    exact ih.action a
  | move m _ hm ih =>
    have hn : ∀ (time : Nat) (b : Batcher α), Moment.accepted ⟨time, b, .move m⟩ = [] ∧
        Moment.received ⟨time, b, .move m⟩ = [] := fun _ _ => ⟨rfl, rfl⟩
    rw [actionsOf_snoc_move, accepted_snoc, received_snoc, (hn _ _).1, (hn _ _).2,
      List.append_nil, List.append_nil]
    exact ih.move (moves_of_move? hm)

/-- In every course the batches received so far and those still queued are a beginning of what was
accepted.  None of them is empty, and the queue is never longer than its capacity.  As long as
nobody closed the queue or told the batcher to stop, these batches, the one in hand, the pending
items and those not read are all that was accepted; and a batcher that then finishes, at the end of
the stream, has delivered all that was sent before that end. -/
theorem delivery_of_course (hc : Course (origin window capacity) log t) :
    (received log ++ t.state.queue).flatten <+: accepted log ∧
      ((∀ batch ∈ received log ++ t.state.queue, batch ≠ []) ∧
        t.state.queue.length ≤ capacity) ∧
      (.close ∉ actionsOf log → .cancel ∉ actionsOf log →
        (received log ++ t.state.queue).flatten ++ t.state.phase.inHand ++ t.state.pending ++
          t.state.inbox.flatten = accepted log) ∧
      (.finishStream ∈ actionsOf log → .close ∉ actionsOf log → .cancel ∉ actionsOf log →
        t.state.isFinished = true →
          (received log ++ t.state.queue).flatten = accepted log ∧
            accepted log = sent (actionsOf log)) := by
  have h := delivers_of_course hc
  have hall : .close ∉ actionsOf log → (received log ++ t.state.queue).flatten ++
      t.state.phase.inHand ++ t.state.pending ++ t.state.inbox.flatten = accepted log := by
    intro hcl
    rw [← h.contents_eq (h.isClosed_eq hcl), contents, List.flatten_append]
    simp only [List.append_assoc]
  refine ⟨h.isPrefix, ⟨h.ne_nil, h.queue_le⟩, fun hcl _ => hall hcl, ?_⟩
  intro _ hcl hn hf
  have hp : t.state.phase = .finished := by
    unfold isFinished at hf
    split at hf
    · assumption
    · cases hf
  obtain ⟨-, hi, hpend⟩ := h.read_of_finished hcl hn hp
  refine ⟨?_, h.accepted_eq hcl hn⟩
  rw [← hall hcl, hp, hi, hpend]
  simp [Phase.inHand]

/-- A queue with room for one batch makes the batcher wait; at the end of the stream it still
delivers everything. -/
theorem delivery_after_waiting : ∃ log t, Course (origin (α := Nat) 10 1) log t ∧
    actionsOf log = [.push [1, 2], .push [3], .receive, .finishStream, .push [4], .receive] ∧
    t.state.isFinished = true ∧ (received log ++ t.state.queue).flatten = [1, 2, 3] := by
  have h₀ : Course (origin (α := Nat) 10 1) [] _ := .start
  have h₁ := ((h₀.action (.push [1, 2])).move .read rfl).wait 10 (Nat.zero_le 10)
  have h₂ := (h₁.move .release rfl).move .hand rfl
  have h₃ := ((h₂.action (.push [3])).move .read rfl).wait 20 (Nat.le_add_right 10 10)
  have h₄ := ((h₃.move .release rfl).action .receive).move .hand rfl
  have h₅ := ((h₄.action .finishStream).move .flush rfl).action (.push [4])
  have h₆ := h₅.action .receive
  obtain ⟨-, -, -, hd⟩ := delivery_of_course h₆
  exact ⟨_, _, h₆, rfl, rfl, (hd (by decide) (by decide) (by decide) rfl).1⟩

end LiveRooms.Batcher
