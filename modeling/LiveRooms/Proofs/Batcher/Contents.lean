import LiveRooms.Batcher

/-!
# What a batcher holds

An item that a batcher took in is in its inbox, pending, in hand or queued until a receiver takes
it.  No move loses, repeats or reorders the items (`contents_of_moves`), as long as nobody closes
the queue.  A batcher that has no move left holds pending items at most, and of these the window is
still open (`contents_of_quiet`, `lt_deadline_of_quiet`).
-/

namespace LiveRooms.Batcher

variable {α : Type} {now : Nat} {b b' : Batcher α} {m : Move}

/-- What each move does, and when it is possible. -/
inductive Moves (now : Nat) (b : Batcher α) : Move → Batcher α → Prop where
  | stop : b.phase = .collecting → b.isCancelled = true →
      Moves now b .stop { b with phase := .finished }
  | giveUp {batch : List α} {isLast : Bool} : b.phase = .handing batch isLast →
      b.isClosed = true → Moves now b .hand { b with phase := .finished }
  | hand {batch : List α} {isLast : Bool} : b.phase = .handing batch isLast →
      b.isClosed = false → b.queue.length < b.capacity →
      Moves now b .hand
        { b with
          queue := b.queue ++ [batch], phase := if isLast then .finished else .collecting }
  | release : b.phase = .collecting → b.pending ≠ [] → b.deadline ≤ now →
      Moves now b .release (b.grasp false)
  | read {items : List α} {inbox : List (List α)} : b.phase = .collecting →
      b.inbox = items :: inbox → Moves now b .read (collect now items { b with inbox })
  | finish : b.phase = .collecting → b.hasEnded = true → b.inbox = [] → b.pending = [] →
      Moves now b .flush { b with phase := .finished }
  | flush : b.phase = .collecting → b.hasEnded = true → b.inbox = [] → b.pending ≠ [] →
      Moves now b .flush (b.grasp true)

theorem moves_of_move? (h : b.move? now m = some b') : Moves now b m b' := by
  unfold move? at h
  split at h
  · cases h
  · rename_i batch isLast hp
    split at h
    · split at h
      · rename_i hc
        cases h
        exact .giveUp hp hc
      · rename_i hc
        split at h
        · rename_i hl
          cases h
          exact .hand hp (Bool.eq_false_iff.2 hc) hl
        · cases h
    · cases h
  · rename_i hp
    split at h
    · split at h
      · rename_i hc
        cases h
        exact .stop hp hc
      · cases h
    · cases h
    · split at h
      · rename_i hr
        cases h
        simp only [Bool.and_eq_true, Bool.not_eq_true', List.isEmpty_eq_false_iff,
          decide_eq_true_eq] at hr
        exact .release hp hr.1 hr.2
      · cases h
    · split at h
      · cases h
      · rename_i items inbox hi
        cases h
        exact .read hp hi
    · split at h
      · rename_i he
        simp only [Bool.and_eq_true, List.isEmpty_iff] at he
        split at h
        · rename_i hn
          cases h
          exact .finish hp he.1 he.2 (List.isEmpty_iff.1 hn)
        · rename_i hn
          cases h
          exact .flush hp he.1 he.2 (mt List.isEmpty_iff.2 hn)
      · cases h

/-! ## Taking an item in -/

@[simp] theorem phase_collect (now : Nat) (items : List α) (b : Batcher α) :
    (collect now items b).phase = b.phase := by unfold collect; split <;> rfl

@[simp] theorem inbox_collect (now : Nat) (items : List α) (b : Batcher α) :
    (collect now items b).inbox = b.inbox := by unfold collect; split <;> rfl

@[simp] theorem queue_collect (now : Nat) (items : List α) (b : Batcher α) :
    (collect now items b).queue = b.queue := by unfold collect; split <;> rfl

@[simp] theorem pending_collect (now : Nat) (items : List α) (b : Batcher α) :
    (collect now items b).pending = b.pending ++ items := by
  unfold collect
  split
  · rename_i h
    rw [List.isEmpty_iff.1 h, List.append_nil]
  · rfl

/-- What no move changes: the settings of a batcher and what others told it. -/
structure SameOutside (b b' : Batcher α) : Prop where
  window : b'.window = b.window
  capacity : b'.capacity = b.capacity
  hasEnded : b'.hasEnded = b.hasEnded
  isCancelled : b'.isCancelled = b.isCancelled
  isClosed : b'.isClosed = b.isClosed

theorem sameOutside_of_moves (h : Moves now b m b') : SameOutside b b' := by
  cases h with
  | read hp hi => unfold collect; split <;> exact ⟨rfl, rfl, rfl, rfl, rfl⟩
  | _ => exact ⟨rfl, rfl, rfl, rfl, rfl⟩

/-! ## Nothing is lost -/

/-- The batch in hand. -/
def Phase.inHand : Phase α → List α
  | .handing batch _ => batch
  | .collecting | .finished => []

/-- The items that a batcher holds, in the order in which they came. -/
def contents (b : Batcher α) : List α :=
  b.queue.flatten ++ b.phase.inHand ++ b.pending ++ b.inbox.flatten

/-- What is true of a batcher at any time: with a batch in hand nothing is pending, the last batch
is taken in hand when all is read, and one that finished of itself holds nothing back. -/
structure Sound (b : Batcher α) : Prop where
  pending_of_handing (batch : List α) (isLast : Bool) :
    b.phase = .handing batch isLast → b.pending = []
  read_of_last (batch : List α) : b.phase = .handing batch true → b.hasEnded = true ∧ b.inbox = []
  read_of_finished : b.phase = .finished → b.isCancelled = false → b.isClosed = false →
    b.hasEnded = true ∧ b.inbox = [] ∧ b.pending = []

theorem Sound.of_collecting (hp : b.phase = .collecting) : b.Sound := by
  constructor <;> intros <;> simp_all

theorem Sound.of_handing {batch : List α} {isLast : Bool} (hp : b.phase = .handing batch isLast)
    (hn : b.pending = []) (hl : isLast = true → b.hasEnded = true ∧ b.inbox = []) : b.Sound := by
  constructor <;> intros <;> simp_all

theorem Sound.of_finished (hp : b.phase = .finished)
    (hr : b.isCancelled = false → b.isClosed = false →
      b.hasEnded = true ∧ b.inbox = [] ∧ b.pending = []) : b.Sound := by
  constructor <;> intros <;> simp_all

/-- A move neither loses nor repeats nor reorders items while the queue is open. -/
theorem contents_of_moves (h : Moves now b m b') (hs : b.Sound) (hc : b.isClosed = false) :
    b'.contents = b.contents := by
  cases h with
  | stop hp | finish hp => simp [contents, hp, Phase.inHand]
  | giveUp hp hclosed =>
    rw [hc] at hclosed
    cases hclosed
  | @hand batch isLast hp hclosed hl =>
    have hn := hs.pending_of_handing batch isLast hp
    cases isLast <;> simp [contents, hp, hn, Phase.inHand]
  | release hp | flush hp => simp [contents, grasp, hp, Phase.inHand]
  | read hp hi => simp [contents, hp, hi, Phase.inHand]

theorem sound_of_moves (h : Moves now b m b') (hs : b.Sound) : b'.Sound := by
  cases h with
  | stop hp hc => exact .of_finished rfl fun hn => absurd hc (by simp_all)
  | giveUp hp hc => exact .of_finished rfl fun _ hn => absurd hc (by simp_all)
  | @hand batch isLast hp hc hl =>
    cases isLast with
    | false => exact .of_collecting rfl
    | true =>
      obtain ⟨he, hi⟩ := hs.read_of_last batch hp
      exact .of_finished rfl fun _ _ => ⟨he, hi, hs.pending_of_handing batch true hp⟩
  | release hp hn hd => exact .of_handing rfl rfl fun h => by cases h
  | read hp hi => exact .of_collecting (by rw [phase_collect, hp])
  | finish hp he hi hn => exact .of_finished rfl fun _ _ => ⟨he, hi, hn⟩
  | flush hp he hi hn => exact .of_handing rfl rfl fun _ => ⟨he, hi⟩

theorem phase_ne_finished_of_moves (h : Moves now b m b') : b.phase ≠ .finished := by
  intro hf
  cases h with
  | giveUp hp | hand hp | stop hp | release hp | read hp | finish hp | flush hp =>
    rw [hf] at hp
    cases hp

/-! ## What others do -/

theorem contents_push (items : List α) (he : b.hasEnded = false) (hf : b.phase ≠ .finished) :
    (b.push items).1.contents = b.contents ++ items := by
  have hf' : b.isFinished = false := by
    unfold isFinished
    split
    · rename_i hp
      exact absurd hp hf
    · rfl
  simp [push, he, hf', contents]

theorem push_of_finished (items : List α) (hf : b.phase = .finished) : (b.push items).1 = b := by
  simp [push, isFinished, hf]

theorem sound_push (items : List α) (hs : b.Sound) : (b.push items).1.Sound := by
  unfold push
  split
  · exact hs
  · rename_i h
    rw [Bool.not_eq_true, Bool.or_eq_false_iff] at h
    refine ⟨hs.pending_of_handing, ?_, ?_⟩
    · intro batch hp
      rw [(hs.read_of_last batch hp).1] at h
      cases h.1
    · intro hp
      rw [isFinished, hp] at h
      cases h.2

theorem sameOutside_push (items : List α) (b : Batcher α) : SameOutside b (b.push items).1 := by
  unfold push
  split <;> exact ⟨rfl, rfl, rfl, rfl, rfl⟩

theorem sound_finishStream (hs : b.Sound) : b.finishStream.Sound := by
  refine ⟨hs.pending_of_handing, ?_, ?_⟩
  · intro batch hp
    exact ⟨rfl, (hs.read_of_last batch hp).2⟩
  · intro hp hn hc
    exact ⟨rfl, (hs.read_of_finished hp hn hc).2⟩

theorem sound_cancel (hs : b.Sound) : b.cancel.Sound :=
  ⟨hs.pending_of_handing, hs.read_of_last, fun _ hn => by cases hn⟩

/-! ## The window -/

/-- The window of the pending items, if there are any, closes at `limit` at the latest. -/
def ClosesBy (limit : Nat) (b : Batcher α) : Prop := b.pending ≠ [] → b.deadline ≤ limit

theorem ClosesBy.mono {limit limit' : Nat} (h : b.ClosesBy limit) (hl : limit ≤ limit') :
    b.ClosesBy limit' := fun hp => Nat.le_trans (h hp) hl

theorem closesBy_push {limit : Nat} (items : List α) (h : b.ClosesBy limit) :
    (b.push items).1.ClosesBy limit := by
  unfold push
  split <;> exact h

/-- A window that opens now closes when its time is over. -/
theorem closesBy_collect {limit : Nat} (items : List α) (h : b.ClosesBy limit)
    (hl : now + b.window ≤ limit) : (collect now items b).ClosesBy limit := by
  intro hp
  unfold collect at hp ⊢
  split
  · rename_i hi
    rw [if_pos hi] at hp
    exact h hp
  · dsimp only
    split
    · exact hl
    · rename_i hn
      exact h (mt List.isEmpty_iff.2 hn)

theorem closesBy_of_moves (h : Moves now b m b') (hb : b.ClosesBy (now + b.window)) :
    b'.ClosesBy (now + b.window) := by
  cases h with
  | release | flush => exact fun hp => absurd rfl hp
  | @read items inbox hp hi =>
    exact closesBy_collect (b := { b with inbox }) items hb (Nat.le_refl _)
  | stop | giveUp | hand | finish => exact hb

/-- When nothing is left to read, moves open no window. -/
theorem closesBy_of_moves_of_inbox {limit : Nat} (h : Moves now b m b') (hi : b.inbox = [])
    (hb : b.ClosesBy limit) : b'.inbox = [] ∧ b'.ClosesBy limit := by
  cases h with
  | release | flush => exact ⟨hi, fun hp => absurd rfl hp⟩
  | read hp hi' =>
    rw [hi] at hi'
    cases hi'
  | stop | giveUp | hand | finish => exact ⟨hi, hb⟩

/-! ## Without a move left -/

/-- A batcher with room in its queue that has no move left and was not told to stop has read
everything and has no batch in hand. -/
theorem inbox_of_quiet (hq : ∀ m, b.move? now m = none) (hs : b.Sound)
    (hn : b.isCancelled = false) (hc : b.isClosed = false) (hr : b.queue.length < b.capacity) :
    b.inbox = [] ∧ b.phase.inHand = [] := by
  cases hp : b.phase with
  | finished => exact ⟨(hs.read_of_finished hp hn hc).2.1, rfl⟩
  | handing batch isLast =>
    have := hq .hand
    simp [move?, hp, hc, hr] at this
  | collecting =>
    refine ⟨?_, rfl⟩
    cases hi : b.inbox with
    | nil => rfl
    | cons items inbox =>
      have := hq .read
      simp [move?, hp, hi] at this

/-- A batcher without a queue, a move left or an order to stop holds its pending items. -/
theorem contents_of_quiet (hq : ∀ m, b.move? now m = none) (hs : b.Sound)
    (hn : b.isCancelled = false) (hc : b.isClosed = false) (he : b.queue = [])
    (hr : 0 < b.capacity) : b.contents = b.pending := by
  obtain ⟨hi, hh⟩ := inbox_of_quiet hq hs hn hc (by rw [he]; exact hr)
  simp [contents, he, hi, hh]

theorem lt_deadline_of_collecting (hq : ∀ m, b.move? now m = none) (hph : b.phase = .collecting)
    (hp : b.pending ≠ []) : now < b.deadline := by
  have := hq .release
  simpa [move?, hph, hp] using this

/-- The window of the items that a batcher without a move left holds is open. -/
theorem lt_deadline_of_quiet (hq : ∀ m, b.move? now m = none) (hs : b.Sound)
    (hn : b.isCancelled = false) (hc : b.isClosed = false) (hp : b.pending ≠ []) :
    now < b.deadline := by
  cases hph : b.phase with
  | finished => exact absurd (hs.read_of_finished hph hn hc).2.2 hp
  | handing batch isLast => exact absurd (hs.pending_of_handing batch isLast hph) hp
  | collecting => exact lt_deadline_of_collecting hq hph hp

end LiveRooms.Batcher
