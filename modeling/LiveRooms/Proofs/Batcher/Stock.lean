import LiveRooms.Proofs.Batcher.Contents

/-!
# What a batcher will do at once

In whatever order a batcher makes its moves at one instant, the items that leave it then are the
same, and so are those that stay pending and the time for which they stay.  Both can be told from
what it holds (`Stock.due`, `Stock.settle`), and no move changes them (`due_of_moves`,
`settle_of_moves`).
-/

namespace LiveRooms

/-- What a batcher holds. -/
structure Stock (α : Type) where
  window : Nat
  /-- Items on their way out. -/
  ready : List α := []
  pending : List α := []
  /-- When the window of the pending items closes; zero without any. -/
  deadline : Nat := 0
  /-- Items that were not read. -/
  fresh : List α := []
  hasEnded : Bool := false
  deriving DecidableEq, Repr

namespace Stock

variable {α : Type} {s : Stock α} {now later target : Nat}

/-- The items that were not taken in hand. -/
def held (s : Stock α) : List α := s.pending ++ s.fresh

/-- Whether all items leave at once. -/
def isDue (now : Nat) (s : Stock α) : Bool :=
  s.hasEnded || s.window == 0 || !s.pending.isEmpty && s.deadline ≤ now

/-- The items that leave at once. -/
def due (now : Nat) (s : Stock α) : List α := s.ready ++ if s.isDue now then s.held else []

/-- What is left when they have. -/
def settle (now : Nat) (s : Stock α) : Stock α :=
  if s.isDue now || s.held.isEmpty then { window := s.window, hasEnded := s.hasEnded }
  else
    { window := s.window
      hasEnded := s.hasEnded
      pending := s.held
      deadline := if s.pending.isEmpty then now + s.window else s.deadline }

/-- Takes an item in, unless the stream has ended. -/
def push (items : List α) (s : Stock α) : Stock α :=
  if s.hasEnded then s else { s with fresh := s.fresh ++ items }

/-- Ends the stream. -/
def finishStream (s : Stock α) : Stock α := { s with hasEnded := true }

/-- Nothing happens at once, and nothing before the window of the pending items closes. -/
structure RestsAt (now : Nat) (s : Stock α) : Prop where
  ready : s.ready = []
  fresh : s.fresh = []
  deadline : s.pending = [] → s.deadline = 0
  waits : s.pending ≠ [] → s.hasEnded = false ∧ s.window ≠ 0 ∧ now < s.deadline

theorem isDue_of_pending_eq_nil (h : s.pending = []) :
    s.isDue now = (s.hasEnded || s.window == 0) := by
  simp [isDue, h]

theorem isDue_eq_false_of (he : s.hasEnded = false) (hw : s.window ≠ 0) (hd : now < s.deadline) :
    s.isDue now = false := by
  simp [isDue, he, hw, hd]

theorem settle_of_isDue (h : (s.isDue now || s.held.isEmpty) = true) :
    s.settle now = { window := s.window, hasEnded := s.hasEnded } := if_pos h

theorem settle_of_not_isDue (h : s.isDue now = false) (hs : s.held ≠ []) :
    s.settle now =
      { window := s.window
        hasEnded := s.hasEnded
        pending := s.held
        deadline := if s.pending.isEmpty then now + s.window else s.deadline } :=
  if_neg (by simp [h, hs])

theorem restsAt_blank (window : Nat) (hasEnded : Bool) (now : Nat) :
    RestsAt now ({ window, hasEnded } : Stock α) := ⟨rfl, rfl, fun _ => rfl, fun h => absurd rfl h⟩

theorem restsAt_settle (now : Nat) (s : Stock α) : (s.settle now).RestsAt now := by
  by_cases h : (s.isDue now || s.held.isEmpty) = true
  · rw [settle_of_isDue h]
    exact restsAt_blank ..
  · simp only [Bool.or_eq_true, not_or, Bool.not_eq_true, List.isEmpty_eq_false_iff] at h
    obtain ⟨hd, hs⟩ := h
    rw [settle_of_not_isDue hd hs]
    refine ⟨rfl, rfl, fun hn => absurd hn hs, fun _ => ?_⟩
    simp only [isDue, Bool.or_eq_false_iff, beq_eq_false_iff_ne, ne_eq] at hd
    obtain ⟨⟨he, hw⟩, hd⟩ := hd
    refine ⟨he, hw, ?_⟩
    dsimp only
    split
    · omega
    · rename_i hp
      simpa [hp] using hd

namespace RestsAt

variable (h : s.RestsAt now)
include h

theorem held_eq : s.held = s.pending := by
  rw [held, h.fresh, List.append_nil]

theorem eq_blank (hp : s.pending = []) : s = { window := s.window, hasEnded := s.hasEnded } := by
  obtain ⟨window, ready, pending, deadline, fresh, hasEnded⟩ := s
  obtain rfl : ready = [] := h.ready
  obtain rfl : fresh = [] := h.fresh
  obtain rfl : pending = [] := hp
  obtain rfl : deadline = 0 := h.deadline rfl
  rfl

theorem not_isDue (hp : s.pending ≠ []) : s.isDue now = false := by
  obtain ⟨he, hw, hd⟩ := h.waits hp
  exact isDue_eq_false_of he hw hd

theorem due_eq_nil : s.due now = [] := by
  rw [due, h.ready, h.held_eq]
  by_cases hp : s.pending = []
  · simp [hp]
  · rw [h.not_isDue hp]
    rfl

theorem settle_eq_self : s.settle now = s := by
  by_cases hp : s.pending = []
  · rw [settle_of_isDue (by simp [h.held_eq, hp])]
    exact (h.eq_blank hp).symm
  · rw [settle_of_not_isDue (h.not_isDue hp) (by rwa [h.held_eq]), h.held_eq]
    obtain ⟨window, ready, pending, deadline, fresh, hasEnded⟩ := s
    obtain rfl : ready = [] := h.ready
    obtain rfl : fresh = [] := h.fresh
    simp only [Stock.mk.injEq, true_and, and_true]
    exact if_neg (mt List.isEmpty_iff.1 hp)

/-- As time passes, either nothing happens or the window of the pending items closes. -/
theorem settle_cases (later : Nat) :
    s.due later = [] ∧ s.settle later = s ∧ (s.pending ≠ [] → later < s.deadline) ∨
      s.pending ≠ [] ∧ s.deadline ≤ later ∧ s.due later = s.pending ∧
        s.settle later = { window := s.window, hasEnded := s.hasEnded } := by
  by_cases hp : s.pending = []
  · have hr : s.RestsAt later := ⟨h.ready, h.fresh, h.deadline, fun hn => absurd hp hn⟩
    exact Or.inl ⟨hr.due_eq_nil, hr.settle_eq_self, fun hn => absurd hp hn⟩
  · obtain ⟨he, hw, -⟩ := h.waits hp
    rcases Nat.lt_or_ge later s.deadline with hd | hd
    · have hr : s.RestsAt later := ⟨h.ready, h.fresh, h.deadline, fun _ => ⟨he, hw, hd⟩⟩
      exact Or.inl ⟨hr.due_eq_nil, hr.settle_eq_self, fun _ => hd⟩
    · have hdue : s.isDue later = true := by simp [isDue, hp, hd]
      refine Or.inr ⟨hp, hd, ?_, settle_of_isDue (by simp [hdue])⟩
      rw [due, h.ready, h.held_eq, hdue]
      rfl

/-- It makes no difference whether one looks in between. -/
theorem settle_settle (hl : later ≤ target) :
    s.due later ++ (s.settle later).due target = s.due target ∧
      (s.settle later).settle target = s.settle target := by
  rcases h.settle_cases later with ⟨hn, hs, -⟩ | ⟨hp, hd, hdue, hs⟩
  · rw [hn, hs]
    exact ⟨rfl, rfl⟩
  · have hblank := restsAt_blank (α := α) s.window s.hasEnded target
    rcases h.settle_cases target with ⟨-, -, hlt⟩ | ⟨-, -, hdue', hs'⟩
    · exact absurd (hlt hp) (Nat.not_lt.2 (Nat.le_trans hd hl))
    · rw [hdue, hs, hdue', hs', hblank.due_eq_nil, hblank.settle_eq_self, List.append_nil]
      exact ⟨rfl, rfl⟩

end RestsAt

end Stock

namespace Stock

variable {α : Type} {s s' : Stock α} {now : Nat}

/-- The same items leave at once, and the same is left. -/
def SameAt (now : Nat) (s s' : Stock α) : Prop :=
  s'.due now = s.due now ∧ s'.settle now = s.settle now

/-- When the window of the items that stay closes. -/
def closing (now : Nat) (s : Stock α) : Nat :=
  if s.pending.isEmpty then now + s.window else s.deadline

theorem sameAt_of_held (hw : s'.window = s.window) (he : s'.hasEnded = s.hasEnded)
    (hr : s'.ready = s.ready) (hh : s'.held = s.held) (hd : s'.isDue now = s.isDue now)
    (hc : s'.closing now = s.closing now) : SameAt now s s' := by
  refine ⟨by rw [due, due, hr, hh, hd], ?_⟩
  rw [settle, settle, hd, hh, hw, he]
  rw [closing, closing, hw] at hc
  rw [hc]

/-- All items that are held are taken in hand. -/
theorem sameAt_of_due (hw : s'.window = s.window) (he : s'.hasEnded = s.hasEnded)
    (hr : s'.ready = s.ready ++ s.pending) (hp : s'.pending = []) (hf : s'.fresh = s.fresh)
    (hd : s.isDue now = true) (hn : s.fresh = [] ∨ s.hasEnded = true ∨ s.window = 0) :
    SameAt now s s' := by
  have hd' : (s'.isDue now || s'.held.isEmpty) = true := by
    rw [isDue_of_pending_eq_nil hp, he, hw, held, hp, hf]
    rcases hn with hn | hn | hn <;> simp [hn]
  refine ⟨?_, by rw [settle_of_isDue hd', settle_of_isDue (by simp [hd]), hw, he]⟩
  rw [due, due, hd, if_pos rfl, held, held, hr, hp, hf, List.nil_append, List.append_assoc,
    List.append_cancel_left_eq, List.append_cancel_left_eq]
  split
  · rfl
  · rename_i hdue
    -- what is not due was read before
    rcases hn with hn | hn | hn
    · exact hn.symm
    · simp [isDue, he, hn] at hdue
    · simp [isDue, hw, hn] at hdue

end Stock

namespace Batcher

variable {α : Type} {now : Nat} {b b' : Batcher α} {m : Move}

/-- What a batcher holds. -/
def stock (b : Batcher α) : Stock α where
  window := b.window
  ready := b.queue.flatten ++ b.phase.inHand
  pending := b.pending
  deadline := if b.pending.isEmpty then 0 else b.deadline
  fresh := b.inbox.flatten
  hasEnded := b.hasEnded

/-- A batcher that has items to release has no others to read. -/
def Timely (now : Nat) (b : Batcher α) : Prop :=
  b.pending ≠ [] → b.deadline ≤ now → b.inbox.flatten = [] ∨ b.hasEnded = true ∨ b.window = 0

theorem isDue_stock (b : Batcher α) (now : Nat) :
    b.stock.isDue now =
      (b.hasEnded || b.window == 0 || !b.pending.isEmpty && decide (b.deadline ≤ now)) := by
  cases hp : b.pending.isEmpty <;> simp [stock, Stock.isDue, hp]

theorem closing_stock (b : Batcher α) (now : Nat) :
    b.stock.closing now = if b.pending.isEmpty then now + b.window else b.deadline := by
  cases hp : b.pending.isEmpty <;> simp [stock, Stock.closing, hp]

/-! ## Moves -/

theorem collect_of_isEmpty {items : List α} (h : items.isEmpty = true) (b : Batcher α) :
    collect now items b = b := if_pos h

theorem collect_of_not_isEmpty (now : Nat) {items : List α} (h : ¬items.isEmpty = true)
    (b : Batcher α) :
    collect now items b =
      { b with
        pending := b.pending ++ items
        deadline := if b.pending.isEmpty then now + b.window else b.deadline } := if_neg h

theorem sameAt_collect {items : List α} {inbox : List (List α)} (hi : b.inbox = items :: inbox) :
    Stock.SameAt now b.stock (collect now items { b with inbox }).stock := by
  have hfresh : b.inbox.flatten = items ++ inbox.flatten := by rw [hi, List.flatten_cons]
  by_cases he : items.isEmpty = true
  · have hs : (collect now items { b with inbox }).stock = b.stock := by
      rw [collect_of_isEmpty he]
      simp [stock, hi, List.isEmpty_iff.1 he]
    rw [hs]
    exact ⟨rfl, rfl⟩
  · have hc := collect_of_not_isEmpty now he { b with inbox }
    have hp : (b.pending ++ items).isEmpty = false :=
      List.isEmpty_eq_false_iff.2
        (List.append_ne_nil_of_right_ne_nil _ (mt List.isEmpty_iff.2 he))
    -- a window that opens now is over at once only if it has no length
    have hw : decide (now + b.window ≤ now) = (b.window == 0) := by
      rw [Bool.eq_iff_iff, decide_eq_true_eq, beq_iff_eq]
      omega
    rw [hc]
    refine Stock.sameAt_of_held rfl rfl rfl ?_ ?_ ?_
    · simp [Stock.held, stock, hfresh]
    · rw [isDue_stock, isDue_stock]
      dsimp only
      rw [hp]
      cases hb : b.pending.isEmpty with
      | false => simp
      | true =>
        simp only [if_true, hw, Bool.not_false, Bool.not_true, Bool.true_and, Bool.false_and,
          Bool.or_false, Bool.or_assoc, Bool.or_self]
    · rw [closing_stock, closing_stock]
      dsimp only
      rw [hp]
      simp

/-- No move changes what leaves the batcher at once, and what is left. -/
theorem sameAt_of_moves (h : Moves now b m b') (ht : b.Timely now) (hn : b.isCancelled = false)
    (hc : b.isClosed = false) : Stock.SameAt now b.stock b'.stock := by
  cases h with
  | stop hp hcancel =>
    rw [hn] at hcancel
    cases hcancel
  | giveUp hp hclosed =>
    rw [hc] at hclosed
    cases hclosed
  | @hand batch isLast hp hclosed hl =>
    have hs : stock { b with
        queue := b.queue ++ [batch], phase := if isLast then .finished else .collecting } =
        b.stock := by
      cases isLast <;> simp [stock, hp, Phase.inHand]
    rw [hs]
    exact ⟨rfl, rfl⟩
  | release hp hpending hd =>
    refine Stock.sameAt_of_due rfl rfl ?_ rfl rfl ?_ (ht hpending hd)
    · simp [stock, grasp, hp, Phase.inHand]
    · rw [isDue_stock]
      simp [hpending, hd]
  | read hp hi => exact sameAt_collect hi
  | finish hp he hi hpending =>
    have hs : stock { b with phase := .finished } = b.stock := by simp [stock, hp, Phase.inHand]
    rw [hs]
    exact ⟨rfl, rfl⟩
  | flush hp he hi hpending =>
    refine Stock.sameAt_of_due rfl rfl ?_ rfl rfl ?_ (Or.inr (Or.inl he))
    · simp [stock, grasp, hp, Phase.inHand]
    · rw [isDue_stock]
      simp [he]

theorem timely_of_moves (h : Moves now b m b') (ht : b.Timely now) : b'.Timely now := by
  cases h with
  | release | flush => exact fun hp => absurd rfl hp
  | @read items inbox hp hi =>
    by_cases he : items.isEmpty = true
    · rw [collect_of_isEmpty he]
      intro hpending hd
      have := ht hpending hd
      rwa [hi, List.flatten_cons, List.isEmpty_iff.1 he, List.nil_append] at this
    · intro _ hd
      rw [collect_of_not_isEmpty now he] at hd ⊢
      dsimp only at hd ⊢
      split at hd
      · -- the window that opens is over at once
        exact Or.inr (Or.inr (by omega))
      · rename_i hpending
        refine (ht (mt List.isEmpty_iff.2 hpending) hd).imp (fun hf => ?_) id
        rw [hi, List.flatten_cons] at hf
        exact (List.append_eq_nil_iff.1 hf).2
  | stop | giveUp | hand | finish => exact ht

/-- A receiver takes a batch that is on its way out. -/
theorem stock_of_queue (now : Nat) {batch : List α} {queue : List (List α)}
    (hq : b.queue = batch :: queue) :
    b.stock.due now = batch ++ (stock { b with queue }).due now ∧
      b.stock.settle now = (stock { b with queue }).settle now := by
  have hs : b.stock = { stock { b with queue } with
      ready := batch ++ (stock { b with queue }).ready } := by
    simp [stock, hq]
  rw [hs]
  refine ⟨?_, rfl⟩
  rw [Stock.due, Stock.due, List.append_assoc]
  rfl

/-! ## What others do -/

theorem stock_push (hs : b.Sound) (hn : b.isCancelled = false) (hc : b.isClosed = false)
    (items : List α) : (b.push items).1.stock = b.stock.push items := by
  have hf : b.isFinished = true → b.hasEnded = true := by
    intro hf
    unfold isFinished at hf
    split at hf
    · rename_i hp
      exact (hs.read_of_finished hp hn hc).1
    · cases hf
  cases he : b.hasEnded with
  | true => simp [push, Stock.push, stock, he]
  | false =>
    have hf' : b.isFinished = false := by
      rw [← Bool.not_eq_true]
      intro h
      rw [hf h] at he
      cases he
    simp [push, Stock.push, stock, he, hf']

theorem timely_push (items : List α) (hd : b.pending ≠ [] → now < b.deadline) :
    (b.push items).1.Timely now := by
  intro hp hle
  unfold push at hp hle
  split at hp
  · rename_i h
    rw [if_pos h] at hle
    exact absurd hle (Nat.not_le.2 (hd hp))
  · rename_i h
    rw [if_neg h] at hle
    exact absurd hle (Nat.not_le.2 (hd hp))

/-! ## Without a move left -/

theorem hasEnded_of_quiet (hq : ∀ m, b.move? now m = none) (hs : b.Sound)
    (hn : b.isCancelled = false) (hc : b.isClosed = false) (hi : b.inbox = [])
    (hp : b.pending ≠ []) : b.hasEnded = false := by
  cases hph : b.phase with
  | finished => exact absurd (hs.read_of_finished hph hn hc).2.2 hp
  | handing batch isLast => exact absurd (hs.pending_of_handing batch isLast hph) hp
  | collecting =>
    have := hq .flush
    simpa [move?, hph, hi, hp] using this

/-- A batcher that has no move left does nothing before the window of its pending items closes. -/
theorem restsAt_of_quiet (hq : ∀ m, b.move? now m = none) (hs : b.Sound)
    (hn : b.isCancelled = false) (hc : b.isClosed = false) (he : b.queue = [])
    (hr : 0 < b.capacity) (hw : b.ClosesBy (now + b.window)) : b.stock.RestsAt now := by
  obtain ⟨hi, hh⟩ := inbox_of_quiet hq hs hn hc (by rw [he]; exact hr)
  refine ⟨by simp [stock, he, hh], by simp [stock, hi], fun hp => ?_, fun hp => ?_⟩
  · exact if_pos (List.isEmpty_iff.2 hp)
  · have hp' : b.pending ≠ [] := hp
    have hlt := lt_deadline_of_quiet hq hs hn hc hp'
    have hle := hw hp'
    refine ⟨hasEnded_of_quiet hq hs hn hc hi hp', ?_, ?_⟩
    · show b.window ≠ 0
      omega
    · show now < if b.pending.isEmpty then 0 else b.deadline
      rwa [if_neg (mt List.isEmpty_iff.1 hp')]

end Batcher

end LiveRooms
