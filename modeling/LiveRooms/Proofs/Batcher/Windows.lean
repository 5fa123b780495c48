import LiveRooms.Proofs.Batcher.Delivery
import LiveRooms.Proofs.Batcher.Punctual
import Mathlib.Data.List.Forall2

/-!
# The windows of a batcher

A window opens when the batcher reads an item that is not empty while nothing is pending, and its
batch is queued when the window's time is over, or at the end of the stream if that comes first.
What is read in between belongs to the batch, and does not change when it is queued.  All of this is
about a batcher that finds room in its queue whenever it takes its pending items in hand
(`FindsRoom`); one that has to wait for room is late with the batch in hand, but its next window is
not longer for that (`closesBy_of_course`).

The proof follows the batcher through a punctual course: either all that was read has been queued,
or there is a place in the log at which the window opened to which the pending items, or the batch
in hand, belong (`Gathers`).
-/

namespace LiveRooms.Batcher

variable {α : Type}

/-- The items that are read at a moment. -/
def Moment.read (m : Moment α) : List α :=
  match m.cause, m.before.inbox with
  | .move .read, items :: _ => items
  | _, _ => []

/-- The batches that are queued at a moment. -/
def Moment.queued (m : Moment α) : List (List α) :=
  match m.cause, m.before.phase with
  | .move .hand, .handing batch _ => if m.before.isClosed then [] else [batch]
  | _, _ => []

/-- Whether the batch in hand was taken at the end of the stream. -/
def Moment.isLast (m : Moment α) : Bool :=
  match m.before.phase with
  | .handing _ isLast => isLast
  | _ => false

/-- Whether the pending items are taken in hand. -/
def Moment.takesInHand (m : Moment α) : Bool :=
  match m.cause with
  | .move .release | .move .flush => !m.before.pending.isEmpty
  | _ => false

/-- Whether a batch is queued because its window is over. -/
def Moment.closesWindow (m : Moment α) : Bool := !m.queued.isEmpty && !m.isLast

/-- The queue has room whenever the pending items are taken in hand. -/
def FindsRoom (log : List (Moment α)) : Prop :=
  ∀ m ∈ log, m.takesInHand = true → m.before.queue.length < m.before.capacity

instance (log : List (Moment α)) : Decidable (FindsRoom log) :=
  inferInstanceAs (Decidable (∀ m ∈ log, _ → _))

/-- Items with the time of a moment. -/
def Moment.stamp (m : Moment α) (items : List α) : List (Nat × α) := items.map (Prod.mk m.time)

/-- The items of the moments of a log, in order, each with its time. -/
def stamped (items : Moment α → List α) (log : List (Moment α)) : List (Nat × α) :=
  log.flatMap fun m => m.stamp (items m)

/-- All items that were accepted, in order, each with the time at which it came. -/
def arrivals (log : List (Moment α)) : List (Nat × α) := stamped Moment.accepted log

/-- All items that were read, in order, each with its time. -/
def readings (log : List (Moment α)) : List (Nat × α) := stamped Moment.read log

/-- All items that were queued, in order, each with its time. -/
def departures (log : List (Moment α)) : List (Nat × α) := stamped (fun m => m.queued.flatten) log

/-- All items that were read, in order. -/
def readItems (log : List (Moment α)) : List α := log.flatMap Moment.read

/-- An item is queued after it came, and not later than a window after that. -/
def InTime (window : Nat) (arrival departure : Nat × α) : Prop :=
  departure.2 = arrival.2 ∧ arrival.1 ≤ departure.1 ∧ departure.1 ≤ arrival.1 + window

/-- All that was read has been queued, in order and in time. -/
def Cleared (window : Nat) (log : List (Moment α)) : Prop :=
  List.Forall₂ (InTime window) (readings log) (departures log)

/-- A window is open: when it opened, with an item that is not empty, nothing was pending, and
nothing has been queued since. -/
structure Opened (window : Nat) (log before : List (Moment α)) (opening : Moment α)
    (since : List (Moment α)) : Prop where
  log_eq : log = before ++ opening :: since
  cleared : Cleared window before
  opens : opening.read ≠ []
  unbroken (m : Moment α) : m ∈ opening :: since → m.queued = []

/-- A batch is queued: the items that were read since its window opened, when the window is over or,
for the last batch, before that. -/
def QueuesWindow (window : Nat) (early : List (Moment α)) (m : Moment α) : Prop :=
  ∃ before opening since, Opened window early before opening since ∧
    m.queued = [readItems (opening :: since)] ∧ m.time ≤ opening.time + window ∧
    (m.isLast = false → m.time = opening.time + window)

variable {log before since : List (Moment α)} {opening m : Moment α} {t : Timeline (Batcher α)}
  {b b' : Batcher α} {mv : Move} {window capacity now later : Nat}

/-! ## One more moment -/

theorem stamped_append (items : Moment α → List α) (log log' : List (Moment α)) :
    stamped items (log ++ log') = stamped items log ++ stamped items log' :=
  List.flatMap_append

theorem stamped_snoc (items : Moment α → List α) (log : List (Moment α)) (m : Moment α) :
    stamped items (log ++ [m]) = stamped items log ++ m.stamp (items m) := by
  rw [stamped_append, stamped, stamped, List.flatMap_singleton]

theorem map_snd_stamped (items : Moment α → List α) (log : List (Moment α)) :
    (stamped items log).map Prod.snd = log.flatMap items := by
  simp [stamped, Moment.stamp, List.map_flatMap, Function.comp_def]

theorem exists_of_mem_stamped {items : Moment α → List α} {a : Nat × α}
    (h : a ∈ stamped items log) : ∃ m ∈ log, a.1 = m.time := by
  obtain ⟨m, hm, ha⟩ := List.mem_flatMap.1 h
  obtain ⟨x, -, rfl⟩ := List.mem_map.1 ha
  exact ⟨m, hm, rfl⟩

theorem arrivals_snoc (log : List (Moment α)) (m : Moment α) :
    arrivals (log ++ [m]) = arrivals log ++ m.stamp m.accepted := stamped_snoc _ log m

theorem readings_snoc (log : List (Moment α)) (m : Moment α) :
    readings (log ++ [m]) = readings log ++ m.stamp m.read := stamped_snoc _ log m

theorem departures_snoc (log : List (Moment α)) (m : Moment α) :
    departures (log ++ [m]) = departures log ++ m.stamp m.queued.flatten := stamped_snoc _ log m

theorem readItems_snoc (log : List (Moment α)) (m : Moment α) :
    readItems (log ++ [m]) = readItems log ++ m.read := by
  rw [readItems, List.flatMap_append, List.flatMap_singleton, readItems]

theorem map_snd_of_inTime {arrivals departures : List (Nat × α)}
    (h : List.Forall₂ (InTime window) arrivals departures) :
    departures.map Prod.snd = arrivals.map Prod.snd := by
  induction h with
  | nil => rfl
  | cons hin _ ih => rw [List.map_cons, List.map_cons, hin.1, ih]

theorem Cleared.snoc (h : Cleared window log) (hr : m.read = []) (hq : m.queued = []) :
    Cleared window (log ++ [m]) := by
  rw [Cleared, readings_snoc, departures_snoc, hr, hq]
  simp only [Moment.stamp, List.flatten_nil, List.map_nil, List.append_nil]
  exact h

namespace Opened

theorem snoc (h : Opened window log before opening since) (hq : m.queued = []) :
    Opened window (log ++ [m]) before opening (since ++ [m]) where
  log_eq := by rw [h.log_eq, List.append_assoc, List.cons_append]
  cleared := h.cleared
  opens := h.opens
  unbroken x hx := by
    rw [← List.cons_append, List.mem_append, List.mem_singleton] at hx
    rcases hx with hx | rfl
    · exact h.unbroken x hx
    · exact hq

theorem readItems_ne_nil (h : Opened window log before opening since) :
    readItems (opening :: since) ≠ [] :=
  List.append_ne_nil_of_left_ne_nil h.opens _

theorem readings_eq (h : Opened window log before opening since) :
    readings log = readings before ++ readings (opening :: since) := by
  rw [h.log_eq]
  exact stamped_append _ _ _

theorem departures_eq (h : Opened window log before opening since) :
    departures log = departures before := by
  have hn : departures (opening :: since) = [] := by
    rw [departures, stamped, List.flatMap_eq_nil_iff]
    intro x hx
    rw [h.unbroken x hx]
    rfl
  have happ : departures log = departures before ++ departures (opening :: since) := by
    rw [h.log_eq]
    exact stamped_append _ _ _
  rw [happ, hn, List.append_nil]

/-- What was queued before was queued before the window opened. -/
theorem mem_before (h : Opened window log before opening since) (hm : m ∈ log)
    (hq : m.queued ≠ []) : m ∈ before := by
  rw [h.log_eq, List.mem_append] at hm
  exact hm.resolve_right fun hs => hq (h.unbroken m hs)

/-- No item of the window was read before it opened. -/
theorem le_of_mem_readings (h : Opened window log before opening since)
    (hs : log.Pairwise fun m m' => m.time ≤ m'.time) {a : Nat × α}
    (ha : a ∈ readings (opening :: since)) : opening.time ≤ a.1 := by
  obtain ⟨x, hx, hax⟩ := exists_of_mem_stamped ha
  rw [hax]
  rw [h.log_eq, List.pairwise_append] at hs
  rcases List.mem_cons.1 hx with rfl | hx
  · exact Nat.le_refl _
  · exact List.rel_of_pairwise_cons hs.2.1 hx

end Opened

/-! ## Where the batcher is -/

/-- What a batcher is doing after the moments of a log: nothing is pending and all that was read
has been queued, or a window is open and what was read in it is pending or in hand. -/
inductive Gathers (window : Nat) (log : List (Moment α)) (now : Nat) (b : Batcher α) : Prop where
  | clear : b.phase = .collecting → b.pending = [] → Cleared window log → Gathers window log now b
  | gathering {before since : List (Moment α)} {opening : Moment α} :
      Opened window log before opening since → b.phase = .collecting →
      b.pending = readItems (opening :: since) → b.deadline = opening.time + window →
      now ≤ b.deadline → Gathers window log now b
  | handing {before since : List (Moment α)} {opening : Moment α} {isLast : Bool} :
      Opened window log before opening since →
      b.phase = .handing (readItems (opening :: since)) isLast →
      b.pending = [] → now ≤ opening.time + window →
      (isLast = false → now = opening.time + window) → b.queue.length < b.capacity →
      Gathers window log now b
  | finished : b.phase = .finished → b.pending = [] → Cleared window log → Gathers window log now b

/-- What is true of a batcher that is never late: what came before now has been read, and every
batch so far was queued when its window was over. -/
structure OnTime (window : Nat) (log : List (Moment α)) (now : Nat) (b : Batcher α) : Prop where
  window_eq : b.window = window
  gathers : Gathers window log now b
  arrivals_eq : arrivals log = readings log ++ b.inbox.flatten.map (Prod.mk now)
  sorted : log.Pairwise fun m m' => m.time ≤ m'.time
  le_now (m : Moment α) : m ∈ log → m.time ≤ now
  queues (early : List (Moment α)) (m : Moment α) :
    early ++ [m] <+: log → m.queued ≠ [] → QueuesWindow window early m
  apart : (log.filter Moment.closesWindow).Pairwise fun m m' => m.time + window ≤ m'.time
  ended (m : Moment α) : m ∈ log → m.cause = .action .finishStream →
    b.hasEnded = true ∧ (m.time < now → b.phase = .finished) ∧ ∀ d ∈ departures log, d.1 ≤ m.time

theorem onTime_origin (window capacity : Nat) :
    OnTime window [] 0 (origin (α := α) window capacity).state where
  window_eq := rfl
  gathers := .clear rfl rfl .nil
  arrivals_eq := rfl
  sorted := .nil
  le_now m hm := by cases hm
  queues early m h := by simp at h
  apart := .nil
  ended m hm := by cases hm

/-- Where a batcher is does not depend on who else acts. -/
theorem Gathers.aside (h : Gathers window log now b) (hr : m.read = []) (hq : m.queued = [])
    (hph : b'.phase = b.phase) (hp : b'.pending = b.pending) (hd : b'.deadline = b.deadline)
    (hc : b'.capacity = b.capacity) (hl : b'.queue.length ≤ b.queue.length) :
    Gathers window (log ++ [m]) now b' := by
  have hitems : ∀ (opening : Moment α) since,
      readItems (opening :: since) = readItems (opening :: (since ++ [m])) := by
    intro opening since
    rw [← List.cons_append, readItems_snoc, hr, List.append_nil]
  cases h with
  | clear hph' hp' hcl => exact .clear (hph.trans hph') (hp.trans hp') (hcl.snoc hr hq)
  | @gathering before since opening ho hph' hp' hd' hn =>
    rw [hitems] at hp'
    exact .gathering (ho.snoc hq) (hph.trans hph') (hp.trans hp') (hd.trans hd') (hd ▸ hn)
  | @handing before since opening isLast ho hph' hp' hn ht hroom =>
    rw [hitems] at hph'
    exact .handing (ho.snoc hq) (hph.trans hph') (hp.trans hp') hn ht
      (Nat.lt_of_le_of_lt hl (hc ▸ hroom))
  | finished hph' hp' hcl => exact .finished (hph.trans hph') (hp.trans hp') (hcl.snoc hr hq)

/-- An item that is read opens a window, falls into the open one, or is empty. -/
theorem Gathers.read {items : List α} {inbox : List (List α)} (h : Gathers window log now b)
    (hw : b.window = window) (hph : b.phase = .collecting) (hi : b.inbox = items :: inbox) :
    Gathers window (log ++ [⟨now, b, .move .read⟩]) now (collect now items { b with inbox }) := by
  have hr : Moment.read ⟨now, b, .move .read⟩ = items := by simp [Moment.read, hi]
  have hq : Moment.queued ⟨now, b, .move .read⟩ = [] := rfl
  cases h with
  | handing _ hph' | finished hph' =>
    rw [hph] at hph'
    cases hph'
  | clear _ hp hcl =>
    unfold collect
    split
    · rename_i he
      exact .clear hph hp (hcl.snoc (hr.trans (List.isEmpty_iff.1 he)) hq)
    · rename_i he
      have ho : Opened window (log ++ [⟨now, b, .move .read⟩]) log ⟨now, b, .move .read⟩ [] := by
        refine ⟨rfl, hcl, ?_, ?_⟩
        · rw [hr]
          exact mt List.isEmpty_iff.2 he
        · intro x hx
          rw [List.mem_singleton.1 hx]
          rfl
      refine .gathering ho hph ?_ ?_ ?_
      · simp [hp, readItems, hr]
      · simp [hp, hw]
      · simp [hp]
  | @gathering before since opening ho _ hp hd hn =>
    have hpend : b.pending.isEmpty = false := by
      rw [hp]
      exact List.isEmpty_eq_false_iff.2 ho.readItems_ne_nil
    refine .gathering (ho.snoc hq) (by rw [phase_collect, hph]) ?_ ?_ ?_
    · rw [pending_collect, ← List.cons_append, readItems_snoc, hr, hp]
    · unfold collect
      split
      · exact hd
      · simpa [hpend] using hd
    · unfold collect
      split
      · exact hn
      · simpa [hpend] using hn

theorem queued_ne_nil_of_closesWindow (h : m.closesWindow = true) :
    m.queued ≠ [] ∧ m.isLast = false := by
  simpa [Moment.closesWindow] using h

namespace OnTime

theorem departures_le (h : OnTime window log now b) {d : Nat × α} (hd : d ∈ departures log) :
    d.1 ≤ now := by
  obtain ⟨m, hm, hdm⟩ := exists_of_mem_stamped hd
  rw [hdm]
  exact h.le_now m hm

/-- A window that closes opened after the one before it had closed. -/
theorem le_of_closesWindow (h : OnTime window log now b) (hq : QueuesWindow window log m)
    (hm : m.closesWindow = true) {x : Moment α} (hx : x ∈ log) (hc : x.closesWindow = true) :
    x.time + window ≤ m.time := by
  obtain ⟨before, opening, since, hopened, -, -, ht⟩ := hq
  have hxb : x ∈ before := hopened.mem_before hx (queued_ne_nil_of_closesWindow hc).1
  have hs := h.sorted
  rw [hopened.log_eq, List.pairwise_append] at hs
  have hle : x.time ≤ opening.time := hs.2.2 x hxb opening List.mem_cons_self
  rw [ht (queued_ne_nil_of_closesWindow hm).2]
  omega

/-- One more moment.  What is left to show of it is what the batcher does, and that a batch, if one
is queued, is queued when its window is over. -/
theorem snoc (h : OnTime window log now b) (ht : m.time = now) (hw : b'.window = window)
    (hg : Gathers window (log ++ [m]) now b')
    (ha : arrivals (log ++ [m]) = readings (log ++ [m]) ++ b'.inbox.flatten.map (Prod.mk now))
    (hq : m.queued ≠ [] → QueuesWindow window log m ∧ b.phase ≠ .finished)
    (he : b.hasEnded = true ∨ m.cause = .action .finishStream → b'.hasEnded = true)
    (hf : b.phase = .finished → b'.phase = .finished) : OnTime window (log ++ [m]) now b' where
  window_eq := hw
  gathers := hg
  arrivals_eq := ha
  sorted := by
    rw [List.pairwise_append]
    refine ⟨h.sorted, List.pairwise_singleton _ _, fun x hx y hy => ?_⟩
    rw [List.mem_singleton.1 hy, ht]
    exact h.le_now x hx
  le_now x hx := by
    rcases List.mem_append.1 hx with hx | hx
    · exact h.le_now x hx
    · rw [List.mem_singleton.1 hx]
      exact Nat.le_of_eq ht
  queues early x hp hx := by
    rcases List.prefix_concat_iff.1 hp with he | hp
    · obtain ⟨rfl, hx'⟩ := List.append_inj' he rfl
      obtain rfl : x = m := List.singleton_inj.1 hx'
      exact (hq hx).1
    · exact h.queues early x hp hx
  apart := by
    rw [List.filter_append, List.pairwise_append]
    refine ⟨h.apart, ?_, fun x hx y hy => ?_⟩
    · exact List.Pairwise.filter _ (List.pairwise_singleton _ _)
    · obtain ⟨hy, hc⟩ := List.mem_filter.1 hy
      obtain rfl := List.mem_singleton.1 hy
      have hn := (queued_ne_nil_of_closesWindow hc).1
      exact h.le_of_closesWindow (hq hn).1 hc (List.mem_filter.1 hx).1 (List.mem_filter.1 hx).2
  ended x hx hc := by
    have hdep : ∀ d ∈ departures (log ++ [m]), d.1 ≤ now := by
      intro d hd
      rw [departures_snoc, List.mem_append] at hd
      rcases hd with hd | hd
      · exact h.departures_le hd
      · obtain ⟨y, -, rfl⟩ := List.mem_map.1 hd
        exact Nat.le_of_eq ht
    rcases List.mem_append.1 hx with hx | hx
    · obtain ⟨hended, hfin, hle⟩ := h.ended x hx hc
      refine ⟨he (Or.inl hended), fun hlt => hf (hfin hlt), ?_⟩
      -- a batch that is queued now is queued before time passes after the end of the stream
      by_cases hn : m.queued = []
      · rwa [departures_snoc, hn, Moment.stamp, List.flatten_nil, List.map_nil, List.append_nil]
      · have hle : now ≤ x.time := Nat.le_of_not_lt fun hlt => (hq hn).2 (hfin hlt)
        exact fun d hd => Nat.le_trans (hdep d hd) hle
    · obtain rfl := List.mem_singleton.1 hx
      rw [ht]
      exact ⟨he (Or.inr hc), fun hlt => absurd hlt (Nat.lt_irrefl _), hdep⟩

end OnTime

/-- When the pending items are taken in hand, all that was read since the window opened is. -/
theorem Gathers.grasp {isLast : Bool} (h : Gathers window log now b) (hph : b.phase = .collecting)
    (hp : b.pending ≠ []) (hr : m.read = []) (hq : m.queued = [])
    (hlast : isLast = false → b.deadline ≤ now) (hroom : b.queue.length < b.capacity) :
    Gathers window (log ++ [m]) now (b.grasp isLast) := by
  cases h with
  | clear _ hp' => exact absurd hp' hp
  | handing _ hph' | finished hph' =>
    rw [hph] at hph'
    cases hph'
  | @gathering before since opening ho _ hp' hd hn =>
    have hitems : b.pending = readItems (opening :: (since ++ [m])) := by
      rw [← List.cons_append, readItems_snoc, hr, List.append_nil, hp']
    have hhand : (b.grasp isLast).phase =
        .handing (readItems (opening :: (since ++ [m]))) isLast := by
      rw [← hitems]
      rfl
    rw [hd] at hn hlast
    exact .handing (ho.snoc hq) hhand rfl hn (fun hl => Nat.le_antisymm hn (hlast hl)) hroom

theorem Gathers.pending_of_handing {batch : List α} {isLast : Bool} (h : Gathers window log now b)
    (hph : b.phase = .handing batch isLast) : b.pending = [] := by
  cases h with
  | clear _ hp | handing _ _ hp | finished _ hp => exact hp
  | gathering _ hph' =>
    rw [hph] at hph'
    cases hph'

theorem Gathers.cleared_of_collecting (h : Gathers window log now b) (hph : b.phase = .collecting)
    (hp : b.pending = []) : Cleared window log := by
  cases h with
  | clear _ _ hcl => exact hcl
  | gathering ho _ hp' =>
    rw [hp] at hp'
    exact absurd hp'.symm ho.readItems_ne_nil
  | handing _ hph' | finished hph' =>
    rw [hph] at hph'
    cases hph'

/-- The batch in hand is queued at the end of its window. -/
theorem Gathers.queuesWindow {batch : List α} {isLast : Bool} (h : Gathers window log now b)
    (hph : b.phase = .handing batch isLast) (hc : b.isClosed = false) :
    QueuesWindow window log ⟨now, b, .move .hand⟩ := by
  cases h with
  | clear hph' | gathering _ hph' | finished hph' =>
    rw [hph] at hph'
    cases hph'
  | @handing before since opening _ ho hph' _ hn ht _ =>
    rw [hph] at hph'
    cases hph'
    refine ⟨before, opening, since, ho, ?_, hn, ?_⟩
    · simp [Moment.queued, hph, hc]
    · simpa [Moment.isLast, hph] using ht

/-- When the batch in hand is queued, all that was read has been queued. -/
theorem cleared_hand {batch : List α} {isLast : Bool} (h : OnTime window log now b)
    (hph : b.phase = .handing batch isLast) (hc : b.isClosed = false) :
    Cleared window (log ++ [⟨now, b, .move .hand⟩]) := by
  obtain ⟨before, opening, since, ho, hq, hn, -⟩ := h.gathers.queuesWindow hph hc
  have hwindow : List.Forall₂ (InTime window) (readings (opening :: since))
      ((readItems (opening :: since)).map (Prod.mk now)) := by
    have hitems : readItems (opening :: since) = (readings (opening :: since)).map Prod.snd :=
      (map_snd_stamped _ _).symm
    rw [hitems, List.map_map, List.forall₂_map_right_iff, List.forall₂_same]
    intro a ha
    obtain ⟨x, hx, hax⟩ := exists_of_mem_stamped ha
    have hle : x.time ≤ now := h.le_now x (ho.log_eq ▸ List.mem_append_right _ hx)
    have hge := ho.le_of_mem_readings h.sorted ha
    exact ⟨rfl, hax ▸ hle, Nat.le_trans hn (Nat.add_le_add_right hge _)⟩
  have hread : Moment.read ⟨now, b, .move .hand⟩ = [] := rfl
  rw [Cleared, readings_snoc, departures_snoc, ho.readings_eq, ho.departures_eq, hq, hread]
  simp only [Moment.stamp, List.flatten_singleton, List.map_nil, List.append_nil]
  exact List.rel_append ho.cleared hwindow

/-- What others do to a batcher leaves what is pending and in hand as it is. -/
structure Aside (accepted : List α) (b b' : Batcher α) : Prop where
  phase : b'.phase = b.phase
  pending : b'.pending = b.pending
  deadline : b'.deadline = b.deadline
  window : b'.window = b.window
  capacity : b'.capacity = b.capacity
  queue_le : b'.queue.length ≤ b.queue.length
  inbox : b'.inbox.flatten = b.inbox.flatten ++ accepted
  hasEnded : b.hasEnded = true → b'.hasEnded = true

theorem aside_effect (now : Nat) (a : Action α) (b : Batcher α) :
    Aside (Moment.accepted ⟨now, b, .action a⟩) b (a.effect b) := by
  cases a with
  | push items =>
    simp only [Moment.accepted, Action.effect]
    unfold push
    split
    · exact ⟨rfl, rfl, rfl, rfl, rfl, Nat.le_refl _, by simp, id⟩
    · exact ⟨rfl, rfl, rfl, rfl, rfl, Nat.le_refl _, by simp, id⟩
  | receive =>
    simp only [Moment.accepted, Action.effect]
    rcases receive_cases b with ⟨hb, -⟩ | ⟨batch, queue, hq, hb⟩
    · rw [hb]
      exact ⟨rfl, rfl, rfl, rfl, rfl, Nat.le_refl _, (List.append_nil _).symm, id⟩
    · rw [hb]
      refine ⟨rfl, rfl, rfl, rfl, rfl, ?_, (List.append_nil _).symm, id⟩
      rw [hq]
      exact Nat.le_succ _
  | wait ms | close | cancel =>
    exact ⟨rfl, rfl, rfl, rfl, rfl, Nat.le_refl _, (List.append_nil _).symm, id⟩
  | finishStream =>
    exact ⟨rfl, rfl, rfl, rfl, rfl, Nat.le_refl _, (List.append_nil _).symm, fun _ => rfl⟩

/-- No window is open for longer than its time, whatever the batcher has to wait for. -/
theorem closesBy_of_course (hc : Course (origin window capacity) log t) :
    t.state.window = window ∧ t.state.ClosesBy (t.now + window) := by
  induction hc with
  | start => exact ⟨rfl, fun hp => absurd rfl hp⟩
  | wait later _ hl ih => exact ⟨ih.1, ih.2.mono (Nat.add_le_add_right hl _)⟩
  | @action log t a _ ih =>
    have ha := aside_effect t.now a t.state
    refine ⟨ha.window.trans ih.1, fun hp => ?_⟩
    rw [ha.pending] at hp
    exact Nat.le_trans (Nat.le_of_eq ha.deadline) (ih.2 hp)
  | move m _ hm ih =>
    obtain ⟨rfl, hd⟩ := ih
    have hm' := moves_of_move? hm
    exact ⟨(sameOutside_of_moves hm').window, closesBy_of_moves hm' hd⟩

namespace OnTime

theorem action (h : OnTime window log now b) (a : Action α) :
    OnTime window (log ++ [⟨now, b, .action a⟩]) now (a.effect b) := by
  have ha := aside_effect now a b
  have hread : Moment.read ⟨now, b, .action a⟩ = [] := rfl
  refine h.snoc rfl (ha.window.trans h.window_eq) ?_ ?_ (fun hq => absurd rfl hq) ?_
    fun hf => ha.phase.trans hf
  · exact h.gathers.aside rfl rfl ha.phase ha.pending ha.deadline ha.capacity ha.queue_le
  · rw [arrivals_snoc, readings_snoc, hread, ha.inbox, h.arrivals_eq]
    simp [Moment.stamp]
  · rintro (he | hc)
    · exact ha.hasEnded he
    · cases hc
      rfl

theorem move (h : OnTime window log now b) (hm : Moves now b mv b') (hcl : b.isClosed = false)
    (hcn : b.isCancelled = false)
    (hroom : Moment.takesInHand ⟨now, b, .move mv⟩ = true → b.queue.length < b.capacity) :
    OnTime window (log ++ [⟨now, b, .move mv⟩]) now b' := by
  have hsame := sameOutside_of_moves hm
  have hw : b'.window = window := hsame.window.trans h.window_eq
  have hend : b.hasEnded = true ∨ Cause.move (α := α) mv = .action .finishStream →
      b'.hasEnded = true := by
    rintro (he | hc)
    · exact hsame.hasEnded.trans he
    · cases hc
  have hfin : b.phase = .finished → b'.phase = .finished :=
    fun hf => absurd hf (phase_ne_finished_of_moves hm)
  have harr : ∀ {m : Moment α}, m.time = now → m.accepted = [] →
      b.inbox.flatten = m.read ++ b'.inbox.flatten →
      arrivals (log ++ [m]) = readings (log ++ [m]) ++ b'.inbox.flatten.map (Prod.mk now) := by
    intro m ht hacc hinbox
    rw [arrivals_snoc, readings_snoc, hacc, h.arrivals_eq, hinbox]
    simp [Moment.stamp, ht]
  cases hm with
  | stop hph hc =>
    rw [hcn] at hc
    cases hc
  | giveUp hph hc =>
    rw [hcl] at hc
    cases hc
  | @hand batch isLast hph hc hl =>
    have hq := h.gathers.queuesWindow hph hcl
    have hclr := cleared_hand h hph hcl
    have hp := h.gathers.pending_of_handing hph
    refine h.snoc rfl hw ?_ (harr rfl rfl rfl) (fun _ => ⟨hq, by simp [hph]⟩) hend hfin
    cases isLast with
    | false => exact .clear rfl hp hclr
    | true => exact .finished rfl hp hclr
  | release hph hp hd =>
    have hr := hroom (by simpa [Moment.takesInHand] using hp)
    refine h.snoc rfl hw ?_ (harr rfl rfl rfl) (fun hq => absurd rfl hq) hend hfin
    exact h.gathers.grasp hph hp rfl rfl (fun _ => hd) hr
  | @read items inbox hph hi =>
    refine h.snoc rfl hw (h.gathers.read h.window_eq hph hi) ?_ (fun hq => absurd rfl hq) hend hfin
    refine harr rfl rfl ?_
    simp [Moment.read, hi]
  | finish hph he hi hp =>
    have hclr := h.gathers.cleared_of_collecting hph hp
    refine h.snoc rfl hw ?_ (harr rfl rfl rfl) (fun hq => absurd rfl hq) hend hfin
    exact .finished rfl hp (hclr.snoc rfl rfl)
  | flush hph he hi hp =>
    have hr := hroom (by simpa [Moment.takesInHand] using hp)
    refine h.snoc rfl hw ?_ (harr rfl rfl rfl) (fun hq => absurd rfl hq) hend hfin
    exact h.gathers.grasp hph hp rfl rfl (fun hl => by cases hl) hr

/-- A batcher that has no move left has no batch in hand, and has read everything. -/
theorem rest (h : OnTime window log now b) (hq : Timed.Quiet now b) (hs : b.Sound)
    (hcl : b.isClosed = false) (hcn : b.isCancelled = false) :
    b.inbox = [] ∧ (b.phase = .collecting ∨ b.phase = .finished) := by
  cases hph : b.phase with
  | finished => exact ⟨(hs.read_of_finished hph hcn hcl).2.1, Or.inr rfl⟩
  | handing batch isLast =>
    have hno := move?_eq_none_of_quiet hq .hand
    cases h.gathers with
    | handing _ _ _ _ _ hroom => simp [move?, hph, hcl, hroom] at hno
    | clear hph' | gathering _ hph' | finished hph' =>
      rw [hph] at hph'
      cases hph'
  | collecting =>
    refine ⟨?_, Or.inl rfl⟩
    have hno := move?_eq_none_of_quiet hq .read
    cases hi : b.inbox with
    | nil => rfl
    | cons items inbox => simp [move?, hph, hi] at hno

/-- At rest after the end of the stream the batcher has finished. -/
theorem finished_of_quiet (h : OnTime window log now b) (hq : Timed.Quiet now b) (hs : b.Sound)
    (hcl : b.isClosed = false) (hcn : b.isCancelled = false) (he : b.hasEnded = true) :
    b.phase = .finished := by
  obtain ⟨hi, hph | hph⟩ := h.rest hq hs hcl hcn
  · have hno := move?_eq_none_of_quiet hq .flush
    by_cases hp : b.pending = [] <;> simp [move?, hph, hi, he, hp] at hno
  · exact hph

/-- While time passes no window is open for too long. -/
theorem sleep (h : OnTime window log now b) (hs : Timed.Sleeps now later b) (hsound : b.Sound)
    (hcl : b.isClosed = false) (hcn : b.isCancelled = false) : OnTime window log later b := by
  obtain ⟨hi, hph⟩ := h.rest hs.quiet hsound hcl hcn
  have hg : Gathers window log later b := by
    cases h.gathers with
    | clear hph' hp hclr => exact .clear hph' hp hclr
    | @gathering before since opening ho hph' hp hd hn =>
      have hpend : b.pending ≠ [] := hp ▸ ho.readItems_ne_nil
      have hlt := lt_deadline_of_collecting (move?_eq_none_of_quiet hs.quiet) hph' hpend
      have htimer : b.deadline ∈ Timed.timers b := by
        show b.deadline ∈ timers b
        simp [timers, hph', hpend]
      exact .gathering ho hph' hp hd (hs.timers _ htimer hlt)
    | handing _ hph' =>
      rw [hph'] at hph
      rcases hph with hph | hph <;> cases hph
    | finished hph' hp hclr => exact .finished hph' hp hclr
  refine ⟨h.window_eq, hg, ?_, h.sorted, fun m hm => Nat.le_trans (h.le_now m hm) hs.le, h.queues,
    h.apart, fun m hm hc => ?_⟩
  · have harr := h.arrivals_eq
    rw [hi] at harr ⊢
    exact harr
  · obtain ⟨hend, -, hle⟩ := h.ended m hm hc
    exact ⟨hend, fun _ => h.finished_of_quiet hs.quiet hsound hcl hcn hend, hle⟩

/-- What has come and was not queued has not waited for longer than a window. -/
theorem exists_waiting (h : OnTime window log now b) : ∃ gone waiting,
    arrivals log = gone ++ waiting ∧ List.Forall₂ (InTime window) gone (departures log) ∧
      ∀ a ∈ waiting, now ≤ a.1 + window := by
  have hinbox : ∀ a ∈ b.inbox.flatten.map (Prod.mk now), now ≤ a.1 + window := by
    intro a ha
    obtain ⟨x, -, rfl⟩ := List.mem_map.1 ha
    exact Nat.le_add_right _ _
  have hopen : ∀ {before since : List (Moment α)} {opening : Moment α},
      Opened window log before opening since → now ≤ opening.time + window → ∃ gone waiting,
        arrivals log = gone ++ waiting ∧ List.Forall₂ (InTime window) gone (departures log) ∧
          ∀ a ∈ waiting, now ≤ a.1 + window := by
    intro before since opening ho hn
    refine ⟨readings before,
      readings (opening :: since) ++ b.inbox.flatten.map (Prod.mk now), ?_, ?_, ?_⟩
    · rw [h.arrivals_eq, ho.readings_eq, List.append_assoc]
    · rw [ho.departures_eq]
      exact ho.cleared
    · intro a ha
      rcases List.mem_append.1 ha with ha | ha
      · exact Nat.le_trans hn (Nat.add_le_add_right (ho.le_of_mem_readings h.sorted ha) _)
      · exact hinbox a ha
  cases h.gathers with
  | clear _ _ hclr | finished _ _ hclr => exact ⟨_, _, h.arrivals_eq, hclr, hinbox⟩
  | gathering ho _ _ hd hn => exact hopen ho (hd ▸ hn)
  | handing ho _ _ hn => exact hopen ho hn

/-- After the end of the stream all that was accepted has been queued, and was when it ended. -/
theorem departed (h : OnTime window log now b) (hs : b.Sound) (hcl : b.isClosed = false)
    (hcn : b.isCancelled = false) (hm : m ∈ log) (hc : m.cause = .action .finishStream)
    (hlate : Timed.Quiet now b ∨ m.time < now) :
    (departures log).map Prod.snd = accepted log ∧ ∀ d ∈ departures log, d.1 ≤ m.time := by
  obtain ⟨hend, hfin, hle⟩ := h.ended m hm hc
  have hph : b.phase = .finished :=
    hlate.elim (fun hq => h.finished_of_quiet hq hs hcl hcn hend) hfin
  have hclr : Cleared window log := by
    cases h.gathers with
    | finished _ _ hclr => exact hclr
    | clear hph' | gathering _ hph' | handing _ hph' =>
      rw [hph] at hph'
      cases hph'
  have harr := h.arrivals_eq
  rw [(hs.read_of_finished hph hcn hcl).2.1, List.flatten_nil, List.map_nil,
    List.append_nil] at harr
  refine ⟨?_, hle⟩
  rw [map_snd_of_inTime hclr, ← harr]
  exact map_snd_stamped _ _

/-- At rest an empty item changes nothing. -/
theorem settle_push_nil (h : OnTime window log now b) (hq : Timed.Quiet now b) (hs : b.Sound)
    (hcl : b.isClosed = false) (hcn : b.isCancelled = false) :
    Timed.settle now (b.push []).1 = b := by
  obtain ⟨hi, hph⟩ := h.rest hq hs hcl hcn
  have hself : Timed.settle now b = b :=
    Timed.settle_of_next?_eq_none (Timed.next?_eq_none_iff.2 hq)
  rcases push_cases [] b with ⟨hpush, -⟩ | ⟨-, he, hf⟩
  · rw [hpush, hself]
  · have hcoll : b.phase = .collecting := hph.resolve_right hf
    have hpush : (b.push []).1 = { b with inbox := [[]] } := by
      simp [push, he, isFinished, hcoll, hi]
    have hnext : Timed.next? now { b with inbox := [[]] } = some b := by
      have hstop : move? now { b with inbox := [[]] } .stop = none := by simp [move?, hcoll, hcn]
      have hhand : move? now { b with inbox := [[]] } .hand = none := by simp [move?, hcoll]
      have hrelease : move? now { b with inbox := [[]] } .release = none := by
        simpa [move?, hcoll] using move?_eq_none_of_quiet hq .release
      have hread : move? now { b with inbox := [[]] } .read = some b := by
        obtain ⟨⟩ := b
        cases hi
        cases hcoll
        rfl
      show moveOrder.findSome? (move? now { b with inbox := [[]] }) = some b
      simp only [moveOrder, List.findSome?_cons, hstop, hhand, hrelease, hread]
    rw [hpush, Timed.settle_of_next? hnext, hself]

end OnTime

/-! ## Along a punctual course -/

theorem not_mem_of_snoc_action {a c : Action α} {time : Nat}
    (h : c ∉ actionsOf (log ++ [⟨time, b, .action a⟩])) : c ∉ actionsOf log := by
  rw [actionsOf_snoc_action, List.mem_append, not_or] at h
  exact h.1

theorem onTime_of_punctual (hp : Punctual (origin window capacity) log t)
    (hcl : .close ∉ actionsOf log) (hcn : .cancel ∉ actionsOf log) (hr : FindsRoom log) :
    OnTime window log t.now t.state := by
  induction hp with
  | start => exact onTime_origin window capacity
  | sleep later hp hs ih =>
    have hd := delivers_of_course hp.course
    exact (ih hcl hcn hr).sleep hs hd.sound (hd.isClosed_eq hcl) (hd.isCancelled_eq hcn)
  | action a hp ih =>
    have hr' := (List.forall_mem_append.1 hr).1
    exact (ih (not_mem_of_snoc_action hcl) (not_mem_of_snoc_action hcn) hr').action a
  | @move log t b' mv hp hm ih =>
    obtain ⟨hr', hroom⟩ := List.forall_mem_append.1 hr
    rw [actionsOf_snoc_move] at hcl hcn
    have hd := delivers_of_course hp.course
    exact (ih hcl hcn hr').move (moves_of_move? hm) (hd.isClosed_eq hcl) (hd.isCancelled_eq hcn)
      (hroom _ (List.mem_singleton_self _))

/-- In a punctual course in which the queue always has room, every item is read when it comes, and
every batch consists of what was read since its window opened.  A batch that is not the last one is
queued exactly when its window is over, so no item waits for longer than that, and two such batches
are a window apart.  An empty item opens no window, and at rest it changes nothing.  At the end of
the stream what is pending is queued at once.  In every punctual course, also one in which the
batcher has waited for room, the window of what is pending at rest closes later, but not later than
a window from now. -/
theorem windows_of_punctual (hp : Punctual (origin window capacity) log t) :
    (.close ∉ actionsOf log → .cancel ∉ actionsOf log → FindsRoom log →
      arrivals log = readings log ++ t.state.inbox.flatten.map (Prod.mk t.now) ∧
      (∀ early m, early ++ [m] <+: log → m.queued ≠ [] → QueuesWindow window early m) ∧
      (∃ gone waiting, arrivals log = gone ++ waiting ∧
        List.Forall₂ (InTime window) gone (departures log) ∧
        ∀ a ∈ waiting, t.now ≤ a.1 + window) ∧
      ((log.filter Moment.closesWindow).Pairwise fun m m' => m.time + window ≤ m'.time) ∧
      (Timed.Quiet t.now t.state → (perform (.push []) t).1 = t) ∧
      ∀ m ∈ log, m.cause = .action .finishStream →
        Timed.Quiet t.now t.state ∨ m.time < t.now →
        (departures log).map Prod.snd = accepted log ∧ ∀ d ∈ departures log, d.1 ≤ m.time) ∧
    (Timed.Quiet t.now t.state → t.state.phase = .collecting → t.state.pending ≠ [] →
      t.now < t.state.deadline ∧ t.state.deadline ≤ t.now + window) := by
  refine ⟨fun hcl hcn hr => ?_, fun hq hph hpend => ?_⟩
  · have h := onTime_of_punctual hp hcl hcn hr
    have hd := delivers_of_course hp.course
    have hclosed := hd.isClosed_eq hcl
    have hcancelled := hd.isCancelled_eq hcn
    refine ⟨h.arrivals_eq, h.queues, h.exists_waiting, h.apart, fun hq => ?_, fun m hm hc => ?_⟩
    · have hs := h.settle_push_nil hq hd.sound hclosed hcancelled
      show (⟨t.now, Timed.settle t.now (t.state.push []).1⟩ : Timeline (Batcher α)) = t
      rw [hs]
    · exact h.departed hd.sound hclosed hcancelled hm hc
  · have hlt := lt_deadline_of_collecting (move?_eq_none_of_quiet hq) hph hpend
    exact ⟨hlt, (closesBy_of_course hp.course).2 hpend⟩

/-- A window with an empty item in it and one that the end of the stream closes; and a batcher that
opens a window after it has waited for room. -/
theorem windows_until_end :
    (∃ log t, Punctual (origin (α := Nat) 10 1) log t ∧
      .close ∉ actionsOf log ∧ .cancel ∉ actionsOf log ∧ FindsRoom log ∧
      timedActionsOf log = [(0, .push [1]), (2, .push []), (4, .push [2]), (11, .receive),
        (12, .push [3]), (15, .finishStream)] ∧
      departures log = [(10, 1), (10, 2), (15, 3)] ∧
      (∀ early m, early ++ [m] <+: log → m.queued ≠ [] → QueuesWindow 10 early m) ∧
      (departures log).map Prod.snd = accepted log) ∧
    ∃ log t, Punctual (origin (α := Nat) 10 1) log t ∧ ¬ FindsRoom log ∧
      timedActionsOf log = [(0, .push [1]), (10, .push [2]), (23, .receive), (23, .push [3])] ∧
      t.state.pending = [3] ∧ t.now < t.state.deadline ∧ t.state.deadline ≤ t.now + 10 := by
  have h₀ : Punctual (origin (α := Nat) 10 1) [] _ := .start
  constructor
  · have h₁ := ((h₀.action (.push [1])).move .read rfl).sleep_of 2 (by decide) rfl (by decide)
    have h₂ := ((h₁.action (.push [])).move .read rfl).sleep_of 4 (by decide) rfl (by decide)
    have h₃ := ((h₂.action (.push [2])).move .read rfl).sleep_of 10 (by decide) rfl (by decide)
    have h₄ := ((h₃.move .release rfl).move .hand rfl).sleep_of 11 (by decide) rfl (by decide)
    have h₅ := (h₄.action .receive).sleep_of 12 (by decide) rfl (by decide)
    have h₆ := ((h₅.action (.push [3])).move .read rfl).sleep_of 15 (by decide) rfl (by decide)
    have h₇ := ((h₆.action .finishStream).move .flush rfl).move .hand rfl
    obtain ⟨-, hqueues, -, -, -, hend⟩ :=
      (windows_of_punctual h₇).1 (by decide) (by decide) (by decide)
    refine ⟨_, _, h₇, by decide, by decide, by decide, rfl, rfl, hqueues, ?_⟩
    -- the end of the stream is the moment before the last batch is taken in hand and queued
    exact (hend _ (List.mem_append_left _ (List.mem_append_left _ (List.mem_append_right _
      (List.mem_singleton_self _)))) rfl (Or.inl (Timed.next?_eq_none_iff.1 rfl))).1
  · have h₁ := ((h₀.action (.push [1])).move .read rfl).sleep_of 10 (by decide) rfl (by decide)
    have h₂ := ((h₁.move .release rfl).move .hand rfl).action (.push [2])
    have h₃ := (h₂.move .read rfl).sleep_of 20 (by decide) rfl (by decide)
    have h₄ := (h₃.move .release rfl).sleep_of 23 (by decide) rfl (by decide)
    have h₅ := ((h₄.action .receive).move .hand rfl).action (.push [3])
    have h₆ := h₅.move .read rfl
    have hq := (windows_of_punctual h₆).2 (Timed.next?_eq_none_iff.1 rfl) rfl (by decide)
    exact ⟨_, _, h₆, by decide, rfl, rfl, hq⟩

end LiveRooms.Batcher
