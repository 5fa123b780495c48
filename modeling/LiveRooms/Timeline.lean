/-!
# Systems on a virtual clock

A timed system has moves of its own and timers.  Between two instants at which something happens to
it from outside it runs until no move is left (`Timed.settle`); when time passes, the clock stops at
every timer on the way and the system settles there (`Timed.pass`).  Every move uses up some of a
load, so settling ends.
-/

namespace LiveRooms

/-- A system with states `σ` whose own moves are named by `μ`. -/
class Timed (σ : Type) (μ : outParam Type) where
  /-- The moves that may be possible, in the order in which they are tried. -/
  moves : σ → List μ
  /-- The state after a move at the given time, if the move is possible. -/
  move? : Nat → σ → μ → Option σ
  /-- How much is left to do before time passes. -/
  load : σ → Nat
  load_lt : ∀ {now : Nat} {s s' : σ} {m : μ}, move? now s m = some s' → load s' < load s
  /-- The instants that the system waits for. -/
  timers : σ → List Nat

namespace Timed

variable {σ μ : Type} [Timed σ μ]

/-- The state after the first possible move. -/
def next? (now : Nat) (s : σ) : Option σ := (moves s).findSome? (move? now s)

theorem exists_move_of_next? {now : Nat} {s s' : σ} (h : next? now s = some s') :
    ∃ m ∈ moves s, move? now s m = some s' := by
  rw [next?, List.findSome?_eq_some_iff] at h
  obtain ⟨before, m, after, he, hm, -⟩ := h
  exact ⟨m, by rw [he]; simp, hm⟩

theorem load_lt_of_next? {now : Nat} {s s' : σ} (h : next? now s = some s') :
    load s' < load s :=
  let ⟨_, _, hm⟩ := exists_move_of_next? h
  load_lt hm

/-- Moves until no move is possible. -/
def settle (now : Nat) (s : σ) : σ :=
  match _ : next? now s with
  | some s' => settle now s'
  | none => s
termination_by load s
decreasing_by exact load_lt_of_next? ‹_›

/-- No move is possible. -/
def Quiet (now : Nat) (s : σ) : Prop := ∀ m ∈ moves s, move? now s m = none

theorem settle_of_next? {now : Nat} {s s' : σ} (h : next? now s = some s') :
    settle now s = settle now s' := by
  rw [settle]
  split
  · rename_i h'; rw [h] at h'; cases h'; rfl
  · rename_i h'; rw [h] at h'; cases h'

theorem settle_of_next?_eq_none {now : Nat} {s : σ} (h : next? now s = none) :
    settle now s = s := by
  rw [settle]
  split
  · rename_i h'; rw [h] at h'; cases h'
  · rfl

theorem next?_eq_none_iff {now : Nat} {s : σ} : next? now s = none ↔ Quiet now s := by
  simp [next?, Quiet, List.findSome?_eq_none_iff]

/-- What moves keep, settling keeps. -/
theorem settle_induction {now : Nat} {P : σ → Prop}
    (hmove : ∀ s s' m, P s → m ∈ moves s → move? now s m = some s' → P s') {s : σ} (h : P s) :
    P (settle now s) := by
  fun_induction settle now s with
  | case1 s s' hn ih =>
    obtain ⟨m, hm, he⟩ := exists_move_of_next? hn
    exact ih (hmove _ _ _ h hm he)
  | case2 s hn => exact h

/-- A settled system has no move left. -/
theorem quiet_settle (now : Nat) (s : σ) : Quiet now (settle now s) := by
  fun_induction settle now s with
  | case1 s s' hn ih => exact ih
  | case2 s hn => exact next?_eq_none_iff.1 hn

/-- The earliest of some instants that lies after `now` and not after `target`. -/
def earliest? (now target : Nat) (instants : List Nat) : Option Nat :=
  (instants.filter fun t => now < t && t ≤ target).min?

theorem earliest?_spec {now target t : Nat} {instants : List Nat}
    (h : earliest? now target instants = some t) : now < t ∧ t ≤ target := by
  have := List.min?_mem h
  simpa using (List.mem_filter.1 this).2

/-- Lets time pass from `now` up to `target`; the system settles at every timer on the way. -/
def pass (now target : Nat) (s : σ) : σ :=
  match _ : earliest? now target (timers s) with
  | some t => pass t target (settle t s)
  | none => s
termination_by target - now
decreasing_by
  have := earliest?_spec ‹_›
  omega

end Timed

/-- A timed system together with the time on its clock. -/
structure Timeline (σ : Type) where
  now : Nat
  state : σ

namespace Timeline

variable {σ μ ρ : Type} [Timed σ μ]

/-- The system at time zero, settled. -/
def start (s : σ) : Timeline σ := ⟨0, Timed.settle 0 s⟩

/-- Lets some milliseconds pass. -/
def advance (ms : Nat) (t : Timeline σ) : Timeline σ :=
  ⟨t.now + ms, Timed.settle (t.now + ms) (Timed.pass t.now (t.now + ms) t.state)⟩

/-- Does something to the system from outside and lets it settle. -/
def act (action : σ → σ × ρ) (t : Timeline σ) : Timeline σ × ρ :=
  let (s, result) := action t.state
  (⟨t.now, Timed.settle t.now s⟩, result)

end Timeline

end LiveRooms
