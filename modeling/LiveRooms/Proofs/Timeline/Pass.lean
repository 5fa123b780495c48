import LiveRooms.Timeline

/-!
# While time passes

The clock stops at every timer on the way and the system settles there, so in between the system has
no move left and waits for no instant that is skipped (`Timed.Sleeps`).  What moves keep, and what
such a sleep keeps, still holds when the time has passed (`Timed.pass_induction`,
`Timeline.advance_induction`).
-/

namespace LiveRooms

namespace Timed

variable {σ μ : Type} [Timed σ μ] {now later target : Nat} {s : σ}

/-- From `now` up to `later` the system has no move and waits for no instant in between. -/
structure Sleeps (now later : Nat) (s : σ) : Prop where
  le : now ≤ later
  quiet : Quiet now s
  timers (timer : Nat) : timer ∈ timers s → now < timer → later ≤ timer

theorem le_of_earliest? {t timer : Nat} {instants : List Nat}
    (h : earliest? now target instants = some t) (hm : timer ∈ instants) (hn : now < timer) :
    t ≤ timer := by
  by_cases ht : timer ≤ target
  · have hf : timer ∈ instants.filter fun t => now < t && t ≤ target := by simp [hm, hn, ht]
    exact (List.min?_eq_some_iff.1 h).2 timer hf
  · have := (earliest?_spec h).2
    omega

theorem lt_of_earliest?_eq_none {timer : Nat} {instants : List Nat}
    (h : earliest? now target instants = none) (hm : timer ∈ instants) (hn : now < timer) :
    target < timer := by
  rw [earliest?, List.min?_eq_none_iff, List.filter_eq_nil_iff] at h
  have := h timer hm
  simp only [Bool.and_eq_true, decide_eq_true_eq, not_and, Nat.not_le] at this
  exact this hn

variable {P : Nat → σ → Prop}

/-- What moves and sleeps keep holds after time has passed. -/
theorem pass_induction
    (hmove : ∀ now s s' m, P now s → m ∈ moves s → move? now s m = some s' → P now s')
    (hsleep : ∀ now later s, P now s → Sleeps now later s → P later s)
    (h : P now s) (hq : Quiet now s) (hle : now ≤ target) : P target (pass now target s) := by
  fun_induction pass now target s with
  | case1 now s timer ht ih =>
    obtain ⟨hlt, hle'⟩ := earliest?_spec ht
    have hs : Sleeps now timer s :=
      ⟨Nat.le_of_lt hlt, hq, fun t hm hn => le_of_earliest? ht hm hn⟩
    have h' := settle_induction (fun s s' m => hmove timer s s' m) (hsleep now timer s h hs)
    exact ih h' (quiet_settle timer s) hle'
  | case2 now s ht =>
    exact hsleep now target s h
      ⟨hle, hq, fun t hm hn => Nat.le_of_lt (lt_of_earliest?_eq_none ht hm hn)⟩

end Timed

namespace Timeline

variable {σ μ ρ : Type} [Timed σ μ] {t : Timeline σ} {P : Nat → σ → Prop}

/-- The same for a clock that is advanced. -/
theorem advance_induction
    (hmove : ∀ now s s' m, P now s → m ∈ Timed.moves s → Timed.move? now s m = some s' → P now s')
    (hsleep : ∀ now later s, P now s → Timed.Sleeps now later s → P later s)
    (h : P t.now t.state) (hq : Timed.Quiet t.now t.state) (ms : Nat) :
    P (t.advance ms).now (t.advance ms).state :=
  Timed.settle_induction (fun s s' m => hmove (t.now + ms) s s' m)
    (Timed.pass_induction hmove hsleep h hq (Nat.le_add_right _ _))

theorem quiet_start (s : σ) : Timed.Quiet (start s).now (start s).state :=
  Timed.quiet_settle 0 s

theorem quiet_advance (ms : Nat) (t : Timeline σ) :
    Timed.Quiet (t.advance ms).now (t.advance ms).state := Timed.quiet_settle (t.now + ms) _

theorem quiet_act (action : σ → σ × ρ) (t : Timeline σ) :
    Timed.Quiet (t.act action).1.now (t.act action).1.state := Timed.quiet_settle t.now _

end Timeline

end LiveRooms
