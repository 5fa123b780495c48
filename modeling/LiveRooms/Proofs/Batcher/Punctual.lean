import LiveRooms.Proofs.Batcher.Course

/-!
# Punctual courses of a batcher

A course of a batcher is punctual when time passes only while the batcher sleeps: no move is left,
and no timer is skipped.  The order of the moves at one instant stays open, and so does what comes
first at one instant, a move or an action.  Every run is a punctual course with the same actions at
the same times (`exists_punctual_history`).
-/

namespace LiveRooms.Batcher

variable {α : Type}

/-- The courses in which nobody is late. -/
inductive Punctual (t₀ : Timeline (Batcher α)) : List (Moment α) → Timeline (Batcher α) → Prop where
  | start : Punctual t₀ [] t₀
  | sleep {log : List (Moment α)} {t : Timeline (Batcher α)} (later : Nat) :
      Punctual t₀ log t → Timed.Sleeps t.now later t.state → Punctual t₀ log ⟨later, t.state⟩
  | action {log : List (Moment α)} {t : Timeline (Batcher α)} (a : Action α) :
      Punctual t₀ log t →
        Punctual t₀ (log ++ [⟨t.now, t.state, .action a⟩]) ⟨t.now, a.effect t.state⟩
  | move {log : List (Moment α)} {t : Timeline (Batcher α)} {b : Batcher α} (m : Move) :
      Punctual t₀ log t → t.state.move? t.now m = some b →
        Punctual t₀ (log ++ [⟨t.now, t.state, .move m⟩]) ⟨t.now, b⟩

/-- The actions in a log, in order, each with its time. -/
def timedActionsOf (log : List (Moment α)) : List (Nat × Action α) :=
  log.filterMap fun m => m.action?.map (Prod.mk m.time)

/-- When an action that begins now is over. -/
def Action.over (now : Nat) : Action α → Nat
  | .wait ms => now + ms
  | _ => now

/-- Actions one after the other, each with the time at which it begins. -/
def timedActions (now : Nat) : List (Action α) → List (Nat × Action α)
  | [] => []
  | a :: actions => (now, a) :: timedActions (a.over now) actions

theorem timedActionsOf_append (log log' : List (Moment α)) :
    timedActionsOf (log ++ log') = timedActionsOf log ++ timedActionsOf log' :=
  List.filterMap_append

@[simp] theorem timedActionsOf_snoc_move (log : List (Moment α)) (time : Nat) (b : Batcher α)
    (m : Move) : timedActionsOf (log ++ [⟨time, b, .move m⟩]) = timedActionsOf log := by
  simp [timedActionsOf, Moment.action?]

theorem move?_eq_none_of_quiet {now : Nat} {b : Batcher α} (h : Timed.Quiet now b) (m : Move) :
    b.move? now m = none := by
  have hm : m ∈ moveOrder := by cases m <;> decide
  exact h m hm

namespace Punctual

variable {t₀ t : Timeline (Batcher α)} {log : List (Moment α)}

theorem course (h : Punctual t₀ log t) : Course t₀ log t := by
  induction h with
  | start => exact .start
  | sleep later _ hs ih => exact ih.wait later hs.le
  | action a _ ih => exact ih.action a
  | move m _ hm ih => exact ih.move m hm

theorem sleep_of (h : Punctual t₀ log t) (later : Nat) (hl : t.now ≤ later)
    (hq : Timed.next? t.now t.state = none)
    (ht : ∀ timer ∈ Timed.timers t.state, t.now < timer → later ≤ timer) :
    Punctual t₀ log ⟨later, t.state⟩ :=
  h.sleep later ⟨hl, Timed.next?_eq_none_iff.1 hq, ht⟩

/-! ## Runs are punctual -/

theorem settle (h : Punctual t₀ log t) :
    ∃ log', Punctual t₀ (log ++ log') ⟨t.now, Timed.settle t.now t.state⟩ ∧
      timedActionsOf log' = [] := by
  refine Timed.settle_induction
    (P := fun b => ∃ log', Punctual t₀ (log ++ log') ⟨t.now, b⟩ ∧ timedActionsOf log' = [])
    ?_ ⟨[], by rwa [List.append_nil], rfl⟩
  rintro b b' m ⟨log', hp, hs⟩ - hm
  refine ⟨log' ++ [⟨t.now, b, .move m⟩], ?_, by rw [timedActionsOf_snoc_move, hs]⟩
  rw [← List.append_assoc]
  exact hp.move m hm

theorem advance (h : Punctual t₀ log t) (hq : Timed.Quiet t.now t.state) (ms : Nat) :
    ∃ log', Punctual t₀ (log ++ log') (t.advance ms) ∧ timedActionsOf log' = [] := by
  refine Timeline.advance_induction
    (P := fun now b => ∃ log', Punctual t₀ (log ++ log') ⟨now, b⟩ ∧ timedActionsOf log' = [])
    ?_ ?_ ⟨[], by rwa [List.append_nil], rfl⟩ hq ms
  · rintro now b b' m ⟨log', hp, hs⟩ - hm
    refine ⟨log' ++ [⟨now, b, .move m⟩], ?_, by rw [timedActionsOf_snoc_move, hs]⟩
    rw [← List.append_assoc]
    exact hp.move m hm
  · rintro now later b ⟨log', hp, hs⟩ hsleep
    exact ⟨log', hp.sleep later hsleep, hs⟩

theorem perform (h : Punctual t₀ log t) (hq : Timed.Quiet t.now t.state) (a : Action α) :
    ∃ log', Punctual t₀ (log ++ log') (perform a t).1 ∧ timedActionsOf log' = [(t.now, a)] := by
  have ha := h.action a
  have hrest : ∃ log', Punctual t₀ (log ++ [⟨t.now, t.state, .action a⟩] ++ log')
      (Batcher.perform a t).1 ∧ timedActionsOf log' = [] := by
    cases a with
    | wait ms => exact ha.advance hq ms
    | push | receive | close | finishStream | cancel => exact ha.settle
  obtain ⟨log', hp, hs⟩ := hrest
  refine ⟨⟨t.now, t.state, .action a⟩ :: log', by rwa [List.append_assoc] at hp, ?_⟩
  show (t.now, a) :: timedActionsOf log' = _
  rw [hs]

end Punctual

theorem now_perform (a : Action α) (t : Timeline (Batcher α)) :
    (perform a t).1.now = a.over t.now := by
  cases a <;> rfl

/-- What a run has come to after each of its actions is what a punctual course with the same
actions, at the same times, has come to, and no move is left then. -/
theorem exists_punctual_history (window capacity : Nat) (actions : List (Action α)) {i : Nat}
    {entry : Timeline (Batcher α) × Answer α}
    (h : (history (start window capacity) actions)[i]? = some entry) :
    (∃ log, Punctual (origin window capacity) log entry.1 ∧
      timedActionsOf log = timedActions 0 (actions.take (i + 1))) ∧
      Timed.Quiet entry.1.now entry.1.state := by
  suffices hs : ∀ (as : List (Action α)) (t : Timeline (Batcher α)) (log : List (Moment α)),
      Punctual (origin window capacity) log t → Timed.Quiet t.now t.state → ∀ i entry,
        (history t as)[i]? = some entry →
          (∃ log', Punctual (origin window capacity) (log ++ log') entry.1 ∧
            timedActionsOf log' = timedActions t.now (as.take (i + 1))) ∧
          Timed.Quiet entry.1.now entry.1.state by
    have h₀ : Punctual (origin (α := α) window capacity) [] _ := .start
    obtain ⟨log₁, hp₁, hs₁⟩ := h₀.settle
    obtain ⟨⟨log₂, hp₂, hs₂⟩, hq⟩ := hs actions _ _ hp₁ (Timeline.quiet_start _) i entry h
    refine ⟨⟨_, hp₂, ?_⟩, hq⟩
    rw [timedActionsOf_append, timedActionsOf_append, hs₁, hs₂]
    rfl
  intro as
  induction as with
  | nil =>
    intro t log _ _ i entry h
    cases h
  | cons a as ih =>
    intro t log hp hq i entry h
    obtain ⟨log₁, hp₁, hs₁⟩ := hp.perform hq a
    cases i with
    | zero =>
      obtain rfl := Option.some.inj h
      exact ⟨⟨log₁, hp₁, hs₁⟩, quiet_perform a t⟩
    | succ i =>
      obtain ⟨⟨log₂, hp₂, hs₂⟩, hq₂⟩ := ih _ _ hp₁ (quiet_perform a t) i entry h
      refine ⟨⟨log₁ ++ log₂, by rwa [← List.append_assoc], ?_⟩, hq₂⟩
      rw [timedActionsOf_append, hs₁, hs₂, now_perform]
      rfl

end LiveRooms.Batcher
