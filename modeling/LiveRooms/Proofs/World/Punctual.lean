import LiveRooms.Proofs.Timeline.Pass
import LiveRooms.Proofs.World.Course

/-!
# Punctual courses

In a course a move may be made any time after it becomes possible.  A course is punctual when time
passes only while the world sleeps: no move is left, and no timer is skipped.  The order of the
moves at one instant stays open, and so does what comes first at one instant, a move or a step from
outside.  Every run is a punctual course, and its steps are made at rest, when no move is left
(`StepsAtRest`, `exists_punctual_run`).
-/

namespace LiveRooms.World

/-- The courses in which nobody is late. -/
inductive Punctual (t₀ : Timeline World) : List Moment → Timeline World → Prop where
  | start : Punctual t₀ [] t₀
  | sleep {log : List Moment} {t : Timeline World} (later : Nat) :
      Punctual t₀ log t → Timed.Sleeps t.now later t.state → Punctual t₀ log ⟨later, t.state⟩
  | step {log : List Moment} {t : Timeline World} (s : Step) :
      Punctual t₀ log t →
        Punctual t₀ (log ++ [⟨t.now, t.state, .step s⟩]) ⟨t.now, (t.state.step s).1⟩
  | move {log : List Moment} {t : Timeline World} {w : World} (m : Move) :
      Punctual t₀ log t → t.state.move? t.now m = some w →
        Punctual t₀ (log ++ [⟨t.now, t.state, .move m⟩]) ⟨t.now, w⟩

/-- Whoever makes a step from outside waits until no move is left. -/
def StepsAtRest (log : List Moment) : Prop :=
  ∀ m ∈ log, m.step?.isSome = true → Timed.Quiet m.time m.before

instance (log : List Moment) : Decidable (StepsAtRest log) :=
  decidable_of_iff (∀ m ∈ log, m.step?.isSome = true → (Timed.next? m.time m.before).isNone = true)
    (by simp only [StepsAtRest, Option.isNone_iff_eq_none, Timed.next?_eq_none_iff])

theorem stepsAtRest_append {log log' : List Moment} :
    StepsAtRest (log ++ log') ↔ StepsAtRest log ∧ StepsAtRest log' := List.forall_mem_append

theorem stepsAtRest_of_timedStepsOf_eq_nil {log : List Moment} (h : timedStepsOf log = []) :
    StepsAtRest log := by
  intro m hm hs
  rw [Option.map_eq_none_iff.1 (List.filterMap_eq_nil_iff.1 h m hm)] at hs
  cases hs

/-- The steps from outside among some happenings, each with the time at which it is made. -/
def timedSteps (now : Nat) : List Happening → List (Nat × Step)
  | [] => []
  | .wait ms :: hs => timedSteps (now + ms) hs
  | .step s :: hs => (now, s) :: timedSteps now hs

namespace Punctual

variable {t₀ t : Timeline World} {log : List Moment}

theorem course (h : Punctual t₀ log t) : Course t₀ log t := by
  induction h with
  | start => exact .start
  | sleep later _ hs ih => exact ih.wait later hs.le
  | step s _ ih => exact ih.step s
  | move m _ hm ih => exact ih.move m hm

/-- A punctual course goes through the world before each of its moments. -/
theorem of_append_cons {early late : List Moment} {m : Moment}
    (h : Punctual t₀ (early ++ m :: late) t) : Punctual t₀ early ⟨m.time, m.before⟩ := by
  generalize hlog : early ++ m :: late = log at h
  induction h generalizing late with
  | start => simp at hlog
  | sleep later _ _ ih => exact ih hlog
  | step s hp ih | move mv hp _ ih =>
    rcases snoc_eq_append_cons hlog.symm with ⟨rfl, rfl, rfl⟩ | ⟨late', rfl, rfl⟩
    · exact hp
    · exact ih rfl

theorem sleep_of (h : Punctual t₀ log t) (later : Nat) (hl : t.now ≤ later)
    (hq : Timed.next? t.now t.state = none)
    (ht : ∀ timer ∈ Timed.timers t.state, t.now < timer → later ≤ timer) :
    Punctual t₀ log ⟨later, t.state⟩ :=
  h.sleep later ⟨hl, Timed.next?_eq_none_iff.1 hq, ht⟩

/-! ## Runs are punctual -/

theorem settle (h : Punctual t₀ log t) :
    ∃ log', Punctual t₀ (log ++ log') ⟨t.now, Timed.settle t.now t.state⟩ ∧
      timedStepsOf log' = [] := by
  refine Timed.settle_induction
    (P := fun w => ∃ log', Punctual t₀ (log ++ log') ⟨t.now, w⟩ ∧ timedStepsOf log' = [])
    ?_ ⟨[], by rwa [List.append_nil], rfl⟩
  rintro w w' m ⟨log', hp, hs⟩ - hm
  refine ⟨log' ++ [⟨t.now, w, .move m⟩], ?_, by rw [timedStepsOf_snoc_move, hs]⟩
  rw [← List.append_assoc]
  exact hp.move m hm

theorem advance (h : Punctual t₀ log t) (hq : Timed.Quiet t.now t.state) (ms : Nat) :
    ∃ log', Punctual t₀ (log ++ log') (t.advance ms) ∧ timedStepsOf log' = [] := by
  refine Timeline.advance_induction
    (P := fun now w => ∃ log', Punctual t₀ (log ++ log') ⟨now, w⟩ ∧ timedStepsOf log' = [])
    ?_ ?_ ⟨[], by rwa [List.append_nil], rfl⟩ hq ms
  · rintro now w w' m ⟨log', hp, hs⟩ - hm
    refine ⟨log' ++ [⟨now, w, .move m⟩], ?_, by rw [timedStepsOf_snoc_move, hs]⟩
    rw [← List.append_assoc]
    exact hp.move m hm
  · rintro now later w ⟨log', hp, hs⟩ hsleep
    exact ⟨log', hp.sleep later hsleep, hs⟩

theorem run (h : Punctual t₀ log t) (hq : Timed.Quiet t.now t.state) (hs : List Happening) :
    (∃ log', Punctual t₀ (log ++ log') (World.run t hs) ∧ StepsAtRest log' ∧
      timedStepsOf log' = timedSteps t.now hs) ∧
      Timed.Quiet (World.run t hs).now (World.run t hs).state := by
  induction hs generalizing log t with
  | nil => exact ⟨⟨[], by rwa [List.append_nil], by simp [StepsAtRest], rfl⟩, hq⟩
  | cons what hs ih =>
    cases what with
    | wait ms =>
      obtain ⟨log₁, hp₁, hs₁⟩ := h.advance hq ms
      obtain ⟨⟨log₂, hp₂, hr₂, hs₂⟩, hq₂⟩ := ih hp₁ (Timeline.quiet_advance ms t)
      refine ⟨⟨log₁ ++ log₂, ?_, ?_, ?_⟩, hq₂⟩
      · rwa [← List.append_assoc]
      · exact stepsAtRest_append.2 ⟨stepsAtRest_of_timedStepsOf_eq_nil hs₁, hr₂⟩
      · rw [timedStepsOf_append, hs₁, hs₂]
        rfl
    | step s =>
      obtain ⟨log₁, hp₁, hs₁⟩ := (h.step s).settle
      have hq₁ : Timed.Quiet t.now (Timed.settle t.now (t.state.step s).1) :=
        Timed.quiet_settle t.now _
      obtain ⟨⟨log₂, hp₂, hr₂, hs₂⟩, hq₂⟩ := ih hp₁ hq₁
      refine ⟨⟨⟨t.now, t.state, .step s⟩ :: (log₁ ++ log₂), ?_, ?_, ?_⟩, hq₂⟩
      · rwa [List.append_assoc, List.append_assoc] at hp₂
      · exact List.forall_mem_cons.2 ⟨fun _ => hq,
          stepsAtRest_append.2 ⟨stepsAtRest_of_timedStepsOf_eq_nil hs₁, hr₂⟩⟩
      · show (t.now, s) :: timedStepsOf (log₁ ++ log₂) = _
        rw [timedStepsOf_append, hs₁, hs₂]
        rfl

end Punctual

/-- A run from the first moment on is a punctual course with the same steps at the same times, all
made at rest, and at its end no move is left. -/
theorem exists_punctual_run (config : Config) (sources : List Source) (directory : Directory)
    (hs : List Happening) :
    (∃ log, Punctual (origin config sources directory) log
        (run (.start (new config sources directory)) hs) ∧ StepsAtRest log ∧
      timedStepsOf log = timedSteps 0 hs) ∧
      Timed.Quiet (run (.start (new config sources directory)) hs).now
        (run (.start (new config sources directory)) hs).state := by
  have h₀ : Punctual (origin config sources directory) [] _ := .start
  obtain ⟨log₁, hp₁, hs₁⟩ := h₀.settle
  obtain ⟨⟨log₂, hp₂, hr₂, hs₂⟩, hq₂⟩ := hp₁.run (Timeline.quiet_start _) hs
  refine ⟨⟨_, hp₂, stepsAtRest_append.2 ⟨stepsAtRest_of_timedStepsOf_eq_nil hs₁, hr₂⟩, ?_⟩, hq₂⟩
  rw [timedStepsOf_append, timedStepsOf_append, hs₁, hs₂]
  rfl

end LiveRooms.World
