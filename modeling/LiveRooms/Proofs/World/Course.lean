import LiveRooms.World.Run

/-!
# Courses of a world

A run settles the world after everything that happens to it, and settling tries the moves in one
fixed order.  A course leaves the order open: steps from outside, moves of the parts and the passing
of time follow each other in any order, and a move need not be made as soon as it is possible.  The
log of a course holds its steps and moves, each with the time and the world right before it.

Every run is a course (`exists_course_run`), so what holds at the end of every course holds after
every run, in whatever order the parts make their moves.
-/

namespace LiveRooms

/-- What changes a world. -/
inductive Cause where
  | step (s : Step)
  | move (m : World.Move)
  deriving Repr

/-- A change of a world, with the time and the world right before it. -/
structure Moment where
  time : Nat
  before : World
  cause : Cause
  deriving Repr

/-- The step from outside that a happening consists of. -/
def Happening.step? : Happening → Option Step
  | .wait _ => none
  | .step s => some s

/-- The step from outside at a moment, if there is one. -/
def Moment.step? (m : Moment) : Option Step :=
  match m.cause with
  | .step s => some s
  | .move _ => none

/-- The steps from outside in a log, in order. -/
def stepsOf (log : List Moment) : List Step := log.filterMap Moment.step?

/-- The steps from outside in a log, in order, each with its time. -/
def timedStepsOf (log : List Moment) : List (Nat × Step) :=
  log.filterMap fun m => m.step?.map (Prod.mk m.time)

/-- The last moment of a log is the one at which it is divided, or comes after it. -/
theorem snoc_eq_append_cons {α : Type} {log early late : List α} {m r : α}
    (h : log ++ [m] = early ++ r :: late) :
    early = log ∧ r = m ∧ late = [] ∨ ∃ late', late = late' ++ [m] ∧ log = early ++ r :: late' := by
  rcases List.eq_nil_or_concat late with rfl | ⟨late', x, rfl⟩
  · obtain ⟨hl, hr⟩ := List.append_inj' h rfl
    exact Or.inl ⟨hl.symm, (List.singleton_inj.1 hr).symm, rfl⟩
  · have h' : log ++ [m] = (early ++ r :: late') ++ [x] := by simpa using h
    obtain ⟨hl, hx⟩ := List.append_inj' h' rfl
    exact Or.inr ⟨late', by simp [List.singleton_inj.1 hx], hl⟩

theorem stepsOf_append (log log' : List Moment) :
    stepsOf (log ++ log') = stepsOf log ++ stepsOf log' := List.filterMap_append

@[simp] theorem stepsOf_snoc_step (log : List Moment) (time : Nat) (w : World) (s : Step) :
    stepsOf (log ++ [⟨time, w, .step s⟩]) = stepsOf log ++ [s] := by
  simp [stepsOf, Moment.step?]

@[simp] theorem stepsOf_snoc_move (log : List Moment) (time : Nat) (w : World) (m : World.Move) :
    stepsOf (log ++ [⟨time, w, .move m⟩]) = stepsOf log := by
  simp [stepsOf, Moment.step?]

theorem timedStepsOf_append (log log' : List Moment) :
    timedStepsOf (log ++ log') = timedStepsOf log ++ timedStepsOf log' := List.filterMap_append

@[simp] theorem timedStepsOf_snoc_step (log : List Moment) (time : Nat) (w : World) (s : Step) :
    timedStepsOf (log ++ [⟨time, w, .step s⟩]) = timedStepsOf log ++ [(time, s)] := by
  simp [timedStepsOf, Moment.step?]

@[simp] theorem timedStepsOf_snoc_move (log : List Moment) (time : Nat) (w : World)
    (m : World.Move) : timedStepsOf (log ++ [⟨time, w, .move m⟩]) = timedStepsOf log := by
  simp [timedStepsOf, Moment.step?]

namespace World

/-- A world at time zero, before anything happened to it. -/
def origin (config : Config) (sources : List Source) (directory : Directory) : Timeline World :=
  ⟨0, new config sources directory⟩

/-- What can become of a world, with the log of how it came about. -/
inductive Course (t₀ : Timeline World) : List Moment → Timeline World → Prop where
  | start : Course t₀ [] t₀
  | wait {log : List Moment} {t : Timeline World} (later : Nat) :
      Course t₀ log t → t.now ≤ later → Course t₀ log ⟨later, t.state⟩
  | step {log : List Moment} {t : Timeline World} (s : Step) :
      Course t₀ log t →
        Course t₀ (log ++ [⟨t.now, t.state, .step s⟩]) ⟨t.now, (t.state.step s).1⟩
  | move {log : List Moment} {t : Timeline World} {w : World} (m : Move) :
      Course t₀ log t → t.state.move? t.now m = some w →
        Course t₀ (log ++ [⟨t.now, t.state, .move m⟩]) ⟨t.now, w⟩

namespace Course

variable {t₀ t t' : Timeline World} {log log' : List Moment}

/-- A course goes on from where another one led. -/
theorem trans (h : Course t₀ log t) (h' : Course t log' t') : Course t₀ (log ++ log') t' := by
  induction h' with
  | start => rwa [List.append_nil]
  | wait later _ hl ih => exact ih.wait later hl
  | step s _ ih => rw [← List.append_assoc]; exact ih.step s
  | move m _ hm ih => rw [← List.append_assoc]; exact ih.move m hm

theorem goOn {early late : List Moment} {m : Moment} (h : Course t₀ (early ++ [m]) t)
    (h' : Course t late t') : Course t₀ (early ++ m :: late) t' :=
  List.append_cons early m late ▸ h.trans h'

/-- A course goes through the world before each of its moments. -/
theorem of_append_cons {early late : List Moment} {m : Moment}
    (h : Course t₀ (early ++ m :: late) t) :
    Course t₀ early ⟨m.time, m.before⟩ ∧ Course ⟨m.time, m.before⟩ (m :: late) t := by
  generalize hlog : early ++ m :: late = log at h
  induction h generalizing late with
  | start => simp at hlog
  | wait later _ hl ih => exact (ih hlog).imp id fun h => h.wait later hl
  | step s hc ih =>
    rcases snoc_eq_append_cons hlog.symm with ⟨rfl, rfl, rfl⟩ | ⟨late', rfl, rfl⟩
    · exact ⟨hc, Course.start.step s⟩
    · exact (ih rfl).imp id fun h => h.step s
  | move mv hc hm ih =>
    rcases snoc_eq_append_cons hlog.symm with ⟨rfl, rfl, rfl⟩ | ⟨late', rfl, rfl⟩
    · exact ⟨hc, Course.start.move mv hm⟩
    · exact (ih rfl).imp id fun h => h.move mv hm

/-! ## Runs are courses -/

theorem settle (h : Course t₀ log t) :
    ∃ log', Course t₀ log' ⟨t.now, Timed.settle t.now t.state⟩ ∧ stepsOf log' = stepsOf log := by
  refine Timed.settle_induction
    (P := fun w => ∃ log', Course t₀ log' ⟨t.now, w⟩ ∧ stepsOf log' = stepsOf log) ?_ ⟨log, h, rfl⟩
  rintro w w' m ⟨log', hc, hs⟩ - hm
  exact ⟨_, hc.move m hm, by rw [stepsOf_snoc_move, hs]⟩

theorem exists_settle (t : Timeline World) :
    ∃ log, Course t log ⟨t.now, Timed.settle t.now t.state⟩ ∧ stepsOf log = [] :=
  settle .start

/-- While time passes, the clock stops at timers and the world settles there. -/
theorem pass {now target : Nat} {w : World} (h : Course t₀ log ⟨now, w⟩) (hle : now ≤ target) :
    ∃ log', Course t₀ log' ⟨target, Timed.pass now target w⟩ ∧ stepsOf log' = stepsOf log := by
  fun_induction Timed.pass now target w generalizing log with
  | case1 now w timer ht ih =>
    obtain ⟨hlt, hle'⟩ := Timed.earliest?_spec ht
    obtain ⟨log₁, hc₁, hs₁⟩ := (h.wait timer (Nat.le_of_lt hlt)).settle
    obtain ⟨log₂, hc₂, hs₂⟩ := ih hc₁ hle'
    exact ⟨log₂, hc₂, hs₂.trans hs₁⟩
  | case2 now w ht => exact ⟨log, h.wait target hle, rfl⟩

theorem happen (h : Course t₀ log t) (what : Happening) :
    ∃ log', Course t₀ log' (World.happen what t).1 ∧
      stepsOf log' = stepsOf log ++ what.step?.toList := by
  cases what with
  | wait ms =>
    obtain ⟨log₁, hc₁, hs₁⟩ := h.pass (Nat.le_add_right t.now ms)
    obtain ⟨log₂, hc₂, hs₂⟩ := hc₁.settle
    exact ⟨log₂, hc₂, by rw [hs₂, hs₁]; exact (List.append_nil _).symm⟩
  | step s =>
    obtain ⟨log₁, hc₁, hs₁⟩ := (h.step s).settle
    exact ⟨log₁, hc₁, by rw [hs₁, stepsOf_snoc_step]; rfl⟩

/-- A run is a course with the steps that happened. -/
theorem run (h : Course t₀ log t) (hs : List Happening) :
    ∃ log', Course t₀ log' (World.run t hs) ∧
      stepsOf log' = stepsOf log ++ hs.filterMap Happening.step? := by
  induction hs generalizing log t with
  | nil => exact ⟨log, h, by simp⟩
  | cons what hs ih =>
    obtain ⟨log₁, hc₁, hs₁⟩ := h.happen what
    obtain ⟨log₂, hc₂, hs₂⟩ := ih hc₁
    refine ⟨log₂, hc₂, ?_⟩
    rw [hs₂, hs₁, List.append_assoc]
    cases what <;> rfl

end Course

/-- A run from the first moment on is a course from the first moment on. -/
theorem exists_course_run (config : Config) (sources : List Source) (directory : Directory)
    (hs : List Happening) :
    ∃ log, Course (origin config sources directory) log
        (run (.start (new config sources directory)) hs) ∧
      stepsOf log = hs.filterMap Happening.step? := by
  have hc₀ : Course (origin config sources directory) [] _ := .start
  obtain ⟨log₁, hc₁, hs₁⟩ := hc₀.settle
  obtain ⟨log₂, hc₂, hs₂⟩ := hc₁.run hs
  exact ⟨log₂, hc₂, by rw [hs₂, hs₁]; rfl⟩

end World

end LiveRooms
