import LiveRooms.Batcher.Run
import LiveRooms.Proofs.Timeline.Pass

/-!
# Courses of a batcher

In a run the batcher settles after every action.  A course leaves open when it moves and which of
its moves it makes first: actions of others, moves of its own and the passing of time follow each
other in any order.  The log of a course holds its actions and moves, each with the time and the
batcher right before it.  Every run is a course with the same actions (`exists_course_history`).
-/

namespace LiveRooms.Batcher

variable {α : Type}

/-- What an action by itself does to a batcher: to wait does nothing but let time pass. -/
def Action.effect : Action α → Batcher α → Batcher α
  | .push items, b => (b.push items).1
  | .wait _, b => b
  | .receive, b => b.receive.1
  | .close, b => b.close
  | .finishStream, b => b.finishStream
  | .cancel, b => b.cancel

/-- What changes a batcher. -/
inductive Cause (α : Type) where
  | action (a : Action α)
  | move (m : Move)
  deriving Repr

/-- A change of a batcher, with the time and the batcher right before it. -/
structure Moment (α : Type) where
  time : Nat
  before : Batcher α
  cause : Cause α
  deriving Repr

/-- The action at a moment, if there is one. -/
def Moment.action? (m : Moment α) : Option (Action α) :=
  match m.cause with
  | .action a => some a
  | .move _ => none

/-- The actions in a log, in order. -/
def actionsOf (log : List (Moment α)) : List (Action α) := log.filterMap Moment.action?

/-- A batcher at time zero, before anything happened to it. -/
def origin (window capacity : Nat) : Timeline (Batcher α) := ⟨0, { window, capacity }⟩

/-- What can become of a batcher, with the log of how it came about. -/
inductive Course (t₀ : Timeline (Batcher α)) : List (Moment α) → Timeline (Batcher α) → Prop where
  | start : Course t₀ [] t₀
  | wait {log : List (Moment α)} {t : Timeline (Batcher α)} (later : Nat) :
      Course t₀ log t → t.now ≤ later → Course t₀ log ⟨later, t.state⟩
  | action {log : List (Moment α)} {t : Timeline (Batcher α)} (a : Action α) :
      Course t₀ log t →
        Course t₀ (log ++ [⟨t.now, t.state, .action a⟩]) ⟨t.now, a.effect t.state⟩
  | move {log : List (Moment α)} {t : Timeline (Batcher α)} {b : Batcher α} (m : Move) :
      Course t₀ log t → t.state.move? t.now m = some b →
        Course t₀ (log ++ [⟨t.now, t.state, .move m⟩]) ⟨t.now, b⟩

@[simp] theorem actionsOf_snoc_action (log : List (Moment α)) (time : Nat) (b : Batcher α)
    (a : Action α) : actionsOf (log ++ [⟨time, b, .action a⟩]) = actionsOf log ++ [a] := by
  simp [actionsOf, Moment.action?]

@[simp] theorem actionsOf_snoc_move (log : List (Moment α)) (time : Nat) (b : Batcher α)
    (m : Move) : actionsOf (log ++ [⟨time, b, .move m⟩]) = actionsOf log := by
  simp [actionsOf, Moment.action?]

/-! ## Runs are courses -/

variable {t₀ t : Timeline (Batcher α)} {log : List (Moment α)}

/-- Some course leads to a batcher at a time, with the given actions. -/
def Comes (t₀ : Timeline (Batcher α)) (actions : List (Action α)) (now : Nat) (b : Batcher α) :
    Prop :=
  ∃ log, Course t₀ log ⟨now, b⟩ ∧ actionsOf log = actions

variable {actions : List (Action α)} {now : Nat} {b : Batcher α}

theorem Comes.move {b' : Batcher α} {m : Move} (h : Comes t₀ actions now b)
    (hm : b.move? now m = some b') : Comes t₀ actions now b' := by
  obtain ⟨log, hc, ha⟩ := h
  exact ⟨_, hc.move m hm, by rw [actionsOf_snoc_move, ha]⟩

theorem Comes.wait {later : Nat} (h : Comes t₀ actions now b) (hl : now ≤ later) :
    Comes t₀ actions later b := by
  obtain ⟨log, hc, ha⟩ := h
  exact ⟨log, hc.wait later hl, ha⟩

theorem Comes.action (h : Comes t₀ actions now b) (a : Action α) :
    Comes t₀ (actions ++ [a]) now (a.effect b) := by
  obtain ⟨log, hc, ha⟩ := h
  exact ⟨_, hc.action a, by rw [actionsOf_snoc_action, ha]⟩

theorem Comes.settle (h : Comes t₀ actions now b) : Comes t₀ actions now (Timed.settle now b) :=
  Timed.settle_induction (fun _ _ _ h _ hm => h.move hm) h

theorem Comes.advance (h : Comes t₀ actions t.now t.state) (hq : Timed.Quiet t.now t.state)
    (ms : Nat) : Comes t₀ actions (t.advance ms).now (t.advance ms).state :=
  Timeline.advance_induction (fun _ _ _ _ h _ hm => h.move hm) (fun _ _ _ h hs => h.wait hs.le)
    h hq ms

theorem Comes.perform (h : Comes t₀ actions t.now t.state) (hq : Timed.Quiet t.now t.state)
    (a : Action α) :
    Comes t₀ (actions ++ [a]) (perform a t).1.now (perform a t).1.state := by
  cases a with
  | wait ms => exact Comes.advance (h.action (.wait ms)) hq ms
  | push items => exact (h.action (.push items)).settle
  | receive => exact (h.action .receive).settle
  | close => exact (h.action .close).settle
  | finishStream => exact (h.action .finishStream).settle
  | cancel => exact (h.action .cancel).settle

theorem quiet_perform (a : Action α) (t : Timeline (Batcher α)) :
    Timed.Quiet (perform a t).1.now (perform a t).1.state := by
  cases a with
  | wait ms => exact Timeline.quiet_advance ms t
  | _ => exact Timeline.quiet_act _ t

/-- What a run has come to after each of its actions is what some course with the same actions has
come to. -/
theorem exists_course_history (window capacity : Nat) (actions : List (Action α)) {i : Nat}
    {entry : Timeline (Batcher α) × Answer α}
    (h : (history (start window capacity) actions)[i]? = some entry) :
    ∃ log, Course (origin window capacity) log entry.1 ∧
      actionsOf log = actions.take (i + 1) := by
  suffices hs : ∀ (as : List (Action α)) (t : Timeline (Batcher α)) (done : List (Action α)),
      Comes (origin window capacity) done t.now t.state → Timed.Quiet t.now t.state → ∀ i entry,
        (history t as)[i]? = some entry →
          Comes (origin window capacity) (done ++ as.take (i + 1)) entry.1.now entry.1.state by
    have h₀ : Comes (origin window capacity) [] 0 (origin (α := α) window capacity).state :=
      ⟨[], .start, rfl⟩
    obtain ⟨log, hc, ha⟩ := hs actions _ [] h₀.settle (Timeline.quiet_start _) i entry h
    exact ⟨log, hc, ha⟩
  intro as
  induction as with
  | nil =>
    intro t done _ _ i entry h
    cases h
  | cons a as ih =>
    intro t done hc hq i entry h
    have hp := hc.perform hq a
    cases i with
    | zero =>
      obtain rfl := Option.some.inj h
      exact hp
    | succ i =>
      have := ih _ _ hp (quiet_perform a t) i entry h
      rwa [List.append_assoc] at this

end LiveRooms.Batcher
