import LiveRooms.Timeline

/-!
# The batcher

The batcher gathers the items of a stream into batches, one per collection window.  A window opens
with the first pending item and closes `window` milliseconds later; a window without items gives
nothing.  Batches go into a queue of bounded length.  While the queue is full the batcher holds the
batch in hand, reads nothing and does not hear that it is to stop.  The end of the stream gives what
is pending at once.
-/

namespace LiveRooms

namespace Batcher

/-- What the batcher is doing. -/
inductive Phase (α : Type) where
  /-- It waits for items, for the end of the window, or to be stopped. -/
  | collecting
  /-- It waits for room for a batch, the last one when the stream has ended. -/
  | handing (batch : List α) (isLast : Bool)
  | finished
  deriving DecidableEq, Repr

/-- A move of the batcher. -/
inductive Move where
  /-- Stop, once told to. -/
  | stop
  /-- Put the batch in hand into the queue, or give up when nobody will take it. -/
  | hand
  /-- Take the pending items in hand at the end of the window. -/
  | release
  /-- Read the next stream item. -/
  | read
  /-- Take the pending items in hand at the end of the stream, or finish. -/
  | flush
  deriving DecidableEq, Repr

end Batcher

/-- A batcher with the stream it reads and the queue it fills. -/
structure Batcher (α : Type) where
  window : Nat
  capacity : Nat
  /-- Stream items that have not been read. -/
  inbox : List (List α) := []
  /-- No more items will come. -/
  hasEnded : Bool := false
  /-- The batcher has been told to stop. -/
  isCancelled : Bool := false
  pending : List α := []
  /-- When the window of the pending items closes. -/
  deadline : Nat := 0
  phase : Batcher.Phase α := .collecting
  queue : List (List α) := []
  /-- Nobody takes new batches from the queue. -/
  isClosed : Bool := false
  deriving DecidableEq, Repr

namespace Batcher

variable {α : Type}

/-- Takes a stream item in. -/
def collect (now : Nat) (items : List α) (b : Batcher α) : Batcher α :=
  if items.isEmpty then b
  else
    { b with
      pending := b.pending ++ items
      deadline := if b.pending.isEmpty then now + b.window else b.deadline }

/-- Takes the pending items in hand. -/
def grasp (isLast : Bool) (b : Batcher α) : Batcher α :=
  { b with phase := .handing b.pending isLast, pending := [] }

/-- The batcher after a move, if the move is possible. -/
def move? (now : Nat) (b : Batcher α) (m : Move) : Option (Batcher α) :=
  match b.phase with
  | .finished => none
  | .handing batch isLast =>
    match m with
    | .hand =>
      if b.isClosed then some { b with phase := .finished }
      else if b.queue.length < b.capacity then
        some { b with
          queue := b.queue ++ [batch], phase := if isLast then .finished else .collecting }
      else none
    | _ => none
  | .collecting =>
    match m with
    | .stop => if b.isCancelled then some { b with phase := .finished } else none
    | .hand => none
    | .release => if !b.pending.isEmpty && b.deadline ≤ now then some (b.grasp false) else none
    | .read =>
      match b.inbox with
      | [] => none
      | items :: inbox => some (collect now items { b with inbox })
    | .flush =>
      if b.hasEnded && b.inbox.isEmpty then
        if b.pending.isEmpty then some { b with phase := .finished } else some (b.grasp true)
      else none

/-- The moves in the order in which they are tried. -/
def moveOrder : List Move := [.stop, .hand, .release, .read, .flush]

/-- How much is left to do in a phase. -/
def Phase.load : Phase α → Nat
  | .collecting => 1
  | .handing .. => 3
  | .finished => 0

/-- How much is left to do: to read, to release, to hand over, and to take from the queue. -/
def load (b : Batcher α) : Nat :=
  4 * b.inbox.length + (if b.pending.isEmpty then 0 else 3) + b.phase.load + b.queue.length

theorem load_collect_le (now : Nat) (items : List α) (b : Batcher α) :
    (collect now items b).load ≤ b.load + 3 := by
  unfold collect
  split
  · omega
  · simp only [load]
    split <;> split <;> omega

theorem load_grasp (isLast : Bool) (b : Batcher α) (hp : b.pending.isEmpty = false)
    (hc : b.phase = .collecting) : (b.grasp isLast).load < b.load := by
  simp only [load, grasp, hp, hc, Phase.load, List.isEmpty_nil, if_true, Bool.false_eq_true,
    if_false]
  omega

theorem load_lt {now : Nat} {b b' : Batcher α} {m : Move} (h : b.move? now m = some b') :
    b'.load < b.load := by
  unfold move? at h
  split at h
  · cases h
  · rename_i batch isLast hp
    split at h
    · split at h
      · cases h
        simp only [load, hp, Phase.load]; omega
      · split at h
        · cases h
          cases isLast <;>
            simp only [load, hp, Phase.load, List.length_append, List.length_singleton, if_true,
              Bool.false_eq_true, if_false] <;> omega
        · cases h
    · cases h
  · rename_i hp
    split at h
    · split at h
      · cases h
        simp only [load, hp, Phase.load]; omega
      · cases h
    · cases h
    · split at h
      · rename_i hc
        cases h
        exact load_grasp false b (by simp_all) hp
      · cases h
    · split at h
      · cases h
      · rename_i items inbox hi
        cases h
        refine Nat.lt_of_le_of_lt (load_collect_le _ _ _) ?_
        simp only [load, hi, List.length_cons]
        omega
    · split at h
      · split at h
        · cases h
          simp only [load, hp, Phase.load]; omega
        · rename_i hc
          cases h
          exact load_grasp true b (by simpa using hc) hp
      · cases h

/-- The instants that the batcher waits for. -/
def timers (b : Batcher α) : List Nat :=
  match b.phase with
  | .collecting => if b.pending.isEmpty then [] else [b.deadline]
  | _ => []

instance : Timed (Batcher α) Move where
  moves _ := moveOrder
  move? := move?
  load := load
  load_lt := load_lt
  timers := timers

/-- Whether the batcher has finished. -/
def isFinished (b : Batcher α) : Bool :=
  match b.phase with
  | .finished => true
  | _ => false

/-! ## What others do to the batcher -/

/-- What a receiver finds. -/
inductive Received (α : Type) where
  | batch (items : List α)
  | empty
  /-- There is nothing and there will be nothing. -/
  | closed
  deriving DecidableEq, Repr

/-- Sends a stream item; the answer tells whether it was accepted. -/
def push (items : List α) (b : Batcher α) : Batcher α × Bool :=
  if b.hasEnded || b.isFinished then (b, false)
  else ({ b with inbox := b.inbox ++ [items] }, true)

/-- Takes at most one batch from the queue. -/
def receive (b : Batcher α) : Batcher α × Received α :=
  match b.queue with
  | batch :: queue => ({ b with queue }, .batch batch)
  | [] => (b, if b.isClosed || b.isFinished then .closed else .empty)

/-- Closes the queue; what is in it can still be taken. -/
def close (b : Batcher α) : Batcher α := { b with isClosed := true }

/-- Ends the stream; what has been sent is still read. -/
def finishStream (b : Batcher α) : Batcher α := { b with hasEnded := true }

/-- Tells the batcher to stop. -/
def cancel (b : Batcher α) : Batcher α := { b with isCancelled := true }

end Batcher

end LiveRooms
