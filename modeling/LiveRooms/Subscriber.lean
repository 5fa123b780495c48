import LiveRooms.Pause
import LiveRooms.Viewport

/-!
# The subscriber

The subscriber asks the service to keep the rooms on screen live, once no report has come during a
pause for the length of the debounce.  It does not repeat the request that it sent last, and while
a request has no answer, up to a limit, it reads no reports.
-/

namespace LiveRooms

/-- What the subscriber is doing. -/
inductive Subscriber.Phase where
  /-- It waits for a report. -/
  | idle
  /-- It waits for reports to stay away until the deadline. -/
  | settling (deadline : Nat)
  /-- It waits for an answer, until the deadline. -/
  | asking (deadline : Nat)
  | stopped
  deriving DecidableEq, Repr, Inhabited

/-- The state of the subscriber. -/
structure Subscriber where
  /-- A report came that was not read. -/
  hasReport : Bool := false
  phase : Subscriber.Phase := .idle
  /-- The ids of the last request. -/
  lastRequest : Option (List String) := none
  deriving DecidableEq, Repr, Inhabited

namespace Subscriber

/-- Milliseconds after which a request without an answer is given up. -/
def answerLimit : Nat := 10000

/-- Takes note of a report. -/
def report (s : Subscriber) : Subscriber := { s with hasReport := true }

/-- Reads a report, which starts the quiet period again. -/
def notice? (now debounce : Nat) (s : Subscriber) : Option Subscriber :=
  if s.hasReport then
    match s.phase with
    | .idle | .settling _ =>
      some { s with hasReport := false, phase := .settling (now + Pause.length debounce) }
    | .asking _ | .stopped => none
  else none

/-- Whether the quiet period is over. -/
def isSettled (now : Nat) (s : Subscriber) : Bool :=
  match s.phase with
  | .settling deadline => deadline ≤ now
  | _ => false

/-- The request that a viewport with rooms of the given ids leads to, if any. -/
def request? (manages : Bool) (v : Viewport) (ids : List String) (s : Subscriber) :
    Option (List String) :=
  if v.isEmpty || !manages || s.lastRequest == some ids then none else some ids

/-- Has read the latest viewport and waits for the next report. -/
def rest (s : Subscriber) : Subscriber := { s with hasReport := false, phase := .idle }

/-- Has read the latest viewport, remembers the request it led to, and waits for an answer where
none has come. -/
def ask (now : Nat) (ids : List String) (isAnswered : Bool) (s : Subscriber) : Subscriber :=
  { s with
    hasReport := false
    lastRequest := some ids
    phase := if isAnswered then .idle else .asking (now + answerLimit) }

/-- Gives up a request, once its time is over. -/
def giveUp? (now : Nat) (s : Subscriber) : Option Subscriber :=
  match s.phase with
  | .asking deadline => if deadline ≤ now then some { s with phase := .idle } else none
  | _ => none

/-- Stops for good, unless an answer is waited for. -/
def stop? (s : Subscriber) : Option Subscriber :=
  match s.phase with
  | .idle | .settling _ => some { s with phase := .stopped }
  | .asking _ | .stopped => none

/-- The instants that the subscriber waits for. -/
def timers (s : Subscriber) : List Nat :=
  match s.phase with
  | .settling deadline | .asking deadline => [deadline]
  | .idle | .stopped => []

/-- How much is left to do in a phase. -/
def Phase.load : Phase → Nat
  | .idle => 1
  | .settling _ => 3
  | .asking _ => 2
  | .stopped => 0

/-- How much is left to do before time passes. -/
def load (s : Subscriber) : Nat := 3 * s.hasReport.toNat + s.phase.load

theorem load_notice? {s s' : Subscriber} {now debounce : Nat}
    (h : s.notice? now debounce = some s') : s'.load < s.load := by
  unfold notice? at h
  split at h
  · rename_i hr
    split at h <;> rename_i hp <;> cases h <;> simp [load, hr, hp, Phase.load]
  · cases h

theorem load_of_isSettled {s : Subscriber} {now : Nat} (h : s.isSettled now = true) :
    s.load = 3 * s.hasReport.toNat + 3 := by
  unfold isSettled at h
  split at h
  · rename_i hp; simp [load, hp, Phase.load]
  · cases h

theorem load_rest {s : Subscriber} {now : Nat} (h : s.isSettled now = true) :
    s.rest.load < s.load := by
  rw [load_of_isSettled h]
  simp [load, rest, Phase.load]

theorem load_ask {s : Subscriber} {now : Nat} (h : s.isSettled now = true) (ids : List String)
    (isAnswered : Bool) : (s.ask now ids isAnswered).load < s.load := by
  rw [load_of_isSettled h]
  cases isAnswered <;> simp [load, ask, Phase.load]

theorem load_giveUp? {s s' : Subscriber} {now : Nat} (h : s.giveUp? now = some s') :
    s'.load < s.load := by
  unfold giveUp? at h
  split at h
  · rename_i hp
    split at h
    · cases h; simp [load, hp, Phase.load]
    · cases h
  · cases h

theorem load_stop? {s s' : Subscriber} (h : s.stop? = some s') : s'.load < s.load := by
  unfold stop? at h
  split at h <;> rename_i hp <;> cases h <;> simp [load, hp, Phase.load]

end Subscriber

end LiveRooms
