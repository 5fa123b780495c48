/-!
# Followers of the notification settings

A follower asks for a rebuild at every notice of its stream but the first, which only says that the
settings were read.
-/

namespace LiveRooms

/-- A follower of a stream of settings notices. -/
structure Follower where
  id : String
  /-- Notices that were not read. -/
  backlog : Nat := 0
  /-- No more notices will come. -/
  hasEnded : Bool := false
  /-- The first notice was read. -/
  sawFirst : Bool := false
  isFinished : Bool := false
  deriving DecidableEq, Repr

namespace Follower

/-- Sends notices. -/
def notify (times : Nat) (f : Follower) : Follower :=
  if f.hasEnded || f.isFinished then f else { f with backlog := f.backlog + times }

/-- Ends the stream; notices that were sent are still read. -/
def finishStream (f : Follower) : Follower := { f with hasEnded := true }

/-- Reads a notice; the second component tells whether it asks for a rebuild. -/
def read? (f : Follower) : Option (Follower × Bool) :=
  if !f.isFinished && f.backlog != 0 then
    some ({ f with backlog := f.backlog - 1, sawFirst := true }, f.sawFirst)
  else none

/-- Finishes, when told to stop or at the end of the stream. -/
def finish? (isCancelled : Bool) (f : Follower) : Option Follower :=
  if !f.isFinished && (isCancelled || f.hasEnded && f.backlog == 0) then
    some { f with isFinished := true }
  else none

/-- How much is left to do before time passes. -/
def load (f : Follower) : Nat := 2 * f.backlog + (!f.isFinished).toNat

/-- How much is left to do for several followers. -/
def totalLoad : List Follower → Nat
  | [] => 0
  | f :: followers => f.load + totalLoad followers

theorem totalLoad_set {followers : List Follower} {i : Nat} {f : Follower}
    (h : followers[i]? = some f) (f' : Follower) :
    totalLoad (followers.set i f') + f.load = totalLoad followers + f'.load := by
  induction followers generalizing i with
  | nil => simp at h
  | cons g followers ih =>
    cases i with
    | zero =>
      simp only [List.getElem?_cons_zero, Option.some.injEq] at h
      subst h
      simp only [List.set_cons_zero, totalLoad]
      omega
    | succ i =>
      have := ih (by simpa using h)
      simp only [List.set_cons_succ, totalLoad]
      omega

theorem load_read? {f f' : Follower} {asks : Bool} (h : f.read? = some (f', asks)) :
    f'.load + 1 < f.load := by
  unfold read? at h
  split at h
  · rename_i hc
    cases h
    simp only [Bool.and_eq_true, bne_iff_ne] at hc
    simp only [load]
    omega
  · cases h

theorem load_finish? {f f' : Follower} {isCancelled : Bool} (h : f.finish? isCancelled = some f') :
    f'.load < f.load := by
  unfold finish? at h
  split at h
  · rename_i hc
    cases h
    simp only [Bool.and_eq_true, Bool.not_eq_true'] at hc
    simp [load, hc.1]
  · cases h

end Follower

end LiveRooms
