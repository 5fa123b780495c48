import LiveRooms.Pause
import LiveRooms.Viewport

/-!
# The pager

The pager looks at reported viewports, at most one per throttle interval, always the latest.  A
viewport equal to the one it looked at last is not decided upon; the rest, a pause for the length of
the throttle, follows in either case.
-/

namespace LiveRooms

/-- The state of the pager. -/
structure Pager where
  /-- A report came that was not looked at. -/
  hasReport : Bool := false
  /-- The viewport looked at last. -/
  handled : Option Viewport := none
  /-- The end of the rest that follows a look. -/
  restsUntil : Option Nat := none
  isStopped : Bool := false
  deriving DecidableEq, Repr, Inhabited

namespace Pager

/-- Takes note of a report. -/
def report (p : Pager) : Pager := { p with hasReport := true }

/-- Whether a report waits and the pager does not rest. -/
def isReady (p : Pager) : Bool := !p.isStopped && p.restsUntil.isNone && p.hasReport

/-- Looks at the latest viewport and rests. -/
def look (now throttle : Nat) (v : Viewport) (p : Pager) : Pager :=
  { p with hasReport := false, handled := some v, restsUntil := some (now + Pause.length throttle) }

/-- Whether a look at a viewport leads to a decision. -/
def decidesOn (v : Viewport) (p : Pager) : Bool := p.handled != some v

/-- Ends the rest, once it is over. -/
def wake? (now : Nat) (p : Pager) : Option Pager :=
  match p.restsUntil with
  | some t => if !p.isStopped && t ≤ now then some { p with restsUntil := none } else none
  | none => none

/-- Stops for good. -/
def stop? (p : Pager) : Option Pager :=
  if p.isStopped then none else some { p with isStopped := true }

/-- The instants that the pager waits for. -/
def timers (p : Pager) : List Nat := if p.isStopped then [] else p.restsUntil.toList

/-- How much is left to do before time passes. -/
def load (p : Pager) : Nat :=
  2 * p.hasReport.toNat + p.restsUntil.isSome.toNat + (!p.isStopped).toNat

theorem load_look {p : Pager} (now throttle : Nat) (v : Viewport) (h : p.isReady = true) :
    (p.look now throttle v).load < p.load := by
  simp only [isReady, Bool.and_eq_true, Bool.not_eq_true', Option.isNone_iff_eq_none] at h
  simp [load, look, h.1.1, h.1.2, h.2]

theorem load_wake? {p p' : Pager} {now : Nat} (h : p.wake? now = some p') : p'.load < p.load := by
  unfold wake? at h
  split at h
  · rename_i t ht
    split at h
    · cases h; simp [load, ht]
    · cases h
  · cases h

theorem load_stop? {p p' : Pager} (h : p.stop? = some p') : p'.load < p.load := by
  unfold stop? at h
  split at h
  · cases h
  · rename_i hs
    cases h; simp [load, hs]

end Pager

end LiveRooms
