/-!
# Pauses

A pause is a wait of a given length, in milliseconds.  No pause is longer than thirty years: a
longer one that is asked for ends then (`Pause.length`).  A wait for an instant, such as the end of
a collection window, is not a pause and has no such limit.
-/

namespace LiveRooms.Pause

/-- The longest pause in milliseconds: thirty years of 365 days. -/
def longest : Nat := 30 * 365 * 24 * 60 * 60 * 1000

/-- How long a pause lasts that is to last some milliseconds. -/
def length (ms : Nat) : Nat := min ms longest

end LiveRooms.Pause
