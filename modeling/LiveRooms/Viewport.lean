/-!
# Viewports

A viewport is the half-open interval of list positions that is on screen.  It can be inverted, and
is then empty.  Widths saturate at zero and clamping never runs past the end, so no step leaves the
range of 64-bit words.
-/

namespace LiveRooms

/-- The list positions from `start` up to `stop`, which is excluded. -/
structure Viewport where
  start : UInt64
  stop : UInt64
  deriving DecidableEq, Repr

/-- A request to the remote list for more or fewer rooms. -/
inductive PageRequest where
  /-- Grow by one page: the end of the loaded rooms is on screen. -/
  | addPage
  /-- Shrink to the first page: the user is back at the top. -/
  | resetToFirst
  deriving DecidableEq, Repr

namespace Viewport

/-- The viewport at position zero that shows nothing. -/
def empty : Viewport := ⟨0, 0⟩

instance : Inhabited Viewport := ⟨empty⟩

/-- The viewport between two positions; an inverted pair shows nothing at `start`. -/
def between (start stop : UInt64) : Viewport := ⟨start, max start stop⟩

/-- The number of positions in a viewport. -/
def width (v : Viewport) : UInt64 := if v.start < v.stop then v.stop - v.start else 0

/-- Whether a viewport shows nothing. -/
def isEmpty (v : Viewport) : Bool := v.stop ≤ v.start

/-- The viewport limited to `limit` positions, with the same start. -/
def clamp (limit : UInt64) (v : Viewport) : Viewport :=
  if v.width ≤ limit then v else ⟨v.start, v.start + limit⟩

/-- The positions of a viewport that exist in a list of the given length: from the first component
up to the second, which is excluded. -/
def indicesWithin (length : Nat) (v : Viewport) : Nat × Nat :=
  let first := min v.start.toNat length
  (first, max (min v.stop.toNat length) first)

/-- The elements of a list at the positions of a viewport. -/
def slice {α : Type} (v : Viewport) (items : List α) : List α :=
  let (first, last) := v.indicesWithin items.length
  (items.drop first).take (last - first)

/-- What a viewport asks of a remote list of which `loaded` rooms are known. -/
def pageRequest (loaded : Nat) (v : Viewport) : Option PageRequest :=
  if loaded ≤ v.stop.toNat then some .addPage
  else if v.start = 0 then some .resetToFirst
  else none

end Viewport

end LiveRooms
