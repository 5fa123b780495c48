import LiveRooms.Viewport
import LiveRooms.Wire

/-!
# The wire form of viewports
-/

namespace LiveRooms

namespace Viewport

def write (v : Viewport) : Json :=
  .obj [("start", Wire.write v.start), ("end", Wire.write v.stop)]

def read? (j : Json) : Option Viewport := do
  let r ← j.record? ["start", "end"]
  return { start := ← Wire.field? r "start", stop := ← Wire.field? r "end" }

instance : Wire Viewport := ⟨write, read?⟩

end Viewport

end LiveRooms
