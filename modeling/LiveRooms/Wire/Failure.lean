import LiveRooms.Failure
import LiveRooms.Wire

/-!
# The wire form of failures
-/

namespace LiveRooms

instance : Wire FailureCategory :=
  .ofTags FailureCategory.name [.remote, .consistency, .invariant, .config, .internal]

namespace Failure

def write (f : Failure) : Json :=
  .obj [("category", Wire.write f.category), ("code", .str f.code), ("message", .str f.message)]

def read? (j : Json) : Option Failure := do
  let r ← j.record? ["category", "code", "message"]
  return {
    category := ← Wire.field? r "category"
    code := ← Wire.field? r "code"
    message := ← Wire.field? r "message" }

instance : Wire Failure := ⟨write, read?⟩

end Failure

end LiveRooms
