import LiveRooms.Edit
import LiveRooms.Wire

/-!
# The wire form of edits
-/

namespace LiveRooms

namespace Edit

variable {α : Type} [Wire α]

def write : Edit α → Json
  | .append values => .tagged "Append" (Wire.write values)
  | .clear => .str "Clear"
  | .insertAt index value =>
    .tagged "InsertAt" (.obj [("index", Wire.write index), ("value", Wire.write value)])
  | .popBack => .str "PopBack"
  | .popFront => .str "PopFront"
  | .pushBack value => .tagged "PushBack" (Wire.write value)
  | .pushFront value => .tagged "PushFront" (Wire.write value)
  | .removeAt index => .tagged "RemoveAt" (.obj [("index", Wire.write index)])
  | .reset values => .tagged "Reset" (Wire.write values)
  | .setAt index value =>
    .tagged "SetAt" (.obj [("index", Wire.write index), ("value", Wire.write value)])
  | .truncate length => .tagged "Truncate" (.obj [("length", Wire.write length)])

def read? (j : Json) : Option (Edit α) := do
  let (tag, content) ← j.variant?
  match tag with
  | "Append" => return .append (← Wire.read? (← content))
  | "Clear" => Wire.bare content .clear
  | "InsertAt" =>
    let r ← (← content).fields?
    return .insertAt (← Wire.field? r "index") (← Wire.field? r "value")
  | "PopBack" => Wire.bare content .popBack
  | "PopFront" => Wire.bare content .popFront
  | "PushBack" => return .pushBack (← Wire.read? (← content))
  | "PushFront" => return .pushFront (← Wire.read? (← content))
  | "RemoveAt" =>
    let r ← (← content).fields?
    return .removeAt (← Wire.field? r "index")
  | "Reset" => return .reset (← Wire.read? (← content))
  | "SetAt" =>
    let r ← (← content).fields?
    return .setAt (← Wire.field? r "index") (← Wire.field? r "value")
  | "Truncate" =>
    let r ← (← content).fields?
    return .truncate (← Wire.field? r "length")
  | _ => none

instance : Wire (Edit α) := ⟨write, read?⟩

end Edit

end LiveRooms
