import LiveRooms.Json
import LiveRooms.Text.StringSet

/-!
# The wire form of data

How the data of a room list is written as JSON and read back.  A record is written as an object with
every field and is read from an object or an array (`Json.record?`); a field that may be absent is
read from a missing field and from null alike.  A tagged value without content is written as its tag
and is also read from an object that gives the tag the content null; the fields that a tag carries
come as an object, never as an array.
-/

namespace LiveRooms

/-- Data with a wire form. -/
class Wire (α : Type) where
  write : α → Json
  read? : Json → Option α

namespace Wire

variable {α : Type}

instance : Wire String := ⟨.str, Json.string?⟩

instance : Wire Bool := ⟨.bool, Json.bool?⟩

instance : Wire UInt64 :=
  ⟨fun n => .int n.toNat, fun j => (j.natBelow? UInt64.size).map UInt64.ofNat⟩

instance : Wire UInt32 :=
  ⟨fun n => .int n.toNat, fun j => (j.natBelow? UInt32.size).map UInt32.ofNat⟩

instance [Wire α] : Wire (List α) :=
  ⟨fun xs => .arr (xs.map write), fun j => j.elems?.bind fun elems => elems.mapM read?⟩

instance : Wire StringSet :=
  ⟨fun set => write set.toList, fun j => (read? j).map StringSet.ofList⟩

/-- A value that may be absent; null stands for its absence. -/
def readOption? [Wire α] : Json → Option (Option α)
  | .null => some none
  | j => (read? j).map some

instance [Wire α] : Wire (Option α) :=
  ⟨fun x => x.elim .null write, readOption?⟩

/-! ## Fields of records -/

/-- Reads a field that must be there. -/
def field? [Wire α] (fields : List (String × Json)) (name : String) : Option α :=
  (fields.lookup name).bind read?

/-- Reads a field that may be missing. -/
def optional? [Wire α] (fields : List (String × Json)) (name : String) : Option (Option α) :=
  match fields.lookup name with
  | none => some none
  | some j => readOption? j

/-! ## Tagged values -/

/-- Whether a tag comes without content. -/
def isBare : Option Json → Bool
  | none => true
  | some .null => true
  | _ => false

/-- The value that a tag without content stands for. -/
def bare (content : Option Json) (x : α) : Option α := if isBare content then some x else none

/-- Reads `x` from a tag that comes without content, or from the other tag the value that `f` makes of
a field, which may be missing. -/
def bareOrOptional? {β : Type} [Wire β] (bareTag : String) (x : α) (tag name : String)
    (f : Option β → α) (j : Json) : Option α := do
  let (t, content) ← j.variant?
  if t = bareTag then bare content x
  else if t = tag then
    let r ← (← content).fields?
    return f (← optional? r name)
  else none

/-- Reads one of the given values from its tag. -/
def readTag? (tag : α → String) (values : List α) (j : Json) : Option α :=
  match j.variant? with
  | some (t, content) => if isBare content then values.find? fun x => tag x == t else none
  | none => none

/-- The wire form of a type whose values are told apart by their tags. -/
@[reducible] def ofTags (tag : α → String) (values : List α) : Wire α :=
  ⟨fun x => .str (tag x), readTag? tag values⟩

/-- The written form of what a JSON value stands for. -/
def canonical? (α : Type) [Wire α] (j : Json) : Option Json := (read? (α := α) j).map write

end Wire

end LiveRooms
