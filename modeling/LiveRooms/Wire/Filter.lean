import LiveRooms.Filter
import LiveRooms.Wire

/-!
# The wire form of filters

A remote filter is a tree; its reader recurses on the elements of the arrays it meets, which are
smaller than the value read.
-/

namespace LiveRooms

namespace QuickFilter

def tag : QuickFilter → String
  | .unreads => "Unreads"
  | .people => "People"
  | .rooms => "Rooms"
  | .favourites => "Favourites"
  | .invites => "Invites"
  | .lowPriority => "LowPriority"

instance : Wire QuickFilter :=
  .ofTags tag [.unreads, .people, .rooms, .favourites, .invites, .lowPriority]

end QuickFilter

namespace RoomCategory

def tag : RoomCategory → String
  | .people => "People"
  | .group => "Group"

instance : Wire RoomCategory := .ofTags tag [.people, .group]

end RoomCategory

namespace Filter

def write : Filter → Json
  | .excludeAll => .str "ExcludeAll"
  | .search query => .tagged "Search" (.obj [("query", .str query)])
  | .rooms ids filters =>
    .tagged "Rooms" (.obj [("room_ids", Wire.write ids), ("filters", Wire.write filters)])
  | .all filters => .tagged "All" (.obj [("filters", Wire.write filters)])

def read? (j : Json) : Option Filter := do
  let (tag, content) ← j.variant?
  match tag with
  | "ExcludeAll" => Wire.bare content .excludeAll
  | "Search" =>
    let r ← (← content).fields?
    return .search (← Wire.field? r "query")
  | "Rooms" =>
    let r ← (← content).fields?
    return .rooms (← Wire.field? r "room_ids") (← Wire.field? r "filters")
  | "All" =>
    let r ← (← content).fields?
    return .all (← Wire.field? r "filters")
  | _ => none

instance : Wire Filter := ⟨write, read?⟩

end Filter

namespace FilterSettings

def write (s : FilterSettings) : Json :=
  .obj [("fuzzy_search", .bool s.fuzzySearch), ("low_priority_filter", .bool s.hideLowPriority)]

def read? (j : Json) : Option FilterSettings := do
  let r ← j.record? ["fuzzy_search", "low_priority_filter"]
  return {
    fuzzySearch := ← Wire.field? r "fuzzy_search"
    hideLowPriority := ← Wire.field? r "low_priority_filter" }

instance : Wire FilterSettings := ⟨write, read?⟩

end FilterSettings

namespace RemoteFilter

mutual

def write : RemoteFilter → Json
  | .all filters => .tagged "All" (.obj [("filters", .arr (writeAll filters))])
  | .any filters => .tagged "Any" (.obj [("filters", .arr (writeAll filters))])
  | .nonSpace => .str "NonSpace"
  | .space => .str "Space"
  | .nonLeft => .str "NonLeft"
  | .invite => .str "Invite"
  | .deduplicateVersions => .str "DeduplicateVersions"
  | .unread => .str "Unread"
  | .favourite => .str "Favourite"
  | .lowPriority => .str "LowPriority"
  | .nonLowPriority => .str "NonLowPriority"
  | .category expect => .tagged "Category" (.obj [("expect", Wire.write expect)])
  | .identifiers ids => .tagged "Identifiers" (.obj [("identifiers", Wire.write ids)])
  | .fuzzyName pattern => .tagged "FuzzyMatchRoomName" (.obj [("pattern", .str pattern)])
  | .normalizedName pattern => .tagged "NormalizedMatchRoomName" (.obj [("pattern", .str pattern)])
  | .nothing => .str "None"

/-- Writes each of some filters. -/
def writeAll : List RemoteFilter → List Json
  | [] => []
  | filter :: filters => write filter :: writeAll filters

end

/-- The filter that a tag without content stands for. -/
def ofTag? : String → Option RemoteFilter
  | "NonSpace" => some .nonSpace
  | "Space" => some .space
  | "NonLeft" => some .nonLeft
  | "Invite" => some .invite
  | "DeduplicateVersions" => some .deduplicateVersions
  | "Unread" => some .unread
  | "Favourite" => some .favourite
  | "LowPriority" => some .lowPriority
  | "NonLowPriority" => some .nonLowPriority
  | "None" => some .nothing
  | _ => none

/-- The filter that a tag with a content of plain fields stands for. -/
def ofLeaf? (tag : String) (content : Json) : Option RemoteFilter :=
  match tag with
  | "Category" => do
    let r ← content.fields?
    return .category (← Wire.field? r "expect")
  | "Identifiers" => do
    let r ← content.fields?
    return .identifiers (← Wire.field? r "identifiers")
  | "FuzzyMatchRoomName" => do
    let r ← content.fields?
    return .fuzzyName (← Wire.field? r "pattern")
  | "NormalizedMatchRoomName" => do
    let r ← content.fields?
    return .normalizedName (← Wire.field? r "pattern")
  | _ => none

/-- The elements of the field `filters` of an object. -/
def parts? (content : Json) : Option (List Json) := do
  let r ← content.fields?
  (← r.lookup "filters").elems?

theorem sizeOf_of_mem_parts {content part : Json} {parts : List Json}
    (h : parts? content = some parts) (hp : part ∈ parts) : sizeOf part < sizeOf content := by
  simp only [parts?, Option.bind_eq_bind, Option.bind_eq_some_iff] at h
  obtain ⟨r, hr, j, hj, he⟩ := h
  cases j with
  | arr elems =>
    cases he
    have := Json.sizeOf_field_lt hr hj
    have := List.sizeOf_lt_of_mem hp
    simp only [Json.arr.sizeOf_spec] at *
    omega
  | _ => simp [Json.elems?] at he

def read? (j : Json) : Option RemoteFilter :=
  match _ : j.variant? with
  | none => none
  | some (tag, none) => ofTag? tag
  | some (tag, some content) =>
    if tag = "All" ∨ tag = "Any" then
      match _ : parts? content with
      | none => none
      | some parts => do
        let filters ← parts.attach.mapM fun ⟨part, _⟩ => read? part
        return if tag = "All" then .all filters else .any filters
    else match content with
      | .null => ofTag? tag
      | _ => ofLeaf? tag content
termination_by sizeOf j
decreasing_by
  exact Nat.lt_trans (sizeOf_of_mem_parts ‹_› ‹_›) (Json.sizeOf_variant_lt ‹_›)

instance : Wire RemoteFilter := ⟨write, read?⟩

end RemoteFilter

end LiveRooms
