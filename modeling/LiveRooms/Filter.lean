import LiveRooms.Text.StringSet

/-!
# Room list filters

The filter that the view asks for and its remote form, the structured filter that the remote list
evaluates.  A remote form other than `RemoteFilter.nothing` is a conjunction: what was asked for,
the two base filters, and the exclusion of low-priority rooms where it applies.
-/

namespace LiveRooms

/-- A quick filter. -/
inductive QuickFilter where
  | unreads
  | people
  | rooms
  | favourites
  | invites
  | lowPriority
  deriving DecidableEq, Repr

/-- The filter that the view asks for. -/
inductive Filter where
  /-- No room at all. -/
  | excludeAll
  /-- The rooms whose name matches a query. -/
  | search (query : String)
  /-- The rooms of a set that pass all the quick filters. -/
  | rooms (ids : StringSet) (filters : List QuickFilter)
  /-- The rooms that pass all the quick filters. -/
  | all (filters : List QuickFilter)
  deriving DecidableEq, Repr

instance : Inhabited Filter := ⟨.all []⟩

/-- A category of rooms. -/
inductive RoomCategory where
  | people
  | group
  deriving DecidableEq, Repr

/-- The structured filter of the remote list. -/
inductive RemoteFilter where
  | all (filters : List RemoteFilter)
  | any (filters : List RemoteFilter)
  | nonSpace
  | space
  | nonLeft
  | invite
  | deduplicateVersions
  | unread
  | favourite
  | lowPriority
  | nonLowPriority
  | category (expect : RoomCategory)
  | identifiers (ids : List String)
  | fuzzyName (pattern : String)
  | normalizedName (pattern : String)
  /-- Matches nothing. -/
  | nothing
  deriving Repr, Inhabited

/-- Settings that change the remote form of filters. -/
structure FilterSettings where
  /-- Match names fuzzily instead of after normalization. -/
  fuzzySearch : Bool := false
  /-- Hide low-priority rooms that were not asked for. -/
  hideLowPriority : Bool := false
  deriving DecidableEq, Repr, Inhabited

/-- The remote form of a quick filter. -/
def QuickFilter.toRemote : QuickFilter → RemoteFilter
  | .unreads => .unread
  | .people => .category .people
  | .rooms => .category .group
  | .favourites => .favourite
  | .invites => .invite
  | .lowPriority => .lowPriority

namespace RemoteFilter

/-- Rooms that are no spaces and were not left, and invites to spaces. -/
def joinedOrInvited : RemoteFilter :=
  .any [.all [.nonSpace, .nonLeft], .all [.space, .invite]]

/-- The filters of every list that shows something. -/
def base : List RemoteFilter := [joinedOrInvited, .deduplicateVersions]

end RemoteFilter

namespace Filter

/-- Low-priority rooms are excluded where the settings hide them and the view did not ask for
them. -/
def exclusion (settings : FilterSettings) (filters : List QuickFilter) : List RemoteFilter :=
  if settings.hideLowPriority && !filters.contains .lowPriority then [.nonLowPriority] else []

/-- The matcher of room names that the settings choose. -/
def nameFilter (settings : FilterSettings) (query : String) : RemoteFilter :=
  if settings.fuzzySearch then .fuzzyName query else .normalizedName query

/-- The remote form of a filter. -/
def toRemote (settings : FilterSettings) : Filter → RemoteFilter
  | .excludeAll => .nothing
  | .search query => .all (nameFilter settings query :: RemoteFilter.base)
  | .rooms ids filters =>
    .all (filters.map QuickFilter.toRemote ++ RemoteFilter.base ++ [.identifiers ids.toList] ++
      exclusion settings filters)
  | .all filters =>
    .all (filters.map QuickFilter.toRemote ++ RemoteFilter.base ++ exclusion settings filters)

end Filter

end LiveRooms
