import LiveRooms.Status
import LiveRooms.Wire

/-!
# The wire form of loading states
-/

namespace LiveRooms

namespace LoadingState

def write : LoadingState → Json
  | .notLoaded => .str "NotLoaded"
  | .loaded maximumRooms =>
    .tagged "Loaded" (.obj [("maximum_number_of_rooms", Wire.write maximumRooms)])

def read? : Json → Option LoadingState :=
  Wire.bareOrOptional? "NotLoaded" .notLoaded "Loaded" "maximum_number_of_rooms" .loaded

instance : Wire LoadingState := ⟨write, read?⟩

end LoadingState

namespace ListStatus

def write : ListStatus → Json
  | .notLoaded => .str "NotLoaded"
  | .loaded totalRooms => .tagged "Loaded" (.obj [("total_rooms", Wire.write totalRooms)])

def read? : Json → Option ListStatus :=
  Wire.bareOrOptional? "NotLoaded" .notLoaded "Loaded" "total_rooms" .loaded

instance : Wire ListStatus := ⟨write, read?⟩

end ListStatus

end LiveRooms
