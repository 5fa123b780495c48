/-!
# Letter case
-/

namespace LiveRooms.Text

/-- The characters of a text with ASCII capitals made small; other characters stay as they are. -/
def lowered (s : String) : List Char := s.toList.map Char.toLower

end LiveRooms.Text
