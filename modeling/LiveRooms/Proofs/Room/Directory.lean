import LiveRooms.Room
import Mathlib.Data.Fintype.EquivFin

/-!
# Changing rooms in a directory

A change of the room behind one key leaves the rooms behind other keys as they are.  Whatever a step
says of a room, the room keeps its id.
-/

namespace LiveRooms

/-- What a step says of a room, applied to it. -/
def Room.change (info : Option Metadata) (event : Option (Option Event)) (readable : Option Bool)
    (room : Room) : Room :=
  let room := info.elim room room.setInfo
  { room with
    latestEvent := event.getD room.latestEvent, readable := readable.getD room.readable }

namespace Directory

variable {d : Directory} {key key' : String} {change : Room → Room} {idOf : String → String}

theorem lookup_filter_of_ne {rooms : List (String × Room)} (h : key' ≠ key) :
    (rooms.filter fun entry => entry.1 != key).lookup key' = rooms.lookup key' := by
  induction rooms with
  | nil => rfl
  | cons entry rooms ih =>
    obtain ⟨k, room⟩ := entry
    by_cases hk : k = key
    · subst hk
      rw [List.filter_cons_of_neg (by simp), ih, List.lookup_cons, beq_false_of_ne h]
    · rw [List.filter_cons_of_pos (by simp [hk]), List.lookup_cons, List.lookup_cons, ih]

@[simp] theorem room_update_self (d : Directory) (key : String) (change : Room → Room) :
    (d.update key change).room key = change (d.room key) := by
  simp [update, room]

theorem room_update_of_ne (h : key' ≠ key) (d : Directory) (change : Room → Room) :
    (d.update key change).room key' = d.room key' := by
  rw [room, room, update, List.lookup_cons, beq_false_of_ne h, lookup_filter_of_ne h]

/-! ## Ids -/

/-- The rooms have the given ids, and their metadata say so. -/
def Identifies (d : Directory) (idOf : String → String) : Prop :=
  ∀ key, (d.room key).id = idOf key ∧ (d.room key).info.id = idOf key

theorem identifies_update (h : d.Identifies idOf) (info : Option Metadata)
    (event : Option (Option Event)) (readable : Option Bool) :
    (d.update key (Room.change info event readable)).Identifies idOf := by
  intro key'
  by_cases hk : key' = key
  · subst hk
    rw [room_update_self]
    cases info with
    | none => exact h key'
    | some info => exact ⟨(h key').1, (h key').1⟩
  · rw [room_update_of_ne hk]
    exact h key'

/-! ## Rooms that can be read -/

/-- A key of which nothing is known names a room that can be read. -/
theorem exists_readable (d : Directory) : ∃ key, (d.room key).readable = true := by
  obtain ⟨key, hk⟩ := Infinite.exists_notMem_finset (d.known.map Prod.fst).toFinset
  rw [List.mem_toFinset] at hk
  have hn : d.known.lookup key = none := by
    rw [List.lookup_eq_none_iff]
    intro entry he
    rw [bne_iff_ne]
    rintro rfl
    exact hk (List.mem_map_of_mem he)
  exact ⟨key, by rw [room, hn]; rfl⟩

theorem readable_update (d : Directory) (key : String) :
    ((d.update key (Room.change none none (some true))).room key).readable = true := by
  rw [room_update_self]
  rfl

theorem readable_update_of_readable (h : (d.room key').readable = true) (key : String) :
    ((d.update key (Room.change none none (some true))).room key').readable = true := by
  by_cases hk : key' = key
  · rw [hk, readable_update]
  · rwa [room_update_of_ne hk]

end Directory

end LiveRooms
