import LiveRooms.Store

/-!
# The ids in a viewport

The words that a viewport and its limit are made of behave like natural numbers
(`Viewport.toNat_width`, `Viewport.toNat_stop_clamp`): the elements of a list in a viewport are those
from its start up to its stop (`Viewport.slice_eq`), and a limit cuts it short at that many positions
from the start (`Viewport.slice_clamp`).  So a reading of ids yields the ids at the positions that
lie in the viewport, within the limit and in the list (`Store.ids_eq`).
-/

namespace LiveRooms

namespace Viewport

variable {α : Type} {v : Viewport} {limit : UInt64}

theorem slice_eq (v : Viewport) (items : List α) :
    v.slice items = (items.take v.stop.toNat).drop v.start.toNat := by
  simp only [slice, indicesWithin]
  rcases Nat.le_total items.length v.start.toNat with h | h
  · -- the list ends before the viewport starts
    rw [Nat.min_eq_right h, List.drop_length, List.take_nil, eq_comm, List.drop_eq_nil_iff]
    exact Nat.le_trans (List.length_take_le' _ _) h
  · rw [Nat.min_eq_left h, List.drop_take]
    rcases Nat.le_total v.stop.toNat items.length with h' | h'
    · rw [Nat.min_eq_left h']
      congr 1
      omega
    · rw [Nat.min_eq_right h', Nat.max_eq_left h, List.take_of_length_le (by simp),
        List.take_of_length_le (by rw [List.length_drop]; omega)]

theorem toNat_width (v : Viewport) : v.width.toNat = v.stop.toNat - v.start.toNat := by
  unfold width
  split
  · rename_i h
    exact UInt64.toNat_sub_of_le _ _ (UInt64.le_of_lt h)
  · rename_i h
    rw [UInt64.lt_iff_toNat_lt] at h
    show 0 = _
    omega

theorem width_le_iff : v.width ≤ limit ↔ v.stop.toNat ≤ v.start.toNat + limit.toNat := by
  rw [UInt64.le_iff_toNat_le, toNat_width, Nat.sub_le_iff_le_add']

/-- Where a viewport is clamped, its new stop is a word. -/
theorem add_lt_of_clamp (h : ¬ v.width ≤ limit) :
    v.start.toNat + limit.toNat < UInt64.size := by
  rw [width_le_iff] at h
  have := v.stop.toNat_lt
  simp only [UInt64.size]
  omega

theorem toNat_start_add (h : ¬ v.width ≤ limit) :
    (v.start + limit).toNat = v.start.toNat + limit.toNat := by
  rw [UInt64.toNat_add, Nat.mod_eq_of_lt (add_lt_of_clamp h)]

@[simp] theorem start_clamp (limit : UInt64) (v : Viewport) : (v.clamp limit).start = v.start := by
  unfold clamp
  split <;> rfl

theorem toNat_stop_clamp (limit : UInt64) (v : Viewport) :
    (v.clamp limit).stop.toNat = min v.stop.toNat (v.start.toNat + limit.toNat) := by
  unfold clamp
  split
  · rename_i h
    exact (Nat.min_eq_left (width_le_iff.1 h)).symm
  · rename_i h
    rw [toNat_start_add h]
    rw [width_le_iff] at h
    omega

theorem slice_clamp (v : Viewport) (limit : UInt64) (items : List α) :
    (v.clamp limit).slice items =
      (items.take (min v.stop.toNat (v.start.toNat + limit.toNat))).drop v.start.toNat := by
  rw [slice_eq, start_clamp, toNat_stop_clamp]

end Viewport

theorem Store.ids_eq (s : Store) (v : Viewport) :
    s.ids v = ((s.entries.map fun entry => entry.summary.id).take
      (min v.stop.toNat (v.start.toNat + s.limit.toNat))).drop v.start.toNat := by
  rw [ids, Viewport.slice_clamp, List.map_drop, List.map_take]

theorem Store.toNat_limit_empty (n : UInt64) : (Store.empty n).limit.toNat = max 1 n.toNat := by
  show (if n ≤ 1 then 1 else n).toNat = max 1 n.toNat
  split <;> rename_i h <;> rw [UInt64.le_iff_toNat_le] at h
  · exact (Nat.max_eq_left h).symm
  · exact (Nat.max_eq_right (Nat.le_of_not_le h)).symm

end LiveRooms
