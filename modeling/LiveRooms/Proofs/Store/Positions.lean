import LiveRooms.Proofs.Store.Ids
import Mathlib.Data.List.Range

/-!
# The positions that a reading of ids covers

A reading of ids covers the positions of the list that lie in the viewport and less than a limit
behind its start (`Viewport.positions`).  They follow each other without a gap
(`Viewport.positions_eq`), so the ids read are a piece of the list (`Store.ids_infix`), and
viewports that follow each other, none wider than the limit, cover every position once
(`Viewport.flatMap_positions`).
-/

namespace LiveRooms

namespace Viewport

variable {v : Viewport} {limit n a b : Nat}

/-- The positions of a list of length `n` that a reading of at most `limit` ids covers. -/
def positions (limit n : Nat) (v : Viewport) : List Nat :=
  (List.range n).filter fun i =>
    v.start.toNat ≤ i && i < v.stop.toNat && i < v.start.toNat + limit

/-- Viewports that follow each other from `a` up to `b`, none of them wider than `limit`. -/
def Tiles (limit : Nat) : Nat → List Viewport → Nat → Prop
  | a, [], b => a = b
  | a, v :: vs, b =>
    v.start.toNat = a ∧ v.start ≤ v.stop ∧ v.width.toNat ≤ limit ∧ Tiles limit v.stop.toNat vs b

instance : ∀ (limit a : Nat) (vs : List Viewport) (b : Nat), Decidable (Tiles limit a vs b)
  | _, a, [], b => inferInstanceAs (Decidable (a = b))
  | limit, a, v :: vs, b =>
    have := instDecidableTiles limit v.stop.toNat vs b
    inferInstanceAs (Decidable (v.start.toNat = a ∧ v.start ≤ v.stop ∧ v.width.toNat ≤ limit ∧
      Tiles limit v.stop.toNat vs b))

theorem filter_range_eq (a b n : Nat) :
    ((List.range n).filter fun i => a ≤ i && i < b) = List.range' a (min b n - a) := by
  induction n with
  | zero => simp
  | succ n ih =>
    rw [List.range_succ, List.filter_append, ih]
    by_cases h : a ≤ n ∧ n < b
    · -- the position `n` comes right behind those before it
      have hk : min b (n + 1) - a = (min b n - a) + 1 := by omega
      have hn : a + (min b n - a) = n := by omega
      rw [List.filter_cons_of_pos (by simpa using h), List.filter_nil, hk, List.range'_1_concat, hn]
    · have hk : min b (n + 1) - a = min b n - a := by omega
      rw [List.filter_cons_of_neg (by simpa using h), List.filter_nil, List.append_nil, hk]

theorem positions_eq (limit n : Nat) (v : Viewport) :
    v.positions limit n =
      List.range' v.start.toNat
        (min (min v.stop.toNat (v.start.toNat + limit)) n - v.start.toNat) := by
  rw [← filter_range_eq]
  refine List.filter_congr fun i _ => ?_
  rw [Bool.and_assoc, Bool.eq_iff_iff]
  simp only [Bool.and_eq_true, decide_eq_true_eq, Nat.lt_min]

theorem length_positions_le : (v.positions limit n).length ≤ limit := by
  rw [positions_eq, List.length_range']
  omega

theorem range'_append_range' {a b m : Nat} (ham : a ≤ m) (hmb : m ≤ b) (n : Nat) :
    List.range' a (min m n - a) ++ List.range' m (min b n - m) = List.range' a (min b n - a) := by
  rcases Nat.le_total n m with h | h
  · have hz : min b n - m = 0 := by omega
    have hk : min m n - a = min b n - a := by omega
    rw [hz, hk, List.range'_zero, List.append_nil]
  · have hm : a + (min m n - a) = m := by omega
    have hk : min b n - a = (min m n - a) + (min b n - m) := by omega
    rw [hk, ← List.range'_append_1, hm]

theorem Tiles.le {vs : List Viewport} (h : Tiles limit a vs b) : a ≤ b := by
  induction vs generalizing a with
  | nil => exact Nat.le_of_eq h
  | cons v vs ih =>
    obtain ⟨rfl, hv, -, h⟩ := h
    exact Nat.le_trans (UInt64.le_iff_toNat_le.1 hv) (ih h)

/-- Viewports that follow each other cover every position between their ends once, in order. -/
theorem flatMap_positions {vs : List Viewport} (h : Tiles limit a vs b) (n : Nat) :
    vs.flatMap (positions limit n) = List.range' a (min b n - a) := by
  induction vs generalizing a with
  | nil =>
    have hz : min b n - a = 0 := by
      have hab : a = b := h
      omega
    rw [hz, List.range'_zero, List.flatMap_nil]
  | cons v vs ih =>
    obtain ⟨rfl, hv, hw, h⟩ := h
    -- the limit does not cut a viewport short that is no wider
    have hl : min v.stop.toNat (v.start.toNat + limit) = v.stop.toNat := by
      have hle := UInt64.le_iff_toNat_le.1 hv
      have hw' := width_le_iff.1 (UInt64.le_refl v.width)
      omega
    rw [List.flatMap_cons, ih h, positions_eq, hl,
      range'_append_range' (UInt64.le_iff_toNat_le.1 hv) h.le]

/-! ## The slice that is taken -/

/-- The bounds of a slice lie in the list and are in order. -/
theorem indicesWithin_le (v : Viewport) (n : Nat) :
    (v.indicesWithin n).1 ≤ (v.indicesWithin n).2 ∧ (v.indicesWithin n).2 ≤ n := by
  simp only [indicesWithin]
  omega

theorem filterMap_range' {α : Type} (items : List α) (a k : Nat) :
    (List.range' a k).filterMap (items[·]?) = (items.drop a).take k := by
  induction k generalizing a with
  | zero => rw [List.range'_zero, List.take_zero]; rfl
  | succ k ih =>
    rw [List.range'_succ, List.filterMap_cons, ih]
    rcases Nat.lt_or_ge a items.length with h | h
    · rw [List.getElem?_eq_getElem h, List.drop_eq_getElem_cons h, List.take_succ_cons]
    · rw [List.getElem?_eq_none h, List.drop_eq_nil_of_le h,
        List.drop_eq_nil_of_le (Nat.le_succ_of_le h), List.take_nil, List.take_nil]

end Viewport

namespace Store

variable {s : Store} {v : Viewport}

/-- The ids of the rooms in the list, in order. -/
def allIds (entries : List Entry) : List String := entries.map fun entry => entry.summary.id

/-- The ids at some positions of the list. -/
def idsAt (entries : List Entry) (positions : List Nat) : List String :=
  positions.filterMap ((allIds entries)[·]?)

@[simp] theorem length_allIds (entries : List Entry) :
    (allIds entries).length = entries.length := List.length_map _

theorem ids_eq_idsAt (s : Store) (v : Viewport) :
    s.ids v = idsAt s.entries (v.positions s.limit.toNat s.entries.length) := by
  rw [idsAt, Viewport.positions_eq, Viewport.filterMap_range', ← length_allIds, ← List.drop_take,
    ← List.take_eq_take_min, ids_eq, allIds]

theorem ids_infix (s : Store) (v : Viewport) : s.ids v <:+: allIds s.entries := by
  rw [ids_eq]
  exact (List.drop_suffix _ _).isInfix.trans (List.take_prefix _ _).isInfix

theorem length_ids_le (s : Store) (v : Viewport) : (s.ids v).length ≤ s.limit.toNat := by
  rw [ids_eq_idsAt]
  exact (List.length_filterMap_le _ _).trans Viewport.length_positions_le

/-- The ids in viewports that follow each other over the whole list are all ids, in order. -/
theorem flatMap_ids {vs : List Viewport} (h : Viewport.Tiles s.limit.toNat 0 vs s.entries.length) :
    vs.flatMap s.ids = allIds s.entries := by
  have hp := Viewport.flatMap_positions h s.entries.length
  rw [Nat.min_self, Nat.sub_zero] at hp
  calc vs.flatMap s.ids
      = vs.flatMap fun v => idsAt s.entries (v.positions s.limit.toNat s.entries.length) := by
        simp only [ids_eq_idsAt]
    _ = idsAt s.entries (vs.flatMap (Viewport.positions s.limit.toNat s.entries.length)) := by
        rw [idsAt, List.filterMap_flatMap]; rfl
    _ = allIds s.entries := by
        rw [hp, idsAt, Viewport.filterMap_range', List.drop_zero, ← length_allIds,
          List.take_length]

end Store

end LiveRooms
