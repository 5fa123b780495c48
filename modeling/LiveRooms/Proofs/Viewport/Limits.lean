import LiveRooms.Proofs.Store.Positions

/-!
# Limited viewports

The words of a viewport behave like the numbers they stand for: its width is the distance from its
start to its stop (`toNat_width`), and a limit moves the stop to at most that many positions behind
the start (`toNat_stop_clamp`).  No number on the way is too large for a word (`width?_eq`,
`clamp?_eq`, `indicesWithin?_eq`).  So limits can be combined, a viewport can be limited before or
after it is restricted to the positions of a list, and the positions that are left are those within
the viewport, the limit and the list.
-/

namespace LiveRooms

namespace Viewport

variable {v w : Viewport} {limit : UInt64} {n : Nat}

/-! ## The numbers on the way -/

/-- A number as a word, if it is small enough for one. -/
def word? (n : Nat) : Option UInt64 := if n < UInt64.size then some (.ofNat n) else none

/-- The width of a viewport, zero for an inverted one, if the difference is a word. -/
def width? (v : Viewport) : Option UInt64 := word? (v.stop.toNat - v.start.toNat)

/-- The limited viewport, if every number on the way is a word. -/
def clamp? (limit : UInt64) (v : Viewport) : Option Viewport := do
  let width ← v.width?
  if width ≤ limit then return v
  let stop ← word? (v.start.toNat + limit.toNat)
  return ⟨v.start, stop⟩

/-- The positions of a viewport that exist in a list of the given length, if every number on the way
is a word. -/
def indicesWithin? (length : Nat) (v : Viewport) : Option (Nat × Nat) := do
  let length ← word? length
  let first ← word? (min v.start.toNat length.toNat)
  let stop ← word? (min v.stop.toNat length.toNat)
  let last ← word? (max stop.toNat first.toNat)
  return (first.toNat, last.toNat)

@[simp] theorem word?_toNat (x : UInt64) : word? x.toNat = some x := by
  rw [word?, if_pos x.toNat_lt, UInt64.ofNat_toNat]

theorem width?_eq (v : Viewport) : v.width? = some v.width := by
  rw [width?, ← toNat_width, word?_toNat]

theorem clamp?_eq (limit : UInt64) (v : Viewport) : v.clamp? limit = some (v.clamp limit) := by
  unfold clamp? clamp
  rw [width?_eq]
  by_cases h : v.width ≤ limit
  · simp [h]
  · have hw : word? (v.start.toNat + limit.toNat) = some (v.start + limit) := by
      rw [← toNat_start_add h, word?_toNat]
    simp [h, hw]

theorem indicesWithin?_eq (hn : n < UInt64.size) (v : Viewport) :
    v.indicesWithin? n = some (v.indicesWithin n) := by
  obtain ⟨length, rfl⟩ : ∃ length : UInt64, length.toNat = n :=
    ⟨.ofNat n, UInt64.toNat_ofNat_of_lt' hn⟩
  simp [indicesWithin?, indicesWithin, ← UInt64.toNat_min, ← UInt64.toNat_max]

/-! ## The limited viewport -/

theorem eq_of_toNat_stop (hs : v.start = w.start) (ht : v.stop.toNat = w.stop.toNat) : v = w := by
  cases v
  cases w
  rw [mk.injEq]
  exact ⟨hs, UInt64.toNat_inj.1 ht⟩

theorem clamp_clamp (limit limit' : UInt64) (v : Viewport) :
    (v.clamp limit).clamp limit' = v.clamp (min limit limit') := by
  refine eq_of_toNat_stop (by simp only [start_clamp]) ?_
  simp only [toNat_stop_clamp, start_clamp, UInt64.toNat_min]
  omega

theorem width_clamp (limit : UInt64) (v : Viewport) :
    (v.clamp limit).width = min v.width limit := by
  rw [← UInt64.toNat_inj, UInt64.toNat_min, toNat_width, toNat_width, toNat_stop_clamp, start_clamp]
  omega

theorem stop_clamp_le (limit : UInt64) (v : Viewport) : (v.clamp limit).stop ≤ v.stop := by
  rw [UInt64.le_iff_toNat_le, toNat_stop_clamp]
  exact Nat.min_le_left _ _

/-! ## Positions of a list -/

/-- The viewport of the positions from `first` up to `last`. -/
def ofIndices (indices : Nat × Nat) : Viewport := ⟨.ofNat indices.1, .ofNat indices.2⟩

/-- The bounds of a viewport. -/
def indices (v : Viewport) : Nat × Nat := (v.start.toNat, v.stop.toNat)

/-- A viewport can be limited before or after it is restricted to the positions of a list. -/
theorem indicesWithin_clamp (hn : n < UInt64.size) (limit : UInt64) (v : Viewport) :
    (v.clamp limit).indicesWithin n = ((ofIndices (v.indicesWithin n)).clamp limit).indices := by
  obtain ⟨hle, hlast⟩ := indicesWithin_le v n
  have hf : (UInt64.ofNat (v.indicesWithin n).1).toNat = (v.indicesWithin n).1 :=
    UInt64.toNat_ofNat_of_lt' (by omega)
  have hl : (UInt64.ofNat (v.indicesWithin n).2).toNat = (v.indicesWithin n).2 :=
    UInt64.toNat_ofNat_of_lt' (by omega)
  simp only [indices, start_clamp, toNat_stop_clamp, ofIndices, hf, hl]
  simp only [indicesWithin, start_clamp, toNat_stop_clamp, Prod.mk.injEq, true_and]
  omega

theorem mem_indicesWithin_clamp_iff (limit : UInt64) (n : Nat) (v : Viewport) (i : Nat) :
    ((v.clamp limit).indicesWithin n).1 ≤ i ∧ i < ((v.clamp limit).indicesWithin n).2 ↔
      i < n ∧ v.start.toNat ≤ i ∧ i < v.stop.toNat ∧ i < v.start.toNat + limit.toNat := by
  simp only [indicesWithin, start_clamp, toNat_stop_clamp]
  omega

/-- Whatever the bounds of a viewport, the limits and the length of a list are: no number is too
large for a word.  A limit keeps the start, cuts the width and does not go past the stop; two limits
are as good as the smaller one; it does not matter whether a viewport is limited before or after it
is restricted to the positions of a list; and the positions that are left are in the list and in
order, are those within the viewport, the limit and the list, and are none if the viewport is
inverted. -/
theorem clamp_arithmetic (v : Viewport) (limit limit' : UInt64) (hn : n < UInt64.size) :
    (v.width? = some v.width ∧ v.width.toNat = v.stop.toNat - v.start.toNat ∧
      v.clamp? limit = some (v.clamp limit) ∧
      v.indicesWithin? n = some (v.indicesWithin n)) ∧
    ((v.clamp limit).start = v.start ∧ (v.clamp limit).width = min v.width limit ∧
      (v.clamp limit).stop ≤ v.stop) ∧
    (v.clamp limit).clamp limit' = v.clamp (min limit limit') ∧
    (v.clamp limit).indicesWithin n = ((ofIndices (v.indicesWithin n)).clamp limit).indices ∧
    ∃ first last, (v.clamp limit).indicesWithin n = (first, last) ∧ first ≤ last ∧ last ≤ n ∧
      (∀ i, first ≤ i ∧ i < last ↔
        i < n ∧ v.start.toNat ≤ i ∧ i < v.stop.toNat ∧ i < v.start.toNat + limit.toNat) ∧
      (v.stop < v.start → first = last) := by
  obtain ⟨hle, hlast⟩ := indicesWithin_le (v.clamp limit) n
  refine ⟨⟨width?_eq v, toNat_width v, clamp?_eq limit v, indicesWithin?_eq hn v⟩,
    ⟨start_clamp limit v, width_clamp limit v, stop_clamp_le limit v⟩, clamp_clamp limit limit' v,
    indicesWithin_clamp hn limit v, _, _, rfl, hle, hlast,
    mem_indicesWithin_clamp_iff limit n v, fun hv => ?_⟩
  rw [UInt64.lt_iff_toNat_lt] at hv
  -- a position between the bounds would lie in the viewport
  by_contra hne
  have hlt := Nat.lt_of_le_of_ne hle hne
  obtain ⟨-, hstart, hstop, -⟩ :=
    (mem_indicesWithin_clamp_iff limit n v _).1 ⟨Nat.le_refl _, hlt⟩
  omega

/-- The last two positions of all, with a limit that would lead out of the words if it were added to
the start, and an inverted viewport. -/
theorem clamp_arithmetic_at_last_positions :
    let v : Viewport := ⟨18446744073709551613, 18446744073709551615⟩
    let inverted : Viewport := ⟨5, 2⟩
    18446744073709551614 < UInt64.size ∧
    v.clamp? 18446744073709551615 = some v ∧
    (∃ first last,
      (v.clamp 18446744073709551615).indicesWithin 18446744073709551614 = (first, last) ∧
      ∀ i, first ≤ i ∧ i < last ↔ i = 18446744073709551613) ∧
    10 < UInt64.size ∧ inverted.stop < inverted.start ∧
    ∃ first, (inverted.clamp 30).indicesWithin 10 = (first, first) := by
  intro v inverted
  have hn : 18446744073709551614 < UInt64.size := by decide
  have hten : 10 < UInt64.size := by decide
  have hinv : inverted.stop < inverted.start := by decide
  obtain ⟨⟨-, -, hclamp, -⟩, -, -, -, first, last, hv, -, -, hi, -⟩ :=
    clamp_arithmetic v 18446744073709551615 30 hn
  obtain ⟨-, -, -, -, first', last', hv', -, -, -, hempty⟩ := clamp_arithmetic inverted 30 30 hten
  refine ⟨hn, ?_, ⟨first, last, hv, fun i => ?_⟩, hten, hinv, first', ?_⟩
  · rw [hclamp]
    decide
  · have hstart : v.start.toNat = 18446744073709551613 := by decide
    have hstop : v.stop.toNat = 18446744073709551615 := by decide
    rw [hi, hstart, hstop]
    omega
  · rw [hv', ← hempty hinv]

end Viewport

end LiveRooms
