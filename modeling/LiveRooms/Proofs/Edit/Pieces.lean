import LiveRooms.Proofs.Edit.InRange
import LiveRooms.Proofs.Edit.Stretch
import Mathlib.Data.List.Induction

/-!
# Edits in pieces

Every edit that fits comes to a batch of insertions and removals of one element each: the stretch
that it takes away is removed from its end to its start, and the elements it brings along are
inserted one after the other (`Edit.pieces`).  The same the other way round takes the edit back
(`Edit.undoing`).  Both are cases of one fact about stretches (`applyAll_exchange`).

An edit names a place by a number of 64 bits, so the lists here are as long as such a number can
tell.
-/

namespace LiveRooms.Edit

variable {α : Type} {edit : Edit α} {items : List α}

/-- Whether an edit inserts or removes one element at a place. -/
def isPiece : Edit α → Bool
  | .insertAt .. | .removeAt _ => true
  | _ => false

/-- Inserts values one after the other, the first of them at `start`. -/
def insertions (start : Nat) : List α → List (Edit α)
  | [] => []
  | value :: values => .insertAt (UInt64.ofNat start) value :: insertions (start + 1) values

/-- Removes the elements of a stretch one by one, from its end to its start. -/
def removals (start : Nat) : Nat → List (Edit α)
  | 0 => []
  | count + 1 => .removeAt (UInt64.ofNat (start + count)) :: removals start count

/-- Removes the elements of a stretch and inserts values in their place, one by one. -/
def exchange (s : Stretch) (values : List α) : List (Edit α) :=
  removals s.start s.count ++ insertions s.start values

/-- An edit of a list in pieces. -/
def pieces (items : List α) (edit : Edit α) : List (Edit α) :=
  exchange (edit.stretch items.length) edit.payload

/-- The pieces that take an edit of a list back. -/
def undoing (items : List α) (edit : Edit α) : List (Edit α) :=
  let s := edit.stretch items.length
  exchange ⟨s.start, edit.payload.length⟩ ((items.drop s.start).take s.count)

theorem isPiece_of_mem_insertions {start : Nat} {values : List α}
    (h : edit ∈ insertions start values) : edit.isPiece = true := by
  induction values generalizing start with
  | nil => cases h
  | cons value values ih =>
    rcases List.mem_cons.1 h with rfl | h
    · rfl
    · exact ih h

theorem isPiece_of_mem_removals {start count : Nat} (h : edit ∈ removals start count) :
    edit.isPiece = true := by
  induction count with
  | zero => cases h
  | succ count ih =>
    rcases List.mem_cons.1 h with rfl | h
    · rfl
    · exact ih h

theorem isPiece_of_mem_exchange {s : Stretch} {values : List α} (h : edit ∈ exchange s values) :
    edit.isPiece = true :=
  (List.mem_append.1 h).elim isPiece_of_mem_removals isPiece_of_mem_insertions

/-! ## A stretch that makes room for values -/

theorem applyAll_insertAt_cons {edits : List (Edit α)} {before after : List α} {value : α}
    (h : before.length < UInt64.size) :
    applyAll (.insertAt (UInt64.ofNat before.length) value :: edits) (before ++ after) =
      applyAll edits (before ++ value :: after) := by
  have hi : (UInt64.ofNat before.length).toNat = before.length := UInt64.toNat_ofNat_of_lt' h
  have hf : Fits (before ++ after).length (.insertAt (UInt64.ofNat before.length) value) := by
    simp [Fits, hi]
  rw [applyAll_cons_of_check (check_eq_ok_iff.2 hf), edited_eq_append hf]
  simp [stretch, Stretch.stop, payload, hi]

theorem applyAll_removeAt_cons {edits : List (Edit α)} {before after : List α} {x : α}
    (h : before.length < UInt64.size) :
    applyAll (.removeAt (UInt64.ofNat before.length) :: edits) (before ++ x :: after) =
      applyAll edits (before ++ after) := by
  have hi : (UInt64.ofNat before.length).toNat = before.length := UInt64.toNat_ofNat_of_lt' h
  have hf : Fits (before ++ x :: after).length
      (.removeAt (UInt64.ofNat before.length) : Edit α) := by
    simp [Fits, hi]
  rw [applyAll_cons_of_check (check_eq_ok_iff.2 hf), edited_eq_append hf]
  simp [stretch, Stretch.stop, payload, hi]

theorem applyAll_insertions {before after values : List α}
    (h : (before ++ values).length ≤ UInt64.size) :
    applyAll (insertions before.length values) (before ++ after) =
      (before ++ values ++ after, 0) := by
  induction values generalizing before with
  | nil => simp [insertions, applyAll]
  | cons value values ih =>
    have hl : before.length < UInt64.size := by
      rw [List.length_append, List.length_cons] at h
      omega
    rw [insertions, applyAll_insertAt_cons hl]
    have hv : (before ++ [value] ++ values).length ≤ UInt64.size := by simpa using h
    simpa using ih hv

theorem applyAll_removals {edits : List (Edit α)} {before old after : List α}
    (h : (before ++ old).length ≤ UInt64.size) :
    applyAll (removals before.length old.length ++ edits) (before ++ old ++ after) =
      applyAll edits (before ++ after) := by
  induction old using List.reverseRecOn generalizing after with
  | nil => simp [removals]
  | append_singleton old x ih =>
    have hl : (before ++ old).length < UInt64.size := by
      simp only [List.length_append, List.length_singleton] at h ⊢
      omega
    rw [List.length_append, List.length_singleton, removals, List.cons_append,
      ← List.length_append, ← List.append_assoc, List.append_assoc (before ++ old),
      List.singleton_append, applyAll_removeAt_cons hl]
    exact ih (Nat.le_of_lt hl)

/-- The elements of a stretch make room for others. -/
theorem applyAll_exchange {before old new after : List α}
    (ho : (before ++ old).length ≤ UInt64.size) (hn : (before ++ new).length ≤ UInt64.size) :
    applyAll (exchange ⟨before.length, old.length⟩ new) (before ++ old ++ after) =
      (before ++ new ++ after, 0) := by
  rw [exchange, applyAll_removals ho, applyAll_insertions hn]

/-! ## Edits and their pieces -/

/-- A list falls into what lies before the stretch that an edit takes away, the stretch, and what
lies after it. -/
theorem exists_eq_append (hf : edit.Fits items.length) : ∃ before old after,
    items = before ++ old ++ after ∧ edit.stretch items.length = ⟨before.length, old.length⟩ ∧
      edit.edited items = before ++ edit.payload ++ after := by
  have hstop := stop_stretch_le hf
  have hedited := edited_eq_append hf
  generalize edit.stretch items.length = s at hstop hedited ⊢
  obtain ⟨start, count⟩ := s
  have hle : start + count ≤ items.length := hstop
  have hstart : (items.take start).length = start := List.length_take_of_le (by omega)
  have hcount : ((items.drop start).take count).length = count :=
    List.length_take_of_le (by rw [List.length_drop]; omega)
  refine ⟨items.take start, (items.drop start).take count, items.drop (start + count), ?_, ?_,
    hedited⟩
  · rw [List.append_assoc, ← List.drop_drop, List.take_append_drop, List.take_append_drop]
  · rw [hstart, hcount]

/-- In pieces an edit does the same, and is taken back. -/
theorem applyAll_pieces (hf : edit.Fits items.length) (hi : items.length < UInt64.size)
    (hr : (edit.edited items).length < UInt64.size) :
    applyAll (edit.pieces items) items = (edit.edited items, 0) ∧
      applyAll (edit.undoing items) (edit.edited items) = (items, 0) := by
  obtain ⟨before, old, after, rfl, hs, he⟩ := exists_eq_append hf
  rw [he, List.length_append] at hr
  rw [List.length_append] at hi
  have ho : (before ++ old).length ≤ UInt64.size := by omega
  have hn : (before ++ edit.payload).length ≤ UInt64.size := by omega
  have hold : ((before ++ old ++ after).drop before.length).take old.length = old := by
    rw [List.append_assoc, List.drop_left, List.take_left]
  rw [pieces, undoing, hs, he, hold]
  exact ⟨applyAll_exchange ho hn, applyAll_exchange hn ho⟩

theorem applyAll_removeAt_insertAt {index : UInt64} {value : α}
    (h : items[index.toNat]? = some value) :
    applyAll [.removeAt index, .insertAt index value] items = (items, 0) := by
  obtain ⟨hlt, rfl⟩ := List.getElem?_eq_some_iff.1 h
  have hi : Fits (items.eraseIdx index.toNat).length (.insertAt index items[index.toNat]) := by
    show index.toNat ≤ (items.eraseIdx index.toNat).length
    rw [List.length_eraseIdx_of_lt hlt]
    omega
  have hr : Fits items.length (.removeAt index : Edit α) := hlt
  rw [applyAll_cons_of_check (check_eq_ok_iff.2 hr), edited,
    applyAll_cons_of_check (check_eq_ok_iff.2 hi), edited, List.insertIdx_eraseIdx_getElem hlt,
    applyAll]

theorem applyAll_insertAt_removeAt {index : UInt64} (h : index.toNat ≤ items.length) (value : α) :
    applyAll [.insertAt index value, .removeAt index] items = (items, 0) := by
  have hi : Fits items.length (.insertAt index value) := h
  have hr : Fits (items.insertIdx index.toNat value).length (.removeAt index : Edit α) := by
    show index.toNat < (items.insertIdx index.toNat value).length
    rw [List.length_insertIdx_of_le_length h]
    omega
  rw [applyAll_cons_of_check (check_eq_ok_iff.2 hi), edited,
    applyAll_cons_of_check (check_eq_ok_iff.2 hr), edited, List.eraseIdx_insertIdx_self, applyAll]

/-- An edit that fits does the same as insertions and removals of one element each, none of which is
skipped, and others of them, none of which is skipped either, lead back to the list from which it
came.  To take an element away and put it back, or to put one in and take it away, leaves every
list as it was. -/
theorem pieces_of_check (hc : edit.check items.length = .ok ()) (hi : items.length < UInt64.size)
    (hr : (edit.edited items).length < UInt64.size) :
    edit.apply items = .ok (edit.edited items) ∧
    ((∀ piece ∈ edit.pieces items, piece.isPiece = true) ∧
      applyAll (edit.pieces items) items = (edit.edited items, 0)) ∧
    ((∀ piece ∈ edit.undoing items, piece.isPiece = true) ∧
      applyAll (edit.undoing items) (edit.edited items) = (items, 0)) ∧
    (∀ index value, items[UInt64.toNat index]? = some value →
      applyAll [.removeAt index, .insertAt index value] items = (items, 0)) ∧
    (∀ index value, UInt64.toNat index ≤ items.length →
      applyAll [.insertAt index value, .removeAt index] items = (items, 0)) := by
  obtain ⟨hp, hu⟩ := applyAll_pieces (check_eq_ok_iff.1 hc) hi hr
  refine ⟨apply_eq_ok_iff.2 ⟨hc, rfl⟩, ⟨fun _ => isPiece_of_mem_exchange, hp⟩,
    ⟨fun _ => isPiece_of_mem_exchange, hu⟩, ?_, ?_⟩
  · exact fun index value hx => applyAll_removeAt_insertAt hx
  · exact fun index value hx => applyAll_insertAt_removeAt hx value

/-- A list that is replaced by a longer one. -/
theorem pieces_of_reset :
    pieces ["a", "b"] (.reset ["c", "d", "e"]) =
      [.removeAt 1, .removeAt 0, .insertAt 0 "c", .insertAt 1 "d", .insertAt 2 "e"] ∧
    undoing ["a", "b"] (.reset ["c", "d", "e"]) =
      [.removeAt 2, .removeAt 1, .removeAt 0, .insertAt 0 "a", .insertAt 1 "b"] ∧
    applyAll (pieces ["a", "b"] (.reset ["c", "d", "e"])) ["a", "b"] = (["c", "d", "e"], 0) ∧
    applyAll (undoing ["a", "b"] (.reset ["c", "d", "e"])) ["c", "d", "e"] = (["a", "b"], 0) := by
  have hi : ["a", "b"].length < UInt64.size := by decide
  have hr : ((Edit.reset ["c", "d", "e"]).edited ["a", "b"]).length < UInt64.size := by decide
  obtain ⟨-, ⟨-, hp⟩, ⟨-, hu⟩, -⟩ := pieces_of_check rfl hi hr
  exact ⟨by decide, by decide, hp, hu⟩

end LiveRooms.Edit
