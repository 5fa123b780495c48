import LiveRooms.Edit
import Mathlib.Data.List.InsertIdx

/-!
# The stretch that an edit replaces

Every edit takes one stretch of a list away and puts the elements it brings along in its place
(`edited_eq_append`).  From this the length of the new list is known, and the element at each of its
positions; what lies outside of the stretch stays, in order (`Replaces`).  An edit fits a list if
the place it names is there (`Fits`), and when it fits, the edit reaches no place that is not there
(`edited?_of_fits`).
-/

namespace LiveRooms.Edit

variable {α : Type} {edit : Edit α} {items result : List α} {length : Nat}

/-! ## Which edits fit -/

/-- The place that an edit names is in a list of the given length. -/
def Fits (length : Nat) : Edit α → Prop
  | .insertAt index _ => index.toNat ≤ length
  | .removeAt index | .setAt index _ => index.toNat < length
  | .popBack => 0 < length
  | _ => True

/-- The index that an edit names. -/
def index? : Edit α → Option Nat
  | .insertAt index _ | .removeAt index | .setAt index _ => some index.toNat
  | _ => none

/-- What is wrong with an edit that does not fit a list of the given length. -/
def fault (length : Nat) (edit : Edit α) : Fault :=
  match edit.index? with
  | some index => .outOfBounds index length
  | none => .emptySequence

theorem check_eq_ok_iff : edit.check length = .ok () ↔ edit.Fits length := by
  cases edit with
  | insertAt index value | removeAt index | setAt index value => simp [check, Fits]
  | popBack => simp [check, Fits, Nat.pos_iff_ne_zero]
  | append | clear | popFront | pushBack | pushFront | reset | truncate => simp [check, Fits]

theorem check_of_not_fits (h : ¬ edit.Fits length) :
    edit.check length = .error (edit.fault length) := by
  cases edit with
  | insertAt index value | removeAt index | setAt index value => exact if_neg h
  | popBack => exact if_pos (Nat.eq_zero_of_not_pos h)
  | append | clear | popFront | pushBack | pushFront | reset | truncate => exact absurd trivial h

/-! ## Places that are not there -/

/-- Inserts an element before a place, or at the end. -/
def insert? (items : List α) (place : Nat) (value : α) : Option (List α) :=
  if place ≤ items.length then some (items.insertIdx place value) else none

/-- Removes the element at a place. -/
def remove? (items : List α) (place : Nat) : Option (List α) :=
  if place < items.length then some (items.eraseIdx place) else none

/-- Replaces the element at a place. -/
def replace? (items : List α) (place : Nat) (value : α) : Option (List α) :=
  if place < items.length then some (items.set place value) else none

/-- The list after an edit, made by operations that reach only for places that are there. -/
def edited? (items : List α) : Edit α → Option (List α)
  | .append values => some (items ++ values)
  | .clear => some []
  | .insertAt index value => insert? items index.toNat value
  | .popBack => some items.dropLast
  | .popFront => if items.isEmpty then some items else remove? items 0
  | .pushBack value => some (items ++ [value])
  | .pushFront value => insert? items 0 value
  | .removeAt index => remove? items index.toNat
  | .reset values => some values
  | .setAt index value => replace? items index.toNat value
  | .truncate length => some (items.take length.toNat)

/-- An edit that fits reaches no place that is not there. -/
theorem edited?_of_fits (h : edit.Fits items.length) :
    edit.edited? items = some (edit.edited items) := by
  cases edit with
  | insertAt index value | removeAt index | setAt index value => exact if_pos h
  | pushFront value =>
    show insert? items 0 value = some (items.insertIdx 0 value)
    exact if_pos (Nat.zero_le _)
  | popFront =>
    cases items with
    | nil => rfl
    | cons x xs => rfl
  | append | clear | popBack | pushBack | reset | truncate => rfl

/-- An edit that names an index and does not fit would reach for a place that is not there. -/
theorem edited?_of_not_fits {index : Nat} (h : ¬ edit.Fits items.length)
    (hi : edit.index? = some index) : edit.edited? items = none := by
  cases edit with
  | insertAt index value | removeAt index | setAt index value => exact if_neg h
  | append | clear | popBack | popFront | pushBack | pushFront | reset | truncate => cases hi

/-! ## The stretch -/

/-- A stretch of a list. -/
structure Stretch where
  start : Nat
  count : Nat
  deriving DecidableEq, Repr

/-- The place right after a stretch. -/
def Stretch.stop (s : Stretch) : Nat := s.start + s.count

/-- What an edit takes away from a list of the given length. -/
def stretch (length : Nat) : Edit α → Stretch
  | .append _ | .pushBack _ => ⟨length, 0⟩
  | .clear | .reset _ => ⟨0, length⟩
  | .insertAt index _ => ⟨index.toNat, 0⟩
  | .popBack => ⟨length - 1, 1⟩
  | .popFront => ⟨0, min 1 length⟩
  | .pushFront _ => ⟨0, 0⟩
  | .removeAt index | .setAt index _ => ⟨index.toNat, 1⟩
  | .truncate keep => ⟨min keep.toNat length, length - keep.toNat⟩

theorem stop_stretch_le (h : edit.Fits length) : (edit.stretch length).stop ≤ length := by
  cases edit with
  | insertAt index value => exact h
  | removeAt index | setAt index value => exact h
  | popBack =>
    have hlt : 0 < length := h
    simp only [stretch, Stretch.stop]
    omega
  | append | clear | popFront | pushBack | pushFront | reset | truncate =>
    simp only [stretch, Stretch.stop]
    omega

theorem insertIdx_eq_append {place : Nat} (h : place ≤ items.length) (value : α) :
    items.insertIdx place value = items.take place ++ value :: items.drop place := by
  induction place generalizing items with
  | zero => rfl
  | succ place ih =>
    cases items with
    | nil => cases h
    | cons x xs => simp [List.insertIdx_succ_cons, ih (Nat.le_of_succ_le_succ h)]

/-- The elements that an edit brings along take the place of a stretch of the list. -/
theorem edited_eq_append (h : edit.Fits items.length) :
    edit.edited items = items.take (edit.stretch items.length).start ++ edit.payload ++
      items.drop (edit.stretch items.length).stop := by
  cases edit with
  | append values | pushBack value => simp [edited, stretch, Stretch.stop, payload]
  | clear | reset values => simp [edited, stretch, Stretch.stop, payload]
  | insertAt index value =>
    simp [edited, stretch, Stretch.stop, payload, insertIdx_eq_append h]
  | popBack =>
    have hlt : 0 < items.length := h
    have hstop : items.length - 1 + 1 = items.length := Nat.sub_add_cancel hlt
    simp [edited, stretch, Stretch.stop, payload, hstop, List.dropLast_eq_take]
  | popFront => cases items <;> simp [edited, stretch, Stretch.stop, payload]
  | pushFront value => simp [edited, stretch, Stretch.stop, payload]
  | removeAt index =>
    simp [edited, stretch, Stretch.stop, payload, List.eraseIdx_eq_take_drop_succ]
  | setAt index value =>
    have hlt : index.toNat < items.length := h
    simp [edited, stretch, Stretch.stop, payload, List.set_eq_take_append_cons_drop, hlt]
  | truncate keep =>
    have hstop : items.length ≤ min keep.toNat items.length + (items.length - keep.toNat) := by
      omega
    simp [edited, stretch, Stretch.stop, payload, List.drop_eq_nil_of_le hstop]

/-- One list comes out of another one when the elements of a stretch make room for some values:
place by place. -/
structure Replaces (s : Stretch) (values items result : List α) : Prop where
  stop_le : s.stop ≤ items.length
  length_eq : result.length = items.length - s.count + values.length
  before (place : Nat) : place < s.start → result[place]? = items[place]?
  within (place : Nat) : place < values.length → result[s.start + place]? = values[place]?
  after (place : Nat) : result[s.start + values.length + place]? = items[s.stop + place]?

theorem replaces_append {s : Stretch} (h : s.stop ≤ items.length) (values : List α) :
    Replaces s values items (items.take s.start ++ values ++ items.drop s.stop) := by
  have hstop : s.start + s.count ≤ items.length := h
  have hstart : (items.take s.start).length = s.start := List.length_take_of_le (by omega)
  refine ⟨h, ?_, ?_, ?_, ?_⟩
  · simp only [List.length_append, List.length_drop, hstart, Stretch.stop]
    omega
  · intro place hp
    rw [List.append_assoc, List.getElem?_append_left (by omega), List.getElem?_take_of_lt hp]
  · intro place hp
    rw [List.append_assoc, List.getElem?_append_right (by omega), hstart, Nat.add_sub_cancel_left,
      List.getElem?_append_left hp]
  · intro place
    have hl : (items.take s.start ++ values).length = s.start + values.length := by
      rw [List.length_append, hstart]
    rw [List.getElem?_append_right (by omega), hl, Nat.add_sub_cancel_left, List.getElem?_drop]

/-- Place by place, the new list is determined. -/
theorem Replaces.eq_append {s : Stretch} {values : List α} (h : Replaces s values items result) :
    result = items.take s.start ++ values ++ items.drop s.stop := by
  have h' := replaces_append h.stop_le values
  apply List.ext_getElem?
  intro place
  by_cases hb : place < s.start
  · rw [h.before place hb, h'.before place hb]
  by_cases hw : place < s.start + values.length
  · obtain ⟨k, rfl⟩ := Nat.exists_eq_add_of_le (Nat.le_of_not_lt hb)
    have hk : k < values.length := by omega
    rw [h.within k hk, h'.within k hk]
  · obtain ⟨k, rfl⟩ := Nat.exists_eq_add_of_le (Nat.le_of_not_lt hw)
    rw [h.after k, h'.after k]

/-- Outside of the stretch nothing changes, and the order stays. -/
theorem Replaces.rest_eq {s : Stretch} {values : List α} (h : Replaces s values items result) :
    result.take s.start ++ result.drop (s.start + values.length) =
      items.take s.start ++ items.drop s.stop := by
  have hstop : s.start + s.count ≤ items.length := h.stop_le
  have hstart : (items.take s.start).length = s.start := List.length_take_of_le (by omega)
  rw [h.eq_append]
  congr 1
  · rw [List.append_assoc, List.take_left' hstart]
  · exact List.drop_left' (by rw [List.length_append, hstart])

/-- An edit is applied if and only if it passes the check, and it passes the check if and only if
the place it names is in the list.  If it does not fit, it is refused with the fault that the check
finds, and the list stays as it was.  If it fits, it reaches no place that is not there, and the
length and every element of the new list are known: the elements that the edit brings along take the
place of a stretch, and the rest of the list stays, in order. -/
theorem apply_replaces_stretch (edit : Edit α) (items : List α) :
    ((∃ result, edit.apply items = .ok result) ↔ edit.check items.length = .ok ()) ∧
    (edit.check items.length = .ok () ↔ edit.Fits items.length) ∧
    (¬ edit.Fits items.length →
      edit.check items.length = .error (edit.fault items.length) ∧
      edit.apply items = .error (edit.fault items.length) ∧
      (Attempt.mk edit items).after = items ∧
      ∀ index, edit.index? = some index → edit.edited? items = none) ∧
    (edit.Fits items.length → ∃ result,
      edit.apply items = .ok result ∧ (Attempt.mk edit items).after = result ∧
      edit.edited? items = some result ∧
      Replaces (edit.stretch items.length) edit.payload items result ∧
      let start := (edit.stretch items.length).start
      result.take start ++ result.drop (start + edit.payload.length) =
        items.take start ++ items.drop (edit.stretch items.length).stop) := by
  refine ⟨?_, check_eq_ok_iff, fun hf => ?_, fun hf => ?_⟩
  · simp [apply_eq_ok_iff]
  · have hc := check_of_not_fits hf
    have ha := apply_eq_error_iff.2 hc
    refine ⟨hc, ha, ?_, fun index hi => edited?_of_not_fits hf hi⟩
    rw [Attempt.after, Attempt.result, ha]
  · have ha := apply_eq_ok_iff.2 ⟨check_eq_ok_iff.2 hf, rfl⟩
    have hr : Replaces (edit.stretch items.length) edit.payload items (edit.edited items) := by
      rw [edited_eq_append hf]
      exact replaces_append (stop_stretch_le hf) edit.payload
    refine ⟨edit.edited items, ha, ?_, edited?_of_fits hf, hr, hr.rest_eq⟩
    rw [Attempt.after, Attempt.result, ha]

/-- At the end of a list an element can be inserted and none can be removed. -/
theorem apply_at_end :
    Fits 2 (.insertAt 2 "c") ∧ ¬ Fits 2 (.removeAt 2 : Edit String) ∧
    (Edit.insertAt 2 "c").edited? ["a", "b"] = some ["a", "b", "c"] ∧
    (Edit.removeAt 2).apply ["a", "b"] = .error (.outOfBounds 2 2) := by
  have hin : Fits 2 (.insertAt 2 "c") := Nat.le_refl 2
  have hout : ¬ Fits 2 (.removeAt 2 : Edit String) := Nat.lt_irrefl 2
  obtain ⟨-, -, -, hok⟩ := apply_replaces_stretch (.insertAt 2 "c") ["a", "b"]
  obtain ⟨-, -, hbad, -⟩ := apply_replaces_stretch (.removeAt 2) ["a", "b"]
  obtain ⟨result, ha, -, he, -⟩ := hok hin
  obtain rfl : ["a", "b", "c"] = result := Except.ok.inj ha
  exact ⟨hin, hout, he, (hbad hout).2.1⟩

end LiveRooms.Edit
