import LiveRooms.Edit
import Mathlib.Data.List.InsertIdx

/-!
# Edits and mapped elements

Whether an edit fits a list depends on the length of the list and the shape of the edit alone
(`check_map`), and editing commutes with replacing elements by their images (`edited_map`).  An
edit whose elements are looked up one by one either comes out as the mapped edit, when every
element has an image, or fails as a whole (`traverse_eq_ok`, `exists_traverse_eq_error`).
-/

namespace LiveRooms.Edit

variable {α β ε : Type}

@[simp] theorem payload_map (f : α → β) (edit : Edit α) :
    (edit.map f).payload = edit.payload.map f := by
  cases edit <;> rfl

@[simp] theorem check_map (f : α → β) (edit : Edit α) (length : Nat) :
    (edit.map f).check length = edit.check length := by
  cases edit <;> rfl

@[simp] theorem map_map {γ : Type} (g : β → γ) (f : α → β) (edit : Edit α) :
    (edit.map f).map g = edit.map (g ∘ f) := by
  cases edit <;> simp [map]

theorem map_id' (edit : Edit α) : edit.map (fun x => x) = edit := by
  cases edit <;> simp [map]

/-- Two functions that agree on the elements an edit brings along map it alike. -/
theorem map_congr_payload {f g : α → β} {edit : Edit α} (h : ∀ x ∈ edit.payload, f x = g x) :
    edit.map f = edit.map g := by
  cases edit <;> simp_all [map, payload]

/-- Editing and mapping commute. -/
theorem edited_map (f : α → β) (edit : Edit α) (items : List α) :
    (edit.map f).edited (items.map f) = (edit.edited items).map f := by
  cases edit with
  | insertAt index value => exact (List.map_insertIdx ..).symm
  | removeAt index => exact List.eraseIdx_map ..
  | setAt index value => exact List.map_set.symm
  | append values => exact List.map_append.symm
  | pushBack value => simp [map, edited]
  | popBack => exact List.map_dropLast.symm
  | popFront => exact List.map_tail.symm
  | truncate length => exact List.map_take.symm
  | clear | pushFront value | reset values => rfl

/-- Every element of an edited list was there before or came with the edit. -/
theorem mem_of_mem_edited {edit : Edit α} {items : List α} {x : α} (h : x ∈ edit.edited items) :
    x ∈ items ∨ x ∈ edit.payload := by
  cases edit with
  | append values => exact List.mem_append.1 h
  | clear => cases h
  | insertAt index value =>
    rcases List.eq_or_mem_of_mem_insertIdx h with rfl | h
    · exact Or.inr (List.mem_singleton_self _)
    · exact Or.inl h
  | popBack => exact Or.inl (List.dropLast_subset items h)
  | popFront => exact Or.inl (List.mem_of_mem_tail h)
  | pushBack value => exact List.mem_append.1 h
  | pushFront value =>
    rcases List.mem_cons.1 h with rfl | h
    · exact Or.inr (List.mem_singleton_self _)
    · exact Or.inl h
  | removeAt index => exact Or.inl (List.mem_of_mem_eraseIdx h)
  | reset values => exact Or.inr h
  | setAt index value =>
    rcases List.mem_or_eq_of_mem_set h with h | rfl
    · exact Or.inl h
    · exact Or.inr (List.mem_singleton_self _)
  | truncate length => exact Or.inl (List.mem_of_mem_take h)

/-! ## Looking up the elements that an edit brings along -/

theorem mapM_eq_ok {f : α → Except ε β} {g : α → β} {xs : List α}
    (h : ∀ x ∈ xs, f x = .ok (g x)) : xs.mapM f = .ok (xs.map g) := by
  induction xs with
  | nil => rfl
  | cons x xs ih =>
    have hx := h x List.mem_cons_self
    have hxs := ih fun y hy => h y (List.mem_cons_of_mem _ hy)
    rw [List.mapM_cons, hx, hxs]
    rfl

theorem exists_mapM_eq_error {f : α → Except ε β} {xs : List α} {x : α} {e : ε} (hx : x ∈ xs)
    (he : f x = .error e) : ∃ e', xs.mapM f = .error e' := by
  induction xs with
  | nil => cases hx
  | cons y ys ih =>
    rw [List.mapM_cons]
    cases hy : f y with
    | error e' => exact ⟨e', rfl⟩
    | ok b =>
      rcases List.mem_cons.1 hx with rfl | hx
      · rw [he] at hy
        cases hy
      · obtain ⟨e', h⟩ := ih hx
        exact ⟨e', by rw [h]; rfl⟩

/-- When every element that an edit brings along has an image, looking them up maps the edit. -/
theorem traverse_eq_ok {f : α → Except ε β} {g : α → β} {edit : Edit α}
    (h : ∀ x ∈ edit.payload, f x = .ok (g x)) : edit.traverse f = .ok (edit.map g) := by
  cases edit with
  | append values | reset values =>
    have hm : values.mapM f = .ok (values.map g) := mapM_eq_ok h
    rw [traverse, hm]; rfl
  | insertAt index value | setAt index value | pushBack value | pushFront value =>
    rw [traverse, h value (List.mem_singleton_self _)]; rfl
  | clear | popBack | popFront | removeAt index | truncate length => rfl

/-- One element without an image fails the whole edit. -/
theorem exists_traverse_eq_error {f : α → Except ε β} {edit : Edit α} {x : α} {e : ε}
    (hx : x ∈ edit.payload) (he : f x = .error e) : ∃ e', edit.traverse f = .error e' := by
  cases edit with
  | append values | reset values =>
    obtain ⟨e', h⟩ : ∃ e', values.mapM f = .error e' := exists_mapM_eq_error hx he
    exact ⟨e', by rw [traverse, h]; rfl⟩
  | insertAt index value | setAt index value | pushBack value | pushFront value =>
    obtain rfl := List.mem_singleton.1 hx
    exact ⟨e, by rw [traverse, he]; rfl⟩
  | clear | popBack | popFront | removeAt index | truncate length => cases hx

end LiveRooms.Edit
