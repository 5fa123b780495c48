import LiveRooms.Proofs.Wire.Represents
import LiveRooms.Wire.Edit
import LiveRooms.Wire.Failure
import LiveRooms.Wire.Status
import LiveRooms.Wire.Viewport

/-!
# The forms of edits, viewports, states and failures

The parts of each type of data about the list itself, and that its reader and writer go by them.
-/

namespace LiveRooms

namespace Viewport

def parts (v : Viewport) : List Part := [.required "start" v.start, .required "end" v.stop]

instance : Represented Viewport := ⟨fun j v => IsRecord v.parts j⟩

instance : LawfulWire Viewport := by
  refine lawfulWire_ofRecord (by decide) (fun _ => rfl) (fun r v => ?_) (fun _ => rfl) fun v => ?_
  · cases v
    simp [parts, ↓do_eq_some_iff]
  · simp [parts]

end Viewport

/-! ## States -/

namespace LoadingState

/-- The tag of a loading state and what it carries. -/
def form : LoadingState → String × Carried
  | .notLoaded => ("NotLoaded", .nothing)
  | .loaded maximumRooms =>
    ("Loaded", .fields [.optional "maximum_number_of_rooms" maximumRooms])

instance : Represented LoadingState := ⟨fun j x => IsTagged x.form.1 x.form.2 j⟩

instance : LawfulWire LoadingState := by
  refine lawfulWire_ofBareOrOptional (by decide) rfl (fun _ => rfl) (fun x => ?_) rfl fun _ => rfl
  cases x with
  | notLoaded => exact Or.inl rfl
  | loaded rooms => exact Or.inr ⟨rooms, rfl⟩

end LoadingState

namespace ListStatus

/-- The tag of a status and what it carries. -/
def form : ListStatus → String × Carried
  | .notLoaded => ("NotLoaded", .nothing)
  | .loaded totalRooms => ("Loaded", .fields [.optional "total_rooms" totalRooms])

instance : Represented ListStatus := ⟨fun j x => IsTagged x.form.1 x.form.2 j⟩

instance : LawfulWire ListStatus := by
  refine lawfulWire_ofBareOrOptional (by decide) rfl (fun _ => rfl) (fun x => ?_) rfl fun _ => rfl
  cases x with
  | notLoaded => exact Or.inl rfl
  | loaded rooms => exact Or.inr ⟨rooms, rfl⟩

end ListStatus

/-! ## Failures -/

instance : Represented FailureCategory := .ofTags FailureCategory.name

instance : LawfulWire FailureCategory := lawfulWire_ofTags (by decide) (by rintro ⟨⟩ <;> decide)

namespace Failure

def parts (f : Failure) : List Part :=
  [.required "category" f.category, .required "code" f.code, .required "message" f.message]

instance : Represented Failure := ⟨fun j f => IsRecord f.parts j⟩

instance : LawfulWire Failure := by
  refine lawfulWire_ofRecord (by decide) (fun _ => rfl) (fun r f => ?_) (fun _ => rfl) fun f => ?_
  · cases f
    simp [parts, ↓do_eq_some_iff]
  · simp [parts]

end Failure

/-! ## Edits -/

namespace Edit

variable {α : Type} [Represented α]

/-- The tag of an edit and what it carries. -/
def form : Edit α → String × Carried
  | .append values => ("Append", .value (Represents · values))
  | .clear => ("Clear", .nothing)
  | .insertAt index value =>
    ("InsertAt", .fields [.required "index" index, .required "value" value])
  | .popBack => ("PopBack", .nothing)
  | .popFront => ("PopFront", .nothing)
  | .pushBack value => ("PushBack", .value (Represents · value))
  | .pushFront value => ("PushFront", .value (Represents · value))
  | .removeAt index => ("RemoveAt", .fields [.required "index" index])
  | .reset values => ("Reset", .value (Represents · values))
  | .setAt index value => ("SetAt", .fields [.required "index" index, .required "value" value])
  | .truncate length => ("Truncate", .fields [.required "length" length])

instance : Represented (Edit α) := ⟨fun j x => IsTagged x.form.1 x.form.2 j⟩

instance [Wire α] [LawfulWire α] : LawfulWire (Edit α) where
  read?_eq_some_iff {j x} := by
    refine read?_tagged_iff (x := x) fun t content => ⟨fun h => ?_, ?_⟩
    · dsimp only at h
      split at h <;> simp only [Option.bind_eq_bind, Option.bind_eq_some_iff, Option.pure_def,
        Option.some.injEq, read?_eq_some_iff, field?_eq_some_iff, bare_eq_some_iff,
        reduceCtorEq] at h
      · obtain ⟨c, rfl, values, hv, rfl⟩ := h
        exact ⟨rfl, c, rfl, hv⟩
      · obtain ⟨hb, rfl⟩ := h
        exact ⟨rfl, hb⟩
      · obtain ⟨c, rfl, r, hf, index, hi, value, hv, rfl⟩ := h
        exact ⟨rfl, c, rfl, r, hf, by simp [hi, hv]⟩
      · obtain ⟨hb, rfl⟩ := h
        exact ⟨rfl, hb⟩
      · obtain ⟨hb, rfl⟩ := h
        exact ⟨rfl, hb⟩
      · obtain ⟨c, rfl, value, hv, rfl⟩ := h
        exact ⟨rfl, c, rfl, hv⟩
      · obtain ⟨c, rfl, value, hv, rfl⟩ := h
        exact ⟨rfl, c, rfl, hv⟩
      · obtain ⟨c, rfl, r, hf, index, hi, rfl⟩ := h
        exact ⟨rfl, c, rfl, r, hf, by simp [hi]⟩
      · obtain ⟨c, rfl, values, hv, rfl⟩ := h
        exact ⟨rfl, c, rfl, hv⟩
      · obtain ⟨c, rfl, r, hf, index, hi, value, hv, rfl⟩ := h
        exact ⟨rfl, c, rfl, r, hf, by simp [hi, hv]⟩
      · obtain ⟨c, rfl, r, hf, length, hl, rfl⟩ := h
        exact ⟨rfl, c, rfl, r, hf, by simp [hl]⟩
    · rintro ⟨rfl, h⟩
      cases x with
      | clear | popBack | popFront => exact bare_eq_some_iff.2 ⟨h, rfl⟩
      | append | pushBack | pushFront | reset =>
        obtain ⟨c, rfl, hv⟩ := h
        simpa [form, Option.bind_eq_some_iff] using hv
      | insertAt | removeAt | setAt | truncate =>
        obtain ⟨c, rfl, r, hf, h⟩ := h
        simpa [form, hf, Option.bind_eq_some_iff] using h
  represents_write x := by
    cases x with
    | clear | popBack | popFront => exact .str
    | append values | reset values => exact .value (represents_write values)
    | pushBack value | pushFront value => exact .value (represents_write value)
    | insertAt | removeAt | setAt | truncate => exact isTagged_fields (by simp) rfl (by simp)

end Edit

end LiveRooms
