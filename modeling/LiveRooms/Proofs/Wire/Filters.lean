import LiveRooms.Proofs.Wire.Represents
import LiveRooms.Wire.Filter

/-!
# The forms of filters

The parts of each type of filter, and that its reader and writer go by them.  A remote filter is a
tree, and so are its forms: the elements of the array that a node carries are forms of its subtrees
(`RemoteFilter.form_node`).
-/

namespace LiveRooms

instance : Represented QuickFilter := .ofTags QuickFilter.tag

instance : LawfulWire QuickFilter := lawfulWire_ofTags (by decide) (by rintro ⟨⟩ <;> decide)

instance : Represented RoomCategory := .ofTags RoomCategory.tag

instance : LawfulWire RoomCategory := lawfulWire_ofTags (by decide) (by rintro ⟨⟩ <;> decide)

namespace Filter

/-- The tag of a filter and what it carries. -/
def form : Filter → String × Carried
  | .excludeAll => ("ExcludeAll", .nothing)
  | .search query => ("Search", .fields [.required "query" query])
  | .rooms ids filters =>
    ("Rooms", .fields [.required "room_ids" ids, .required "filters" filters])
  | .all filters => ("All", .fields [.required "filters" filters])

instance : Represented Filter := ⟨fun j x => IsTagged x.form.1 x.form.2 j⟩

instance : LawfulWire Filter where
  read?_eq_some_iff {j x} := by
    refine read?_tagged_iff (x := x) fun t content => ⟨fun h => ?_, ?_⟩
    · dsimp only at h
      split at h <;> simp only [Option.bind_eq_bind, Option.bind_eq_some_iff, Option.pure_def,
        Option.some.injEq, field?_eq_some_iff, bare_eq_some_iff, reduceCtorEq] at h
      · obtain ⟨hb, rfl⟩ := h
        exact ⟨rfl, hb⟩
      · obtain ⟨c, rfl, r, hf, query, hq, rfl⟩ := h
        exact ⟨rfl, c, rfl, r, hf, by simp [hq]⟩
      · obtain ⟨c, rfl, r, hf, ids, hi, filters, hs, rfl⟩ := h
        exact ⟨rfl, c, rfl, r, hf, by simp [hi, hs]⟩
      · obtain ⟨c, rfl, r, hf, filters, hs, rfl⟩ := h
        exact ⟨rfl, c, rfl, r, hf, by simp [hs]⟩
    · rintro ⟨rfl, h⟩
      cases x with
      | excludeAll => exact bare_eq_some_iff.2 ⟨h, rfl⟩
      | search | rooms | all =>
        obtain ⟨c, rfl, r, hf, h⟩ := h
        simpa [form, hf, Option.bind_eq_some_iff] using h
  represents_write x := by
    cases x with
    | excludeAll => exact .str
    | search | rooms | all => exact isTagged_fields (by simp) rfl (by simp)

end Filter

namespace FilterSettings

def parts (s : FilterSettings) : List Part :=
  [.required "fuzzy_search" s.fuzzySearch, .required "low_priority_filter" s.hideLowPriority]

instance : Represented FilterSettings := ⟨fun j s => IsRecord s.parts j⟩

instance : LawfulWire FilterSettings := by
  refine lawfulWire_ofRecord (by decide) (fun _ => rfl) (fun r s => ?_) (fun _ => rfl) fun s => ?_
  · cases s
    simp [parts, ↓do_eq_some_iff, -Bool.exists_bool]
  · simp [parts]

end FilterSettings

/-! ## Remote filters -/

namespace RemoteFilter

mutual

/-- The tag of a remote filter and what it carries. -/
def form : RemoteFilter → String × Carried
  | .all filters => ("All", .fields [⟨"filters", AreForms filters, False⟩])
  | .any filters => ("Any", .fields [⟨"filters", AreForms filters, False⟩])
  | .nonSpace => ("NonSpace", .nothing)
  | .space => ("Space", .nothing)
  | .nonLeft => ("NonLeft", .nothing)
  | .invite => ("Invite", .nothing)
  | .deduplicateVersions => ("DeduplicateVersions", .nothing)
  | .unread => ("Unread", .nothing)
  | .favourite => ("Favourite", .nothing)
  | .lowPriority => ("LowPriority", .nothing)
  | .nonLowPriority => ("NonLowPriority", .nothing)
  | .category expect => ("Category", .fields [.required "expect" expect])
  | .identifiers ids => ("Identifiers", .fields [.required "identifiers" ids])
  | .fuzzyName pattern => ("FuzzyMatchRoomName", .fields [.required "pattern" pattern])
  | .normalizedName pattern => ("NormalizedMatchRoomName", .fields [.required "pattern" pattern])
  | .nothing => ("None", .nothing)

/-- The value is an array of forms of the filters, in their order. -/
def AreForms : List RemoteFilter → Json → Prop
  | [], j => j = .arr []
  | filter :: filters, j => ∃ elem elems, j = .arr (elem :: elems) ∧
      IsTagged filter.form.1 filter.form.2 elem ∧ AreForms filters (.arr elems)

end

instance : Represented RemoteFilter := ⟨fun j x => IsTagged x.form.1 x.form.2 j⟩

theorem areForms_iff {filters : List RemoteFilter} {j : Json} :
    AreForms filters j ↔ Represents j filters := by
  induction filters generalizing j with
  | nil => simp [AreForms, represents_list_iff]
  | cons filter filters ih =>
    rw [AreForms, represents_list_iff]
    constructor
    · rintro ⟨elem, elems, rfl, h, hs⟩
      obtain ⟨_, he, hs⟩ := ih.1 hs
      cases he
      exact ⟨_, rfl, .cons h hs⟩
    · rintro ⟨_, rfl, hall⟩
      obtain ⟨elem, elems, h, hs, rfl⟩ := List.forall₂_cons_right_iff.1 hall
      exact ⟨elem, elems, rfl, h, ih.2 ⟨elems, rfl, hs⟩⟩

/-- A node with the given tag. -/
def node (tag : String) : List RemoteFilter → RemoteFilter := if tag = "All" then .all else .any

section

variable {tag : String} {filters : List RemoteFilter} {x : RemoteFilter}

/-- A node carries its subtrees as any list is carried. -/
theorem form_node (htag : tag = "All" ∨ tag = "Any") :
    (node tag filters).form = (tag, .fields [.required "filters" filters]) := by
  have hforms : AreForms filters = (Represents · filters) := funext fun j => propext areForms_iff
  obtain rfl | rfl := htag <;> rw [node] <;> simp [form, hforms, Part.required]

theorem exists_eq_node (htag : x.form.1 = "All" ∨ x.form.1 = "Any") :
    ∃ filters, x = node x.form.1 filters := by
  cases x with
  | all filters | any filters => exact ⟨filters, rfl⟩
  | _ => simp [form] at htag

theorem node_eq : node tag filters = .all filters ∨ node tag filters = .any filters := by
  unfold node
  split
  · exact .inl rfl
  · exact .inr rfl

theorem holds_null_iff : x.form.2.Holds (some .null) ↔ x.form.2 = .nothing := by
  cases x <;> simp [form, Carried.Holds, Wire.isBare, Json.fields?]

end

/-- Reads a tag and what stands beside it. -/
def readVariant? : String × Option Json → Option RemoteFilter
  | (tag, none) => ofTag? tag
  | (tag, some content) =>
    if tag = "All" ∨ tag = "Any" then
      ((parts? content).bind fun parts => parts.mapM read?).map (node tag)
    else match content with
      | .null => ofTag? tag
      | _ => ofLeaf? tag content

/-- The reader without the memberships that its termination needs. -/
theorem read?_eq (j : Json) : read? j = j.variant?.bind readVariant? := by
  have hattach : ∀ (parts : List Json) (f : { part // part ∈ parts } → Option RemoteFilter),
      (∀ part, f part = read? part.val) → parts.attach.mapM f = parts.mapM read? := by
    intro parts f hf
    obtain rfl : f = read? ∘ Subtype.val := funext hf
    rw [← List.mapM_map, List.attach_map_subtype_val]
  rw [read?]
  split
  · rename_i hv
    rw [hv]
    rfl
  · rename_i hv
    rw [hv]
    rfl
  · rename_i tag content hv
    have hr : j.variant?.bind readVariant? = readVariant? (tag, some content) := by
      rw [hv, Option.bind_some]
    rw [hr]
    unfold readVariant?
    refine if_congr Iff.rfl ?_ (by cases content <;> rfl)
    split
    · rename_i hp
      rw [hp]
      rfl
    · rename_i parts hp
      rw [hattach parts _ fun _ => rfl, hp, Option.bind_some, node]
      cases parts.mapM read? <;> split <;> rfl

theorem ofTag?_eq_some_iff {tag : String} {x : RemoteFilter} :
    ofTag? tag = some x ↔ x.form.1 = tag ∧ x.form.2 = .nothing := by
  constructor
  · intro h
    unfold ofTag? at h
    split at h <;> cases h <;> exact ⟨rfl, rfl⟩
  · rintro ⟨rfl, h⟩
    cases x <;> first | rfl | cases h

/-- Beside the tag of a leaf stand plain fields. -/
theorem ofLeaf?_eq_some_iff {tag : String} {content : Json} {x : RemoteFilter}
    (htag : ¬ (tag = "All" ∨ tag = "Any")) (hc : content ≠ .null) :
    ofLeaf? tag content = some x ↔ x.form.1 = tag ∧ x.form.2.Holds (some content) := by
  constructor
  · intro h
    unfold ofLeaf? at h
    split at h <;> simp only [Option.bind_eq_bind, Option.bind_eq_some_iff, Option.pure_def,
      Option.some.injEq, field?_eq_some_iff, reduceCtorEq] at h
    · obtain ⟨r, hf, expect, he, rfl⟩ := h
      exact ⟨rfl, content, rfl, r, hf, by simp [he]⟩
    · obtain ⟨r, hf, ids, hi, rfl⟩ := h
      exact ⟨rfl, content, rfl, r, hf, by simp [hi]⟩
    · obtain ⟨r, hf, pattern, hp, rfl⟩ := h
      exact ⟨rfl, content, rfl, r, hf, by simp [hp]⟩
    · obtain ⟨r, hf, pattern, hp, rfl⟩ := h
      exact ⟨rfl, content, rfl, r, hf, by simp [hp]⟩
  · rintro ⟨rfl, h⟩
    cases x with
    | all => exact absurd (.inl rfl) htag
    | any => exact absurd (.inr rfl) htag
    | category | identifiers | fuzzyName | normalizedName =>
      obtain ⟨_, hs, r, hf, h⟩ := h
      cases hs
      simpa [form, ofLeaf?, hf, Option.bind_eq_some_iff] using h
    | _ => cases content <;> first | exact absurd rfl hc | cases h

/-- Beside the tag of a node stands an object with an array, whose elements are read one by one. -/
theorem parts?_bind_eq_some_iff {content : Json} {filters : List RemoteFilter}
    (h : ∀ elems, elems.mapM read? = some filters ↔ List.Forall₂ Represents elems filters) :
    ((parts? content).bind fun parts => parts.mapM read?) = some filters ↔
      (Carried.fields [.required "filters" filters]).Holds (some content) := by
  have harr : ∀ j : Json, (∃ elems, j.elems? = some elems ∧ elems.mapM read? = some filters) ↔
      Represents j filters := by
    intro j
    cases j <;> simp [Json.elems?, represents_list_iff, h]
  simp only [parts?, Option.bind_eq_bind, Option.bind_eq_some_iff, Carried.Holds,
    List.forall_mem_singleton]
  constructor
  · rintro ⟨parts, ⟨r, hf, j, hj, he⟩, hm⟩
    refine ⟨content, rfl, r, hf, ?_⟩
    rw [Part.IsIn, name_required, hj]
    exact (harr j).1 ⟨parts, he, hm⟩
  · rintro ⟨_, hc, r, hf, hin⟩
    cases hc
    rw [Part.IsIn, name_required] at hin
    split at hin
    · rename_i j hj
      obtain ⟨parts, he, hm⟩ := (harr j).2 hin
      exact ⟨parts, ⟨r, hf, j, hj, he⟩, hm⟩
    · exact hin.elim

/-- What is read from a tag and what stands beside it, when subtrees are read from their forms. -/
theorem readVariant?_eq_some_iff {x : RemoteFilter}
    (hx : ∀ filters, x = .all filters ∨ x = .any filters →
      ∀ elems, elems.mapM read? = some filters ↔ List.Forall₂ Represents elems filters)
    (tag : String) (content : Option Json) :
    readVariant? (tag, content) = some x ↔ x.form.1 = tag ∧ x.form.2.Holds content := by
  cases content with
  | none => rw [readVariant?, ofTag?_eq_some_iff, Carried.holds_none_iff]
  | some content =>
    unfold readVariant?
    dsimp only
    by_cases htag : tag = "All" ∨ tag = "Any"
    · rw [if_pos htag, Option.map_eq_some_iff]
      constructor
      · rintro ⟨filters, hm, rfl⟩
        rw [form_node htag]
        exact ⟨rfl, (parts?_bind_eq_some_iff (hx filters node_eq)).1 hm⟩
      · rintro ⟨rfl, hc⟩
        obtain ⟨filters, hn⟩ := exists_eq_node htag
        rw [hn] at hx
        rw [congrArg form hn, form_node htag] at hc
        exact ⟨filters, (parts?_bind_eq_some_iff (hx filters node_eq)).2 hc, hn.symm⟩
    · rw [if_neg htag]
      split
      · rw [ofTag?_eq_some_iff, holds_null_iff]
      · rename_i hc
        exact ofLeaf?_eq_some_iff htag hc

mutual

theorem read?_eq_some_iff (x : RemoteFilter) (j : Json) : read? j = some x ↔ Represents j x := by
  rw [read?_eq]
  refine read?_tagged_iff (readVariant?_eq_some_iff fun filters h => ?_)
  cases x with
  | all filters' | any filters' =>
    obtain rfl : filters' = filters := by simpa using h
    exact mapM_read?_eq_some_iff filters'
  | _ => simp at h

theorem mapM_read?_eq_some_iff (filters : List RemoteFilter) (elems : List Json) :
    elems.mapM read? = some filters ↔ List.Forall₂ Represents elems filters := by
  rw [mapM_eq_some_iff]
  cases filters with
  | nil => simp
  | cons filter filters =>
    rw [List.forall₂_cons_right_iff, List.forall₂_cons_right_iff]
    refine exists_congr fun elem => exists_congr fun elems => ?_
    rw [read?_eq_some_iff filter elem, ← mapM_eq_some_iff, mapM_read?_eq_some_iff filters elems]

end

mutual

theorem represents_write (x : RemoteFilter) : Represents (write x) x := by
  cases x with
  | all filters => exact isTagged_fields (by simp) rfl (by simp [areForms_write filters])
  | any filters => exact isTagged_fields (by simp) rfl (by simp [areForms_write filters])
  | category | identifiers | fuzzyName | normalizedName =>
    exact isTagged_fields (by simp) rfl (by simp)
  | _ => exact .str

theorem areForms_write (filters : List RemoteFilter) :
    AreForms filters (.arr (writeAll filters)) := by
  cases filters with
  | nil => rfl
  | cons filter filters => exact ⟨_, _, rfl, represents_write filter, areForms_write filters⟩

end

instance : LawfulWire RemoteFilter where
  read?_eq_some_iff := read?_eq_some_iff _ _
  represents_write := represents_write

end RemoteFilter

end LiveRooms
