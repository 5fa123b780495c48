import LiveRooms.Wire
import Mathlib.Data.List.Forall2
import Mathlib.Data.List.Nodup

/-!
# What a JSON value stands for

A value has one written form, and a reader accepts others beside it.  `Represents j x` says that `j`
is one of the forms of `x`, without mention of a reader: a record is an object with its fields among
others, in any order, or an array of its fields in their own order (`IsRecord`); a tagged value is
its tag, or an object with the tag alone (`IsTagged`).  A type is read lawfully when its reader
returns `x` on exactly the forms of `x`, and the written form is one of them (`LawfulWire`).

What lists, sets, optional values, fields and tags need for that is proved here once.
-/

namespace LiveRooms

/-- A type with JSON values that stand for its values. -/
class Represented (α : Type) where
  /-- `Represents j x` when `j` is one of the forms of `x`. -/
  Represents : Json → α → Prop

export Represented (Represents)

/-- The reader accepts exactly the forms of a value, and the writer chooses one of them. -/
class LawfulWire (α : Type) [Wire α] [Represented α] : Prop where
  read?_eq_some_iff {j : Json} {x : α} : Wire.read? j = some x ↔ Represents j x
  represents_write (x : α) : Represents (Wire.write x) x

/-- Null stands for no value, so that it can stand for an absent one. -/
class NeverNull (α : Type) [Represented α] : Prop where
  not_represents_null (x : α) : ¬ Represents .null x

export LawfulWire (read?_eq_some_iff represents_write)

export NeverNull (not_represents_null)

attribute [simp] read?_eq_some_iff represents_write not_represents_null

section

variable {α : Type} [Wire α] [Represented α] [LawfulWire α]

theorem read?_write (x : α) : Wire.read? (Wire.write x) = some x :=
  read?_eq_some_iff.2 (represents_write x)

theorem read?_eq_none_iff {j : Json} :
    (Wire.read? j : Option α) = none ↔ ∀ x : α, ¬ Represents j x := by
  simp [Option.eq_none_iff_forall_ne_some]

/-- A JSON value that is accepted and its written form are read alike. -/
theorem read?_bind_write (j : Json) :
    ((Wire.read? j).bind fun x : α => (Wire.read? (Wire.write x) : Option α)) = Wire.read? j := by
  simp [read?_write]

theorem canonical?_bind_canonical? (j : Json) :
    (Wire.canonical? α j).bind (Wire.canonical? α) = Wire.canonical? α j := by
  unfold Wire.canonical?
  rw [Option.bind_map]
  cases (Wire.read? j : Option α) with
  | none => rfl
  | some x => simp [read?_write]

end

/-! ## The parts of a value -/

/-- A field of a record: what may stand there, and whether it may be missing. -/
structure Part where
  name : String
  Accepts : Json → Prop
  MayBeMissing : Prop

/-- What a tag carries. -/
inductive Carried where
  | nothing
  | value (Accepts : Json → Prop)
  | fields (parts : List Part)

/-- A field is there as it should be, or is missing and may be. -/
def Part.IsIn (fields : List (String × Json)) (p : Part) : Prop :=
  match fields.lookup p.name with
  | some j => p.Accepts j
  | none => p.MayBeMissing

/-- The forms of a record: an object with the fields, in any order and with others among them, or an
array with exactly one element for each field. -/
inductive IsRecord (parts : List Part) : Json → Prop where
  | obj {fields : List (String × Json)} (h : ∀ p ∈ parts, p.IsIn fields) :
      IsRecord parts (.obj fields)
  | arr {elems : List Json} (h : List.Forall₂ Part.Accepts parts elems) :
      IsRecord parts (.arr elems)

/-- The forms of a tagged value.  A tag that carries nothing may be given the content null; fields
come as an object. -/
inductive IsTagged (tag : String) : Carried → Json → Prop where
  | str : IsTagged tag .nothing (.str tag)
  | null : IsTagged tag .nothing (.tagged tag .null)
  | value {Accepts : Json → Prop} {content : Json} (h : Accepts content) :
      IsTagged tag (.value Accepts) (.tagged tag content)
  | fields {parts : List Part} {fields : List (String × Json)} (h : ∀ p ∈ parts, p.IsIn fields) :
      IsTagged tag (.fields parts) (.tagged tag (.obj fields))

/-! ## The forms of simple values -/

section

variable {α : Type} [Represented α]

instance : Represented String := ⟨fun j s => j = .str s⟩

instance : Represented Bool := ⟨fun j b => j = .bool b⟩

instance : Represented UInt64 := ⟨fun j n => j = .int n.toNat⟩

instance : Represented UInt32 := ⟨fun j n => j = .int n.toNat⟩

instance : Represented (List α) :=
  ⟨fun j xs => ∃ elems, j = .arr elems ∧ List.Forall₂ Represents elems xs⟩

/-- A set is given by its members, in any order and with repetitions. -/
instance : Represented StringSet :=
  ⟨fun j set => ∃ ss : List String, Represents j ss ∧ ∀ s, s ∈ set.toList ↔ s ∈ ss⟩

instance : Represented (Option α) where
  Represents j
    | none => j = .null
    | some x => Represents j x

/-- A field that must be there. -/
def Part.required (name : String) (x : α) : Part := ⟨name, (Represents · x), False⟩

/-- A field that may be missing when the value is absent. -/
def Part.optional (name : String) (x : Option α) : Part := ⟨name, (Represents · x), x = none⟩

end

theorem represents_list_iff {α : Type} [Represented α] {j : Json} {xs : List α} :
    Represents j xs ↔ ∃ elems, j = .arr elems ∧ List.Forall₂ Represents elems xs := Iff.rfl

@[simp] theorem represents_str (s : String) : Represents (.str s) s := rfl

@[simp] theorem represents_bool (b : Bool) : Represents (.bool b) b := rfl

instance : NeverNull String := ⟨fun _ h => nomatch h⟩

instance : NeverNull UInt64 := ⟨fun _ h => nomatch h⟩

instance : NeverNull UInt32 := ⟨fun _ h => nomatch h⟩

instance : LawfulWire String where
  read?_eq_some_iff {j s} := by
    show j.string? = some s ↔ j = .str s
    cases j <;> simp [Json.string?]
  represents_write _ := rfl

instance : LawfulWire Bool where
  read?_eq_some_iff {j b} := by
    show j.bool? = some b ↔ j = .bool b
    cases j <;> simp [Json.bool?]
  represents_write _ := rfl

theorem natBelow?_eq_some_iff {bound n : Nat} {j : Json} :
    j.natBelow? bound = some n ↔ j = .int n ∧ n < bound := by
  unfold Json.natBelow?
  split
  · rename_i m
    split
    · rename_i hm
      constructor
      · rintro ⟨⟩
        exact ⟨rfl, hm⟩
      · rintro ⟨h, -⟩
        cases h
        rfl
    · rename_i hm
      constructor
      · nofun
      · rintro ⟨h, hn⟩
        cases h
        exact absurd hn hm
  · rename_i hj
    constructor
    · nofun
    · rintro ⟨rfl, -⟩
      exact absurd rfl (hj n)

instance : LawfulWire UInt64 where
  read?_eq_some_iff {j n} := by
    show (j.natBelow? UInt64.size).map UInt64.ofNat = some n ↔ j = .int n.toNat
    rw [Option.map_eq_some_iff]
    constructor
    · rintro ⟨m, hm, rfl⟩
      obtain ⟨rfl, hlt⟩ := natBelow?_eq_some_iff.1 hm
      rw [UInt64.toNat_ofNat_of_lt' hlt]
    · rintro rfl
      exact ⟨n.toNat, natBelow?_eq_some_iff.2 ⟨rfl, n.toNat_lt⟩, UInt64.ofNat_toNat⟩
  represents_write _ := rfl

instance : LawfulWire UInt32 where
  read?_eq_some_iff {j n} := by
    show (j.natBelow? UInt32.size).map UInt32.ofNat = some n ↔ j = .int n.toNat
    rw [Option.map_eq_some_iff]
    constructor
    · rintro ⟨m, hm, rfl⟩
      obtain ⟨rfl, hlt⟩ := natBelow?_eq_some_iff.1 hm
      rw [UInt32.toNat_ofNat_of_lt' hlt]
    · rintro rfl
      exact ⟨n.toNat, natBelow?_eq_some_iff.2 ⟨rfl, n.toNat_lt⟩, UInt32.ofNat_toNat⟩
  represents_write _ := rfl

/-! ## Lists, sets and optional values -/

theorem mapM_eq_some_iff {α β : Type} {f : α → Option β} {xs : List α} {ys : List β} :
    xs.mapM f = some ys ↔ List.Forall₂ (fun x y => f x = some y) xs ys := by
  induction xs generalizing ys with
  | nil => simp [eq_comm]
  | cons x xs ih =>
    rw [List.mapM_cons, List.forall₂_cons_left_iff]
    simp only [Option.bind_eq_bind, Option.bind_eq_some_iff, Option.pure_def, Option.some.injEq, ih]
    constructor
    · rintro ⟨y, hy, zs, hzs, rfl⟩
      exact ⟨y, zs, hy, hzs, rfl⟩
    · rintro ⟨y, zs, hy, hzs, rfl⟩
      exact ⟨y, hy, zs, hzs, rfl⟩

section

variable {α : Type} [Wire α] [Represented α] [LawfulWire α] {fields : List (String × Json)}
  {name : String} {j : Json}

instance : LawfulWire (List α) where
  read?_eq_some_iff {j xs} := by
    show (j.elems?.bind fun elems => elems.mapM Wire.read?) = some xs ↔ _
    rw [Option.bind_eq_some_iff, represents_list_iff]
    simp only [mapM_eq_some_iff, read?_eq_some_iff]
    refine exists_congr fun elems => and_congr_left fun _ => ?_
    cases j <;> simp [Json.elems?]
  represents_write xs := by
    refine ⟨xs.map Wire.write, rfl, ?_⟩
    rw [List.forall₂_map_left_iff, List.forall₂_same]
    exact fun x _ => represents_write x

instance : LawfulWire StringSet where
  read?_eq_some_iff {j set} := by
    show ((Wire.read? j : Option (List String)).map StringSet.ofList) = some set ↔
      ∃ ss : List String, Represents j ss ∧ ∀ s, s ∈ set.toList ↔ s ∈ ss
    rw [Option.map_eq_some_iff]
    simp only [read?_eq_some_iff]
    refine exists_congr fun ss => and_congr_right fun _ => ⟨?_, fun h => ?_⟩
    · rintro rfl
      exact fun s => StringSet.mem_ofList
    · exact StringSet.ext_mem fun s => StringSet.mem_ofList.trans (h s).symm
  represents_write set := ⟨set.toList, represents_write set.toList, fun _ => Iff.rfl⟩

theorem readOption?_eq_some_iff [NeverNull α] {x : Option α} :
    Wire.readOption? j = some x ↔ Represents j x := by
  unfold Wire.readOption?
  split
  · cases x with
    | none => exact iff_of_true rfl rfl
    | some x => exact iff_of_false nofun (not_represents_null x)
  · rename_i hj
    rw [Option.map_eq_some_iff]
    cases x with
    | none => exact iff_of_false (by simp) hj
    | some x => simp [Represents, read?_eq_some_iff]

instance [NeverNull α] : LawfulWire (Option α) where
  read?_eq_some_iff := readOption?_eq_some_iff
  represents_write
    | none => rfl
    | some x => represents_write x

/-! ## Fields -/

@[simp] theorem field?_eq_some_iff {x : α} :
    Wire.field? fields name = some x ↔ (Part.required name x).IsIn fields := by
  unfold Wire.field? Part.IsIn Part.required
  cases fields.lookup name with
  | none => exact iff_of_false nofun id
  | some j => exact read?_eq_some_iff

@[simp] theorem optional?_eq_some_iff [NeverNull α] {x : Option α} :
    Wire.optional? fields name = some x ↔ (Part.optional name x).IsIn fields := by
  unfold Wire.optional? Part.IsIn Part.optional
  cases fields.lookup name with
  | none => simp [eq_comm]
  | some j => exact readOption?_eq_some_iff

end

section

variable {α : Type} [Represented α] {name : String} {j : Json}

@[simp] theorem name_required {x : α} : (Part.required name x).name = name := rfl

@[simp] theorem name_optional {x : Option α} : (Part.optional name x).name = name := rfl

@[simp] theorem accepts_required {x : α} : (Part.required name x).Accepts j ↔ Represents j x :=
  Iff.rfl

@[simp] theorem accepts_optional {x : Option α} :
    (Part.optional name x).Accepts j ↔ Represents j x := Iff.rfl

end

section

variable {parts : List Part} {fields : List (String × Json)} {elems : List Json} {j : Json}

theorem Part.isIn_cons_of_ne {p : Part} {name : String} (h : p.name ≠ name) :
    p.IsIn ((name, j) :: fields) ↔ p.IsIn fields := by
  rw [IsIn, IsIn, List.lookup_cons, beq_false_of_ne h]

theorem Part.isIn_cons_self {p : Part} : p.IsIn ((p.name, j) :: fields) ↔ p.Accepts j := by
  rw [IsIn, List.lookup_cons_self]

/-- The order of the fields of an object does not matter. -/
theorem Part.isIn_perm {p : Part} {fields' : List (String × Json)} (hp : fields.Perm fields')
    (hn : (fields.map Prod.fst).Nodup) : p.IsIn fields ↔ p.IsIn fields' := by
  have hlookup : fields.lookup p.name = fields'.lookup p.name := by
    induction hp with
    | nil => rfl
    | cons field _ ih =>
      rw [List.lookup_cons, List.lookup_cons, ih (List.nodup_cons.1 hn).2]
    | swap field field' fields =>
      have hne : field'.1 ≠ field.1 := fun h => (List.nodup_cons.1 hn).1 (by simp [h])
      rw [List.lookup_cons, List.lookup_cons, List.lookup_cons, List.lookup_cons]
      by_cases h : p.name = field.1
      · have h' : p.name ≠ field'.1 := fun e => hne (e.symm.trans h)
        rw [beq_false_of_ne h']
      · rw [beq_false_of_ne h]
    | trans hp _ ih ih' =>
      exact (ih hn).trans (ih' ((hp.map Prod.fst).nodup_iff.1 hn))
  rw [IsIn, IsIn, hlookup]

/-- When the fields are those of the record, in its own order, each is as it should be when each
value is. -/
theorem forall_isIn_iff (hn : (parts.map Part.name).Nodup)
    (hf : fields.map Prod.fst = parts.map Part.name) :
    (∀ p ∈ parts, p.IsIn fields) ↔ List.Forall₂ Part.Accepts parts (fields.map Prod.snd) := by
  induction parts generalizing fields with
  | nil =>
    obtain rfl : fields = [] := List.map_eq_nil_iff.1 hf
    simp
  | cons p parts ih =>
    obtain ⟨⟨name, j⟩, fields, rfl, rfl, hf'⟩ := List.map_eq_cons_iff.1 hf
    rw [List.map_cons, List.nodup_cons] at hn
    rw [List.forall_mem_cons, List.map_cons, List.forall₂_cons, Part.isIn_cons_self, ← ih hn.2 hf']
    refine and_congr_right fun _ => forall₂_congr fun q hq => Part.isIn_cons_of_ne fun he => ?_
    exact hn.1 (he ▸ List.mem_map_of_mem hq)

/-- A record is read from the fields that an object has or an array stands for. -/
theorem isRecord_iff (hn : (parts.map Part.name).Nodup) :
    IsRecord parts j ↔
      ∃ fields, j.record? (parts.map Part.name) = some fields ∧ ∀ p ∈ parts, p.IsIn fields := by
  have hzip : ∀ elems : List Json, elems.length = (parts.map Part.name).length →
      ((∀ p ∈ parts, p.IsIn ((parts.map Part.name).zip elems)) ↔
        List.Forall₂ Part.Accepts parts elems) := by
    intro elems hl
    rw [forall_isIn_iff hn (List.map_fst_zip (Nat.le_of_eq hl.symm)),
      List.map_snd_zip (Nat.le_of_eq hl)]
  constructor
  · rintro (⟨h⟩ | ⟨h⟩)
    · exact ⟨_, rfl, h⟩
    · have hl : _ = (parts.map Part.name).length := h.length_eq.symm.trans (List.length_map _).symm
      exact ⟨_, if_pos hl, (hzip _ hl).2 h⟩
  · rintro ⟨fields, hf, h⟩
    cases j with
    | obj fields' =>
      cases hf
      exact .obj h
    | arr elems =>
      obtain ⟨hl, hf⟩ := Option.ite_none_right_eq_some.1 hf
      cases hf
      exact .arr ((hzip _ hl).1 h)
    | _ => cases hf

/-- An object with its fields in another order is a form of the same record. -/
theorem isRecord_perm {fields' : List (String × Json)} (hp : fields.Perm fields')
    (hn : (fields.map Prod.fst).Nodup) :
    IsRecord parts (.obj fields) ↔ IsRecord parts (.obj fields') := by
  have hobj : ∀ fs, IsRecord parts (.obj fs) ↔ ∀ p ∈ parts, p.IsIn fs :=
    fun fs => ⟨fun | .obj h => h, .obj⟩
  rw [hobj, hobj]
  exact forall₂_congr fun p _ => p.isIn_perm hp hn

/-- Used before the later steps of a `do` are simplified, this opens each step once. -/
theorem do_eq_some_iff {α β : Type} {x : Option α} {f : α → Option β} {b : β} :
    (do let a ← x; f a) = some b ↔ ∃ a, x = some a ∧ f a = some b := Option.bind_eq_some_iff

/-- A reader of a record that reads each of its parts reads the record, and a writer that writes them
in order writes it. -/
theorem lawfulWire_ofRecord {α : Type} {names : List String} {parts : α → List Part}
    {build : List (String × Json) → Option α} {fields : α → List (String × Json)}
    (hn : names.Nodup) (hp : ∀ x, (parts x).map Part.name = names)
    (hb : ∀ r x, build r = some x ↔ ∀ p ∈ parts x, p.IsIn r)
    (hf : ∀ x, (fields x).map Prod.fst = names)
    (hw : ∀ x, List.Forall₂ Part.Accepts (parts x) ((fields x).map Prod.snd)) :
    @LawfulWire α ⟨fun x => .obj (fields x), fun j => (j.record? names).bind build⟩
      ⟨fun j x => IsRecord (parts x) j⟩ :=
  letI : Wire α := ⟨fun x => .obj (fields x), fun j => (j.record? names).bind build⟩
  letI : Represented α := ⟨fun j x => IsRecord (parts x) j⟩
  { read?_eq_some_iff := fun {j x} => by
      show (j.record? names).bind build = some x ↔ IsRecord (parts x) j
      rw [isRecord_iff ((hp x).symm ▸ hn), hp x, Option.bind_eq_some_iff]
      exact exists_congr fun r => and_congr_right fun _ => hb r x
    represents_write := fun x =>
      .obj ((forall_isIn_iff ((hp x).symm ▸ hn) ((hf x).trans (hp x).symm)).2 (hw x)) }

end

/-! ## Tags -/

section

variable {α : Type} {tag : String} {content : Option Json} {carried : Carried} {j : Json}

/-- What stands beside a tag is what the tag carries. -/
def Carried.Holds (content : Option Json) : Carried → Prop
  | .nothing => Wire.isBare content = true
  | .value Accepts => ∃ c, content = some c ∧ Accepts c
  | .fields parts => ∃ c, content = some c ∧
      ∃ fields, c.fields? = some fields ∧ ∀ p ∈ parts, p.IsIn fields

theorem Carried.holds_none_iff : carried.Holds none ↔ carried = .nothing := by
  cases carried <;> simp [Holds, Wire.isBare]

theorem variant?_eq_some_none_iff : j.variant? = some (tag, none) ↔ j = .str tag := by
  unfold Json.variant?
  split <;> simp_all

theorem variant?_eq_some_some_iff {c : Json} :
    j.variant? = some (tag, some c) ↔ j = .tagged tag c := by
  unfold Json.variant?
  split <;> simp_all [Json.tagged]

theorem isTagged_iff :
    IsTagged tag carried j ↔
      ∃ content, j.variant? = some (tag, content) ∧ carried.Holds content := by
  constructor
  · rintro (_ | _ | h | h)
    · exact ⟨none, rfl, rfl⟩
    · exact ⟨some .null, rfl, rfl⟩
    · exact ⟨some _, rfl, _, rfl, h⟩
    · exact ⟨some _, rfl, _, rfl, _, rfl, h⟩
  · rintro ⟨content, hv, hc⟩
    cases carried with
    | nothing =>
      match content with
      | none => exact variant?_eq_some_none_iff.1 hv ▸ .str
      | some .null => exact variant?_eq_some_some_iff.1 hv ▸ .null
    | value Accepts =>
      obtain ⟨c, rfl, h⟩ := hc
      exact variant?_eq_some_some_iff.1 hv ▸ .value h
    | fields parts =>
      obtain ⟨c, rfl, fields, hf, h⟩ := hc
      cases c <;> cases hf
      exact variant?_eq_some_some_iff.1 hv ▸ .fields h

/-- When the fields beside a tag are in order, it is enough that each value is as it should be. -/
theorem isTagged_fields {parts : List Part} {fields : List (String × Json)}
    (hn : (parts.map Part.name).Nodup) (hf : fields.map Prod.fst = parts.map Part.name)
    (h : List.Forall₂ Part.Accepts parts (fields.map Prod.snd)) :
    IsTagged tag (.fields parts) (.tagged tag (.obj fields)) :=
  .fields ((forall_isIn_iff hn hf).2 h)

@[simp] theorem bare_eq_some_iff {x y : α} :
    Wire.bare content x = some y ↔ Wire.isBare content = true ∧ x = y := by
  simp [Wire.bare]

/-- A tag is the only field of its object, so that the fields have one order. -/
theorem isTagged_perm {fields fields' : List (String × Json)} (hp : fields.Perm fields') :
    IsTagged tag carried (.obj fields) ↔ IsTagged tag carried (.obj fields') := by
  have hmove : ∀ {fs fs' : List (String × Json)}, fs.Perm fs' →
      IsTagged tag carried (.obj fs) → IsTagged tag carried (.obj fs') := by
    intro fs fs' hp h
    obtain ⟨c, rfl⟩ : ∃ c, fs = [(tag, c)] := by cases h <;> exact ⟨_, rfl⟩
    rwa [← List.singleton_perm.1 hp]
  exact ⟨hmove hp, hmove hp.symm⟩

theorem not_isTagged_null : ¬ IsTagged tag carried .null := nofun

theorem not_isRecord_null {parts : List Part} : ¬ IsRecord parts .null := nofun

/-- A reader that goes by a tag and what stands beside it reads a tagged value. -/
theorem read?_tagged_iff {read : String × Option Json → Option α} {x : α}
    (h : ∀ t content, read (t, content) = some x ↔ tag = t ∧ carried.Holds content) :
    j.variant?.bind read = some x ↔ IsTagged tag carried j := by
  rw [isTagged_iff, Option.bind_eq_some_iff]
  constructor
  · rintro ⟨⟨t, content⟩, hv, hr⟩
    obtain ⟨rfl, hc⟩ := (h t content).1 hr
    exact ⟨content, hv, hc⟩
  · rintro ⟨content, hv, hc⟩
    exact ⟨(tag, content), hv, (h tag content).2 ⟨rfl, hc⟩⟩

section

variable {β : Type} [Wire β] [Represented β] [LawfulWire β] [NeverNull β] {bareTag name : String}
  {x₀ : α} {f : Option β → α} {form : α → String × Carried}

/-- The reader of a type with two tags, one without content and one with a field that may be missing,
reads the forms of each value. -/
theorem bareOrOptional?_eq_some_iff {x : α} (hne : tag ≠ bareTag)
    (h₀ : form x₀ = (bareTag, .nothing))
    (hf : ∀ y, form (f y) = (tag, .fields [.optional name y])) (hx : x = x₀ ∨ ∃ y, x = f y) :
    Wire.bareOrOptional? bareTag x₀ tag name f j = some x ↔ IsTagged (form x).1 (form x).2 j := by
  refine read?_tagged_iff (x := x) fun t content => ⟨fun h => ?_, ?_⟩
  · dsimp only at h
    split at h
    · rename_i ht
      obtain ⟨hb, rfl⟩ := bare_eq_some_iff.1 h
      rw [h₀]
      exact ⟨ht.symm, hb⟩
    · split at h
      · rename_i ht
        simp only [Option.bind_eq_bind, Option.bind_eq_some_iff, Option.pure_def,
          Option.some.injEq, optional?_eq_some_iff] at h
        obtain ⟨c, rfl, r, hr, y, hy, rfl⟩ := h
        rw [hf]
        exact ⟨ht.symm, c, rfl, r, hr, by simpa using hy⟩
      · cases h
  · rintro ⟨rfl, h⟩
    rcases hx with rfl | ⟨y, rfl⟩
    · rw [h₀] at h ⊢
      exact (if_pos rfl).trans (bare_eq_some_iff.2 ⟨h, rfl⟩)
    · rw [hf] at h ⊢
      obtain ⟨c, rfl, r, hr, h⟩ := h
      have hy : Wire.optional? r name = some y := optional?_eq_some_iff.2 (by simpa using h)
      simp [hne, hr, hy]

theorem lawfulWire_ofBareOrOptional {write : α → Json} (hne : tag ≠ bareTag)
    (h₀ : form x₀ = (bareTag, .nothing))
    (hf : ∀ y, form (f y) = (tag, .fields [.optional name y]))
    (hall : ∀ x, x = x₀ ∨ ∃ y, x = f y) (hw₀ : write x₀ = .str bareTag)
    (hw : ∀ y, write (f y) = .tagged tag (.obj [(name, Wire.write y)])) :
    @LawfulWire α ⟨write, Wire.bareOrOptional? bareTag x₀ tag name f⟩
      ⟨fun j x => IsTagged (form x).1 (form x).2 j⟩ :=
  letI : Wire α := ⟨write, Wire.bareOrOptional? bareTag x₀ tag name f⟩
  letI : Represented α := ⟨fun j x => IsTagged (form x).1 (form x).2 j⟩
  { read?_eq_some_iff := fun {_ x} => bareOrOptional?_eq_some_iff hne h₀ hf (hall x)
    represents_write := fun x => by
      show IsTagged (form x).1 (form x).2 (write x)
      rcases hall x with rfl | ⟨y, rfl⟩
      · rw [h₀, hw₀]
        exact .str
      · rw [hf, hw]
        exact isTagged_fields (by simp) rfl (by simp) }

end

/-- Values that are told apart by their tags alone are read from their tags. -/
theorem readTag?_eq_some_iff {tag : α → String} {values : List α} (hn : (values.map tag).Nodup)
    (hall : ∀ x, x ∈ values) {x : α} :
    Wire.readTag? tag values j = some x ↔ IsTagged (tag x) .nothing j := by
  have hfind : ∀ t, values.find? (fun y => tag y == t) = some x ↔ t = tag x := by
    intro t
    constructor
    · intro h
      have ht : tag x = t := by simpa using List.find?_some h
      exact ht.symm
    · rintro rfl
      have hx : ∃ y ∈ values, (fun y => tag y == tag x) y = true :=
        ⟨x, hall x, beq_self_eq_true (tag x)⟩
      obtain ⟨y, hy⟩ := Option.isSome_iff_exists.1 (List.find?_isSome.2 hx)
      have ht : tag y = tag x := by simpa using List.find?_some hy
      rw [hy, List.inj_on_of_nodup_map hn (hall y) (hall x) ht]
  have hread : Wire.readTag? tag values j = j.variant?.bind fun v =>
      if Wire.isBare v.2 then values.find? fun y => tag y == v.1 else none := by
    unfold Wire.readTag?
    cases j.variant? <;> rfl
  rw [hread]
  refine read?_tagged_iff fun t content => ?_
  rw [Option.ite_none_right_eq_some, hfind, and_comm, eq_comm]
  rfl

/-- The forms of values that are told apart by their tags alone. -/
@[reducible] def Represented.ofTags (tag : α → String) : Represented α :=
  ⟨fun j x => IsTagged (tag x) .nothing j⟩

theorem lawfulWire_ofTags {tag : α → String} {values : List α} (hn : (values.map tag).Nodup)
    (hall : ∀ x, x ∈ values) : @LawfulWire α (.ofTags tag values) (.ofTags tag) :=
  @LawfulWire.mk α (.ofTags tag values) (.ofTags tag) (readTag?_eq_some_iff hn hall) fun _ => .str

end

end LiveRooms
