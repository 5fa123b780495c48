/-!
# JSON values

The tree that data is exchanged in.  `Json.record?` reads the fields of a record from either of its
two shapes, an object or an array with one element per field; `Json.variant?` reads the tag of a
tagged value and what it carries.  Both only take apart one level; the subtrees they return are
smaller than the value (`Json.sizeOf_field_lt`, `Json.sizeOf_variant_lt`), so a reader may recurse
on them.
-/

namespace LiveRooms

/-- A JSON value.  An integer literal and a number written with a decimal point are different. -/
inductive Json where
  | null
  | bool (b : Bool)
  | int (n : Int)
  /-- The number `digits / 10 ^ places`, written with a decimal point. -/
  | decimal (digits : Int) (places : Nat)
  | str (s : String)
  | arr (elems : List Json)
  | obj (fields : List (String × Json))
  deriving Inhabited, Repr

namespace Json

/-- The fields of a record whose fields have the given names.  An object gives its own fields, in
any order and with others among them; an array gives one element per name, in the order of the
names. -/
def record? (names : List String) : Json → Option (List (String × Json))
  | .obj fields => some fields
  | .arr elems => if elems.length = names.length then some (names.zip elems) else none
  | _ => none

/-- The fields of an object. -/
def fields? : Json → Option (List (String × Json))
  | .obj fields => some fields
  | _ => none

/-- The tag of a tagged value with its content: a string is a tag alone, an object with one field is
a tag with content. -/
def variant? : Json → Option (String × Option Json)
  | .str tag => some (tag, none)
  | .obj [(tag, content)] => some (tag, some content)
  | _ => none

/-- A string, as the value of a field or as an element. -/
def string? : Json → Option String
  | .str s => some s
  | _ => none

/-- A truth value. -/
def bool? : Json → Option Bool
  | .bool b => some b
  | _ => none

/-- An integer literal from zero up to `bound`, which is excluded. -/
def natBelow? (bound : Nat) : Json → Option Nat
  | .int (.ofNat n) => if n < bound then some n else none
  | _ => none

/-- The elements of an array. -/
def elems? : Json → Option (List Json)
  | .arr elems => some elems
  | _ => none

/-- The tagged value with the given content. -/
def tagged (tag : String) (content : Json) : Json := .obj [(tag, content)]

/-! ## Subtrees are smaller -/

theorem sizeOf_lookup_lt {fields : List (String × Json)} {name : String} {j : Json}
    (h : fields.lookup name = some j) : sizeOf j < sizeOf fields := by
  induction fields with
  | nil => simp at h
  | cons field fields ih =>
    obtain ⟨key, value⟩ := field
    simp only [List.cons.sizeOf_spec, Prod.mk.sizeOf_spec]
    rw [List.lookup_cons] at h
    split at h
    · cases h; omega
    · have := ih h; omega

/-- A field of an object is smaller than the object. -/
theorem sizeOf_field_lt {j : Json} {fields : List (String × Json)} (hf : j.fields? = some fields)
    {name : String} {v : Json} (h : fields.lookup name = some v) : sizeOf v < sizeOf j := by
  cases j with
  | obj fields' =>
    cases hf
    have := sizeOf_lookup_lt h
    simp only [obj.sizeOf_spec]; omega
  | _ => simp [fields?] at hf

/-- The content of a tagged value is smaller than the value. -/
theorem sizeOf_variant_lt {j : Json} {tag : String} {content : Json}
    (h : j.variant? = some (tag, some content)) : sizeOf content < sizeOf j := by
  unfold variant? at h
  split at h <;> simp only [Option.some.injEq, Prod.mk.injEq, reduceCtorEq, and_false] at h
  obtain ⟨-, rfl⟩ := h
  simp; omega

end Json

end LiveRooms
