import LiveRooms.Proofs.Wire.Filters
import LiveRooms.Proofs.Wire.Lists
import LiveRooms.Proofs.Wire.Rooms

/-!
# The data model

All types of data that are exchanged, and what holds of each of them: a reader returns what was
written (`DataType.round_trips`), and it accepts the forms of the values of its type and nothing
else (`DataType.reads_exactly_the_forms`).
-/

namespace LiveRooms

/-- The types of data that are exchanged. -/
inductive DataType where
  | viewport
  | quickFilter
  | filter
  | remoteFilter
  | roomCategory
  | filterSettings
  | listStatus
  | loadingState
  | messageType
  | profile
  | membership
  | notificationMode
  | metadata
  | content
  | delivery
  | event
  | sendStatus
  | lastMessage
  | joinRequest
  | summary
  | failureCategory
  | failure
  /-- Edits of a list of strings. -/
  | edit
  deriving DecidableEq, Repr

namespace DataType

/-- The values of a type of data. -/
@[reducible] def Value : DataType → Type
  | .viewport => Viewport
  | .quickFilter => QuickFilter
  | .filter => Filter
  | .remoteFilter => RemoteFilter
  | .roomCategory => RoomCategory
  | .filterSettings => FilterSettings
  | .listStatus => ListStatus
  | .loadingState => LoadingState
  | .messageType => MessageType
  | .profile => Profile
  | .membership => Membership
  | .notificationMode => NotificationMode
  | .metadata => Metadata
  | .content => Content
  | .delivery => Delivery
  | .event => Event
  | .sendStatus => SendStatus
  | .lastMessage => LastMessage
  | .joinRequest => JoinRequest
  | .summary => Summary
  | .failureCategory => FailureCategory
  | .failure => Failure
  | .edit => Edit String

instance (t : DataType) : Wire t.Value := by
  cases t <;> infer_instance

instance (t : DataType) : Represented t.Value := by
  cases t <;> infer_instance

instance (t : DataType) : LawfulWire t.Value := by
  cases t <;> infer_instance

/-- The order of an object's fields does not matter. -/
theorem read?_perm (t : DataType) {fields fields' : List (String × Json)}
    (hp : fields.Perm fields') (hn : (fields.map Prod.fst).Nodup) :
    (Wire.read? (.obj fields) : Option t.Value) = Wire.read? (.obj fields') := by
  have h : ∀ x : t.Value, Represents (.obj fields) x ↔ Represents (.obj fields') x := by
    cases t with
    | viewport | filterSettings | profile | metadata | lastMessage | summary | failure =>
      exact fun x => isRecord_perm hp hn
    | _ => exact fun x => isTagged_perm hp
  exact Option.ext fun x => read?_eq_some_iff.trans ((h x).trans read?_eq_some_iff.symm)

/-- Every value is read back from its written form.  A JSON value that is accepted is read like the
written form of its value, which is written again as it is. -/
theorem round_trips (t : DataType) :
    (∀ x : t.Value, Wire.read? (Wire.write x) = some x) ∧
      (∀ j, ((Wire.read? j).bind fun x : t.Value => (Wire.read? (Wire.write x) : Option t.Value)) =
        Wire.read? j) ∧
      ∀ j, (Wire.canonical? t.Value j).bind (Wire.canonical? t.Value) =
        Wire.canonical? t.Value j :=
  ⟨read?_write, read?_bind_write, canonical?_bind_canonical?⟩

/-- A reader returns a value on exactly its forms.  It rejects everything that is a form of no
value, and does not tell the forms of one value apart. -/
theorem reads_exactly_the_forms (t : DataType) (j : Json) :
    (∀ x : t.Value, Wire.read? j = some x ↔ Represents j x) ∧
      ((Wire.read? j : Option t.Value) = none ↔ ∀ x : t.Value, ¬ Represents j x) ∧
      ∀ (j' : Json) (x : t.Value), Represents j x → Represents j' x →
        (Wire.read? j : Option t.Value) = Wire.read? j' :=
  ⟨fun _ => read?_eq_some_iff, read?_eq_none_iff, fun _ _ h h' =>
    (read?_eq_some_iff.2 h).trans (read?_eq_some_iff.2 h').symm⟩

/-- A viewport may be given as an array, or with its fields in another order and others among
them. -/
theorem reads_forms_of_viewport :
    Wire.read? (α := Viewport) (.arr [.int 3, .int 7]) =
      Wire.read? (.obj [("end", .int 7), ("zoom", .null), ("start", .int 3)]) := by
  have h3 : Represents (.int 3) (3 : UInt64) := rfl
  have h7 : Represents (.int 7) (7 : UInt64) := rfl
  exact (reads_exactly_the_forms .viewport (.arr [.int 3, .int 7])).2.2 _ (⟨3, 7⟩ : Viewport)
    (.arr (.cons h3 (.cons h7 .nil)))
    (.obj (by simp [Viewport.parts, Part.IsIn, List.lookup_cons, h3, h7]))

/-- The fields beside a tag come as an object.  An array of them is a form of the same record, and is
not accepted there. -/
theorem fields_beside_tag_as_array :
    ∃ parts, (Edit.removeAt 0 : Edit String).form = ("RemoveAt", .fields parts) ∧
      IsRecord parts (.obj [("index", .int 0)]) ∧ IsRecord parts (.arr [.int 0]) ∧
      Wire.read? (.tagged "RemoveAt" (.obj [("index", .int 0)])) =
        some (Edit.removeAt 0 : Edit String) ∧
      Wire.read? (α := Edit String) (.tagged "RemoveAt" (.arr [.int 0])) = none := by
  have h0 : Represents (.int 0) (0 : UInt64) := rfl
  exact ⟨[.required "index" (0 : UInt64)], rfl, .obj (by simp [Part.IsIn, List.lookup_cons, h0]),
    .arr (.cons h0 .nil), rfl, rfl⟩

end DataType

end LiveRooms
