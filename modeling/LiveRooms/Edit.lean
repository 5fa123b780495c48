/-!
# Edits of an ordered list

An edit changes one place of a list or replaces the whole of it.  `Edit.check` tells from the length
of a list whether an edit fits it, `Edit.apply` applies one that does, and `Edit.applyAll` applies a
batch in order and leaves out those that do not fit.
-/

namespace LiveRooms

/-- One edit of an ordered list with elements in `α`. -/
inductive Edit (α : Type) where
  /-- Adds elements at the end, in order. -/
  | append (values : List α)
  /-- Removes every element. -/
  | clear
  /-- Inserts before the element at `index`. -/
  | insertAt (index : UInt64) (value : α)
  /-- Removes the last element. -/
  | popBack
  /-- Removes the first element, if there is one. -/
  | popFront
  /-- Adds an element at the end. -/
  | pushBack (value : α)
  /-- Adds an element at the front. -/
  | pushFront (value : α)
  /-- Removes the element at `index`. -/
  | removeAt (index : UInt64)
  /-- Replaces the whole list. -/
  | reset (values : List α)
  /-- Replaces the element at `index`. -/
  | setAt (index : UInt64) (value : α)
  /-- Keeps the first `length` elements. -/
  | truncate (length : UInt64)
  deriving DecidableEq, Repr

namespace Edit

variable {α β : Type}

/-- Why an edit does not fit a list. -/
inductive Fault where
  | emptySequence
  | outOfBounds (index length : Nat)
  deriving DecidableEq, Repr

/-- The wording of a fault. -/
def Fault.message : Fault → String
  | .emptySequence => "cannot pop from an empty sequence"
  | .outOfBounds index length =>
    "index " ++ toString index ++ " is out of bounds for length " ++ toString length

/-- The name of an edit's kind. -/
def kind : Edit α → String
  | .append _ => "append"
  | .clear => "clear"
  | .insertAt .. => "insert_at"
  | .popBack => "pop_back"
  | .popFront => "pop_front"
  | .pushBack _ => "push_back"
  | .pushFront _ => "push_front"
  | .removeAt _ => "remove_at"
  | .reset _ => "reset"
  | .setAt .. => "set_at"
  | .truncate _ => "truncate"

/-- Whether an edit fits a list of the given length. -/
def check (length : Nat) : Edit α → Except Fault Unit
  | .insertAt index _ =>
    if index.toNat ≤ length then .ok () else .error (.outOfBounds index.toNat length)
  | .removeAt index =>
    if index.toNat < length then .ok () else .error (.outOfBounds index.toNat length)
  | .setAt index _ =>
    if index.toNat < length then .ok () else .error (.outOfBounds index.toNat length)
  | .popBack => if length = 0 then .error .emptySequence else .ok ()
  | _ => .ok ()

/-- The list after an edit that fits it. -/
def edited (items : List α) : Edit α → List α
  | .append values => items ++ values
  | .clear => []
  | .insertAt index value => items.insertIdx index.toNat value
  | .popBack => items.dropLast
  | .popFront => items.tail
  | .pushBack value => items ++ [value]
  | .pushFront value => value :: items
  | .removeAt index => items.eraseIdx index.toNat
  | .reset values => values
  | .setAt index value => items.set index.toNat value
  | .truncate length => items.take length.toNat

/-- Applies an edit, or says why it does not fit. -/
def apply (edit : Edit α) (items : List α) : Except Fault (List α) :=
  match edit.check items.length with
  | .ok () => .ok (edit.edited items)
  | .error fault => .error fault

/-- Applies edits in order.  One that does not fit is skipped; the second component counts these. -/
def applyAll : List (Edit α) → List α → List α × Nat
  | [], items => (items, 0)
  | edit :: edits, items =>
    match edit.apply items with
    | .ok items' => applyAll edits items'
    | .error _ => let (result, skipped) := applyAll edits items; (result, skipped + 1)

/-- An edit tried on a list. -/
structure Attempt (α : Type) where
  edit : Edit α
  before : List α
  deriving DecidableEq, Repr

/-- What an attempt comes to. -/
def Attempt.result (a : Attempt α) : Except Fault (List α) := a.edit.apply a.before

/-- The list after an attempt. -/
def Attempt.after (a : Attempt α) : List α :=
  match a.result with
  | .ok items => items
  | .error _ => a.before

/-- The attempts at the edits of a batch, one at a time. -/
def attempts : List (Edit α) → List α → List (Attempt α)
  | [], _ => []
  | edit :: edits, items =>
    let attempt : Attempt α := ⟨edit, items⟩
    attempt :: attempts edits attempt.after

/-- The elements that an edit brings along. -/
def payload : Edit α → List α
  | .append values => values
  | .insertAt _ value => [value]
  | .pushBack value => [value]
  | .pushFront value => [value]
  | .reset values => values
  | .setAt _ value => [value]
  | _ => []

/-- The edit with each element it brings along replaced by its image. -/
def map (f : α → β) : Edit α → Edit β
  | .append values => .append (values.map f)
  | .clear => .clear
  | .insertAt index value => .insertAt index (f value)
  | .popBack => .popBack
  | .popFront => .popFront
  | .pushBack value => .pushBack (f value)
  | .pushFront value => .pushFront (f value)
  | .removeAt index => .removeAt index
  | .reset values => .reset (values.map f)
  | .setAt index value => .setAt index (f value)
  | .truncate length => .truncate length

/-- The edit with each element it brings along replaced by its image, taken in order; the first
element without an image fails the whole. -/
def traverse {ε : Type} (f : α → Except ε β) : Edit α → Except ε (Edit β)
  | .append values => .append <$> values.mapM f
  | .clear => .ok .clear
  | .insertAt index value => .insertAt index <$> f value
  | .popBack => .ok .popBack
  | .popFront => .ok .popFront
  | .pushBack value => .pushBack <$> f value
  | .pushFront value => .pushFront <$> f value
  | .removeAt index => .ok (.removeAt index)
  | .reset values => .reset <$> values.mapM f
  | .setAt index value => .setAt index <$> f value
  | .truncate length => .ok (.truncate length)

/-- Applying an edit fails with the fault that checking it finds. -/
theorem apply_eq_error_iff {edit : Edit α} {items : List α} {fault : Fault} :
    edit.apply items = .error fault ↔ edit.check items.length = .error fault := by
  unfold apply
  split <;> simp_all

/-- An edit that passes the check is applied. -/
theorem apply_eq_ok_iff {edit : Edit α} {items result : List α} :
    edit.apply items = .ok result ↔
      edit.check items.length = .ok () ∧ edit.edited items = result := by
  unfold apply
  split <;> simp_all

end Edit

end LiveRooms
