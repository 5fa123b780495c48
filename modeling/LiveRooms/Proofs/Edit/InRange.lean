import LiveRooms.Edit
import Mathlib.Logic.Nontrivial.Basic
import Mathlib.Data.List.Nodup

/-!
# Edits in range

One who edits a list of their own sends edits that are in range: each fits the list that those
before it leave.  A follower whose list is the same applies every one of them
(`applyAll_of_inRange`).  A follower whose list differs catches up with an edit after which nothing
of the former list is left (`edited_of_forgets`); without such an edit the difference stays, and
some edits in range that leave no repeats in the sender's list do leave one in the follower's list
(`exists_repeat`).
-/

namespace LiveRooms.Edit

variable {α : Type} {edit : Edit α} {edits edits' : List (Edit α)} {items items' : List α}

/-- The list after edits that all fit. -/
def editedAll (edits : List (Edit α)) (items : List α) : List α := edits.foldl edited items

/-- Each of the edits fits the list that those before it leave. -/
def InRange : List (Edit α) → List α → Prop
  | [], _ => True
  | edit :: edits, items => edit.check items.length = .ok () ∧ InRange edits (edit.edited items)

/-- None of the edits leaves a repeated element. -/
def LeavesNodup : List (Edit α) → List α → Prop
  | [], _ => True
  | edit :: edits, items => (edit.edited items).Nodup ∧ LeavesNodup edits (edit.edited items)

instance decidableInRange : (edits : List (Edit α)) → (items : List α) →
    Decidable (InRange edits items)
  | [], _ => .isTrue trivial
  | edit :: edits, items =>
    have := decidableInRange edits (edit.edited items)
    inferInstanceAs (Decidable (edit.check items.length = .ok () ∧ InRange edits _))

instance decidableLeavesNodup [DecidableEq α] : (edits : List (Edit α)) → (items : List α) →
    Decidable (LeavesNodup edits items)
  | [], _ => .isTrue trivial
  | edit :: edits, items =>
    have := decidableLeavesNodup edits (edit.edited items)
    inferInstanceAs (Decidable ((edit.edited items).Nodup ∧ LeavesNodup edits _))

/-- Whether nothing of the former list is left after an edit. -/
def forgets : Edit α → Bool
  | .clear | .reset _ => true
  | .truncate length => length = 0
  | _ => false

@[simp] theorem editedAll_nil (items : List α) : editedAll [] items = items := rfl

@[simp] theorem editedAll_cons (edit : Edit α) (edits : List (Edit α)) (items : List α) :
    editedAll (edit :: edits) items = editedAll edits (edit.edited items) := rfl

theorem editedAll_append (edits edits' : List (Edit α)) (items : List α) :
    editedAll (edits ++ edits') items = editedAll edits' (editedAll edits items) :=
  List.foldl_append

theorem inRange_append :
    InRange (edits ++ edits') items ↔
      InRange edits items ∧ InRange edits' (editedAll edits items) := by
  induction edits generalizing items with
  | nil => simp [InRange]
  | cons edit edits ih => rw [List.cons_append, InRange, InRange, ih, and_assoc, editedAll_cons]

theorem leavesNodup_append :
    LeavesNodup (edits ++ edits') items ↔
      LeavesNodup edits items ∧ LeavesNodup edits' (editedAll edits items) := by
  induction edits generalizing items with
  | nil => simp [LeavesNodup]
  | cons edit edits ih =>
    rw [List.cons_append, LeavesNodup, LeavesNodup, ih, and_assoc, editedAll_cons]

theorem InRange.of_prefix (h : InRange edits' items) (hp : edits <+: edits') :
    InRange edits items := by
  obtain ⟨rest, rfl⟩ := hp
  exact (inRange_append.1 h).1

theorem LeavesNodup.of_prefix (h : LeavesNodup edits' items) (hp : edits <+: edits') :
    LeavesNodup edits items := by
  obtain ⟨rest, rfl⟩ := hp
  exact (leavesNodup_append.1 h).1

theorem nodup_editedAll (h : LeavesNodup edits items) (hi : items.Nodup) :
    (editedAll edits items).Nodup := by
  induction edits generalizing items with
  | nil => exact hi
  | cons edit edits ih => exact ih h.2 h.1

/-! ## Following the edits of another list -/

@[simp] theorem applyAll_cons_of_check (h : edit.check items.length = .ok ()) :
    applyAll (edit :: edits) items = applyAll edits (edit.edited items) := by
  simp [applyAll, apply, h]

/-- The parts of a batch are applied one after the other, and the skipped edits add up. -/
theorem applyAll_append (edits edits' : List (Edit α)) (items : List α) :
    applyAll (edits ++ edits') items =
      ((applyAll edits' (applyAll edits items).1).1,
        (applyAll edits items).2 + (applyAll edits' (applyAll edits items).1).2) := by
  induction edits generalizing items with
  | nil => simp [applyAll]
  | cons edit edits ih =>
    rw [List.cons_append, applyAll, applyAll]
    cases edit.apply items with
    | ok items' => exact ih items'
    | error fault =>
      rw [ih]
      simp only [Prod.mk.injEq, true_and]
      omega

theorem fst_applyAll_append (edits edits' : List (Edit α)) (items : List α) :
    (applyAll (edits ++ edits') items).1 = (applyAll edits' (applyAll edits items).1).1 := by
  rw [applyAll_append]

/-- Edits in range are all applied. -/
theorem applyAll_of_inRange (h : InRange edits items) :
    applyAll edits items = (editedAll edits items, 0) := by
  induction edits generalizing items with
  | nil => rfl
  | cons edit edits ih => rw [applyAll_cons_of_check h.1, ih h.2, editedAll_cons]

theorem check_of_forgets (h : edit.forgets = true) (length : Nat) :
    edit.check length = .ok () := by
  cases edit with
  | clear | reset values | truncate length => rfl
  | _ => cases h

/-- After an edit that forgets it does not matter what the list was. -/
theorem edited_of_forgets (h : edit.forgets = true) (items items' : List α) :
    edit.edited items = edit.edited items' := by
  cases edit with
  | clear | reset values => rfl
  | truncate length =>
    obtain rfl : length = 0 := by simpa [forgets] using h
    show items.take 0 = items'.take 0
    rw [List.take_zero, List.take_zero]
  | _ => cases h

/-- A follower whose list differs can be brought to show an element twice, by edits in range that
leave no repeats in the list of the sender. -/
theorem exists_repeat [Nontrivial α] (hne : items' ≠ items) (hn : items.Nodup) :
    ∃ edits, InRange edits items ∧ LeavesNodup edits items ∧
      ¬ (applyAll edits items').1.Nodup := by
  induction items generalizing items' with
  | nil =>
    obtain ⟨y, ys, rfl⟩ := List.exists_cons_of_ne_nil hne
    -- what the sender does not have is added once more
    refine ⟨[.pushBack y], ⟨rfl, trivial⟩, ⟨List.nodup_singleton y, trivial⟩, ?_⟩
    rw [applyAll_cons_of_check rfl]
    simp [applyAll, edited]
  | cons x xs ih =>
    cases items' with
    | nil =>
      -- an edit that the follower leaves out makes room for a second copy
      obtain ⟨y, hy⟩ := exists_ne x
      refine ⟨[.truncate 1, .pushBack y, .removeAt 1, .pushBack y], ?_, ?_, ?_⟩
      · simp [InRange, check, edited]
      · simp [LeavesNodup, edited, hy.symm]
      · simp [applyAll, apply, check, edited]
    | cons y ys =>
      by_cases hxy : y = x
      · subst hxy
        have hne' : ys ≠ xs := fun h => hne (by rw [h])
        obtain ⟨edits, hr, hd, hrep⟩ := ih hne' (List.nodup_cons.1 hn).2
        refine ⟨.popFront :: edits, ⟨rfl, hr⟩, ⟨(List.nodup_cons.1 hn).2, hd⟩, ?_⟩
        rwa [applyAll_cons_of_check rfl]
      · refine ⟨[.truncate 1, .pushBack y], ⟨rfl, rfl, trivial⟩, ?_, ?_⟩
        · simp [LeavesNodup, edited, Ne.symm hxy]
        · simp [applyAll, apply, check, edited]

end LiveRooms.Edit
