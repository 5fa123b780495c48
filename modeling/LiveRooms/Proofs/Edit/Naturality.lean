import LiveRooms.Proofs.Edit.Folding
import LiveRooms.Proofs.Edit.Mapping

/-!
# Batches and mapped elements

To try an edit on a list and to replace elements by their images come to the same in either order
(`result_map`), so a batch of mapped edits goes through the images of the lists that the batch goes
through, and skips the same edits for the same reasons (`attempts_map`).  With all elements forgotten
what is left of a batch is the shapes of its edits; hence these and the length of the list determine
which edits are skipped, why, and how long the list gets (`faults_congr`).
-/

namespace LiveRooms.Edit

variable {α β : Type}

/-- The fault for which an edit is skipped. -/
def Attempt.fault? (a : Attempt α) : Option Fault :=
  match a.result with
  | .ok _ => none
  | .error fault => some fault

/-- The same attempt with each element replaced by its image. -/
def Attempt.map (f : α → β) (a : Attempt α) : Attempt β := ⟨a.edit.map f, a.before.map f⟩

/-- For each edit of a batch the fault for which it is skipped, if it is. -/
def faults (edits : List (Edit α)) (items : List α) : List (Option Fault) :=
  (attempts edits items).map Attempt.fault?

/-- What is left of an edit when the elements are forgotten. -/
def shape (edit : Edit α) : Edit Unit := edit.map fun _ => ()

theorem apply_map (f : α → β) (edit : Edit α) (items : List α) :
    (edit.map f).apply (items.map f) = (edit.apply items).map (List.map f) := by
  rw [apply, apply, check_map, List.length_map]
  cases edit.check items.length with
  | ok => exact congrArg Except.ok (edited_map f edit items)
  | error fault => rfl

namespace Attempt

variable (f : α → β) (a : Attempt α)

theorem result_map : (a.map f).result = a.result.map (List.map f) :=
  apply_map f a.edit a.before

@[simp] theorem after_map : (a.map f).after = a.after.map f := by
  rw [after, after, result_map]
  cases a.result <;> rfl

@[simp] theorem fault?_map : (a.map f).fault? = a.fault? := by
  rw [fault?, fault?, result_map]
  cases a.result <;> rfl

theorem isSkipped_eq : a.isSkipped = a.fault?.isSome := by
  rw [isSkipped, fault?]
  cases a.result <;> rfl

end Attempt

/-- The attempts at mapped edits are the mapped attempts. -/
theorem attempts_map (f : α → β) (edits : List (Edit α)) (items : List α) :
    attempts (edits.map (map f)) (items.map f) = (attempts edits items).map (Attempt.map f) := by
  induction edits generalizing items with
  | nil => rfl
  | cons edit edits ih =>
    have ha := Attempt.after_map f ⟨edit, items⟩
    rw [List.map_cons, attempts, attempts, List.map_cons, ← ih, ← ha]
    rfl

theorem faults_map (f : α → β) (edits : List (Edit α)) (items : List α) :
    faults (edits.map (map f)) (items.map f) = faults edits items := by
  rw [faults, faults, attempts_map, List.map_map]
  exact List.map_congr_left fun a _ => Attempt.fault?_map f a

/-- As many edits are skipped as have a fault. -/
theorem snd_applyAll_eq (edits : List (Edit α)) (items : List α) :
    (applyAll edits items).2 = (faults edits items).countP Option.isSome := by
  rw [applyAll_eq_foldl, faults, List.countP_map]
  exact List.countP_congr fun a _ => by rw [Attempt.isSkipped_eq]; rfl

theorem fst_applyAll_map (f : α → β) (edits : List (Edit α)) (items : List α) :
    (applyAll (edits.map (map f)) (items.map f)).1 = (applyAll edits items).1.map f := by
  rw [applyAll_eq_foldl, applyAll_eq_foldl, List.foldl_map]
  exact List.foldl_hom (List.map f) fun items edit => Attempt.after_map f ⟨edit, items⟩

theorem applyAll_map (f : α → β) (edits : List (Edit α)) (items : List α) :
    applyAll (edits.map (map f)) (items.map f) =
      ((applyAll edits items).1.map f, (applyAll edits items).2) := by
  refine Prod.ext (fst_applyAll_map f edits items) ?_
  rw [snd_applyAll_eq, snd_applyAll_eq, faults_map]

/-! ## Shapes -/

section

variable {edits : List (Edit α)} {edits' : List (Edit β)} {items : List α} {items' : List β}

theorem map_unit_eq (hi : items'.length = items.length) :
    items'.map (fun _ => ()) = items.map fun _ => () := by
  rw [List.map_const', List.map_const', hi]

/-- The shapes of the edits and the length of the list tell which edits are skipped and why. -/
theorem faults_congr (hs : edits'.map shape = edits.map shape)
    (hi : items'.length = items.length) : faults edits' items' = faults edits items := by
  calc faults edits' items'
      = faults (edits'.map shape) (items'.map fun _ => ()) := (faults_map _ edits' items').symm
    _ = faults (edits.map shape) (items.map fun _ => ()) := by rw [hs, map_unit_eq hi]
    _ = faults edits items := faults_map _ edits items

/-- The shapes of the edits and the length of the list tell how long the list gets. -/
theorem length_applyAll_congr (hs : edits'.map shape = edits.map shape)
    (hi : items'.length = items.length) :
    (applyAll edits' items').1.length = (applyAll edits items).1.length := by
  have hlen {γ : Type} (edits : List (Edit γ)) (items : List γ) :
      (applyAll (edits.map shape) (items.map fun _ => ())).1.length =
        (applyAll edits items).1.length :=
    (congrArg List.length (fst_applyAll_map _ edits items)).trans (List.length_map _)
  rw [← hlen edits', ← hlen edits, hs, map_unit_eq hi]

end

/-- To replace the elements of a batch and of a list by their images and then to apply the batch is
to apply the batch and then to replace the elements; the same edits are skipped, for the same
reasons.  Which edits are skipped and why, and how long the list gets, depends on nothing but the
shapes of the edits and the length of the list. -/
theorem applyAll_natural (f : α → β) (edits : List (Edit α)) (items : List α) :
    applyAll (edits.map (map f)) (items.map f) =
      ((applyAll edits items).1.map f, (applyAll edits items).2) ∧
    faults (edits.map (map f)) (items.map f) = faults edits items ∧
    (applyAll edits items).2 = (faults edits items).countP Option.isSome ∧
    ∀ (edits' : List (Edit β)) (items' : List β),
      edits'.map shape = edits.map shape → items'.length = items.length →
      faults edits' items' = faults edits items ∧
      (applyAll edits' items').2 = (applyAll edits items).2 ∧
      (applyAll edits' items').1.length = (applyAll edits items).1.length := by
  refine ⟨applyAll_map f edits items, faults_map f edits items, snd_applyAll_eq edits items,
    fun edits' items' hs hi => ⟨faults_congr hs hi, ?_, length_applyAll_congr hs hi⟩⟩
  rw [snd_applyAll_eq, snd_applyAll_eq, faults_congr hs hi]

/-- Numbers in the place of texts: the same two edits are skipped. -/
theorem applyAll_natural_of_misfits :
    let edits : List (Edit String) := [.removeAt 7, .pushBack "b", .clear, .popBack, .pushFront "c"]
    let edits' : List (Edit Nat) := [.removeAt 7, .pushBack 1, .clear, .popBack, .pushFront 2]
    edits'.map shape = edits.map shape ∧ [0].length = ["a"].length ∧
    faults edits' [0] = [some (.outOfBounds 7 1), none, none, some .emptySequence, none] ∧
    (applyAll edits' [0]).2 = 2 ∧ (applyAll edits' [0]).1.length = 1 := by
  intro edits edits'
  have hs : edits'.map shape = edits.map shape := rfl
  obtain ⟨-, -, -, h⟩ := applyAll_natural String.length edits ["a"]
  obtain ⟨hf, hn, hl⟩ := h edits' [0] hs rfl
  exact ⟨hs, rfl, hf.trans (by decide), hn.trans (by decide), hl.trans (by decide)⟩

end LiveRooms.Edit
