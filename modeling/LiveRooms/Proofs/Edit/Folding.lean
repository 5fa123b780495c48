import LiveRooms.Proofs.Edit.InRange

/-!
# Batches in parts

A batch does what its parts do one after the other, down to single edits, and the edits that are
skipped add up (`applyAll_append`, `applyAll_eq_foldl`).  What comes after an edit that forgets
does not depend on the list that the batch found (`drop_attempts_of_forgets`).
-/

namespace LiveRooms.Edit

variable {α : Type} {edit : Edit α}

/-- Whether the edit did not fit. -/
def Attempt.isSkipped (a : Attempt α) : Bool := !a.result.isOk

/-- The list after an edit, which is skipped if it does not fit. -/
def tried (items : List α) (edit : Edit α) : List α := (Attempt.mk edit items).after

/-- To try the edits one at a time and to count those that do not fit is to apply the batch. -/
theorem applyAll_eq_foldl (edits : List (Edit α)) (items : List α) :
    applyAll edits items =
      (edits.foldl tried items, (attempts edits items).countP Attempt.isSkipped) := by
  induction edits generalizing items with
  | nil => rfl
  | cons edit edits ih =>
    rw [applyAll, attempts, List.foldl_cons, List.countP_cons, tried, Attempt.after,
      Attempt.isSkipped, Attempt.result]
    cases edit.apply items with
    | ok items' => exact ih items'
    | error fault =>
      dsimp only
      rw [ih]
      rfl

@[simp] theorem length_attempts (edits : List (Edit α)) (items : List α) :
    (attempts edits items).length = edits.length := by
  induction edits generalizing items with
  | nil => rfl
  | cons edit edits ih => rw [attempts, List.length_cons, List.length_cons, ih]

theorem attempts_append (edits edits' : List (Edit α)) (items : List α) :
    attempts (edits ++ edits') items =
      attempts edits items ++ attempts edits' (edits.foldl tried items) := by
  induction edits generalizing items with
  | nil => rfl
  | cons edit edits ih => rw [List.cons_append, attempts, ih]; rfl

theorem tried_of_forgets (hf : edit.forgets = true) (items items' : List α) :
    tried items edit = tried items' edit := by
  have h : ∀ items, tried items edit = edit.edited items := by
    intro items
    rw [tried, Attempt.after, Attempt.result,
      apply_eq_ok_iff.2 ⟨check_of_forgets hf items.length, rfl⟩]
  rw [h, h, edited_of_forgets hf items items']

/-- An edit that forgets leaves one list, whatever was there before. -/
theorem foldl_tried_of_forgets (hf : edit.forgets = true) (before : List (Edit α))
    (items items' : List α) :
    (before ++ [edit]).foldl tried items = (before ++ [edit]).foldl tried items' := by
  rw [List.foldl_append, List.foldl_append]
  exact tried_of_forgets hf _ _

/-- The attempts after an edit that forgets are the same, whatever was there before. -/
theorem drop_attempts_of_forgets (hf : edit.forgets = true) (before after : List (Edit α))
    (items items' : List α) :
    (attempts (before ++ edit :: after) items).drop (before.length + 1) =
      (attempts (before ++ edit :: after) items').drop (before.length + 1) := by
  have hdrop : ∀ items, (attempts (before ++ edit :: after) items).drop (before.length + 1) =
      attempts after ((before ++ [edit]).foldl tried items) := by
    intro items
    rw [List.append_cons, attempts_append]
    exact List.drop_left' (by simp)
  rw [hdrop, hdrop, foldl_tried_of_forgets hf before items items']

/-- A batch does what its parts do one after the other, and what its edits do when they are tried
one at a time; the edits that are skipped add up.  Two lists, however different, become one by a
batch that holds an edit that forgets, and from then on each edit is tried on the same list, and
skipped or applied alike. -/
theorem applyAll_composes_and_forgets (edits edits' : List (Edit α)) (items items' : List α) :
    (applyAll (edits ++ edits') items =
      let first := applyAll edits items
      let second := applyAll edits' first.1
      (second.1, first.2 + second.2)) ∧
    (applyAll edits items =
      (edits.foldl tried items, (attempts edits items).countP Attempt.isSkipped)) ∧
    ∀ before edit after, edits = before ++ edit :: after → edit.forgets = true →
      (applyAll edits items).1 = (applyAll edits items').1 ∧
      (attempts edits items).drop (before.length + 1) =
        (attempts edits items').drop (before.length + 1) := by
  refine ⟨applyAll_append edits edits' items, applyAll_eq_foldl edits items, ?_⟩
  rintro before edit after rfl hf
  refine ⟨?_, drop_attempts_of_forgets hf before after items items'⟩
  rw [List.append_cons, fst_applyAll_append (before ++ [edit]),
    fst_applyAll_append (before ++ [edit]), applyAll_eq_foldl (before ++ [edit]),
    applyAll_eq_foldl (before ++ [edit]), foldl_tried_of_forgets hf before items items']

/-- After the list was cut down to nothing, the same edit is skipped whatever the list was. -/
theorem applyAll_after_truncate :
    let edits : List (Edit String) := [.removeAt 1, .truncate 0, .pushBack "c", .removeAt 1]
    (applyAll edits ["a"]).1 = (applyAll edits ["a", "b"]).1 ∧
    (attempts edits ["a"]).drop 2 = (attempts edits ["a", "b"]).drop 2 ∧
    (applyAll edits ["a"], applyAll edits ["a", "b"]) = ((["c"], 2), (["c"], 1)) := by
  intro edits
  obtain ⟨-, -, h⟩ := applyAll_composes_and_forgets edits [] ["a"] ["a", "b"]
  obtain ⟨hl, ha⟩ := h [.removeAt 1] (.truncate 0) [.pushBack "c", .removeAt 1] rfl rfl
  exact ⟨hl, ha, rfl⟩

end LiveRooms.Edit
