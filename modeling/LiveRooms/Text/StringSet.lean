/-!
# Sets of strings in ascending order

A set of strings is the list of its members in ascending order of code points, each once, so two
sets with the same members are equal (`StringSet.ext_mem`).
-/

namespace LiveRooms

/-- A finite set of strings. -/
structure StringSet where
  /-- The members, in ascending order. -/
  toList : List String
  ascending : toList.Pairwise (· < ·)
  deriving DecidableEq, Repr

namespace StringSet

/-- Puts a string at its place in an ascending list, unless it is there already. -/
def insertSorted (s : String) : List String → List String
  | [] => [s]
  | t :: ts =>
    if s < t then s :: t :: ts
    else if s = t then t :: ts
    else t :: insertSorted s ts

theorem mem_insertSorted {x s : String} {ts : List String} :
    x ∈ insertSorted s ts ↔ x = s ∨ x ∈ ts := by
  induction ts with
  | nil => simp [insertSorted]
  | cons t ts ih =>
    unfold insertSorted
    split
    · simp
    · split
      · rename_i h; subst h; simp
      · simp only [List.mem_cons, ih]
        constructor
        · rintro (h | h | h) <;> simp [h]
        · rintro (h | h | h) <;> simp [h]

theorem insertSorted_ascending (s : String) {ts : List String} (h : ts.Pairwise (· < ·)) :
    (insertSorted s ts).Pairwise (· < ·) := by
  induction ts with
  | nil => simp [insertSorted]
  | cons t ts ih =>
    rw [List.pairwise_cons] at h
    unfold insertSorted
    split
    · rename_i hs
      rw [List.pairwise_cons, List.pairwise_cons]
      refine ⟨fun x hx => ?_, h⟩
      rcases List.mem_cons.1 hx with rfl | hx
      · exact hs
      · exact String.lt_trans hs (h.1 x hx)
    · split
      · rw [List.pairwise_cons]; exact h
      · rename_i hs hne
        rw [List.pairwise_cons]
        refine ⟨fun x hx => ?_, ih h.2⟩
        rcases mem_insertSorted.1 hx with rfl | hx
        · exact Decidable.byContradiction fun hn =>
            hne (String.le_antisymm (String.not_lt.1 hn) (String.not_lt.1 hs))
        · exact h.1 x hx

/-- The set without members. -/
def empty : StringSet := ⟨[], .nil⟩

/-- Adds a member. -/
def insert (s : String) (set : StringSet) : StringSet :=
  ⟨insertSorted s set.toList, insertSorted_ascending s set.ascending⟩

/-- The set of the strings in a list. -/
def ofList (ss : List String) : StringSet := ss.foldr insert empty

instance : Inhabited StringSet := ⟨empty⟩

@[simp] theorem mem_ofList {x : String} {ss : List String} : x ∈ (ofList ss).toList ↔ x ∈ ss := by
  induction ss with
  | nil => simp [ofList, empty]
  | cons s ss ih =>
    change x ∈ insertSorted s (ofList ss).toList ↔ _
    rw [mem_insertSorted, ih, List.mem_cons]

theorem eq_of_ascending {xs ys : List String} (hx : xs.Pairwise (· < ·)) (hy : ys.Pairwise (· < ·))
    (h : ∀ s, s ∈ xs ↔ s ∈ ys) : xs = ys := by
  induction xs generalizing ys with
  | nil =>
    cases ys with
    | nil => rfl
    | cons y ys => exact absurd ((h y).2 (by simp)) (by simp)
  | cons x xs ih =>
    cases ys with
    | nil => exact absurd ((h x).1 (by simp)) (by simp)
    | cons y ys =>
      rw [List.pairwise_cons] at hx hy
      have hxy : x = y := by
        rcases List.mem_cons.1 ((h x).1 (by simp)) with e | e
        · exact e
        · rcases List.mem_cons.1 ((h y).2 (by simp)) with e' | e'
          · exact e'.symm
          · exact absurd (hy.1 x e) (String.lt_asymm (hx.1 y e'))
      subst hxy
      congr 1
      refine ih hx.2 hy.2 fun s => ⟨fun hs => ?_, fun hs => ?_⟩
      · rcases List.mem_cons.1 ((h s).1 (List.mem_cons_of_mem _ hs)) with e | e
        · exact absurd (hx.1 s hs) (e ▸ String.lt_irrefl _)
        · exact e
      · rcases List.mem_cons.1 ((h s).2 (List.mem_cons_of_mem _ hs)) with e | e
        · exact absurd (hy.1 s hs) (e ▸ String.lt_irrefl _)
        · exact e

/-- Sets with the same members are equal. -/
theorem ext_mem {a b : StringSet} (h : ∀ s, s ∈ a.toList ↔ s ∈ b.toList) : a = b := by
  obtain ⟨xs, hx⟩ := a
  obtain ⟨ys, hy⟩ := b
  simp only [mk.injEq]
  exact eq_of_ascending hx hy h

theorem ofList_eq_ofList_iff {ss ts : List String} :
    ofList ss = ofList ts ↔ ∀ s, s ∈ ss ↔ s ∈ ts := by
  constructor
  · intro h s
    rw [← mem_ofList, h, mem_ofList]
  · intro h
    exact ext_mem fun s => by rw [mem_ofList, mem_ofList, h]

@[simp] theorem ofList_toList (a : StringSet) : ofList a.toList = a :=
  ext_mem fun _ => mem_ofList

end StringSet

end LiveRooms
