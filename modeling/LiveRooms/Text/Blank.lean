/-!
# Blank characters and trimming

The blank characters are those with the property White_Space of the Unicode standard.  Trimming
takes them away at both ends of a text (`trimmed_eq`) and nowhere else.
-/

namespace LiveRooms.Text

/-- A character with the Unicode property White_Space. -/
def isBlank (c : Char) : Bool :=
  let n := c.toNat
  (9 ≤ n && n ≤ 13) || n == 0x20 || n == 0x85 || n == 0xA0 || n == 0x1680 ||
    (0x2000 ≤ n && n ≤ 0x200A) || n == 0x2028 || n == 0x2029 || n == 0x202F || n == 0x205F ||
    n == 0x3000

/-- The text without the blank characters at its end. -/
def dropBlankEnd (cs : List Char) : List Char := (cs.reverse.dropWhile isBlank).reverse

/-- The text without the blank characters at its two ends. -/
def trimmed (cs : List Char) : List Char := dropBlankEnd (cs.dropWhile isBlank)

/-- The string without the blank characters at its two ends. -/
def trim (s : String) : String := String.ofList (trimmed s.toList)

theorem dropBlankEnd_eq (cs : List Char) :
    ∃ tail, cs = dropBlankEnd cs ++ tail ∧ ∀ c ∈ tail, isBlank c = true := by
  refine ⟨(cs.reverse.takeWhile isBlank).reverse, ?_, fun c hc => ?_⟩
  · rw [dropBlankEnd, ← List.reverse_append, List.takeWhile_append_dropWhile, List.reverse_reverse]
  · exact List.all_eq_true.1 List.all_takeWhile c (List.mem_reverse.1 hc)

/-- What trimming takes away is blank. -/
theorem trimmed_eq (cs : List Char) :
    ∃ head tail, cs = head ++ trimmed cs ++ tail ∧ (∀ c ∈ head, isBlank c = true) ∧
      ∀ c ∈ tail, isBlank c = true := by
  obtain ⟨tail, h, ht⟩ := dropBlankEnd_eq (cs.dropWhile isBlank)
  refine ⟨cs.takeWhile isBlank, tail, ?_,
    fun c hc => List.all_eq_true.1 List.all_takeWhile c hc, ht⟩
  calc cs = cs.takeWhile isBlank ++ cs.dropWhile isBlank := (List.takeWhile_append_dropWhile).symm
    _ = cs.takeWhile isBlank ++ (trimmed cs ++ tail) := by rw [trimmed, ← h]
    _ = _ := by rw [List.append_assoc]

end LiveRooms.Text
