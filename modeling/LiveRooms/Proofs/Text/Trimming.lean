import LiveRooms.Text.Blank
import LiveRooms.Text.Case
import Mathlib.Data.List.Forall2
import Mathlib.Data.List.TakeWhile

/-!
# What is read of a text

Around a text there may be blank characters, and ASCII letters may be small or capital.  `HasCore`
and `SameLetters` say so without reference to the functions: trimming finds the core of a text, and
there is only one (`trimmed_eq_iff`), and a text whose capitals are made small is a word exactly when
the two have the same letters (`lowered_eq_iff`).
-/

namespace LiveRooms.Text

variable {cs core : List Char} {c d : Char}

/-! ## Blank characters around a text -/

/-- The text neither begins nor ends with a blank character. -/
def IsTrimmed (cs : List Char) : Prop :=
  cs.head?.any isBlank = false ∧ cs.getLast?.any isBlank = false

/-- The text is the trimmed text `core` between blank characters. -/
def HasCore (cs core : List Char) : Prop :=
  IsTrimmed core ∧ ∃ head tail, cs = head ++ core ++ tail ∧ (∀ c ∈ head, isBlank c = true) ∧
    ∀ c ∈ tail, isBlank c = true

theorem isTrimmed_of_forall (h : ∀ c ∈ cs, isBlank c = false) : IsTrimmed cs := by
  have hany {o : Option Char} (ho : ∀ c ∈ o, c ∈ cs) : o.any isBlank = false := by
    cases o with
    | none => rfl
    | some c => exact h c (ho c rfl)
  exact ⟨hany fun _ => List.mem_of_mem_head?, hany fun _ => List.mem_of_mem_getLast?⟩

/-- Among the blank characters there is none of the ASCII characters that show. -/
theorem isBlank_eq_false (h : 32 < c.toNat) (h' : c.toNat < 127) : isBlank c = false := by
  simp only [isBlank, Bool.or_eq_false_iff, Bool.and_eq_false_iff, decide_eq_false_iff_not,
    beq_eq_false_iff_ne]
  omega

theorem any_head?_dropWhile (cs : List Char) :
    (cs.dropWhile isBlank).head?.any isBlank = false := by
  have h := List.head?_dropWhile_not isBlank cs
  cases hd : (cs.dropWhile isBlank).head? with
  | none => rfl
  | some c =>
    rw [hd] at h
    exact h

theorem isTrimmed_trimmed (cs : List Char) : IsTrimmed (trimmed cs) := by
  constructor
  · -- What the end loses does not change the beginning.
    obtain ⟨tail, ht, -⟩ := dropBlankEnd_eq (cs.dropWhile isBlank)
    have hh := any_head?_dropWhile cs
    rw [ht] at hh
    change (trimmed cs ++ tail).head?.any isBlank = false at hh
    cases hc : trimmed cs with
    | nil => rfl
    | cons c rest =>
      rw [hc] at hh
      exact hh
  · rw [trimmed, dropBlankEnd, List.getLast?_reverse]
    exact any_head?_dropWhile _

theorem dropWhile_isBlank_of_isTrimmed (h : IsTrimmed core) (hn : core ≠ []) (tail : List Char) :
    (core ++ tail).dropWhile isBlank = core ++ tail := by
  cases core with
  | nil => exact absurd rfl hn
  | cons c core =>
    have hc : isBlank c = false := h.1
    exact List.dropWhile_cons_of_neg (by simp [hc])

/-- Only one text can be the core. -/
theorem trimmed_of_hasCore (h : HasCore cs core) : trimmed cs = core := by
  obtain ⟨hc, head, tail, rfl, hh, ht⟩ := h
  rw [trimmed, List.append_assoc, List.dropWhile_append_of_pos hh]
  by_cases hn : core = []
  · subst hn
    rw [List.nil_append, List.dropWhile_eq_nil_iff.2 ht]
    rfl
  · have hr : IsTrimmed core.reverse := by
      rw [IsTrimmed, List.head?_reverse, List.getLast?_reverse]
      exact hc.symm
    rw [dropWhile_isBlank_of_isTrimmed hc hn, dropBlankEnd, List.reverse_append,
      List.dropWhile_append_of_pos fun c hm => ht c (List.mem_reverse.1 hm)]
    have := dropWhile_isBlank_of_isTrimmed hr (by simpa using hn) []
    rw [List.append_nil] at this
    rw [this, List.reverse_reverse]

/-- Trimming finds the core of a text. -/
theorem trimmed_eq_iff : trimmed cs = core ↔ HasCore cs core := by
  refine ⟨?_, trimmed_of_hasCore⟩
  rintro rfl
  exact ⟨isTrimmed_trimmed cs, trimmed_eq cs⟩

theorem trim_eq_iff {s value : String} : trim s = value ↔ HasCore s.toList value.toList := by
  rw [← trimmed_eq_iff, trim, ← String.toList_inj, String.toList_ofList]

/-! ## Letter case -/

/-- The first character is an ASCII capital, and the second one is the same letter written small. -/
def IsCapitalOf (c d : Char) : Prop := c.isUpper = true ∧ d.toNat = c.toNat + 32

/-- The characters are the same, or the same ASCII letter. -/
def SameLetter (c d : Char) : Prop := c = d ∨ IsCapitalOf c d ∨ IsCapitalOf d c

/-- The texts are the same up to the case of ASCII letters. -/
def SameLetters : List Char → List Char → Prop := List.Forall₂ SameLetter

theorem isUpper_iff : c.isUpper = true ↔ 'A'.val ≤ c.val ∧ c.val ≤ 'Z'.val :=
  decide_eq_true_iff

theorem toNat_toLower_of_isUpper (h : c.isUpper = true) : c.toLower.toNat = c.toNat + 32 := by
  obtain ⟨h1, h2⟩ := isUpper_iff.1 h
  have hc : c.val.toNat ≤ 90 := UInt32.le_iff_toNat_le.1 h2
  calc c.toLower.toNat = (c.val + 32).toNat := congrArg Char.toNat (dif_pos ⟨h1, h2⟩)
    _ = (c.val.toNat + 32) % 2 ^ 32 := UInt32.toNat_add c.val 32
    _ = c.val.toNat + 32 := by omega

theorem toLower_of_not_isUpper (h : ¬ c.isUpper = true) : c.toLower = c :=
  dif_neg fun h' => h (isUpper_iff.2 h')

theorem toLower_eq_iff (hd : d.isUpper = false) : c.toLower = d ↔ SameLetter c d := by
  have hdc : ¬ IsCapitalOf d c := fun h => absurd h.1 (by simp [hd])
  by_cases hc : c.isUpper = true
  · have hne : c ≠ d := by
      rintro rfl
      simp [hc] at hd
    rw [← Char.toNat_inj, toNat_toLower_of_isUpper hc]
    simp [SameLetter, IsCapitalOf, hne, hc, hd, eq_comm]
  · have hcd : ¬ IsCapitalOf c d := fun h => hc h.1
    rw [toLower_of_not_isUpper hc]
    simp [SameLetter, hcd, hdc]

theorem isBlank_of_isUpper (h : c.isUpper = true) : isBlank c = false := by
  obtain ⟨h1, h2⟩ := isUpper_iff.1 h
  have h1' : 65 ≤ c.toNat := UInt32.le_iff_toNat_le.1 h1
  have h2' : c.toNat ≤ 90 := UInt32.le_iff_toNat_le.1 h2
  exact isBlank_eq_false (by omega) (by omega)

/-- The character is neither an ASCII capital nor blank. -/
def isPlain (c : Char) : Bool := !c.isUpper && !isBlank c

/-- With the capitals made small a text is a plain word exactly when the two have the same
letters. -/
theorem lowered_eq_iff {s : String} {word : List Char} (hw : word.all isPlain = true) :
    lowered s = word ↔ SameLetters s.toList word := by
  unfold lowered SameLetters
  generalize s.toList = cs
  induction cs generalizing word with
  | nil => simp [eq_comm]
  | cons c cs ih =>
    cases word with
    | nil => simp
    | cons d word =>
      simp only [List.all_cons, Bool.and_eq_true, isPlain, Bool.not_eq_true'] at hw
      rw [List.map_cons, List.cons.injEq, List.forall₂_cons, toLower_eq_iff hw.1.1, ih hw.2]

/-- No blanks are added by writing a plain word with capitals. -/
theorem isTrimmed_of_sameLetters {word : List Char} (h : SameLetters cs word)
    (hw : word.all isPlain = true) : IsTrimmed cs := by
  refine isTrimmed_of_forall ?_
  induction h with
  | nil => nofun
  | @cons c d cs word hcd _ ih =>
    simp only [List.all_cons, Bool.and_eq_true, isPlain, Bool.not_eq_true'] at hw
    refine List.forall_mem_cons.2 ⟨?_, ih hw.2⟩
    rcases hcd with rfl | hcd | hdc
    · exact hw.1.2
    · exact isBlank_of_isUpper hcd.1
    · exact absurd hdc.1 (by simp [hw.1.1])

end LiveRooms.Text
