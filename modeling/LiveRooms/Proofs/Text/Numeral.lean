import LiveRooms.Text.Numeral
import Mathlib.Data.List.Basic

/-!
# Which numerals are read

`Writes cs n` says that a text is a decimal numeral of `n`, and `Overflows bound cs` that its leading
digits alone have a value that reaches the bound; neither mentions how numerals are read.  A numeral
is read as `n` exactly when it writes `n` and `n` lies below the bound (`parse_eq_ok_iff`).  It is
refused as too large exactly when it overflows, so a bad character counts only if the digits before
it stay below the bound (`parse_eq_tooLarge_iff`).
-/

namespace LiveRooms.Numeral

variable {bound value n : Nat} {cs : List Char} {c : Char}

/-- The text is a decimal numeral of `n`: an optional plus sign and one or more ASCII digits, leading
zeros allowed. -/
def Writes (cs : List Char) (n : Nat) : Prop :=
  ∃ ds, (cs = ds ∨ cs = '+' :: ds) ∧ ds ≠ [] ∧ (∀ c ∈ ds, c.isDigit = true) ∧
    Nat.ofDigitChars 10 ds 0 = n

/-- Some digits at the beginning of the text, after the sign, have a value that reaches the
bound. -/
def Overflows (bound : Nat) (cs : List Char) : Prop :=
  ∃ ds rest, (cs = ds ++ rest ∨ cs = '+' :: (ds ++ rest)) ∧ (∀ c ∈ ds, c.isDigit = true) ∧
    bound ≤ Nat.ofDigitChars 10 ds 0

/-- The text without its plus sign. -/
def unsigned : List Char → List Char
  | '+' :: cs => cs
  | cs => cs

/-! ## Digits -/

theorem digit?_eq (c : Char) :
    digit? c = if c.isDigit = true then some (c.toNat - '0'.toNat) else none := by
  simp only [digit?, Char.isDigit_iff_toNat]
  rfl

theorem digitsFrom_cons (hc : c.isDigit = true) :
    digitsFrom bound value (c :: cs) =
      if 10 * value + (c.toNat - '0'.toNat) < bound then
        digitsFrom bound (10 * value + (c.toNat - '0'.toNat)) cs
      else .error .tooLarge := by
  rw [digitsFrom, digit?_eq, if_pos hc]

theorem digitsFrom_cons_of_not (hc : ¬ c.isDigit = true) :
    digitsFrom bound value (c :: cs) = .error .badDigit := by
  rw [digitsFrom, digit?_eq, if_neg hc]

/-- More digits do not make a value smaller. -/
theorem le_ofDigitChars (cs : List Char) (value : Nat) : value ≤ Nat.ofDigitChars 10 cs value := by
  induction cs generalizing value with
  | nil => exact Nat.le_refl value
  | cons c cs ih =>
    rw [Nat.ofDigitChars_cons]
    exact Nat.le_trans (by omega) (ih _)

theorem digitsFrom_eq_ok_iff (hv : value < bound) :
    digitsFrom bound value cs = .ok n ↔
      (∀ c ∈ cs, c.isDigit = true) ∧ Nat.ofDigitChars 10 cs value = n ∧ n < bound := by
  induction cs generalizing value with
  | nil =>
    constructor
    · rintro ⟨⟩
      exact ⟨nofun, rfl, hv⟩
    · rintro ⟨-, rfl, -⟩
      rfl
  | cons c cs ih =>
    rw [List.forall_mem_cons, Nat.ofDigitChars_cons]
    by_cases hc : c.isDigit = true
    · rw [digitsFrom_cons hc]
      split
      · rename_i hlt
        rw [ih hlt]
        simp [hc]
      · rename_i hge
        refine iff_of_false nofun ?_
        rintro ⟨-, rfl, hn⟩
        exact hge (Nat.lt_of_le_of_lt (le_ofDigitChars cs _) hn)
    · rw [digitsFrom_cons_of_not hc]
      exact iff_of_false nofun fun h => hc h.1.1

theorem digitsFrom_eq_tooLarge_iff (hv : value < bound) :
    digitsFrom bound value cs = .error .tooLarge ↔
      ∃ ds rest, cs = ds ++ rest ∧ (∀ c ∈ ds, c.isDigit = true) ∧
        bound ≤ Nat.ofDigitChars 10 ds value := by
  induction cs generalizing value with
  | nil =>
    refine iff_of_false nofun ?_
    rintro ⟨ds, rest, h, -, hle⟩
    obtain ⟨rfl, rfl⟩ := List.append_eq_nil_iff.1 h.symm
    exact absurd hle (Nat.not_le.2 hv)
  | cons c cs ih =>
    -- The leading digits are none, which is too small a value, or they begin with `c`.
    have hcons : (∃ ds rest, c :: cs = ds ++ rest ∧ (∀ c ∈ ds, c.isDigit = true) ∧
          bound ≤ Nat.ofDigitChars 10 ds value) ↔
        c.isDigit = true ∧ ∃ ds rest, cs = ds ++ rest ∧ (∀ c ∈ ds, c.isDigit = true) ∧
          bound ≤ Nat.ofDigitChars 10 ds (10 * value + (c.toNat - '0'.toNat)) := by
      constructor
      · rintro ⟨ds, rest, h, hds, hle⟩
        cases ds with
        | nil => exact absurd hle (Nat.not_le.2 hv)
        | cons d ds =>
          obtain ⟨rfl, rfl⟩ := List.cons.inj h
          obtain ⟨hc, hds⟩ := List.forall_mem_cons.1 hds
          exact ⟨hc, ds, rest, rfl, hds, hle⟩
      · rintro ⟨hc, ds, rest, rfl, hds, hle⟩
        exact ⟨c :: ds, rest, rfl, List.forall_mem_cons.2 ⟨hc, hds⟩, hle⟩
    rw [hcons]
    by_cases hc : c.isDigit = true
    · rw [digitsFrom_cons hc, and_iff_right hc]
      split
      · rename_i hlt
        exact ih hlt
      · rename_i hge
        exact iff_of_true rfl ⟨[], cs, rfl, nofun, Nat.not_lt.1 hge⟩
    · rw [digitsFrom_cons_of_not hc]
      exact iff_of_false nofun fun h => hc h.1

/-! ## Signs -/

theorem unsigned_of_ne (h : ∀ rest, cs ≠ '+' :: rest) : unsigned cs = cs := by
  unfold unsigned
  split
  · exact absurd rfl (h _)
  · rfl

theorem unsigned_of_isDigit {ds : List Char} (hd : ∀ c ∈ ds, c.isDigit = true) (hn : ds ≠ [])
    (rest : List Char) : unsigned (ds ++ rest) = ds ++ rest := by
  cases ds with
  | nil => exact absurd rfl hn
  | cons d ds =>
    refine unsigned_of_ne fun rest' h => ?_
    have hp := hd d List.mem_cons_self
    rw [(List.cons.inj h).1] at hp
    exact absurd hp (by decide)

theorem eq_unsigned_or (cs : List Char) : cs = unsigned cs ∨ cs = '+' :: unsigned cs := by
  unfold unsigned
  split
  · exact Or.inr rfl
  · exact Or.inl rfl

theorem writes_iff : Writes cs n ↔
    unsigned cs ≠ [] ∧ (∀ c ∈ unsigned cs, c.isDigit = true) ∧
      Nat.ofDigitChars 10 (unsigned cs) 0 = n := by
  constructor
  · rintro ⟨ds, rfl | rfl, hn, hd, hv⟩
    · have hu := unsigned_of_isDigit hd hn []
      rw [List.append_nil] at hu
      rw [hu]
      exact ⟨hn, hd, hv⟩
    · exact ⟨hn, hd, hv⟩
  · rintro ⟨hn, hd, hv⟩
    exact ⟨unsigned cs, eq_unsigned_or cs, hn, hd, hv⟩

instance : Decidable (Writes cs n) :=
  decidable_of_iff
    (unsigned cs ≠ [] ∧ (unsigned cs).all Char.isDigit = true ∧
      Nat.ofDigitChars 10 (unsigned cs) 0 = n)
    (by rw [writes_iff, List.all_eq_true])

theorem overflows_iff (hb : 0 < bound) : Overflows bound cs ↔
    ∃ ds rest, unsigned cs = ds ++ rest ∧ (∀ c ∈ ds, c.isDigit = true) ∧
      bound ≤ Nat.ofDigitChars 10 ds 0 := by
  constructor
  · rintro ⟨ds, rest, rfl | rfl, hd, hle⟩
    · have hn : ds ≠ [] := by
        rintro rfl
        exact absurd hle (Nat.not_le.2 hb)
      exact ⟨ds, rest, unsigned_of_isDigit hd hn rest, hd, hle⟩
    · exact ⟨ds, rest, rfl, hd, hle⟩
  · rintro ⟨ds, rest, h, hd, hle⟩
    refine ⟨ds, rest, ?_, hd, hle⟩
    rw [← h]
    exact eq_unsigned_or cs

/-! ## Numerals -/

theorem parse_eq (bound : Nat) (cs : List Char) : parse bound cs = digits bound (unsigned cs) := by
  unfold parse
  split
  · rfl
  · rename_i h
    rw [unsigned_of_ne h]

theorem digits_eq (hn : cs ≠ []) : digits bound cs = digitsFrom bound 0 cs := by
  cases cs with
  | nil => exact absurd rfl hn
  | cons c cs => rfl

theorem parse_eq_ok_iff (hb : 0 < bound) : parse bound cs = .ok n ↔ Writes cs n ∧ n < bound := by
  rw [parse_eq, writes_iff]
  by_cases hn : unsigned cs = []
  · rw [hn]
    exact iff_of_false nofun fun h => h.1.1 rfl
  · rw [digits_eq hn, digitsFrom_eq_ok_iff hb]
    simp only [ne_eq, hn, not_false_eq_true, true_and, and_assoc]

theorem parse_eq_tooLarge_iff (hb : 0 < bound) :
    parse bound cs = .error .tooLarge ↔ Overflows bound cs := by
  rw [parse_eq, overflows_iff hb]
  by_cases hn : unsigned cs = []
  · rw [hn]
    refine iff_of_false nofun ?_
    rintro ⟨ds, rest, h, -, hle⟩
    obtain ⟨rfl, rfl⟩ := List.append_eq_nil_iff.1 h.symm
    exact absurd hle (Nat.not_le.2 hb)
  · rw [digits_eq hn, digitsFrom_eq_tooLarge_iff hb]

theorem overflows_of_writes (h : Writes cs n) (hn : bound ≤ n) : Overflows bound cs := by
  obtain ⟨ds, hcs, -, hd, rfl⟩ := h
  refine ⟨ds, [], ?_, hd, hn⟩
  rwa [List.append_nil]

/-- A text is refused for a bad character exactly when it is no numeral and its digits stay below
the bound. -/
theorem parse_eq_badDigit_iff (hb : 0 < bound) :
    parse bound cs = .error .badDigit ↔ ¬ Overflows bound cs ∧ ∀ n, ¬ Writes cs n := by
  constructor
  · intro h
    have hno : ¬ Overflows bound cs := fun ho => by
      rw [(parse_eq_tooLarge_iff hb).2 ho] at h
      cases h
    refine ⟨hno, fun n hw => ?_⟩
    have hlt : n < bound := Nat.not_le.1 fun hle => hno (overflows_of_writes hw hle)
    rw [(parse_eq_ok_iff hb).2 ⟨hw, hlt⟩] at h
    cases h
  · rintro ⟨hno, hnw⟩
    cases hp : parse bound cs with
    | ok n => exact absurd ((parse_eq_ok_iff hb).1 hp).1 (hnw n)
    | error fault =>
      cases fault with
      | badDigit => rfl
      | tooLarge => exact absurd ((parse_eq_tooLarge_iff hb).1 hp) hno

theorem isDigit_or_eq_of_mem (h : Writes cs n) (hc : c ∈ cs) : c.isDigit = true ∨ c = '+' := by
  obtain ⟨ds, rfl | rfl, -, hd, -⟩ := h
  · exact Or.inl (hd c hc)
  · rcases List.mem_cons.1 hc with rfl | hc
    · exact Or.inr rfl
    · exact Or.inl (hd c hc)

/-- Every number has a numeral. -/
theorem writes_repr (n : Nat) : Writes n.repr.toList n := by
  rw [Nat.toList_repr]
  exact ⟨_, Or.inl rfl, Nat.toDigits_ne_nil,
    fun c hc => Nat.isDigit_of_mem_toDigits (by decide) (by decide) hc,
    Nat.ofDigitChars_ten_toDigits⟩

end LiveRooms.Numeral
