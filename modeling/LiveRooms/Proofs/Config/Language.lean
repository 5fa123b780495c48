import LiveRooms.Config
import LiveRooms.Proofs.Text.Numeral
import LiveRooms.Proofs.Text.Trimming

/-!
# The language of the settings

Each field of a configuration has a setting (`fields`), and a setting that is there and not blank has
to spell a value of the field's kind (`Kind.Spells`); what it spells does not depend on the blanks
around it (`Environment.Holds`).
-/

namespace LiveRooms.Config

/-! ## What a value may be -/

/-- The kinds of values. -/
inductive Kind where
  | text
  | number32
  | number64
  | switch
  deriving DecidableEq

/-- The values of a kind. -/
@[reducible] def Kind.Value : Kind → Type
  | text => String
  | number32 => UInt32
  | number64 => UInt64
  | switch => Bool

/-- The words for a truth value. -/
def wordsFor : Bool → List String
  | true => ["1", "true", "yes", "on"]
  | false => ["0", "false", "no", "off"]

/-- A text without blanks around it spells a value. -/
def Kind.Spells : (k : Kind) → String → k.Value → Prop
  | text, s, x => s = x
  | number32, s, n => Numeral.Writes s.toList n.toNat
  | number64, s, n => Numeral.Writes s.toList n.toNat
  | switch, s, b => ∃ word ∈ wordsFor b, Text.SameLetters s.toList word.toList

/-- A text is no numeral below the bound, and why. -/
inductive NoNumeral (bound : Nat) (s : String) : String → Prop where
  | overflow (h : Numeral.Overflows bound s.toList) :
      NoNumeral bound s "number too large to fit in target type"
  | badCharacter (h : ¬ Numeral.Overflows bound s.toList)
      (hn : ∀ n, ¬ Numeral.Writes s.toList n) :
      NoNumeral bound s "invalid digit found in string"

/-- A text without blanks around it spells no value, and why. -/
def Kind.Refuses : Kind → String → String → Prop
  | text, _, _ => False
  | number32, s, reason => NoNumeral UInt32.size s reason
  | number64, s, reason => NoNumeral UInt64.size s reason
  | switch, s, reason =>
    (∀ b, ∀ word ∈ wordsFor b, ¬ Text.SameLetters s.toList word.toList) ∧
      reason = "expected a boolean"

/-! ## Where the values are -/

/-- A field of the configuration and the setting that it is read from. -/
structure Field where
  key : String
  kind : Kind
  get : Config → kind.Value
  set : kind.Value → Config → Config

/-- The fields, in the order in which their settings are asked for. -/
def fields : List Field :=
  [⟨"ROOMLIST_NAME", .text, name, fun x c => { c with name := x }⟩,
    ⟨"ROOMLIST_PAGE_SIZE", .number32, pageSize, fun x c => { c with pageSize := x }⟩,
    ⟨"ROOMLIST_BATCH_WINDOW_MS", .number64, batchWindow, fun x c => { c with batchWindow := x }⟩,
    ⟨"ROOMLIST_PAGINATION_THROTTLE_MS", .number64, paginationThrottle,
      fun x c => { c with paginationThrottle := x }⟩,
    ⟨"ROOMLIST_SUBSCRIPTION_DEBOUNCE_MS", .number64, subscriptionDebounce,
      fun x c => { c with subscriptionDebounce := x }⟩,
    ⟨"ROOMLIST_MAX_VISIBLE_RANGE", .number64, maxVisible, fun x c => { c with maxVisible := x }⟩,
    ⟨"ROOMLIST_MANAGE_SUBSCRIPTIONS", .switch, managesSubscriptions,
      fun x c => { c with managesSubscriptions := x }⟩,
    ⟨"ROOMLIST_FUZZY_SEARCH", .switch, fun c => c.filterSettings.fuzzySearch,
      fun x c => { c with filterSettings := { c.filterSettings with fuzzySearch := x } }⟩,
    ⟨"ROOMLIST_LOW_PRIORITY_FILTER", .switch, fun c => c.filterSettings.hideLowPriority,
      fun x c => { c with filterSettings := { c.filterSettings with hideLowPriority := x } }⟩]

/-- The setting is missing or blank. -/
def Environment.IsSilent (env : Environment) (key : String) : Prop :=
  ∀ s, env key = some s → Text.HasCore s.toList []

/-- The setting is not blank, and this is its value without the blanks around it. -/
def Environment.Holds (env : Environment) (key value : String) : Prop :=
  value ≠ "" ∧ ∃ s, env key = some s ∧ Text.HasCore s.toList value.toList

/-- What the environment says of a field is `x`: its setting spells `x`, or there is none and `x` is
the default. -/
def Field.Gives (f : Field) (env : Environment) (default x : f.kind.Value) : Prop :=
  (env.IsSilent f.key ∧ x = default) ∨ ∃ value, env.Holds f.key value ∧ f.kind.Spells value x

variable {env : Environment} {key value s reason : String}

theorem value?_eq_some_iff : env.value? key = some value ↔ env.Holds key value := by
  unfold Environment.value? Environment.Holds
  rw [Option.filter_eq_some_iff, Option.map_eq_some_iff, and_comm]
  simp [Text.trim_eq_iff]

theorem value?_eq_none_iff : env.value? key = none ↔ env.IsSilent key := by
  unfold Environment.value? Environment.IsSilent
  have hs (s : String) : Text.HasCore s.toList [] ↔ Text.trim s = "" := by
    rw [Text.trim_eq_iff, String.toList_empty]
  rw [Option.filter_eq_none_iff]
  simp [hs]

/-! ## What the settings do -/

theorem number_eq_ok_iff {bound n : Nat} (hb : 0 < bound) :
    number bound s = .ok n ↔ Numeral.Writes s.toList n ∧ n < bound := by
  rw [← Numeral.parse_eq_ok_iff hb, number]
  cases Numeral.parse bound s.toList <;> simp

theorem number_eq_error_iff {bound : Nat} (hb : 0 < bound) :
    number bound s = .error reason ↔ NoNumeral bound s reason := by
  have hno : NoNumeral bound s reason ↔
      (Numeral.parse bound s.toList = .error .tooLarge ∧ Numeral.Fault.tooLarge.message = reason) ∨
        Numeral.parse bound s.toList = .error .badDigit ∧
          Numeral.Fault.badDigit.message = reason := by
    rw [Numeral.parse_eq_tooLarge_iff hb, Numeral.parse_eq_badDigit_iff hb]
    constructor
    · rintro (h | ⟨h, hn⟩)
      · exact Or.inl ⟨h, rfl⟩
      · exact Or.inr ⟨⟨h, hn⟩, rfl⟩
    · rintro (⟨h, rfl⟩ | ⟨⟨h, hn⟩, rfl⟩)
      · exact .overflow h
      · exact .badCharacter h hn
  rw [hno, number]
  cases Numeral.parse bound s.toList with
  | ok n => simp
  | error fault => cases fault <;> simp

theorem all_isPlain_of_mem {b : Bool} {word : String} (h : word ∈ wordsFor b) :
    word.toList.all Text.isPlain = true := by
  revert h word
  cases b <;> decide

/-- The word for a truth value, in capitals or not. -/
theorem lowered_mem_iff (b : Bool) :
    Text.lowered s ∈ (wordsFor b).map String.toList ↔ Kind.switch.Spells s b := by
  rw [List.mem_map]
  refine exists_congr fun word => and_congr_right fun h => ?_
  rw [eq_comm, Text.lowered_eq_iff (all_isPlain_of_mem h)]

theorem flag_eq_ok_iff {b : Bool} : flag s = .ok b ↔ Kind.switch.Spells s b := by
  have hd : ∀ word ∈ (wordsFor true).map String.toList,
      word ∉ (wordsFor false).map String.toList := by decide
  have hf : flag s = if Text.lowered s ∈ (wordsFor true).map String.toList then .ok true
      else if Text.lowered s ∈ (wordsFor false).map String.toList then .ok false
      else .error "expected a boolean" := rfl
  rw [← lowered_mem_iff, hf]
  split
  · rename_i ht
    cases b with
    | true => exact iff_of_true rfl ht
    | false => exact iff_of_false nofun (hd _ ht)
  · rename_i ht
    split
    · rename_i hff
      cases b with
      | true => exact iff_of_false nofun ht
      | false => exact iff_of_true rfl hff
    · rename_i hff
      cases b with
      | true => exact iff_of_false nofun ht
      | false => exact iff_of_false nofun hff

theorem flag_eq_error_iff : flag s = .error reason ↔ Kind.switch.Refuses s reason := by
  have hr : Kind.switch.Refuses s reason ↔
      (∀ b, ¬ flag s = .ok b) ∧ reason = "expected a boolean" := by
    simp only [flag_eq_ok_iff, Kind.Refuses, Kind.Spells, not_exists, not_and]
  rw [hr]
  unfold flag
  split
  · simp
  · split
    · simp
    · simp [eq_comm]

/-- Whether a text spells a value can be decided. -/
instance Kind.decidableSpells : (k : Kind) → (s : String) → (x : k.Value) → Decidable (k.Spells s x)
  | text, s, x => inferInstanceAs (Decidable (s = x))
  | number32, s, n => inferInstanceAs (Decidable (Numeral.Writes s.toList n.toNat))
  | number64, s, n => inferInstanceAs (Decidable (Numeral.Writes s.toList n.toNat))
  | switch, s, b =>
    decidable_of_iff (((wordsFor b).map String.toList).contains (Text.lowered s) = true)
      (List.contains_iff_mem.trans (lowered_mem_iff b))

/-- A setting reads a field: it accepts the values of the field's kind, and sets the field to what
they spell. -/
structure Setting.Reads (setting : Setting) (f : Field) : Prop where
  key_eq : setting.key = f.key
  assign_eq_ok_iff : ∀ {value c c'},
    setting.assign value c = .ok c' ↔ ∃ x, f.kind.Spells value x ∧ f.set x c = c'
  assign_eq_error_iff : ∀ {value c reason},
    setting.assign value c = .error reason ↔ f.kind.Refuses value reason
  set_get : ∀ c, f.set (f.get c) c = c

/-- A setting that reads its value and then sets the field reads the field. -/
theorem Setting.reads_of_map {β : Type} {key : String} (k : Kind) {get : Config → k.Value}
    {set : k.Value → Config → Config} (read : String → Except String β) (conv : β → k.Value)
    (hok : ∀ s x, (∃ b, read s = .ok b ∧ conv b = x) ↔ k.Spells s x)
    (herror : ∀ s reason, read s = .error reason ↔ k.Refuses s reason)
    (hs : ∀ c, set (get c) c = c) :
    Setting.Reads ⟨key, fun value c => (read value).map fun b => set (conv b) c⟩
      ⟨key, k, get, set⟩ where
  key_eq := rfl
  assign_eq_ok_iff {value c c'} := by
    show (read value).map _ = _ ↔ _
    simp only [← hok]
    cases read value <;> simp [Except.map]
  assign_eq_error_iff {value c reason} := by
    show (read value).map _ = _ ↔ _
    rw [← herror]
    cases read value <;> simp [Except.map]
  set_get := hs

theorem reads_text {key : String} {get : Config → String} {set : String → Config → Config}
    (hs : ∀ c, set (get c) c = c) :
    Setting.Reads ⟨key, fun value c => .ok (set value c)⟩ ⟨key, .text, get, set⟩ :=
  Setting.reads_of_map .text .ok id (by simp [Kind.Spells]) (by simp [Kind.Refuses]) hs

theorem reads_number32 {key : String} {get : Config → UInt32} (set : UInt32 → Config → Config)
    (hs : ∀ c, set (get c) c = c) :
    Setting.Reads
      ⟨key, fun value c => (number UInt32.size value).map fun n => set (UInt32.ofNat n) c⟩
      ⟨key, .number32, get, set⟩ := by
  refine Setting.reads_of_map .number32 (number UInt32.size) UInt32.ofNat (fun s x => ?_)
    (fun s reason => number_eq_error_iff (by decide)) hs
  simp only [number_eq_ok_iff (by decide : 0 < UInt32.size)]
  constructor
  · rintro ⟨n, ⟨hw, hn⟩, rfl⟩
    show Numeral.Writes s.toList (UInt32.ofNat n).toNat
    rwa [UInt32.toNat_ofNat_of_lt' hn]
  · intro hw
    exact ⟨x.toNat, ⟨hw, x.toNat_lt⟩, UInt32.ofNat_toNat⟩

theorem reads_word {key : String} {get : Config → UInt64} {set : UInt64 → Config → Config}
    (hs : ∀ c, set (get c) c = c) :
    Setting.Reads (.word key set) ⟨key, .number64, get, set⟩ := by
  refine Setting.reads_of_map .number64 (number UInt64.size) UInt64.ofNat (fun s x => ?_)
    (fun s reason => number_eq_error_iff (by decide)) hs
  simp only [number_eq_ok_iff (by decide : 0 < UInt64.size)]
  constructor
  · rintro ⟨n, ⟨hw, hn⟩, rfl⟩
    show Numeral.Writes s.toList (UInt64.ofNat n).toNat
    rwa [UInt64.toNat_ofNat_of_lt' hn]
  · intro hw
    exact ⟨x.toNat, ⟨hw, x.toNat_lt⟩, UInt64.ofNat_toNat⟩

theorem reads_switch {key : String} {get : Config → Bool} {set : Bool → Config → Config}
    (hs : ∀ c, set (get c) c = c) :
    Setting.Reads (.switch key set) ⟨key, .switch, get, set⟩ :=
  Setting.reads_of_map .switch flag id (by simp [flag_eq_ok_iff]) (fun _ _ => flag_eq_error_iff) hs

/-- The settings read the fields, in the same order. -/
theorem reads_fields : List.Forall₂ Setting.Reads Setting.all fields :=
  .cons (reads_text fun _ => rfl) <|
    .cons (reads_number32 (fun x c => { c with pageSize := x }) fun _ => rfl) <|
    .cons (reads_word fun _ => rfl) <| .cons (reads_word fun _ => rfl) <|
    .cons (reads_word fun _ => rfl) <| .cons (reads_word fun _ => rfl) <|
    .cons (reads_switch fun _ => rfl) <| .cons (reads_switch fun _ => rfl) <|
    .cons (reads_switch fun _ => rfl) .nil

/-! ## Reading one setting after the other -/

variable {f : Field} {fs : List Field} {setting : Setting} {settings : List Setting}
  {c c' : Config}

theorem readSettings_cons_of_none (h : env.value? setting.key = none) :
    readSettings env (setting :: settings) c =
      (setting.key :: (readSettings env settings c).1, (readSettings env settings c).2) := by
  simp only [readSettings, h]

theorem readSettings_cons_of_ok (h : env.value? setting.key = some value)
    (ha : setting.assign value c = .ok c') :
    readSettings env (setting :: settings) c =
      (setting.key :: (readSettings env settings c').1, (readSettings env settings c').2) := by
  simp only [readSettings, h, ha]

theorem readSettings_cons_of_error (h : env.value? setting.key = some value)
    (ha : setting.assign value c = .error reason) :
    readSettings env (setting :: settings) c =
      ([setting.key], .error ⟨setting.key, value, reason⟩) := by
  simp only [readSettings, h, ha]

theorem gives_of_none (h : env.value? f.key = none) {default x : f.kind.Value} :
    f.Gives env default x ↔ x = default := by
  simp only [Field.Gives, ← value?_eq_some_iff, ← value?_eq_none_iff, h]
  simp

theorem gives_of_some (h : env.value? f.key = some value) {default x : f.kind.Value} :
    f.Gives env default x ↔ f.kind.Spells value x := by
  simp only [Field.Gives, ← value?_eq_some_iff, ← value?_eq_none_iff, h]
  simp

/-- The fields are set, one after the other, to what the environment says of them. -/
def Assigned (env : Environment) : List Field → Config → Config → Prop
  | [], c, c' => c = c'
  | f :: fs, c, c' => ∃ x, f.Gives env (f.get c) x ∧ Assigned env fs (f.set x c) c'

theorem readSettings_eq_ok_iff (h : List.Forall₂ Setting.Reads settings fs) :
    (readSettings env settings c).2 = .ok c' ↔ Assigned env fs c c' := by
  induction h generalizing c with
  | nil => exact Except.ok.injEq c c' ▸ Iff.rfl
  | @cons setting f settings fs hr hrs ih =>
    unfold Assigned
    cases hv : env.value? setting.key with
    | none =>
      rw [readSettings_cons_of_none hv, ih]
      rw [hr.key_eq] at hv
      simp only [gives_of_none hv, exists_eq_left, hr.set_get]
    | some value =>
      have hg (x : f.kind.Value) : f.Gives env (f.get c) x ↔ f.kind.Spells value x :=
        gives_of_some (hr.key_eq ▸ hv)
      simp only [hg]
      cases ha : setting.assign value c with
      | error reason =>
        rw [readSettings_cons_of_error hv ha]
        refine iff_of_false nofun ?_
        rintro ⟨x, hx, -⟩
        rw [hr.assign_eq_ok_iff.2 ⟨x, hx, rfl⟩] at ha
        cases ha
      | ok next =>
        rw [readSettings_cons_of_ok hv ha, ih]
        constructor
        · intro hn
          obtain ⟨x, hx, rfl⟩ := hr.assign_eq_ok_iff.1 ha
          exact ⟨x, hx, hn⟩
        · rintro ⟨x, hx, hn⟩
          rw [hr.assign_eq_ok_iff.2 ⟨x, hx, rfl⟩] at ha
          cases ha
          exact hn

/-- No field is set twice, and none is left out. -/
theorem assigned_fields_iff :
    Assigned env fields {} c ↔ ∀ f ∈ fields, f.Gives env (f.get {}) (f.get c) := by
  simp only [fields, Assigned, List.forall_mem_cons, List.not_mem_nil, false_implies, implies_true,
    and_true]
  constructor
  · rintro ⟨_, h1, _, h2, _, h3, _, h4, _, h5, _, h6, _, h7, _, h8, _, h9, rfl⟩
    exact ⟨h1, h2, h3, h4, h5, h6, h7, h8, h9⟩
  · rintro ⟨h1, h2, h3, h4, h5, h6, h7, h8, h9⟩
    exact ⟨_, h1, _, h2, _, h3, _, h4, _, h5, _, h6, _, h7, _, h8, _, h9, rfl⟩

theorem read_fst (env : Environment) : (read env).1 = (readSettings env Setting.all {}).1 := rfl

theorem read_snd (env : Environment) :
    (read env).2 = (readSettings env Setting.all {}).2.bind checkZeros := rfl

theorem checkZeros_eq_ok_iff :
    checkZeros c = .ok c' ↔ c = c' ∧ c.pageSize ≠ 0 ∧ c.maxVisible ≠ 0 := by
  unfold checkZeros
  by_cases hp : c.pageSize = 0
  · simp [hp]
  · by_cases hm : c.maxVisible = 0
    · simp [hp, hm]
    · simp [hp, hm]

theorem bind_checkZeros_eq_ok_iff {x : Except Invalid Config} :
    x.bind checkZeros = .ok c ↔ x = .ok c ∧ c.pageSize ≠ 0 ∧ c.maxVisible ≠ 0 := by
  cases x with
  | error i => exact iff_of_false nofun fun h => nomatch h.1
  | ok c' =>
    show checkZeros c' = .ok c ↔ _
    rw [checkZeros_eq_ok_iff, Except.ok.injEq]
    refine and_congr_right ?_
    rintro rfl
    rfl

/-! ## Writing a configuration down -/

/-- Every setting spells the value of its field, with any blanks around it. -/
def Environment.Renders (env : Environment) (c : Config) : Prop :=
  ∀ f ∈ fields, ∃ head text tail,
    env f.key = some (String.ofList (head ++ text.toList ++ tail)) ∧
      (∀ c ∈ head, Text.isBlank c = true) ∧ (∀ c ∈ tail, Text.isBlank c = true) ∧
      f.kind.Spells text (f.get c)

/-- A configuration that can be read: it has a name, without blanks around it, and shows rooms. -/
structure IsUsable (c : Config) : Prop where
  name_isTrimmed : Text.IsTrimmed c.name.toList
  name_ne_empty : c.name ≠ ""
  pageSize_ne_zero : c.pageSize ≠ 0
  maxVisible_ne_zero : c.maxVisible ≠ 0

/-- A text that spells a value. -/
def Kind.written : (k : Kind) → k.Value → String
  | text, x => x
  | number32, n => n.toNat.repr
  | number64, n => n.toNat.repr
  | switch, b => if b then "true" else "false"

theorem Kind.spells_written (k : Kind) (x : k.Value) : k.Spells (k.written x) x := by
  cases k with
  | text => rfl
  | number32 => exact Numeral.writes_repr _
  | number64 => exact Numeral.writes_repr _
  | switch =>
    have hw : switch.written x ∈ wordsFor x := by
      cases x <;> decide
    exact ⟨_, hw, List.forall₂_same.2 fun _ _ => Or.inl rfl⟩

theorem isTrimmed_of_writes {n : Nat} (h : Numeral.Writes s.toList n) :
    s ≠ "" ∧ Text.IsTrimmed s.toList := by
  constructor
  · rintro rfl
    obtain ⟨ds, hs | hs, hn, -, -⟩ := h
    · exact hn hs.symm
    · cases hs
  · refine Text.isTrimmed_of_forall fun c hc => ?_
    rcases Numeral.isDigit_or_eq_of_mem h hc with hd | rfl
    · obtain ⟨h1, h2⟩ := Char.isDigit_iff_toNat.1 hd
      have h1' : 48 ≤ c.toNat := h1
      have h2' : c.toNat ≤ 57 := h2
      exact Text.isBlank_eq_false (by omega) (by omega)
    · rfl

/-- No blanks belong to what spells a number or a truth value. -/
theorem Kind.Spells.isTrimmed {k : Kind} {x : k.Value} (h : k.Spells s x) (hk : k ≠ .text) :
    s ≠ "" ∧ Text.IsTrimmed s.toList := by
  cases k with
  | text => exact absurd rfl hk
  | number32 => exact isTrimmed_of_writes h
  | number64 => exact isTrimmed_of_writes h
  | switch =>
    obtain ⟨word, hw, hs⟩ := h
    refine ⟨?_, Text.isTrimmed_of_sameLetters hs (all_isPlain_of_mem hw)⟩
    rintro rfl
    rw [Text.SameLetters, String.toList_empty, List.forall₂_nil_left_iff,
      String.toList_eq_nil_iff] at hs
    subst hs
    cases x <;> exact absurd hw (by decide)

theorem isTrimmed_of_spells (hu : c.IsUsable) (hf : f ∈ fields)
    (hs : f.kind.Spells s (f.get c)) : s ≠ "" ∧ Text.IsTrimmed s.toList := by
  have hother : ∀ g ∈ fields.tail, g.kind ≠ .text := by decide
  rw [fields, List.mem_cons] at hf
  rcases hf with rfl | hf
  · have hname : s = c.name := hs
    rw [hname]
    exact ⟨hu.name_ne_empty, hu.name_isTrimmed⟩
  · exact hs.isTrimmed (hother f hf)

theorem gives_of_renders (hu : c.IsUsable) (hr : env.Renders c) (hf : f ∈ fields) :
    f.Gives env (f.get {}) (f.get c) := by
  obtain ⟨head, text, tail, he, hh, ht, hs⟩ := hr f hf
  have htext := isTrimmed_of_spells hu hf hs
  refine Or.inr ⟨text, ⟨htext.1, _, he, htext.2, head, tail, ?_, hh, ht⟩, hs⟩
  exact String.toList_ofList

/-- The environment in which every setting is a written value. -/
def Environment.ofConfig (c : Config) : Environment :=
  fun key => (fields.find? fun f => f.key == key).map fun f => f.kind.written (f.get c)

theorem renders_ofConfig (c : Config) : (Environment.ofConfig c).Renders c := by
  have hfind : ∀ f ∈ fields, fields.find? (fun g => g.key == f.key) = some f := by
    simp [fields]
  intro f hf
  refine ⟨[], f.kind.written (f.get c), [], ?_, nofun, nofun, f.kind.spells_written _⟩
  simp [Environment.ofConfig, hfind f hf]

/-- A configuration is read exactly from the environments that give it: every setting that is not
blank spells the value of its field, the other fields have their defaults, and the two values that
must not be zero are not.  A configuration with a name and with those two values is given by every
environment that spells its values, with any blanks around them, and there is one that does. -/
theorem read_eq_ok_iff_gives (env : Environment) (c : Config) :
    ((read env).2 = .ok c ↔
      (∀ f ∈ fields, f.Gives env (f.get {}) (f.get c)) ∧ c.pageSize ≠ 0 ∧ c.maxVisible ≠ 0) ∧
    (c.IsUsable →
      (∀ env' : Environment, env'.Renders c → (read env').2 = .ok c) ∧
        ∃ env' : Environment, env'.Renders c) := by
  have hread (env : Environment) : (read env).2 = .ok c ↔
      (∀ f ∈ fields, f.Gives env (f.get {}) (f.get c)) ∧ c.pageSize ≠ 0 ∧ c.maxVisible ≠ 0 := by
    rw [read_snd, bind_checkZeros_eq_ok_iff, readSettings_eq_ok_iff reads_fields,
      assigned_fields_iff]
  refine ⟨hread env, fun hu => ⟨fun env' hr => ?_, _, renders_ofConfig c⟩⟩
  rw [hread]
  exact ⟨fun f hf => gives_of_renders hu hr hf, hu.pageSize_ne_zero, hu.maxVisible_ne_zero⟩

/-- A name with a no-break space in it, a sign, zeros in front, words in mixed case, and blanks of
several kinds around the values. -/
theorem read_of_padded_settings :
    let env : Environment := fun key =>
      [("ROOMLIST_NAME", "\t my\u00a0rooms\u3000"), ("ROOMLIST_PAGE_SIZE", "+0050\n"),
        ("ROOMLIST_BATCH_WINDOW_MS", "18446744073709551615"),
        ("ROOMLIST_PAGINATION_THROTTLE_MS", " 0"), ("ROOMLIST_SUBSCRIPTION_DEBOUNCE_MS", "007"),
        ("ROOMLIST_MAX_VISIBLE_RANGE", "12\u2003"), ("ROOMLIST_MANAGE_SUBSCRIPTIONS", "\u0085YeS"),
        ("ROOMLIST_FUZZY_SEARCH", "1"), ("ROOMLIST_LOW_PRIORITY_FILTER", "oFF ")].lookup key
    let c : Config :=
      { name := "my\u00a0rooms", pageSize := 50, batchWindow := 18446744073709551615,
        paginationThrottle := 0, subscriptionDebounce := 7, maxVisible := 12,
        managesSubscriptions := true, filterSettings := ⟨true, false⟩ }
    c.IsUsable ∧ env.Renders c ∧ (read env).2 = .ok c := by
  intro env c
  have hu : c.IsUsable := ⟨⟨by decide, by decide⟩, by decide, by decide, by decide⟩
  have hr : env.Renders c := by
    simp only [Environment.Renders, fields, List.forall_mem_cons]
    have hp : Kind.number32.Spells "+0050" 50 := by decide
    have hw : Kind.number64.Spells "18446744073709551615" 18446744073709551615 := by decide
    have ht : Kind.number64.Spells "0" 0 := by decide
    have hd : Kind.number64.Spells "007" 7 := by decide
    have hm : Kind.number64.Spells "12" 12 := by decide
    have hs : Kind.switch.Spells "YeS" true := by decide
    have hf : Kind.switch.Spells "1" true := by decide
    have hl : Kind.switch.Spells "oFF" false := by decide
    have hb {cs : List Char} (h : cs.all Text.isBlank = true) : ∀ c ∈ cs, Text.isBlank c = true :=
      List.all_eq_true.1 h
    exact ⟨⟨['\t', ' '], "my\u00a0rooms", ['\u3000'], rfl, hb rfl, hb rfl, rfl⟩,
      ⟨[], "+0050", ['\n'], rfl, nofun, hb rfl, hp⟩,
      ⟨[], "18446744073709551615", [], rfl, nofun, nofun, hw⟩,
      ⟨[' '], "0", [], rfl, hb rfl, nofun, ht⟩, ⟨[], "007", [], rfl, nofun, nofun, hd⟩,
      ⟨[], "12", ['\u2003'], rfl, nofun, hb rfl, hm⟩,
      ⟨['\u0085'], "YeS", [], rfl, hb rfl, nofun, hs⟩, ⟨[], "1", [], rfl, nofun, nofun, hf⟩,
      ⟨[], "oFF", [' '], rfl, nofun, hb rfl, hl⟩, nofun⟩
  exact ⟨hu, hr, ((read_eq_ok_iff_gives env c).2 hu).1 env hr⟩

end LiveRooms.Config
