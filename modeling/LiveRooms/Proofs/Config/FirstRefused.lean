import LiveRooms.Proofs.Config.Language

/-!
# The first setting that cannot be read

The settings are asked for in one order, and the first one whose value spells nothing ends the
reading: it is the last one asked for, and the answer names it, its value without the blanks around
it, and why the value was refused.  The values that must not be zero are looked at when all the
settings have been read (`read_first_refused`).
-/

namespace LiveRooms.Config

variable {env env' : Environment} {value reason : String} {f : Field} {fs : List Field}
  {setting : Setting} {settings : List Setting} {c c' : Config}

/-- The setting of the field is missing, blank, or spells a value. -/
def Field.IsLegal (f : Field) (env : Environment) : Prop :=
  ∀ value, env.Holds f.key value → ∃ x, f.kind.Spells value x

/-- A setting is legal when the environment gives its field a value. -/
theorem isLegal_of_gives {default x : f.kind.Value} (h : f.Gives env default x) :
    f.IsLegal env := by
  intro value hh
  have hv := value?_eq_some_iff.2 hh
  exact ⟨x, (gives_of_some hv).1 h⟩

/-! ## What is asked for -/

/-- The settings are asked for in order. -/
theorem fst_readSettings_prefix (env : Environment) (settings : List Setting) (c : Config) :
    (readSettings env settings c).1 <+: settings.map Setting.key := by
  induction settings generalizing c with
  | nil => exact List.nil_prefix
  | cons setting settings ih =>
    cases hv : env.value? setting.key with
    | none =>
      rw [readSettings_cons_of_none hv]
      exact List.cons_prefix_cons.2 ⟨rfl, ih c⟩
    | some value =>
      cases ha : setting.assign value c with
      | error reason =>
        rw [readSettings_cons_of_error hv ha]
        exact List.cons_prefix_cons.2 ⟨rfl, List.nil_prefix⟩
      | ok next =>
        rw [readSettings_cons_of_ok hv ha]
        exact List.cons_prefix_cons.2 ⟨rfl, ih next⟩

/-- Only the settings that are asked for matter. -/
theorem readSettings_congr (h : ∀ key ∈ (readSettings env settings c).1, env' key = env key) :
    readSettings env' settings c = readSettings env settings c := by
  induction settings generalizing c with
  | nil => rfl
  | cons setting settings ih =>
    have hvalue (hk : env' setting.key = env setting.key) :
        env'.value? setting.key = env.value? setting.key := by
      rw [Environment.value?, Environment.value?, hk]
    cases hv : env.value? setting.key with
    | none =>
      rw [readSettings_cons_of_none hv] at h ⊢
      obtain ⟨hk, h⟩ := List.forall_mem_cons.1 h
      rw [readSettings_cons_of_none ((hvalue hk).trans hv), ih h]
    | some value =>
      cases ha : setting.assign value c with
      | error reason =>
        rw [readSettings_cons_of_error hv ha] at h ⊢
        obtain ⟨hk, -⟩ := List.forall_mem_cons.1 h
        rw [readSettings_cons_of_error ((hvalue hk).trans hv) ha]
      | ok next =>
        rw [readSettings_cons_of_ok hv ha] at h ⊢
        obtain ⟨hk, h⟩ := List.forall_mem_cons.1 h
        rw [readSettings_cons_of_ok ((hvalue hk).trans hv) ha, ih h]

/-! ## What is passed and what is refused -/

/-- A legal setting is passed. -/
theorem exists_readSettings_of_isLegal (hr : setting.Reads f) (hl : f.IsLegal env)
    (settings : List Setting) (c : Config) :
    ∃ c', readSettings env (setting :: settings) c =
      (f.key :: (readSettings env settings c').1, (readSettings env settings c').2) := by
  rw [← hr.key_eq]
  cases hv : env.value? setting.key with
  | none => exact ⟨c, readSettings_cons_of_none hv⟩
  | some value =>
    obtain ⟨x, hx⟩ := hl value (value?_eq_some_iff.1 (hr.key_eq ▸ hv))
    exact ⟨f.set x c, readSettings_cons_of_ok hv (hr.assign_eq_ok_iff.2 ⟨x, hx, rfl⟩)⟩

/-- A setting that is not legal ends the reading. -/
theorem readSettings_of_not_isLegal (hr : setting.Reads f) (hl : ¬ f.IsLegal env)
    (settings : List Setting) (c : Config) :
    ∃ value reason, env.Holds f.key value ∧ (∀ x, ¬ f.kind.Spells value x) ∧
      f.kind.Refuses value reason ∧
      readSettings env (setting :: settings) c = ([f.key], .error ⟨f.key, value, reason⟩) := by
  simp only [Field.IsLegal, not_forall, not_exists] at hl
  obtain ⟨value, hh, hx⟩ := hl
  have hv : env.value? setting.key = some value := by
    rw [hr.key_eq]
    exact value?_eq_some_iff.2 hh
  cases ha : setting.assign value c with
  | ok next =>
    obtain ⟨x, hs, -⟩ := hr.assign_eq_ok_iff.1 ha
    exact absurd hs (hx x)
  | error reason =>
    refine ⟨value, reason, hh, hx, hr.assign_eq_error_iff.1 ha, ?_⟩
    rw [← hr.key_eq]
    exact readSettings_cons_of_error hv ha

theorem readSettings_of_forall_isLegal (h : List.Forall₂ Setting.Reads settings fs)
    (hl : ∀ f ∈ fs, f.IsLegal env) (c : Config) :
    ∃ c', readSettings env settings c = (fs.map Field.key, .ok c') := by
  induction h generalizing c with
  | nil => exact ⟨c, rfl⟩
  | cons hr _ ih =>
    obtain ⟨hl, hls⟩ := List.forall_mem_cons.1 hl
    obtain ⟨next, hn⟩ := exists_readSettings_of_isLegal hr hl _ c
    obtain ⟨c', hc⟩ := ih hls next
    exact ⟨c', by rw [hn, hc]; rfl⟩

/-- If not all settings are legal, the reading ends at the first one that is not. -/
theorem readSettings_first_refused (h : List.Forall₂ Setting.Reads settings fs)
    (hl : ∃ f ∈ fs, ¬ f.IsLegal env) (c : Config) :
    ∃ before f after value reason, fs = before ++ f :: after ∧
      (∀ g ∈ before, g.IsLegal env) ∧ env.Holds f.key value ∧ (∀ x, ¬ f.kind.Spells value x) ∧
      f.kind.Refuses value reason ∧
      readSettings env settings c =
        ((before ++ [f]).map Field.key, .error ⟨f.key, value, reason⟩) := by
  induction h generalizing c with
  | nil =>
    obtain ⟨f, hf, -⟩ := hl
    cases hf
  | @cons setting f settings fs hr _ ih =>
    by_cases hf : f.IsLegal env
    · have hls : ∃ g ∈ fs, ¬ g.IsLegal env := by
        obtain ⟨g, hg, hgl⟩ := hl
        rcases List.mem_cons.1 hg with rfl | hg
        · exact absurd hf hgl
        · exact ⟨g, hg, hgl⟩
      obtain ⟨next, hn⟩ := exists_readSettings_of_isLegal hr hf settings c
      obtain ⟨before, g, after, value, reason, rfl, hb, hh, hx, hre, hread⟩ := ih hls next
      refine ⟨f :: before, g, after, value, reason, rfl, List.forall_mem_cons.2 ⟨hf, hb⟩, hh, hx,
        hre, ?_⟩
      rw [hn, hread]
      rfl
    · obtain ⟨value, reason, hh, hx, hre, hread⟩ := readSettings_of_not_isLegal hr hf settings c
      exact ⟨[], f, fs, value, reason, rfl, nofun, hh, hx, hre, hread⟩

/-- The settings are asked for in one order, each at most once, and nothing but the answers matters.
The first setting that is not legal ends the reading; no setting after it is asked for.  When all
are legal, all have been asked for, and a configuration that has a zero where none may be is
refused, the number of rooms per page first. -/
theorem read_first_refused (env : Environment) :
    (fields.map Field.key).Nodup ∧ (read env).1 <+: fields.map Field.key ∧
    (∀ env' : Environment, (∀ key ∈ (read env).1, env' key = env key) → read env' = read env) ∧
    ((∃ f ∈ fields, ¬ f.IsLegal env) →
      ∃ before f after value reason, fields = before ++ f :: after ∧
        (∀ g ∈ before, g.IsLegal env) ∧ env.Holds f.key value ∧ (∀ x, ¬ f.kind.Spells value x) ∧
        f.kind.Refuses value reason ∧
        read env = ((before ++ [f]).map Field.key, .error ⟨f.key, value, reason⟩)) ∧
    ((∀ f ∈ fields, f.IsLegal env) →
      ∃ c, (∀ f ∈ fields, f.Gives env (f.get {}) (f.get c)) ∧
        read env = (fields.map Field.key,
          if c.pageSize = 0 then .error ⟨"ROOMLIST_PAGE_SIZE", "0", "must be at least 1"⟩
          else if c.maxVisible = 0 then
            .error ⟨"ROOMLIST_MAX_VISIBLE_RANGE", "0", "must be at least 1"⟩
          else .ok c)) := by
  refine ⟨by decide, fst_readSettings_prefix env Setting.all {}, fun env' h => ?_, fun hl => ?_,
    fun hl => ?_⟩
  · rw [read_fst] at h
    unfold read
    rw [readSettings_congr h]
  · obtain ⟨before, f, after, value, reason, hfs, hb, hh, hx, hre, hread⟩ :=
      readSettings_first_refused reads_fields hl {}
    refine ⟨before, f, after, value, reason, hfs, hb, hh, hx, hre, ?_⟩
    unfold read
    rw [hread]
    rfl
  · obtain ⟨c, hread⟩ := readSettings_of_forall_isLegal reads_fields hl {}
    refine ⟨c, ?_, ?_⟩
    · rw [← assigned_fields_iff, ← readSettings_eq_ok_iff reads_fields, hread]
    · unfold read
      rw [hread]
      rfl

/-- Nine digits stay below the bound, and the tenth character would overflow if it were a digit, but
it counts as a bad character; the later setting that is not legal either is not asked for.  Of two
zeros the first one is refused. -/
theorem read_bad_character_at_bound :
    let env : Environment := fun key =>
      [("ROOMLIST_NAME", " "), ("ROOMLIST_PAGE_SIZE", "\t429496730X "),
        ("ROOMLIST_FUZZY_SEARCH", "Maybe")].lookup key
    let zeros : Environment := fun key =>
      [("ROOMLIST_PAGE_SIZE", "0"), ("ROOMLIST_MAX_VISIBLE_RANGE", "+00")].lookup key
    ((∃ f ∈ fields, ¬ f.IsLegal env) ∧ ∃ before f after, fields = before ++ f :: after ∧
      f.key = "ROOMLIST_PAGE_SIZE" ∧
      f.kind.Refuses "429496730X" "invalid digit found in string" ∧
      read env = ((before ++ [f]).map Field.key,
        .error ⟨f.key, "429496730X", "invalid digit found in string"⟩)) ∧
    (∀ f ∈ fields, f.IsLegal zeros) ∧
      read zeros = (fields.map Field.key,
        .error ⟨"ROOMLIST_PAGE_SIZE", "0", "must be at least 1"⟩) := by
  intro env zeros
  constructor
  · have hl : ∃ f ∈ fields, ¬ f.IsLegal env := by
      refine ⟨_, .tail _ (.head _), fun hl => ?_⟩
      obtain ⟨x, hx⟩ := hl "429496730X" (value?_eq_some_iff.1 rfl)
      have hbad := (Numeral.parse_eq_badDigit_iff (by decide : 0 < UInt32.size)).1
        (rfl : Numeral.parse UInt32.size "429496730X".toList = .error .badDigit)
      exact hbad.2 _ hx
    refine ⟨hl, ?_⟩
    obtain ⟨before, f, after, value, reason, hfs, -, -, -, hre, he⟩ :=
      (read_first_refused env).2.2.2.1 hl
    have hread : (read env).2 =
        .error ⟨"ROOMLIST_PAGE_SIZE", "429496730X", "invalid digit found in string"⟩ := rfl
    rw [he] at hread
    simp only [Except.error.injEq, Invalid.mk.injEq] at hread
    obtain ⟨hk, rfl, rfl⟩ := hread
    exact ⟨before, f, after, hfs, hk, hre, he⟩
  · have hp : zeros.value? "ROOMLIST_PAGE_SIZE" = some "0" := rfl
    have hm : zeros.value? "ROOMLIST_MAX_VISIBLE_RANGE" = some "+00" := rfl
    have hl : ∀ f ∈ fields, f.IsLegal zeros := by
      have hnone {f : Field} (h : zeros.value? f.key = none) : f.IsLegal zeros :=
        isLegal_of_gives ((gives_of_none h).2 rfl : f.Gives zeros (f.get {}) _)
      have h0 : Kind.number32.Spells "0" 0 := by decide
      have h00 : Kind.number64.Spells "+00" 0 := by decide
      simp only [fields, List.forall_mem_cons]
      exact ⟨hnone rfl, isLegal_of_gives ((gives_of_some hp).2 h0 : Field.Gives _ zeros 1 _),
        hnone rfl, hnone rfl, hnone rfl,
        isLegal_of_gives ((gives_of_some hm).2 h00 : Field.Gives _ zeros 1 _),
        hnone rfl, hnone rfl, hnone rfl, List.forall_mem_nil _⟩
    refine ⟨hl, ?_⟩
    obtain ⟨c, hg, hread⟩ := (read_first_refused zeros).2.2.2.2 hl
    have hc : Kind.number32.Spells "0" c.pageSize :=
      (gives_of_some hp).1 (hg _ (.tail _ (.head _)))
    have hc0 : c.pageSize = 0 := UInt32.toNat_inj.1 (Numeral.writes_iff.1 hc).2.2.symm
    rw [hread, if_pos hc0]

end LiveRooms.Config
