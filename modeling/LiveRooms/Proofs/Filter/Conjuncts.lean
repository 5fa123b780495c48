import LiveRooms.Proofs.Filter.Translation
import Mathlib.Data.List.Duplicate

/-!
# The conjuncts of a remote form

What was asked for (`RemoteFilter.isAsked`), the base filters, the rooms of a filter and the
exclusion of low-priority rooms are told apart by their conjuncts.  So each conjunct comes from one
of them only: the base filters occur once, and so do the rooms of a filter, and the exclusion
occurs at most once, next to no request for low-priority rooms.  A quick filter is among the
conjuncts exactly when it was asked for (`toRemote_mem_iff`), hence two filters of one kind demand
the same exactly when they ask for the same quick filters, in whatever order and however often
(`sameConjuncts_iff`).
-/

namespace LiveRooms

namespace RemoteFilter

/-- Whether a conjunct is a quick filter or a name. -/
def isAsked : RemoteFilter → Bool
  | .unread | .category _ | .favourite | .invite | .lowPriority => true
  | .fuzzyName _ | .normalizedName _ => true
  | _ => false

/-- The rooms that a conjunct restricts a list to. -/
def identifiers? : RemoteFilter → Option (List String)
  | .identifiers ids => some ids
  | _ => none

/-- Two conjunctions have the same conjuncts, in whatever order and however often. -/
def SameConjuncts (r r' : RemoteFilter) : Prop :=
  ∃ cs cs', r = .all cs ∧ r' = .all cs' ∧ ∀ c, c ∈ cs ↔ c ∈ cs'

theorem sameConjuncts_all_iff {cs cs' : List RemoteFilter} :
    SameConjuncts (.all cs) (.all cs') ↔ ∀ c, c ∈ cs ↔ c ∈ cs' := by
  constructor
  · rintro ⟨_, _, h, h', hc⟩
    cases h
    cases h'
    exact hc
  · exact fun hc => ⟨cs, cs', rfl, rfl, hc⟩

theorem isAsked_toRemote (q : QuickFilter) : q.toRemote.isAsked = true := by
  cases q <;> rfl

theorem toRemote_notMem {q : QuickFilter} {rs : List RemoteFilter}
    (h : ∀ r ∈ rs, r.isAsked = false) : q.toRemote ∉ rs := by
  intro hq
  have hr := h _ hq
  rw [isAsked_toRemote] at hr
  cases hr

theorem isAsked_of_mem_base {r : RemoteFilter} (h : r ∈ base) : r.isAsked = false := by
  revert r
  decide

theorem identifiers?_of_isAsked {r : RemoteFilter} (h : r.isAsked = true) :
    r.identifiers? = none := by
  cases r with
  | identifiers ids => cases h
  | _ => rfl

end RemoteFilter

open RemoteFilter

namespace Filter

variable {s : FilterSettings} {f g : Filter} {q : QuickFilter} {qs qs' : List QuickFilter}
  {r : RemoteFilter}

/-- The quick filters of a filter that can have some. -/
def quick? : Filter → Option (List QuickFilter)
  | .rooms _ filters | .all filters => some filters
  | .excludeAll | .search _ => none

/-- The rooms that a filter is restricted to. -/
def ids? : Filter → Option StringSet
  | .rooms ids _ => some ids
  | .excludeAll | .search _ | .all _ => none

/-! ## Where a conjunct comes from -/

theorem quick?_eq_some_iff :
    f.quick? = some qs ↔ f = .all qs ∨ ∃ ids, f = .rooms ids qs := by
  cases f <;> simp [quick?]

theorem ne_excludeAll_of_quick? (h : f.quick? = some qs) : f ≠ .excludeAll := by
  rintro rfl
  cases h

theorem asked_of_quick? (h : f.quick? = some qs) : f.asked s = qs.map QuickFilter.toRemote := by
  cases f with
  | excludeAll | search query => cases h
  | rooms ids filters | all filters =>
    obtain rfl : filters = qs := Option.some.inj h
    rfl

theorem isAsked_of_mem_asked (h : r ∈ f.asked s) : r.isAsked = true := by
  have hq (filters : List QuickFilter) (h : r ∈ filters.map QuickFilter.toRemote) :
      r.isAsked = true := by
    obtain ⟨q, -, rfl⟩ := List.mem_map.1 h
    exact isAsked_toRemote q
  cases f with
  | excludeAll => cases h
  | search query =>
    obtain rfl := List.mem_singleton.1 h
    unfold nameFilter
    split <;> rfl
  | rooms ids filters => exact hq filters h
  | all filters => exact hq filters h

theorem mem_exclusion_iff :
    r ∈ exclusion s qs ↔
      r = .nonLowPriority ∧ s.hideLowPriority = true ∧ .lowPriority ∉ qs := by
  unfold exclusion
  by_cases hl : QuickFilter.lowPriority ∈ qs
  · simp [hl]
  · cases s.hideLowPriority <;> simp [hl]

/-- Behind the base filters come the rooms of a filter and the exclusion. -/
theorem mem_demanded_iff :
    r ∈ f.demanded s ↔
      (∃ ids, f.ids? = some ids ∧ r = .identifiers ids.toList) ∨
        r = .nonLowPriority ∧ s.hideLowPriority = true ∧
          ∃ qs, f.quick? = some qs ∧ .lowPriority ∉ qs := by
  cases f with
  | excludeAll => simp [demanded, ids?, quick?]
  | search query => simp [demanded, ids?, quick?]
  | rooms ids filters => simp [demanded, ids?, quick?, mem_exclusion_iff]
  | all filters => simp [demanded, ids?, quick?, mem_exclusion_iff]

theorem isAsked_of_mem_demanded (h : r ∈ f.demanded s) : r.isAsked = false := by
  obtain ⟨ids, -, rfl⟩ | ⟨rfl, -⟩ := mem_demanded_iff.1 h <;> rfl

/-! ## How often a conjunct occurs -/

theorem duplicate_append_iff {α : Type} {x : α} {before xs : List α} (h : x ∉ before) :
    (before ++ xs).Duplicate x ↔ xs.Duplicate x := by
  induction before with
  | nil => exact Iff.rfl
  | cons y before ih =>
    rw [List.mem_cons, not_or] at h
    rw [List.cons_append, List.duplicate_cons_iff_of_ne h.1, ih h.2]

theorem nodup_base : base.Nodup := by
  simp [base, joinedOrInvited]

theorem nodup_exclusion (s : FilterSettings) (qs : List QuickFilter) :
    (exclusion s qs).Nodup := by
  unfold exclusion
  split <;> simp

theorem nodup_demanded (s : FilterSettings) (f : Filter) : (f.demanded s).Nodup := by
  cases f with
  | excludeAll | search query => exact List.nodup_nil
  | rooms ids filters =>
    refine List.nodup_cons.2 ⟨fun h => ?_, nodup_exclusion s filters⟩
    exact nomatch eq_of_mem_exclusion h
  | all filters => exact nodup_exclusion s filters

/-- Nothing but what was asked for occurs twice. -/
theorem not_duplicate_of_isAsked (hr : r.isAsked = false) :
    ¬ (f.asked s ++ base ++ f.demanded s).Duplicate r := by
  have ha : r ∉ f.asked s := by
    intro h
    rw [isAsked_of_mem_asked h] at hr
    cases hr
  have hd : base.Disjoint (f.demanded s) := by
    intro r hb h
    obtain ⟨ids, -, rfl⟩ | ⟨rfl, -⟩ := mem_demanded_iff.1 h <;> simp [base, joinedOrInvited] at hb
  rw [List.append_assoc, duplicate_append_iff ha]
  exact List.nodup_iff_forall_not_duplicate.1 (nodup_base.append (nodup_demanded s f) hd) r

/-- A quick filter is demanded exactly when it was asked for. -/
theorem toRemote_mem_iff (h : f.quick? = some qs) :
    q.toRemote ∈ f.asked s ++ base ++ f.demanded s ↔ q ∈ qs := by
  have hb : q.toRemote ∉ base := toRemote_notMem fun r => isAsked_of_mem_base
  have hd : q.toRemote ∉ f.demanded s := toRemote_notMem fun r => isAsked_of_mem_demanded
  rw [List.mem_append, List.mem_append, asked_of_quick? h, or_iff_left hd, or_iff_left hb]
  exact List.mem_map_of_injective QuickFilter.toRemote_injective

theorem nonLowPriority_mem_iff :
    .nonLowPriority ∈ f.asked s ++ base ++ f.demanded s ↔
      s.hideLowPriority = true ∧ ∃ qs, f.quick? = some qs ∧ .lowPriority ∉ qs := by
  have ha : .nonLowPriority ∉ f.asked s := fun h => nomatch isAsked_of_mem_asked h
  have hb : .nonLowPriority ∉ base := by simp [base, joinedOrInvited]
  rw [List.mem_append, List.mem_append, or_iff_right (not_or.2 ⟨ha, hb⟩), mem_demanded_iff]
  simp

theorem filterMap_identifiers?_eq (s : FilterSettings) (f : Filter) :
    (f.asked s ++ base ++ f.demanded s).filterMap identifiers? =
      f.ids?.toList.map StringSet.toList := by
  have ha : (f.asked s).filterMap identifiers? = [] := by
    rw [List.filterMap_eq_nil_iff]
    exact fun r hr => identifiers?_of_isAsked (isAsked_of_mem_asked hr)
  have he (filters : List QuickFilter) : (exclusion s filters).filterMap identifiers? = [] := by
    rw [List.filterMap_eq_nil_iff]
    rintro r hr
    rw [eq_of_mem_exclusion hr]
    rfl
  rw [List.filterMap_append, List.filterMap_append, ha]
  cases f with
  | excludeAll | search query => rfl
  | rooms ids filters =>
    show _ :: (exclusion s filters).filterMap identifiers? = _
    rw [he]
    rfl
  | all filters => exact he filters

/-! ## Filters of one kind -/

/-- Two filters of one kind, with the same rooms, have the same conjuncts exactly when they ask for
the same quick filters. -/
theorem sameConjuncts_iff (hf : f.quick? = some qs) (hg : g.quick? = some qs')
    (hi : f.ids? = g.ids?) :
    SameConjuncts (f.toRemote s) (g.toRemote s) ↔ ∀ q, q ∈ qs ↔ q ∈ qs' := by
  rw [toRemote_eq_all s (ne_excludeAll_of_quick? hf),
    toRemote_eq_all s (ne_excludeAll_of_quick? hg), sameConjuncts_all_iff]
  constructor
  · intro h q
    rw [← toRemote_mem_iff hf, ← toRemote_mem_iff hg]
    exact h q.toRemote
  · intro h r
    have ha : r ∈ f.asked s ↔ r ∈ g.asked s := by
      simp only [asked_of_quick? hf, asked_of_quick? hg, List.mem_map, h]
    have hd : r ∈ f.demanded s ↔ r ∈ g.demanded s := by
      simp only [mem_demanded_iff, hf, hg, hi, Option.some.injEq, exists_eq_left', h]
    simp only [List.mem_append, ha, hd]

/-- The remote form of a filter that shows anything is one conjunction.  `joinedOrInvited` and
`deduplicateVersions` are among its conjuncts once, and so are the rooms of a filter, each room once
and in order.  The exclusion of low-priority rooms is there at most once, just when the settings
hide these rooms from a filter that could have asked for them and did not, and so never beside a
request for them.  Two filters of one kind, with the same rooms, have the same conjuncts exactly
when they ask for the same quick filters, in whatever order and however often. -/
theorem conjuncts_of_toRemote (s : FilterSettings) (hf : f ≠ .excludeAll) :
    (∃ conjuncts, f.toRemote s = .all conjuncts ∧
      (∀ r ∈ [joinedOrInvited, .deduplicateVersions], r ∈ conjuncts ∧ ¬ conjuncts.Duplicate r) ∧
      (∀ ids qs, f = .rooms ids qs → ∃ names, conjuncts.filterMap identifiers? = [names] ∧
        names.Pairwise (· < ·) ∧ .ofList names = ids) ∧
      ¬ conjuncts.Duplicate .nonLowPriority ∧
      (.nonLowPriority ∈ conjuncts ↔ s.hideLowPriority = true ∧
        ∃ qs, (f = .all qs ∨ ∃ ids, f = .rooms ids qs) ∧ .lowPriority ∉ qs) ∧
      ¬ (.lowPriority ∈ conjuncts ∧ .nonLowPriority ∈ conjuncts)) ∧
    ∀ qs qs',
      (SameConjuncts ((all qs).toRemote s) ((all qs').toRemote s) ↔ ∀ q, q ∈ qs ↔ q ∈ qs') ∧
      ∀ ids, SameConjuncts ((rooms ids qs).toRemote s) ((rooms ids qs').toRemote s) ↔
        ∀ q, q ∈ qs ↔ q ∈ qs' := by
  refine ⟨⟨f.asked s ++ base ++ f.demanded s, toRemote_eq_all s hf, fun r hr => ?_, ?_,
    not_duplicate_of_isAsked rfl, ?_, ?_⟩, fun qs qs' => ⟨sameConjuncts_iff rfl rfl rfl,
    fun ids => sameConjuncts_iff rfl rfl rfl⟩⟩
  · have hb : r ∈ base := hr
    refine ⟨?_, not_duplicate_of_isAsked (isAsked_of_mem_base hb)⟩
    exact List.mem_append_left _ (List.mem_append_right _ hb)
  · rintro ids qs rfl
    exact ⟨ids.toList, filterMap_identifiers?_eq s _, ids.ascending, StringSet.ofList_toList ids⟩
  · simp only [nonLowPriority_mem_iff, quick?_eq_some_iff]
  · rintro ⟨hl, hn⟩
    obtain ⟨-, qs, hq, hne⟩ := nonLowPriority_mem_iff.1 hn
    exact hne ((toRemote_mem_iff (q := .lowPriority) hq).1 hl)

/-- Low-priority rooms that were asked for are not excluded; the order in which a filter lists its
rooms and quick filters does not matter, nor that it repeats some. -/
theorem conjuncts_of_rooms_repeated :
    let f := rooms (.ofList ["b", "a", "b"]) [.people, .lowPriority, .people]
    let s : FilterSettings := { hideLowPriority := true }
    f ≠ .excludeAll ∧
    (∃ conjuncts, f.toRemote s = .all conjuncts ∧
      conjuncts.filterMap identifiers? = [["a", "b"]] ∧ .nonLowPriority ∉ conjuncts) ∧
    SameConjuncts (f.toRemote s)
      ((rooms (.ofList ["b", "a", "b"]) [.lowPriority, .people]).toRemote s) := by
  intro f s
  have hf : f ≠ .excludeAll := nofun
  obtain ⟨⟨cs, hcs, -, hids, -, hlow, -⟩, hkinds⟩ := conjuncts_of_toRemote s hf
  refine ⟨hf, ⟨cs, hcs, ?_, fun h => ?_⟩, ?_⟩
  · obtain ⟨names, hnames, hlt, hset⟩ := hids _ _ rfl
    rw [hnames, ← StringSet.eq_of_ascending (by decide : ["a", "b"].Pairwise (· < ·)) hlt]
    intro x
    rw [← @StringSet.mem_ofList x names, hset, StringSet.mem_ofList]
    grind
  · obtain ⟨-, qs, h | ⟨ids, h⟩, hl⟩ := hlow.1 h
    · exact nomatch (h : rooms _ _ = all qs)
    · obtain rfl := (rooms.inj h).2
      exact hl (by decide)
  · refine ((hkinds _ _).2 _).2 ?_
    intro q
    cases q <;> decide

end Filter

end LiveRooms
