import LiveRooms.Filter
import Mathlib.Data.List.Basic

/-!
# What the remote form of a filter keeps

The conjuncts of a remote form are what was asked for, the two base filters, and what else is
demanded (`toRemote_eq_all`).  The first base filter is neither asked for nor demanded by anything
else, so it shows where the one part ends and the other begins (`append_base_inj`), and each of the
two parts can be read back.  The remote form therefore determines the filter, and of the settings
only what the filter depends on (`toRemote_eq_toRemote_iff`).
-/

namespace LiveRooms

theorem QuickFilter.toRemote_injective : Function.Injective QuickFilter.toRemote := by
  intro q r h
  cases q <;> cases r <;> first | rfl | exact nomatch h

namespace Filter

variable {s t : FilterSettings} {f g : Filter} {qs : List QuickFilter} {query query' : String}

/-! ## The two parts of a remote form -/

/-- The conjuncts before the base filters: what was asked for. -/
def asked (s : FilterSettings) : Filter → List RemoteFilter
  | .excludeAll => []
  | .search query => [nameFilter s query]
  | .rooms _ filters => filters.map QuickFilter.toRemote
  | .all filters => filters.map QuickFilter.toRemote

/-- The conjuncts after the base filters. -/
def demanded (s : FilterSettings) : Filter → List RemoteFilter
  | .excludeAll => []
  | .search _ => []
  | .rooms ids filters => .identifiers ids.toList :: exclusion s filters
  | .all filters => exclusion s filters

theorem toRemote_eq_all (s : FilterSettings) (hf : f ≠ .excludeAll) :
    f.toRemote s = .all (f.asked s ++ RemoteFilter.base ++ f.demanded s) := by
  cases f with
  | excludeAll => exact absurd rfl hf
  | search query => rfl
  | rooms ids filters =>
    rw [toRemote, asked, demanded, List.append_assoc, List.singleton_append]
  | all filters => rfl

theorem joinedOrInvited_notMem_asked (s : FilterSettings) (f : Filter) :
    RemoteFilter.joinedOrInvited ∉ f.asked s := by
  have hq (filters : List QuickFilter) :
      RemoteFilter.joinedOrInvited ∉ filters.map QuickFilter.toRemote := by
    rw [List.mem_map]
    rintro ⟨q, -, h⟩
    cases q <;> exact nomatch h
  cases f with
  | excludeAll => nofun
  | search query =>
    rw [asked, List.mem_singleton, nameFilter]
    split <;> nofun
  | rooms ids filters => exact hq filters
  | all filters => exact hq filters

theorem eq_of_mem_exclusion {r : RemoteFilter} (h : r ∈ exclusion s qs) : r = .nonLowPriority := by
  unfold exclusion at h
  split at h
  · exact List.mem_singleton.1 h
  · cases h

theorem joinedOrInvited_notMem_demanded (s : FilterSettings) (f : Filter) :
    RemoteFilter.joinedOrInvited ∉ f.demanded s := by
  have he (filters : List QuickFilter) :
      RemoteFilter.joinedOrInvited ∉ exclusion s filters := fun h =>
    nomatch eq_of_mem_exclusion h
  cases f with
  | excludeAll => nofun
  | search query => nofun
  | rooms ids filters =>
    rw [demanded, List.mem_cons, not_or]
    exact ⟨nofun, he filters⟩
  | all filters => exact he filters

/-- The base filters show where the two parts meet. -/
theorem append_base_inj {before before' after after' : List RemoteFilter}
    (hb : RemoteFilter.joinedOrInvited ∉ before) (ha : RemoteFilter.joinedOrInvited ∉ after) :
    before ++ RemoteFilter.base ++ after = before' ++ RemoteFilter.base ++ after' ↔
      before = before' ∧ after = after' := by
  have ha' : RemoteFilter.joinedOrInvited ∉ RemoteFilter.deduplicateVersions :: after := by
    rw [List.mem_cons, not_or]
    exact ⟨nofun, ha⟩
  rw [List.append_assoc, List.append_assoc]
  refine (List.append_cons_inj_of_notMem hb ha').trans ?_
  show before = before' ∧ _ ∧ .deduplicateVersions :: after = .deduplicateVersions :: after' ↔ _
  simp only [List.cons.injEq, true_and]

/-! ## Reading the parts back -/

/-- The settings do not differ in what the remote form of the filter depends on. -/
def SameChoice (s t : FilterSettings) : Filter → Prop
  | .excludeAll => True
  | .search _ => s.fuzzySearch = t.fuzzySearch
  | .rooms _ filters => .lowPriority ∉ filters → s.hideLowPriority = t.hideLowPriority
  | .all filters => .lowPriority ∉ filters → s.hideLowPriority = t.hideLowPriority

theorem exclusion_eq_iff :
    exclusion s qs = exclusion t qs ↔
      (.lowPriority ∉ qs → s.hideLowPriority = t.hideLowPriority) := by
  unfold exclusion
  by_cases h : QuickFilter.lowPriority ∈ qs
  · simp [h]
  · cases s.hideLowPriority <;> cases t.hideLowPriority <;> simp [h]

theorem nameFilter_eq_iff :
    nameFilter s query = nameFilter t query' ↔
      query = query' ∧ s.fuzzySearch = t.fuzzySearch := by
  unfold nameFilter
  cases s.fuzzySearch <;> cases t.fuzzySearch <;> simp

/-- A name is no quick filter. -/
theorem nameFilter_notMem_map (s : FilterSettings) (query : String) (filters : List QuickFilter) :
    nameFilter s query ∉ filters.map QuickFilter.toRemote := by
  rw [List.mem_map]
  rintro ⟨q, -, h⟩
  unfold nameFilter at h
  split at h <;> cases q <;> exact nomatch h

theorem singleton_ne_map (s : FilterSettings) (query : String) (filters : List QuickFilter) :
    [nameFilter s query] ≠ filters.map QuickFilter.toRemote := fun h =>
  nameFilter_notMem_map s query filters (h ▸ List.mem_singleton_self _)

theorem identifiers_cons_ne_exclusion (ids : List String) (rest : List RemoteFilter) :
    .identifiers ids :: rest ≠ exclusion s qs := fun h =>
  nomatch eq_of_mem_exclusion (h ▸ List.mem_cons_self : .identifiers ids ∈ exclusion s qs)

/-- The two parts determine the filter, and of the settings what the filter depends on. -/
theorem parts_eq_iff (hf : f ≠ .excludeAll) (hg : g ≠ .excludeAll) :
    (f.asked s = g.asked t ∧ f.demanded s = g.demanded t) ↔ f = g ∧ SameChoice s t f := by
  cases f with
  | excludeAll => exact absurd rfl hf
  | search query =>
    cases g with
    | excludeAll => exact absurd rfl hg
    | search query' =>
      simp only [asked, demanded, SameChoice, List.cons.injEq, nameFilter_eq_iff, search.injEq,
        and_true]
    | rooms ids filters => exact iff_of_false (fun h => singleton_ne_map s query filters h.1) nofun
    | all filters => exact iff_of_false (fun h => singleton_ne_map s query filters h.1) nofun
  | rooms ids qs =>
    cases g with
    | excludeAll => exact absurd rfl hg
    | search query => exact iff_of_false (fun h => singleton_ne_map t query qs h.1.symm) nofun
    | rooms ids' qs' =>
      simp only [asked, demanded, SameChoice, List.cons.injEq, RemoteFilter.identifiers.injEq,
        QuickFilter.toRemote_injective.list_map.eq_iff, rooms.injEq, ← exclusion_eq_iff]
      constructor
      · rintro ⟨rfl, hi, he⟩
        exact ⟨⟨StringSet.ext_mem fun s => by rw [hi], rfl⟩, he⟩
      · rintro ⟨⟨rfl, rfl⟩, he⟩
        exact ⟨rfl, rfl, he⟩
    | all qs' =>
      exact iff_of_false (fun h => identifiers_cons_ne_exclusion _ _ h.2) nofun
  | all qs =>
    cases g with
    | excludeAll => exact absurd rfl hg
    | search query => exact iff_of_false (fun h => singleton_ne_map t query qs h.1.symm) nofun
    | rooms ids' qs' =>
      exact iff_of_false (fun h => identifiers_cons_ne_exclusion _ _ h.2.symm) nofun
    | all qs' =>
      simp only [asked, demanded, SameChoice, QuickFilter.toRemote_injective.list_map.eq_iff,
        all.injEq, ← exclusion_eq_iff]
      constructor
      · rintro ⟨rfl, he⟩
        exact ⟨rfl, he⟩
      · rintro ⟨rfl, he⟩
        exact ⟨rfl, he⟩

theorem toRemote_eq_nothing_iff : f.toRemote s = .nothing ↔ f = .excludeAll := by
  constructor
  · intro h
    by_contra hf
    rw [toRemote_eq_all s hf] at h
    cases h
  · rintro rfl
    rfl

/-- Two remote forms are the same exactly when they are forms of one filter, under settings that do
not differ in what it depends on. -/
theorem toRemote_eq_toRemote_iff (f g : Filter) (s t : FilterSettings) :
    f.toRemote s = g.toRemote t ↔ f = g ∧ SameChoice s t f := by
  by_cases hf : f = .excludeAll
  · subst hf
    show RemoteFilter.nothing = _ ↔ _
    rw [eq_comm, toRemote_eq_nothing_iff, eq_comm]
    exact (and_iff_left trivial).symm
  · by_cases hg : g = .excludeAll
    · subst hg
      show _ = RemoteFilter.nothing ↔ _
      rw [toRemote_eq_nothing_iff]
      exact iff_of_false hf fun h => hf h.1
    · rw [toRemote_eq_all s hf, toRemote_eq_all t hg, RemoteFilter.all.injEq,
        append_base_inj (joinedOrInvited_notMem_asked s f) (joinedOrInvited_notMem_demanded s f),
        parts_eq_iff hf hg]

end Filter

end LiveRooms
