import Mathlib.Data.List.Chain
import LiveRooms.Proofs.World.Considered

/-!
# Requests in a row

Two requests in a row are never the same list of ids.  They can still name the same rooms: a room
that moved in the list between them makes a list of the same ids in another order, and so does a
list in which a room stands twice.  Where the stored list names no room twice and the rooms of the
request before stand in it in the same order, the next request names other rooms.
-/

namespace LiveRooms

/-- A request to the service, with the ids that were stored when it was made. -/
structure Request where
  stored : List String
  ids : List String
  deriving DecidableEq, Repr

/-- Two requests name the same rooms. -/
def Request.NamesSame (r r' : Request) : Prop := ∀ id, id ∈ r.ids ↔ id ∈ r'.ids

/-- The requests in a log, in order. -/
def requestsOf (log : List Moment) : List Request :=
  log.flatMap fun m => m.requests.map (Request.mk m.before.storedIds)

/-- What stands in both of two lists stands there in the same order. -/
def KeepsOrder (l l' : List String) : Prop := l.filter (· ∈ l') = l'.filter (· ∈ l)

instance (l l' : List String) : Decidable (KeepsOrder l l') := inferInstanceAs (Decidable (_ = _))

section

variable {l l' k : List String}

/-- A list in which nothing is repeated has its parts at the places of their members. -/
theorem filter_mem_eq_of_sublist (hk : k.Nodup) (h : l.Sublist k) : k.filter (· ∈ l) = l := by
  have hself : l.filter (· ∈ l) = l := List.filter_eq_self.2 fun a ha => by simpa using ha
  have hl : l.Sublist (k.filter (· ∈ l)) := by
    have hs := h.filter (· ∈ l)
    rwa [hself] at hs
  have hp : (k.filter (· ∈ l)).Perm l := by
    refine (List.perm_ext_iff_of_nodup (hk.filter _) (hk.sublist h)).2 fun a => ?_
    simpa using fun ha => h.subset ha
  exact (hl.eq_of_length hp.length_eq.symm).symm

theorem eq_of_keepsOrder (hk : k.Nodup) (ho : KeepsOrder l k) (h : l'.Sublist k)
    (hm : ∀ a, a ∈ l ↔ a ∈ l') : l = l' := by
  have hself : l.filter (· ∈ k) = l :=
    List.filter_eq_self.2 fun a ha => by simpa using h.subset ((hm a).1 ha)
  calc l = l.filter (· ∈ k) := hself.symm
    _ = k.filter (· ∈ l) := ho
    _ = k.filter (· ∈ l') := List.filter_congr fun a _ => by simp [hm a]
    _ = l' := filter_mem_eq_of_sublist hk h

end

/-! ## Along a course -/

theorem World.sublist_idsIn (limit : Nat) (v : Viewport) (w : World) :
    (w.idsIn limit v).Sublist w.storedIds :=
  (List.drop_sublist _ _).trans (List.take_sublist _ _)

/-- Each request is for a part of what is stored and differs from the one before it. -/
structure Asks (log : List Moment) : Prop where
  sublist : ∀ r ∈ requestsOf log, r.ids.Sublist r.stored
  chain : (requestsOf log).IsChain fun r r' => r.ids ≠ r'.ids

section

variable {log : List Moment} {m : Moment} {config : Config}

theorem requestsOf_snoc (log : List Moment) (m : Moment) :
    requestsOf (log ++ [m]) = requestsOf log ++ m.requests.map (Request.mk m.before.storedIds) := by
  simp [requestsOf, List.flatMap_append]

theorem map_ids_requestsOf (log : List Moment) :
    (requestsOf log).map Request.ids = log.flatMap Moment.requests := by
  simp [requestsOf, List.map_flatMap, Function.comp_def]

theorem lastRequest?_eq (log : List Moment) :
    lastRequest? log = (requestsOf log).getLast?.map Request.ids := by
  rw [lastRequest?, ← map_ids_requestsOf, List.getLast?_map]

/-- At most one thing is asked for at a moment, and never what was asked for last. -/
theorem Records.requests_cases (h : Records config log m.before.subscriberSide)
    (hm : m.Stirs m.after.subscriberSide) :
    m.requests = [] ∨ ∃ ids, m.requests = [ids] ∧ ids.Sublist m.before.storedIds ∧
      lastRequest? log ≠ some ids := by
  rw [hm.requests_eq]
  split
  · rw [h.request?_eq]
    split
    · rename_i hc
      exact Or.inr ⟨_, rfl, World.sublist_idsIn .., hc.2.2⟩
    · exact Or.inl rfl
  · exact Or.inl rfl

theorem Asks.stirs (h : Asks log) (hrec : Records config log m.before.subscriberSide)
    (hm : m.Stirs m.after.subscriberSide) : Asks (log ++ [m]) := by
  have hsnoc := requestsOf_snoc log m
  rcases hrec.requests_cases hm with hn | ⟨ids, hn, hs, hl⟩
  · rw [hn, List.map_nil, List.append_nil] at hsnoc
    exact ⟨hsnoc ▸ h.sublist, hsnoc ▸ h.chain⟩
  · rw [hn, List.map_singleton] at hsnoc
    refine ⟨fun r hr => ?_, hsnoc ▸ List.isChain_append.2 ⟨h.chain, .singleton _, ?_⟩⟩
    · rw [hsnoc] at hr
      rcases List.mem_append.1 hr with hr | hr
      · exact h.sublist r hr
      · rw [List.mem_singleton.1 hr]
        exact hs
    · rintro r hr r' hr' he
      obtain rfl := Option.some.inj hr'
      rw [lastRequest?_eq, Option.mem_def.1 hr] at hl
      exact hl (congrArg some he)

end

namespace World

variable {config : Config} {sources : List Source} {directory : Directory} {log : List Moment}
  {t : Timeline World}

theorem asks_of_course (hc : Course (origin config sources directory) log t) : Asks log :=
  hc.moment_induction (P := fun log _ => Asks log) ⟨by simp [requestsOf], .nil⟩
    fun _ _ hc hm h => h.stirs (records_of_course hc) (stirs_of_happens hm)

/-- Two requests in a row are never the same list.  Where the list stored at the second names no
room twice, and holds what the first one named in that order, they do not name the same rooms. -/
theorem requests_differ_of_course (hc : Course (origin config sources directory) log t) :
    t.state.remote.service.requests = (requestsOf log).map Request.ids ∧
    ∀ early r r' late, requestsOf log = early ++ r :: r' :: late →
      r.ids ≠ r'.ids ∧
      (r'.stored.Nodup → KeepsOrder r.ids r'.stored → ¬ r.NamesSame r') := by
  refine ⟨(records_of_course hc).requests_eq.trans (map_ids_requestsOf log).symm, ?_⟩
  intro early r r' late he
  obtain ⟨hs, hchain⟩ := asks_of_course hc
  rw [he] at hs hchain
  obtain ⟨-, hne, -⟩ := List.isChain_append_cons_cons.1 hchain
  exact ⟨hne, fun hd ho hm => hne (eq_of_keepsOrder hd ho (hs r' (by simp)) hm)⟩

/-- A viewport that grows leads to a request for more rooms. -/
theorem requests_of_growing_viewport : ∃ log t,
    Course (origin { managesSubscriptions := true } [{}] ⟨[]⟩) log t ∧
    stepsOf log =
      [.attach 0, .push 0 [.pushBack "a", .pushBack "b"], .report [⟨0, 1⟩], .report [⟨0, 2⟩]] ∧
    t.state.remote.service.requests = [["a"], ["a", "b"]] ∧
    requestsOf log = [⟨["a", "b"], ["a"]⟩, ⟨["a", "b"], ["a", "b"]⟩] ∧
    ¬ Request.NamesSame ⟨["a", "b"], ["a"]⟩ ⟨["a", "b"], ["a", "b"]⟩ := by
  have h₀ : Course (origin { managesSubscriptions := true } [{}] ⟨[]⟩) [] _ := .start
  have h₁ := ((h₀.step (.attach 0)).step (.push 0 [.pushBack "a", .pushBack "b"])).move
    (.batch .read) rfl
  have h₂ := ((h₁.wait 100 (by decide)).move (.batch .release) rfl).move (.batch .hand) rfl
  have h₃ := ((h₂.move .applyBatch rfl).step (.report [⟨0, 1⟩])).move .noticeReport rfl
  have h₄ := ((h₃.wait 600 (by decide)).move .considerViewport rfl).step (.report [⟨0, 2⟩])
  have h₅ := ((h₄.move .noticeReport rfl).wait 1100 (by decide)).move .considerViewport rfl
  obtain ⟨hreq, hdiff⟩ := requests_differ_of_course h₅
  obtain ⟨-, hsame⟩ := hdiff [] _ _ [] rfl
  exact ⟨_, _, h₅, rfl, hreq, rfl, hsame (by decide) (by decide)⟩

/-- Two requests in a row name the same rooms when one of the rooms moved in between. -/
theorem exists_requests_of_moved_room : ∃ log t,
    Punctual (origin { managesSubscriptions := true } [{}] ⟨[]⟩) log t ∧
    stepsOf log =
      [.attach 0, .push 0 [.pushBack "a", .pushBack "b"], .report [⟨0, 2⟩],
        .push 0 [.removeAt 0, .pushBack "a"], .report [⟨0, 2⟩]] ∧
    t.state.remote.service.requests = [["a", "b"], ["b", "a"]] ∧
    requestsOf log = [⟨["a", "b"], ["a", "b"]⟩, ⟨["b", "a"], ["b", "a"]⟩] ∧
    Request.NamesSame ⟨["a", "b"], ["a", "b"]⟩ ⟨["b", "a"], ["b", "a"]⟩ := by
  have h₀ : Punctual (origin { managesSubscriptions := true } [{}] ⟨[]⟩) [] _ := .start
  have h₁ := ((h₀.step (.attach 0)).step (.push 0 [.pushBack "a", .pushBack "b"])).move
    (.batch .read) rfl
  have h₂ := (h₁.sleep_of 100 (by decide) rfl (by decide)).move (.batch .release) rfl
  have h₃ := ((h₂.move (.batch .hand) rfl).move .applyBatch rfl).step (.report [⟨0, 2⟩])
  have h₄ := (h₃.move .lookAtViewport rfl).move .noticeReport rfl
  have h₅ := (h₄.sleep_of 600 (by decide) rfl (by decide)).move .wakePager rfl
  have h₆ := (h₅.move .considerViewport rfl).step (.push 0 [.removeAt 0, .pushBack "a"])
  have h₇ := (h₆.move (.batch .read) rfl).sleep_of 700 (by decide) rfl (by decide)
  have h₈ := ((h₇.move (.batch .release) rfl).move (.batch .hand) rfl).move .applyBatch rfl
  have h₉ := ((h₈.step (.report [⟨0, 2⟩])).move .lookAtViewport rfl).move .noticeReport rfl
  have h := (h₉.sleep_of 1200 (by decide) rfl (by decide)).move .considerViewport rfl
  exact ⟨_, _, h, rfl, rfl, rfl, fun id => by simp [or_comm]⟩

end World

end LiveRooms
