import LiveRooms.Pipeline.Reading
import LiveRooms.Proofs.Edit.Mapping
import Mathlib.Data.List.Forall2

/-!
# What reading rooms one at a time comes to

While no room changes, a job computes what applying the batch or rebuilding at once does
(`run_applyBatch`, `run_rebuild`).  Otherwise each read sees the rooms as they are then: `Goes`
relates a computation to what is left of it after some reads.  An entry that a batch leaves was
there before or was built from one of its reads (`mem_of_goes_applyBatch`); a rebuild reads every
entry again and leaves it in its place (`forall₂_of_goes_rebuild`).
-/

namespace LiveRooms

/-- A question about a room, with the rooms as they are when it is asked. -/
structure Read where
  question : Question
  directory : Directory

/-- The summary of an entry was built from an event and metadata read among some reads. -/
def BuiltFrom (reads : List Read) (entry : Entry) : Prop :=
  ∃ d d' info, ⟨.event entry.key, d⟩ ∈ reads ∧ ⟨.info entry.key, d'⟩ ∈ reads ∧
    d'.info entry.key = .ok info ∧ entry.summary = .of info (d.event entry.key)

/-- The metadata of an entry were asked for and could not be read. -/
def RefusedIn (reads : List Read) (entry : Entry) : Prop :=
  ∃ d failure, ⟨.info entry.key, d⟩ ∈ reads ∧ d.info entry.key = .error failure

/-- What a rebuild makes of an entry: one built from some of the reads, or the same one if its room
could not be read in one of them. -/
def Reread (reads : List Read) (old new : Entry) : Prop :=
  new.key = old.key ∧ (BuiltFrom reads new ∨ RefusedIn reads new ∧ new = old)

/-- Every entry was built from some of the reads, or its room could not be read in one of them. -/
def Covers (reads : List Read) (entries : List Entry) : Prop :=
  ∀ entry ∈ entries, BuiltFrom reads entry ∨ RefusedIn reads entry

section

variable {reads reads' : List Read} {entry : Entry} {entries : List Entry}

theorem BuiltFrom.mono (h : BuiltFrom reads entry) (hs : reads ⊆ reads') :
    BuiltFrom reads' entry := by
  obtain ⟨d, d', info, he, hi, hb⟩ := h
  exact ⟨d, d', info, hs he, hs hi, hb⟩

theorem RefusedIn.mono (h : RefusedIn reads entry) (hs : reads ⊆ reads') :
    RefusedIn reads' entry := by
  obtain ⟨d, failure, hi, hf⟩ := h
  exact ⟨d, failure, hs hi, hf⟩

theorem Reread.mono {old : Entry} (h : Reread reads old entry) (hs : reads ⊆ reads') :
    Reread reads' old entry :=
  ⟨h.1, h.2.imp (fun hb => hb.mono hs) fun hr => ⟨hr.1.mono hs, hr.2⟩⟩

theorem Covers.mono (h : Covers reads entries) (hs : reads ⊆ reads') : Covers reads' entries :=
  fun entry he => (h entry he).imp (fun hb => hb.mono hs) fun hr => hr.mono hs

/-- Every entry after a rebuild comes from one before it. -/
theorem exists_reread_of_mem {olds news : List Entry} (h : List.Forall₂ (Reread reads) olds news)
    (he : entry ∈ news) : ∃ old ∈ olds, Reread reads old entry := by
  obtain ⟨i, hi, rfl⟩ := List.getElem_of_mem he
  exact ⟨olds.get ⟨i, h.length_eq ▸ hi⟩, List.get_mem _ _, h.get _ hi⟩

end

namespace Reading

variable {α β : Type} {d : Directory} {reads : List Read}

/-! ## While the rooms stay as they are -/

theorem run_bind (x : Reading α) (f : α → Reading β) : (x.bind f).run d = (f (x.run d)).run d := by
  induction x with
  | done a => rfl
  | ask q next ih => exact ih _

theorem run_map (x : Reading α) (f : α → β) : (x.map f).run d = f (x.run d) := run_bind x _

theorem run_entry (d : Directory) (key : String) : (entry key).run d = d.entry key := by
  show Except.map _ (d.info key) = _
  unfold Directory.info Directory.entry Room.summarize
  cases (d.room key).fetch <;> rfl

theorem run_entries (d : Directory) (keys : List String) :
    (entries keys).run d = keys.mapM d.entry := by
  induction keys with
  | nil => rfl
  | cons key keys ih =>
    rw [List.mapM_cons, ← ih, entries, run_bind, run_entry]
    cases d.entry key with
    | error failure => rfl
    | ok entry =>
      show ((entries keys).map _).run d = _
      rw [run_map]
      cases (entries keys).run d <;> rfl

theorem run_build (d : Directory) (edit : Edit String) :
    (build edit).run d = edit.traverse d.entry := by
  cases edit with
  | append keys | reset keys =>
    rw [build, run_map, run_entries]; rfl
  | insertAt index key | setAt index key | pushBack key | pushFront key =>
    rw [build, run_map, run_entry]; rfl
  | clear | popBack | popFront | removeAt index | truncate length => rfl

theorem run_applyEdit (d : Directory) (items : List Entry) (edit : Edit String) :
    (applyEdit items edit).run d = d.applyEdit items edit := by
  unfold applyEdit Directory.applyEdit
  cases edit.check items.length with
  | error fault => rfl
  | ok _ =>
    show ((build edit).map _).run d = _
    rw [run_map, run_build]
    cases edit.traverse d.entry <;> rfl

theorem run_applyBatch (d : Directory) (edits : List (Edit String)) (items : List Entry) :
    (applyBatch edits items).run d = d.applyBatch edits items := by
  induction edits generalizing items with
  | nil => rfl
  | cons edit edits ih =>
    rw [applyBatch, run_bind, run_applyEdit, ih]
    rfl

theorem run_rebuild (d : Directory) (items : List Entry) :
    (rebuild items).run d = d.rebuild items := by
  induction items with
  | nil => rfl
  | cons entry items ih =>
    rw [rebuild, run_bind, run_entry, run_map, ih]
    rfl

/-! ## While rooms change -/

/-- Some reads take a computation to what is left of it. -/
inductive Goes : Reading β → List Read → Reading β → Prop where
  | refl (x : Reading β) : Goes x [] x
  | ask {q : Question} {next : q.Answer → Reading β} {y : Reading β} {reads : List Read}
      (d : Directory) :
      Goes (next (d.answer q)) reads y → Goes (ask q next) (⟨q, d⟩ :: reads) y

theorem Goes.snoc {x : Reading β} {q : Question} {next : q.Answer → Reading β}
    (h : Goes x reads (.ask q next)) (d : Directory) :
    Goes x (reads ++ [⟨q, d⟩]) (next (d.answer q)) := by
  generalize hy : Reading.ask q next = y at h
  induction h with
  | refl x => subst hy; exact .ask d (.refl _)
  | ask d' _ ih => exact .ask d' (ih hy)

theorem exists_goes_of_bind {x : Reading α} {f : α → Reading β} {b : β}
    (h : Goes (x.bind f) reads (.done b)) : ∃ reads₁ reads₂ a, reads = reads₁ ++ reads₂ ∧
      Goes x reads₁ (.done a) ∧ Goes (f a) reads₂ (.done b) := by
  induction x generalizing reads with
  | done a => exact ⟨[], reads, a, rfl, .refl _, h⟩
  | ask q next ih =>
    cases h with
    | ask d h =>
      obtain ⟨reads₁, reads₂, a, rfl, h₁, h₂⟩ := ih _ h
      exact ⟨_ :: reads₁, reads₂, a, rfl, .ask d h₁, h₂⟩

theorem exists_goes_of_map {x : Reading α} {f : α → β} {b : β}
    (h : Goes (x.map f) reads (.done b)) : ∃ a, Goes x reads (.done a) ∧ f a = b := by
  obtain ⟨reads₁, reads₂, a, rfl, h₁, h₂⟩ := exists_goes_of_bind h
  cases h₂ with
  | refl => exact ⟨a, by rwa [List.append_nil], rfl⟩

/-- The entry of a room is built from two reads. -/
theorem reads_of_goes_entry {key : String} {answer : Except Failure Entry}
    (h : Goes (entry key) reads (.done answer)) :
    ∃ d d', reads = [⟨.event key, d⟩, ⟨.info key, d'⟩] ∧
      answer = (d'.info key).map fun info => ⟨key, .of info (d.event key)⟩ := by
  cases h with
  | ask d h =>
    cases h with
    | ask d' h =>
      cases h with
      | refl => exact ⟨d, d', rfl, rfl⟩

theorem builtFrom_of_goes_entry {key : String} {entry : Entry}
    (h : Goes (Reading.entry key) reads (.done (.ok entry))) :
    entry.key = key ∧ BuiltFrom reads entry := by
  obtain ⟨d, d', rfl, ha⟩ := reads_of_goes_entry h
  cases hi : d'.info key with
  | error failure => rw [hi] at ha; cases ha
  | ok info =>
    rw [hi] at ha
    cases ha
    exact ⟨rfl, d, d', info, by simp, by simp, hi, rfl⟩

theorem refusedIn_of_goes_entry {entry : Entry} {failure : Failure}
    (h : Goes (Reading.entry entry.key) reads (.done (.error failure))) :
    RefusedIn reads entry := by
  obtain ⟨d, d', rfl, ha⟩ := reads_of_goes_entry h
  cases hi : d'.info entry.key with
  | error failure' => exact ⟨d', failure', by simp, hi⟩
  | ok info => rw [hi] at ha; cases ha

theorem builtFrom_of_goes_entries {keys : List String} {built : List Entry}
    (h : Goes (entries keys) reads (.done (.ok built))) :
    ∀ entry ∈ built, BuiltFrom reads entry := by
  induction keys generalizing reads built with
  | nil => cases h with | refl => simp
  | cons key keys ih =>
    obtain ⟨reads₁, reads₂, answer, rfl, h₁, h₂⟩ := exists_goes_of_bind h
    cases answer with
    | error failure => cases h₂
    | ok fresh =>
      obtain ⟨built', h', hb⟩ := exists_goes_of_map h₂
      cases built' with
      | error failure => cases hb
      | ok built' =>
        cases hb
        intro entry he
        rcases List.mem_cons.1 he with rfl | he
        · exact (builtFrom_of_goes_entry h₁).2.mono (List.subset_append_left _ _)
        · exact (ih h' entry he).mono (List.subset_append_right _ _)

theorem builtFrom_of_goes_build {edit : Edit String} {built : Edit Entry}
    (h : Goes (build edit) reads (.done (.ok built))) :
    ∀ entry ∈ built.payload, BuiltFrom reads entry := by
  cases edit with
  | append keys | reset keys =>
    obtain ⟨built', h', hb⟩ := exists_goes_of_map h
    cases built' with
    | error failure => cases hb
    | ok built' => cases hb; exact builtFrom_of_goes_entries h'
  | insertAt index key | setAt index key | pushBack key | pushFront key =>
    obtain ⟨built', h', hb⟩ := exists_goes_of_map h
    cases built' with
    | error failure => cases hb
    | ok fresh =>
      cases hb
      intro entry he
      rw [List.mem_singleton.1 he]
      exact (builtFrom_of_goes_entry h').2
  | clear | popBack | popFront | removeAt index | truncate length =>
    cases h with | refl => simp [Edit.payload]

theorem mem_of_goes_applyEdit {edit : Edit String} {items items' : List Entry}
    (h : Goes (applyEdit items edit) reads (.done items')) :
    ∀ entry ∈ items', entry ∈ items ∨ BuiltFrom reads entry := by
  unfold applyEdit at h
  split at h
  · cases h
    exact fun entry he => Or.inl he
  · obtain ⟨built, h', rfl⟩ := exists_goes_of_map h
    intro entry he
    cases built with
    | error failure => exact Or.inl he
    | ok built =>
      simp only [applyBuilt] at he
      split at he
      · exact Or.inl he
      · rename_i items' ha
        rw [Edit.apply_eq_ok_iff] at ha
        rw [← ha.2] at he
        exact (Edit.mem_of_mem_edited he).imp id (builtFrom_of_goes_build h' entry)

/-- An entry that a batch leaves was there or was built from one of its reads. -/
theorem mem_of_goes_applyBatch {edits : List (Edit String)} {items items' : List Entry}
    (h : Goes (applyBatch edits items) reads (.done items')) :
    ∀ entry ∈ items', entry ∈ items ∨ BuiltFrom reads entry := by
  induction edits generalizing items reads with
  | nil =>
    cases h
    exact fun entry he => Or.inl he
  | cons edit edits ih =>
    obtain ⟨reads₁, reads₂, between, rfl, h₁, h₂⟩ := exists_goes_of_bind h
    intro entry he
    rcases ih h₂ entry he with he | hb
    · exact (mem_of_goes_applyEdit h₁ entry he).imp id
        fun hb => hb.mono (List.subset_append_left _ _)
    · exact Or.inr (hb.mono (List.subset_append_right _ _))

/-- A rebuild reads the entries again one by one and leaves each in its place. -/
theorem forall₂_of_goes_rebuild {items items' : List Entry}
    (h : Goes (rebuild items) reads (.done items')) :
    List.Forall₂ (Reread reads) items items' := by
  induction items generalizing reads items' with
  | nil => cases h with | refl => exact .nil
  | cons old items ih =>
    obtain ⟨reads₁, reads₂, answer, rfl, h₁, h₂⟩ := exists_goes_of_bind h
    obtain ⟨rest, h', rfl⟩ := exists_goes_of_map h₂
    have hold : Reread reads₁ old (kept old answer) := by
      cases answer with
      | error failure => exact ⟨rfl, Or.inr ⟨refusedIn_of_goes_entry h₁, rfl⟩⟩
      | ok fresh =>
        obtain ⟨hk, hb⟩ := builtFrom_of_goes_entry h₁
        exact ⟨hk, Or.inl hb⟩
    refine .cons (hold.mono (List.subset_append_left _ _)) ((ih h').imp fun _ _ hr => ?_)
    exact hr.mono (List.subset_append_right _ _)

/-- Every entry that a rebuild leaves was read again. -/
theorem covers_of_goes_rebuild {items items' : List Entry}
    (h : Goes (rebuild items) reads (.done items')) : Covers reads items' := by
  intro entry he
  obtain ⟨old, -, -, hr⟩ := exists_reread_of_mem (forall₂_of_goes_rebuild h) he
  exact hr.imp id And.left

end Reading

/-- A job leaves covered what was covered, and a rebuild covers everything. -/
theorem Job.covers_of_goes {job : Job} {reads reads' : List Read} {items items' : List Entry}
    (h : (job.task items).Goes reads (.done items')) (hs : reads ⊆ reads')
    (hc : job = .rebuild ∨ Covers reads' items) : Covers reads' items' := by
  cases job with
  | rebuild => exact (Reading.covers_of_goes_rebuild h).mono hs
  | batch edits =>
    have hc : Covers reads' items := hc.resolve_left (by simp)
    intro entry he
    rcases Reading.mem_of_goes_applyBatch h entry he with he | hb
    · exact hc entry he
    · exact Or.inl (hb.mono hs)

end LiveRooms
