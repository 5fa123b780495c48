import LiveRooms.Proofs.Batcher.Stock
import LiveRooms.Proofs.Pipeline.Reference
import LiveRooms.Proofs.Room.Directory
import LiveRooms.World.Step
import Mathlib.Logic.Function.Basic

/-!
# Prospects

A prospect is all that the list of a projection depends on, apart from the order in which the parts
make their moves: the rooms, the streams, what the batcher holds, the entries and the followers.
`Prospect.settle` says what becomes of it when nothing is left to do at an instant, and
`Prospect.step` what a step from outside does to it.  A prospect at rest stays as it is until the
window of its pending edits closes (`Prospect.settle_settle`).
-/

namespace LiveRooms

namespace Follower

/-- Whether the notices that were not read ask for a rebuild. -/
def asks (f : Follower) : Bool := !f.isFinished && (f.sawFirst && f.backlog != 0 || 2 ≤ f.backlog)

/-- A follower that has read all notices, and has finished if there will be no more. -/
def settle (f : Follower) : Follower :=
  { f with
    backlog := 0
    sawFirst := f.sawFirst || !f.isFinished && f.backlog != 0
    isFinished := f.isFinished || f.hasEnded }

/-- A follower that has finished forgets what it did not read. -/
def trim (f : Follower) : Follower := if f.isFinished then { f with backlog := 0 } else f

/-- A follower that has nothing to do. -/
structure Rests (f : Follower) : Prop where
  backlog : f.backlog = 0
  isFinished : f.hasEnded = true → f.isFinished = true

variable {f f' : Follower}

theorem rests_settle (f : Follower) : f.settle.Rests :=
  ⟨rfl, fun h => by simp [settle, show f.hasEnded = true from h]⟩

theorem Rests.asks_eq_false (h : f.Rests) : f.asks = false := by
  simp [asks, h.backlog]

theorem Rests.settle_eq_self (h : f.Rests) : f.settle = f := by
  obtain ⟨id, backlog, hasEnded, sawFirst, isFinished⟩ := f
  obtain rfl : backlog = 0 := h.backlog
  have hf : hasEnded = true → isFinished = true := h.isFinished
  cases hasEnded <;> simp_all [settle]

theorem settle_trim (f : Follower) : f.trim.settle = f.settle := by
  unfold trim
  split
  · rename_i h
    simp [settle, h]
  · rfl

theorem asks_trim (f : Follower) : f.trim.asks = f.asks := by
  unfold trim
  split
  · rename_i h
    simp [asks, h]
  · rfl

/-- Reading a notice changes nothing about what is to come. -/
theorem settle_of_read? {asked : Bool} (h : f.read? = some (f', asked)) :
    f'.settle = f.settle ∧ f.asks = (asked || f'.asks) := by
  unfold read? at h
  split at h
  · rename_i hc
    cases h
    simp only [Bool.and_eq_true, Bool.not_eq_true', bne_iff_ne, ne_eq] at hc
    obtain ⟨hf, hb⟩ := hc
    refine ⟨by simp [settle, hf, hb], ?_⟩
    rw [Bool.eq_iff_iff]
    cases hs : f.sawFirst with
    | false => simp [asks, hf, hs]; omega
    | true => simp [asks, hf, hs, hb]
  · cases h

/-- A follower finishes when there is nothing left to read. -/
theorem settle_of_finish? (h : f.finish? false = some f') :
    f'.settle = f.settle ∧ f.asks = f'.asks := by
  unfold finish? at h
  split at h
  · rename_i hc
    cases h
    simp only [Bool.false_or, Bool.and_eq_true, Bool.not_eq_true', beq_iff_eq] at hc
    obtain ⟨hf, he, hb⟩ := hc
    exact ⟨by simp [settle, hf, he, hb], by simp [asks, hb]⟩
  · cases h

theorem trim_notify (times : Nat) (f : Follower) : (f.notify times).trim = f.trim.notify times := by
  unfold trim notify
  cases hf : f.isFinished <;> cases he : f.hasEnded <;> simp [hf, he]

theorem trim_finishStream (f : Follower) : f.finishStream.trim = f.trim.finishStream := by
  unfold trim finishStream
  cases hf : f.isFinished <;> simp [hf]

@[simp] theorem id_trim (f : Follower) : f.trim.id = f.id := by
  unfold trim
  split <;> rfl

/-- A follower without a move left has nothing to do. -/
theorem rests_trim (hr : f.read? = none) (hf : f.finish? false = none) : f.trim.Rests := by
  unfold trim
  split
  · rename_i h
    exact ⟨rfl, fun _ => h⟩
  · rename_i h
    have hb : f.backlog = 0 := by simpa [read?, h] using hr
    refine ⟨hb, fun he => ?_⟩
    simp [finish?, h, hb, he] at hf

end Follower

/-- What the list of a projection depends on. -/
structure Prospect where
  config : Config
  /-- Whether the loading state of a source cannot be read. -/
  refuses : Nat → Bool
  directory : Directory
  /-- For each source that is there the updates that wait in its stream, unless it was taken. -/
  streams : Nat → Option (Option (List (List (Edit String))))
  /-- The followed source and what its batcher holds. -/
  feed : Option (Nat × Stock (Edit String))
  entries : List Entry
  wantsRebuild : Bool
  followers : List Follower

namespace Prospect

variable {p : Prospect} {now later target : Nat}

/-- Whether a rebuild is asked for, or will be at once. -/
def asks (p : Prospect) : Bool := p.wantsRebuild || p.followers.any Follower.asks

/-- The edits that are applied at once. -/
def due (now : Nat) (p : Prospect) : List (Edit String) := p.feed.elim [] fun f => f.2.due now

/-- What it comes to when nothing is left to do at an instant. -/
def settle (now : Nat) (p : Prospect) : Prospect :=
  let entries := p.directory.applyBatch (p.due now) p.entries
  { p with
    feed := p.feed.map fun f => (f.1, f.2.settle now)
    entries := if p.asks then p.directory.rebuild entries else entries
    wantsRebuild := false
    followers := p.followers.map Follower.settle }

/-- Changes the stream of a source. -/
def setStream (i : Nat) (stream : Option (Option (List (List (Edit String))))) (p : Prospect) :
    Prospect :=
  { p with streams := Function.update p.streams i stream }

/-- Changes what the batcher over the stream of a source holds. -/
def updateFeed (i : Nat) (change : Stock (Edit String) → Stock (Edit String)) (p : Prospect) :
    Prospect :=
  { p with feed := p.feed.map fun f => (f.1, if f.1 = i then change f.2 else f.2) }

/-- Changes the follower with an id. -/
def updateFollower (id : String) (change : Follower → Follower) (p : Prospect) : Prospect :=
  { p with followers := p.followers.map fun f => if f.id = id then change f else f }

/-- What a step from outside does. -/
def step (p : Prospect) : Step → Prospect
  | .attach i =>
    match p.feed, p.refuses i, p.streams i with
    | none, false, some (some updates) =>
      { p.setStream i (some none) with
        feed := some (i, { window := p.config.batchWindow.toNat, fresh := updates.flatten }) }
    | _, _, _ => p
  | .push i edits =>
    match p.streams i with
    | some stream =>
      (p.setStream i (some (stream.map fun updates => updates ++ [edits]))).updateFeed i
        (Stock.push edits)
    | none => p
  | .consume i =>
    match p.streams i with
    | some (some _) => p.setStream i (some none)
    | _ => p
  | .dropSource i => (p.setStream i none).updateFeed i Stock.finishStream
  | .settingsChanged times => { p with wantsRebuild := p.wantsRebuild || times != 0 }
  | .follow id => { p with followers := p.followers.filter (fun f => f.id != id) ++ [{ id }] }
  | .notify id times => p.updateFollower id (Follower.notify times)
  | .unfollow id => p.updateFollower id Follower.finishStream
  | .setRoom key info event readable =>
    { p with directory := p.directory.update key (Room.change info event readable) }
  | .loading .. | .report _ | .filter _ | .setService .. | .dropProjection => p

/-- A projection that is attached, or a source that cannot be followed: nothing happens. -/
theorem step_attach_eq_self {i : Nat} (h : p.feed.isSome = true ∨ p.refuses i = true ∨
    ∀ updates, p.streams i ≠ some (some updates)) : p.step (.attach i) = p := by
  simp only [step]
  split
  · rename_i hf hr hs
    rcases h with h | h | h
    · rw [hf] at h
      cases h
    · rw [hr] at h
      cases h
    · exact absurd hs (h _)
  · rfl

/-- Nothing happens at once, and nothing before the window of the pending edits closes. -/
structure RestsAt (now : Nat) (p : Prospect) : Prop where
  feed : ∀ i s, p.feed = some (i, s) → s.RestsAt now
  wantsRebuild : p.wantsRebuild = false
  followers : ∀ f ∈ p.followers, f.Rests

theorem restsAt_settle (now : Nat) (p : Prospect) : (p.settle now).RestsAt now where
  feed i s h := by
    obtain ⟨⟨j, s'⟩, -, he⟩ := Option.map_eq_some_iff.1 h
    cases he
    exact Stock.restsAt_settle now s'
  wantsRebuild := rfl
  followers f hf := by
    obtain ⟨g, -, rfl⟩ := List.mem_map.1 hf
    exact g.rests_settle

namespace RestsAt

variable (h : p.RestsAt now)
include h

theorem asks_eq_false : p.asks = false := by
  rw [asks, h.wantsRebuild, Bool.false_or, List.any_eq_false]
  exact fun f hf => by simp [(h.followers f hf).asks_eq_false]

theorem map_settle : p.followers.map Follower.settle = p.followers :=
  (List.map_congr_left fun f hf => (h.followers f hf).settle_eq_self).trans (List.map_id _)

/-- At rest nothing but pending edits are left to apply. -/
theorem settle_eq (later : Nat) :
    p.settle later =
      { p with
        feed := p.feed.map fun f => (f.1, f.2.settle later)
        entries := p.directory.applyBatch (p.due later) p.entries } := by
  rw [settle, h.asks_eq_false, h.map_settle]
  simp only [Bool.false_eq_true, if_false, h.wantsRebuild]

theorem settle_eq_self : p.settle now = p := by
  have hf : (p.feed.map fun f => (f.1, f.2.settle now)) = p.feed := by
    cases hf : p.feed with
    | none => rfl
    | some f => rw [Option.map_some, (h.feed f.1 f.2 hf).settle_eq_self]
  have hd : p.due now = [] := by
    rw [due]
    cases hf : p.feed with
    | none => rfl
    | some f => exact (h.feed f.1 f.2 hf).due_eq_nil
  rw [h.settle_eq, hf, hd]
  rfl

/-- It makes no difference whether one looks in between. -/
theorem settle_settle (hl : later ≤ target) :
    (p.settle later).settle target = p.settle target := by
  rw [(restsAt_settle later p).settle_eq, h.settle_eq later, h.settle_eq target]
  simp only [due, Option.map_map]
  cases hf : p.feed with
  | none => rfl
  | some f =>
    obtain ⟨hdue, hrest⟩ := (h.feed f.1 f.2 hf).settle_settle hl
    simp only [Option.map_some, Option.elim, Function.comp_apply, hrest,
      ← Directory.applyBatch_append, hdue]

end RestsAt

end Prospect

end LiveRooms
