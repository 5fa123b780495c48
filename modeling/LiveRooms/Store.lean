import LiveRooms.Room
import LiveRooms.Viewport

/-!
# The store

The store holds the projected list.  All readers and writers go through commands, which it handles
one at a time.
-/

namespace LiveRooms

/-- A summary with the key of the room it was built from. -/
structure Entry where
  key : String
  summary : Summary
  deriving DecidableEq, Repr

/-- Builds the entry of the room behind a key. -/
def Directory.entry (d : Directory) (key : String) : Except Failure Entry :=
  (d.room key).summarize.map fun summary => ⟨key, summary⟩

/-- The list of entries and the greatest number of positions that one reading of ids covers. -/
structure Store where
  entries : List Entry
  limit : UInt64
  deriving DecidableEq, Repr

namespace Store

/-- The store without entries.  A reading of ids covers at least one position. -/
def empty (limit : UInt64) : Store := ⟨[], max limit 1⟩

/-- What is asked of a store. -/
inductive Command where
  | snapshot
  | replace (entries : List Entry)
  | count
  | ids (viewport : Viewport)
  deriving Repr

/-- What a store answers. -/
inductive Reply where
  | entries (entries : List Entry)
  | done
  | count (n : Nat)
  | ids (ids : List String)
  deriving DecidableEq, Repr

/-- The number of entries. -/
def count (s : Store) : Nat := s.entries.length

/-- The ids of the rooms in a viewport, as far as it is covered and the list reaches. -/
def ids (v : Viewport) (s : Store) : List String :=
  ((v.clamp s.limit).slice s.entries).map fun entry => entry.summary.id

/-- Handles one command. -/
def handle (s : Store) : Command → Store × Reply
  | .snapshot => (s, .entries s.entries)
  | .replace entries => ({ s with entries }, .done)
  | .count => (s, .count s.count)
  | .ids v => (s, .ids (s.ids v))

/-- The answers to some commands, one after the other. -/
def replies (s : Store) : List Command → List Reply
  | [] => []
  | command :: commands => (s.handle command).2 :: replies (s.handle command).1 commands

end Store

end LiveRooms
