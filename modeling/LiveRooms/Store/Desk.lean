import LiveRooms.Store
import Mathlib.Logic.Function.Basic

/-!
# Desks

A desk is a store and the clients that share it.  A client calls with a command and sends it as soon
as the channel has room; the store handles the commands of the channel in order; and the client
receives the reply before it calls again.  Whose turn it is next is left open.  There can be any
number of clients, so one that gives up is a client that takes no more turns, and whoever asks in
its place is another one.
-/

namespace LiveRooms

/-- The number of commands that the channel to a store has room for. -/
def Store.commandCapacity : Nat := 64

/-- What a client of a desk is doing. -/
inductive Desk.Stage where
  | idle
  /-- It has a command to send. -/
  | calling (command : Store.Command)
  /-- Its command is sent and it has no reply. -/
  | waiting
  /-- The reply is there to be received. -/
  | answered (reply : Store.Reply)
  deriving Repr

/-- A store with the clients that share it. -/
structure Desk (κ : Type) where
  store : Store
  /-- The commands that the store has not handled, each with who sent it. -/
  channel : List (κ × Store.Command) := []
  stage : κ → Desk.Stage := fun _ => .idle

namespace Desk

/-- A turn of a client or of the store. -/
inductive Event (κ : Type) where
  | calls (client : κ) (command : Store.Command)
  | sends (client : κ) (command : Store.Command)
  | handles (client : κ) (command : Store.Command) (reply : Store.Reply)
  | receives (client : κ) (reply : Store.Reply)
  deriving Repr

variable {κ : Type} [DecidableEq κ]

/-- The desk at which nobody has called. -/
def opened (κ : Type) (limit : UInt64) : Desk κ := { store := Store.empty limit }

/-- The same desk but for what one client is doing. -/
def setStage (k : κ) (stage : Stage) (d : Desk κ) : Desk κ :=
  { d with stage := Function.update d.stage k stage }

/-- What a turn makes of a desk. -/
inductive Step (d : Desk κ) : Event κ → Desk κ → Prop where
  | calls {k : κ} {c : Store.Command} : d.stage k = .idle →
      Step d (.calls k c) (d.setStage k (.calling c))
  | sends {k : κ} {c : Store.Command} : d.stage k = .calling c →
      d.channel.length < Store.commandCapacity →
      Step d (.sends k c) { d.setStage k .waiting with channel := d.channel ++ [(k, c)] }
  | handles {k : κ} {c : Store.Command} {channel : List (κ × Store.Command)} :
      d.channel = (k, c) :: channel →
      Step d (.handles k c (d.store.handle c).2)
        { d.setStage k (.answered (d.store.handle c).2) with
          store := (d.store.handle c).1, channel }
  | receives {k : κ} {r : Store.Reply} : d.stage k = .answered r →
      Step d (.receives k r) (d.setStage k .idle)

/-- What can become of a desk, with the log of the turns that were taken. -/
inductive Course (d₀ : Desk κ) : List (Event κ) → Desk κ → Prop where
  | start : Course d₀ [] d₀
  | step {log : List (Event κ)} {d d' : Desk κ} {e : Event κ} :
      Course d₀ log d → Step d e d' → Course d₀ (log ++ [e]) d'

/-- The commands that were sent, in the order of the channel. -/
def sentOf (log : List (Event κ)) : List (κ × Store.Command) :=
  log.filterMap fun
    | .sends k c => some (k, c)
    | _ => none

/-- The commands that were handled, with their replies, in order. -/
def handledOf (log : List (Event κ)) : List (κ × Store.Command × Store.Reply) :=
  log.filterMap fun
    | .handles k c r => some (k, c, r)
    | _ => none

/-- The client that makes a call or receives a reply. -/
def Event.caller? : Event κ → Option κ
  | .calls k _ | .receives k _ => some k
  | .sends .. | .handles .. => none

end Desk

end LiveRooms
