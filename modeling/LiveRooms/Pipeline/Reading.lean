import LiveRooms.Pipeline

/-!
# Reading rooms one at a time

The pipeline reads the rooms of a batch or of a rebuild one after the other, of each the latest
event and then the metadata, and the rooms may change in between.  A `Reading` is such a
computation: it asks one question about a room, goes on with the answer, and ends with a result.
-/

namespace LiveRooms

/-- What a room can be asked for. -/
inductive Question where
  | event (key : String)
  | info (key : String)
  deriving DecidableEq, Repr

def Question.Answer : Question → Type
  | .event _ => Option Event
  | .info _ => Except Failure Metadata

namespace Directory

def event (d : Directory) (key : String) : Option Event := (d.room key).latestEvent

/-- The metadata of a room, or the failure that is reported when there is no summary for it. -/
def info (d : Directory) (key : String) : Except Failure Metadata :=
  match (d.room key).fetch with
  | .ok info => .ok info
  | .error failure => .error (.missingRoomInfo (d.room key).id failure.message)

def answer (d : Directory) : (q : Question) → q.Answer
  | .event key => d.event key
  | .info key => d.info key

end Directory

/-- A computation that reads rooms one at a time. -/
inductive Reading (β : Type) where
  | done (result : β)
  | ask (q : Question) (next : q.Answer → Reading β)

namespace Reading

variable {α β : Type}

/-- Goes on with the result. -/
def bind (x : Reading α) (f : α → Reading β) : Reading β :=
  match x with
  | done a => f a
  | ask q next => ask q fun answer => (next answer).bind f

/-- Changes the result. -/
def map (f : α → β) (x : Reading α) : Reading β := x.bind fun a => done (f a)

/-- The result while the rooms stay as they are. -/
def run (d : Directory) : Reading β → β
  | done b => b
  | ask q next => (next (d.answer q)).run d

/-- Builds the entry of a room. -/
def entry (key : String) : Reading (Except Failure Entry) :=
  ask (.event key) fun event => ask (.info key) fun info =>
    done (Except.map (fun info => ⟨key, .of info event⟩) info)

/-- Builds the entries of some rooms, in order; the first one that cannot be read fails the
whole. -/
def entries : List String → Reading (Except Failure (List Entry))
  | [] => done (.ok [])
  | key :: keys => (entry key).bind fun
    | .error failure => done (.error failure)
    | .ok entry => (entries keys).map fun built => built.map (entry :: ·)

/-- Builds the entries of the rooms that an edit brings along. -/
def build : Edit String → Reading (Except Failure (Edit Entry))
  | .append keys => (entries keys).map fun built => built.map .append
  | .clear => done (.ok .clear)
  | .insertAt index key => (entry key).map fun built => built.map (.insertAt index)
  | .popBack => done (.ok .popBack)
  | .popFront => done (.ok .popFront)
  | .pushBack key => (entry key).map fun built => built.map .pushBack
  | .pushFront key => (entry key).map fun built => built.map .pushFront
  | .removeAt index => done (.ok (.removeAt index))
  | .reset keys => (entries keys).map fun built => built.map .reset
  | .setAt index key => (entry key).map fun built => built.map (.setAt index)
  | .truncate length => done (.ok (.truncate length))

/-- The entries after an edit whose rooms were read. -/
def applyBuilt (items : List Entry) : Except Failure (Edit Entry) → List Entry
  | .error _ => items
  | .ok built =>
    match built.apply items with
    | .error _ => items
    | .ok items' => items'

/-- Applies one remote edit. -/
def applyEdit (items : List Entry) (edit : Edit String) : Reading (List Entry) :=
  match edit.check items.length with
  | .error _ => done items
  | .ok () => (build edit).map (applyBuilt items)

/-- Applies a batch of remote edits. -/
def applyBatch : List (Edit String) → List Entry → Reading (List Entry)
  | [], items => done items
  | edit :: edits, items => (applyEdit items edit).bind (applyBatch edits)

/-- The fresh entry, or the one that was there. -/
def kept (entry : Entry) : Except Failure Entry → Entry
  | .ok fresh => fresh
  | .error _ => entry

/-- Reads all rooms again. -/
def rebuild : List Entry → Reading (List Entry)
  | [] => done []
  | old :: items => (entry old.key).bind fun answer => (rebuild items).map (kept old answer :: ·)

end Reading

/-- What the pipeline does with the entries. -/
inductive Job where
  | batch (edits : List (Edit String))
  | rebuild
  deriving DecidableEq, Repr

/-- How a job computes the new entries. -/
def Job.task : Job → List Entry → Reading (List Entry)
  | .batch edits => Reading.applyBatch edits
  | .rebuild => Reading.rebuild

end LiveRooms
