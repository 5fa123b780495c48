import LiveRooms.Pipeline.Reading
import LiveRooms.World.Step
import Mathlib.Logic.Function.Basic

/-!
# Exchanges with the store

The pipeline, the pager and the subscriber reach the store through commands in one channel, which
the store handles in order, and each waits for the reply to its own command.  Between the snapshot
that the pipeline asks for and the entries that it stores it reads rooms one at a time.

An exchange is a world of which these parts are taken apart.  Everything else in it moves as it
does in the world; a part that waits for a reply does nothing else meanwhile.
-/

namespace LiveRooms

/-- Who sends commands to the store. -/
inductive Client where
  | pipeline
  | pager
  | subscriber
  deriving DecidableEq, Repr

/-- What the pipeline is doing. -/
inductive Phase where
  | idle
  /-- It waits for the stored entries. -/
  | fetching (job : Job)
  /-- It reads rooms. -/
  | working (job : Job) (task : Reading (List Entry))
  /-- It waits for the new entries to be stored. -/
  | storing (entries : List Entry)

def Phase.isIdle : Phase → Bool
  | .idle => true
  | _ => false

/-- A world whose parts reach the store through a channel. -/
structure Exchange where
  world : World
  phase : Phase := .idle
  /-- The viewport for which the pager waits to learn how many entries there are. -/
  paging : Option Viewport := none
  /-- The viewport for which the subscriber waits to learn the ids. -/
  showing : Option Viewport := none
  /-- The commands that the store has not handled, each with who sent it. -/
  channel : List (Client × Store.Command) := []
  /-- The replies that were not received. -/
  replies : Client → Option Store.Reply := fun _ => none

namespace World

/-- Asks the followed source for what a viewport needs when there are `count` entries. -/
def requestPages (v : Viewport) (count : Nat) (w : World) : World :=
  match w.projection.attachment, v.pageRequest count with
  | some a, some request => { w with remote := w.remote.record a.source (.page request) }
  | _, _ => w

/-- Asks the service for the rooms of a viewport, unless they are those of the last request.  A
report that came meanwhile is still to be read. -/
def considerIds (now : Nat) (v : Viewport) (ids : List String) (w : World) : World :=
  let p := w.projection
  match p.subscriber.request? p.config.managesSubscriptions v ids with
  | none => w
  | some ids =>
    let (service, response) := w.remote.service.subscribe ids
    let subscriber := { p.subscriber.ask now ids (response != .silent) with
      hasReport := p.subscriber.hasReport }
    setSubscriber { w with remote := { w.remote with service } } subscriber

/-- Whether rooms on screen are kept live at all. -/
def keepsLive (w : World) : Bool :=
  !w.projection.viewport.isEmpty && w.projection.config.managesSubscriptions

end World

namespace Exchange

/-- A move of a part. -/
inductive Move where
  /-- A move that has nothing to do with the store. -/
  | world (m : World.Move)
  /-- The pipeline takes a batch and asks for the entries. -/
  | takeBatch
  /-- The pipeline takes the request for a rebuild and asks for the entries. -/
  | takeRebuild
  | receiveEntries
  /-- The pipeline reads the next room, or what it has not read of it. -/
  | readRoom
  /-- The pipeline asks to store what it computed. -/
  | storeEntries
  /-- The pipeline learns that the entries are stored and shows them. -/
  | publish
  /-- The pager looks at the viewport and asks for the number of entries. -/
  | askCount
  /-- The pager decides about pages. -/
  | receiveCount
  /-- The subscriber considers the viewport and asks for the ids. -/
  | askIds
  | receiveIds
  /-- The store handles a command. -/
  | serve
  deriving DecidableEq, Repr

/-- An exchange in which nobody waits for the store. -/
def calm (w : World) : Exchange := { world := w }

/-- Sends a command to the store. -/
def send (client : Client) (command : Store.Command) (x : Exchange) : Exchange :=
  { x with channel := x.channel ++ [(client, command)] }

/-- Receives a reply. -/
def received (client : Client) (x : Exchange) : Exchange :=
  { x with replies := Function.update x.replies client none }

def setProjection (projection : Projection) (x : Exchange) : Exchange :=
  { x with world := { x.world with projection } }

/-- Whether a move of the world neither reaches the store nor is made by a part that waits. -/
def allows (x : Exchange) : World.Move → Bool
  | .applyBatch | .rebuild => false
  | .stopPipeline => x.phase.isIdle
  | .lookAtViewport =>
    x.paging.isNone && !x.world.projection.pager.decidesOn x.world.projection.viewport
  | .wakePager | .stopPager => x.paging.isNone
  | .considerViewport => x.showing.isNone && !x.world.keepsLive
  | .noticeReport | .giveUpRequest | .stopSubscriber => x.showing.isNone
  | _ => true

def worldMove? (now : Nat) (m : World.Move) (x : Exchange) : Option Exchange :=
  if x.allows m then (x.world.move? now m).map fun world => { x with world } else none

/-- Whether the pipeline may take something up. -/
def isFree (x : Exchange) : Bool := x.phase.isIdle && !x.world.projection.isPipelineStopped

def takeBatch? (x : Exchange) : Option Exchange :=
  if x.isFree then
    match x.world.projection.attachment with
    | none => none
    | some a =>
      match a.batcher.queue with
      | [] => none
      | batch :: queue =>
        let attachment := some { a with batcher := { a.batcher with queue } }
        let x' := x.setProjection { x.world.projection with attachment }
        some (send .pipeline .snapshot { x' with phase := .fetching (.batch batch) })
  else none

def takeRebuild? (x : Exchange) : Option Exchange :=
  if x.isFree && x.world.projection.rebuildQueued then
    let x' := x.setProjection { x.world.projection with rebuildQueued := false }
    some (send .pipeline .snapshot { x' with phase := .fetching .rebuild })
  else none

def receiveEntries? (x : Exchange) : Option Exchange :=
  match x.phase, x.replies .pipeline with
  | .fetching job, some (.entries entries) =>
    some (received .pipeline { x with phase := .working job (job.task entries) })
  | _, _ => none

def readRoom? (x : Exchange) : Option Exchange :=
  match x.phase with
  | .working job (.ask q next) =>
    some { x with phase := .working job (next (x.world.remote.directory.answer q)) }
  | _ => none

def storeEntries? (x : Exchange) : Option Exchange :=
  match x.phase with
  | .working _ (.done entries) =>
    some (send .pipeline (.replace entries) { x with phase := .storing entries })
  | _ => none

def publish? (x : Exchange) : Option Exchange :=
  match x.phase, x.replies .pipeline with
  | .storing entries, some .done =>
    let p := x.world.projection
    let x' := x.setProjection { p with published := p.published.send (entries.map Entry.summary) }
    some (received .pipeline { x' with phase := .idle })
  | _, _ => none

def askCount? (x : Exchange) : Option Exchange :=
  let p := x.world.projection
  if x.paging.isNone && p.pager.isReady && p.pager.decidesOn p.viewport then
    let pager := { p.pager with hasReport := false, handled := some p.viewport }
    some (send .pager .count { x.setProjection { p with pager } with paging := some p.viewport })
  else none

def receiveCount? (now : Nat) (x : Exchange) : Option Exchange :=
  match x.paging, x.replies .pager with
  | some v, some (.count count) =>
    let p := x.world.projection
    let pager := { p.pager with
      restsUntil := some (now + Pause.length p.config.paginationThrottle.toNat) }
    let world := (x.world.requestPages v count).setPager pager
    some (received .pager { x with world, paging := none })
  | _, _ => none

def askIds? (now : Nat) (x : Exchange) : Option Exchange :=
  let p := x.world.projection
  if x.showing.isNone && p.subscriber.isSettled now && x.world.keepsLive then
    let x' := x.setProjection { p with subscriber := p.subscriber.rest }
    some (send .subscriber (.ids p.viewport) { x' with showing := some p.viewport })
  else none

def receiveIds? (now : Nat) (x : Exchange) : Option Exchange :=
  match x.showing, x.replies .subscriber with
  | some v, some (.ids ids) =>
    some (received .subscriber { x with world := x.world.considerIds now v ids, showing := none })
  | _, _ => none

def serve? (x : Exchange) : Option Exchange :=
  match x.channel with
  | [] => none
  | (client, command) :: channel =>
    let (store, reply) := x.world.projection.store.handle command
    let x' := x.setProjection { x.world.projection with store }
    some { x' with channel, replies := Function.update x.replies client (some reply) }

/-- The exchange after a move, if the move is possible. -/
def move? (now : Nat) (x : Exchange) : Move → Option Exchange
  | .world m => x.worldMove? now m
  | .takeBatch => x.takeBatch?
  | .takeRebuild => x.takeRebuild?
  | .receiveEntries => x.receiveEntries?
  | .readRoom => x.readRoom?
  | .storeEntries => x.storeEntries?
  | .publish => x.publish?
  | .askCount => x.askCount?
  | .receiveCount => x.receiveCount? now
  | .askIds => x.askIds? now
  | .receiveIds => x.receiveIds? now
  | .serve => x.serve?

/-- Does one step from outside. -/
def step (x : Exchange) (s : Step) : Exchange := { x with world := (x.world.step s).1 }

end Exchange

end LiveRooms
