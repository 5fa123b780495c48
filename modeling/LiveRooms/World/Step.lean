import LiveRooms.World

/-!
# What happens to a world from outside

The steps of those who use the projection and of the remote side.  After each of them the world
settles; between them time may pass.
-/

namespace LiveRooms

/-- A step from outside. -/
inductive Step where
  | attach (source : Nat)
  /-- The remote list sends one update. -/
  | push (source : Nat) (edits : List (Edit String))
  /-- The loading state of a remote list changes. -/
  | loading (source : Nat) (state : LoadingState)
  /-- Someone else takes the stream of a remote list and throws it away. -/
  | consume (source : Nat)
  /-- A remote list goes away and its streams end. -/
  | dropSource (source : Nat)
  /-- Viewports are reported one right after the other. -/
  | report (viewports : List Viewport)
  | filter (filter : Filter)
  /-- Rebuilds are asked for one right after the other. -/
  | settingsChanged (times : Nat)
  | follow (id : String)
  | notify (id : String) (times : Nat)
  | unfollow (id : String)
  /-- A room changes: its metadata, its latest event, whether it can be read. -/
  | setRoom (key : String) (info : Option Metadata) (event : Option (Option Event))
      (readable : Option Bool)
  /-- The service changes: whether it fails, whether it leaves requests without an answer. -/
  | setService (fails hangs : Option Bool)
  | dropProjection
  deriving Repr

/-- What a step comes to for the one who made it. -/
inductive Outcome where
  | nothing
  | done
  | failed (failure : Failure)
  /-- The answer to a filter. -/
  | answered (accepted : Bool)
  | noSource
  | noProjection
  deriving Repr

namespace World

/-- Whether a source is there. -/
def hasSource (i : Nat) (w : World) : Bool :=
  w.remote.sources[i]?.elim false fun source => !source.isDropped

/-- Changes one of the sources. -/
def updateSource (i : Nat) (change : Source → Source) (w : World) : World :=
  { w with remote := w.remote.updateSource i change }

/-- Changes the attachment to a source, where there is one. -/
def updateAttachment (i : Nat) (change : Attachment → Attachment) (w : World) : World :=
  match w.projection.attachment with
  | some a =>
    if a.source = i then
      { w with projection := { w.projection with attachment := some (change a) } }
    else w
  | none => w

/-- Takes the stream of a source. -/
def takeStream (i : Nat) (w : World) : World × Except Failure (List (List (Edit String))) :=
  match w.remote.sources[i]? with
  | some source => (w.updateSource i fun s => s.takeStream.1, source.takeStream.2)
  | none => (w, .ok [])

/-- Sends a filter to a source; the answer tells whether it is accepted. -/
def sendFilter (i : Nat) (filter : Filter) (w : World) : World × Bool :=
  let remote := w.remote.record i (.setFilter (filter.toRemote w.projection.config.filterSettings))
  ({ w with remote }, w.remote.sources[i]?.elim false fun source => !source.rejectsFilters)

/-- Follows a source of which the loading state was read and the stream was taken. -/
def follow (i : Nat) (loading : LoadingState) (updates : List (List (Edit String)))
    (w : World) : World :=
  let batcher := Projection.newBatcher w.projection.config updates
  let w' := (w.sendFilter i default).1
  { w' with
    projection := { w'.projection with
      attachment := some { source := i, batcher }
      status := w'.projection.status.send loading.status } }

/-- Attaches the projection to a source.  A projection is attached once; until then a failure leaves
it as it was. -/
def attach (i : Nat) (w : World) : World × Outcome :=
  if w.projection.attachment.isSome then (w, .done)
  else
    match w.remote.sources[i]? with
    | none => (w, .noSource)
    | some source =>
      match source.loadingState with
      | .error failure => (w, .failed failure)
      | .ok loading =>
        match w.takeStream i with
        | (w', .error failure) => (w', .failed failure)
        | (w', .ok updates) => (w'.follow i loading updates, .done)

/-- A remote list sends one update, to whoever took its stream. -/
def push (i : Nat) (edits : List (Edit String)) (w : World) : World :=
  let waiting := w.updateSource i fun s =>
    { s with stream := s.stream.map fun updates => updates ++ [edits] }
  waiting.updateAttachment i fun a => { a with batcher := (a.batcher.push edits).1 }

/-- The loading state of a remote list changes. -/
def setLoading (i : Nat) (state : LoadingState) (w : World) : World :=
  (w.updateSource i fun s => { s with loading := state }).updateAttachment i
    fun a => { a with hasStatusReport := true }

/-- A remote list goes away. -/
def dropSource (i : Nat) (w : World) : World :=
  (w.updateSource i fun s => { s with isDropped := true }).updateAttachment i
    fun a => { a with batcher := a.batcher.finishStream }

/-- Reports viewports. -/
def reportViewports (viewports : List Viewport) (w : World) : World :=
  match viewports.getLast? with
  | none => w
  | some viewport =>
    { w with
      projection := { w.projection with
        viewport
        pager := w.projection.pager.report
        subscriber := w.projection.subscriber.report } }

/-- Sends a filter to the followed source, if there is one. -/
def filter (filter : Filter) (w : World) : World × Bool :=
  match w.projection.attachment with
  | some a => w.sendFilter a.source filter
  | none => (w, false)

/-- Changes the follower with an id. -/
def updateFollower (id : String) (change : Follower → Follower) (w : World) : World :=
  let followers := w.projection.followers.map fun f => if f.id = id then change f else f
  { w with projection := { w.projection with followers } }

/-- Follows a new stream of settings notices; an older one with the same id is forgotten. -/
def addFollower (id : String) (w : World) : World :=
  let followers := w.projection.followers.filter (fun f => f.id != id) ++ [{ id := id }]
  { w with projection := { w.projection with followers } }

/-- Changes what is known of a room. -/
def setRoom (key : String) (info : Option Metadata) (event : Option (Option Event))
    (readable : Option Bool) (w : World) : World :=
  let change := fun room : Room =>
    let room := info.elim room room.setInfo
    { room with
      latestEvent := event.getD room.latestEvent, readable := readable.getD room.readable }
  { w with remote := { w.remote with directory := w.remote.directory.update key change } }

/-- Changes how the service answers. -/
def setService (fails hangs : Option Bool) (w : World) : World :=
  let service := w.remote.service
  { w with
    remote := { w.remote with
      service := { service with
        fails := fails.getD service.fails, hangs := hangs.getD service.hangs } } }

/-- Drops the projection and tells what it started to stop. -/
def dropProjection (w : World) : World :=
  let attachment := w.projection.attachment.map fun a => { a with batcher := a.batcher.cancel }
  { w with projection := { w.projection with isDropped := true, attachment } }

/-- Does something at a source that is there. -/
def atSource (i : Nat) (action : World → World × Outcome) (w : World) : World × Outcome :=
  if w.hasSource i then action w else (w, .noSource)

/-- Does something to a projection that is there. -/
def atProjection (action : World → World × Outcome) (w : World) : World × Outcome :=
  if w.projection.isDropped then (w, .noProjection) else action w

/-- Does one step. -/
def step (w : World) : Step → World × Outcome
  | .attach i => w.atSource i (atProjection (attach i))
  | .push i edits => w.atSource i fun w => (w.push i edits, .nothing)
  | .loading i state => w.atSource i fun w => (w.setLoading i state, .nothing)
  | .consume i => w.atSource i fun w =>
    match w.takeStream i with
    | (w', .ok _) => (w', .done)
    | (w', .error failure) => (w', .failed failure)
  | .dropSource i => (w.dropSource i, .nothing)
  | .report viewports => w.atProjection fun w => (w.reportViewports viewports, .nothing)
  | .filter filter => w.atProjection fun w =>
    let (w', accepted) := w.filter filter
    (w', .answered accepted)
  | .settingsChanged times => w.atProjection fun w =>
    (if times = 0 then w else { w with projection := w.projection.requestRebuild }, .nothing)
  | .follow id => w.atProjection fun w => (w.addFollower id, .nothing)
  | .notify id times => (w.updateFollower id (Follower.notify times), .nothing)
  | .unfollow id => (w.updateFollower id Follower.finishStream, .nothing)
  | .setRoom key info event readable => (w.setRoom key info event readable, .nothing)
  | .setService fails hangs => (w.setService fails hangs, .nothing)
  | .dropProjection => (w.dropProjection, .nothing)

/-- A new projection over some sources and rooms. -/
def new (config : Config) (sources : List Source) (directory : Directory) : World :=
  ⟨{ directory, sources }, .new config⟩

end World

end LiveRooms
