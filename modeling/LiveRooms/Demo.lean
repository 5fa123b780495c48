import LiveRooms.LogLevel
import LiveRooms.Pause
import LiveRooms.World.Step

/-!
# The demo

A projection of twelve rooms is taken through its paces: it is attached, filled, scrolled, filtered,
and told that the notification settings changed.  What can be seen on the way is printed.
-/

namespace LiveRooms.Demo

/-- The text with the given lines, each ended by a line feed. -/
def unlines (lines : List String) : String := String.join (lines.map fun line => line ++ "\n")

/-- What a run prints. -/
structure Output where
  exitCode : UInt32
  stdout : String
  stderr : String
  /-- Records of the work were told beside this. -/
  hasLogged : Bool
  deriving DecidableEq, Repr

/-- The number of demo rooms. -/
def roomCount : Nat := 12

/-- The id of a demo room. -/
def roomId (i : Nat) : String := "!room" ++ toString i ++ ":example.org"

/-- The one who invites to every fifth demo room. -/
def host : Profile := { userId := "@alice:example.org" }

/-- When the event of a demo room happened. -/
def timestamp (i : Nat) : UInt64 := 1700000000000 + UInt64.ofNat i

/-- The metadata of a demo room. -/
def roomInfo (i : Nat) : Metadata :=
  let info := { Metadata.joined (roomId i) with
    displayName := some ("Room " ++ toString i)
    unreadMessages := UInt64.ofNat (i % 4) }
  if i % 5 = 4 then { info with membership := .invited, inviter := some host } else info

/-- The latest event of a demo room. -/
def roomEvent (i : Nat) : Event :=
  if i % 5 = 4 then .invite (timestamp i) (some host)
  else
    .sent (timestamp i) { userId := "@smoke:example.org" }
      (.message .text ("hello from room " ++ toString i))
      (if i % 3 = 0 then .cannotBeSent else .hasBeenSent)

/-- A demo room with its key. -/
def room (i : Nat) : String × Room :=
  (roomId i, { Room.ofInfo (roomInfo i) with latestEvent := some (roomEvent i) })

/-- The world before anything happened. -/
def world (config : Config) : World :=
  .new config [{ loading := .loaded (some 12) }] (.ofList ((List.range roomCount).map room))

/-- Milliseconds after which batches are applied and reports are acted on. -/
def settleTime (c : Config) : Nat :=
  c.batchWindow.toNat + max c.paginationThrottle.toNat c.subscriptionDebounce.toNat

/-- Does one step in a world that goes on. -/
def act (step : Step) (line : Timeline World) : Timeline World × Outcome :=
  line.act fun w => w.step step

/-- Does some steps and then pauses. -/
def after (steps : List Step) (ms : Nat) (line : Timeline World) : Timeline World :=
  (steps.foldl (fun line step => (act step line).1) line).advance (Pause.length ms)

/-- The text with blanks added up to a width. -/
def padded (width : Nat) (s : String) : String :=
  s ++ String.ofList (List.replicate (width - s.length) ' ')

/-- The line for a summary. -/
def row (s : Summary) : String :=
  padded 24 s.id ++ " " ++ padded 16 s.name ++ " unread=" ++ toString s.unreadMessages.toNat ++
    " " ++ (s.lastMessage.bind LastMessage.text).getD "-"

/-- The lines for the list that others watch. -/
def listing (label : String) (line : Timeline World) : List String :=
  let rooms := line.state.projection.published.value
  ("== " ++ label ++ " (" ++ toString rooms.length ++ " rooms)") :: rooms.map row

/-- The name of a request for pages. -/
def requestName : PageRequest → String
  | .addPage => "AddOnePage"
  | .resetToFirst => "ResetToOnePage"

/-- The requests for pages among some calls. -/
def pageRequests (calls : List Call) : List PageRequest :=
  calls.filterMap fun call =>
    match call with
    | .page request => some request
    | .setFilter _ => none

/-- The lines for what the remote side was asked for. -/
def asked (remote : Remote) : List String :=
  let requests := remote.sources.flatMap fun source => pageRequests source.calls
  ("Controller calls: [" ++ ", ".intercalate (requests.map requestName) ++ "]") ::
    remote.service.requests.zipIdx.map fun (ids, i) =>
      "Subscription #" ++ toString i ++ ": " ++ ", ".intercalate ids

/-- The edits that fill the list, in two updates. -/
def filling : List Step :=
  [.attach 0,
    .push 0 ((List.range roomCount).map fun i => .pushBack (roomId i)),
    .push 0 [.removeAt 3]]

/-- The metadata of the first room under another name. -/
def renamed : Metadata := { Metadata.joined (roomId 0) with displayName := some "Renamed lobby" }

/-- The steps that change the settings: the first notice only opens the stream. -/
def settingsChange : List Step :=
  [.setRoom (roomId 0) (some renamed) none none, .follow "settings", .notify "settings" 2,
    .unfollow "settings"]

/-- What a run with a configuration prints. -/
def lines (config : Config) : List String :=
  let pause := settleTime config
  let filled := after filling pause (.start (world config))
  let top := after [.report [.between 0 5]] pause filled
  let bottom := after [.report [.between 6 11]] (2 * pause) top
  let (filtered, outcome) := act (.filter (.all [.unreads])) bottom
  let accepted := match outcome with
    | .answered true => "true"
    | _ => "false"
  let last := after settingsChange pause filtered
  listing "initial" filled ++ ["Filter accepted: " ++ accepted] ++
    listing "after settings change" last ++ asked last.state.remote

/-- Runs the demo in an environment. -/
def run (env : Config.Environment) : Output :=
  let level := LogLevel.ofEnvironment env
  match (Config.read env).2 with
  | .error invalid =>
    ⟨1, "", unlines ["Invalid configuration: " ++ invalid.message], level.shows .error⟩
  | .ok config => ⟨0, unlines (lines config), "", level.shows .info⟩

end LiveRooms.Demo
