import LiveRooms.Config

/-!
# Log levels

How much a program tells about its work, as chosen by its environment.
-/

namespace LiveRooms

/-- How much is told; each level tells what the ones before it tell. -/
inductive LogLevel where
  | off
  | error
  | warn
  | info
  | debug
  | trace
  deriving DecidableEq, Repr

namespace LogLevel

/-- The level with a name, in upper or lower case. -/
def ofName? (name : String) : Option LogLevel :=
  [("off", off), ("error", error), ("warn", warn), ("info", info), ("debug", debug),
    ("trace", trace)].findSome? fun (n, level) =>
      if Text.lowered name = n.toList then some level else none

/-- Whether records of level `record` are told. -/
def shows (level record : LogLevel) : Bool := record.ctorIdx ≤ level.ctorIdx

/-- The level of a variable that may be blank and is then passed over. -/
def ofVariable? (env : Config.Environment) (key : String) : Option LogLevel :=
  (env.value? key).bind fun _ => (env key).bind ofName?

/-- The variables that choose a level, the most general one first. -/
def variableNames : List String := ["RUST_LOG", "ROOMLIST_SMOKE_LOG", "ROOMLIST_LOG"]

/-- The level that an environment chooses.  The first variable counts even when it is empty, which
leaves errors only; the others are passed over when blank; a value without a meaning is passed
over. -/
def ofEnvironment (env : Config.Environment) : LogLevel :=
  let general := (env "RUST_LOG").bind fun text => if text.isEmpty then some error else ofName? text
  general
    <|> ofVariable? env "ROOMLIST_SMOKE_LOG"
    <|> ofVariable? env "ROOMLIST_LOG"
    |>.getD debug

end LogLevel

end LiveRooms
