import LiveRooms.Demo

/-!
# The command line

Runs the demo with the variables of the process.
-/

namespace LiveRooms.Demo

/-- The variables that the demo looks at. -/
def variableNames : List String :=
  Config.Setting.all.map Config.Setting.key ++ LogLevel.variableNames

end LiveRooms.Demo

open LiveRooms

def main : IO UInt32 := do
  let values ← Demo.variableNames.filterMapM fun key => do
    return (← IO.getEnv key).map fun value => (key, value)
  let output := Demo.run fun key => values.lookup key
  IO.print output.stdout
  IO.eprint output.stderr
  return output.exitCode
