import FlatVolume.CommandLine

/-!
# The program

Loads what stands on the paths of a command into a `Host`, runs the command there, writes a changed
image back, and prints. Everything that is decided is decided by `CommandLine.run`.
-/

namespace FlatVolume.Program

/-- The components of an absolute path. -/
def placeOf (path : String) : Place := (Path.components path).filter (· != "")

/-- The absolute path of a place. -/
def pathOf (place : Place) : String := "/" ++ "/".intercalate place

/-- What stands at a place, if anything does. -/
def nodeAt (place : Place) : IO (Option Node) := do
  try
    let path ← IO.FS.realPath (pathOf place)
    if ← path.isDir then
      return some .directory
    return some (.file (HostFile.ofBytes (← IO.FS.readBinFile path)))
  catch _ => return none

/-- Loads everything on the way of a path. -/
def loadPath (host : Host) (path : String) : IO Host := do
  let mut host := host
  let mut place := if Path.isAbsolute path then [] else host.workingDirectory
  for component in Path.components path do
    if component = ".." then
      place := place.dropLast
    else if component ≠ "" ∧ component ≠ "." then
      place := place ++ [component]
    if (host.node? place).isNone then
      if let some node ← nodeAt place then
        host := host.put place node
  return host

/-- The host paths a command names: its image, and for `add` the file to be copied. -/
def pathsOf : Command → List String
  | .info image | .list image | .stat image _ | .cat image _ | .remove image _ => [image]
  | .add image file _ => [image, file]

/-- Writes a file back if a command changed it. -/
def storeFile (before after : Host) (path : String) : IO Unit := do
  if let .ok place := after.resolve path then
    if let some f := after.file? place then
      if (before.file? place).map HostFile.toBytes != some f.toBytes then
        IO.FS.writeBinFile (pathOf place) f.toBytes

/-- The line shown for arguments that are no command. -/
def usage : String :=
  "usage: info IMAGE | ls IMAGE | stat IMAGE NAME | cat IMAGE NAME | "
    ++ "add IMAGE FILE [-n NAME] | rm IMAGE NAME"

/-- Runs the program with its arguments and gives its exit code. -/
def run (args : List String) : IO UInt32 := do
  let paths := ((Command.parse? args).map pathsOf).getD []
  let mut host := Host.ofWorkingDirectory (placeOf (← IO.currentDir).toString)
  for path in paths do
    host ← loadPath host path
  let (output, after) := CommandLine.run args host
  for path in paths.take 1 do
    storeFile host after path
  let out ← IO.getStdout
  out.write output.printed
  out.flush
  if let some report := output.report then
    IO.eprintln report
  if output.exitCode = 2 then
    IO.eprintln usage
  return UInt32.ofNat output.exitCode

end FlatVolume.Program

def main (args : List String) : IO UInt32 := FlatVolume.Program.run args
