import FlatVolume.CommandLine.Arguments
import FlatVolume.Image

/-!
# The command line

Each command mounts the volume in an image file, does one thing, and unmounts it again. What is
printed before something fails stays printed. A command that fails before it unmounts leaves the
metadata in the image as it was, since only unmounting writes it; file data that was written is
there, but no file leads to it.

* `CommandLine.execute` -- what a command does;
* `Failure.render` -- how a failure is reported, with what lies beneath it;
* `CommandLine.run` -- arguments in, output out: exit code 0 for success, 1 for a failure, 2 for
  arguments that are no command.

Left out are the text that explains the commands, which the program prints when asked for help, and
the log that the environment can switch on.
-/

namespace FlatVolume

/-! ## 1. Failures -/

/-- A failure: a line, and the lines of what lies beneath it, outermost first. -/
structure Failure where
  message : String
  causes : List String := []
deriving DecidableEq, Repr

namespace Failure

/-- A failed operation of the file system. -/
def ofVolumeError (e : VolumeError) : Failure := ⟨e.message, e.causes⟩

/-- A failure seen from further out. -/
def under (context : String) (f : Failure) : Failure := ⟨context, f.message :: f.causes⟩

/-- The causes as they are listed: a single one by itself, several with their numbers. -/
def renderCauses : List String → String
  | [] => ""
  | [cause] => "\n\nCaused by:\n    " ++ cause
  | causes =>
    "\n\nCaused by:" ++ String.join (causes.zipIdx.map fun (cause, i) => s!"\n   {i}: {cause}")

/-- The report of a failure. -/
def render (f : Failure) : String := "Error: " ++ f.message ++ renderCauses f.causes

end Failure

namespace CommandLine

open Text (quoted)

/-! ## 2. Running a command -/

/-- What a running command works on: the file system, and what was printed so far. -/
structure Run where
  fs : FileSystem Host Image
  printed : ByteArray

/-- A step of a command. -/
abbrev RunM := EStateM Failure Run

/-- An operation of the file system as a step. -/
def onFileSystem {α : Type} (act : FileSystemM Host Image α) : RunM α := fun r =>
  match act r.fs with
  | .ok a fs => .ok a { r with fs }
  | .error e fs => .error (.ofVolumeError e) { r with fs }

/-- Prints bytes. -/
def printBytes (bytes : ByteArray) : RunM Unit := fun r =>
  .ok () { r with printed := r.printed ++ bytes }

/-- Prints a line. -/
def printLine (line : String) : RunM Unit := printBytes (line ++ "\n").toUTF8

/-- Mounts the volume in an image file. -/
def mount (image : String) : RunM Unit := fun r =>
  match onFileSystem (FileSystem.mountImage image) r with
  | .ok () r => .ok () r
  | .error f r => .error (f.under ("Failed to mount " ++ quoted image)) r

/-- What a host file holds. -/
def readHostFile (file : String) : RunM ByteArray := fun r =>
  match r.fs.world.readFile file with
  | .ok data => .ok data r
  | .error e => .error ⟨"Couldn't read the host file", [e.message]⟩ r

/-- The name of the file a path leads to: its last component, where slashes and single dots at the
    end do not count. A path to a parent directory or to the root has none. -/
def fileName? (path : String) : Option String :=
  ((Path.components path).filter fun c => c != "" && c != ".").getLast?.filter (· != "..")

/-- The name a host file gets on the volume. -/
def nameFor (file : String) : Option String → RunM String
  | some name => return name
  | none =>
    match fileName? file with
    | some name => return name
    | none => throw ⟨quoted file ++ " has no usable file name", []⟩

/-- **Does what a command asks for.** -/
def execute : Command → RunM Unit
  | .info image => do
    mount image
    printLine (← onFileSystem FileSystem.info).render
    onFileSystem FileSystem.unmount
  | .list image => do
    mount image
    printLine "FS Ls:"
    for entry in ← onFileSystem FileSystem.list do
      printLine entry.render
    onFileSystem FileSystem.unmount
  | .stat image name => do
    mount image
    let fd ← onFileSystem (FileSystem.openFile name)
    let size ← onFileSystem (FileSystem.stat fd)
    printLine s!"Size of file '{name}' is {size} bytes"
    onFileSystem (FileSystem.close fd)
    onFileSystem FileSystem.unmount
  | .cat image name => do
    mount image
    let fd ← onFileSystem (FileSystem.openFile name)
    let size ← onFileSystem (FileSystem.stat fd)
    printBytes (← onFileSystem (FileSystem.read fd size))
    onFileSystem (FileSystem.close fd)
    onFileSystem FileSystem.unmount
  | .add image file name => do
    let name ← nameFor file name
    let data ← readHostFile file
    mount image
    onFileSystem (FileSystem.create name)
    let fd ← onFileSystem (FileSystem.openFile name)
    let written ← onFileSystem (FileSystem.write fd data)
    onFileSystem (FileSystem.close fd)
    onFileSystem FileSystem.unmount
    if written ≠ data.size then
      throw ⟨s!"Volume full: only {written} of {data.size} bytes were written", []⟩
    printLine s!"Wrote file '{name}' ({written}/{data.size} bytes)"
  | .remove image name => do
    mount image
    onFileSystem (FileSystem.delete name)
    onFileSystem FileSystem.unmount
    printLine s!"Removed file '{name}'"

/-! ## 3. The program -/

/-- What a run of the program leaves behind on its outputs. -/
structure Output where
  exitCode : Nat
  printed : ByteArray
  /-- The report of a failure. -/
  report : Option String

/-- **Runs the program** with its arguments. What it says of arguments that are no command is left out;
    so is its help, after which it exits with code 0 and not with the 2 that `Command.parse?` leads
    to here. -/
def run (args : List String) (host : Host) : Output × Host :=
  match Command.parse? args with
  | none => (⟨2, ByteArray.empty, none⟩, host)
  | some command =>
    match execute command ⟨FileSystem.ofWorld host, ByteArray.empty⟩ with
    | .ok () r => (⟨0, r.printed, none⟩, r.fs.world)
    | .error f r => (⟨1, r.printed, some f.render⟩, r.fs.world)

end CommandLine

end FlatVolume
