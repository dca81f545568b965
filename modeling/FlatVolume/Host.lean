import FlatVolume.Host.File
import FlatVolume.Host.Path

/-!
# The host

The part of the host's file tree that matters: directories and files under absolute places, a
working directory, and what the host says when it refuses. There are no links, and everything may
be read and written by everyone.

* A path is walked component by component (`Host.resolve`). Wherever a further component follows,
  even an empty one after a trailing slash, there has to be a directory; `..` leads to the parent
  of the directory reached so far, so every directory on the way must exist. A path that is
  handed over as a whole must not be longer than `longestPath`.
* Files are created in an existing directory (`Host.createFile`), read and written as a whole
  (`Host.readFile`, `Host.writeFile`), or patched in place (`Host.patchFile`). Nothing is ever
  removed or moved, so a place names the same file for good.
* Which lengths a file can be given, and which files can be mapped into memory, depends on what the
  host has to spare. Nothing is known of that: it is a part of the host like any other
  (`Allowance`).
-/

namespace FlatVolume

/-! ## 1. Refusals -/

/-- Why the host refuses. -/
inductive HostError where
  | notFound
  | alreadyExists
  | notDirectory
  | isDirectory
  | nameTooLong
  /-- The path holds a NUL, which no host path can. -/
  | nulInPath
  /-- A length that the host cannot even express. -/
  | lengthOutOfRange
  /-- Any other reason, in the host's words. -/
  | other (text : String)
deriving DecidableEq, Repr

/-- The host's own words. -/
def HostError.message : HostError → String
  | notFound => "No such file or directory (os error 2)"
  | alreadyExists => "File exists (os error 17)"
  | notDirectory => "Not a directory (os error 20)"
  | isDirectory => "Is a directory (os error 21)"
  | nameTooLong => "File name too long (os error 36)"
  | nulInPath => "file name contained an unexpected NUL byte"
  | lengthOutOfRange => "number too large to fit in target type"
  | other text => text

/-- **What the host has to spare.** -/
structure Allowance where
  /-- Why no file can be made this many bytes long; nothing if one can. -/
  length? : Nat → Option HostError
  /-- Why no file of this many bytes can be mapped into memory; nothing if one can. -/
  mapping? : Nat → Option HostError

/-- Enough of everything. -/
def Allowance.all : Allowance := ⟨fun _ => none, fun _ => none⟩

/-! ## 2. The tree -/

/-- A place in the tree: the components from the root down. -/
abbrev Place := List String

/-- What stands at a place. -/
inductive Node where
  | directory
  | file (f : HostFile)

/-- The tree, the place from which relative paths start, and what there is to spare. -/
structure Host where
  workingDirectory : Place
  nodes : List (Place × Node)
  allowance : Allowance

namespace Host

/-- A tree with a working directory, the directories above it, and nothing else. Nothing is short. -/
def ofWorkingDirectory (place : Place) : Host where
  workingDirectory := place
  nodes := (List.range (place.length + 1)).map fun n => (place.take n, .directory)
  allowance := .all

/-- What stands at a place. -/
def node? (h : Host) (p : Place) : Option Node := h.nodes.lookup p

/-- The file at a place. -/
def file? (h : Host) (p : Place) : Option HostFile :=
  match h.node? p with
  | some (.file f) => some f
  | _ => none

/-- The tree with something put at a place, in the stead of what stood there. -/
def put (h : Host) (p : Place) (n : Node) : Host :=
  { h with nodes := (p, n) :: h.nodes.filter (·.1 != p) }

theorem node?_put_self (h : Host) (p : Place) (n : Node) : (h.put p n).node? p = some n := by
  simp [node?, put]

/-! ## 3. Walking paths -/

/-- The longest name of a single file or directory in bytes. -/
def longestComponent : Nat := 255

/-- The longest path in bytes that a call on files takes. -/
def longestPath : Nat := 4095

/-- The place called `name` in the directory at `p`. -/
def childPlace (p : Place) (name : String) : Except HostError Place :=
  if longestComponent < name.utf8ByteSize then .error .nameTooLong else .ok (p ++ [name])

/-- One step from `p`, which has to be a directory. -/
def step (h : Host) (p : Place) (component : String) : Except HostError Place :=
  match h.node? p with
  | some .directory =>
    if component = "" ∨ component = "." then .ok p
    else if component = ".." then .ok p.dropLast
    else match childPlace p component with
      | .error e => .error e
      | .ok child => if (h.node? child).isSome then .ok child else .error .notFound
  | some (.file _) => .error .notDirectory
  | none => .error .notFound

/-- The components of a path and the place its walk starts from, if it can be a path at all. -/
def parsePath (h : Host) (path : String) : Except HostError (Place × List String) :=
  if path.toList.contains '\x00' then .error .nulInPath
  else if path = "" then .error .notFound
  else .ok (if Path.isAbsolute path then [] else h.workingDirectory, Path.components path)

/-- The same for a path that is handed over as a whole, which must not be too long. -/
def parseShortPath (h : Host) (path : String) : Except HostError (Place × List String) := do
  let parsed ← h.parsePath path
  if longestPath < path.utf8ByteSize then throw .nameTooLong
  return parsed

/-- How long the absolute path of a place is in bytes, each name with the slash before it. -/
def placeLength : Place → Nat
  | [] => 0
  | name :: p => 1 + name.utf8ByteSize + placeLength p

/-- The same step made by the program itself, which hands over the absolute path of every name that it
    meets; that path must not be too long. -/
def absoluteStep (h : Host) (p : Place) (component : String) : Except HostError Place :=
  if component = "" ∨ component = "." ∨ component = ".." then h.step p component
  else if longestPath < placeLength (p ++ [component]) then .error .nameTooLong
  else h.step p component

/-- **The place a path leads to.** Something has to stand there. The path is looked at component by
    component, so it may be of any length, as long as no place on the way is too deep. -/
def resolve (h : Host) (path : String) : Except HostError Place := do
  let (start, components) ← h.parsePath path
  components.foldlM h.absoluteStep start

/-- Where the file or directory named by a path stands or would stand: the walk to its directory,
    and its own name. No name if the path ends in `.`, `..` or nothing but slashes. The flag says
    whether slashes follow the name. -/
def resolveParent (h : Host) (path : String) :
    Except HostError (Place × Option String × Bool) := do
  let (start, components) ← h.parseShortPath path
  let trimmed := (components.reverse.dropWhile (· == "")).reverse
  let parent ← trimmed.dropLast.foldlM h.step start
  match h.node? parent with
  | some .directory =>
    let name := trimmed.getLast?.filter fun c => c != "." && c != ".."
    return (parent, name, trimmed.length != components.length)
  | some (.file _) => throw .notDirectory
  | none => throw .notFound

/-! ## 4. Files and directories -/

/-- Creates an empty file where nothing stands yet, and gives its place. A slash behind the name is
    noticed before the name is looked at. -/
def createFile (h : Host) (path : String) : Except HostError (Place × Host) := do
  match ← h.resolveParent path with
  | (_, none, _) => throw .alreadyExists
  | (_, some _, true) => throw .isDirectory
  | (parent, some name, false) =>
    let p ← childPlace parent name
    if (h.node? p).isSome then throw .alreadyExists
    return (p, h.put p (.file (HostFile.zeros 0)))

/-- Creates a directory where nothing stands yet. -/
def createDirectory (h : Host) (path : String) : Except HostError Host := do
  match ← h.resolveParent path with
  | (_, none, _) => throw .alreadyExists
  | (parent, some name, _) =>
    let p ← childPlace parent name
    if (h.node? p).isSome then throw .alreadyExists
    return h.put p .directory

/-- The file at a place, which has to be one. -/
def openPlace (h : Host) (p : Place) : Except HostError HostFile :=
  match h.node? p with
  | some (.file f) => .ok f
  | some .directory => .error .isDirectory
  | none => .error .notFound

theorem file?_of_openPlace {h : Host} {p : Place} {f : HostFile} (ho : h.openPlace p = .ok f) :
    h.file? p = some f := by
  unfold openPlace at ho
  unfold file?
  split at ho <;> cases ho
  rw [‹h.node? p = _›]

/-- The place of an existing file. -/
def resolveFile (h : Host) (path : String) : Except HostError (Place × HostFile) := do
  let (start, components) ← h.parseShortPath path
  let p ← components.foldlM h.step start
  return (p, ← h.openPlace p)

/-- What a file holds. -/
def readFile (h : Host) (path : String) : Except HostError ByteArray := do
  let (_, f) ← h.resolveFile path
  return f.toBytes

/-- Makes `path` a file that holds `data`, whether or not there was one before. -/
def writeFile (h : Host) (path : String) (data : ByteArray) : Except HostError Host := do
  match ← h.resolveParent path with
  | (_, none, _) => throw .isDirectory
  | (_, some _, true) => throw .isDirectory
  | (parent, some name, false) =>
    let p ← childPlace parent name
    match h.node? p with
    | some .directory => throw .isDirectory
    | _ => return h.put p (.file (HostFile.ofBytes data))

/-- Lays `data` over an existing file from byte `offset` on, and writes the file out. -/
def patchFile (h : Host) (path : String) (offset : Nat) (data : ByteArray) :
    Except HostError Host := do
  let (p, f) ← h.resolveFile path
  return h.put p (.file (f.settle.overlay offset data))

end Host

end FlatVolume
