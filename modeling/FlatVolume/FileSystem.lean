import FlatVolume.Volume.Check
import FlatVolume.Volume.Truncate
import FlatVolume.Volume.Write

/-!
# The file system

A mount point for at most one volume at a time. Every operation but mounting needs a mounted
volume and says `notMounted` without one.

* `mount` reads a volume from a device; if that fails nothing is mounted.
* `unmount` flushes the metadata and closes the device. While the flush fails the volume stays
  mounted, so unmounting can be tried again; once it succeeded the volume is gone, even if closing
  the device fails.
* `create`, `delete`, `list` work on the directory; `openFile`, `close`, `stat`, `tell`, `seek`,
  `read`, `write`, `truncate` on descriptors; `info` and `check` on the volume as a whole.
-/

namespace FlatVolume

/-- A mount point and the world in which devices live. -/
structure FileSystem (W H : Type) where
  mounted : Option (Volume H)
  world : W

/-- A computation on a file system. -/
abbrev FileSystemM (W H : Type) := VolumeM (FileSystem W H)

namespace FileSystem

variable {W H : Type} {α : Type}

/-- Nothing is mounted. -/
def ofWorld (world : W) : FileSystem W H := ⟨none, world⟩

/-- Whether a volume is mounted. -/
def isMounted (fs : FileSystem W H) : Bool := fs.mounted.isSome

/-- Lets a computation run on the mounted volume. -/
def onVolume (act : MountedM W H α) : FileSystemM W H α := fun fs =>
  match fs.mounted with
  | none => .error .notMounted fs
  | some volume =>
    match act ⟨volume, fs.world⟩ with
    | .ok a m => .ok a ⟨some m.volume, m.world⟩
    | .error e m => .error e ⟨some m.volume, m.world⟩

/-- Asks the mounted volume and changes nothing. -/
def query (f : Volume H → Except VolumeError α) : FileSystemM W H α :=
  onVolume do Mounted.lookup (f (← Mounted.getVolume))

/-! ## 1. Mounting -/

section Mounting

variable [BlockDevice W H]

/-- Mounts the volume on `device`. -/
def mount (device : H) : FileSystemM W H Unit := fun fs =>
  match fs.mounted with
  | some _ => .error .alreadyMounted fs
  | none =>
    match Volume.load device fs.world with
    | .ok volume world => .ok () ⟨some volume, world⟩
    | .error e world => .error e { fs with world }

/-- Flushes the metadata, and when that is done lets go of the volume and closes its device. -/
def unmount : FileSystemM W H Unit := fun fs =>
  match fs.mounted with
  | none => .error .notMounted fs
  | some volume =>
    match volume.flush fs.world with
    | .error e world => .error e.asFlushFailure { fs with world }
    | .ok () world =>
      match closeDevice volume.device world with
      | .ok () world => .ok () ⟨none, world⟩
      | .error e world => .error e ⟨none, world⟩

end Mounting

/-! ## 2. The volume as a whole -/

/-- Geometry and usage. -/
def info : FileSystemM W H Volume.Info := query fun v => .ok v.info

/-- Whether all files are sound. -/
def check : FileSystemM W H Unit := query Volume.check

/-- The files, in the order of their slots. -/
def list : FileSystemM W H (List Entry) := query fun v => .ok v.root.files

/-! ## 3. Names -/

/-- Enters an empty file. -/
def create (name : String) : FileSystemM W H Unit := onVolume do
  let v ← Mounted.getVolume
  let (_, root) ← Mounted.lookup (v.root.create name)
  Mounted.modifyVolume fun v => { v with root }

/-- Removes a file that is not open and frees its blocks. A corrupt chain is reported when the
    entry is already gone. -/
def delete (name : String) : FileSystemM W H Unit := onVolume do
  let v ← Mounted.getVolume
  Mounted.lookup (checkName name)
  match v.root.find? name with
  | none => throw (.fileNotFound name)
  | some slot =>
    if v.files.isOpen name then
      throw (.fileOpen name)
    let (entry, root) := v.root.remove slot
    Mounted.modifyVolume fun v => { v with root }
    discard (Mounted.onTable (AllocationTable.freeChain entry.firstBlock))

/-- Opens a file and gives its descriptor. -/
def openFile (name : String) : FileSystemM W H Nat := onVolume do
  let v ← Mounted.getVolume
  Mounted.lookup (checkName name)
  if (v.root.find? name).isNone then
    throw (.fileNotFound name)
  let (fd, files) ← Mounted.lookup (v.files.bind name)
  Mounted.modifyVolume fun v => { v with files }
  return fd

/-! ## 4. Descriptors -/

/-- Closes a descriptor. -/
def close (fd : Nat) : FileSystemM W H Unit := onVolume do
  let v ← Mounted.getVolume
  let files ← Mounted.lookup (v.files.release fd)
  Mounted.modifyVolume fun v => { v with files }

/-- The size of the file behind a descriptor. -/
def stat (fd : Nat) : FileSystemM W H Nat :=
  query fun v => (v.resolve fd).map fun (_, slot) => (v.root.get slot).size

/-- The offset of a descriptor. -/
def tell (fd : Nat) : FileSystemM W H Nat :=
  query fun v => (v.files.get fd).map OpenFile.offset

/-- Moves a descriptor, at most to the end of its file. -/
def seek (fd offset : Nat) : FileSystemM W H Unit := onVolume do
  let v ← Mounted.getVolume
  let (_, slot) ← Mounted.lookup (v.resolve fd)
  let size := (v.root.get slot).size
  if size < offset then
    throw (.offsetOutOfRange offset size)
  Mounted.moveTo fd offset

/-- Shortens the file behind a descriptor. -/
def truncate (fd size : Nat) : FileSystemM W H Unit := onVolume (Mounted.truncate fd size)

section Data

variable [BlockDevice W H]

/-- Reads up to `count` bytes at the offset of a descriptor. -/
def read (fd count : Nat) : FileSystemM W H ByteArray := onVolume (Mounted.read fd count)

/-- Writes at the offset of a descriptor and gives the number of bytes stored. -/
def write (fd : Nat) (data : ByteArray) : FileSystemM W H Nat := onVolume (Mounted.write fd data)

end Data

end FileSystem

end FlatVolume
