import FlatVolume.Host
import FlatVolume.Device
import FlatVolume.FileSystem

/-!
# Volumes in image files

An image is a host file of whole blocks. An open image remembers where its file stands and how
long it was; what it reads and writes is the file itself, so two open images of one file see each
other's writes. A file that was made shorter in the meantime keeps less than is written to it:
bytes past its end can be read back until the image is synced.

* `Image.create` -- a file of zero blocks, where none was before. Its length in bytes is computed
  with 64 bits, in one of two ways (`Arithmetic`);
* `Image.open?` -- opens a file whose length is a positive multiple of the block size, if the host
  can map that much;
* `FileSystem.mountImage` -- opens an image and mounts it.

A file that was mapped stays so: writing it out and giving the mapping up are taken to succeed.
-/

namespace FlatVolume

/-- An open image. -/
structure Image where
  place : Place
  /-- The length of the file when it was opened. -/
  size : Nat
deriving DecidableEq, Repr

namespace Image

/-- What the host refused, as a device reports it. -/
def refusal (e : HostError) : DeviceError := .host e.message

/-- How many blocks the image has. -/
def blockCount (i : Image) : Nat := i.size / blockSize

/-- What becomes of a product that 64 bits cannot hold. It is settled when the program is built. -/
inductive Arithmetic where
  /-- The program stops. -/
  | checked
  /-- The product is taken modulo 2 ^ 64. -/
  | wrapping
deriving DecidableEq, Repr

/-- The length in bytes of an image of `blocks` blocks, in 64 bit arithmetic. Nothing if the program
    stops. -/
def Arithmetic.lengthFor? : Arithmetic → Nat → Option Nat
  | checked, blocks =>
    if blocks * blockSize < 18446744073709551616 then some (blocks * blockSize) else none
  | wrapping, blocks => some (blocks * blockSize % 18446744073709551616)

/-- The longest file that can be asked for. -/
def longestFile : Nat := 9223372036854775807

/-- How the creation of an image ends without one. -/
inductive CreationFailure where
  | refused (cause : DeviceError)
  /-- The program stopped. -/
  | stopped
deriving DecidableEq, Repr

/-- Whether a file can be made `size` bytes long: the host can express that much, and has it to
    spare. -/
def checkLength (h : Host) (size : Nat) : Except HostError Unit :=
  if longestFile < size then .error .lengthOutOfRange
  else match h.allowance.length? size with
    | some e => .error e
    | none => .ok ()

/-- **Creates an image of `blocks` zero blocks.** The file is made first; if its length comes to nothing
    it stays behind, empty. Writing it out in the end is taken to succeed. -/
def create (a : Arithmetic) (path : String) (blocks : Nat) : EStateM CreationFailure Host Unit :=
  fun h =>
    match h.createFile path with
    | .error e => .error (.refused (refusal e)) h
    | .ok (p, h) =>
      match a.lengthFor? blocks with
      | none => .error .stopped h
      | some size =>
        match checkLength h size with
        | .error e => .error (.refused (refusal e)) h
        | .ok () => .ok () (h.put p (.file (HostFile.zeros size)))

/-- **Opens an image.** The place of the file is made out first (`Host.resolve`), along a path of any
    length. The file must have a positive number of whole blocks, and the host must be able to map all
    of them into memory (`Allowance.mapping?`). -/
def open? (h : Host) (path : String) : Except DeviceError Image :=
  match h.resolve path with
  | .error e => .error (refusal e)
  | .ok place =>
    match h.openPlace place with
    | .error e => .error (refusal e)
    | .ok f =>
      if f.size = 0 ∨ f.size % blockSize ≠ 0 then .error (.badSize f.size)
      else match h.allowance.mapping? f.size with
        | some e => .error (refusal e)
        | none => .ok ⟨place, f.size⟩

/-- Whether block `b` lies within the image. -/
def checkRange (i : Image) (b : Nat) : Except DeviceError Unit :=
  if b < i.blockCount then .ok () else .error (.outOfRange b i.blockCount)

/-- Reads a block of the image's file. -/
def readBlock (i : Image) (b : Nat) : EStateM DeviceError Host Block := fun h =>
  match i.checkRange b, h.file? i.place with
  | .error e, _ => .error e h
  | .ok (), some f => .ok (f.piece b) h
  | .ok (), none => .error (refusal .notFound) h

/-- Writes a block of the image's file. -/
def writeBlock (i : Image) (b : Nat) (block : Block) : EStateM DeviceError Host Unit := fun h =>
  match i.checkRange b, h.file? i.place with
  | .error e, _ => .error e h
  | .ok (), some f => .ok () (h.put i.place (.file (f.setPiece b block)))
  | .ok (), none => .error (refusal .notFound) h

/-- Writes the image's file out, which is taken to succeed. -/
def sync (i : Image) : EStateM DeviceError Host Unit := fun h =>
  match h.file? i.place with
  | some f => .ok () (h.put i.place (.file f.settle))
  | none => .ok () h

end Image

instance : BlockDevice Host Image where
  blockCount i _ := i.blockCount
  blockBytes _ _ := blockSize
  readBlock := Image.readBlock
  writeBlock := Image.writeBlock
  sync := Image.sync
  close _ := pure ()

/-- Opens the image at `path` and mounts it. -/
def FileSystem.mountImage (path : String) : FileSystemM Host Image Unit := fun fs =>
  if fs.isMounted then .error .alreadyMounted fs
  else match Image.open? fs.world path with
    | .ok image => fs.mount image
    | .error e => .error (.openFailed path e) fs

end FlatVolume
