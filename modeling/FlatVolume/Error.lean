import FlatVolume.Device.Error
import FlatVolume.Text.Quoted

/-!
# What the file system answers when an operation fails

`VolumeError` names every cause a caller can meet; `VolumeError.message` is the line shown for it
and `VolumeError.causes` the lines of what lies beneath, outermost first.

* A failed device call is reported by the block it was about (`io`), and the device's own error is
  its cause.
* Writing the metadata back is one step for the caller, so whatever stops it is wrapped once in
  `flushFailed`: a block that could not be stored, or the final sync or close.
* `misuse` is the answer of an operation whose precondition was broken. No operation of a mounted
  volume breaks one, whatever the volume holds.
-/

namespace FlatVolume

/-- What stopped the metadata from reaching the device. -/
inductive FlushCause where
  /-- Block `block` could not be stored. -/
  | store (block : Nat) (cause : DeviceError)
  /-- All blocks were stored, and then syncing or closing the device failed. -/
  | device (cause : DeviceError)
deriving DecidableEq, Repr

/-- A broken precondition of an operation on the allocation table. -/
inductive Misuse where
  /-- The table has no entry for this block. -/
  | noEntry (block : UInt16)
  /-- A block was to be linked behind one that does not end its chain. -/
  | notAnEnd (block : UInt16)
deriving DecidableEq, Repr

/-- Why an operation of the file system failed. -/
inductive VolumeError where
  | notMounted
  | alreadyMounted
  /-- The image at `path` could not be opened as a device. -/
  | openFailed (path : String) (cause : DeviceError)
  /-- The metadata could not be written back; the volume stays mounted unless closing failed. -/
  | flushFailed (cause : FlushCause)
  /-- The device's size and the superblock do not go together. -/
  | invalidGeometry
  | badSignature
  /-- A name that is empty, too long for a directory record, or holds a NUL. -/
  | invalidName (name : String)
  | nameExists (name : String)
  | directoryFull
  | fileNotFound (name : String)
  /-- The file is open, so it cannot be deleted. -/
  | fileOpen (name : String)
  | badDescriptor (fd : Nat)
  /-- A position past the end of a file of `size` bytes. -/
  | offsetOutOfRange (offset size : Nat)
  | tooManyOpenFiles
  | diskFull
  /-- A chain that loops, leaves the table or runs into a free block, found out at `block`. -/
  | corruptChain (block : UInt16)
  /-- The device failed on absolute block `block`. -/
  | io (block : Nat) (cause : DeviceError)
  /-- A directory record whose name is not NUL terminated UTF-8. -/
  | corruptEntry (slot : Nat)
  /-- An on-disk structure of `expected` bytes was to be read from `actual` bytes. -/
  | malformed (expected actual : Nat)
  | misuse (fault : Misuse)
deriving DecidableEq, Repr

/-- The line shown for a broken precondition. -/
def Misuse.message : Misuse → String
  | .noEntry block => s!"The allocation table has no entry {block}"
  | .notAnEnd block => s!"Data block {block} does not end its chain"

namespace VolumeError

open Text (quoted)

/-- The line shown for an error. -/
def message : VolumeError → String
  | notMounted => "No filesystem is mounted"
  | alreadyMounted => "A filesystem is already mounted"
  | openFailed path _ => "Couldn't open volume " ++ quoted path
  | flushFailed _ => "Couldn't write the filesystem metadata back to the volume"
  | invalidGeometry => "The volume geometry is inconsistent with the superblock"
  | badSignature => "The superblock signature is wrong, the volume is not formatted"
  | invalidName name => "Invalid file name " ++ quoted name
  | nameExists name => "A file named " ++ quoted name ++ " already exists"
  | directoryFull => "The root directory is full"
  | fileNotFound name => "No file named " ++ quoted name
  | fileOpen name => "File " ++ quoted name ++ " is currently open"
  | badDescriptor fd => s!"Bad file descriptor {fd}"
  | offsetOutOfRange offset size => s!"Offset {offset} is past the end of the file ({size} bytes)"
  | tooManyOpenFiles => "Too many open files"
  | diskFull => "No free data blocks left"
  | corruptChain block =>
    s!"The FAT chain is corrupted at data block {block}. This indicates a corrupted filesystem"
  | io block _ => s!"Block device failed on block {block}"
  | corruptEntry slot =>
    s!"Root directory slot {slot} holds a name that is not NUL terminated UTF-8"
  | malformed expected actual =>
    "Couldn't pack or unpack an on-disk structure: BufferSizeMismatch \x7b "
      ++ s!"expected: {expected}, actual: {actual}" ++ " \x7d"
  | misuse fault => fault.message

/-- The lines of what lies beneath an error, outermost first. -/
def causes : VolumeError → List String
  | openFailed _ cause => [cause.message]
  | flushFailed (.store block cause) => [message (io block cause), cause.message]
  | flushFailed (.device cause) => [cause.message]
  | io _ cause => [cause.message]
  | _ => []

/-- How an error met while writing the metadata back is reported: a block that could not be
    stored becomes a failed flush, and a failed flush is not wrapped twice. -/
def asFlushFailure : VolumeError → VolumeError
  | io block cause => flushFailed (.store block cause)
  | e => e

end VolumeError

end FlatVolume
