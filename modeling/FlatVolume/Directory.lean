import FlatVolume.Directory.Entry
import FlatVolume.Lowest
import FlatVolume.Superblock

/-!
# The root directory

All files of a volume stand in one flat directory of `maxFiles` slots that fills one block. A slot
number is a `Slot`, so no operation can name a slot that does not exist. Names are looked up from
the lowest slot on, and a new file takes the lowest free slot.
-/

namespace FlatVolume

/-- The slots of a directory. -/
def maxFiles : Nat := 128

theorem maxFiles_pos : 0 < maxFiles := by decide

/-- The number of a directory slot. -/
abbrev Slot := Fin maxFiles

/-- The slots of the root directory, free or occupied. -/
structure Directory where
  slots : Vector Entry maxFiles
deriving DecidableEq, Repr

namespace Directory

/-! ## 1. Slots -/

/-- The directory of a volume without files. -/
def empty : Directory := ⟨Vector.replicate maxFiles Entry.free⟩

/-- The entry in a slot. -/
def get (d : Directory) (slot : Slot) : Entry := d.slots[slot]

/-- The directory with a slot replaced. -/
def set (d : Directory) (slot : Slot) (e : Entry) : Directory :=
  ⟨d.slots.set slot e⟩

theorem get_set (d : Directory) (slot slot' : Slot) (e : Entry) :
    (d.set slot e).get slot' = if slot' = slot then e else d.get slot' := by
  by_cases h : slot' = slot
  · subst h
    simp [get, set]
  · have h' : slot.val ≠ slot'.val := fun e => h (Fin.ext e.symm)
    simp [get, set, h, h']

/-- Whether a slot holds the file called `name`. -/
def holds (name : String) (e : Entry) : Bool := !e.isFree && e.name == name

/-- The lowest slot that holds a file called `name`. -/
def find? (d : Directory) (name : String) : Option Slot :=
  lowest? (holds name) d.slots

/-- The lowest free slot. -/
def freeSlot? (d : Directory) : Option Slot :=
  lowest? Entry.isFree d.slots

/-- **A name is found in the lowest slot that holds it.** -/
theorem find?_eq_some_iff {d : Directory} {name : String} {slot : Slot} :
    d.find? name = some slot ↔
      holds name (d.get slot) = true ∧ ∀ s < slot, holds name (d.get s) = false :=
  lowest?_eq_some_iff

/-- The lowest free slot is free, and all below it are occupied. -/
theorem freeSlot?_eq_some_iff {d : Directory} {slot : Slot} :
    d.freeSlot? = some slot ↔ (d.get slot).isFree = true ∧ ∀ s < slot, (d.get s).isFree = false :=
  lowest?_eq_some_iff

/-- The files, in the order of their slots. -/
def files (d : Directory) : List Entry :=
  d.slots.toList.filter fun e => !e.isFree

/-- How many slots are free. -/
def freeCount (d : Directory) : Nat :=
  d.slots.toList.countP Entry.isFree

/-! ## 2. Creating and removing -/

/-- Enters an empty file in the lowest free slot. The name is looked at first, then whether it is
    taken, then whether there is room. -/
def create (d : Directory) (name : String) : Except VolumeError (Slot × Directory) := do
  checkName name
  if (d.find? name).isSome then
    throw (.nameExists name)
  match d.freeSlot? with
  | some slot => return (slot, d.set slot (Entry.ofName name))
  | none => throw .directoryFull

/-- Clears a slot and gives what it held. -/
def remove (d : Directory) (slot : Slot) : Entry × Directory :=
  (d.get slot, d.set slot Entry.free)

/-! ## 3. On a device -/

/-- The block a directory fills: its records, in the order of the slots. -/
def encode (d : Directory) : Block :=
  Block.padded (Bytes.concat (d.slots.toList.map fun e => e.toRecord.encode))

/-- What the record of a slot says, if it can be read. -/
def recordAt? (b : Block) (slot : Slot) : Option Entry :=
  Entry.ofRecord? (Record.ofBytes (b.slice (Record.encodedSize * slot.val) Record.encodedSize))

/-- Reads all slots. The lowest record that cannot be read is reported. -/
def decode (b : Block) : Except VolumeError Directory :=
  let slots := Vector.ofFn (recordAt? b)
  match lowest? Option.isNone slots with
  | some slot => .error (.corruptEntry slot.val)
  | none => .ok ⟨slots.map (·.getD Entry.free)⟩

section OnDevice

variable {W H : Type} [BlockDevice W H]

/-- Reads the directory from its block. -/
def load (d : H) (sb : Superblock) : VolumeM W Directory := do
  let block ← loadBlock d sb.directoryBlock.toNat
  match decode block with
  | .ok root => return root
  | .error e => throw e

/-- Writes the directory to its block. -/
def flush (root : Directory) (d : H) (sb : Superblock) : VolumeM W Unit :=
  storeBlock d sb.directoryBlock.toNat root.encode

end OnDevice

end Directory

end FlatVolume
