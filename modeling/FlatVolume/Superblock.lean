import FlatVolume.Device

/-!
# The superblock

Block 0 of a volume holds a signature and five numbers that say where everything else lies:

    block 0          the superblock
    blocks 1 ..      the allocation table, `tableBlocks` of them
    directoryBlock   the root directory
    dataStart ..     the data blocks, `dataBlocks` of them, to the end of the device

All five numbers follow from the device's block count, and are stored only so that mounting can
compare them:

* `Geometry` -- the equations a layout satisfies: at least one data block, one table entry for
  each, no table block more than needed, nothing left over;
* `Superblock.forBlockCount?` -- the layout of a device of a given size, if it has one;
* `Superblock.encode`, `Superblock.decode` -- the seventeen bytes of a superblock;
* `Superblock.load`, `Superblock.store` -- reading it from a device with all checks, and writing
  it.
-/

namespace FlatVolume

open Bytes

/-! ## 1. Layouts -/

/-- Table entries that fit in one block. -/
def linksPerBlock : Nat := blockSize / 2

/-- **The equations of a layout:** `total` blocks are one superblock, `tableBlocks` blocks of the
    allocation table, one directory block and `dataBlocks` data blocks, where the table has just
    enough blocks for one entry per data block. -/
structure Geometry (total tableBlocks dataBlocks : Nat) : Prop where
  data_pos : 1 ≤ dataBlocks
  total_eq : total = dataBlocks + tableBlocks + 2
  table_eq : tableBlocks = ceilDiv dataBlocks linksPerBlock
  total_le : total ≤ 65535

/-- What block 0 of a volume says. -/
structure Superblock where
  /-- `Superblock.magic` on every volume. -/
  signature : Vector UInt8 8
  totalBlocks : UInt16
  directoryBlock : UInt16
  dataStart : UInt16
  dataBlocks : UInt16
  tableBlocks : UInt8
deriving DecidableEq

namespace Superblock

/-- The signature of a volume, eight letters and digits. -/
def magic : Vector UInt8 8 := #v[0x45, 0x43, 0x53, 0x31, 0x35, 0x30, 0x46, 0x53]

theorem ofVector_magic : ofVector magic = "ECS150FS".toUTF8 := rfl

/-- The only layout of a device of `total` blocks, if there is one. The smallest table that could
    describe the rest of the device is taken; sizes at which that table would be a block too large
    for what is then left have no layout. -/
def forBlockCount? (total : Nat) : Option Superblock :=
  let tableBlocks := ceilDiv (total - 2) (linksPerBlock + 1)
  let dataBlocks := total - (2 + tableBlocks)
  if total < 3 ∨ 65535 < total ∨ dataBlocks = 0 ∨ 255 < tableBlocks
      ∨ ceilDiv dataBlocks linksPerBlock ≠ tableBlocks then
    none
  else
    some
      { signature := magic
        totalBlocks := UInt16.ofNat total
        directoryBlock := UInt16.ofNat (tableBlocks + 1)
        dataStart := UInt16.ofNat (tableBlocks + 2)
        dataBlocks := UInt16.ofNat dataBlocks
        tableBlocks := UInt8.ofNat tableBlocks }

/-- The first block of the allocation table. -/
def tableStart (_ : Superblock) : Nat := 1

/-- The block of the device that holds data block `index`. -/
def dataBlock (sb : Superblock) (index : UInt16) : Nat :=
  sb.dataStart.toNat + index.toNat

/-! ## 2. The seventeen bytes -/

/-- The size of a superblock; the rest of block 0 is zero. -/
def encodedSize : Nat := 17

/-- The bytes of a superblock: the signature, four 16 bit numbers and one byte. -/
def encode (sb : Superblock) : ByteArray :=
  ofVector sb.signature ++ ofWord16 sb.totalBlocks ++ ofWord16 sb.directoryBlock
    ++ ofWord16 sb.dataStart ++ ofWord16 sb.dataBlocks ++ ⟨#[sb.tableBlocks]⟩

@[simp] theorem size_encode (sb : Superblock) : sb.encode.size = encodedSize := by
  simp only [encode, ByteArray.size_append, size_ofVector, size_ofWord16, encodedSize]
  rfl

/-- The superblock that stands at the beginning of `b`. -/
def ofBytes (b : ByteArray) : Superblock where
  signature := vectorAt 8 b 0
  totalBlocks := word16 b 8
  directoryBlock := word16 b 10
  dataStart := word16 b 12
  dataBlocks := word16 b 14
  tableBlocks := byteAt b 16

/-- **A superblock is read back from its bytes,** whatever follows them. -/
theorem ofBytes_encode_append (sb : Superblock) (b : ByteArray) :
    ofBytes (sb.encode ++ b) = sb := by
  have hs : sb.encode.size = 17 := sb.size_encode
  have hv : vectorAt 8 sb.encode 0 = sb.signature := by
    simp [encode, vectorAt_append_left, vectorAt_ofVector]
  have h8 : word16 sb.encode 8 = sb.totalBlocks := by
    simp [encode, word16_append_left, word16_append_of_le, word16_ofWord16]
  have h10 : word16 sb.encode 10 = sb.directoryBlock := by
    simp [encode, word16_append_left, word16_append_of_le, word16_ofWord16]
  have h12 : word16 sb.encode 12 = sb.dataStart := by
    simp [encode, word16_append_left, word16_append_of_le, word16_ofWord16]
  have h14 : word16 sb.encode 14 = sb.dataBlocks := by
    simp [encode, word16_append_left, word16_append_of_le, word16_ofWord16]
  have h16 : byteAt sb.encode 16 = sb.tableBlocks := by
    simp [encode, byteAt_append_of_le]
    rfl
  simp only [ofBytes, vectorAt_append_left (show 0 + 8 ≤ sb.encode.size by omega),
    word16_append_left (show 8 + 2 ≤ sb.encode.size by omega),
    word16_append_left (show 10 + 2 ≤ sb.encode.size by omega),
    word16_append_left (show 12 + 2 ≤ sb.encode.size by omega),
    word16_append_left (show 14 + 2 ≤ sb.encode.size by omega),
    byteAt_append_left (show 16 < sb.encode.size by omega), hv, h8, h10, h12, h14, h16]

/-- A superblock is read from seventeen bytes, neither more nor fewer. -/
def decode (b : ByteArray) : Except VolumeError Superblock :=
  if b.size = encodedSize then .ok (ofBytes b) else .error (.malformed encodedSize b.size)

/-! ## 3. On a device -/

section OnDevice

variable {W H : Type} [BlockDevice W H]

/-- Reads block 0 and compares it with the layout that the device's block count dictates. A device
    with blocks of another size is not even read; the signature is looked at before the numbers. -/
def load (d : H) : VolumeM W Superblock := do
  if BlockDevice.blockBytes d (← get) ≠ blockSize then
    throw .invalidGeometry
  let block ← loadBlock d 0
  let found := ofBytes block.bytes
  if found.signature ≠ magic then
    throw .badSignature
  if some found ≠ forBlockCount? (BlockDevice.blockCount d (← get)) then
    throw .invalidGeometry
  return found

/-- Writes block 0: the superblock and zeros after it. -/
def store (sb : Superblock) (d : H) : VolumeM W Unit :=
  storeBlock d 0 (Block.padded sb.encode)

end OnDevice

end Superblock

end FlatVolume
