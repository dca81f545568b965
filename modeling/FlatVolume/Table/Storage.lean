import FlatVolume.Table
import FlatVolume.Superblock

/-!
# The allocation table on a device

The table stands in the blocks after the superblock, two bytes per entry. Its last block is
usually not filled: what is there beyond the last data block is skipped when the table is read and
zeroed when it is written.
-/

namespace FlatVolume

open Bytes

/-- The entries that stand in a block. -/
def Block.links (b : Block) : Array Link :=
  Array.ofFn fun i : Fin linksPerBlock => word16 b.bytes (2 * i.val)

namespace AllocationTable

/-- The bytes of a run of entries. -/
def encodeLinks (links : Array Link) : ByteArray :=
  concat (links.toList.map ofWord16)

/-- Each entry takes two bytes. -/
theorem size_encodeLinks (links : Array Link) : (encodeLinks links).size = 2 * links.size := by
  rw [encodeLinks, size_concat (n := 2) (by simp), List.length_map, Array.length_toList]

/-- **An entry is read back from where it was put.** -/
theorem word16_encodeLinks {links : Array Link} {i : Nat} (h : i < links.size) :
    word16 (encodeLinks links) (2 * i) = links[i] := by
  have hp : ∀ p ∈ links.toList.map ofWord16, p.size = 2 := by simp
  have hi : i < (links.toList.map ofWord16).length := by simpa using h
  have := word16_extract (b := encodeLinks links) (i := 2 * i) (j := 2 * i + 2) (k := 0) (by omega)
  rw [encodeLinks, extract_concat hp hi, List.getElem_map, word16_ofWord16] at this
  rw [encodeLinks, ← Nat.add_zero (2 * i), ← this, Array.getElem_toList]

/-- The entries that stand in the `i`th block of the table. -/
def chunk (t : AllocationTable) (i : Nat) : Array Link :=
  t.entries.extract (i * linksPerBlock) ((i + 1) * linksPerBlock)

section OnDevice

variable {W H : Type} [BlockDevice W H]

/-- Reads the table block by block and keeps one entry per data block. -/
def load (d : H) (sb : Superblock) : VolumeM W AllocationTable := do
  let blocks ← (List.range sb.tableBlocks.toNat).mapM fun i => loadBlock d (sb.tableStart + i)
  return ⟨(blocks.toArray.flatMap Block.links).extract 0 sb.dataBlocks.toNat⟩

/-- Writes the table block by block, with zeros after the last entry. -/
def flush (t : AllocationTable) (d : H) (sb : Superblock) : VolumeM W Unit :=
  (List.range sb.tableBlocks.toNat).forM fun i =>
    storeBlock d (sb.tableStart + i) (Block.padded (encodeLinks (t.chunk i)))

end OnDevice

end AllocationTable

end FlatVolume
