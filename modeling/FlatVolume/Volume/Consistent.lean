import FlatVolume.Table.Chain
import FlatVolume.Volume

/-!
# Consistent volumes

What it means for the files of a volume to be sound, said without any walk or marking:

* every file has a chain, and that chain has just as many blocks as the size of the file needs
  (`HasBlocks`);
* no block lies on a chain twice, neither on that of one file nor on those of two.

`Volume.Orphan` names the blocks that are in use but belong to no file; a consistent volume may
have them, and no operation makes or removes one.
-/

namespace FlatVolume.Volume

variable {H : Type}

/-- `blocks` are the blocks of the file `e`, and they are as many as its size needs. -/
structure HasBlocks (v : Volume H) (e : Entry) (blocks : List Link) : Prop where
  chain : v.table.Chain e.firstBlock blocks
  length_eq : blocks.length = ceilDiv e.size blockSize

/-- **A volume whose files are sound.** -/
structure Consistent (v : Volume H) : Prop where
  hasBlocks : ∀ e ∈ v.root.files, ∃ blocks, v.HasBlocks e blocks ∧ blocks.Nodup
  disjoint : v.root.files.Pairwise fun e e' => ∀ blocks blocks',
    v.HasBlocks e blocks → v.HasBlocks e' blocks' → ∀ b ∈ blocks, b ∉ blocks'

/-- A block that is in use and lies on no file's chain. -/
def Orphan (v : Volume H) (b : Link) : Prop :=
  (v.table.link? b).isSome ∧ ∀ e ∈ v.root.files, ∀ blocks,
    v.table.Chain e.firstBlock blocks → b ∉ blocks

/-- The blocks a file has are determined by the volume. -/
theorem HasBlocks.unique {v : Volume H} {e : Entry} {blocks blocks' : List Link}
    (h : v.HasBlocks e blocks) (h' : v.HasBlocks e blocks') : blocks = blocks' :=
  h.chain.unique h'.chain

/-- A file without bytes has no blocks, so its first block is the end of its chain. -/
theorem HasBlocks.firstBlock_of_size_eq_zero {v : Volume H} {e : Entry} {blocks : List Link}
    (h : v.HasBlocks e blocks) (hs : e.size = 0) : e.firstBlock = Link.endOfChain := by
  have hl : blocks.length = 0 := by rw [h.length_eq, hs]; rfl
  rw [List.length_eq_zero_iff] at hl
  exact AllocationTable.Chain.nil_iff.mp (hl ▸ h.chain)

end FlatVolume.Volume
