import FlatVolume.Proofs.Chains
import FlatVolume.Proofs.DeviceCalls
import FlatVolume.Proofs.Layout

/-!
# The bytes of a file

A file with the blocks `blocks` has at position `p` the byte `p % blockSize` of its block
`p / blockSize` (`byteOn`), and zero where it has no block. This file fixes what storing one data
block does to the bytes of a file that has the block (`byteOn_set`), that has it as its new last
block (`byteOn_append_set`), and that does not have it (`byteOn_set_of_notMem`).
-/

namespace FlatVolume

open Bytes

theorem ceilDiv_mul_ge (a : Nat) : a ≤ ceilDiv a blockSize * blockSize := by
  simp only [ceilDiv, blockSize]
  omega

theorem ceilDiv_pos {a : Nat} (h : 0 < a) : 0 < ceilDiv a blockSize := by
  simp only [ceilDiv, blockSize]
  omega

theorem ceilDiv_mono {a b : Nat} (h : a ≤ b) : ceilDiv a blockSize ≤ ceilDiv b blockSize := by
  simp only [ceilDiv, blockSize]
  omega

/-- Blocks with the same bytes are the same. -/
theorem Block.ext_byteAt {a b : Block}
    (h : ∀ i, i < blockSize → byteAt a.bytes i = byteAt b.bytes i) : a = b := by
  refine Block.ext_bytes (Bytes.ext_byteAt (by simp) fun i hi => h i ?_)
  simpa using hi

/-- The byte at position `p` of a file with the blocks `blocks`, zero behind the last block. -/
def byteOn (sb : Superblock) (st : Storage) (blocks : List Link) (p : Nat) : UInt8 :=
  match blocks[p / blockSize]? with
  | some b => byteAt (st.block (sb.dataBlock b)).bytes (p % blockSize)
  | none => 0

variable {sb : Superblock} {st st' : Storage} {blocks : List Link} {b : Link} {p : Nat}

theorem byteOn_of_getElem? (h : blocks[p / blockSize]? = some b) :
    byteOn sb st blocks p = byteAt (st.block (sb.dataBlock b)).bytes (p % blockSize) := by
  simp only [byteOn, h]

theorem byteOn_of_le (h : blocks.length * blockSize ≤ p) : byteOn sb st blocks p = 0 := by
  have hl : blocks.length ≤ p / blockSize := by
    simp only [blockSize] at h ⊢
    omega
  simp only [byteOn, List.getElem?_eq_none hl]

/-- Blocks that hold the same give the same bytes. -/
theorem byteOn_congr (h : ∀ b ∈ blocks, st'.block (sb.dataBlock b) = st.block (sb.dataBlock b))
    (p : Nat) : byteOn sb st' blocks p = byteOn sb st blocks p := by
  unfold byteOn
  split
  · rename_i b hb
    rw [h b (List.mem_of_getElem? hb)]
  · rfl

/-- The first blocks of a file hold its first bytes. -/
theorem byteOn_take {size : Nat} (h : p < size) :
    byteOn sb st (blocks.take (ceilDiv size blockSize)) p = byteOn sb st blocks p := by
  have hlt : p / blockSize < ceilDiv size blockSize := by
    simp only [ceilDiv, blockSize]
    omega
  unfold byteOn
  rw [List.getElem?_take_of_lt hlt]

/-- Storages that may differ in the contents of their blocks and in nothing else. -/
structure SameShape (st st' : Storage) : Prop where
  blockCount_eq : st'.blockCount = st.blockCount
  blockBytes_eq : st'.blockBytes = st.blockBytes
  whole_eq : st'.whole = st.whole

theorem SameShape.refl (st : Storage) : SameShape st st := ⟨rfl, rfl, rfl⟩

theorem SameShape.set (h : SameShape st st') (i : Nat) (blk : Block) :
    SameShape st (st'.set i blk) := ⟨h.blockCount_eq, h.blockBytes_eq, h.whole_eq⟩

theorem SameShape.trans {st'' : Storage} (h : SameShape st st') (h' : SameShape st' st'') :
    SameShape st st'' :=
  ⟨h'.blockCount_eq.trans h.blockCount_eq, h'.blockBytes_eq.trans h.blockBytes_eq,
    h'.whole_eq.trans h.whole_eq⟩

theorem block_set (st : Storage) (i j : Nat) (blk : Block) :
    (st.set i blk).block j = if j = i then blk else st.block j := rfl

theorem byteOn_set_of_notMem (h : b ∉ blocks) (blk : Block) (p : Nat) :
    byteOn sb (st.set (sb.dataBlock b) blk) blocks p = byteOn sb st blocks p := by
  refine byteOn_congr (fun c hc => ?_) p
  have hne : sb.dataBlock c ≠ sb.dataBlock b := fun e => h (Superblock.dataBlock_inj e ▸ hc)
  rw [block_set, if_neg hne]

/-- **Storing block number `j` of a file** changes its bytes there and nowhere else. -/
theorem byteOn_set (hn : blocks.Nodup) {j : Nat} (hj : blocks[j]? = some b) (blk : Block)
    (p : Nat) : byteOn sb (st.set (sb.dataBlock b) blk) blocks p =
      if p / blockSize = j then byteAt blk.bytes (p % blockSize) else byteOn sb st blocks p := by
  by_cases hp : p / blockSize = j
  · rw [if_pos hp, byteOn_of_getElem? (hp ▸ hj), block_set, if_pos rfl]
  · rw [if_neg hp]
    unfold byteOn
    split
    · rename_i c hc
      have hcb : c ≠ b := by
        intro heq
        subst heq
        have hlt : p / blockSize < blocks.length := (List.getElem?_eq_some_iff.mp hc).1
        exact hp ((List.getElem?_inj hlt hn).mp (hc.trans hj.symm))
      have hne : sb.dataBlock c ≠ sb.dataBlock b := fun e => hcb (Superblock.dataBlock_inj e)
      rw [block_set, if_neg hne]
    · rfl

/-- Storing a new last block adds its bytes behind the others. -/
theorem byteOn_append_set (hb : b ∉ blocks) (blk : Block) (p : Nat) :
    byteOn sb (st.set (sb.dataBlock b) blk) (blocks ++ [b]) p =
      if p / blockSize = blocks.length then byteAt blk.bytes (p % blockSize)
      else byteOn sb st blocks p := by
  by_cases hp : p / blockSize = blocks.length
  · have hg : (blocks ++ [b])[p / blockSize]? = some b := by
      rw [hp, List.getElem?_concat_length]
    rw [if_pos hp, byteOn_of_getElem? hg, block_set, if_pos rfl]
  · rw [if_neg hp, ← byteOn_set_of_notMem hb blk p]
    unfold byteOn
    rcases Nat.lt_or_gt_of_ne hp with hlt | hgt
    · rw [List.getElem?_append_left hlt]
    · rw [List.getElem?_eq_none (by simp; omega), List.getElem?_eq_none (by omega)]

/-- **Bytes laid over one block of a file** are read at their positions, and all others stay. -/
theorem byteAt_overlay_position (blk : Block) {pos : Nat} {src : ByteArray}
    (h : pos % blockSize + src.size ≤ blockSize) (hp : p / blockSize = pos / blockSize) :
    byteAt (blk.overlay (pos % blockSize) src).bytes (p % blockSize) =
      if pos ≤ p ∧ p < pos + src.size then byteAt src (p - pos)
      else byteAt blk.bytes (p % blockSize) := by
  rw [Block.byteAt_overlay blk h]
  have hd := Nat.div_add_mod p blockSize
  have hd' := Nat.div_add_mod pos blockSize
  rw [hp] at hd
  have hiff : (pos % blockSize ≤ p % blockSize ∧ p % blockSize < pos % blockSize + src.size) ↔
      (pos ≤ p ∧ p < pos + src.size) := by omega
  have hsub : p % blockSize - pos % blockSize = p - pos := by omega
  simp only [hiff, hsub]

/-- A position of the range that begins at `pos` and stays in one block lies in that block. -/
theorem div_eq_of_mem_span {pos n : Nat} (h : pos % blockSize + n ≤ blockSize) (h1 : pos ≤ p)
    (h2 : p < pos + n) : p / blockSize = pos / blockSize := by
  simp only [blockSize] at *
  omega

/-- **Laying bytes over a block the file has** changes just those positions of the file. -/
theorem byteOn_set_overlay (hn : blocks.Nodup) {pos : Nat} {src : ByteArray}
    (hb : blocks[pos / blockSize]? = some b) (h : pos % blockSize + src.size ≤ blockSize)
    (p : Nat) :
    byteOn sb (st.set (sb.dataBlock b)
      ((st.block (sb.dataBlock b)).overlay (pos % blockSize) src)) blocks p =
      if pos ≤ p ∧ p < pos + src.size then byteAt src (p - pos) else byteOn sb st blocks p := by
  rw [byteOn_set hn hb]
  by_cases hp : p / blockSize = pos / blockSize
  · rw [if_pos hp, byteAt_overlay_position _ h hp, byteOn_of_getElem? (hp ▸ hb)]
  · rw [if_neg hp, if_neg fun hr => hp (div_eq_of_mem_span h hr.1 hr.2)]

/-- **Bytes in a new last block** are read behind the others, with zeros around them. -/
theorem byteOn_append_overlay (hb : b ∉ blocks) {pos : Nat} {src : ByteArray}
    (hdiv : pos / blockSize = blocks.length) (h : pos % blockSize + src.size ≤ blockSize) (p : Nat) :
    byteOn sb (st.set (sb.dataBlock b) (Block.zero.overlay (pos % blockSize) src))
      (blocks ++ [b]) p =
      if pos ≤ p ∧ p < pos + src.size then byteAt src (p - pos) else byteOn sb st blocks p := by
  rw [byteOn_append_set hb, ← hdiv]
  by_cases hp : p / blockSize = pos / blockSize
  · have hle : blocks.length * blockSize ≤ p := by
      rw [← hdiv, ← hp]
      exact Nat.div_mul_le_self p blockSize
    rw [if_pos hp, byteAt_overlay_position _ h hp, Block.byteAt_zero, byteOn_of_le hle]
  · rw [if_neg hp, if_neg fun hr => hp (div_eq_of_mem_span h hr.1 hr.2)]

/-- A range of data followed by the next piece of it is a longer range. -/
theorem ite_range_append {offset k n : Nat} (data : ByteArray) (p : Nat) (x : UInt8)
    (hk : k + n ≤ data.size) :
    (if offset + k ≤ p ∧ p < offset + k + (data.extract k (k + n)).size then
        byteAt (data.extract k (k + n)) (p - (offset + k))
      else if offset ≤ p ∧ p < offset + k then byteAt data (p - offset) else x) =
      if offset ≤ p ∧ p < offset + (k + n) then byteAt data (p - offset) else x := by
  have hs : (data.extract k (k + n)).size = n := by
    rw [ByteArray.size_extract]
    omega
  rw [hs]
  by_cases h1 : offset + k ≤ p ∧ p < offset + k + n
  · rw [if_pos h1, if_pos (by omega), byteAt_extract (by omega)]
    congr 1
    omega
  · rw [if_neg h1]
    by_cases h2 : offset ≤ p ∧ p < offset + k
    · rw [if_pos h2, if_pos (by omega)]
    · rw [if_neg h2, if_neg (by omega)]

end FlatVolume
