import FlatVolume.Proofs.Growth
import FlatVolume.Proofs.Intact

/-!
# What a file holds

The bytes of a file are found by following its chain (`Volume.blocksOf`) and taking from the blocks
as many bytes as the entry says (`Mounted.bytesOf`). Where the volume is intact these are the blocks
that the file owns.
-/

namespace FlatVolume

open AllocationTable Bytes

namespace Volume

variable {H : Type} {v : Volume H}

/-- The blocks on the chain of an entry; none if it is no chain. -/
def blocksOf (v : Volume H) (e : Entry) : List Link :=
  match v.table.chain e.firstBlock with
  | .ok blocks => blocks
  | .error _ => []

theorem blocksOf_of_chain {e : Entry} {blocks : List Link}
    (h : Chain v.table e.firstBlock blocks) : v.blocksOf e = blocks := by
  rw [blocksOf, chain_eq_ok_iff.mpr h]

theorem Intact.blocksOf_eq {own : Slot → List Link} (h : v.Intact own) (s : Slot) :
    v.blocksOf (v.root.get s) = own s := blocksOf_of_chain (h.allotment.chain s)

end Volume

namespace Mounted

variable {W H : Type} [BlockDevice W H] [LawfulBlockDevice W H]

/-- **The bytes of a file.** -/
def bytesOf (m : Mounted W H) (e : Entry) : ByteArray :=
  ⟨Array.ofFn fun i : Fin e.size =>
    byteOn m.volume.superblock m.storage (m.volume.blocksOf e) i.val⟩

@[simp] theorem size_bytesOf (m : Mounted W H) (e : Entry) : (m.bytesOf e).size = e.size :=
  Array.size_ofFn

theorem byteAt_bytesOf (m : Mounted W H) (e : Entry) {i : Nat} (h : i < e.size) :
    byteAt (m.bytesOf e) i = byteOn m.volume.superblock m.storage (m.volume.blocksOf e) i := by
  have hs : i < (m.bytesOf e).size := by rwa [size_bytesOf]
  rw [byteAt_of_lt hs]
  exact Array.getElem_ofFn ..

theorem bytesOf_of_size_eq_zero (m : Mounted W H) {e : Entry} (h : e.size = 0) :
    m.bytesOf e = ByteArray.empty := by
  refine ext_byteAt (by rw [size_bytesOf, h]; rfl) fun i hi => ?_
  rw [size_bytesOf, h] at hi
  exact absurd hi (Nat.not_lt_zero i)

/-- A file whose blocks are the same and hold the same has the same bytes. -/
theorem bytesOf_congr {m m' : Mounted W H} {e : Entry}
    (hsb : m'.volume.superblock = m.volume.superblock)
    (hblocks : m'.volume.blocksOf e = m.volume.blocksOf e)
    (h : ∀ b ∈ m.volume.blocksOf e, m'.storage.block (m.volume.superblock.dataBlock b) =
      m.storage.block (m.volume.superblock.dataBlock b)) : m'.bytesOf e = m.bytesOf e := by
  refine ext_byteAt (by rw [size_bytesOf, size_bytesOf]) fun i hi => ?_
  rw [size_bytesOf] at hi
  rw [byteAt_bytesOf _ _ hi, byteAt_bytesOf _ _ hi, hsb, hblocks, byteOn_congr h]

end Mounted

end FlatVolume
