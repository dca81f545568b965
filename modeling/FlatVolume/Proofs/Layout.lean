import FlatVolume.Superblock

/-!
# Where things lie

The numbers of a layout as `Superblock.forBlockCount?` finds them (`LaidOut`), without the 16 and 8
bit words they are stored in: one superblock, the table, one directory block, and then the data
blocks to the end of the device. Different data blocks lie in different blocks of the device
(`dataBlock_inj`), behind all metadata (`LaidOut.dataBlock_lt`).

The formula of `Superblock.forBlockCount?` finds every layout there is: a device has at most one
(`Geometry.unique`), and it is found (`forBlockCount?_eq_some_iff`). Sizes without a layout are those
for which nothing is found (`forBlockCount?_eq_none_iff`).
-/

namespace FlatVolume

/-- **A device has at most one layout:** of two layouts, the one with more data blocks would have
    the smaller table. -/
theorem Geometry.unique {n t t' k k' : Nat} (h : Geometry n t k) (h' : Geometry n t' k') :
    t = t' ∧ k = k' := by
  have hn := h.total_eq
  have hn' := h'.total_eq
  have ht := h.table_eq
  have ht' := h'.table_eq
  simp only [ceilDiv, linksPerBlock, blockSize] at ht ht'
  omega

/-- The table of a layout has the number of blocks that the formula gives. -/
theorem Geometry.tableBlocks_eq {n t k : Nat} (h : Geometry n t k) :
    ceilDiv (n - 2) (linksPerBlock + 1) = t := by
  have hn := h.total_eq
  have ht := h.table_eq
  simp only [ceilDiv, linksPerBlock, blockSize] at ht ⊢
  omega

end FlatVolume

namespace FlatVolume.Superblock

variable {n : Nat} {sb : Superblock}

/-- `sb` is the layout of a device of `n` blocks, number by number. -/
structure LaidOut (sb : Superblock) (n : Nat) : Prop where
  geometry : Geometry n sb.tableBlocks.toNat sb.dataBlocks.toNat
  signature_eq : sb.signature = magic
  totalBlocks_eq : sb.totalBlocks.toNat = n
  directoryBlock_eq : sb.directoryBlock.toNat = sb.tableBlocks.toNat + 1
  dataStart_eq : sb.dataStart.toNat = sb.tableBlocks.toNat + 2

/-- **What is found for a device is laid out for it.** -/
theorem laidOut_of_forBlockCount? (h : forBlockCount? n = some sb) : LaidOut sb n := by
  simp only [forBlockCount?] at h
  generalize hT : ceilDiv (n - 2) (linksPerBlock + 1) = table at h
  generalize hD : n - (2 + table) = data at h
  split at h
  · cases h
  · rename_i hno
    simp only [not_or, Decidable.not_not, Nat.not_lt] at hno
    obtain ⟨h3, hmax, hdata, h255, hceil⟩ := hno
    cases h
    -- every number fits its word
    have hw : ∀ {k : Nat}, k ≤ 65535 → (UInt16.ofNat k).toNat = k := by
      intro k hk
      rw [UInt16.toNat_ofNat']
      omega
    have ht : (UInt8.ofNat table).toNat = table := by
      rw [UInt8.toNat_ofNat']
      omega
    have hd : (UInt16.ofNat data).toNat = data := hw (by omega)
    refine ⟨⟨?_, ?_, ?_, hmax⟩, rfl, hw hmax, ?_, ?_⟩
    · show 1 ≤ (UInt16.ofNat data).toNat
      omega
    · show n = (UInt16.ofNat data).toNat + (UInt8.ofNat table).toNat + 2
      omega
    · show (UInt8.ofNat table).toNat = ceilDiv (UInt16.ofNat data).toNat linksPerBlock
      rw [ht, hd, hceil]
    · show (UInt16.ofNat (table + 1)).toNat = (UInt8.ofNat table).toNat + 1
      rw [ht, hw (by omega)]
    · show (UInt16.ofNat (table + 2)).toNat = (UInt8.ofNat table).toNat + 2
      rw [ht, hw (by omega)]

/-- Two superblocks of one layout say the same. -/
theorem LaidOut.eq {sb' : Superblock} (h : LaidOut sb n) (h' : LaidOut sb' n) : sb = sb' := by
  obtain ⟨ht, hk⟩ := h.geometry.unique h'.geometry
  have hsig := h.signature_eq.trans h'.signature_eq.symm
  have htotal := UInt16.toNat_inj.mp (h.totalBlocks_eq.trans h'.totalBlocks_eq.symm)
  have hdir : sb.directoryBlock = sb'.directoryBlock :=
    UInt16.toNat_inj.mp (by rw [h.directoryBlock_eq, h'.directoryBlock_eq, ht])
  have hstart : sb.dataStart = sb'.dataStart :=
    UInt16.toNat_inj.mp (by rw [h.dataStart_eq, h'.dataStart_eq, ht])
  have hdata := UInt16.toNat_inj.mp hk
  have htable := UInt8.toNat_inj.mp ht
  cases sb
  cases sb'
  congr

/-- **The layout of every device that has one is found.** -/
theorem exists_forBlockCount? {t k : Nat} (h : Geometry n t k) :
    ∃ sb, forBlockCount? n = some sb := by
  have hn := h.total_eq
  have hpos := h.data_pos
  have hle := h.total_le
  have htable := h.table_eq
  have hdata : n - (2 + t) = k := by omega
  simp only [forBlockCount?, h.tableBlocks_eq, hdata, ← htable]
  have h255 : ¬ 255 < t := by
    simp only [ceilDiv, linksPerBlock, blockSize] at htable
    omega
  rw [if_neg (by omega)]
  exact ⟨_, rfl⟩

/-- **What is found is the layout,** number by number, none of them cut to its word. -/
theorem forBlockCount?_eq_some_iff : forBlockCount? n = some sb ↔ LaidOut sb n := by
  refine ⟨laidOut_of_forBlockCount?, fun h => ?_⟩
  obtain ⟨sb', h'⟩ := exists_forBlockCount? h.geometry
  rw [h', (laidOut_of_forBlockCount? h').eq h]

/-- Nothing is found exactly where no numbers satisfy the equations. -/
theorem forBlockCount?_eq_none_iff : forBlockCount? n = none ↔ ¬ ∃ t k, Geometry n t k := by
  refine ⟨fun h hq => ?_, fun h => ?_⟩
  · obtain ⟨t, k, hg⟩ := hq
    obtain ⟨sb, hs⟩ := exists_forBlockCount? hg
    rw [h] at hs
    cases hs
  · cases hs : forBlockCount? n with
    | none => rfl
    | some sb => exact absurd ⟨_, _, (laidOut_of_forBlockCount? hs).geometry⟩ h

theorem dataBlock_inj {b c : UInt16} (h : sb.dataBlock b = sb.dataBlock c) : b = c := by
  simp only [dataBlock] at h
  exact UInt16.toNat_inj.mp (by omega)

/-- A data block of the layout is a block of the device behind the directory. -/
theorem LaidOut.dataBlock_lt (h : LaidOut sb n) {b : UInt16}
    (hb : b.toNat < sb.dataBlocks.toNat) :
    sb.directoryBlock.toNat < sb.dataBlock b ∧ sb.dataBlock b < n := by
  have hs := h.dataStart_eq
  have hd := h.directoryBlock_eq
  have ht := h.geometry.total_eq
  simp only [dataBlock]
  omega

/-- The table ends before the directory. -/
theorem LaidOut.tableBlock_lt (h : LaidOut sb n) {i : Nat} (hi : i < sb.tableBlocks.toNat) :
    0 < sb.tableStart + i ∧ sb.tableStart + i < sb.directoryBlock.toNat := by
  have hd := h.directoryBlock_eq
  simp only [tableStart]
  omega

theorem LaidOut.directoryBlock_lt (h : LaidOut sb n) : sb.directoryBlock.toNat < n := by
  have hd := h.directoryBlock_eq
  have ht := h.geometry.total_eq
  omega

end FlatVolume.Superblock
