import FlatVolume.Proofs.Acceptance
import FlatVolume.Proofs.Retrying

/-!
# Mounting and unmounting without a change

What is read from a device says less than what stands there: the table run has room behind its last
entry, a name field has room behind its first NUL, a record has padding, and a free record may hold
anything. Writing it back keeps what was read and gives the rest fixed values, byte by byte as
`Normalised` says.

* `AllocationTable.byteAt_runBlock_ofStorage`, `Directory.byteAt_encode_of_decode` -- the bytes of the
  table run and of the directory block, written back as they were read;
* `Settled` -- a storage that mounting and unmounting leaves as it is;
* `FileSystem.mount_normalises` -- mounting and unmounting normalises, and the second time nothing
  changes. What was flushed or formatted is settled from the beginning.
-/

namespace FlatVolume

open AllocationTable Bytes FlatVolume.Computation Mounted
open FileSystem (ofMounted ofWorld)
open LawfulBlockDevice (storage)

/-! ## 1. Numbers written back -/

/-- A number that was read from two bytes is written back as these. -/
theorem Bytes.byteAt_ofWord16_word16 (b : ByteArray) (i : Nat) {j : Nat} (hj : j < 2) :
    byteAt (ofWord16 (word16 b i)) j = byteAt b (i + j) := by
  have hlow := (byteAt b i).toNat_lt
  have hhigh := (byteAt b (i + 1)).toNat_lt
  have hword : (word16 b i).toNat = (byteAt b i).toNat + 256 * (byteAt b (i + 1)).toNat := by
    rw [word16, UInt16.toNat_ofNat']
    omega
  obtain rfl | rfl : j = 0 ∨ j = 1 := by omega
  · show UInt8.ofNat (word16 b i).toNat = byteAt b i
    rw [← UInt8.toNat_inj, UInt8.toNat_ofNat', hword]
    omega
  · show UInt8.ofNat ((word16 b i).toNat / 256) = byteAt b (i + 1)
    rw [← UInt8.toNat_inj, UInt8.toNat_ofNat', hword]
    omega

theorem Bytes.byteAt_ofWord32_word32 (b : ByteArray) (i : Nat) {j : Nat} (hj : j < 4) :
    byteAt (ofWord32 (word32 b i)) j = byteAt b (i + j) := by
  have h0 := (byteAt b i).toNat_lt
  have h1 := (byteAt b (i + 1)).toNat_lt
  have h2 := (byteAt b (i + 2)).toNat_lt
  have h3 := (byteAt b (i + 3)).toNat_lt
  have hword : (word32 b i).toNat = (byteAt b i).toNat + 256 * (byteAt b (i + 1)).toNat +
      65536 * (byteAt b (i + 2)).toNat + 16777216 * (byteAt b (i + 3)).toNat := by
    rw [word32, UInt32.toNat_ofNat']
    omega
  obtain rfl | rfl | rfl | rfl : j = 0 ∨ j = 1 ∨ j = 2 ∨ j = 3 := by omega
  · show UInt8.ofNat (word32 b i).toNat = byteAt b i
    rw [← UInt8.toNat_inj, UInt8.toNat_ofNat', hword]
    omega
  · show UInt8.ofNat ((word32 b i).toNat / 256) = byteAt b (i + 1)
    rw [← UInt8.toNat_inj, UInt8.toNat_ofNat', hword]
    omega
  · show UInt8.ofNat ((word32 b i).toNat / 65536) = byteAt b (i + 2)
    rw [← UInt8.toNat_inj, UInt8.toNat_ofNat', hword]
    omega
  · show UInt8.ofNat ((word32 b i).toNat / 16777216) = byteAt b (i + 3)
    rw [← UInt8.toNat_inj, UInt8.toNat_ofNat', hword]
    omega

/-! ## 2. The table -/

namespace AllocationTable

/-- Byte `p` of a run of entries is a byte of entry `p / 2`. -/
theorem byteAt_encodeLinks {links : Array Link} {p : Nat} (h : p / 2 < links.size) :
    byteAt (encodeLinks links) p = byteAt (ofWord16 links[p / 2]) (p % 2) := by
  have hp : ∀ q ∈ links.toList.map ofWord16, q.size = 2 := by simp
  have hi : p / 2 < (links.toList.map ofWord16).length := by simpa using h
  have hentry : (encodeLinks links).extract (2 * (p / 2)) (2 * (p / 2) + 2) =
      ofWord16 links[p / 2] := by
    rw [encodeLinks, extract_concat hp hi, List.getElem_map, Array.getElem_toList]
  rw [← hentry, byteAt_extract (by omega), Nat.div_add_mod]

theorem size_chunk (t : AllocationTable) (i : Nat) : (t.chunk i).size =
    min ((i + 1) * linksPerBlock) t.size - i * linksPerBlock := by
  rw [chunk, Array.size_extract]
  rfl

/-- **A table that was read is written back** with its entries as they were and zeros behind them. -/
theorem byteAt_runBlock_ofStorage {sb : Superblock} {n : Nat} (h : sb.LaidOut n) (st : Storage)
    {i p : Nat} (hi : i < sb.tableBlocks.toNat) (hp : p < blockSize) :
    byteAt ((ofStorage sb st).runBlock i).bytes p =
      if blockSize * i + p < 2 * sb.dataBlocks.toNat then
        byteAt (st.block (sb.tableStart + i)).bytes p
      else 0 := by
  have hsize : ((ofStorage sb st).chunk i).size =
      min ((i + 1) * linksPerBlock) sb.dataBlocks.toNat - i * linksPerBlock := by
    rw [size_chunk, size_ofStorage h]
  have hiff : blockSize * i + p < 2 * sb.dataBlocks.toNat ↔
      p / 2 < ((ofStorage sb st).chunk i).size := by
    rw [hsize]
    simp only [linksPerBlock, blockSize] at hp ⊢
    omega
  rw [runBlock, Block.byteAt_padded _ hp]
  split
  · rename_i hlt
    have hc := hiff.mp hlt
    have hdiv : (i * linksPerBlock + p / 2) / linksPerBlock = i := by
      simp only [linksPerBlock, blockSize] at hp ⊢
      omega
    have hmod : (i * linksPerBlock + p / 2) % linksPerBlock = p / 2 := by
      simp only [linksPerBlock, blockSize] at hp ⊢
      omega
    -- the entry is the one that stands at this place of the storage
    have hentry := getElem?_ofStorage sb st (i * linksPerBlock + p / 2)
    rw [if_pos ⟨by simp only [linksPerBlock, blockSize] at hlt ⊢; omega, by rwa [hdiv]⟩, hdiv, hmod]
      at hentry
    obtain ⟨hj, hentry⟩ := Array.getElem?_eq_some_iff.mp hentry
    have hchunk : ((ofStorage sb st).chunk i)[p / 2] =
        word16 (st.block (sb.tableStart + i)).bytes (2 * (p / 2)) := by
      rw [← hentry]
      simp only [chunk, Array.getElem_extract]
    rw [byteAt_encodeLinks hc, hchunk, byteAt_ofWord16_word16 _ _ (Nat.mod_lt p (by decide)),
      Nat.div_add_mod]
  · rename_i hge
    refine byteAt_of_le ?_
    rw [size_encodeLinks]
    have := mt hiff.mpr hge
    omega

end AllocationTable

/-! ## 3. The directory -/

/-- The bytes of an entry as it is written: its name up to fifteen bytes and zeros after it, size and
    first block, and zero padding. -/
theorem Entry.byteAt_encode (e : Entry) {p : Nat} (hp : p < Record.encodedSize) :
    byteAt e.toRecord.encode p =
      if p < 15 then byteAt e.name.toUTF8 p
      else if p < 16 then 0
      else if p < 20 then byteAt (ofWord32 (UInt32.ofNat e.size)) (p - 16)
      else if p < 22 then byteAt (ofWord16 e.firstBlock) (p - 20)
      else 0 := by
  simp only [Record.encodedSize] at hp
  unfold Record.encode
  by_cases h16 : p < 16
  · rw [ByteArray.append_assoc, ByteArray.append_assoc, byteAt_append_left (by simpa using h16),
      byteAt_toRecord_name e h16]
    simp only [h16, if_true]
    rfl
  · rw [if_neg (by omega), if_neg h16]
    by_cases h20 : p < 20
    · rw [if_pos h20, ByteArray.append_assoc, byteAt_append_left (by simp; omega),
        byteAt_append_of_le (by simp; omega), size_ofVector]
      rfl
    · rw [if_neg h20]
      by_cases h22 : p < 22
      · rw [if_pos h22, byteAt_append_left (by simp; omega), byteAt_append_of_le (by simp; omega)]
        simp [toRecord]
      · rw [if_neg h22, byteAt_append_of_le (by simp; omega)]
        simp only [ByteArray.size_append, size_ofVector, size_ofWord32, size_ofWord16]
        rw [byteAt_ofVector _ (by omega)]
        simp [toRecord]

/-- A free record is zero but for its first block. -/
theorem Entry.byteAt_encode_free : ∀ p < Record.encodedSize,
    byteAt Entry.free.toRecord.encode p = if p = 20 ∨ p = 21 then 0xFF else 0 := by
  decide

/-- Byte `p` of a record as it is written back, where `old` stood there and the name ends after `k`
    bytes. A free record has one form, whatever stood in it; of a file the name, the size and the first
    block are kept, and the rest is zero. -/
def normalByte (k p : Nat) (old : UInt8) : UInt8 :=
  if k = 0 then if p = 20 ∨ p = 21 then 0xFF else 0
  else if p < k ∨ (16 ≤ p ∧ p < 22) then old
  else 0

namespace Directory

/-- A record stands at its place in the block. -/
theorem byteAt_encode (d : Directory) (s : Slot) {p : Nat} (hp : p < Record.encodedSize) :
    byteAt d.encode.bytes (32 * s.val + p) = byteAt (d.get s).toRecord.encode p := by
  rw [← byteAt_slice d.encode s hp, slice_encode]

/-- **A directory that was read is written back** record by record, each in its normal form. -/
theorem byteAt_encode_of_decode {b : Block} {root : Directory} (h : decode b = .ok root) (s : Slot) :
    ∃ k, NameEnds b s.val k ∧ ∀ p < Record.encodedSize, byteAt root.encode.bytes (32 * s.val + p) =
      normalByte k p (byteAt b.bytes (32 * s.val + p)) := by
  obtain ⟨k, hk, hname, hfree, hfile⟩ := recordAt?_eq_some_iff.mp (decode_eq_ok_iff.mp h s)
  refine ⟨k, hk, fun p hp => ?_⟩
  have hlt := hk.lt
  rw [byteAt_encode root s hp, normalByte]
  by_cases hz : k = 0
  · rw [hfree hz, if_pos hz, Entry.byteAt_encode_free p hp]
  · obtain ⟨hsize, hfirst⟩ := hfile (Nat.pos_of_ne_zero hz)
    -- the name ends after `k` bytes, and nothing stands behind its end
    have hbyte : byteAt (root.get s).name.toUTF8 p =
        if p < k then byteAt b.bytes (32 * s.val + p) else 0 := by
      rw [hname]
      split
      · rename_i hpk
        exact b.byteAt_nameField hpk
      · rename_i hpk
        refine byteAt_of_le ?_
        rw [b.size_nameField s.isLt (by omega)]
        omega
    have hword : UInt32.ofNat (root.get s).size = word32 b.bytes (32 * s.val + 16) := by
      rw [hsize]
      exact UInt32.ofNat_toNat
    rw [if_neg hz, Entry.byteAt_encode _ hp, hbyte, hword, hfirst]
    simp only [Record.encodedSize] at hp
    by_cases h15 : p < 15
    · rw [if_pos h15]
      by_cases hpk : p < k
      · rw [if_pos hpk, if_pos (.inl hpk)]
      · rw [if_neg hpk, if_neg (by omega)]
    · rw [if_neg h15]
      by_cases h16 : p < 16
      · rw [if_pos h16, if_neg (by omega)]
      · rw [if_neg h16]
        by_cases h20 : p < 20
        · rw [if_pos h20, byteAt_ofWord32_word32 _ _ (by omega), if_pos (by omega)]
          congr 1
          omega
        · rw [if_neg h20]
          by_cases h22 : p < 22
          · rw [if_pos h22, byteAt_ofWord16_word16 _ _ (by omega), if_pos (by omega)]
            congr 1
            omega
          · rw [if_neg h22, if_neg (by omega)]

/-- What was read can be written and read back. -/
theorem storable_of_decode {b : Block} {root : Directory} (h : decode b = .ok root) (s : Slot) :
    (root.get s).Storable := by
  rcases valid_of_decode h s with he | hv
  · exact .inl he
  · obtain ⟨k, -, -, hfree, hfile⟩ := recordAt?_eq_some_iff.mp (decode_eq_ok_iff.mp h s)
    rcases Nat.eq_zero_or_pos k with hz | hpos
    · exact .inl (hfree hz)
    · refine .inr ⟨hv, ?_⟩
      rw [(hfile hpos).1]
      exact UInt32.toNat_lt _

end Directory

/-! ## 4. What is written back -/

/-- **The storage in normal form:** block 0 and the data blocks as they were, the entries of the table
    as they were with zeros behind them, and every record in its normal form. -/
structure Normalised (sb : Superblock) (st st' : Storage) : Prop where
  laidOut : sb.LaidOut st.blockCount
  shape : SameShape st st'
  kept : ∀ i, i = 0 ∨ sb.dataStart.toNat ≤ i → st'.block i = st.block i
  table_eq : ∀ i < sb.tableBlocks.toNat, ∀ p < blockSize,
    byteAt (st'.block (sb.tableStart + i)).bytes p =
      if blockSize * i + p < 2 * sb.dataBlocks.toNat then
        byteAt (st.block (sb.tableStart + i)).bytes p
      else 0
  root_eq : ∀ s : Slot, ∃ k, NameEnds (st.block sb.directoryBlock.toNat) s.val k ∧
    ∀ p < Record.encodedSize,
      byteAt (st'.block sb.directoryBlock.toNat).bytes (32 * s.val + p) =
        normalByte k p (byteAt (st.block sb.directoryBlock.toNat).bytes (32 * s.val + p))

/-- Writing back what was read normalises. -/
theorem Volume.WrittenBack.normalised {H : Type} {v : Volume H} {st st' : Storage}
    (h : v.WrittenBack st st') (hc : Carries st v.superblock)
    (ht : v.table = ofStorage v.superblock st)
    (hr : Directory.decode (st.block v.superblock.directoryBlock.toNat) = .ok v.root) :
    Normalised v.superblock st st' where
  laidOut := hc.laidOut
  shape := h.touched.shape
  kept i hi := h.touched.block_eq i fun hm => by
    have := hc.laidOut.directoryBlock_eq
    have := hc.laidOut.dataStart_eq
    have := hm.1
    have := hm.2
    omega
  table_eq i hi p hp := by
    rw [h.flushed.table_eq i hi, ht]
    exact byteAt_runBlock_ofStorage hc.laidOut st hi hp
  root_eq s := by
    rw [h.flushed.root_eq]
    exact Directory.byteAt_encode_of_decode hr s

/-- **A storage that mounting and unmounting leaves as it is,** on whatever device it is found that does
    not fail. -/
structure Settled (st : Storage) : Prop where
  unchanged : ∀ {W H : Type} [BlockDevice W H] [LawfulBlockDevice W H] (d : H) (w : W),
    storage d w = st → NeverFails d w → ∃ (fs : FileSystem W H) (w' : W),
      FileSystem.mount d (ofWorld w) = .ok () fs ∧ FileSystem.unmount fs = .ok () (ofWorld w') ∧
      storage d w' = st

section OnDevice

variable {W H : Type} [BlockDevice W H] [LawfulBlockDevice W H] {d : H} {w : W} {sb : Superblock}

/-- On a device that never fails unmounting writes everything back. -/
theorem FileSystem.exists_writtenBack {fs : FileSystem W H} {v : Volume H}
    (hv : fs.mounted = some v) (ht : v.Tidy) (h : Moored d v fs.world) (hn : NeverFails d fs.world) :
    ∃ w, unmount fs = .ok () (ofWorld w) ∧
      v.WrittenBack (storage d fs.world) (storage d w) ∧ NeverFails d w := by
  obtain ⟨w, hu, -, -, hn'⟩ := exists_unmount hv h hn
  obtain ⟨rfl, -, hw⟩ := h
  have hends := unmount_unmounting hv ht hw
  rw [hu] at hends
  cases hends with
  | done _ _ hwritten => exact ⟨w, hu, hwritten, hn'⟩

/-- **What was flushed is settled,** as long as its entries can be read back. -/
theorem settled_of_flushed {st : Storage} {t : AllocationTable} {root : Directory}
    (hw : st.whole) (hc : Carries st sb) (hf : Flushed st sb t root)
    (ht : t.size = sb.dataBlocks.toNat) (hr : ∀ s, (root.get s).Storable) : Settled st := by
  refine ⟨fun {W H} _ _ d w hst hn => ?_⟩
  subst hst
  obtain ⟨w₁, hm, ha⟩ := FileSystem.exists_mount_of_flushed hc hf ht hr hn
  have htidy := FileSystem.tidy_of_mount hm _ rfl
  obtain ⟨w₂, hu, hwritten, -⟩ := FileSystem.exists_writtenBack rfl htidy
    (FileSystem.moored_of_mount hm hw _ rfl) (ha.neverFails hn)
  rw [show storage d (ofMounted ⟨⟨d, sb, t, root, OpenFiles.empty⟩, w₁⟩ : FileSystem W H).world =
    storage d w from ha.storage_eq] at hwritten
  refine ⟨_, w₂, hm, hu, ?_⟩
  exact hwritten.unique htidy ⟨.refl _ _, hf⟩

namespace FileSystem

/-- **Mounting and unmounting without a change normalises.** On a device that never fails, unmounting
    what was just mounted leaves the storage in normal form; it is then mounted again as it was, and
    mounting and unmounting it once more changes nothing. What was flushed after any run of operations,
    whatever failed in it, and what was formatted is settled from the beginning. -/
theorem mount_normalises :
    (∀ {d : H} {w : W} {fs₁ : FileSystem W H}, (storage d w).whole → NeverFails d w →
      mount d (ofWorld w) = .ok () fs₁ →
      ∃ v w₂ fs₂, fs₁.mounted = some v ∧ unmount fs₁ = .ok () (ofWorld w₂) ∧
        Normalised v.superblock (storage d w) (storage d w₂) ∧
        mount d (ofWorld w₂) = .ok () fs₂ ∧ fs₂.mounted = some v ∧
        (∃ files, list fs₁ = .ok files fs₁ ∧ list fs₂ = .ok files fs₂) ∧
        (∃ i, info fs₁ = .ok i fs₁ ∧ info fs₂ = .ok i fs₂) ∧ Settled (storage d w₂)) ∧
    (∀ {d : H} {fs fs₀ fs₁ : FileSystem W H} {v : Volume H} {w : W}, (storage d fs.world).whole →
      mount d fs = .ok () fs₀ → Reachable fs₀ fs₁ → fs₁.mounted = some v →
      v.flush fs₁.world = .ok () w → Settled (storage d w)) ∧
    (∀ {d : H} {w w' : W} {sb : Superblock}, (storage d w).whole →
      Volume.format d w = .ok sb w' → Settled (storage d w')) := by
  refine ⟨fun {d w fs₁} hw hn hm => ?_, fun {d fs fs₀ fs₁ v w} hw hm hr hv hf => ?_,
    fun {d w w' sb} hw hf => ?_⟩
  · obtain ⟨v, hl, hv⟩ := load_of_mount hm
    obtain ⟨hd, hc, ht, hroot, hfiles, ha⟩ := (ends_iff.mp (Volume.load_ends d w)).1 _ _ hl
    have htidy := Volume.tidy_of_load hl
    obtain ⟨w₂, hu, hwritten, hn₂⟩ :=
      exists_writtenBack hv htidy (moored_of_mount hm hw v hv) (ha.neverFails hn)
    rw [ha.storage_eq] at hwritten
    have hc₂ := hc.touched hwritten.touched (not_isMetadata_zero _)
    have hstorable := Directory.storable_of_decode hroot
    obtain ⟨w₃, hm₂, -⟩ :=
      exists_mount_of_flushed hc₂ hwritten.flushed htidy.size_eq hstorable hn₂
    have hvolume : (⟨d, v.superblock, v.table, v.root, OpenFiles.empty⟩ : Volume H) = v := by
      rw [← hd, ← hfiles]
    rw [hvolume] at hm₂
    obtain ⟨_, w₁⟩ := fs₁
    cases hv
    have hw₂ : (storage d w₂).whole := by rw [hwritten.touched.shape.whole_eq, hw]
    exact ⟨v, w₂, _, rfl, hu, hwritten.normalised hc ht hroot, hm₂, rfl, ⟨_, rfl, rfl⟩,
      ⟨_, rfl, rfl⟩, settled_of_flushed hw₂ hc₂ hwritten.flushed htidy.size_eq hstorable⟩
  · have htidy := hr.tidy (tidy_of_mount hm) v hv
    obtain ⟨rfl, hc, hwhole⟩ := hr.moored (tidy_of_mount hm) (moored_of_mount hm hw) v hv
    have hwritten := (ends_iff.mp (Volume.flush_writesBack htidy hwhole)).1 () w hf
    have hw' : (storage v.device w).whole := by rw [hwritten.touched.shape.whole_eq, hwhole]
    have hc' := hc.touched hwritten.touched (not_isMetadata_zero _)
    -- a size that takes more than four bytes is cut when it is written, and then stays as it is
    have hflushed : Flushed (storage v.device w) v.superblock v.table v.root.wrapped :=
      ⟨hwritten.flushed.table_eq, hwritten.flushed.root_eq.trans v.root.encode_wrapped.symm⟩
    exact settled_of_flushed hw' hc' hflushed htidy.size_eq htidy.storable_wrapped
  · obtain ⟨hc, hflushed, htouched, -⟩ := (ends_iff.mp (Volume.format_ends d hw)).1 _ _ hf
    have hw' : (storage d w').whole := by rw [htouched.shape.whole_eq, hw]
    exact settled_of_flushed hw' hc hflushed (AllocationTable.size_empty _)
      fun s => .inl (Volume.get_empty s)

end FileSystem

end OnDevice

/-! ## 5. In memory -/

theorem nameEnds_zero (slot : Nat) : NameEnds Block.zero slot 0 :=
  ⟨by decide, Block.byteAt_zero _, fun j hj => absurd hj (Nat.not_lt_zero j)⟩

/-- A block of zeros is a directory without files. -/
theorem Directory.decode_zero : decode Block.zero = .ok empty := by
  refine decode_eq_ok_iff.mpr fun s => ?_
  rw [Volume.get_empty]
  refine recordAt?_eq_some_iff.mpr
    ⟨0, nameEnds_zero _, ?_, fun _ => rfl, fun h => absurd h (by decide)⟩
  rw [Block.nameField_zero]
  rfl

/-- In memory, with letters all over the table run: the five entries are kept and what is behind them
    is zeroed, and free records get their first block. The second time nothing changes. -/
theorem FileSystem.mount_normalises_memory : ∃ fs w₂,
    mount () (ofWorld (Memory.eightWith 1 Block.letters)) = .ok () fs ∧
    unmount fs = .ok () (ofWorld w₂) ∧
    byteAt ((storage () w₂).block 1).bytes 9 = 65 ∧
    byteAt ((storage () w₂).block 1).bytes 10 = 0 ∧
    byteAt ((storage () w₂).block 2).bytes 20 = 0xFF ∧ Settled (storage () w₂) := by
  have hn : NeverFails () (Memory.eightWith 1 Block.letters) := Memory.neverFails rfl
  have hc : Carries (storage () (Memory.eightWith 1 Block.letters)) Superblock.eight :=
    Memory.carries_eightWith (by decide) _
  have hdir : (storage () (Memory.eightWith 1 Block.letters)).block
      Superblock.eight.directoryBlock.toNat = Block.zero := by
    show (Memory.eightWith 1 Block.letters).storage.block 2 = _
    rw [Memory.block_eightWith, if_neg (by decide), if_neg (by decide)]
  have hroot := hdir.symm ▸ Directory.decode_zero
  obtain ⟨fs, hm⟩ := exists_mount hc hroot hn
  obtain ⟨v, w₂, fs₂, hv, hu, hnormal, -, -, -, -, hsettled⟩ :=
    mount_normalises.1 (Memory.whole_storage _) hn hm
  have hsb : v.superblock = Superblock.eight := by
    obtain ⟨-, hcv, hst⟩ := carries_of_mount hm hv
    rw [hst] at hcv
    exact hcv.header_eq.symm.trans hc.header_eq
  rw [hsb] at hnormal
  have hrun : ∀ p < blockSize, byteAt ((storage () w₂).block 1).bytes p = if p < 10 then 65 else 0 := by
    intro p hp
    have hbyte := hnormal.table_eq 0 (by decide) p hp
    rw [Nat.mul_zero, Nat.zero_add] at hbyte
    refine hbyte.trans ?_
    show (if p < 10 then byteAt ((Memory.eightWith 1 Block.letters).storage.block 1).bytes p else 0) = _
    rw [Memory.block_eightWith, if_pos rfl, Block.byteAt_letters hp]
  refine ⟨fs, w₂, hm, hu, hrun 9 (by decide), hrun 10 (by decide), ?_, hsettled⟩
  obtain ⟨k, hk, hbyte⟩ := hnormal.root_eq ⟨0, by decide⟩
  rw [hdir] at hk
  rw [hk.unique (nameEnds_zero 0)] at hbyte
  exact hbyte 20 (by decide)

end FlatVolume
