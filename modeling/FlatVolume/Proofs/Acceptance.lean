import FlatVolume.Proofs.Formatted

/-!
# Which devices can be mounted

The format of a volume said in bytes, without the functions that read it: block 0 begins with the
signature (`Signed`) and five little-endian numbers that satisfy the equations of a layout
(`Header.Consistent`), and each name of the directory ends within its field and is UTF-8
(`Legible`). `Documented` collects them, and `Rejected` says which error stands for which violation:
the signature counts before the numbers, and of the records the lowest.

On a device that never fails mounting succeeds on the documented volumes and on no other, and
otherwise gives the one error that `Rejected` names (`FileSystem.mount_accepts_documented`).
-/

namespace FlatVolume

open Bytes FlatVolume.Computation
open LawfulBlockDevice (storage)

/-! ## 1. The header -/

/-- The number in the `n` bytes from position `i` on, low byte first. -/
def Bytes.littleEndian (b : ByteArray) (i : Nat) : (n : Nat) → Nat
  | 0 => 0
  | n + 1 => (byteAt b i).toNat + 256 * littleEndian b (i + 1) n

theorem Bytes.toNat_word16 (b : ByteArray) (i : Nat) : (word16 b i).toNat = littleEndian b i 2 := by
  have hlow := (byteAt b i).toNat_lt
  have hhigh := (byteAt b (i + 1)).toNat_lt
  simp only [word16, littleEndian, UInt16.toNat_ofNat']
  omega

theorem Bytes.toNat_byteAt (b : ByteArray) (i : Nat) :
    (byteAt b i).toNat = littleEndian b i 1 := by
  simp only [littleEndian]
  omega

/-- The block begins with the eight characters of the signature. -/
def Signed (b : Block) : Prop := b.bytes.extract 0 8 = "ECS150FS".toUTF8

/-- The numbers behind the signature. -/
structure Header where
  totalBlocks : Nat
  directoryBlock : Nat
  dataStart : Nat
  dataBlocks : Nat
  tableBlocks : Nat
deriving DecidableEq

/-- The numbers as they stand in a block. -/
def Header.ofBlock (b : Block) : Header where
  totalBlocks := littleEndian b.bytes 8 2
  directoryBlock := littleEndian b.bytes 10 2
  dataStart := littleEndian b.bytes 12 2
  dataBlocks := littleEndian b.bytes 14 2
  tableBlocks := littleEndian b.bytes 16 1

/-- The numbers go together and describe a device of `n` blocks. -/
structure Header.Consistent (h : Header) (n : Nat) : Prop where
  totalBlocks_eq : h.totalBlocks = n
  data_pos : 1 ≤ h.dataBlocks
  sum_eq : h.totalBlocks = h.dataBlocks + h.tableBlocks + 2
  tableBlocks_eq : h.tableBlocks = ceilDiv h.dataBlocks 2048
  directoryBlock_eq : h.directoryBlock = 1 + h.tableBlocks
  dataStart_eq : h.dataStart = h.directoryBlock + 1

theorem signed_iff {b : Block} :
    Signed b ↔ (Superblock.ofBytes b.bytes).signature = Superblock.magic := by
  have hfield : ofVector (Superblock.ofBytes b.bytes).signature = b.bytes.extract 0 8 := by
    refine ext_byteAt ?_ fun i hi => ?_
    · rw [size_ofVector, ByteArray.size_extract, b.size_bytes]
      decide
    · rw [size_ofVector] at hi
      rw [byteAt_ofVector _ hi, byteAt_extract (by omega)]
      simp [Superblock.ofBytes, vectorAt]
  rw [Signed, ← hfield, ← Superblock.ofVector_magic]
  refine ⟨fun h => ?_, fun h => by rw [h]⟩
  rw [← vectorAt_ofVector (Superblock.ofBytes b.bytes).signature, h, vectorAt_ofVector]

/-- **A block with the signature and consistent numbers** is one that says a layout. -/
theorem laidOut_ofBytes_iff {b : Block} {n : Nat} :
    Superblock.LaidOut (Superblock.ofBytes b.bytes) n ↔
      Signed b ∧ (Header.ofBlock b).Consistent n := by
  have htotal : (Superblock.ofBytes b.bytes).totalBlocks.toNat = littleEndian b.bytes 8 2 :=
    toNat_word16 ..
  have hdir : (Superblock.ofBytes b.bytes).directoryBlock.toNat = littleEndian b.bytes 10 2 :=
    toNat_word16 ..
  have hstart : (Superblock.ofBytes b.bytes).dataStart.toNat = littleEndian b.bytes 12 2 :=
    toNat_word16 ..
  have hdata : (Superblock.ofBytes b.bytes).dataBlocks.toNat = littleEndian b.bytes 14 2 :=
    toNat_word16 ..
  have htable : (Superblock.ofBytes b.bytes).tableBlocks.toNat = littleEndian b.bytes 16 1 :=
    toNat_byteAt ..
  constructor
  · intro h
    refine ⟨signed_iff.mpr h.signature_eq, ?_⟩
    have hg := h.geometry
    rw [htable, hdata] at hg
    have htotal' := htotal ▸ h.totalBlocks_eq
    refine ⟨htotal', hg.data_pos, htotal'.trans hg.total_eq, hg.table_eq, ?_, ?_⟩
    · have := h.directoryBlock_eq
      simp only [Header.ofBlock]
      omega
    · have := h.directoryBlock_eq
      have := h.dataStart_eq
      simp only [Header.ofBlock]
      omega
  · intro hq
    rcases hq with ⟨hs, hc⟩
    have hn := hc.totalBlocks_eq
    have hsum := hc.sum_eq
    have hdir' := hc.directoryBlock_eq
    have hstart' := hc.dataStart_eq
    simp only [Header.ofBlock] at hn hsum hdir' hstart'
    refine ⟨⟨hdata ▸ hc.data_pos, ?_, ?_, ?_⟩, signed_iff.mp hs, htotal.trans hn, ?_, ?_⟩
    · omega
    · rw [hdata, htable]
      exact hc.tableBlocks_eq
    · have := (Superblock.ofBytes b.bytes).totalBlocks.toNat_lt
      omega
    · omega
    · omega

/-! ## 2. The directory -/

/-- The name of record `slot` ends after `k` bytes, at the first zero of its field. -/
structure NameEnds (b : Block) (slot k : Nat) : Prop where
  lt : k < 16
  zero : byteAt b.bytes (32 * slot + k) = 0
  nonzero : ∀ j < k, byteAt b.bytes (32 * slot + j) ≠ 0

/-- The first `k` bytes of record `slot`. -/
def Block.nameField (b : Block) (slot k : Nat) : ByteArray :=
  b.bytes.extract (32 * slot) (32 * slot + k)

/-- The name of record `slot` ends, and it is UTF-8. -/
def Legible (b : Block) (slot : Nat) : Prop :=
  ∃ k, NameEnds b slot k ∧ (b.nameField slot k).IsValidUTF8

theorem NameEnds.unique {b : Block} {slot k k' : Nat} (h : NameEnds b slot k)
    (h' : NameEnds b slot k') : k = k' := by
  refine Nat.le_antisymm (Nat.le_of_not_lt fun hlt => ?_) (Nat.le_of_not_lt fun hlt => ?_)
  · exact h.nonzero k' hlt h'.zero
  · exact h'.nonzero k hlt h.zero

theorem Block.size_nameField (b : Block) {slot k : Nat} (hs : slot < maxFiles) (hk : k ≤ 16) :
    (b.nameField slot k).size = k := by
  have := b.size_bytes
  rw [nameField, ByteArray.size_extract]
  simp only [maxFiles, blockSize] at hs this
  omega

theorem Block.nameField_zero (b : Block) (slot : Nat) : b.nameField slot 0 = ByteArray.empty :=
  ByteArray.extract_eq_empty_iff.mpr (by omega)

theorem Block.byteAt_nameField (b : Block) {slot k i : Nat} (hi : i < k) :
    byteAt (b.nameField slot k) i = byteAt b.bytes (32 * slot + i) := by
  rw [nameField, byteAt_extract (by omega)]

namespace Directory

/-- The record of a slot, as it stands in the block. -/
def rawRecord (b : Block) (s : Slot) : Record :=
  Record.ofBytes (b.slice (Record.encodedSize * s.val) Record.encodedSize)

theorem byteAt_slice (b : Block) (s : Slot) {i : Nat} (hi : i < Record.encodedSize) :
    byteAt (b.slice (Record.encodedSize * s.val) Record.encodedSize) i =
      byteAt b.bytes (32 * s.val + i) := by
  rw [Block.slice, byteAt_extract (by omega)]
  rfl

/-- **The name bytes of a record** are those of its field up to the first zero. -/
theorem nameBytes?_rawRecord {b : Block} {s : Slot} {bytes : ByteArray} :
    Entry.nameBytes? (rawRecord b s).name = some bytes ↔
      ∃ k, NameEnds b s.val k ∧ bytes = b.nameField s.val k := by
  have hfield : ∀ {i : Nat}, i < 16 →
      byteAt (ofVector (rawRecord b s).name) i = byteAt b.bytes (32 * s.val + i) := by
    intro i hi
    rw [byteAt_ofVector _ hi, rawRecord, Record.ofBytes, vectorAt, Vector.getElem_ofFn,
      Nat.zero_add]
    exact byteAt_slice b s (Nat.lt_of_lt_of_le hi (by decide))
  rw [Entry.nameBytes?_eq_some_iff]
  constructor
  · intro hq
    rcases hq with ⟨hlt, hbytes, hz⟩
    refine ⟨bytes.size, ⟨hlt, (hfield hlt).symm.trans hz, fun j hj => ?_⟩, ?_⟩
    · rw [← hfield (by omega), ← (hbytes j hj).1]
      exact (hbytes j hj).2
    · refine ext_byteAt (b.size_nameField s.isLt (by omega)).symm fun i hi => ?_
      rw [(hbytes i hi).1, hfield (by omega), b.byteAt_nameField hi]
  · intro hq
    rcases hq with ⟨k, hk, rfl⟩
    have hlt := hk.lt
    rw [b.size_nameField s.isLt (by omega)]
    refine ⟨hlt, fun i hi => ?_, (hfield hlt).trans hk.zero⟩
    rw [b.byteAt_nameField hi, hfield (by omega)]
    exact ⟨rfl, hk.nonzero i hi⟩

/-- **What a record says:** its name, and if that is not empty its size and first block. -/
theorem recordAt?_eq_some_iff {b : Block} {s : Slot} {e : Entry} : recordAt? b s = some e ↔
    ∃ k, NameEnds b s.val k ∧ e.name.toUTF8 = b.nameField s.val k ∧
      (k = 0 → e = Entry.free) ∧
      (0 < k → e.size = (word32 b.bytes (32 * s.val + 16)).toNat ∧
        e.firstBlock = word16 b.bytes (32 * s.val + 20)) := by
  have hsize : (rawRecord b s).size = word32 b.bytes (32 * s.val + 16) := by
    simp only [rawRecord, Record.ofBytes, word32]
    rw [byteAt_slice b s (by decide), byteAt_slice b s (by decide), byteAt_slice b s (by decide),
      byteAt_slice b s (by decide)]
  have hfirst : (rawRecord b s).firstBlock = word16 b.bytes (32 * s.val + 20) := by
    simp only [rawRecord, Record.ofBytes, word16]
    rw [byteAt_slice b s (by decide), byteAt_slice b s (by decide)]
  have hempty : ∀ {name : String} {k : Nat}, k ≤ 16 →
      name.toUTF8 = b.nameField s.val k → (name.isEmpty = true ↔ k = 0) := by
    intro name k hk hn
    have := congrArg ByteArray.size hn
    rw [b.size_nameField s.isLt hk] at this
    rw [String.isEmpty_iff, ← String.utf8ByteSize_eq_zero_iff, ← this]
    rfl
  show Entry.ofRecord? (rawRecord b s) = some e ↔ _
  unfold Entry.ofRecord?
  constructor
  · intro h
    split at h
    · cases h
    · rename_i bytes hb
      obtain ⟨k, hk, rfl⟩ := nameBytes?_rawRecord.mp hb
      split at h
      · cases h
      · rename_i name hname
        have hname' := Entry.fromUTF8?_eq_some_iff.mp hname
        have hiff := hempty (Nat.le_of_lt hk.lt) hname'
        split at h
        · rename_i he
          have h0 := hiff.mp he
          cases h
          subst h0
          refine ⟨0, hk, ?_, fun _ => rfl, fun h => absurd h (by decide)⟩
          rw [← hname', String.isEmpty_iff.mp he]
          rfl
        · rename_i he
          cases h
          refine ⟨k, hk, hname', fun h0 => absurd (hiff.mpr h0) he, fun _ => ⟨?_, hfirst⟩⟩
          rw [← hsize]
  · intro hq
    rcases hq with ⟨k, hk, hname, h0, hpos⟩
    have hb := nameBytes?_rawRecord.mpr ⟨k, hk, rfl⟩
    have hutf := Entry.fromUTF8?_eq_some_iff.mpr hname
    have hiff := hempty (Nat.le_of_lt hk.lt) hname
    simp only [hb, hutf]
    by_cases hz : k = 0
    · rw [if_pos (hiff.mpr hz), h0 hz]
    · obtain ⟨hs, hf⟩ := hpos (Nat.pos_of_ne_zero hz)
      rw [if_neg fun he => hz (hiff.mp he), hsize, hfirst, ← hs, ← hf]

theorem isSome_recordAt? {b : Block} {s : Slot} : (recordAt? b s).isSome ↔ Legible b s.val := by
  rw [Option.isSome_iff_exists]
  constructor
  · intro hq
    rcases hq with ⟨e, he⟩
    obtain ⟨k, hk, hname, -, -⟩ := recordAt?_eq_some_iff.mp he
    exact ⟨k, hk, hname ▸ e.name.isValidUTF8⟩
  · intro hq
    rcases hq with ⟨k, hk, hv⟩
    by_cases hz : k = 0
    · refine ⟨Entry.free, recordAt?_eq_some_iff.mpr ⟨k, hk, ?_, fun _ => rfl, fun h => by omega⟩⟩
      rw [hz, b.nameField_zero]
      rfl
    · refine ⟨⟨String.ofByteArray _ hv, _, _⟩, recordAt?_eq_some_iff.mpr
        ⟨k, hk, rfl, fun h => absurd h hz, fun _ => ⟨rfl, rfl⟩⟩⟩

/-- **A directory cannot be read** exactly if some record is not legible, and the lowest is named. -/
theorem decode_eq_error_iff {b : Block} {e : VolumeError} : decode b = .error e ↔
    ∃ s : Slot, e = .corruptEntry s.val ∧ ¬ Legible b s.val ∧ ∀ j < s, Legible b j.val := by
  have hlow : ∀ s : Slot, lowest? Option.isNone (Vector.ofFn (recordAt? b)) = some s ↔
      ¬ Legible b s.val ∧ ∀ j < s, Legible b j.val := by
    intro s
    rw [lowest?_eq_some_iff]
    simp [← isSome_recordAt?, Option.isSome_iff_ne_none]
  unfold decode
  dsimp only
  cases hl : lowest? Option.isNone (Vector.ofFn (recordAt? b)) with
  | none =>
    refine iff_of_false (by simp) fun hq => ?_
    rcases hq with ⟨s, -, hs⟩
    rw [(hlow s).mpr hs] at hl
    cases hl
  | some slot =>
    constructor
    · intro h
      cases h
      exact ⟨slot, rfl, (hlow slot).mp hl⟩
    · intro hq
      rcases hq with ⟨s, rfl, hs⟩
      rw [(hlow s).mpr hs] at hl
      cases hl
      rfl

end Directory

/-! ## 3. Mounting -/

/-- A storage that holds a volume of the documented format. -/
structure Documented (st : Storage) : Prop where
  blockBytes_eq : st.blockBytes = 4096
  signed : Signed (st.block 0)
  consistent : (Header.ofBlock (st.block 0)).Consistent st.blockCount
  legible : ∀ slot < 128, Legible (st.block (Header.ofBlock (st.block 0)).directoryBlock) slot

/-- Which error stands for a storage that holds no volume of the documented format. -/
inductive Rejected (st : Storage) : VolumeError → Prop where
  | unsigned (hb : st.blockBytes = 4096) (hs : ¬ Signed (st.block 0)) : Rejected st .badSignature
  | blockSize (hb : st.blockBytes ≠ 4096) : Rejected st .invalidGeometry
  | inconsistent (hb : st.blockBytes = 4096) (hs : Signed (st.block 0))
      (hc : ¬ (Header.ofBlock (st.block 0)).Consistent st.blockCount) : Rejected st .invalidGeometry
  | illegible (hb : st.blockBytes = 4096) (hs : Signed (st.block 0))
      (hc : (Header.ofBlock (st.block 0)).Consistent st.blockCount) (slot : Nat) (hlt : slot < 128)
      (hl : ¬ Legible (st.block (Header.ofBlock (st.block 0)).directoryBlock) slot)
      (hmin : ∀ s < slot, Legible (st.block (Header.ofBlock (st.block 0)).directoryBlock) s) :
      Rejected st (.corruptEntry slot)

/-- No storage is both documented and refused. -/
theorem Rejected.not_documented {st : Storage} {e : VolumeError} (h : Rejected st e) :
    ¬ Documented st := by
  intro hd
  cases h with
  | unsigned hb hs => exact hs hd.signed
  | blockSize hb => exact hb hd.blockBytes_eq
  | inconsistent hb hs hc => exact hc hd.consistent
  | illegible hb hs hc slot hlt hl hmin => exact hl (hd.legible slot hlt)

/-- A storage is refused with one error. -/
theorem Rejected.unique {st : Storage} {e e' : VolumeError} (h : Rejected st e)
    (h' : Rejected st e') : e = e' := by
  cases h with
  | unsigned hb hs =>
    cases h' with
    | unsigned => rfl
    | blockSize hb' => exact absurd hb hb'
    | inconsistent hb' hs' => exact absurd hs' hs
    | illegible hb' hs' => exact absurd hs' hs
  | blockSize hb =>
    cases h' with
    | unsigned hb' => exact absurd hb' hb
    | blockSize => rfl
    | inconsistent => rfl
    | illegible hb' => exact absurd hb' hb
  | inconsistent hb hs hc =>
    cases h' with
    | unsigned hb' hs' => exact absurd hs hs'
    | blockSize => rfl
    | inconsistent => rfl
    | illegible hb' hs' hc' => exact absurd hc' hc
  | illegible hb hs hc slot hlt hl hmin =>
    cases h' with
    | unsigned hb' hs' => exact absurd hs hs'
    | blockSize hb' => exact absurd hb hb'
    | inconsistent hb' hs' hc' => exact absurd hc hc'
    | illegible hb' hs' hc' slot' hlt' hl' hmin' =>
      have hle : slot ≤ slot' := Nat.le_of_not_lt fun h => hl' (hmin _ h)
      have hge : slot' ≤ slot := Nat.le_of_not_lt fun h => hl (hmin' _ h)
      rw [Nat.le_antisymm hle hge]

/-- A storage carries a layout exactly if block 0 says it. -/
theorem carries_ofBytes_iff {st : Storage} :
    Carries st (Superblock.ofBytes (st.block 0).bytes) ↔ st.blockBytes = 4096 ∧
      Signed (st.block 0) ∧ (Header.ofBlock (st.block 0)).Consistent st.blockCount := by
  rw [← laidOut_ofBytes_iff]
  constructor
  · intro h
    exact ⟨h.blockBytes_eq, h.laidOut⟩
  · intro hq
    rcases hq with ⟨hb, hl⟩
    exact ⟨rfl, Superblock.forBlockCount?_eq_some_iff.mpr hl, hb⟩

section OnDevice

variable {W H : Type} [BlockDevice W H] [LawfulBlockDevice W H] {d : H} {w : W}

/-- Where the superblock is not accepted, the error says why. -/
theorem Superblock.load_refused (h : 1 ≤ (storage d w).blockCount) (hn : NeverFails d w) :
    Ends (Superblock.load d) w (fun _ _ => True) (fun e _ => Rejected (storage d w) e) := by
  unfold Superblock.load
  refine Ends.bind_ok (get_run w) ?_
  rw [← LawfulBlockDevice.blockBytes_eq]
  split
  · rename_i hb
    exact .blockSize hb
  · rename_i hb
    have hb' : (storage d w).blockBytes = 4096 := Decidable.not_not.mp hb
    refine Ends.bind ((loadBlock_ends d 0 w).mono ?_ ?_)
    · intro block w' hok
      rcases hok with ⟨rfl, ha⟩
      dsimp only
      split
      · rename_i hsig
        exact .unsigned hb' fun hs => hsig (signed_iff.mp hs)
      · rename_i hsig
        have hs := signed_iff.mpr (Decidable.not_not.mp hsig)
        refine Ends.bind_ok (get_run w') ?_
        rw [← LawfulBlockDevice.blockCount_eq, ha.storage_eq]
        split
        · rename_i hfit
          refine .inconsistent hb' hs fun hc => hfit ?_
          rw [Superblock.forBlockCount?_eq_some_iff.mpr (laidOut_ofBytes_iff.mpr ⟨hs, hc⟩)]
        · trivial
    · intro e w' herr
      rcases herr with ⟨-, hf⟩
      exact absurd hn (hf.fails h)

/-- **Loading a volume** on a device that never fails succeeds on documented volumes only, and
    otherwise the error says why. -/
theorem Volume.load_documented (h : 1 ≤ (storage d w).blockCount) (hn : NeverFails d w) :
    Ends (Volume.load d) w (fun _ _ => Documented (storage d w))
      (fun e _ => Rejected (storage d w) e) := by
  have hdir : (Superblock.ofBytes ((storage d w).block 0).bytes).directoryBlock.toNat =
      (Header.ofBlock ((storage d w).block 0)).directoryBlock := toNat_word16 ..
  unfold Volume.load
  refine Ends.bind (((Superblock.load_ends d w).and (Superblock.load_refused h hn)).mono ?_ ?_)
  · intro sb w₁ hok
    rcases hok with ⟨⟨hc, h₁⟩, -⟩
    obtain rfl := hc.header_eq
    obtain ⟨hb, hs, hcons⟩ := carries_ofBytes_iff.mp hc
    have hn₁ := h₁.neverFails hn
    refine Ends.bind ((AllocationTable.load_ends d _ w₁).mono ?_ ?_)
    · intro t w₂ hok
      rcases hok with ⟨-, h₂⟩
      have hn₂ := h₂.neverFails hn₁
      have hst : storage d w₂ = storage d w := h₂.storage_eq.trans h₁.storage_eq
      unfold Directory.load
      have hblock := loadBlock_ends d
        (Superblock.ofBytes ((storage d w).block 0).bytes).directoryBlock.toNat w₂
      rw [hst] at hblock
      refine Ends.bind (Ends.bind (hblock.mono ?_ ?_))
      · intro block w₃ hok
        rcases hok with ⟨rfl, -⟩
        rw [hdir]
        cases hd : Directory.decode
            ((storage d w).block (Header.ofBlock ((storage d w).block 0)).directoryBlock) with
        | ok root =>
          refine ⟨hb, hs, hcons, fun slot hslot => ?_⟩
          have := Directory.decode_eq_ok_iff.mp hd ⟨slot, hslot⟩
          exact Directory.isSome_recordAt?.mp (by rw [this]; rfl)
        | error e =>
          obtain ⟨s, rfl, hl, hmin⟩ := Directory.decode_eq_error_iff.mp hd
          exact .illegible hb hs hcons s.val s.isLt hl
            fun j hj => hmin ⟨j, Nat.lt_trans hj s.isLt⟩ hj
      · intro e w₃ herr
        rcases herr with ⟨-, hf⟩
        exact absurd hn₂ (hf.fails hc.laidOut.directoryBlock_lt)
    · intro e w₂ hf
      refine absurd hn₁ (hf.fails fun i hi => ?_)
      rw [h₁.storage_eq]
      have := hc.laidOut.tableBlock_lt hi
      have := hc.laidOut.directoryBlock_lt
      omega
  · intro e w₁ herr
    exact herr.2

/-- **Mounting accepts exactly the documented volumes.** On a device that never fails and has a
    block, mounting succeeds if and only if the device holds a volume of the documented format; it
    fails with an error if and only if that error stands for what is wrong with it, nothing is
    mounted then, and the device holds what it held. The layout that is compared with is found for
    every block count that has one, number by number, and for no other. -/
theorem FileSystem.mount_accepts_documented (h : 1 ≤ (storage d w).blockCount)
    (hn : NeverFails d w) :
    ((∃ fs, mount d (ofWorld w) = .ok () fs) ↔ Documented (storage d w)) ∧
    (∀ e, (∃ fs, mount d (ofWorld w) = .error e fs) ↔ Rejected (storage d w) e) ∧
    (∀ e fs, mount d (ofWorld w) = .error e fs →
      fs.mounted = none ∧ storage d fs.world = storage d w) ∧
    (∀ n sb, Superblock.forBlockCount? n = some sb ↔ Superblock.LaidOut sb n) ∧
    (∀ n, Superblock.forBlockCount? n = none ↔ ¬ ∃ t k, Geometry n t k) ∧
    ∀ {n t t' k k'}, Geometry n t k → Geometry n t' k' → t = t' ∧ k = k' := by
  have hload := (Volume.load_documented h hn).and (Volume.load_ends d w)
  have hmount : (∃ fs, mount d (ofWorld w) = .ok () fs ∧ Documented (storage d w)) ∨
      ∃ e fs, mount d (ofWorld w) = .error e fs ∧ Rejected (storage d w) e ∧
        fs.mounted = none ∧ storage d fs.world = storage d w := by
    unfold Ends at hload
    cases hl : Volume.load d w with
    | ok v w' =>
      rw [hl] at hload
      exact .inl ⟨_, mount_of_load hl, hload.1⟩
    | error e w' =>
      rw [hl] at hload
      exact .inr ⟨e, _, mount_of_load_error hl, hload.1, rfl, hload.2.1⟩
  refine ⟨?_, fun e => ?_, fun e fs he => ?_, fun _ _ => Superblock.forBlockCount?_eq_some_iff,
    fun _ => Superblock.forBlockCount?_eq_none_iff, Geometry.unique⟩
  · rcases hmount with ⟨fs, hm, hd⟩ | ⟨e, fs, hm, hr, -⟩
    · exact iff_of_true ⟨fs, hm⟩ hd
    · refine iff_of_false (fun hq => ?_) hr.not_documented
      rcases hq with ⟨fs', hm'⟩
      cases hm.symm.trans hm'
  · rcases hmount with ⟨fs, hm, hd⟩ | ⟨e', fs, hm, hr, -⟩
    · refine iff_of_false (fun hq => ?_) fun hr => hr.not_documented hd
      rcases hq with ⟨fs', hm'⟩
      cases hm.symm.trans hm'
    · refine ⟨fun hq => ?_, fun hr' => ?_⟩
      · rcases hq with ⟨fs', hm'⟩
        cases hm.symm.trans hm'
        exact hr
      · obtain rfl := hr.unique hr'
        exact ⟨fs, hm⟩
  · rcases hmount with ⟨fs', hm, -⟩ | ⟨e', fs', hm, -, hnone, hst⟩
    · cases hm.symm.trans he
    · cases hm.symm.trans he
      exact ⟨hnone, hst⟩

end OnDevice

/-! ## 4. In memory -/

/-- A block full of one letter. -/
def Block.letters : Block := ⟨⟨Array.replicate blockSize 65⟩, by simp [ByteArray.size]⟩

theorem Block.byteAt_letters {i : Nat} (hi : i < blockSize) : byteAt letters.bytes i = 65 := by
  rw [byteAt_of_lt (by rwa [letters.size_bytes])]
  simp [letters, ByteArray.getElem_eq_getElem_data]

/-- No name of such a block ends. -/
theorem not_legible_letters : ¬ Legible Block.letters 0 := by
  intro hq
  rcases hq with ⟨k, hk, -⟩
  have hz := hk.zero
  rw [Block.byteAt_letters (Nat.lt_of_lt_of_le (by simpa using hk.lt) (by decide))] at hz
  cases hz

/-- The layout of a device of eight blocks. -/
def Superblock.eight : Superblock := ⟨magic, 8, 2, 3, 5, 1⟩

/-- A storage of eight blocks that carries this layout. -/
theorem carries_eight {st : Storage} (h : st.block 0 = Block.padded Superblock.eight.encode)
    (hn : st.blockCount = 8) (hb : st.blockBytes = blockSize) : Carries st Superblock.eight := by
  refine ⟨by rw [h, Superblock.ofBytes_padded_encode], ?_, hb⟩
  rw [hn]
  decide

/-- A device in memory of eight blocks with a superblock, and `b` in block `i`. -/
def Memory.eightWith (i : Nat) (b : Block) : Memory :=
  (({ blockCount := 8 } : Memory).setBlock 0 (Block.padded Superblock.eight.encode)).setBlock i b

theorem Memory.block_eightWith (i j : Nat) (b : Block) : (eightWith i b).storage.block j =
    if j = i then b else if j = 0 then Block.padded Superblock.eight.encode else Block.zero := by
  have hst : (eightWith i b).storage = (((⟨8, 4096, true, fun _ => Block.zero⟩ : Storage).set 0
      (Block.padded Superblock.eight.encode)).set i b) := by
    rw [eightWith, storage_setBlock, storage_setBlock]
    rfl
  rw [hst, block_set, block_set]

theorem Memory.carries_eightWith {i : Nat} (hi : 0 < i) (b : Block) :
    Carries (eightWith i b).storage Superblock.eight := by
  refine carries_eight ?_ rfl rfl
  rw [block_eightWith, if_neg (Nat.ne_of_lt hi), if_pos rfl]

/-- A directory in which no name ends is refused, and slot 0 is named. -/
theorem Memory.rejected_letters :
    Rejected (eightWith 2 Block.letters).storage (.corruptEntry 0) := by
  have hc := carries_eightWith (i := 2) (by decide) Block.letters
  obtain ⟨hb, hs, hcons⟩ := carries_ofBytes_iff.mp (hc.header_eq.symm ▸ hc)
  have hdir : (Header.ofBlock ((eightWith 2 Block.letters).storage.block 0)).directoryBlock = 2 := by
    show littleEndian ((eightWith 2 Block.letters).storage.block 0).bytes 10 2 = 2
    rw [← toNat_word16]
    exact congrArg (fun sb => sb.directoryBlock.toNat) hc.header_eq
  refine .illegible hb hs hcons 0 (by decide) ?_ fun s hs => absurd hs (Nat.not_lt_zero s)
  rw [hdir, block_eightWith, if_pos rfl]
  exact not_legible_letters

/-- A formatted device is documented; one with zeros, one with small blocks and one with an endless
    name are refused, each for its own reason. -/
theorem FileSystem.mount_accepts_memory :
    Documented (Memory.formatted 8).storage ∧
    (∃ fs, mount () (ofWorld ({ blockCount := 8 } : Memory)) = .error .badSignature fs) ∧
    (∃ fs, mount () (ofWorld ({ blockCount := 8, blockBytes := 512 } : Memory)) =
      .error .invalidGeometry fs) ∧
    ∃ fs, mount () (ofWorld (Memory.eightWith 2 Block.letters)) = .error (.corruptEntry 0) fs := by
  refine ⟨?_, ?_, ?_, ?_⟩
  · obtain ⟨sb, w, hf, hm, -⟩ := fresh_spec (n := 8) (by decide)
    have hn : NeverFails () (Memory.formatted 8) :=
      (ends_iff.mp (Volume.format_ends () rfl)).1 _ _ hf |>.2.2.2 (Memory.neverFails rfl)
    have hcount : 1 ≤ (storage () (Memory.formatted 8)).blockCount := by
      have hc := ((ends_iff.mp (Volume.format_ends () rfl)).1 _ _ hf).1
      exact Nat.lt_of_le_of_lt (Nat.zero_le _) hc.laidOut.directoryBlock_lt
    exact (mount_accepts_documented hcount hn).1.mp ⟨_, hm⟩
  · refine ((mount_accepts_documented (d := ()) (by decide) (Memory.neverFails rfl)).2.1 _).mpr ?_
    refine .unsigned rfl fun hs => ?_
    have hfirst : byteAt Block.zero.bytes 0 = Superblock.magic[0] := by
      rw [← signed_iff.mp hs, Superblock.ofBytes, vectorAt, Vector.getElem_ofFn]
      rfl
    rw [Block.byteAt_zero] at hfirst
    cases hfirst
  · refine ((mount_accepts_documented (d := ()) (by decide) (Memory.neverFails rfl)).2.1 _).mpr ?_
    exact .blockSize (by decide)
  · exact ((mount_accepts_documented (d := ()) (by decide) (Memory.neverFails rfl)).2.1 _).mpr
      Memory.rejected_letters

end FlatVolume
