import FlatVolume.Proofs.Contents
import FlatVolume.Proofs.Rechaining
import FlatVolume.Volume.Write

/-!
# Storing the pieces of a write

One piece of a write goes into a block the file has (`overwrite_ends`) or into a new one behind its
chain (`append_ends`). Both are said for success and for failure: whatever a failed piece had
changed in memory is as it was, the new block included.
-/

namespace FlatVolume

open AllocationTable Bytes FlatVolume.Computation
open Link (free endOfChain)

variable {W H : Type}

namespace Directory

theorem ext_get {d d' : Directory} (h : ∀ s, d.get s = d'.get s) : d = d' := by
  obtain ⟨slots⟩ := d
  obtain ⟨slots'⟩ := d'
  congr 1
  ext1 i hi
  exact h ⟨i, hi⟩

theorem set_get_self (d : Directory) (slot : Slot) : d.set slot (d.get slot) = d := by
  cases d
  simp [set, get]

/-- Replacing an entry by itself, field by field. -/
theorem set_eta (d : Directory) (slot : Slot) :
    d.set slot ⟨(d.get slot).name, (d.get slot).size, (d.get slot).firstBlock⟩ = d :=
  set_get_self d slot

theorem set_set (d : Directory) (slot : Slot) (e e' : Entry) :
    (d.set slot e).set slot e' = d.set slot e' := by
  simp [set]

@[simp] theorem get_set_self (d : Directory) (slot : Slot) (e : Entry) :
    (d.set slot e).get slot = e := by
  rw [get_set, if_pos rfl]

end Directory

/-! ## 1. Data blocks of a mounted volume -/

open LawfulBlockDevice (storage) in
theorem Volume.loadData_ends [BlockDevice W H] [LawfulBlockDevice W H] {v : Volume H} {b : Link}
    (hb : v.table.isDataBlock b = true) (w : W) :
    Ends (v.loadData b) w
      (fun blk w' => blk = (storage v.device w).block (v.superblock.dataBlock b) ∧
        Answered v.device w w' (storage v.device w))
      (fun e w' => (∃ c, e = .io (v.superblock.dataBlock b) c) ∧ Failed v.device w w'
        (v.superblock.dataBlock b < (storage v.device w).blockCount)) := by
  have hl : v.loadData b = (loadBlock v.device (v.superblock.dataBlock b) : VolumeM W Block) := by
    simp only [Volume.loadData, Volume.locate, hb, if_true]
  rw [hl]
  exact loadBlock_ends _ _ _

namespace Mounted

variable {m : Mounted W H} {b : Link} {blk : Block}

theorem onDevice_ends {α : Type} {act : VolumeM W α} {ok : α → Mounted W H → Prop}
    {err : VolumeError → Mounted W H → Prop}
    (h : Ends act m.world (fun a w => ok a { m with world := w })
      fun e w => err e { m with world := w }) : Ends (onDevice act) m ok err := by
  obtain ⟨ho, he⟩ := ends_iff.mp h
  refine ends_iff.mpr ⟨fun a m' hm => ?_, fun e m' hm => ?_⟩
  · obtain ⟨w, hw, rfl⟩ := onDevice_eq_ok_iff.mp hm
    exact ho a w hw
  · obtain ⟨w, hw, rfl⟩ := onDevice_eq_error_iff.mp hm
    exact he e w hw

variable [BlockDevice W H]

/-- Storing a data block changes nothing in memory, whether or not it fails. -/
theorem storeData_volume (b : Link) (blk : Block) (m : Mounted W H) : Ends (storeData b blk) m
    (fun _ m' => m'.volume = m.volume) (fun _ m' => m'.volume = m.volume) := by
  refine Ends.bind_ok (getVolume_run m) ?_
  cases m.volume.locate b with
  | error e => exact Ends.bind (Ends.of_error (lookup_eq_error_iff.mpr ⟨rfl, rfl⟩) rfl)
  | ok i =>
    refine Ends.bind_ok (lookup_eq_ok_iff.mpr ⟨rfl, rfl⟩) (onDevice_ends ?_)
    exact ends_iff.mpr ⟨fun _ _ _ => rfl, fun _ _ _ => rfl⟩

/-- Nor does laying a piece over one. -/
theorem overwrite_volume (b : Link) (s : Segment) (m : Mounted W H) : Ends (overwrite b s) m
    (fun _ m' => m'.volume = m.volume) (fun _ m' => m'.volume = m.volume) := by
  unfold overwrite
  split
  · refine Ends.bind_ok (getVolume_run m) (Ends.bind (onDevice_ends ?_))
    exact ends_iff.mpr ⟨fun _ _ _ => storeData_volume _ _ _, fun _ _ _ => rfl⟩
  · exact storeData_volume _ _ _

/-- No call to the device of the volume fails. -/
def NeverFails (m : Mounted W H) : Prop := FlatVolume.NeverFails m.volume.device m.world

variable [LawfulBlockDevice W H]

/-- What the device of the volume holds. -/
def storage (m : Mounted W H) : Storage := LawfulBlockDevice.storage m.volume.device m.world

/-- Every data block of the table is a block of the device. -/
def InRange (m : Mounted W H) : Prop :=
  ∀ b : Link, b.toNat < m.volume.table.size →
    m.volume.superblock.dataBlock b < m.storage.blockCount

/-- A call on the way from `m` to `m'` failed on a data block, and changed nothing. -/
structure BlockFailed (m : Mounted W H) (e : VolumeError) (m' : Mounted W H) : Prop where
  volume_eq : m'.volume = m.volume
  storage_eq : m'.storage = m.storage
  error_eq : ∃ b c, e = .io (m.volume.superblock.dataBlock b) c
  fails : m.InRange → ¬ m.NeverFails

theorem BlockFailed.of_failed {w : W} {c : DeviceError} (hlt : b.toNat < m.volume.table.size)
    (h : Failed m.volume.device m.world w
      (m.volume.superblock.dataBlock b < m.storage.blockCount)) :
    BlockFailed m (.io (m.volume.superblock.dataBlock b) c) { m with world := w } where
  volume_eq := rfl
  storage_eq := h.storage_eq
  error_eq := ⟨b, c, rfl⟩
  fails hr := h.fails (hr b hlt)

theorem lt_size_of_isDataBlock {t : AllocationTable} (h : t.isDataBlock b = true) :
    b.toNat < t.size := by
  simp only [isDataBlock, Bool.and_eq_true, decide_eq_true_eq] at h
  exact h.2

theorem exists_entry_of_isDataBlock {t : AllocationTable} (h : t.isDataBlock b = true) :
    ∃ a, t.entries[b.toNat]? = some a :=
  ⟨_, Array.getElem?_eq_getElem (lt_size_of_isDataBlock h)⟩

theorem loadData_ends (hb : m.volume.table.isDataBlock b = true) :
    Ends (onDevice (m.volume.loadData b)) m
      (fun blk m' => ∃ w, m' = { m with world := w } ∧
        blk = m.storage.block (m.volume.superblock.dataBlock b) ∧
        Answered m.volume.device m.world w m.storage)
      (BlockFailed m) := by
  refine onDevice_ends ((Volume.loadData_ends hb m.world).mono ?_ ?_)
  · intro blk w hok
    rcases hok with ⟨hblk, ha⟩
    exact ⟨w, rfl, hblk, ha⟩
  · intro e w herr
    rcases herr with ⟨⟨c, rfl⟩, hf⟩
    exact .of_failed (lt_size_of_isDataBlock hb) hf

theorem storeData_ends (hb : m.volume.table.isDataBlock b = true) :
    Ends (storeData b blk) m
      (fun _ m' => ∃ w, m' = { m with world := w } ∧ Answered m.volume.device m.world w
        (m.storage.set (m.volume.superblock.dataBlock b) blk))
      (BlockFailed m) := by
  have hl : m.volume.locate b = .ok (m.volume.superblock.dataBlock b) := by
    simp only [Volume.locate, hb, if_true]
  refine Ends.bind_ok (getVolume_run m) ?_
  refine Ends.bind_ok (lookup_eq_ok_iff.mpr ⟨hl, rfl⟩) ?_
  refine onDevice_ends ((storeBlock_ends _ _ _ _).mono ?_ ?_)
  · intro _ w ha
    exact ⟨w, rfl, ha⟩
  · intro e w herr
    rcases herr with ⟨⟨c, rfl⟩, hf⟩
    exact .of_failed (lt_size_of_isDataBlock hb) hf

/-- A failure after a call that changed nothing. -/
theorem BlockFailed.after {w : W} {m' : Mounted W H} {e : VolumeError}
    (ha : Answered m.volume.device m.world w m.storage)
    (h : BlockFailed { m with world := w } e m') : BlockFailed m e m' where
  volume_eq := h.volume_eq
  storage_eq := h.storage_eq.trans ha.storage_eq
  error_eq := h.error_eq
  fails hr hn := by
    refine h.fails (fun b hb => ?_) (ha.neverFails hn)
    have hs : storage ({ m with world := w } : Mounted W H) = m.storage := ha.storage_eq
    rw [hs]
    exact hr b hb

/-! ## 2. A piece in a block the file has -/

/-- All of a block laid over any block is that block. -/
theorem overlay_of_size_eq (blk blk' : Block) {src : ByteArray} (h : src.size = blockSize) :
    blk.overlay 0 src = blk'.overlay 0 src := by
  refine Block.ext_byteAt fun i hi => ?_
  rw [Block.byteAt_overlay _ (by omega), Block.byteAt_overlay _ (by omega), if_pos (by omega),
    if_pos (by omega)]

/-- **A piece laid over a data block** changes the piece's bytes in that block. -/
theorem overwrite_ends {s : Segment} (hb : m.volume.table.isDataBlock b = true)
    (hfull : blockSize ≤ s.bytes.size → s.within = 0 ∧ s.bytes.size = blockSize) :
    Ends (overwrite b s) m
      (fun _ m' => ∃ w, m' = { m with world := w } ∧ Answered m.volume.device m.world w
        (m.storage.set (m.volume.superblock.dataBlock b)
          ((m.storage.block (m.volume.superblock.dataBlock b)).overlay s.within s.bytes)))
      (BlockFailed m) := by
  unfold overwrite
  split
  · refine Ends.bind_ok (getVolume_run m) (Ends.bind ((loadData_ends hb).mono ?_ fun _ _ h => h))
    intro old _ hok
    rcases hok with ⟨w, rfl, rfl, ha⟩
    have hs : storage ({ m with world := w } : Mounted W H) = m.storage := ha.storage_eq
    refine (storeData_ends (m := { m with world := w }) hb).mono ?_ fun e m' h => h.after ha
    intro _ _ hok
    rcases hok with ⟨w', rfl, ha'⟩
    rw [hs] at ha'
    exact ⟨w', rfl, ha.trans ha'⟩
  · rename_i hlt
    obtain ⟨h0, hsz⟩ := hfull (Nat.le_of_not_lt hlt)
    rw [h0, overlay_of_size_eq (m.storage.block _) Block.zero hsz]
    exact storeData_ends hb

end Mounted

/-! ## 3. A piece in a new block -/

/-- The volume after the free block `b` was put behind the chain `blocks` of the file in `slot`. -/
def Volume.grown (v : Volume H) (slot : Slot) (blocks : List Link) (b : Link) : Volume H :=
  { v with
    table := v.table.linked blocks b
    root := v.root.set slot { v.root.get slot with
      firstBlock := grownFirst (v.root.get slot).firstBlock blocks b } }

namespace Mounted

variable {m : Mounted W H} {b : Link} {slot : Slot} {blocks : List Link}

/-- **Linking a block that was just taken.** -/
theorem linkLast_run (hc : Chain m.volume.table (m.volume.root.get slot).firstBlock blocks)
    (hb : FreeBlock m.volume.table b) :
    linkLast slot blocks.toArray b
      { m with volume := { m.volume with table := m.volume.table.set b endOfChain } } =
      .ok () { m with volume := m.volume.grown slot blocks b } := by
  unfold linkLast
  rw [List.back?_toArray]
  cases hl : blocks.getLast? with
  | none =>
    obtain rfl := List.getLast?_eq_none_iff.mp hl
    rfl
  | some last =>
    have hne : last ≠ b := fun e => hb.notMem hc (e ▸ List.mem_of_getLast? hl)
    have he : (m.volume.table.set b endOfChain).entries[last.toNat]? = some endOfChain :=
      (getElem?_set_of_ne hne).trans (hc.entry_last hl)
    have hf : grownFirst (m.volume.root.get slot).firstBlock blocks b =
        (m.volume.root.get slot).firstBlock := by
      have : blocks ≠ [] := by
        intro heq
        subst heq
        cases hl
      simp [grownFirst, this]
    refine onTable_eq_ok_iff.mpr ⟨(m.volume.table.set b endOfChain).set last b, ?_, ?_⟩
    · simp only [extend, he, if_true]
    · simp only [Volume.grown, hf, Directory.set_eta, linked, hl]

/-- **Taking the block off again** leaves nothing of it in memory. -/
theorem unlinkLast_run (hc : Chain m.volume.table (m.volume.root.get slot).firstBlock blocks)
    (hb : FreeBlock m.volume.table b) :
    unlinkLast slot (blocks ++ [b]).toArray { m with volume := m.volume.grown slot blocks b } =
      .ok () m := by
  have hun := unlinked_linked hc hb
  have hend : ∀ t : AllocationTable, t.link? b = some endOfChain →
      freeChain b t = .ok 1 (t.set b free) := by
    intro t ht
    have hch : Chain t b [b] := .step hb.ne_end ht .done
    exact hch.freeChain_eq
  unfold unlinkLast
  rw [List.back?_toArray, List.getLast?_concat]
  simp only [List.pop_toArray, List.dropLast_concat, List.back?_toArray]
  cases hl : blocks.getLast? with
  | none =>
    obtain rfl := List.getLast?_eq_none_iff.mp hl
    have hfirst := Chain.nil_iff.mp hc
    have hlink : (m.volume.table.linked [] b).link? b = some endOfChain :=
      link?_set_self hb.ne_zero hb.lt_size (by decide)
    rw [hl] at hun
    refine (bind_of_ok (modifyVolume_run _ _)).trans (discard_eq_ok_iff.mpr ⟨1, ?_⟩)
    refine onTable_eq_ok_iff.mpr ⟨_, hend _ hlink, ?_⟩
    simp only [Volume.grown, hun, Directory.set_set, Directory.get_set_self, ← hfirst,
      Directory.set_eta]
  | some last =>
    have hne : b ≠ last := fun e => hb.notMem hc (e ▸ List.mem_of_getLast? hl)
    have hlt : last.toNat < (m.volume.table.set b endOfChain).size := by
      rw [size_set]
      exact hc.lt_size (List.mem_of_getLast? hl)
    have hlink : ((m.volume.table.linked blocks b).set last endOfChain).link? b =
        some endOfChain := by
      rw [link?_set_of_ne hne]
      simp only [linked, hl]
      rw [link?_set_of_ne hne]
      exact link?_set_self hb.ne_zero hb.lt_size (by decide)
    have hcut : cutAfter last (m.volume.table.linked blocks b) =
        .ok b ((m.volume.table.linked blocks b).set last endOfChain) := by
      have he : (m.volume.table.linked blocks b).entries[last.toNat]? = some b := by
        simp only [linked, hl]
        exact getElem?_set_self hlt
      simp only [cutAfter, he]
    have hf : grownFirst (m.volume.root.get slot).firstBlock blocks b =
        (m.volume.root.get slot).firstBlock := by
      have : blocks ≠ [] := by
        intro heq
        subst heq
        cases hl
      simp [grownFirst, this]
    rw [hl] at hun
    have hstep :
        discard (onTable (cutAfter last)) { m with volume := m.volume.grown slot blocks b } =
        .ok () { m with volume := { m.volume.grown slot blocks b with
          table := (m.volume.table.linked blocks b).set last endOfChain } } :=
      discard_eq_ok_iff.mpr ⟨b, onTable_eq_ok_iff.mpr ⟨_, hcut, rfl⟩⟩
    refine (bind_of_ok hstep).trans (discard_eq_ok_iff.mpr ⟨1, ?_⟩)
    refine onTable_eq_ok_iff.mpr ⟨_, hend _ hlink, ?_⟩
    simp only [Volume.grown, hun, hf, Directory.set_eta]

variable [BlockDevice W H] [LawfulBlockDevice W H]

/-- **A piece behind the chain goes into the lowest free block,** with zeros around it. If there is
    none, or storing it fails, memory is as it was. -/
theorem append_ends {s : Segment} (hs : m.volume.table.size ≤ 65535)
    (hc : Chain m.volume.table (m.volume.root.get slot).firstBlock blocks) :
    Ends (append slot blocks.toArray s) m
      (fun chain m' => ∃ b w, m.volume.table.lowestFree? = some b.toNat ∧
        chain = (blocks ++ [b]).toArray ∧ m' = ⟨m.volume.grown slot blocks b, w⟩ ∧
        Answered m.volume.device m.world w
          (m.storage.set (m.volume.superblock.dataBlock b)
            (Block.zero.overlay s.within s.bytes)))
      (fun e m' => (e = .diskFull ∧ m.volume.table.lowestFree? = none ∧ m' = m) ∨
        BlockFailed m e m') := by
  unfold append
  rcases allocate_cases hs with ⟨b, hlow, ha⟩ | ⟨hlow, ha⟩
  · have hb := freeBlock_of_lowestFree? hs hlow
    refine Ends.bind_ok (onTable_eq_ok_iff.mpr ⟨_, ha, rfl⟩) ?_
    refine Ends.bind_ok (linkLast_run hc hb) ?_
    have hdata : (m.volume.grown slot blocks b).table.isDataBlock b = true := by
      simp [Volume.grown, isDataBlock, hb.ne_zero, hb.lt_size]
    have hpush : blocks.toArray.push b = (blocks ++ [b]).toArray := by simp
    rw [hpush]
    refine Ends.bind (Ends.undoing ((storeData_ends hdata).mono ?_ ?_))
    · intro _ _ hok
      rcases hok with ⟨w, rfl, hw⟩
      exact ⟨b, w, hlow, rfl, rfl, hw⟩
    · intro e m' hf
      obtain ⟨v, w⟩ := m'
      obtain rfl : v = m.volume.grown slot blocks b := hf.volume_eq
      refine ⟨{ m with world := w }, unlinkLast_run (m := { m with world := w }) hc hb,
        .inr ⟨rfl, ?_, ?_, ?_⟩⟩
      · exact hf.storage_eq
      · exact hf.error_eq
      · intro hr
        refine hf.fails fun c hlt => hr c ?_
        simpa [Volume.grown] using hlt
  · refine Ends.bind (Ends.of_error (onTable_eq_error_iff.mpr ⟨_, ha, rfl⟩) ?_)
    exact .inl ⟨rfl, hlow, rfl⟩

end Mounted

end FlatVolume
