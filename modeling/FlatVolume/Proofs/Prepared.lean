import FlatVolume.Proofs.Formatted

/-!
# Volumes with any metadata

Mounting compares the superblock with the device and reads the names of the directory; it follows
no chain. So every table of the right size can be mounted, and with it every directory whose
entries fit their records (`FileSystem.exists_mount_of_flushed`), however corrupt the files are.

`Memory.holding n v` is a device in memory on which the metadata of `v` was written. It can be
mounted, and a file on it opened and its descriptor moved (`FileSystem.exists_opened`), so there
are corrupt volumes to speak of. `Volume.lone t e` is the smallest of them: sixteen blocks, the
table `t`, and the file `e` alone. With `AllocationTable.oneUsed` and `Entry.hundredBytes` it is sound.
-/

namespace FlatVolume

open FlatVolume.Computation Mounted
open FileSystem (ofMounted ofWorld)
open LawfulBlockDevice (storage)

/-! ## 1. In memory -/

/-- A device in memory of `n` blocks on which superblock, table and directory of `v` stand. -/
def Memory.holding (n : Nat) (v : Volume Unit) : Memory :=
  stateAfter v.flush
    (({ blockCount := n } : Memory).setBlock 0 (Block.padded v.superblock.encode))

/-- A volume that can be written to a device of `n` blocks and read back. -/
structure Volume.Writable (n : Nat) (v : Volume Unit) : Prop where
  layout : Superblock.forBlockCount? n = some v.superblock
  size_eq : v.table.size = v.superblock.dataBlocks.toNat
  storable : ∀ s, (v.root.get s).Storable

variable {n : Nat} {v : Volume Unit}

/-- **Whatever table and directory a device in memory holds,** it is mounted as it is. -/
theorem FileSystem.exists_mount_holding (h : v.Writable n) :
    ∃ w, mount () (ofWorld (Memory.holding n v)) =
      .ok () (ofMounted ⟨{ v with files := OpenFiles.empty }, w⟩) ∧ NeverFails () w := by
  obtain ⟨w₀, hw₀⟩ : ∃ w₀ : Memory, w₀ =
    ({ blockCount := n } : Memory).setBlock 0 (Block.padded v.superblock.encode) := ⟨_, rfl⟩
  have hc : Carries (storage () w₀) v.superblock := by
    rw [hw₀, show storage () (Memory.setBlock _ _ _) = _ from Memory.storage_setBlock _ _ _]
    refine ⟨?_, h.layout, rfl⟩
    rw [block_set, if_pos rfl, Superblock.ofBytes_padded_encode]
  have hn : NeverFails () w₀ := Memory.neverFails (by rw [hw₀]; rfl)
  obtain ⟨_, w, hf, ht, hflushed, hnf⟩ :=
    (flush_ends v.device hc.laidOut v.table v.root (Memory.whole_storage w₀)).exists_ok
      fun _ _ hfail => hfail.2 rfl hn
  have hh : Memory.holding n v = stateAfter v.flush w₀ := by rw [Memory.holding, ← hw₀]
  rw [hh, stateAfter, show v.flush w₀ = _ from hf]
  obtain ⟨w', hm, ha⟩ := exists_mount_of_flushed (hc.touched ht (not_isMetadata_zero _)) hflushed
    h.size_eq h.storable (hnf hn)
  exact ⟨w', hm, ha.neverFails (hnf hn)⟩

/-- A file on it can be opened, and its descriptor moved to any place in the file. -/
theorem FileSystem.exists_opened (h : v.Writable n) {name : String} {slot : Slot} {offset : Nat}
    (hs : v.root.find? name = some slot) (ho : offset ≤ (v.root.get slot).size) :
    ∃ fs files w, mount () (ofWorld (Memory.holding n v)) = .ok () fs ∧
      Reachable fs (ofMounted ⟨{ v with files }, w⟩) ∧ files.get? 0 = some ⟨name, offset⟩ ∧
      NeverFails () w := by
  obtain ⟨w, hm, hn⟩ := exists_mount_holding h
  obtain ⟨hocc, hname⟩ := Directory.of_find? hs
  have hvalid : validName name = true := by
    rcases h.storable slot with hf | hv
    · rw [hf] at hocc
      cases hocc
    · exact hname ▸ hv.1
  obtain ⟨files, hb⟩ := OpenFiles.exists_bind_empty name
  have hopen := openFile_run ⟨{ v with files := OpenFiles.empty }, w⟩ name
  simp only [hvalid, hs, hb, Bool.true_eq_false, if_false, reduceCtorEq] at hopen
  have hget : files.get? 0 = some ⟨name, 0⟩ := by
    rw [(OpenFiles.get?_of_bind hb).2, if_pos rfl]
  have hseek := seek_run ⟨{ v with files }, w⟩ 0 offset
  have hr : Volume.resolve { v with files } 0 = .ok (⟨name, 0⟩, slot) :=
    Volume.resolve_eq_ok_iff.mpr ⟨hget, hs⟩
  simp only [hr, if_neg (Nat.not_lt_of_le ho)] at hseek
  refine ⟨_, files.moveTo 0 offset, w, hm, ?_, ?_, hn⟩
  · have hopened : stateAfter (Operation.file (.openFile name)).run
        (ofMounted ⟨{ v with files := OpenFiles.empty }, w⟩) = ofMounted ⟨{ v with files }, w⟩ :=
      Ends.stateAfter (P := fun fs => fs = _) (Ends.map (Ends.map (Ends.of_ok hopen rfl)))
    have hsought : stateAfter (Operation.file (.seek 0 offset)).run (ofMounted ⟨{ v with files }, w⟩) =
        ofMounted ⟨{ v with files := files.moveTo 0 offset }, w⟩ :=
      Ends.stateAfter (P := fun fs => fs = _) (Ends.map (Ends.map (Ends.of_ok hseek rfl)))
    rw [← hsought, ← hopened]
    exact (Reachable.start.step _).step _
  · rw [OpenFiles.get?_moveTo, if_pos rfl, hget]
    rfl

/-! ## 2. One file on sixteen blocks -/

/-- The layout of a device of sixteen blocks. -/
def Superblock.sixteen : Superblock :=
  { signature := magic, totalBlocks := 16, directoryBlock := 2, dataStart := 3, dataBlocks := 13,
    tableBlocks := 1 }

theorem Superblock.forBlockCount?_sixteen : forBlockCount? 16 = some sixteen := by decide

/-- A table in which data block 1 leads to itself, and no other block is in use. -/
def AllocationTable.looped : AllocationTable := (empty 13).set 1 1

theorem AllocationTable.size_looped : looped.size = 13 := by decide

theorem AllocationTable.link?_looped : looped.link? 1 = some 1 := by decide

/-- Links lead from data block 1 to itself, as often as one likes. -/
theorem AllocationTable.path_looped (n : Nat) : looped.Path 1 (List.replicate n 1) 1 := by
  induction n with
  | zero => exact .here
  | succ n ih => exact .step (by decide) link?_looped ih

theorem AllocationTable.trail_looped (n : Nat) : looped.Trail 1 (List.replicate (n + 1) 1) :=
  trail_iff_path.mpr ⟨_, 1, List.replicate_succ', path_looped n, isDataBlock_of_link? link?_looped⟩

theorem AllocationTable.onLoop_looped : looped.OnLoop 1 := ⟨[], path_looped 1⟩

/-- A file that says it has twenty blocks of bytes, more than the table has entries, from data block
    `first` on. -/
def Entry.twentyBlocks (first : Link) : Entry := ⟨"a", 81920, first⟩

theorem Entry.storable_twentyBlocks (first : Link) : (twentyBlocks first).Storable :=
  .inr ⟨show validName "a" = true by decide, show 81920 < UInt32.size by decide⟩

/-- A volume of sixteen blocks with the table `t` and no file but `e`. -/
def Volume.lone (t : AllocationTable) (e : Entry) : Volume Unit where
  device := ()
  superblock := Superblock.sixteen
  table := t
  root := Directory.empty.set ⟨0, maxFiles_pos⟩ e
  files := OpenFiles.empty

variable {t : AllocationTable} {e : Entry}

theorem Volume.writable_lone (ht : t.size = 13) (he : e.Storable) : (lone t e).Writable 16 where
  layout := Superblock.forBlockCount?_sixteen
  size_eq := ht
  storable s := by
    rw [lone, Directory.get_set]
    split
    · exact he
    · exact .inl (get_empty s)

theorem Volume.get_lone (t : AllocationTable) (e : Entry) :
    (lone t e).root.get ⟨0, by decide⟩ = e := Directory.get_set_self _ _ _

theorem Volume.find?_lone (he : e.isFree = false) :
    (lone t e).root.find? e.name = some ⟨0, by decide⟩ := by
  refine Directory.find?_eq_some_iff.mpr ⟨?_, nofun⟩
  rw [lone, Directory.get_set_self]
  exact Directory.holds_iff.mpr ⟨he, rfl⟩

/-- A device on which the first block of the only file leads to itself can be mounted, and the file be
    opened. -/
theorem FileSystem.exists_opened_looped : ∃ fs files w,
    mount () (ofWorld (Memory.holding 16
      (Volume.lone AllocationTable.looped (Entry.twentyBlocks 1)))) = .ok () fs ∧
    Reachable fs (ofMounted
      ⟨{ Volume.lone AllocationTable.looped (Entry.twentyBlocks 1) with files }, w⟩) := by
  have hw := Volume.writable_lone AllocationTable.size_looped (Entry.storable_twentyBlocks 1)
  have hs := Volume.find?_lone (t := AllocationTable.looped) (e := Entry.twentyBlocks 1) rfl
  obtain ⟨fs, files, w, hm, hr, -, -⟩ := exists_opened hw hs (Nat.zero_le _)
  exact ⟨fs, files, w, hm, hr⟩

/-! ## 3. One sound file -/

/-- A table in which data block 1 is a chain, and no other block is in use. -/
def AllocationTable.oneUsed : AllocationTable := (empty 13).set 1 Link.endOfChain

/-- A file of a hundred bytes in data block 1. -/
def Entry.hundredBytes : Entry := ⟨"a", 100, 1⟩

theorem Volume.check_hundredBytes (files : OpenFiles) :
    Volume.check { lone AllocationTable.oneUsed Entry.hundredBytes with files } = .ok () := rfl

/-- It can be mounted, and the file be opened and its descriptor moved to the end. -/
theorem FileSystem.exists_opened_hundredBytes : ∃ fs files w,
    mount () (ofWorld (Memory.holding 16
      (Volume.lone AllocationTable.oneUsed Entry.hundredBytes))) = .ok () fs ∧
    Reachable fs (ofMounted
      ⟨{ Volume.lone AllocationTable.oneUsed Entry.hundredBytes with files }, w⟩) ∧
    files.get? 0 = some ⟨"a", 100⟩ ∧ NeverFails () w := by
  have hw := Volume.writable_lone (t := AllocationTable.oneUsed) (e := Entry.hundredBytes) (by decide)
    (.inr ⟨show validName "a" = true by decide, show 100 < UInt32.size by decide⟩)
  have hs := Volume.find?_lone (t := AllocationTable.oneUsed) (e := Entry.hundredBytes) rfl
  exact exists_opened hw hs (Nat.le_refl 100)

end FlatVolume
