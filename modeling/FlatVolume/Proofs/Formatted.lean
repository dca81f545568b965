import FlatVolume.Proofs.Operations
import FlatVolume.Proofs.Refiling

/-!
# Freshly formatted volumes

`Blank st sb` says that a storage holds what formatting leaves. What is mounted from it is
`Volume.blank`: all slots are empty, no descriptor is open, no block is in use but the reserved
one. Such a volume is intact and has no orphans.

On a device that never fails formatting and mounting succeed; the last section says it of devices in
memory, so that there are volumes to speak of.
-/

namespace FlatVolume

open FlatVolume.Computation Mounted
open FileSystem (ofMounted)
open Link (free endOfChain)
open LawfulBlockDevice (storage)

/-! ## 1. The empty table -/

namespace AllocationTable

@[simp] theorem size_empty (n : Nat) : (empty n).size = n := by simp [empty, size]

theorem entries_empty_zero {n : Nat} (h : 0 < n) : (empty n).entries[0]? = some endOfChain := by
  simp [empty, h]

/-- No block of the empty table is in use. -/
theorem link?_empty (n : Nat) (b : Link) : (empty n).link? b = none := by
  by_cases hb : b = 0
  · simp [link?, hb]
  · have h0 : ¬ 0 = b.toNat := fun h => hb (UInt16.toNat_inj.mp h.symm)
    rw [link?, if_neg hb, empty, Array.getElem?_setIfInBounds, if_neg h0, Array.getElem?_replicate]
    split
    · rfl
    · rfl

/-- In the table of an empty volume all entries are free but the reserved one. -/
theorem freeCount_empty {n : Nat} (h : 0 < n) : (empty n).freeCount + 1 = n := by
  obtain ⟨k, rfl⟩ : ∃ k, n = k + 1 := ⟨n - 1, by omega⟩
  have hentries : (empty (k + 1)).entries.toList = endOfChain :: List.replicate k free := by
    simp [empty, List.replicate_succ]
  rw [freeCount, ← Array.countP_toList, hentries, List.countP_cons, List.countP_replicate]
  simp [free, endOfChain]

end AllocationTable

/-! ## 2. The empty volume -/

namespace Volume

variable {H : Type} {d : H} {sb : Superblock} {n : Nat}

/-- A volume without files. -/
def blank (d : H) (sb : Superblock) : Volume H :=
  ⟨d, sb, AllocationTable.empty sb.dataBlocks.toNat, Directory.empty, OpenFiles.empty⟩

@[simp] theorem get_empty (s : Slot) : Directory.empty.get s = Entry.free := by
  simp [Directory.empty, Directory.get]

/-- **An empty volume is intact,** and nobody owns a block. -/
theorem intact_blank (hl : Superblock.forBlockCount? n = some sb) :
    (blank d sb).Intact fun _ => [] where
  layout := ⟨n, hl⟩
  size_eq := AllocationTable.size_empty _
  free_eq s _ := get_empty s
  validName s hs := by
    rw [blank, get_empty] at hs
    cases hs
  bound hf := by
    rw [blank, OpenFiles.get?_empty] at hf
    cases hf
  allotment := by
    refine ⟨fun s => ?_, fun hb => absurd hb List.not_mem_nil⟩
    rw [blank, get_empty]
    exact .done
  length_eq s := by
    rw [blank, get_empty]
    rfl

theorem not_orphan_blank (b : Link) : ¬ (blank d sb).Orphan b := by
  intro hq
  rcases hq with ⟨hu, -⟩
  rw [blank, AllocationTable.link?_empty] at hu
  cases hu

/-- All data blocks of an empty volume are free but the reserved one. -/
theorem freeCount_blank (h : Superblock.forBlockCount? n = some sb) :
    (blank d sb).table.freeCount + (blank d sb).blocksNeeded + 1 = sb.dataBlocks.toNat := by
  have hneeded : (blank d sb).blocksNeeded = 0 := by
    rw [(intact_blank h).blocksNeeded_eq]
    exact Finset.sum_const_zero
  have hpos : 0 < sb.dataBlocks.toNat := (Superblock.laidOut_of_forBlockCount? h).geometry.data_pos
  rw [hneeded]
  exact AllocationTable.freeCount_empty hpos

end Volume

/-! ## 3. On a device -/

/-- What a device holds that was formatted and not written since. -/
structure Blank (st : Storage) (sb : Superblock) : Prop where
  carries : Carries st sb
  flushed : Flushed st sb (AllocationTable.empty sb.dataBlocks.toNat) Directory.empty

section OnDevice

variable {W H : Type} [BlockDevice W H] [LawfulBlockDevice W H] {d : H} {w : W} {sb : Superblock}

theorem Volume.blank_of_format {w' : W} (hw : (storage d w).whole)
    (h : Volume.format d w = .ok sb w') : Blank (storage d w') sb := by
  obtain ⟨hc, hf, -⟩ := (ends_iff.mp (Volume.format_ends d hw)).1 sb w' h
  exact ⟨hc, hf⟩

theorem Volume.load_of_blank (h : Blank (storage d w) sb) : Ends (Volume.load d) w
    (fun v w' => v = Volume.blank d sb ∧ Answered d w w' (storage d w))
    (fun _ _ => ¬ NeverFails d w) := by
  refine Volume.load_of_flushed h.carries h.flushed (AllocationTable.size_empty _) fun s => .inl ?_
  exact Volume.get_empty s

/-- **What is mounted from a formatted device is the empty volume.** -/
theorem FileSystem.mounted_of_blank {fs fs' : FileSystem W H} (h : Blank (storage d fs.world) sb)
    (hm : mount d fs = .ok () fs') : fs'.mounted = some (Volume.blank d sb) := by
  obtain ⟨v, hl, hv⟩ := load_of_mount hm
  obtain ⟨rfl, -⟩ := (ends_iff.mp (Volume.load_of_blank h)).1 v _ hl
  exact hv

/-- **Any metadata can be mounted** on a device that never fails, as long as the layout is that of
    the device and the entries fit their records. No chain is looked at. -/
theorem FileSystem.exists_mount_of_flushed {t : AllocationTable} {root : Directory}
    (hc : Carries (storage d w) sb) (hf : Flushed (storage d w) sb t root)
    (ht : t.size = sb.dataBlocks.toNat) (hr : ∀ s, (root.get s).Storable) (hn : NeverFails d w) :
    ∃ w', mount d (ofWorld w) = .ok () (ofMounted ⟨⟨d, sb, t, root, OpenFiles.empty⟩, w'⟩) ∧
      Answered d w w' (storage d w) := by
  obtain ⟨v, w', hl, rfl, ha⟩ :=
    (Volume.load_of_flushed hc hf ht hr).exists_ok fun _ _ hfail => hfail hn
  exact ⟨w', mount_of_load hl, ha⟩

/-- **Whatever carries a layout can be mounted** on a device that never fails, if its directory can be
    read. -/
theorem FileSystem.exists_mount {root : Directory} (hc : Carries (storage d w) sb)
    (hr : Directory.decode ((storage d w).block sb.directoryBlock.toNat) = .ok root)
    (hn : NeverFails d w) : ∃ fs, mount d (ofWorld w) = .ok () fs := by
  obtain ⟨v, w', hl, -⟩ :=
    (Volume.load_ends d w).exists_ok fun _ _ hfail => hfail.2 sb root hc hr hn
  exact ⟨_, mount_of_load hl⟩

/-- On a device that never fails a formatted volume can be mounted. -/
theorem FileSystem.exists_mount_of_blank (h : Blank (storage d w) sb) (hn : NeverFails d w) :
    ∃ w', mount d (ofWorld w) = .ok () (ofMounted ⟨Volume.blank d sb, w'⟩) ∧
      Answered d w w' (storage d w) :=
  exists_mount_of_flushed h.carries h.flushed (AllocationTable.size_empty _)
    (fun s => .inl (Volume.get_empty s)) hn

end OnDevice

/-! ## 4. In memory -/

/-- A device in memory of `n` blocks after it was formatted. -/
def Memory.formatted (n : Nat) : Memory := stateAfter (Volume.format ()) { blockCount := n }

/-- A device in memory of `n` blocks, formatted and mounted. -/
def FileSystem.fresh (n : Nat) : FileSystem Memory Unit :=
  stateAfter (mount ()) (ofWorld (Memory.formatted n))

/-- **A device in memory whose size has a layout can be formatted and mounted.** -/
theorem FileSystem.fresh_spec {n : Nat} (h : (Superblock.forBlockCount? n).isSome) :
    ∃ sb w, Volume.format () ({ blockCount := n } : Memory) = .ok sb (Memory.formatted n) ∧
      mount () (ofWorld (Memory.formatted n)) = .ok () (fresh n) ∧
      fresh n = ofMounted ⟨Volume.blank () sb, w⟩ ∧ NeverFails () w := by
  have hn : NeverFails () ({ blockCount := n } : Memory) := Memory.neverFails rfl
  obtain ⟨sb, w, hf⟩ := Volume.exists_format (d := ()) (w := ({ blockCount := n } : Memory)) rfl rfl h hn
  obtain ⟨hc, hfl, -, hnf⟩ := (ends_iff.mp (Volume.format_ends () rfl)).1 sb w hf
  obtain ⟨w', hm, ha⟩ := exists_mount_of_blank ⟨hc, hfl⟩ (hnf hn)
  have hw : Memory.formatted n = w := by rw [Memory.formatted, stateAfter, hf]
  have hfs : fresh n = ofMounted ⟨Volume.blank () sb, w'⟩ := by rw [fresh, stateAfter, hw, hm]
  rw [hw, hfs]
  exact ⟨sb, w', hf, hm, rfl, ha.neverFails (hnf hn)⟩

theorem FileSystem.mount_formatted {n : Nat} (h : (Superblock.forBlockCount? n).isSome) :
    mount () (ofWorld (Memory.formatted n)) = .ok () (fresh n) := by
  obtain ⟨sb, w, -, hm, -⟩ := fresh_spec h
  exact hm

/-- A device in memory loses nothing. -/
theorem Memory.whole_storage (m : Memory) : (LawfulBlockDevice.storage () m).whole := rfl

/-- The same mount point after faults were set on the device. -/
def FileSystem.withFaults (fs : FileSystem Memory Unit) (faults : Faults) :
    FileSystem Memory Unit := { fs with world := { fs.world with faults } }

/-- Faults do not change what a device holds. -/
theorem Reachable.withFaults {fs₀ fs : FileSystem Memory Unit} (h : Reachable fs₀ fs)
    (faults : Faults) : Reachable fs₀ (fs.withFaults faults) := h.elsewhere fun _ _ => rfl

end FlatVolume
