import FlatVolume.Proofs.Consistency
import FlatVolume.Proofs.FileBytes
import FlatVolume.Proofs.Mooring

/-!
# What was unmounted is mounted again

Table and directory are in memory while a volume is mounted; file data is on the device. When
unmounting succeeds, everything is on the device, and mounting it again gives the same volume
(`FileSystem.remount`).

`Anchored` is the invariant of a run: the volume is intact, and block 0 of its device carries the
layout that the volume was mounted with. Sizes and names of an intact volume fit a record
(`Volume.Intact.storable`), so nothing is cut off when the directory is written. The device has to
be whole, as every device in memory is and every image when it is opened
(`Image.whole_of_open?`).
-/

namespace FlatVolume

open AllocationTable FlatVolume.Computation Mounted
open FileSystem (ofMounted)
open LawfulBlockDevice (storage)

/-! ## 1. What fits a record -/

/-- **Every entry of an intact volume can be written to a record and read back:** a file has at most
    as many blocks as there are entries in the table, so its size takes no more than 32 bits. -/
theorem Volume.Intact.storable {H : Type} {v : Volume H} {own : Slot → List Link}
    (h : v.Intact own) (s : Slot) : (v.root.get s).Storable := by
  cases hf : (v.root.get s).isFree with
  | true => exact .inl (h.free_eq s hf)
  | false =>
    refine .inr ⟨h.validName s hf, ?_⟩
    have hlen := (h.allotment.chain s).length_le_size
    have hsize := h.table_size_le
    have hge := ceilDiv_mul_ge (v.root.get s).size
    rw [← h.length_eq] at hge
    simp only [blockSize] at hge
    simp only [UInt32.size]
    omega

/-- An intact volume when all its files were closed. -/
theorem Volume.Intact.withoutFiles {H : Type} {v : Volume H} {own : Slot → List Link}
    (h : v.Intact own) : Volume.Intact { v with files := OpenFiles.empty } own := by
  refine ⟨h.toTidy.withFiles fun hf => ?_, h.allotment, h.length_eq⟩
  rw [OpenFiles.get?_empty] at hf
  cases hf

variable {W H : Type} [BlockDevice W H] [LawfulBlockDevice W H]

/-! ## 2. The invariant -/

/-- **An intact volume on the device `d`,** which carries its layout and loses nothing. -/
structure Anchored (d : H) (v : Volume H) (w : W) : Prop where
  device_eq : v.device = d
  intact : v.IsIntact
  carries : Carries (storage d w) v.superblock
  whole : (storage d w).whole

/-- What is mounted, if anything is, is anchored on `d`. -/
def FileSystem.AnchoredOn (d : H) (fs : FileSystem W H) : Prop :=
  ∀ v, fs.mounted = some v → Anchored d v fs.world

theorem Anchored.moored {d : H} {v : Volume H} {w : W} (h : Anchored d v w) : Moored d v w :=
  ⟨h.device_eq, h.carries, h.whole⟩

/-- A step of an operation leaves a volume anchored. -/
theorem Anchored.stepped {d : H} {m m' : Mounted W H} {own : Slot → List Link}
    (h : Anchored d m.volume m.world) (hi : m.volume.Intact own) (hs : Stepped m m' own) :
    Anchored d m'.volume m'.world := by
  obtain ⟨slot, new, hr⟩ := hs.refiled
  have hsteady : Steady m m' := ⟨hr.device_eq, hr.superblock_eq, hs.touched⟩
  have hm := h.moored.steady hsteady
  exact ⟨hm.device_eq, hs.intact hi, hm.carries, hm.whole⟩

/-- **Every volume that is reached is anchored.** -/
theorem Reachable.anchored {d : H} {fs₀ fs : FileSystem W H} (h : Reachable fs₀ fs)
    (h₀ : fs₀.AnchoredOn d) : fs.AnchoredOn d := by
  intro v hv
  have hi := h.intact (fun v hv => (h₀ v hv).intact) v hv
  have hm := h.moored (fun v hv => (h₀ v hv).intact.choose_spec.toTidy)
    (fun v hv => (h₀ v hv).moored) v hv
  exact ⟨hm.device_eq, hi, hm.carries, hm.whole⟩

/-- What was mounted and checked is anchored, if its device is whole. -/
theorem FileSystem.anchored_of_check {d : H} {fs fs₀ fs₁ : FileSystem W H}
    (hm : mount d fs = .ok () fs₀) (hc : check fs₀ = .ok () fs₁)
    (hw : (storage d fs.world).whole) : fs₁.AnchoredOn d := by
  intro v hv
  have hi := intact_of_check hm hc v hv
  obtain ⟨rfl, -⟩ := check_eq_ok_iff.mp hc
  obtain ⟨hd, hcarries, hst⟩ := carries_of_mount hm hv
  exact ⟨hd, hi, hcarries, hst ▸ hw⟩

/-- Mounting from a path is mounting the image it leads to. -/
theorem FileSystem.mount_of_mountImage {path : String} {fs fs₀ : FileSystem Host Image}
    (h : mountImage path fs = .ok () fs₀) :
    ∃ i, Image.open? fs.world path = .ok i ∧ mount i fs = .ok () fs₀ := by
  unfold mountImage at h
  split at h
  · cases h
  · cases hi : Image.open? fs.world path with
    | error e =>
      rw [hi] at h
      cases h
    | ok i =>
      rw [hi] at h
      exact ⟨i, rfl, h⟩

/-! ## 3. Unmounting and mounting -/

/-- Writing metadata leaves a volume anchored. -/
theorem Anchored.touched {d : H} {v : Volume H} {w w' : W} (h : Anchored d v w)
    (ht : Touched (IsMetadata v.superblock) (storage d w) (storage d w')) : Anchored d v w' :=
  ⟨h.device_eq, h.intact, h.carries.touched ht (not_isMetadata_zero _),
    ht.shape.whole_eq.trans h.whole⟩

/-- Flushing a volume touches its metadata only, and where it succeeds it can be loaded. -/
theorem Anchored.flush_ends {d : H} {v : Volume H} {w : W} (h : Anchored d v w) : Ends v.flush w
    (fun _ w' => Touched (IsMetadata v.superblock) (storage d w) (storage d w') ∧
      Flushed (storage d w') v.superblock v.table v.root)
    (fun _ w' => Touched (IsMetadata v.superblock) (storage d w) (storage d w')) := by
  obtain rfl := h.device_eq
  refine (FlatVolume.flush_ends v.device h.carries.laidOut v.table v.root h.whole).mono ?_ ?_
  · intro _ w' hok
    exact ⟨hok.1, hok.2.1⟩
  · intro e w' herr
    exact herr.1

/-- What a flush that succeeded leaves is anchored and can be loaded, and file data is as it was. -/
theorem Anchored.flushed {d : H} {v : Volume H} {w w' : W} (h : Anchored d v w)
    (hf : v.flush w = .ok () w') : Anchored d v w' ∧
      Flushed (storage d w') v.superblock v.table v.root ∧
      ∀ b, (storage d w').block (v.superblock.dataBlock b) =
        (storage d w).block (v.superblock.dataBlock b) := by
  obtain ⟨ht, hflushed⟩ := (ends_iff.mp h.flush_ends).1 () w' hf
  exact ⟨h.touched ht, hflushed,
    fun b => ht.block_eq _ (not_isMetadata_dataBlock h.carries.laidOut b)⟩

/-- **`m'` is what `m` was,** with no file open: the same superblock, table, directory and bytes,
    and the same answers about the volume as a whole. -/
structure Mounted.Restored (m m' : Mounted W H) : Prop where
  superblock_eq : m'.volume.superblock = m.volume.superblock
  table_eq : m'.volume.table = m.volume.table
  get_eq : ∀ s, m'.volume.root.get s = m.volume.root.get s
  bytes_eq : ∀ s, m'.bytesOf (m'.volume.root.get s) = m.bytesOf (m.volume.root.get s)
  closed : ∀ fd, m'.volume.files.get? fd = none
  list_eq : FileSystem.list (ofMounted m') = .ok m.volume.root.files (ofMounted m')
  info_eq : FileSystem.info (ofMounted m') = .ok m.volume.info (ofMounted m')
  check_eq : FileSystem.check (ofMounted m') = .ok () (ofMounted m')

/-- A volume that was loaded from where another was flushed restores it. -/
theorem restored_of_intact {m : Mounted W H} {w : W} (hi : m.volume.IsIntact)
    (h : ∀ b, (storage m.volume.device w).block (m.volume.superblock.dataBlock b) =
      m.storage.block (m.volume.superblock.dataBlock b)) :
    m.Restored ⟨{ m.volume with files := OpenFiles.empty }, w⟩ where
  superblock_eq := rfl
  table_eq := rfl
  get_eq _ := rfl
  bytes_eq _ := bytesOf_congr rfl rfl fun b _ => h b
  closed := OpenFiles.get?_empty
  list_eq := rfl
  info_eq := rfl
  check_eq := by
    have hc : m.volume.check = .ok () := hi.choose_spec.toTidy.check_eq_ok_iff.mpr hi
    exact FileSystem.check_eq_ok_iff.mpr ⟨rfl, _, rfl, hc⟩

namespace FileSystem

/-- **Persistence.** A run starts with a mount after which `check` finds nothing wrong, and ends
    with an unmount that succeeds. Where the device is found as it was left and does not fail,
    mounting it again succeeds and restores the volume. -/
theorem remount {d : H} {fs fs₀ fs₁ fs₂ fs₃ : FileSystem W H} {v : Volume H} {w : W}
    (hm : mount d fs = .ok () fs₀) (hc : check fs₀ = .ok () fs₁)
    (hw : (storage d fs.world).whole) (hr : Reachable fs₁ fs₂) (hv : fs₂.mounted = some v)
    (hu : unmount fs₂ = .ok () fs₃) (hs : storage d w = storage d fs₃.world)
    (hn : NeverFails d w) : ∃ m', mount d (ofWorld w) = .ok () (ofMounted m') ∧
      Restored ⟨v, fs₂.world⟩ m' := by
  have ha := hr.anchored (anchored_of_check hm hc hw) v hv
  obtain ⟨mounted, w₂⟩ := fs₂
  cases hv
  obtain ⟨w₃, w₄, hflush, hclose, rfl⟩ := (ends_iff.mp (unmount_ends ⟨v, w₂⟩)).1 () fs₃ hu
  obtain ⟨ha₃, hflushed, hdata⟩ := ha.flushed hflush
  have hst : storage d w = storage d w₃ := by
    have hcl := (ends_iff.mp (closeDevice_ends v.device w₃)).1 () w₄ hclose
    have := hcl.storage_eq
    rw [ha₃.device_eq] at this
    exact hs.trans this
  obtain ⟨own, hi⟩ := ha₃.intact
  have hload := Volume.load_of_flushed (d := d) (w := w) (hst ▸ ha₃.carries) (hst ▸ hflushed)
    hi.size_eq hi.storable
  unfold Ends at hload
  cases hl : Volume.load d w with
  | error e w' =>
    rw [hl] at hload
    exact absurd hn hload
  | ok v' w' =>
    rw [hl] at hload
    obtain ⟨rfl, hans⟩ := hload
    refine ⟨⟨{ v with files := OpenFiles.empty }, w'⟩, ?_,
      restored_of_intact (m := ⟨v, w₂⟩) ha₃.intact ?_⟩
    · unfold mount ofWorld
      dsimp only
      rw [hl]
      rw [← ha₃.device_eq]
      rfl
    · intro b
      show (storage v.device w').block _ = (storage v.device w₂).block _
      rw [ha₃.device_eq, hans.storage_eq, hst, hdata b]

/-- On a device that never fails unmounting succeeds. -/
theorem unmount_of_neverFails {d : H} {fs : FileSystem W H} {v : Volume H}
    (hv : fs.mounted = some v) (h : Anchored d v fs.world) (hn : NeverFails d fs.world) :
    ∃ w', unmount fs = .ok () ⟨none, w'⟩ ∧ NeverFails d w' := by
  obtain ⟨w', hu, -, -, hn'⟩ := exists_unmount hv h.moored hn
  exact ⟨w', hu, hn'⟩

omit [LawfulBlockDevice W H] in
/-- Creating a file is no matter of the device. -/
theorem world_after_create (m : Mounted W H) (name : String) :
    (stateAfter (Operation.file (.create name)).run (ofMounted m)).world = m.world := by
  refine Ends.stateAfter (P := fun fs : FileSystem W H => fs.world = m.world) ?_
  refine Ends.map (Ends.map ((create_ends m name).mono ?_ ?_))
  · intro _ fs hok
    rcases hok with ⟨slot, -, -, -, rfl⟩
    rfl
  · intro e fs herr
    rcases herr with ⟨rfl, -⟩
    rfl

/-- In memory, with a file on the volume. -/
theorem remount_memory : ∃ v fs₃ m',
    (stateAfter (Operation.file (.create "a")).run (fresh 8)).mounted = some v ∧
    unmount (stateAfter (Operation.file (.create "a")).run (fresh 8)) = .ok () fs₃ ∧
    mount () (ofWorld fs₃.world) = .ok () (ofMounted m') ∧
    Restored ⟨v, (stateAfter (Operation.file (.create "a")).run (fresh 8)).world⟩ m' := by
  have hspec := fresh_spec (n := 8) (by decide)
  obtain ⟨sb, w, -, hm, hfs, hn⟩ := hspec
  have hc := check_fresh (n := 8) (by decide)
  have hr : Reachable (fresh 8) (stateAfter (Operation.file (.create "a")).run (fresh 8)) :=
    Reachable.start.step _
  have hmounted : (fresh 8).mounted = some (Volume.blank () sb) := by rw [hfs]; rfl
  have ht := tidy_of_mount hm _ hmounted
  obtain ⟨v, hv⟩ := (FileCall.create "a").exists_mounted_after hmounted ht
  have hworld : (stateAfter (Operation.file (.create "a")).run (fresh 8)).world = w := by
    rw [hfs, world_after_create]
  have hwhole := Memory.whole_storage (ofWorld (Memory.formatted 8) : FileSystem Memory Unit).world
  have ha := hr.anchored (anchored_of_check hm hc hwhole) v hv
  obtain ⟨w', hu, hn'⟩ := unmount_of_neverFails hv ha (hworld ▸ hn)
  obtain ⟨m', hmount, hrestored⟩ := remount hm hc hwhole hr hv hu rfl hn'
  exact ⟨v, _, m', hv, hu, hmount, hrestored⟩

end FileSystem

end FlatVolume
