import FlatVolume.Proofs.Formatted
import FlatVolume.Proofs.Landing
import FlatVolume.Proofs.Steps

/-!
# Any volume on its device

A volume whose table is corrupt is still a volume of its device: no operation writes to block 0, so
the device carries the layout that was mounted, and every data block is in range.

* `Steady m m'` is what every operation does to a tidy volume as long as it stays mounted
  (`Operation.run_steady`), and `Moored d v w` is what a run keeps with it (`Reachable.moored`);
* where no call fails, a moored volume can be unmounted (`FileSystem.exists_unmount`) and is mounted
  again as it was (`FileSystem.exists_remount`), but for one thing: a record has four bytes for a
  size, so a directory is read back as `Directory.wrapped`.
-/

namespace FlatVolume

open AllocationTable FlatVolume.Computation
open FileSystem (ofMounted ofWorld)
open LawfulBlockDevice (storage)

variable {W H : Type} [BlockDevice W H] [LawfulBlockDevice W H]

/-! ## 1. One step -/

namespace Mounted

variable {m m' : Mounted W H}

/-- **The same layout on the same device,** and block 0 was not written. -/
structure Steady (m m' : Mounted W H) : Prop where
  device_eq : m'.volume.device = m.volume.device
  superblock_eq : m'.volume.superblock = m.volume.superblock
  touched : m.storage.whole → Touched (0 < ·) m.storage m'.storage

theorem Steady.refl (m : Mounted W H) : Steady m m := ⟨rfl, rfl, fun _ => .refl _ _⟩

/-- Nothing was written. -/
theorem Steady.of_storage_eq {v : Volume H} {w : W} (hd : v.device = m.volume.device)
    (hs : v.superblock = m.volume.superblock)
    (hw : LawfulBlockDevice.storage m.volume.device w = m.storage) : Steady m ⟨v, w⟩ :=
  ⟨hd, hs, touched_of_storage_eq hd hw⟩

theorem Steady.of_failed {e : VolumeError} (h : BlockFailed m e m') : Steady m m' := by
  obtain ⟨v, w⟩ := m'
  obtain rfl : v = m.volume := h.volume_eq
  exact .of_storage_eq rfl rfl h.storage_eq

/-- Data blocks lie behind block 0. -/
theorem Entered.steady {fd k : Nat} {f : OpenFile} {slot : Slot} {old new : List Link}
    {data : ByteArray} (h : Entered m m' fd f slot old new data k) (ht : m.volume.Tidy) :
    Steady m m' := by
  obtain ⟨n, hl⟩ := ht.layout
  have hd := (Superblock.laidOut_of_forBlockCount? hl).dataStart_eq
  refine ⟨h.device_eq, h.superblock_eq, fun _ => h.touched.mono fun i hi => ?_⟩
  obtain ⟨b, -, rfl⟩ := hi
  simp only [Superblock.dataBlock]
  omega

theorem read_steady (ht : m.volume.Tidy) (fd count : Nat) :
    Ends (read fd count) m (fun _ m' => Steady m m') fun _ m' => Steady m m' := by
  cases hr : m.volume.resolve fd with
  | error e => exact Ends.of_error (read_of_unresolved hr count) (.refl m)
  | ok p =>
    refine (read_ends_of_tidy ht hr rfl).mono ?_ ?_
    · intro bytes m' hok
      rcases hok with ⟨⟨w, rfl, ha⟩, -⟩
      exact .of_storage_eq rfl rfl ha.storage_eq
    · intro e m' herr
      rcases herr with ⟨-, ⟨-, -, w, rfl, ha⟩ | hf⟩
      · exact .of_storage_eq rfl rfl ha.storage_eq
      · exact .of_failed hf

theorem write_steady (ht : m.volume.Tidy) (fd : Nat) (data : ByteArray) :
    Ends (write fd data) m (fun _ m' => Steady m m') fun _ m' => Steady m m' := by
  cases hr : m.volume.resolve fd with
  | error e => exact Ends.of_error (write_of_unresolved hr data) (.refl m)
  | ok p =>
    rcases Nat.eq_zero_or_pos data.size with h0 | hpos
    · exact Ends.of_ok (write_of_size_eq_zero hr h0) (.refl m)
    · by_cases hc : ∃ blocks, Chain m.volume.table (m.volume.root.get p.2).firstBlock blocks
      · obtain ⟨old, hc⟩ := hc
        refine (write_ends_of_chain ht hr hc hpos).mono ?_ ?_
        · intro k m' hok
          rcases hok with ⟨new, he, -⟩
          exact he.steady ht
        · intro e m' herr
          rcases herr with ⟨new, k, he, -⟩
          exact he.steady ht
      · obtain ⟨b, hw⟩ := write_of_no_chain hr hpos hc
        exact Ends.of_error hw (.refl m)

theorem truncate_steady (fd size : Nat) (m : Mounted W H) :
    Ends (truncate fd size) m (fun _ m' => Steady m m') fun _ m' => Steady m m' := by
  have hcut : ∀ {m' : Mounted W H}, (m' = m ∨ ∃ f slot first t, m.volume.resolve fd = .ok (f, slot) ∧
      size ≤ (m.volume.root.get slot).size ∧ t.size = m.volume.table.size ∧
      m' = m.cutDown slot f.name size first t) → Steady m m' := by
    intro m' hq
    rcases hq with rfl | ⟨f, slot, first, t, -, -, -, rfl⟩
    · exact .refl m'
    · exact .of_storage_eq rfl rfl rfl
  exact (truncate_cuts fd size m).mono (fun _ _ => hcut) fun _ _ => hcut

end Mounted

open Mounted

/-- **Every call on the files keeps the layout,** however it ends. -/
theorem FileCall.run_steady (call : FileCall) {m : Mounted W H} (ht : m.volume.Tidy) :
    Ends call.run (ofMounted m) (fun _ fs => ∃ m', fs = ofMounted m' ∧ Steady m m')
      (fun _ fs => ∃ m', fs = ofMounted m' ∧ Steady m m') := by
  have hsame : ∀ {fs : FileSystem W H}, fs = ofMounted m → ∃ m', fs = ofMounted m' ∧ Steady m m' :=
    fun h => ⟨m, h, .refl m⟩
  have hmemory : ∀ v : Volume H, v.device = m.volume.device →
      v.superblock = m.volume.superblock →
      ∃ m', ofMounted { m with volume := v } = ofMounted m' ∧ Steady m m' :=
    fun v hd hs => ⟨_, rfl, .of_storage_eq hd hs rfl⟩
  have hvolume : ∀ {α : Type} {act : MountedM W H α},
      Ends act m (fun _ m' => Steady m m') (fun _ m' => Steady m m') →
      Ends (FileSystem.onVolume act) (ofMounted m)
        (fun _ fs => ∃ m', fs = ofMounted m' ∧ Steady m m')
        (fun _ fs => ∃ m', fs = ofMounted m' ∧ Steady m m') :=
    fun h => FileSystem.onVolume_ends
      (h.mono (fun _ m' h => ⟨m', rfl, h⟩) fun _ m' h => ⟨m', rfl, h⟩)
  cases call with
  | create name =>
    refine Ends.map ((FileSystem.create_ends m name).mono ?_ fun _ _ h => hsame h.1)
    intro _ fs hok
    rcases hok with ⟨slot, -, -, -, rfl⟩
    exact hmemory _ rfl rfl
  | delete name =>
    refine Ends.map ((FileSystem.delete_ends m name).mono ?_ ?_)
    · intro _ fs hok
      rcases hok with ⟨slot, n, table, -, -, -, rfl⟩
      exact hmemory _ rfl rfl
    · intro e fs herr
      rcases herr with h | ⟨slot, table, -, -, -, rfl⟩
      · exact hsame h.1
      · exact hmemory _ rfl rfl
  | list => exact Ends.map ((FileSystem.query_ends m _).mono (fun _ _ h => hsame h.2) fun _ _ h => hsame h.2)
  | openFile name =>
    refine Ends.map ((FileSystem.openFile_ends m name).mono ?_ fun _ _ h => hsame h.1)
    intro fd fs hok
    rcases hok with ⟨slot, files, -, -, rfl⟩
    exact hmemory _ rfl rfl
  | close fd =>
    refine Ends.map ((FileSystem.close_ends m fd).mono ?_ fun _ _ h => hsame h.1)
    intro _ fs hok
    rcases hok with ⟨files, -, rfl⟩
    exact hmemory _ rfl rfl
  | stat fd => exact Ends.map ((FileSystem.stat_ends m fd).mono (fun _ _ => hsame) fun _ _ h => hsame h.1)
  | tell fd => exact Ends.map ((FileSystem.tell_ends m fd).mono (fun _ _ => hsame) fun _ _ h => hsame h.1)
  | seek fd offset =>
    refine Ends.map ((FileSystem.seek_ends m fd offset).mono ?_ fun _ _ h => hsame h.1)
    intro _ fs hok
    rcases hok with ⟨f, slot, -, -, rfl⟩
    exact hmemory _ rfl rfl
  | read fd count => exact Ends.map (hvolume (read_steady ht fd count))
  | write fd data => exact Ends.map (hvolume (write_steady ht fd data))
  | truncate fd size => exact Ends.map (hvolume (truncate_steady fd size m))

/-- **Every operation keeps the layout,** however it ends, as long as the volume stays mounted. -/
theorem Operation.run_steady (op : Operation) {m : Mounted W H} (ht : m.volume.Tidy) :
    ∀ v, (stateAfter op.run (ofMounted m)).mounted = some v →
      Steady m ⟨v, (stateAfter op.run (ofMounted m)).world⟩ := by
  have hmounted : ∀ {m' : Mounted W H}, Steady m m' →
      ∀ v, (ofMounted m').mounted = some v → Steady m ⟨v, (ofMounted m').world⟩ := by
    intro m' hs v hv
    rcases hv with ⟨⟩
    exact hs
  have hcalled : ∀ {fs : FileSystem W H}, (∃ m', fs = ofMounted m' ∧ Steady m m') →
      ∀ v, fs.mounted = some v → Steady m ⟨v, fs.world⟩ := by
    intro fs hq
    obtain ⟨m', rfl, hs⟩ := hq
    exact hmounted hs
  refine Ends.stateAfter (P := fun fs : FileSystem W H =>
    ∀ v, fs.mounted = some v → Steady m ⟨v, fs.world⟩) ?_
  cases op with
  | file call => exact Ends.map ((call.run_steady ht).mono (fun _ _ => hcalled) fun _ _ => hcalled)
  | info =>
    exact Ends.map ((FileSystem.query_ends m _).mono (fun _ _ h => hcalled ⟨m, h.2, .refl m⟩)
      fun _ _ h => hcalled ⟨m, h.2, .refl m⟩)
  | check =>
    exact (FileSystem.query_ends m _).mono (fun _ _ h => hcalled ⟨m, h.2, .refl m⟩)
      fun _ _ h => hcalled ⟨m, h.2, .refl m⟩
  | unmount =>
    obtain ⟨n, hl⟩ := ht.layout
    have hlaid := Superblock.laidOut_of_forBlockCount? hl
    refine (FileSystem.unmount_ends m).mono ?_ ?_
    · intro _ fs hok
      rcases hok with ⟨w, w', -, -, rfl⟩
      exact nofun
    · intro e fs herr
      rcases herr with ⟨w, c, hf, -, rfl⟩ | ⟨w, w', -, -, rfl⟩
      · refine hmounted ⟨rfl, rfl, fun hw => ?_⟩
        have hflush := flush_ends m.volume.device hlaid m.volume.table m.volume.root hw
        exact ((ends_iff.mp hflush).2 c w hf).1.mono fun i hi => hi.1
      · exact nofun

/-! ## 2. Runs -/

/-- **A volume on the device `d`,** which carries its layout and loses nothing. -/
structure Moored (d : H) (v : Volume H) (w : W) : Prop where
  device_eq : v.device = d
  carries : Carries (storage d w) v.superblock
  whole : (storage d w).whole

/-- What is mounted, if anything is, is moored to `d`. -/
def FileSystem.MooredTo (d : H) (fs : FileSystem W H) : Prop :=
  ∀ v, fs.mounted = some v → Moored d v fs.world

theorem Moored.steady {d : H} {m m' : Mounted W H} (h : Moored d m.volume m.world)
    (hs : Steady m m') : Moored d m'.volume m'.world := by
  have hm : m.storage = storage d m.world := by rw [Mounted.storage, h.device_eq]
  have hm' : m'.storage = storage d m'.world := by rw [Mounted.storage, hs.device_eq, h.device_eq]
  have ht := hs.touched (hm ▸ h.whole)
  rw [hm, hm'] at ht
  refine ⟨hs.device_eq.trans h.device_eq, ?_, ?_⟩
  · rw [hs.superblock_eq]
    exact h.carries.touched ht (Nat.lt_irrefl 0)
  · rw [ht.shape.whole_eq, h.whole]

/-- Every data block of a moored volume is a block of its device. -/
theorem Moored.inRange {d : H} {m : Mounted W H} (h : Moored d m.volume m.world)
    (ht : m.volume.Tidy) : m.InRange := by
  intro b hb
  rw [ht.size_eq] at hb
  rw [Mounted.storage, h.device_eq]
  exact (h.carries.laidOut.dataBlock_lt hb).2

/-- **Every volume that is reached is moored.** -/
theorem Reachable.moored {d : H} {fs₀ fs : FileSystem W H} (h : Reachable fs₀ fs)
    (ht : fs₀.Mounting Volume.Tidy) (h₀ : fs₀.MooredTo d) : fs.MooredTo d := by
  induction h with
  | start => exact h₀
  | @step fs hr op ih =>
    obtain ⟨_ | v, w⟩ := fs
    · rw [stateAfter, op.run_of_none w]
      exact ih
    · intro v' hv'
      have hs := op.run_steady (m := ⟨v, w⟩) (hr.tidy ht v rfl) v' hv'
      exact (ih v rfl : Moored d (⟨v, w⟩ : Mounted W H).volume w).steady hs
  | @elsewhere fs _ w hw ih =>
    intro v hv
    have h := ih v hv
    have hst : storage d w = storage d fs.world := h.device_eq ▸ hw v hv
    exact ⟨h.device_eq, hst ▸ h.carries, hst ▸ h.whole⟩

/-- What was mounted from a device that is whole is moored to it. -/
theorem FileSystem.moored_of_mount {d : H} {fs fs₀ : FileSystem W H} (h : mount d fs = .ok () fs₀)
    (hw : (storage d fs.world).whole) : fs₀.MooredTo d := by
  intro v hv
  obtain ⟨hd, hc, hst⟩ := carries_of_mount h hv
  exact ⟨hd, hc, hst ▸ hw⟩

/-! ## 3. Unmounting and mounting -/

/-- The entry that its record says. -/
def Entry.wrapped (e : Entry) : Entry := { e with size := e.size % UInt32.size }

theorem Entry.toRecord_wrapped (e : Entry) : e.wrapped.toRecord = e.toRecord := by
  have hsize : UInt32.ofNat (e.size % UInt32.size) = UInt32.ofNat e.size := by
    rw [← UInt32.toNat_inj, UInt32.toNat_ofNat', UInt32.toNat_ofNat']
    exact Nat.mod_mod _ _
  simp only [wrapped, toRecord, hsize]

/-- The directory that its block says. -/
def Directory.wrapped (d : Directory) : Directory := ⟨d.slots.map Entry.wrapped⟩

theorem Directory.get_wrapped (d : Directory) (s : Slot) : d.wrapped.get s = (d.get s).wrapped := by
  simp [wrapped, get]

/-- Names are not cut. -/
theorem Directory.find?_wrapped (d : Directory) (name : String) :
    d.wrapped.find? name = d.find? name := by
  refine find?_congr fun s => ?_
  rw [get_wrapped]
  exact holds_congr rfl

theorem Directory.encode_wrapped (d : Directory) : d.wrapped.encode = d.encode := by
  have hrecords : d.wrapped.slots.toList.map (fun e => e.toRecord.encode) =
      d.slots.toList.map fun e => e.toRecord.encode := by
    rw [wrapped, Vector.toList_map, List.map_map]
    exact List.map_congr_left fun e _ => congrArg Record.encode e.toRecord_wrapped
  rw [encode, encode, hrecords]

/-- **Every entry of a tidy volume can be read back from its record,** but for its size. -/
theorem Volume.Tidy.storable_wrapped {H : Type} {v : Volume H} (h : v.Tidy) (s : Slot) :
    (v.root.wrapped.get s).Storable := by
  rw [Directory.get_wrapped]
  cases hf : (v.root.get s).isFree with
  | true =>
    rw [h.free_eq s hf]
    exact .inl rfl
  | false => exact .inr ⟨h.validName s hf, Nat.mod_lt _ (by decide)⟩

namespace FileSystem

/-- **On a device that never fails unmounting succeeds,** and table and directory stand on it. -/
theorem exists_unmount {d : H} {fs : FileSystem W H} {v : Volume H} (hv : fs.mounted = some v)
    (h : Moored d v fs.world) (hn : NeverFails d fs.world) :
    ∃ w, unmount fs = .ok () (ofWorld w) ∧ Carries (storage d w) v.superblock ∧
      Flushed (storage d w) v.superblock v.table v.root ∧ NeverFails d w := by
  obtain ⟨_, w⟩ := fs
  cases hv
  obtain ⟨rfl, hc, hw⟩ := h
  obtain ⟨hok, herr⟩ := ends_iff.mp (flush_ends v.device hc.laidOut v.table v.root hw)
  have hends := unmount_ends (⟨v, w⟩ : Mounted W H)
  unfold Ends at hends
  cases hu : unmount (⟨some v, w⟩ : FileSystem W H) with
  | ok u fs =>
    rw [show unmount (ofMounted ⟨v, w⟩) = _ from hu] at hends
    obtain ⟨w₁, w₂, hf, hcl, rfl⟩ := hends
    obtain ⟨ht, hflushed, hnf⟩ := hok () w₁ hf
    have hclosed := (ends_iff.mp (closeDevice_ends v.device w₁)).1 () w₂ hcl
    refine ⟨w₂, rfl, ?_, ?_, hclosed.neverFails (hnf hn)⟩
    · rw [hclosed.storage_eq]
      exact hc.touched ht (not_isMetadata_zero _)
    · rw [hclosed.storage_eq]
      exact hflushed
  | error e fs =>
    rw [show unmount (ofMounted ⟨v, w⟩) = _ from hu] at hends
    rcases hends with ⟨w₁, c, hf, -, -⟩ | ⟨w₁, w₂, hf, hcl, -⟩
    · exact absurd hn ((herr c w₁ hf).2 rfl)
    · have hn₁ := (hok () w₁ hf).2.2 hn
      exact absurd hn₁ (((ends_iff.mp (closeDevice_ends v.device w₁)).2 e w₂ hcl).2.fails trivial)

/-- **On a device that never fails a volume can be unmounted and mounted again.** It is what it was,
    with no file open, and with the sizes that four bytes can hold. -/
theorem exists_remount {d : H} {fs : FileSystem W H} {v : Volume H} (hv : fs.mounted = some v)
    (ht : v.Tidy) (h : Moored d v fs.world) (hn : NeverFails d fs.world) :
    ∃ w w', unmount fs = .ok () (ofWorld w) ∧ mount d (ofWorld w) = .ok () (ofMounted
      ⟨⟨d, v.superblock, v.table, v.root.wrapped, OpenFiles.empty⟩, w'⟩) := by
  obtain ⟨w, hu, hc, hf, hn'⟩ := exists_unmount hv h hn
  have hflushed : Flushed (storage d w) v.superblock v.table v.root.wrapped :=
    ⟨hf.table_eq, hf.root_eq.trans v.root.encode_wrapped.symm⟩
  obtain ⟨w', hm, -⟩ := exists_mount_of_flushed hc hflushed ht.size_eq ht.storable_wrapped hn'
  exact ⟨w, w', hu, hm⟩

end FileSystem

end FlatVolume
