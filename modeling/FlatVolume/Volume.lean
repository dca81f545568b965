import FlatVolume.Directory
import FlatVolume.OpenFiles
import FlatVolume.Table.Storage

/-!
# Mounted volumes

Mounting reads the superblock, the allocation table and the root directory into memory; they reach
the device again only when they are flushed, while file data is written through. This file fixes

* `Volume` -- what is in memory while a volume is mounted, the open files included;
* `Volume.load`, `Volume.flush`, `Volume.format` -- the three operations on whole volumes;
* `Volume.resolve`, `Volume.locate` -- from a descriptor to its file, and from a data block to the
  block of the device, the two lookups that every access to a file goes through;
* `Mounted` and `MountedM` -- a volume together with the world its device lives in, and the
  computations that change both.
-/

namespace FlatVolume

/-- Everything that lives as long as one mount. -/
structure Volume (H : Type) where
  device : H
  superblock : Superblock
  table : AllocationTable
  root : Directory
  files : OpenFiles

namespace Volume

variable {W H : Type}

/-! ## 1. Whole volumes -/

/-- Reads a volume: superblock, allocation table, directory, in this order. No file is open. -/
def load [BlockDevice W H] (device : H) : VolumeM W (Volume H) := do
  let superblock ← Superblock.load device
  let table ← AllocationTable.load device superblock
  let root ← Directory.load device superblock
  return { device, superblock, table, root, files := OpenFiles.empty }

/-- Writes the metadata back: the allocation table, then the directory, then a sync. -/
def flush [BlockDevice W H] (v : Volume H) : VolumeM W Unit := do
  v.table.flush v.device v.superblock
  v.root.flush v.device v.superblock
  syncDevice v.device

/-- Writes an empty volume onto a device, laid out for its block count. -/
def format [BlockDevice W H] (device : H) : VolumeM W Superblock := do
  if BlockDevice.blockBytes device (← get) ≠ blockSize then
    throw .invalidGeometry
  match Superblock.forBlockCount? (BlockDevice.blockCount device (← get)) with
  | none => throw .invalidGeometry
  | some superblock =>
    superblock.store device
    (AllocationTable.empty superblock.dataBlocks.toNat).flush device superblock
    Directory.empty.flush device superblock
    syncDevice device
    return superblock

/-! ## 2. Lookups -/

/-- What descriptor `fd` is bound to, and the slot of its file. -/
def resolve (v : Volume H) (fd : Nat) : Except VolumeError (OpenFile × Slot) :=
  match v.files.get fd with
  | .error e => .error e
  | .ok file =>
    match v.root.find? file.name with
    | some slot => .ok (file, slot)
    | none => .error (.fileNotFound file.name)

/-- The block of the device that holds data block `b`, if a chain may contain `b`. -/
def locate (v : Volume H) (b : Link) : Except VolumeError Nat :=
  if v.table.isDataBlock b then .ok (v.superblock.dataBlock b) else .error (.corruptChain b)

/-! ## 3. Geometry and usage -/

/-- The numbers a report shows. -/
structure Info where
  totalBlocks : Nat
  tableBlocks : Nat
  directoryBlock : Nat
  dataStart : Nat
  dataBlocks : Nat
  /-- Free entries of the allocation table. -/
  tableFree : Nat
  /-- Free slots of the directory. -/
  directoryFree : Nat
deriving DecidableEq, Repr

/-- Geometry and usage of a mounted volume. -/
def info (v : Volume H) : Info where
  totalBlocks := v.superblock.totalBlocks.toNat
  tableBlocks := v.superblock.tableBlocks.toNat
  directoryBlock := v.superblock.directoryBlock.toNat
  dataStart := v.superblock.dataStart.toNat
  dataBlocks := v.superblock.dataBlocks.toNat
  tableFree := v.table.freeCount
  directoryFree := v.root.freeCount

/-- The report on a volume, seven lines under a heading. -/
def Info.render (i : Info) : String :=
  "\n".intercalate
    [ "FS Info:",
      s!"total_blk_count={i.totalBlocks}",
      s!"fat_blk_count={i.tableBlocks}",
      s!"rdir_blk={i.directoryBlock}",
      s!"data_blk={i.dataStart}",
      s!"data_blk_count={i.dataBlocks}",
      s!"fat_free_ratio={i.tableFree}/{i.dataBlocks}",
      s!"rdir_free_ratio={i.directoryFree}/{maxFiles}" ]

end Volume

/-! ## 4. A volume and its world -/

/-- A mounted volume and the world its device lives in. -/
structure Mounted (W H : Type) where
  volume : Volume H
  world : W

/-- A computation on a mounted volume. -/
abbrev MountedM (W H : Type) := VolumeM (Mounted W H)

namespace Mounted

variable {W H : Type} {α : Type}

/-- The volume as it is. -/
def getVolume : MountedM W H (Volume H) := fun m => .ok m.volume m

/-- Changes what is in memory and leaves the device alone. -/
def modifyVolume (f : Volume H → Volume H) : MountedM W H Unit := fun m =>
  .ok () { m with volume := f m.volume }

/-- Lets a computation on the device run; what is in memory stays as it is. -/
def onDevice (act : VolumeM W α) : MountedM W H α := fun m =>
  match act m.world with
  | .ok a world => .ok a { m with world }
  | .error e world => .error e { m with world }

/-- Lets a computation change the allocation table and nothing else. -/
def onTable (act : VolumeM AllocationTable α) : MountedM W H α := fun m =>
  match act m.volume.table with
  | .ok a table => .ok a { m with volume := { m.volume with table } }
  | .error e table => .error e { m with volume := { m.volume with table } }

/-- The answer of a lookup as a step of a computation. -/
def lookup (answer : Except VolumeError α) : MountedM W H α := fun m =>
  match answer with
  | .ok a => .ok a m
  | .error e => .error e m

/-- Replaces the entry of a slot. -/
def updateEntry (slot : Slot) (f : Entry → Entry) : MountedM W H Unit :=
  modifyVolume fun v => { v with root := v.root.set slot (f (v.root.get slot)) }

/-- Moves an open descriptor. -/
def moveTo (fd offset : Nat) : MountedM W H Unit :=
  modifyVolume fun v => { v with files := v.files.moveTo fd offset }

/-! ### What each step does -/

@[simp] theorem getVolume_run (m : Mounted W H) : getVolume m = .ok m.volume m := rfl

@[simp] theorem modifyVolume_run (f : Volume H → Volume H) (m : Mounted W H) :
    modifyVolume f m = .ok () { m with volume := f m.volume } := rfl

theorem onDevice_eq_ok_iff {act : VolumeM W α} {m m' : Mounted W H} {a : α} :
    onDevice act m = .ok a m' ↔ ∃ w, act m.world = .ok a w ∧ m' = { m with world := w } := by
  unfold onDevice
  cases act m.world with
  | ok b w =>
    refine ⟨fun h => ?_, fun ⟨_, h, hm⟩ => ?_⟩
    · cases h; exact ⟨w, rfl, rfl⟩
    · cases h; rw [hm]
  | error e w => simp

theorem onDevice_eq_error_iff {act : VolumeM W α} {m m' : Mounted W H} {e : VolumeError} :
    onDevice act m = .error e m' ↔
      ∃ w, act m.world = .error e w ∧ m' = { m with world := w } := by
  unfold onDevice
  cases act m.world with
  | ok b w => simp
  | error c w =>
    refine ⟨fun h => ?_, fun ⟨_, h, hm⟩ => ?_⟩
    · cases h; exact ⟨w, rfl, rfl⟩
    · cases h; rw [hm]

theorem onTable_eq_ok_iff {act : VolumeM AllocationTable α} {m m' : Mounted W H} {a : α} :
    onTable act m = .ok a m' ↔ ∃ t, act m.volume.table = .ok a t
      ∧ m' = { m with volume := { m.volume with table := t } } := by
  unfold onTable
  cases act m.volume.table with
  | ok b w =>
    refine ⟨fun h => ?_, fun ⟨_, h, hm⟩ => ?_⟩
    · cases h; exact ⟨w, rfl, rfl⟩
    · cases h; rw [hm]
  | error e w => simp

theorem onTable_eq_error_iff {act : VolumeM AllocationTable α} {m m' : Mounted W H}
    {e : VolumeError} :
    onTable act m = .error e m' ↔ ∃ t, act m.volume.table = .error e t
      ∧ m' = { m with volume := { m.volume with table := t } } := by
  unfold onTable
  cases act m.volume.table with
  | ok b w => simp
  | error c w =>
    refine ⟨fun h => ?_, fun ⟨_, h, hm⟩ => ?_⟩
    · cases h; exact ⟨w, rfl, rfl⟩
    · cases h; rw [hm]

@[simp] theorem lookup_eq_ok_iff {answer : Except VolumeError α} {m m' : Mounted W H} {a : α} :
    lookup answer m = .ok a m' ↔ answer = .ok a ∧ m' = m := by
  unfold lookup
  cases answer <;> simp [eq_comm]

@[simp] theorem lookup_eq_error_iff {answer : Except VolumeError α} {m m' : Mounted W H}
    {e : VolumeError} : lookup answer m = .error e m' ↔ answer = .error e ∧ m' = m := by
  unfold lookup
  cases answer <;> simp [eq_comm]

end Mounted

end FlatVolume
