import FlatVolume.Proofs.Lockstep

/-!
# One volume on two devices

A volume is mounted from two devices of one size, with the same metadata in memory. Their data blocks
may hold different things. As long as calls to them fail alike, an operation takes the same course on
both: it makes no decision by what a data block holds.

* `Pairing.InStep` -- one volume, mounted from both devices;
* `Pairing.Side` -- two mount points in step;
* `FileCall.run_lockstep`, `Pairing.flush_lockstep` -- calls on the files, and flushing, on both at
  once.

What a read gives is left open here: in all other respects the contents of the blocks do not matter.
-/

namespace FlatVolume

open AllocationTable FlatVolume.Computation Mounted
open FileSystem (ofMounted ofWorld)

variable {W₁ H₁ W₂ H₂ α β : Type} [BlockDevice W₁ H₁] [LawfulBlockDevice W₁ H₁] [BlockDevice W₂ H₂]
  [LawfulBlockDevice W₂ H₂]

/-! ## 1. One volume on two devices -/

/-- The same volume on another device. -/
def Volume.moved {H H' : Type} (v : Volume H) (d : H') : Volume H' :=
  ⟨d, v.superblock, v.table, v.root, v.files⟩

/-- A volume on `d` whose layout is that of `n` blocks. -/
structure Volume.Fits {H : Type} (v : Volume H) (d : H) (n : Nat) : Prop where
  device_eq : v.device = d
  laidOut : v.superblock.LaidOut n
  size_eq : v.table.size = v.superblock.dataBlocks.toNat

/-- A data block that is found is in range. -/
theorem Volume.Fits.locate_lt {H : Type} {v : Volume H} {d : H} {n i : Nat} {b : Link}
    (h : v.Fits d n) (hl : v.locate b = .ok i) : i < n := by
  unfold locate at hl
  split at hl
  · rename_i hb
    cases hl
    exact (h.laidOut.dataBlock_lt (h.size_eq ▸ lt_size_of_isDataBlock hb)).2
  · cases hl

namespace Pairing

/-- **One volume, mounted from both devices.** What its data blocks hold is left open. -/
structure InStep (p : Pairing H₁ H₂) (m₁ : Mounted W₁ H₁) (m₂ : Mounted W₂ H₂) : Prop where
  fits : m₁.volume.Fits p.left p.blockCount
  volume_eq : m₂.volume = m₁.volume.moved p.right
  abreast : p.Abreast m₁.world m₂.world

variable {p : Pairing H₁ H₂} {A : α → β → Prop} {v : Volume H₁}

/-! ### Steps -/

theorem getVolume_bind_lockstep {f : Volume H₁ → MountedM W₁ H₁ α}
    {g : Volume H₂ → MountedM W₂ H₂ β}
    (h : ∀ v, v.Fits p.left p.blockCount → Lockstep p.InStep A (f v) (g (v.moved p.right))) :
    Lockstep p.InStep A (getVolume >>= f) (getVolume >>= g) := by
  intro m₁ m₂ hm
  rw [bind_of_ok (getVolume_run m₁), bind_of_ok (getVolume_run m₂), hm.volume_eq]
  exact h _ hm.fits _ _ hm

theorem modifyVolume_lockstep {f : Volume H₁ → Volume H₁} {g : Volume H₂ → Volume H₂}
    (hf : ∀ v, v.Fits p.left p.blockCount → (f v).Fits p.left p.blockCount)
    (hg : ∀ v, g (v.moved p.right) = (f v).moved p.right) :
    Lockstep p.InStep (· = ·) (modifyVolume f : MountedM W₁ H₁ Unit)
      (modifyVolume g : MountedM W₂ H₂ Unit) := by
  intro m₁ m₂ hm
  rw [modifyVolume_run, modifyVolume_run, hm.volume_eq, hg]
  exact .ok rfl ⟨hf _ hm.fits, rfl, hm.abreast⟩

theorem setRoot_lockstep (f : Directory → Directory) :
    Lockstep p.InStep (· = ·)
      (modifyVolume fun v => { v with root := f v.root } : MountedM W₁ H₁ Unit)
      (modifyVolume fun v => { v with root := f v.root } : MountedM W₂ H₂ Unit) :=
  modifyVolume_lockstep (fun _ h => ⟨h.device_eq, h.laidOut, h.size_eq⟩) fun _ => rfl

theorem setFiles_lockstep (f : OpenFiles → OpenFiles) :
    Lockstep p.InStep (· = ·)
      (modifyVolume fun v => { v with files := f v.files } : MountedM W₁ H₁ Unit)
      (modifyVolume fun v => { v with files := f v.files } : MountedM W₂ H₂ Unit) :=
  modifyVolume_lockstep (fun _ h => ⟨h.device_eq, h.laidOut, h.size_eq⟩) fun _ => rfl

theorem updateEntry_lockstep (slot : Slot) (f : Entry → Entry) :
    Lockstep p.InStep (· = ·) (updateEntry slot f : MountedM W₁ H₁ Unit)
      (updateEntry slot f : MountedM W₂ H₂ Unit) :=
  setRoot_lockstep fun root => root.set slot (f (root.get slot))

theorem moveTo_lockstep (fd offset : Nat) :
    Lockstep p.InStep (· = ·) (moveTo fd offset : MountedM W₁ H₁ Unit)
      (moveTo fd offset : MountedM W₂ H₂ Unit) :=
  setFiles_lockstep (·.moveTo fd offset)

theorem lookup_lockstep (answer : Except VolumeError α) :
    Lockstep p.InStep (· = ·) (lookup answer : MountedM W₁ H₁ α)
      (lookup answer : MountedM W₂ H₂ α) := by
  intro m₁ m₂ hm
  cases answer with
  | ok a => exact .ok rfl hm
  | error e => exact .error e hm

theorem onDevice_lockstep {x : VolumeM W₁ α} {y : VolumeM W₂ β} (h : Lockstep p.Abreast A x y) :
    Lockstep p.InStep A (onDevice x : MountedM W₁ H₁ α) (onDevice y : MountedM W₂ H₂ β) := by
  intro m₁ m₂ hm
  have hw := h _ _ hm.abreast
  unfold onDevice
  generalize x m₁.world = r at hw ⊢
  generalize y m₂.world = r' at hw ⊢
  cases hw with
  | ok ha hs => exact .ok ha ⟨hm.fits, hm.volume_eq, hs⟩
  | error e hs => exact .error e ⟨hm.fits, hm.volume_eq, hs⟩

/-- The table is the same on both devices, so what is done to it is done to both. -/
theorem onTable_lockstep {act : VolumeM AllocationTable α} (h : Keeps SameSize act) :
    Lockstep p.InStep (· = ·) (onTable act : MountedM W₁ H₁ α)
      (onTable act : MountedM W₂ H₂ α) := by
  intro m₁ m₂ hm
  have hsize := h m₁.volume.table
  have hmoved : ∀ t : AllocationTable, t.size = m₁.volume.table.size →
      p.InStep { m₁ with volume := { m₁.volume with table := t } }
        { m₂ with volume := { m₂.volume with table := t } } := fun t ht =>
    ⟨⟨hm.fits.device_eq, hm.fits.laidOut, ht.trans hm.fits.size_eq⟩, by rw [hm.volume_eq]; rfl,
      hm.abreast⟩
  have htable : m₂.volume.table = m₁.volume.table := by
    rw [hm.volume_eq]
    rfl
  unfold Ends at hsize
  unfold onTable
  rw [htable]
  generalize act m₁.volume.table = r at hsize ⊢
  cases r with
  | ok a t => exact .ok rfl (hmoved t hsize)
  | error e t => exact .error e (hmoved t hsize)

/-! ### Data blocks -/

theorem loadData_lockstep (h : v.Fits p.left p.blockCount) (b : Link) :
    Lockstep p.Abreast (fun _ _ => True) (v.loadData b : VolumeM W₁ Block)
      ((v.moved p.right).loadData b : VolumeM W₂ Block) := by
  have hmoved : (v.moved p.right).locate b = v.locate b := rfl
  unfold Volume.loadData
  rw [hmoved]
  cases hl : v.locate b with
  | ok i =>
    rw [h.device_eq]
    exact loadBlock_lockstep (h.locate_lt hl)
  | error e => exact .throw e

theorem loadSpans_lockstep (h : v.Fits p.left p.blockCount) (b : Link) (pieces : List Span) :
    Lockstep p.Abreast (fun _ _ => True) (v.loadSpans b pieces : VolumeM W₁ (List ByteArray))
      ((v.moved p.right).loadSpans b pieces : VolumeM W₂ (List ByteArray)) := by
  induction pieces generalizing b with
  | nil => exact .pure trivial
  | cons s rest ih =>
    cases rest with
    | nil => exact (loadData_lockstep h b).bind fun _ _ _ => .pure trivial
    | cons s' rest =>
      refine (loadData_lockstep h b).bind fun block block' _ => ?_
      have hmoved : (v.moved p.right).table.next b = v.table.next b := rfl
      rw [hmoved]
      cases v.table.next b with
      | ok following => exact (ih following).bind fun _ _ _ => .pure trivial
      | error e => exact .throw e

/-- What is stored may differ; that it is stored does not. -/
theorem storeData_lockstep (b : Link) (blk blk' : Block) :
    Lockstep p.InStep (· = ·) (storeData b blk : MountedM W₁ H₁ Unit)
      (storeData b blk' : MountedM W₂ H₂ Unit) := by
  refine getVolume_bind_lockstep fun v hv => ?_
  show Lockstep p.InStep _ (lookup (v.locate b) >>= fun i => onDevice (storeBlock v.device i blk))
    (lookup (v.locate b) >>= fun i => onDevice (storeBlock p.right i blk'))
  rw [hv.device_eq]
  cases hl : v.locate b with
  | ok i => exact onDevice_lockstep (storeBlock_lockstep (hv.locate_lt hl) blk blk')
  | error e => exact fun _ _ hm => .error e hm

theorem overwrite_lockstep (b : Link) (s : Segment) :
    Lockstep p.InStep (· = ·) (overwrite b s : MountedM W₁ H₁ Unit)
      (overwrite b s : MountedM W₂ H₂ Unit) := by
  refine .ite (getVolume_bind_lockstep fun v hv => ?_) (storeData_lockstep _ _ _)
  exact (onDevice_lockstep (loadData_lockstep hv b)).bind fun _ _ _ => storeData_lockstep _ _ _

/-! ### Writing -/

theorem linkLast_lockstep (slot : Slot) (chain : Array Link) (b : Link) :
    Lockstep p.InStep (· = ·) (linkLast slot chain b : MountedM W₁ H₁ Unit)
      (linkLast slot chain b : MountedM W₂ H₂ Unit) := by
  unfold linkLast
  cases chain.back? with
  | some last => exact onTable_lockstep (extend_keeps last b)
  | none => exact updateEntry_lockstep _ _

theorem unlinkLast_lockstep (slot : Slot) (chain : Array Link) :
    Lockstep p.InStep (· = ·) (unlinkLast slot chain : MountedM W₁ H₁ Unit)
      (unlinkLast slot chain : MountedM W₂ H₂ Unit) := by
  unfold unlinkLast
  cases chain.back? with
  | none => exact .pure rfl
  | some block =>
    have hfree : Lockstep p.InStep (· = ·)
        (discard (onTable (freeChain block)) : MountedM W₁ H₁ Unit)
        (discard (onTable (freeChain block)) : MountedM W₂ H₂ Unit) :=
      (onTable_lockstep (freeChain_keeps block)).discard
    cases chain.pop.back? with
    | some last => exact (onTable_lockstep (cutAfter_keeps last)).discard.bind_eq fun _ => hfree
    | none => exact (updateEntry_lockstep _ _).bind_eq fun _ => hfree

theorem storeSegment_lockstep (slot : Slot) (chain : Array Link) (s : Segment) :
    Lockstep p.InStep (· = ·) (storeSegment slot chain s : MountedM W₁ H₁ (Array Link))
      (storeSegment slot chain s : MountedM W₂ H₂ (Array Link)) := by
  unfold storeSegment
  cases chain[s.index]? with
  | some b => exact (overwrite_lockstep b s).bind_eq fun _ => .pure rfl
  | none =>
    refine (onTable_lockstep allocate_keeps).bind_eq fun b => ?_
    refine (linkLast_lockstep slot chain b).bind_eq fun _ => ?_
    exact ((storeData_lockstep _ _ _).undoing (unlinkLast_lockstep _ _)).bind_eq fun _ => .pure rfl

theorem storeSegments_lockstep (slot : Slot) (chain : Array Link) (segments : List Segment)
    (written : Nat) :
    Lockstep p.InStep (· = ·)
      (storeSegments slot chain segments written : MountedM W₁ H₁ Progress)
      (storeSegments slot chain segments written : MountedM W₂ H₂ Progress) := by
  induction segments generalizing chain written with
  | nil => exact .pure rfl
  | cons s rest ih =>
    intro m₁ m₂ hm
    have hs := storeSegment_lockstep slot chain s m₁ m₂ hm
    unfold storeSegments
    generalize storeSegment slot chain s m₁ = r at hs ⊢
    generalize storeSegment slot chain s m₂ = r' at hs ⊢
    cases hs with
    | ok ha hs =>
      subst ha
      exact ih _ _ _ _ hs
    | error e hs => exact .ok rfl hs

theorem write_lockstep (fd : Nat) (data : ByteArray) :
    Lockstep p.InStep (· = ·) (write fd data : MountedM W₁ H₁ Nat)
      (write fd data : MountedM W₂ H₂ Nat) := by
  refine getVolume_bind_lockstep fun v _ => (lookup_lockstep (v.resolve fd)).bind_eq fun q => ?_
  obtain ⟨file, slot⟩ := q
  refine .ite (.pure rfl) ((lookup_lockstep _).bind_eq fun chain => ?_)
  refine (storeSegments_lockstep _ _ _ _).bind_eq fun progress => ?_
  obtain ⟨written, stopped⟩ := progress
  -- the answer is the same whether size and offset are entered before it or not
  refine .ite ((updateEntry_lockstep _ _).bind_eq fun _ => (moveTo_lockstep _ _).bind_eq fun _ => ?_) ?_
  all_goals
    cases stopped with
    | none => exact .pure rfl
    | some e => cases e <;> first | exact .throw _ | exact .ite (.pure rfl) (.throw _)

/-- A read takes the same course, whatever it gives. -/
theorem read_lockstep (fd count : Nat) :
    Lockstep p.InStep (fun _ _ => True) (read fd count : MountedM W₁ H₁ ByteArray)
      (read fd count : MountedM W₂ H₂ ByteArray) := by
  refine getVolume_bind_lockstep fun v hv => (lookup_lockstep (v.resolve fd)).bind_eq fun q => ?_
  obtain ⟨file, slot⟩ := q
  refine .ite (.pure trivial) ((lookup_lockstep _).bind_eq fun first => ?_)
  refine (onDevice_lockstep (loadSpans_lockstep hv _ _)).bind fun _ _ _ => ?_
  exact (moveTo_lockstep _ _).bind_eq fun _ => .pure trivial

theorem truncate_lockstep (fd size : Nat) :
    Lockstep p.InStep (· = ·) (truncate fd size : MountedM W₁ H₁ Unit)
      (truncate fd size : MountedM W₂ H₂ Unit) := by
  refine getVolume_bind_lockstep fun v _ => (lookup_lockstep (v.resolve fd)).bind_eq fun q => ?_
  obtain ⟨file, slot⟩ := q
  refine .ite (.throw _) (.bind_eq ?_ fun released => (updateEntry_lockstep _ _).bind_eq fun _ =>
    (setFiles_lockstep (·.clamp file.name size)).bind_eq fun _ =>
      (onTable_lockstep (freeChain_keeps released)).discard)
  unfold cutChain
  refine getVolume_bind_lockstep fun v _ => ?_
  cases ceilDiv size blockSize with
  | zero => exact (updateEntry_lockstep _ _).bind_eq fun _ => .pure rfl
  | succ k =>
    refine (lookup_lockstep _).bind_eq fun last => ?_
    exact .ite (onTable_lockstep (cutAfter_keeps last)) (.throw _)

/-! ### Whole volumes -/

theorem forM_storeBlock_lockstep {pos : Nat → Nat} (blk : Nat → Block) {l : List Nat}
    (hl : ∀ i ∈ l, pos i < p.blockCount) :
    Lockstep p.Abreast (· = ·)
      (l.forM fun i => (storeBlock p.left (pos i) (blk i) : VolumeM W₁ Unit))
      (l.forM fun i => (storeBlock p.right (pos i) (blk i) : VolumeM W₂ Unit)) := by
  induction l with
  | nil => exact .pure rfl
  | cons i l ih =>
    exact (storeBlock_lockstep (hl i (List.mem_cons_self ..)) _ _).bind_eq fun _ =>
      ih fun j hj => hl j (List.mem_cons_of_mem _ hj)

/-- Every block that a flush writes is in range. -/
theorem flush_lockstep (h : v.Fits p.left p.blockCount) :
    Lockstep p.Abreast (· = ·) (v.flush : VolumeM W₁ Unit)
      ((v.moved p.right).flush : VolumeM W₂ Unit) := by
  have hl := h.laidOut
  unfold Volume.flush
  rw [h.device_eq]
  refine (forM_storeBlock_lockstep _ fun i hi => ?_).bind_eq fun _ =>
    (storeBlock_lockstep hl.directoryBlock_lt _ _).bind_eq fun _ => syncDevice_lockstep
  have := hl.tableBlock_lt (List.mem_range.mp hi)
  have := hl.directoryBlock_lt
  omega

/-! ## 2. Two mount points -/

/-- **Two mount points in step:** nothing is mounted on either, or one volume on both. -/
inductive Side (p : Pairing H₁ H₂) : FileSystem W₁ H₁ → FileSystem W₂ H₂ → Prop where
  | empty {w₁ : W₁} {w₂ : W₂} (h : p.Abreast w₁ w₂) : Side p (ofWorld w₁) (ofWorld w₂)
  | mounted {m₁ : Mounted W₁ H₁} {m₂ : Mounted W₂ H₂} (h : p.InStep m₁ m₂) :
      Side p (ofMounted m₁) (ofMounted m₂)

theorem inStep_of_side {m₁ : Mounted W₁ H₁} {m₂ : Mounted W₂ H₂}
    (h : p.Side (ofMounted m₁) (ofMounted m₂)) : p.InStep m₁ m₂ := by
  generalize hfs₁ : ofMounted m₁ = fs₁ at h
  generalize hfs₂ : ofMounted m₂ = fs₂ at h
  cases h with
  | empty => cases hfs₁
  | mounted hm =>
    obtain rfl := FileSystem.ofMounted_inj hfs₁
    obtain rfl := FileSystem.ofMounted_inj hfs₂
    exact hm

theorem onVolume_lockstep {x : MountedM W₁ H₁ α} {y : MountedM W₂ H₂ β}
    (h : Lockstep p.InStep A x y) :
    Lockstep p.Side A (FileSystem.onVolume x) (FileSystem.onVolume y) := by
  intro fs₁ fs₂ hfs
  cases hfs with
  | empty hw => exact .error _ (.empty hw)
  | @mounted m₁ m₂ hm =>
    have hxy := h _ _ hm
    rw [FileSystem.onVolume_run, FileSystem.onVolume_run]
    generalize x m₁ = r at hxy ⊢
    generalize y m₂ = r' at hxy ⊢
    cases hxy with
    | ok ha hs => exact .ok ha (.mounted hs)
    | error e hs => exact .error e (.mounted hs)

theorem query_lockstep {f : Volume H₁ → Except VolumeError α} {g : Volume H₂ → Except VolumeError α}
    (h : ∀ v, g (v.moved p.right) = f v) :
    Lockstep p.Side (· = ·) (FileSystem.query f : FileSystemM W₁ H₁ α)
      (FileSystem.query g : FileSystemM W₂ H₂ α) := by
  refine onVolume_lockstep (getVolume_bind_lockstep fun v _ => ?_)
  rw [h v]
  exact lookup_lockstep (f v)

end Pairing

open Pairing

variable {p : Pairing H₁ H₂}

namespace FileSystem

theorem list_lockstep : Lockstep p.Side (· = ·) (list : FileSystemM W₁ H₁ (List Entry))
    (list : FileSystemM W₂ H₂ (List Entry)) := query_lockstep fun _ => rfl

theorem create_lockstep (name : String) : Lockstep p.Side (· = ·)
    (create name : FileSystemM W₁ H₁ Unit) (create name : FileSystemM W₂ H₂ Unit) :=
  onVolume_lockstep (getVolume_bind_lockstep fun v _ =>
    (lookup_lockstep (v.root.create name)).bind_eq fun _ => setRoot_lockstep fun _ => _)

theorem delete_lockstep (name : String) : Lockstep p.Side (· = ·)
    (delete name : FileSystemM W₁ H₁ Unit) (delete name : FileSystemM W₂ H₂ Unit) := by
  refine onVolume_lockstep (getVolume_bind_lockstep fun v _ =>
    (lookup_lockstep (checkName name)).bind_eq fun _ => ?_)
  have hmoved : (v.moved p.right).root.find? name = v.root.find? name := rfl
  rw [hmoved]
  cases v.root.find? name with
  | none => exact .throw _
  | some slot =>
    exact .ite (.throw _) ((setRoot_lockstep fun _ => _).bind_eq fun _ =>
      (onTable_lockstep (freeChain_keeps _)).discard)

theorem openFile_lockstep (name : String) : Lockstep p.Side (· = ·)
    (openFile name : FileSystemM W₁ H₁ Nat) (openFile name : FileSystemM W₂ H₂ Nat) := by
  refine onVolume_lockstep (getVolume_bind_lockstep fun v _ =>
    (lookup_lockstep (checkName name)).bind_eq fun _ => ?_)
  exact .ite (.throw _) ((lookup_lockstep (v.files.bind name)).bind_eq fun _ =>
    (setFiles_lockstep fun _ => _).bind_eq fun _ => .pure rfl)

theorem close_lockstep (fd : Nat) : Lockstep p.Side (· = ·)
    (close fd : FileSystemM W₁ H₁ Unit) (close fd : FileSystemM W₂ H₂ Unit) :=
  onVolume_lockstep (getVolume_bind_lockstep fun v _ =>
    (lookup_lockstep (v.files.release fd)).bind_eq fun _ => setFiles_lockstep fun _ => _)

theorem stat_lockstep (fd : Nat) : Lockstep p.Side (· = ·)
    (stat fd : FileSystemM W₁ H₁ Nat) (stat fd : FileSystemM W₂ H₂ Nat) :=
  query_lockstep fun _ => rfl

theorem tell_lockstep (fd : Nat) : Lockstep p.Side (· = ·)
    (tell fd : FileSystemM W₁ H₁ Nat) (tell fd : FileSystemM W₂ H₂ Nat) :=
  query_lockstep fun _ => rfl

theorem seek_lockstep (fd offset : Nat) : Lockstep p.Side (· = ·)
    (seek fd offset : FileSystemM W₁ H₁ Unit) (seek fd offset : FileSystemM W₂ H₂ Unit) :=
  onVolume_lockstep (getVolume_bind_lockstep fun v _ =>
    (lookup_lockstep (v.resolve fd)).bind_eq fun _ => .ite (.throw _) (moveTo_lockstep _ _))

end FileSystem

/-- **A call on the files takes the same course on both devices.** Only what a read gives is left
    open. -/
theorem FileCall.run_lockstep (call : FileCall) :
    Lockstep p.Side (fun a b => a = b ∨ ∃ fd count, call = .read fd count)
      (call.run : FileSystemM W₁ H₁ Answer) (call.run : FileSystemM W₂ H₂ Answer) := by
  have hsame : ∀ {x : FileSystemM W₁ H₁ Answer} {y : FileSystemM W₂ H₂ Answer},
      Lockstep p.Side (· = ·) x y →
      Lockstep p.Side (fun a b => a = b ∨ ∃ fd count, call = .read fd count) x y :=
    fun h => h.mono fun _ _ => .inl
  cases call with
  | create name => exact hsame ((FileSystem.create_lockstep name).map_eq _)
  | delete name => exact hsame ((FileSystem.delete_lockstep name).map_eq _)
  | list => exact hsame (FileSystem.list_lockstep.map_eq _)
  | openFile name => exact hsame ((FileSystem.openFile_lockstep name).map_eq _)
  | close fd => exact hsame ((FileSystem.close_lockstep fd).map_eq _)
  | stat fd => exact hsame ((FileSystem.stat_lockstep fd).map_eq _)
  | tell fd => exact hsame ((FileSystem.tell_lockstep fd).map_eq _)
  | seek fd offset => exact hsame ((FileSystem.seek_lockstep fd offset).map_eq _)
  | read fd count =>
    exact (onVolume_lockstep (read_lockstep fd count)).map fun _ _ _ => .inr ⟨fd, count, rfl⟩
  | write fd data => exact hsame ((onVolume_lockstep (write_lockstep fd data)).map_eq _)
  | truncate fd size => exact hsame ((onVolume_lockstep (truncate_lockstep fd size)).map_eq _)

end FlatVolume
