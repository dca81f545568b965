import FlatVolume.Proofs.Commands
import FlatVolume.Proofs.Conservation
import FlatVolume.Proofs.Prepared

/-!
# Files that are added and removed

What `add` does to an image, and what the other commands show of it afterwards. A file that can be
entered is stored as far as there is room for it (`Holds.add_run`); where it cannot be entered, or there
is not room for its first byte, the command fails before anything but file data was written
(`Holds.add_refused`). Removing the file brings back what was shown before (`Holds.remove_run`).

* `Volume.Admits v name` -- a file called `name` can be entered;
* `Replaced path v v' h h' slot old new` -- from `v` on the host `h` to `v'` on `h'` the file in `slot`
  was replaced, and the others hold what they held;
* `Unchanged`, `Stored` -- what this comes to for whoever looks at the image.
-/

namespace FlatVolume

open AllocationTable Bytes FlatVolume.Computation Mounted CommandLine
open FileSystem (ofMounted ofWorld)
open LawfulBlockDevice (storage)

/-! ## 1. A name that can be entered -/

/-- **A file called `name` can be entered:** the name is valid, no file has it, and a slot is free. -/
structure Volume.Admits {H : Type} (v : Volume H) (name : String) : Prop where
  validName : validName name = true
  fresh : ∀ e ∈ v.root.files, e.name ≠ name
  free : 0 < v.root.freeCount

namespace Directory

variable {d : Directory} {slot : Slot} {name : String}

theorem find?_eq_none_iff : d.find? name = none ↔ ∀ e ∈ d.files, e.name ≠ name := by
  rw [find?, lowest?_eq_none_iff]
  constructor
  · intro h e he hn
    obtain ⟨s, rfl, hs⟩ := Volume.mem_files_iff.mp he
    exact absurd (holds_iff.mpr ⟨hs, hn⟩) (Bool.eq_false_iff.mp (h s))
  · intro h s
    refine Bool.eq_false_iff.mpr fun hs => ?_
    obtain ⟨hf, hn⟩ := holds_iff.mp hs
    exact h _ (Volume.mem_files_iff.mpr ⟨s, rfl, hf⟩) hn

theorem freeSlot?_eq_none_iff : d.freeSlot? = none ↔ d.freeCount = 0 := by
  rw [freeSlot?, lowest?_eq_none_iff, freeCount, List.countP_eq_zero]
  constructor
  · intro h e he
    obtain ⟨i, hi, rfl⟩ := Vector.mem_iff_getElem.mp (Vector.mem_toList_iff.mp he)
    exact Bool.eq_false_iff.mp (h ⟨i, hi⟩)
  · intro h s
    exact Bool.eq_false_iff.mpr (h _ (Vector.mem_toList_iff.mpr (Vector.getElem_mem s.isLt)))

/-- A file entered in a free slot is found there. -/
theorem find?_set_self {e : Entry} (h : d.find? name = none) (he : holds name e = true) :
    (d.set slot e).find? name = some slot := by
  refine find?_eq_some_iff.mpr ⟨by rwa [get_set_self], fun s hs => ?_⟩
  rw [get_set, if_neg (Fin.ne_of_lt hs)]
  exact lowest?_eq_none_iff.mp h s

/-- **The files around a slot** stay the same, and in the same order, whatever is put there. -/
theorem exists_files_set (d : Directory) (slot : Slot) : ∃ above below, ∀ e,
    (d.set slot e).files = above ++ if e.isFree then below else e :: below := by
  refine ⟨(d.slots.toList.take slot).filter (fun e => !e.isFree),
    (d.slots.toList.drop (slot + 1)).filter (fun e => !e.isFree), fun e => ?_⟩
  have hlen : slot.val < d.slots.toList.length := by simp
  have hset : (d.set slot e).slots.toList =
      d.slots.toList.take slot ++ e :: d.slots.toList.drop (slot + 1) := by
    rw [set, Vector.toList_set, List.set_eq_take_append_cons_drop, if_pos hlen]
  rw [files, hset, List.filter_append, List.filter_cons]
  cases e.isFree <;> rfl

end Directory

variable {path : String} {h h' : Host} {v v' : Volume Image} {m : Mounted Host Image}
  {own : Slot → List Link} {slot : Slot} {old new : List Link} {name : String}

/-- In an empty volume every file with a valid name can be entered. -/
theorem Volume.admits_blank {H : Type} {d : H} {sb : Superblock} {name : String}
    (h : validName name = true) : (Volume.blank d sb).Admits name where
  validName := h
  fresh e he := by
    rw [Volume.blank, Directory.files_empty] at he
    cases he
  free := by
    rw [Volume.blank, Directory.freeCount_empty]
    decide

/-- Where a file can be entered it is. -/
theorem Volume.Admits.create_run {W H : Type} {m : Mounted W H} (h : m.volume.Admits name) :
    ∃ slot, m.volume.root.find? name = none ∧ m.volume.root.freeSlot? = some slot ∧
      FileSystem.create name (ofMounted m) = .ok () (ofMounted { m with volume :=
        { m.volume with root := m.volume.root.set slot (Entry.ofName name) } }) := by
  have hfind := Directory.find?_eq_none_iff.mpr h.fresh
  have hrun := FileSystem.create_run m name
  cases hs : m.volume.root.freeSlot? with
  | none => exact absurd (Directory.freeSlot?_eq_none_iff.mp hs) (Nat.ne_of_gt h.free)
  | some slot =>
    rw [h.validName, hfind, hs] at hrun
    exact ⟨slot, hfind, rfl, hrun⟩

/-- Where it cannot be entered it is refused. -/
theorem Volume.create_of_not_admits {W H : Type} {m : Mounted W H} (h : ¬ m.volume.Admits name) :
    ∃ e, FileSystem.create name (ofMounted m) = .error e (ofMounted m) := by
  have hends := FileSystem.create_ends m name
  unfold Ends at hends
  cases hrun : FileSystem.create name (ofMounted m) with
  | ok u fs =>
    rw [hrun] at hends
    obtain ⟨slot, hvalid, hfind, hs, -⟩ := hends
    refine absurd ⟨hvalid, Directory.find?_eq_none_iff.mp hfind, Nat.pos_of_ne_zero fun h0 => ?_⟩ h
    rw [Directory.freeSlot?_eq_none_iff.mpr h0] at hs
    cases hs
  | error e fs =>
    rw [hrun] at hends
    exact ⟨e, by rw [hends.1]⟩

/-! ## 2. One file replaced -/

/-- **From `v` on the host `h` to `v'` on `h'` the file in `slot` was replaced,** and the others hold what
    they held. -/
structure Replaced (path : String) (v v' : Volume Image) (h h' : Host) (slot : Slot)
    (old new : List Link) : Prop where
  holds : Holds path v' h'
  refiled : Volume.Refiled v v' slot old new
  bytes_eq : ∀ s, s ≠ slot → bytesOf ⟨v', h'⟩ (v.root.get s) = bytesOf ⟨v, h⟩ (v.root.get s)

/-- **At the end of a command** that has replaced a file. -/
theorem Aboard.exists_replaced (ha : Aboard path m) (hr : Volume.Refiled v m.volume slot old new)
    (hb : ∀ s, s ≠ slot → m.bytesOf (v.root.get s) = bytesOf ⟨v, h⟩ (v.root.get s)) :
    ∃ v' h', FileSystem.unmount (ofMounted m) = .ok () (ofWorld h') ∧
      Replaced path v v' h h' slot old new ∧ v'.root = m.volume.root ∧
      ∀ e, bytesOf ⟨v', h'⟩ e = m.bytesOf e := by
  obtain ⟨h', hun, hh, hbytes⟩ := ha.exists_unmount
  refine ⟨_, h', hun, ⟨hh, ?_, fun s hs => (hbytes _).trans (hb s hs)⟩, rfl, hbytes⟩
  exact ⟨hr.device_eq, hr.superblock_eq, hr.get_eq, hr.rechained, hr.chain, hr.length_eq⟩

/-! ## 3. Removing -/

/-- **Removing a file** succeeds and frees its slot and its blocks. -/
theorem Holds.remove_run (hv : Holds path v h) (hi : v.Intact own)
    (hs : v.root.find? name = some slot) : ∃ v' h',
      perform (.remove path name) h = (success (line s!"Removed file '{name}'"), h') ∧
      Replaced path v v' h h' slot (own slot) [] ∧ v'.root.get slot = Entry.free := by
  obtain ⟨w, hm, hu⟩ := hv.exists_mount
  obtain ⟨hocc, hname⟩ := Directory.of_find? hs
  have hvalid : validName name = true := hname ▸ hi.validName slot hocc
  have ho : v.files.isOpen name = false := by
    refine Bool.eq_false_iff.mpr fun hopen => ?_
    obtain ⟨fd, f, hf, -⟩ := OpenFiles.isOpen_iff.mp hopen
    rw [show v.files = _ from hv.files_eq, OpenFiles.get?_empty] at hf
    cases hf
  have hdelete := FileSystem.delete_run (⟨v, w⟩ : Mounted Host Image) name
  simp only [hvalid, hs, ho, (hi.allotment.chain slot).freeChain_eq, Bool.true_eq_false,
    Bool.false_eq_true, if_false] at hdelete
  have ht := hi.deleted hs ho (size_freeAll v.table (own slot))
  have hr := v.deleted_refiled own slot
  have ha := (hv.untouched hu).toAboard.of_memory hr.device_eq hr.superblock_eq
    ⟨_, hi.refiled ht hr⟩
  obtain ⟨v', h', hun, hrep, hroot, -⟩ := ha.exists_replaced (h := h) hr fun s hne =>
    bytesOf_of_refiled (m := ⟨v, h⟩) hi ht hr hne fun b _ =>
      congrArg (fun st : Storage => st.block _) hu.storage_eq
  refine ⟨v', h', perform_of_ok ?_, hrep, ?_⟩
  · rw [execute, bind_of_ok (mount_of_ok hm), bind_of_ok (onFileSystem_of_ok hdelete),
      bind_of_ok (onFileSystem_of_ok hun), printLine_run, ByteArray.empty_append]
  · rw [hroot, Directory.get_set_self]

/-! ## 4. Adding -/

namespace CommandLine

variable {file : String} {option : Option String} {data : ByteArray} {fs : FileSystem Host Image}
  {out : ByteArray}

theorem nameFor_run (h : (option <|> fileName? file) = some name) :
    nameFor file option ⟨fs, out⟩ = .ok name ⟨fs, out⟩ := by
  cases option with
  | some n =>
    cases h
    rfl
  | none =>
    rw [nameFor, show fileName? file = some name from h]
    rfl

theorem readHostFile_run (hd : h.readFile file = .ok data) :
    readHostFile file ⟨ofWorld h, out⟩ = .ok data ⟨ofWorld h, out⟩ := by
  simp only [readHostFile, ofWorld, hd]

/-- The rest of `add`, once the file is open. -/
def finishAdd (name : String) (data : ByteArray) (fd : Nat) : RunM Unit := do
  let written ← onFileSystem (FileSystem.write fd data)
  onFileSystem (FileSystem.close fd)
  onFileSystem FileSystem.unmount
  if written ≠ data.size then
    throw ⟨s!"Volume full: only {written} of {data.size} bytes were written", []⟩
  printLine s!"Wrote file '{name}' ({written}/{data.size} bytes)"

theorem execute_add (image file : String) (option : Option String) :
    execute (.add image file option) = (do
      let name ← nameFor file option
      let data ← readHostFile file
      mount image
      onFileSystem (FileSystem.create name)
      let fd ← onFileSystem (FileSystem.openFile name)
      finishAdd name data fd) := rfl

/-- What `add` prints when `k` of `n` bytes were stored. -/
def addOutput (name : String) (k n : Nat) : Output :=
  if k = n then success (line s!"Wrote file '{name}' ({k}/{n} bytes)")
  else ⟨1, ByteArray.empty,
    some (Failure.render ⟨s!"Volume full: only {k} of {n} bytes were written", []⟩)⟩

/-- A command that ends with storing a file prints how much was stored. -/
theorem perform_of_finishAdd {c : Command} {fd k : Nat} {fs₁ fs₂ : FileSystem Host Image}
    (h₀ : execute c ⟨ofWorld h, ByteArray.empty⟩ = finishAdd name data fd ⟨fs, ByteArray.empty⟩)
    (h₁ : FileSystem.write fd data fs = .ok k fs₁) (h₂ : FileSystem.close fd fs₁ = .ok () fs₂)
    (h₃ : FileSystem.unmount fs₂ = .ok () (ofWorld h')) :
    perform c h = (addOutput name k data.size, h') := by
  rw [finishAdd, bind_of_ok (onFileSystem_of_ok h₁), bind_of_ok (onFileSystem_of_ok h₂),
    bind_of_ok (onFileSystem_of_ok h₃)] at h₀
  unfold addOutput
  by_cases hk : k = data.size
  · rw [if_neg (not_not_intro hk)] at h₀
    have hrun := perform_of_ok h₀
    rw [ByteArray.empty_append] at hrun
    rw [if_pos hk]
    exact hrun
  · rw [if_pos hk] at h₀
    rw [if_neg hk]
    exact perform_of_error h₀

end CommandLine

/-- **Writing to a file that has no blocks,** of a volume aboard: what there is room for is stored, or
    there is no room and the image holds what it held. -/
theorem Aboard.write_ends (ha : Aboard path m) (hi : m.volume.Intact own) {fd : Nat} {f : OpenFile}
    (hr : m.volume.resolve fd = .ok (f, slot)) (hown : own slot = []) (ho : f.offset = 0)
    (data : ByteArray) : Ends (FileSystem.write fd data) (ofMounted m)
      (fun k fs => ∃ m' new, fs = ofMounted m' ∧ Aboard path m' ∧ (0 < data.size → 0 < k) ∧
        Filled m m' fd slot (own slot) new 0 data k)
      (fun e fs => e = .diskFull ∧ 0 < data.size ∧ (freeBlocks m.volume.table).card = 0 ∧
        Untouched path m.volume m.world fs.world) := by
  have hfills := Mounted.write_fills ha.faithful (hi.allotment.chain slot) hr data
  rw [ho] at hfills
  have hends : Ends (FileSystem.write fd data) (ofMounted m)
      (fun k fs => ∃ m', fs = ofMounted m' ∧ (0 < data.size → 0 < k) ∧ m'.Faithful ∧
        ∃ new, Filled m m' fd slot (own slot) new 0 data k)
      (fun e fs => ∃ m', fs = ofMounted m' ∧ e = .diskFull ∧ 0 < data.size ∧ m'.Faithful ∧
        ∃ new, Filled m m' fd slot (own slot) new 0 data 0) :=
    FileSystem.onVolume_ends (hfills.mono (fun _ m' hok => ⟨m', rfl, hok⟩)
      fun _ m' herr => ⟨m', rfl, herr⟩)
  refine (hends.and (Image.alike_ends (FileSystem.onVolume_mirrors (write_mirrors fd data)))).mono
    ?_ ?_
  · intro k fs hok
    obtain ⟨⟨m', rfl, hpos, -, new, hfilled⟩, halike⟩ := hok
    obtain ⟨hf, hs⟩ := Volume.resolve_eq_ok_iff.mp hr
    have hw := hfilled.written
    exact ⟨m', new, rfl, ha.stepped hi
      ⟨hw.tidy hi hf hs, ⟨_, _, hw.refiled hi⟩, fun _ => hw.touched hi⟩ halike, hpos, hfilled⟩
  · intro e fs herr
    obtain ⟨⟨m', rfl, rfl, hpos, -, new, hfilled⟩, halike⟩ := herr
    have hw := hfilled.written
    have hroom := hfilled.room_eq
    have hlen := hw.length_eq
    rw [hown, List.length_nil] at hroom hlen
    -- no block was taken, so none was written
    obtain rfl : new = [] := List.length_eq_zero_iff.mp (by simpa [ceilDiv, blockSize] using hlen)
    have hst : m'.storage = m.storage :=
      hw.shape.eq_of_block (.refl _) fun i => hw.frame i fun b hb => absurd hb List.not_mem_nil
    refine ⟨rfl, hpos, ?_, (Image.open?_of_alike halike path).trans ha.opened, ?_⟩
    · simp only [blockSize] at hroom
      omega
    · rw [Mounted.storage, hw.device_eq] at hst
      exact hst

/-- The volume with an empty file entered in a slot, and other descriptors. -/
def Volume.entered {H : Type} (v : Volume H) (slot : Slot) (name : String) (files : OpenFiles) :
    Volume H := { v with root := v.root.set slot (Entry.ofName name), files }

/-- **A file that can be entered** is entered and opened; nothing of it has reached the image yet. -/
theorem Holds.exists_entered (hv : Holds path v h) (hi : v.Intact own) (ha : v.Admits name)
    {w : Host} (hu : Untouched path v h w) : ∃ slot files, (v.root.get slot).isFree = true ∧
      FileSystem.create name (ofMounted ⟨v, w⟩) =
        .ok () (ofMounted ⟨v.entered slot name v.files, w⟩) ∧
      FileSystem.openFile name (ofMounted ⟨v.entered slot name v.files, w⟩) =
        .ok 0 (ofMounted ⟨v.entered slot name files, w⟩) ∧
      Aboard path ⟨v.entered slot name files, w⟩ ∧
      (v.entered slot name files).Intact (Function.update own slot []) ∧
      (v.entered slot name files).resolve 0 = .ok (⟨name, 0⟩, slot) := by
  obtain ⟨slot, hfind, hslot, hcreate⟩ := Volume.Admits.create_run (m := ⟨v, w⟩) ha
  have ht := hi.created ha.validName hfind hslot
  have hi₁ := hi.refiled ht (hi.created_refiled hslot name)
  have hfound : (v.root.set slot (Entry.ofName name)).find? name = some slot :=
    Directory.find?_set_self hfind (Directory.holds_iff.mpr ⟨isFree_of_validName ha.validName, rfl⟩)
  obtain ⟨files, hopen, ht₂, hr⟩ := FileSystem.exists_openFile
    (m := ⟨v.entered slot name v.files, w⟩) ht hv.files_eq hfound
  have hi₂ : (v.entered slot name files).Intact (Function.update own slot []) :=
    ⟨ht₂, hi₁.allotment, hi₁.length_eq⟩
  exact ⟨slot, files, (Directory.freeSlot?_eq_some_iff.mp hslot).1, hcreate, hopen,
    (hv.untouched hu).toAboard.of_memory rfl rfl ⟨_, hi₂⟩, hi₂, hr⟩

/-- **A file was added** in the free slot `slot`. -/
structure Added (path : String) (v v' : Volume Image) (h h' : Host) (slot : Slot) (name : String)
    (bytes : ByteArray) : Prop where
  free : (v.root.get slot).isFree = true
  replaced : ∃ new, Replaced path v v' h h' slot [] new
  name_eq : (v'.root.get slot).name = name
  bytes_eq : bytesOf ⟨v', h'⟩ (v'.root.get slot) = bytes

/-- **What was written to the file** is what the image holds of it in the end. -/
theorem Untouched.exists_added {files : OpenFiles} {w : Host} (hu : Untouched path v h w)
    (hfree : (v.root.get slot).isFree = true)
    (hi : (v.entered slot name files).Intact own) (hown : own slot = [])
    (hr : (v.entered slot name files).resolve 0 = .ok (⟨name, 0⟩, slot)) {k : Nat}
    {data : ByteArray} (ha : Aboard path m) (hk : k ≤ data.size)
    (hw : Written ⟨v.entered slot name files, w⟩ m 0 slot (own slot) new 0 data k) :
    ∃ files' v' h', FileSystem.close 0 (ofMounted m) =
        .ok () (ofMounted ⟨{ m.volume with files := files' }, m.world⟩) ∧
      FileSystem.unmount (ofMounted ⟨{ m.volume with files := files' }, m.world⟩) =
        .ok () (ofWorld h') ∧ Added path v v' h h' slot name (data.extract 0 k) := by
  obtain ⟨hf, hs⟩ := Volume.resolve_eq_ok_iff.mp hr
  have ht := hw.tidy hi hf hs
  have hrefiled := hw.refiled hi
  obtain ⟨files', hclose, ht'⟩ := FileSystem.exists_close ht
    (Volume.resolve_eq_ok_iff.mp (hw.resolve_eq hi hr)).1
  have hi' := hi.refiled ht hrefiled
  have hclosed : Aboard path ⟨{ m.volume with files := files' }, m.world⟩ :=
    ha.of_memory rfl rfl ⟨_, ht', hi'.allotment, hi'.length_eq⟩
  have hget : ∀ s, s ≠ slot → (v.entered slot name files).root.get s = v.root.get s :=
    fun s hs => by rw [Volume.entered, Directory.get_set, if_neg hs]
  have hself : (v.entered slot name files).root.get slot = Entry.ofName name := by
    rw [Volume.entered, Directory.get_set_self]
  have hreplaced : Volume.Refiled v { m.volume with files := files' } slot [] new := by
    rw [hown] at hrefiled
    exact ⟨hrefiled.device_eq, hrefiled.superblock_eq,
      fun s hs => (hrefiled.get_eq s hs).trans (hget s hs), hrefiled.rechained, hrefiled.chain,
      hrefiled.length_eq⟩
  -- the blocks of the other files were not written to
  have hothers : ∀ s, s ≠ slot → m.bytesOf (v.root.get s) = bytesOf ⟨v, h⟩ (v.root.get s) := by
    intro s hs
    have hkept := bytesOf_of_refiled hi ht hrefiled hs fun b hb => hw.block_eq hi ht hs hb
    rw [show (⟨v.entered slot name files, w⟩ : Mounted Host Image).volume.root.get s = _ from
      hget s hs] at hkept
    exact hkept.trans (bytesOf_congr rfl rfl fun _ _ =>
      congrArg (fun st : Storage => st.block _) hu.storage_eq)
  have hbytes : m.bytesOf (m.volume.root.get slot) = data.extract 0 k := by
    have hsize : ((v.entered slot name files).root.get slot).size = 0 := by rw [hself]; rfl
    have hnothing : ∀ i, ByteArray.empty.extract i 0 = ByteArray.empty :=
      fun i => ByteArray.extract_eq_empty_iff.mpr (Nat.zero_le i)
    rw [hw.bytesOf_eq hi (Nat.zero_le _) hk, bytesOf_of_size_eq_zero _ hsize, hsize, hnothing,
      hnothing, ByteArray.empty_append, ByteArray.append_empty]
  obtain ⟨v', h', hun, hrep, hroot, hb⟩ := hclosed.exists_replaced (h := h) hreplaced hothers
  refine ⟨files', v', h', hclose, hun, hfree, ⟨new, hrep⟩, ?_, ?_⟩
  · rw [hroot]
    exact hw.name_eq.trans (congrArg Entry.name hself)
  · rw [hroot]
    exact (hb _).trans hbytes

variable {file : String} {option : Option String} {data : ByteArray}

/-- **A file that cannot be entered** is not added. -/
theorem Holds.add_refused (hv : Holds path v h) (ha : ¬ v.Admits name)
    (hname : (option <|> fileName? file) = some name) (hfile : h.readFile file = .ok data) :
    ∃ e h', perform (.add path file option) h = (refusal e, h') ∧ Untouched path v h h' := by
  obtain ⟨w, hm, hu⟩ := hv.exists_mount
  obtain ⟨e, hcreate⟩ := Volume.create_of_not_admits (m := ⟨v, w⟩) ha
  have hfail : execute (.add path file option) ⟨ofWorld h, ByteArray.empty⟩ =
      .error (.ofVolumeError e) ⟨ofMounted ⟨v, w⟩, ByteArray.empty⟩ := by
    rw [execute_add, bind_of_ok (nameFor_run hname), bind_of_ok (readHostFile_run hfile),
      bind_of_ok (mount_of_ok hm)]
    exact bind_of_error (onFileSystem_of_error hcreate)
  exact ⟨e, w, perform_of_error hfail, hu⟩

/-- **A file that can be entered** is added with as many bytes as there is room for, or there is no room
    for the first. -/
theorem Holds.add_run (hv : Holds path v h) (ha : v.Admits name)
    (hname : (option <|> fileName? file) = some name) (hfile : h.readFile file = .ok data) :
    (∃ h', perform (.add path file option) h = (refusal .diskFull, h') ∧ Untouched path v h h' ∧
      0 < data.size ∧ (freeBlocks v.table).card = 0) ∨
    ∃ k v' h' slot, perform (.add path file option) h = (addOutput name k data.size, h') ∧
      k = min data.size ((freeBlocks v.table).card * blockSize) ∧ (0 < data.size → 0 < k) ∧
      Added path v v' h h' slot name (data.extract 0 k) := by
  obtain ⟨own, hi⟩ := hv.anchored.intact
  obtain ⟨w, hm, hu⟩ := hv.exists_mount
  obtain ⟨slot, files, hfree, hcreate, hopen, haboard, hi₂, hr⟩ := hv.exists_entered hi ha hu
  have hown : Function.update own slot [] slot = [] := Function.update_self ..
  obtain ⟨hok, herr⟩ := ends_iff.mp (haboard.write_ends hi₂ hr hown rfl data)
  have hstart : execute (.add path file option) ⟨ofWorld h, ByteArray.empty⟩ =
      finishAdd name data 0 ⟨ofMounted ⟨v.entered slot name files, w⟩, ByteArray.empty⟩ := by
    rw [execute_add, bind_of_ok (nameFor_run hname), bind_of_ok (readHostFile_run hfile),
      bind_of_ok (mount_of_ok hm), bind_of_ok (onFileSystem_of_ok hcreate),
      bind_of_ok (onFileSystem_of_ok hopen)]
  cases hwrite : FileSystem.write 0 data (ofMounted ⟨v.entered slot name files, w⟩) with
  | error e fs =>
    obtain ⟨rfl, hpos, hcard, hu'⟩ := herr e fs hwrite
    have hfail : execute (.add path file option) ⟨ofWorld h, ByteArray.empty⟩ =
        .error (.ofVolumeError .diskFull) ⟨fs, ByteArray.empty⟩ := by
      rw [hstart, finishAdd]
      exact bind_of_error (onFileSystem_of_error hwrite)
    exact .inl ⟨fs.world, perform_of_error hfail, hu.trans ⟨hu'.opened, hu'.storage_eq⟩, hpos, hcard⟩
  | ok k fs =>
    obtain ⟨m', new, rfl, ha', hpos, hfilled⟩ := hok k fs hwrite
    have hroom := hfilled.room_eq
    rw [hown, List.length_nil, Nat.zero_add, Nat.sub_zero] at hroom
    obtain ⟨files', v', h', hclose, hun, hadded⟩ := hu.exists_added hfree hi₂ hown hr ha'
      (hroom ▸ Nat.min_le_left ..) hfilled.written
    refine .inr ⟨k, v', h', slot, ?_, hroom, hpos, hadded⟩
    exact perform_of_finishAdd hstart hwrite hclose hun

/-! ## 5. What is shown afterwards -/

/-- **Nothing of the volume in the image can be told apart** before and after. -/
structure Unchanged (path : String) (before after : Host) : Prop where
  info : PrintsSame path (.info path) before after
  list : PrintsSame path (.list path) before after
  cat : ∀ name, PrintsSame path (.cat path name) before after

/-- **After, there is a file called `name` that holds `data`,** and everything else is as before; so is
    everything once the file is removed again. -/
structure Stored (path name : String) (data : ByteArray) (before after : Host) : Prop where
  cat : Prints path (.cat path name) after (success data)
  cat_other : ∀ other, other ≠ name → PrintsSame path (.cat path other) before after
  list : ∃ above e below, e.name = name ∧ e.size = data.size ∧
    Prints path (.list path) before (listing (above ++ below)) ∧
    Prints path (.list path) after (listing (above ++ e :: below))
  remove : ∀ h', Looked path after h' → ∀ args,
    Command.parse? args = some (.remove path name) →
      (run args h').1.exitCode = 0 ∧ Unchanged path before (run args h').2

theorem CommandLine.fileOutput_congr {shown shown' : Entry → ByteArray}
    (hfind : v'.root.find? name = v.root.find? name)
    (hshown : ∀ s, v.root.find? name = some s →
      shown' (v'.root.get s) = shown (v.root.get s)) :
    fileOutput v' name shown' = fileOutput v name shown := by
  unfold fileOutput slotOf
  rw [hfind]
  cases validName name with
  | false => rfl
  | true =>
    cases hs : v.root.find? name with
    | none => rfl
    | some s => exact congrArg success (hshown s hs)

/-- The same directory, the same numbers and the same bytes. -/
theorem Holds.unchanged (hv : Holds path v h) (hv' : Holds path v' h') (hroot : v'.root = v.root)
    (hinfo : v'.info = v.info)
    (hbytes : ∀ s, bytesOf ⟨v', h'⟩ (v.root.get s) = bytesOf ⟨v, h⟩ (v.root.get s)) :
    Unchanged path h h' where
  info := by
    have hprints := hv'.prints_info
    rw [infoOutput, hinfo] at hprints
    exact hv.prints_info.same hprints
  list := by
    have hprints := hv'.prints_list
    rw [hroot] at hprints
    exact hv.prints_list.same hprints
  cat name := by
    have hprints := hv'.prints_cat name
    have houtput : fileOutput v' name (bytesOf ⟨v', h'⟩) = fileOutput v name (bytesOf ⟨v, h⟩) :=
      fileOutput_congr (by rw [hroot]) fun s _ => by rw [hroot, hbytes]
    rw [houtput] at hprints
    exact (hv.prints_cat name).same hprints

/-- **What was added and removed again** has left nothing behind. -/
theorem Added.unchanged_of_removed {v'' : Volume Image} {h₁ h₂ : Host} {bytes : ByteArray}
    (ha : Added path v v' h h' slot name bytes) (hv : Holds path v h)
    (hp : Preserved path v' h' h₁) (hi' : v'.Intact own)
    (hr : Replaced path v' v'' h₁ h₂ slot (own slot) [])
    (hfree : v''.root.get slot = Entry.free) : Unchanged path h h₂ := by
  obtain ⟨own₀, hi⟩ := hv.anchored.intact
  obtain ⟨new, hadded⟩ := ha.replaced
  have hslot : v.root.get slot = Entry.free := hv.tidy.free_eq slot ha.free
  have hroot : v''.root = v.root := by
    rw [hr.refiled.root_eq, hfree, hadded.refiled.root_eq, Directory.set_set, ← hslot,
      Directory.set_get_self]
  -- the blocks that were taken were given back
  have htable : v''.table.freeCount = v.table.freeCount := by
    have hgiven := hr.refiled.freeCount hi' hr.holds.tidy
    have hrefiled := hadded.refiled
    rw [← hi.own_of_isFree ha.free] at hrefiled
    have htaken := hrefiled.freeCount hi hadded.holds.tidy
    rw [hfree] at hgiven
    rw [hslot] at htaken
    omega
  refine hv.unchanged hr.holds hroot ?_ fun s => ?_
  · rw [Volume.info, Volume.info, hroot, htable, hr.refiled.superblock_eq,
      hadded.refiled.superblock_eq]
  · by_cases hs : s = slot
    · have hsize : (v.root.get s).size = 0 := by rw [hs, hslot]; rfl
      rw [bytesOf_of_size_eq_zero _ hsize, bytesOf_of_size_eq_zero _ hsize]
    · have hafter := hr.bytes_eq s hs
      rw [hadded.refiled.get_eq s hs, hp.bytes_eq] at hafter
      exact hafter.trans (hadded.bytes_eq s hs)

/-- **What was added is shown,** and nothing else has changed. -/
theorem Added.stored (ha : Added path v v' h h' slot name data) (hv : Holds path v h)
    (hadmits : v.Admits name) : Stored path name data h h' := by
  obtain ⟨new, hadded⟩ := ha.replaced
  have hslot : v.root.get slot = Entry.free := hv.tidy.free_eq slot ha.free
  have hocc : (v'.root.get slot).isFree = false :=
    isFree_of_validName (ha.name_eq.symm ▸ hadmits.validName)
  have hfound : v'.root.find? name = some slot := by
    rw [hadded.refiled.root_eq]
    exact Directory.find?_set_self (Directory.find?_eq_none_iff.mpr hadmits.fresh)
      (Directory.holds_iff.mpr ⟨hocc, ha.name_eq⟩)
  refine ⟨?_, fun other hne => ?_, ?_, fun h₁ hl args hargs => ?_⟩
  · have hprints := hadded.holds.prints_cat name
    have houtput : fileOutput v' name (bytesOf ⟨v', h'⟩) = success data := by
      unfold fileOutput slotOf
      rw [hadmits.validName, hfound]
      exact congrArg success ha.bytes_eq
    rwa [houtput] at hprints
  · have hprints := hadded.holds.prints_cat other
    have hfind : v'.root.find? other = v.root.find? other := by
      rw [hadded.refiled.root_eq]
      exact Directory.find?_set_of_holds (Directory.holds_of_ne (ha.name_eq.trans_ne hne.symm))
        (Directory.holds_of_isFree ha.free)
    have houtput : fileOutput v' other (bytesOf ⟨v', h'⟩) = fileOutput v other (bytesOf ⟨v, h⟩) := by
      refine fileOutput_congr hfind fun s hs => ?_
      have hne' : s ≠ slot := by
        rintro rfl
        exact absurd ha.free (Bool.eq_false_iff.mp (Directory.of_find? hs).1)
      rw [hadded.refiled.get_eq s hne', hadded.bytes_eq s hne']
    rw [houtput] at hprints
    exact (hv.prints_cat other).same hprints
  · obtain ⟨above, below, hfiles⟩ := v.root.exists_files_set slot
    refine ⟨above, v'.root.get slot, below, ha.name_eq, ?_, ?_, ?_⟩
    · rw [← ha.bytes_eq, size_bytesOf]
    · have hbefore := hfiles Entry.free
      rw [← hslot, Directory.set_get_self, hslot] at hbefore
      have hprints := hv.prints_list
      rwa [hbefore] at hprints
    · have hafter := hfiles (v'.root.get slot)
      rw [← hadded.refiled.root_eq, hocc] at hafter
      have hprints := hadded.holds.prints_list
      rwa [hafter] at hprints
  · have hp := hadded.holds.looked hl
    obtain ⟨own, hi'⟩ := hp.holds.anchored.intact
    obtain ⟨v'', h₂, hrun, hr, hfree⟩ := hp.holds.remove_run hi' hfound
    rw [run_of_parse? hargs, hrun]
    exact ⟨rfl, ha.unchanged_of_removed hv hp hi' hr hfree⟩

/-! ## 6. An image and a file -/

/-- A host with an image of sixteen blocks that was formatted, and a file of three bytes. -/
theorem exists_formatted_beside : ∃ (h : Host) (i : Image) (data : ByteArray),
    Holds "img" (Volume.blank i Superblock.sixteen) h ∧ h.readFile "f" = .ok data ∧
      data.size = 3 := by
  obtain ⟨f, hf⟩ : ∃ f : HostFile, f = (HostFile.zeros 3).setPiece 0 (Block.padded "abc".toUTF8) :=
    ⟨_, rfl⟩
  obtain ⟨h₀, hh₀⟩ : ∃ h₀ : Host, h₀ =
    (Host.ofWorkingDirectory []).put ["img"] (.file (HostFile.zeros 65536)) := ⟨_, rfl⟩
  have hopen : Image.open? h₀ "img" = .ok ⟨["img"], 65536⟩ := by rw [hh₀]; rfl
  obtain ⟨h₁, -, halike, hv⟩ := Image.exists_format hopen Superblock.forBlockCount?_sixteen
  -- the file is put beside the image when it was formatted
  have hput := halike.put_congr ["f"] (.file f)
  have hresolved : (h₀.put ["f"] (.file f)).resolveFile "f" = .ok (["f"], f) := by rw [hh₀]; rfl
  have hread := hput.readFile_eq hresolved (Host.node?_put_self ..)
  have hu : Untouched "img" (Volume.blank ⟨["img"], 65536⟩ Superblock.sixteen) h₁
      (h₁.put ["f"] (.file f)) := by
    refine ⟨(Image.open?_of_alike hput "img").trans ?_, Image.storage_put_of_ne _ _ ?_⟩
    · rw [hh₀]
      rfl
    · show ["img"] ≠ ["f"]
      decide
  refine ⟨_, _, _, hv.untouched hu, hread, ?_⟩
  rw [HostFile.size_toBytes, hf]
  rfl

/-! ## 7. What `add` does -/

/-- The blocks for `a` bytes are there exactly if the bytes fit into them. -/
theorem ceilDiv_le_iff {a n : Nat} : ceilDiv a blockSize ≤ n ↔ a ≤ n * blockSize := by
  simp only [ceilDiv, blockSize]
  omega

/-- The longest part of `a` bytes that `n` blocks hold. -/
theorem isGreatest_min_mul (a n : Nat) :
    IsGreatest {k | k ≤ a ∧ ceilDiv k blockSize ≤ n} (min a (n * blockSize)) :=
  ⟨⟨Nat.min_le_left .., ceilDiv_le_iff.mpr (Nat.min_le_right ..)⟩,
    fun _ hk => Nat.le_min.mpr ⟨hk.1, ceilDiv_le_iff.mp hk.2⟩⟩

theorem CommandLine.addOutput_exitCode (name : String) (k n : Nat) :
    (addOutput name k n).exitCode = if k = n then 0 else 1 := by
  unfold addOutput
  split <;> rfl

/-- **What `add` comes to:** as much is stored as there is room for, or nothing shown has changed. -/
theorem Holds.add_shown (hv : Holds path v h) (hname : (option <|> fileName? file) = some name)
    (hfile : h.readFile file = .ok data) :
    (∃ e h', perform (.add path file option) h = (refusal e, h') ∧ Unchanged path h h' ∧
      (v.Admits name → 0 < data.size ∧ (freeBlocks v.table).card = 0)) ∨
    v.Admits name ∧ ∃ k h', perform (.add path file option) h = (addOutput name k data.size, h') ∧
      k = min data.size ((freeBlocks v.table).card * blockSize) ∧ (0 < data.size → 0 < k) ∧
      Stored path name (data.extract 0 k) h h' := by
  have hunchanged : ∀ {h'}, Untouched path v h h' → Unchanged path h h' := fun hu =>
    hv.unchanged (hv.untouched hu) rfl rfl fun s => hu.bytesOf_eq (v.root.get s)
  by_cases ha : v.Admits name
  · obtain ⟨h', hrun, hu, hpos, hcard⟩ | ⟨k, v', h', slot, hrun, hk, hpos, hadded⟩ :=
      hv.add_run ha hname hfile
    · exact .inl ⟨_, h', hrun, hunchanged hu, fun _ => ⟨hpos, hcard⟩⟩
    · exact .inr ⟨ha, k, h', hrun, hk, hpos, hadded.stored hv ha⟩
  · obtain ⟨e, h', hrun, hu⟩ := hv.add_refused ha hname hfile
    exact .inl ⟨e, h', hrun, hunchanged hu, fun ha' => absurd ha' ha⟩

namespace CommandLine

/-- **The command line stores files faithfully.** Where an image mounts and `check` finds nothing wrong
    with the volume, and the host file can be read, `add` succeeds exactly if a file of that name can be
    entered and the free blocks suffice for its bytes. Then the file is shown with these bytes, all else
    as before, and removing it takes everything back. Where the name can be entered but only a part of
    the bytes finds room, the command fails and the file is shown with the longest part that does. Where
    it fails for any other reason nothing shown has changed. -/
theorem add_stores {image file name : String} {option : Option String} {data : ByteArray}
    {args : List String} {host : Host} {fs₀ : FileSystem Host Image} {v : Volume Image}
    (hm : FileSystem.mountImage image (ofWorld host) = .ok () fs₀) (hv : fs₀.mounted = some v)
    (hc : FileSystem.check fs₀ = .ok () fs₀)
    (hargs : Command.parse? args = some (.add image file option))
    (hname : (option <|> fileName? file) = some name) (hfile : host.readFile file = .ok data) :
    ((run args host).1.exitCode = 0 ↔
      v.Admits name ∧ ceilDiv data.size blockSize ≤ (freeBlocks v.table).card) ∧
    ((run args host).1.exitCode = 0 → Stored image name data host (run args host).2) ∧
    (v.Admits name → 0 < (freeBlocks v.table).card →
      (freeBlocks v.table).card < ceilDiv data.size blockSize →
      (run args host).1.exitCode = 1 ∧ ∃ k,
        IsGreatest {k | k ≤ data.size ∧ ceilDiv k blockSize ≤ (freeBlocks v.table).card} k ∧
        Stored image name (data.extract 0 k) host (run args host).2) ∧
    (¬ (v.Admits name ∧ (ceilDiv data.size blockSize ≤ (freeBlocks v.table).card ∨
        0 < (freeBlocks v.table).card)) →
      (run args host).1.exitCode = 1 ∧ Unchanged image host (run args host).2) := by
  obtain ⟨v', hv', hholds⟩ := FileSystem.exists_holds hm hc
  obtain rfl : v' = v := Option.some.inj (hv'.symm.trans hv)
  rw [run_of_parse? hargs]
  obtain ⟨e, h', hrun, hunchanged, hroom⟩ | ⟨hadmits, k, h', hrun, hk, hpos, hstored⟩ :=
    hholds.add_shown hname hfile
  · rw [hrun]
    refine ⟨⟨fun h => absurd h Nat.one_ne_zero, fun ⟨ha, hfits⟩ => ?_⟩,
      fun h => absurd h Nat.one_ne_zero, fun ha hcard => ?_, fun _ => ⟨rfl, hunchanged⟩⟩
    · have hnone := hroom ha
      have hneeded := ceilDiv_pos hnone.1
      omega
    · exact absurd (hroom ha).2 (Nat.ne_of_gt hcard)
  · rw [hrun, addOutput_exitCode, ceilDiv_le_iff, and_iff_right hadmits, and_iff_right hadmits]
    refine ⟨?_, fun hok => ?_, fun _ _ hfull => ?_, fun hnone => ?_⟩
    · split <;> omega
    · obtain rfl : k = data.size := by
        split at hok
        · assumption
        · exact absurd hok Nat.one_ne_zero
      rwa [ByteArray.extract_zero_size] at hstored
    · have hpart := Nat.lt_of_not_le (mt ceilDiv_le_iff.mpr (Nat.not_le_of_lt hfull))
      exact ⟨if_neg (by omega), k, hk ▸ isGreatest_min_mul .., hstored⟩
    · -- where the name can be entered and nothing is free, there is nothing to store
      simp only [blockSize] at hk hnone
      omega

/-- A file of three bytes is added to an image of sixteen blocks that was formatted. -/
theorem add_stores_formatted : ∃ (host : Host) (fs₀ : FileSystem Host Image) (v : Volume Image)
    (data : ByteArray), FileSystem.mountImage "img" (ofWorld host) = .ok () fs₀ ∧
      fs₀.mounted = some v ∧ FileSystem.check fs₀ = .ok () fs₀ ∧
      host.readFile "f" = .ok data ∧ data.size = 3 ∧
      (run ["add", "--", "img", "f"] host).1.exitCode = 0 ∧
      Stored "img" "f" data host (run ["add", "--", "img", "f"] host).2 := by
  obtain ⟨host, i, data, hv, hread, hsize⟩ := exists_formatted_beside
  obtain ⟨w, hm, -⟩ := hv.exists_mount
  have hmounted : (ofMounted ⟨Volume.blank i Superblock.sixteen, w⟩).mounted =
    some (Volume.blank i Superblock.sixteen) := rfl
  have hc := (FileSystem.checked_of_intact fun v hv' => by
    cases hmounted.symm.trans hv'
    exact hv.anchored.intact).check_eq rfl
  have hargs : Command.parse? ["add", "--", "img", "f"] = some (.add "img" "f" none) := rfl
  have hname : (none <|> fileName? "f") = some "f" := rfl
  obtain ⟨hsuccess, hstored, -⟩ := add_stores hm hmounted hc hargs hname hread
  have hroom : ceilDiv 3 blockSize ≤ (freeBlocks (AllocationTable.empty 13)).card := by decide
  have hzero := hsuccess.mpr ⟨Volume.admits_blank (by decide), by rwa [hsize]⟩
  exact ⟨host, _, _, data, hm, hmounted, hc, hread, hsize, hzero, hstored hzero⟩

end CommandLine

end FlatVolume
