import FlatVolume.Proofs.Consistency
import FlatVolume.Proofs.View

/-!
# Calls do to a volume what they do to plain files

On an intact volume whose device never fails, every call answers what it answers on the plain files
of the volume, and leaves a volume whose plain files are those that are left there
(`FileCall.run_refines`). Hence a list of calls cannot tell the two apart
(`FileSystem.answers_eq_plain`).

Each call is compared by itself. Those that look at names and descriptors decide by the same
questions in the same order; for `read`, `write` and `truncate` the bytes are compared one by one.
-/

namespace FlatVolume

open AllocationTable Bytes FlatVolume.Computation Mounted
open FileSystem (ofMounted)

variable {W H : Type} [BlockDevice W H] [LawfulBlockDevice W H] {α β : Type}

/-! ## 1. What is to be shown -/

/-- Nothing is wrong with the volume, and nothing goes wrong with its device. -/
structure Mounted.Faithful (m : Mounted W H) : Prop where
  intact : m.volume.IsIntact
  inRange : m.InRange
  neverFails : m.NeverFails

/-- **What `x` does to the volume, `y` does to its plain files.** -/
def Refines (x : FileSystemM W H α) (y : VolumeM Plain α) (m : Mounted W H) : Prop :=
  Ends x (ofMounted m)
    (fun a fs => ∃ m', fs = ofMounted m' ∧ m'.Faithful ∧ y m.plain = .ok a m'.plain)
    (fun e fs => ∃ m', fs = ofMounted m' ∧ m'.Faithful ∧ y m.plain = .error e m'.plain)

variable {m m' : Mounted W H} {own : Slot → List Link} {slot : Slot} {new : List Link}

theorem Refines.map {x : FileSystemM W H α} {y : VolumeM Plain α} (h : Refines x y m) (f : α → β) :
    Refines (f <$> x) (f <$> y) m := by
  refine Ends.map (Ends.mono h ?_ ?_)
  · intro a fs hok
    rcases hok with ⟨m', hfs, hf, hy⟩
    exact ⟨m', hfs, hf, map_eq_ok_iff.mpr ⟨a, hy, rfl⟩⟩
  · intro e fs herr
    rcases herr with ⟨m', hfs, hf, hy⟩
    exact ⟨m', hfs, hf, map_eq_error_iff.mpr hy⟩

/-- A call that fails with nothing changed. -/
theorem Refines.of_error {x : FileSystemM W H α} {y : VolumeM Plain α} {e : VolumeError}
    (h : m.Faithful) (hx : x (ofMounted m) = .error e (ofMounted m))
    (hy : y m.plain = .error e m.plain) : Refines x y m :=
  Ends.of_error hx ⟨m, rfl, h, hy⟩

theorem Refines.of_ok {x : FileSystemM W H α} {y : VolumeM Plain α} {a : α}
    (h : m'.Faithful) (hx : x (ofMounted m) = .ok a (ofMounted m'))
    (hy : y m.plain = .ok a m'.plain) : Refines x y m :=
  Ends.of_ok hx ⟨m', rfl, h, hy⟩

namespace Mounted

/-- What replaces one file and leaves the device faithful leaves the volume faithful. -/
theorem Faithful.of_refiled (h : m.Faithful) (hi : m.volume.Intact own) (ht : m'.volume.Tidy)
    (hr : Volume.Refiled m.volume m'.volume slot (own slot) new)
    (hc : m'.storage.blockCount = m.storage.blockCount) (hn : m'.NeverFails) : m'.Faithful where
  intact := ⟨_, hi.refiled ht hr⟩
  inRange b hb := by
    rw [hr.rechained.size_eq] at hb
    rw [hr.superblock_eq, hc]
    exact h.inRange b hb
  neverFails := hn

/-- What replaces one file in memory leaves the volume faithful. -/
theorem Faithful.of_memory (h : m.Faithful) (hi : m.volume.Intact own) {v : Volume H} (ht : v.Tidy)
    (hr : Volume.Refiled m.volume v slot (own slot) new) : Faithful ⟨v, m.world⟩ := by
  refine h.of_refiled hi ht hr ?_ ?_
  · rw [storage, hr.device_eq]
    rfl
  · rw [NeverFails, hr.device_eq]
    exact h.neverFails

/-- Other descriptors leave the volume faithful. -/
theorem Faithful.of_files (h : m.Faithful) {files : OpenFiles}
    (ht : Volume.Tidy { m.volume with files }) :
    Faithful ⟨{ m.volume with files }, m.world⟩ := by
  obtain ⟨own, hi⟩ := h.intact
  exact h.of_memory hi ht (.of_eq hi ⟨0, by decide⟩ rfl rfl rfl rfl)

/-- The plain files after one was replaced in memory. -/
theorem plain_of_memory (hi : m.volume.Intact own) {v : Volume H} (ht : v.Tidy)
    (hr : Volume.Refiled m.volume v slot (own slot) new) :
    plain ⟨v, m.world⟩ = { m.plain.setFile slot (plainFile ⟨v, m.world⟩ (v.root.get slot)) with
      handles := v.files.slots } := by
  refine plain_of_refiled hi ht hr fun s _ b _ => ?_
  rw [storage, hr.device_eq]
  rfl

end Mounted

/-! ## 2. Names -/

namespace FileSystem

theorem create_refines (h : m.Faithful) (name : String) :
    Refines (create name) (Plain.create name) m := by
  have hplain := plain_create (m := m) name
  have hrun := create_run m name
  cases hv : validName name with
  | false =>
    rw [hv] at hrun hplain
    exact .of_error h hrun hplain
  | true =>
    rw [hv] at hrun hplain
    cases hf : m.volume.root.find? name with
    | some s =>
      rw [hf] at hrun hplain
      exact .of_error h hrun hplain
    | none =>
      rw [hf] at hrun hplain
      cases hs : m.volume.root.freeSlot? with
      | none =>
        rw [hs] at hrun hplain
        exact .of_error h hrun hplain
      | some slot =>
        rw [hs] at hrun hplain
        obtain ⟨own, hi⟩ := h.intact
        have ht := hi.created hv hf hs
        have hr := hi.created_refiled hs name
        refine .of_ok (h.of_memory hi ht hr) hrun (hplain.trans ?_)
        have hfile : ∀ m' : Mounted W H, m'.plainFile (Entry.ofName name) =
            some ⟨name, ByteArray.empty⟩ := by
          intro m'
          rw [plainFile, isFree_of_validName hv, bytesOf_of_size_eq_zero m' rfl]
          rfl
        rw [plain_of_memory hi ht hr, Directory.get_set_self, hfile]
        rfl

theorem delete_refines (h : m.Faithful) (name : String) :
    Refines (delete name) (Plain.delete name) m := by
  have hplain := plain_delete (m := m) name
  have hrun := delete_run m name
  cases hv : validName name with
  | false =>
    rw [hv] at hrun hplain
    exact .of_error h hrun hplain
  | true =>
    rw [hv] at hrun hplain
    cases hf : m.volume.root.find? name with
    | none =>
      rw [hf] at hrun hplain
      exact .of_error h hrun hplain
    | some slot =>
      rw [hf] at hrun hplain
      cases ho : m.volume.files.isOpen name with
      | true =>
        rw [ho] at hrun hplain
        exact .of_error h hrun hplain
      | false =>
        rw [ho] at hrun hplain
        obtain ⟨own, hi⟩ := h.intact
        have hfree := (hi.allotment.chain slot).freeChain_eq
        have ht := hi.deleted hf ho (size_freeAll m.volume.table (own slot))
        have hr := m.volume.deleted_refiled own slot
        dsimp only at hrun
        rw [hfree] at hrun
        refine .of_ok (h.of_memory hi ht hr) hrun (hplain.trans ?_)
        rw [plain_of_memory hi ht hr, Directory.get_set_self]
        rfl

theorem list_refines (h : m.Faithful) :
    Refines ((·.map fun e => (e.name, e.size)) <$> list) Plain.list m :=
  .of_ok h rfl (by rw [Plain.list, plain_list])

theorem openFile_refines (h : m.Faithful) (name : String) :
    Refines (openFile name) (Plain.openFile name) m := by
  have hplain := plain_openFile (m := m) name
  have hrun := openFile_run m name
  cases hv : validName name with
  | false =>
    rw [hv] at hrun hplain
    exact .of_error h hrun hplain
  | true =>
    rw [hv] at hrun hplain
    cases hf : m.volume.root.find? name with
    | none =>
      rw [hf] at hrun hplain
      exact .of_error h hrun hplain
    | some slot =>
      rw [hf] at hrun hplain
      cases hl : lowest? Option.isNone m.volume.files.slots with
      | none =>
        rw [OpenFiles.bind, hl] at hrun
        rw [hl] at hplain
        exact .of_error h hrun hplain
      | some fd =>
        obtain ⟨own, hi⟩ := h.intact
        have hb : m.volume.files.bind name =
            .ok (fd.val, ⟨m.volume.files.slots.set fd (some ⟨name, 0⟩)⟩) := by
          rw [OpenFiles.bind, hl]
        rw [hb] at hrun
        rw [hl] at hplain
        exact .of_ok (h.of_files (hi.opened hf hb)) hrun hplain

/-! ## 3. Descriptors -/

theorem close_refines (h : m.Faithful) (fd : Nat) : Refines (close fd) (Plain.close fd) m := by
  have hplain := plain_close (m := m) fd
  have hrun := close_run m fd
  cases hf : m.volume.files.get? fd with
  | none =>
    rw [OpenFiles.release, hf] at hrun
    rw [hf] at hplain
    exact .of_error h hrun hplain
  | some f =>
    obtain ⟨own, hi⟩ := h.intact
    have hrel : m.volume.files.release fd = .ok ⟨m.volume.files.slots.setIfInBounds fd none⟩ := by
      rw [OpenFiles.release, hf]
    rw [hrel] at hrun
    rw [hf] at hplain
    exact .of_ok (h.of_files (hi.closed hrel)) hrun hplain

theorem stat_refines (h : m.Faithful) (fd : Nat) : Refines (stat fd) (Plain.stat fd) m := by
  have hplain := plain_stat (m := m) fd
  obtain ⟨own, hi⟩ := h.intact
  have hrun : stat fd (ofMounted m) = _ := query_run _ m
  cases hr : m.volume.resolve fd with
  | error e =>
    rw [hr] at hrun hplain
    exact .of_error h hrun hplain
  | ok p =>
    obtain ⟨f, slot⟩ := p
    rw [hr] at hrun hplain
    dsimp only at hplain
    rw [size_plain_bytes hi.toTidy] at hplain
    exact .of_ok h hrun hplain

theorem tell_refines (h : m.Faithful) (fd : Nat) : Refines (tell fd) (Plain.tell fd) m := by
  have hplain := plain_tell (m := m) fd
  have hrun : tell fd (ofMounted m) = _ := query_run _ m
  cases hf : m.volume.files.get? fd with
  | none =>
    rw [OpenFiles.get, hf] at hrun
    rw [hf] at hplain
    exact .of_error h hrun hplain
  | some f =>
    rw [OpenFiles.get, hf] at hrun
    rw [hf] at hplain
    exact .of_ok h hrun hplain

theorem seek_refines (h : m.Faithful) (fd offset : Nat) :
    Refines (seek fd offset) (Plain.seek fd offset) m := by
  have hplain := plain_seek (m := m) fd offset
  obtain ⟨own, hi⟩ := h.intact
  have hrun := seek_run m fd offset
  cases hr : m.volume.resolve fd with
  | error e =>
    rw [hr] at hrun hplain
    exact .of_error h hrun hplain
  | ok p =>
    obtain ⟨f, slot⟩ := p
    rw [hr] at hrun hplain
    dsimp only at hrun hplain
    rw [size_plain_bytes hi.toTidy] at hplain
    by_cases hlt : (m.volume.root.get slot).size < offset
    · rw [if_pos hlt] at hrun hplain
      exact .of_error h hrun hplain
    · rw [if_neg hlt] at hrun hplain
      obtain ⟨hf, hs⟩ := Volume.resolve_eq_ok_iff.mp hr
      rw [plain_moveTo (m := m) rfl] at hplain
      exact .of_ok (h.of_files (hi.moved hf hs (Nat.le_of_not_lt hlt))) hrun hplain

/-! ## 4. Data -/

theorem read_refines (h : m.Faithful) (fd count : Nat) :
    Refines (read fd count) (Plain.read fd count) m := by
  have hplain := plain_read (m := m) fd count
  obtain ⟨own, hi⟩ := h.intact
  refine onVolume_ends ((read_ends_of_intact hi fd count).mono ?_ ?_)
  · intro bytes m' hok
    rcases hok with ⟨f, slot, k, w, hr, hk, hbytes, rfl, ha⟩
    obtain ⟨hf, hs⟩ := Volume.resolve_eq_ok_iff.mp hr
    have ho := hi.offset_le hr
    have hold := plain_bytes (m := m) (Directory.of_find? hs).1
    have hextract : (m.plain.bytes slot).extract f.offset
        (min (f.offset + count) (m.plain.bytes slot).size) = bytes := by
      refine ext_byteAt ?_ fun i hlt => ?_
      · rw [ByteArray.size_extract, size_plain_bytes hi.toTidy, hbytes.size_eq]
        omega
      · rw [ByteArray.size_extract, size_plain_bytes hi.toTidy] at hlt
        rw [byteAt_extract (by rw [size_plain_bytes hi.toTidy]; omega), hold,
          byteAt_bytesOf _ _ (by omega), hi.blocksOf_eq, hbytes.byteAt_eq i (by omega)]
    rw [hr] at hplain
    dsimp only at hplain
    rw [hextract, hbytes.size_eq, plain_moveTo (m := m) rfl] at hplain
    have hview : plain ⟨{ m.volume with files := m.volume.files.moveTo fd (f.offset + k) }, w⟩ =
        { m.plain with handles := (m.volume.files.moveTo fd (f.offset + k)).slots } :=
      plain_of_files ha.storage_eq
    refine ⟨_, rfl, h.of_refiled hi (hi.moved hf hs (by omega))
      (.of_eq hi slot rfl rfl rfl rfl) ?_ (ha.neverFails h.neverFails), hplain.trans ?_⟩
    · exact congrArg Storage.blockCount ha.storage_eq
    · rw [hview]
  · intro e m' herr
    rcases herr with ⟨rfl, hr⟩ | hfail
    · rw [hr] at hplain
      exact ⟨m', rfl, h, hplain⟩
    · exact absurd h.neverFails (hfail.fails h.inRange)

/-- The plain files after one was shortened in memory. -/
theorem plain_of_shortened (hi : m.volume.Intact own) {name : String} {size : Nat} {first : Link}
    (hs : m.volume.root.find? name = some slot) (hle : size ≤ (m.volume.root.get slot).size)
    {v : Volume H} (ht : v.Tidy)
    (hroot : v.root = m.volume.root.set slot ⟨(m.volume.root.get slot).name, size, first⟩)
    (hr : Volume.Refiled m.volume v slot (own slot) ((own slot).take (ceilDiv size blockSize))) :
    plain ⟨v, m.world⟩ =
      { m.plain.setFile slot (some ⟨name, (m.plain.bytes slot).extract 0 size⟩) with
        handles := v.files.slots } := by
  obtain ⟨hfree, hname⟩ := Directory.of_find? hs
  have hget : v.root.get slot = ⟨(m.volume.root.get slot).name, size, first⟩ := by
    rw [hroot, Directory.get_set_self]
  have hchain := hr.chain
  rw [hget] at hchain
  have hst : Mounted.storage ⟨v, m.world⟩ = m.storage := by
    rw [Mounted.storage, hr.device_eq]
    rfl
  have hbytes : bytesOf ⟨v, m.world⟩ ⟨(m.volume.root.get slot).name, size, first⟩ =
      (m.bytesOf (m.volume.root.get slot)).extract 0 size :=
    bytesOf_shortened hi hr.superblock_eq hst (Volume.blocksOf_of_chain hchain) hle
  have hfile : plainFile ⟨v, m.world⟩ (v.root.get slot) =
      some ⟨name, (m.plain.bytes slot).extract 0 size⟩ := by
    rw [hget, plain_bytes hfree, ← hbytes]
    exact plainFile_of_name hfree hname
  rw [plain_of_memory hi ht hr, hfile]

theorem truncate_refines (h : m.Faithful) (fd size : Nat) :
    Refines (truncate fd size) (Plain.truncate fd size) m := by
  have hplain := plain_truncate (m := m) fd size
  obtain ⟨own, hi⟩ := h.intact
  have hrun := onVolume_run (Mounted.truncate fd size) m
  cases hr : m.volume.resolve fd with
  | error e =>
    rw [truncate_run, hr] at hrun
    rw [hr] at hplain
    exact .of_error h hrun hplain
  | ok p =>
    obtain ⟨f, slot⟩ := p
    obtain ⟨hf, hs⟩ := Volume.resolve_eq_ok_iff.mp hr
    rw [hr] at hplain
    dsimp only at hplain
    rw [size_plain_bytes hi.toTidy] at hplain
    by_cases hlt : (m.volume.root.get slot).size < size
    · rw [truncate_run, hr] at hrun
      dsimp only at hrun
      rw [if_pos hlt] at hrun hplain
      exact .of_error h hrun hplain
    · rw [if_neg hlt] at hplain
      have hle := Nat.le_of_not_lt hlt
      obtain ⟨t, first, htrunc, hrech, hchain⟩ := truncate_run_of_intact hi hf hs hle
      rw [htrunc] at hrun
      have ht := hi.shortened first hs hle hrech.size_eq
      have hrefiled := hi.shortened_refiled f.name hle hrech hchain
      refine .of_ok (h.of_memory hi ht hrefiled) hrun (hplain.trans ?_)
      rw [plain_of_shortened hi hs hle ht rfl hrefiled]

end FileSystem

/-! ## 5. Writing -/

namespace Mounted

section Written

variable {fd offset k : Nat} {data : ByteArray}
  (hw : Written m m' fd slot (own slot) new offset data k)

include hw

theorem Written.files_eq : m'.volume.files = m.volume.files.moveTo fd (offset + k) := by
  obtain ⟨n, hst, rfl⟩ := hw
  obtain ⟨first, hv⟩ := hst.volume_eq
  show n.volume.files.moveTo fd (offset + k) = _
  rw [hv]

theorem Written.name_eq : (m'.volume.root.get slot).name = (m.volume.root.get slot).name := by
  obtain ⟨n, hst, rfl⟩ := hw
  obtain ⟨first, hv⟩ := hst.volume_eq
  have hname : (n.volume.root.get slot).name = (m.volume.root.get slot).name := by
    rw [hv]
    simp only [Directory.get_set_self]
  simp only [commit, Directory.get_set_self, hname]

/-- The descriptor is bound to the same file, behind what was written. -/
theorem Written.resolve_eq (hi : m.volume.Intact own) {f : OpenFile}
    (hr : m.volume.resolve fd = .ok (f, slot)) :
    m'.volume.resolve fd = .ok (⟨f.name, offset + k⟩, slot) := by
  obtain ⟨hf, hs⟩ := Volume.resolve_eq_ok_iff.mp hr
  refine Volume.resolve_eq_ok_iff.mpr ⟨?_, ?_⟩
  · rw [hw.files_eq, OpenFiles.get?_moveTo, if_pos rfl, hf]
    rfl
  · rw [(hw.refiled hi).root_eq]
    exact (Directory.find?_set_of_name_eq hw.name_eq _).trans hs

/-- The bytes that a write leaves: those that were written, and the old ones around them. -/
theorem Written.bytesOf_eq (hi : m.volume.Intact own) (ho : offset ≤ (m.volume.root.get slot).size)
    (hk : k ≤ data.size) : m'.bytesOf (m'.volume.root.get slot) =
      (m.bytesOf (m.volume.root.get slot)).extract 0 offset ++ data.extract 0 k ++
        (m.bytesOf (m.volume.root.get slot)).extract (offset + k)
          (m.volume.root.get slot).size := by
  have hsize := hw.size_eq
  have hr := hw.refiled hi
  have hblocks := Volume.blocksOf_of_chain hr.chain
  refine ext_byteAt ?_ fun i hlt => ?_
  · simp only [ByteArray.size_append, ByteArray.size_extract, size_bytesOf, hsize]
    omega
  · rw [size_bytesOf] at hlt
    have hold : offset ≤ (m.bytesOf (m.volume.root.get slot)).size := by rwa [size_bytesOf]
    have hsplice := byteAt_splice hold hk i
    rw [size_bytesOf] at hsplice
    rw [hsplice, byteAt_bytesOf _ _ hlt, hblocks, hr.superblock_eq]
    obtain ⟨n, hst, rfl⟩ := hw
    show byteOn _ n.storage new i = _
    rw [hst.bytes i]
    split
    · rfl
    · rename_i hout
      rw [hsize] at hlt
      rw [byteAt_bytesOf _ _ (by omega), hi.blocksOf_eq]

/-- A write leaves the blocks of all other files alone. -/
theorem Written.block_eq (hi : m.volume.Intact own) (ht : m'.volume.Tidy) {s : Slot} (hs : s ≠ slot)
    {b : Link} (hb : b ∈ own s) : m'.storage.block (m.volume.superblock.dataBlock b) =
      m.storage.block (m.volume.superblock.dataBlock b) := by
  have h' := hi.refiled ht (hw.refiled hi)
  obtain ⟨n, hst, rfl⟩ := hw
  refine hst.frame _ fun c hc he => hs ?_
  obtain rfl := Superblock.dataBlock_inj he
  refine h'.allotment.disjoint (b := b) ?_ ?_
  · rwa [Function.update_of_ne hs]
  · rwa [Function.update_self]

/-- What the file gained the free blocks lost. -/
theorem Written.card_freeBlocks (hi : m.volume.Intact own) (ht : m'.volume.Tidy) :
    (freeBlocks m'.volume.table).card + new.length =
      (freeBlocks m.volume.table).card + (own slot).length := by
  have hr := hw.refiled hi
  have hb := (hr.kept hi ht).balance
  have hn := hr.blocksNeeded
  have hnew := hr.length_eq
  have hold := hi.length_eq slot
  omega

omit hw in
theorem Written.position_le {old : List Link} (hw : Written m m' fd slot old new offset data k) :
    offset + k ≤ new.length * blockSize := by
  obtain ⟨n, hst, rfl⟩ := hw
  exact hst.position_le

/-- **What a write stored is what there was room for.** -/
theorem Written.room_eq (hi : m.volume.Intact own) (ht : m'.volume.Tidy)
    (hk : k = data.size ∨ k ≤ data.size ∧ m'.volume.table.lowestFree? = none ∧
      offset + k = new.length * blockSize) : m.plain.room slot offset data.size = k := by
  have hcount := hw.card_freeBlocks hi ht
  have hpos := hw.position_le
  rw [Plain.room, size_plain_bytes hi.toTidy, plain_free hi.toTidy, ← hi.length_eq,
    Nat.add_comm, ← hcount]
  rcases hk with rfl | ⟨hle, hfull, hend⟩
  · simp only [blockSize] at hpos ⊢
    omega
  · rw [card_freeBlocks_eq_zero_iff.mpr hfull, Nat.zero_add, ← hend]
    omega

/-- The plain files after a write. -/
theorem Written.plain_eq (hi : m.volume.Intact own) (ht : m'.volume.Tidy) {name : String}
    (hs : m.volume.root.find? name = some slot) (ho : offset ≤ (m.volume.root.get slot).size)
    (hk : k ≤ data.size) : m'.plain = (m.plain.setFile slot (some ⟨name,
      (m.plain.bytes slot).extract 0 offset ++ data.extract 0 k ++
        (m.plain.bytes slot).extract (offset + k) (m.plain.bytes slot).size⟩)).moveTo fd
      (offset + k) := by
  obtain ⟨hfree, hname⟩ := Directory.of_find? hs
  have hfree' : (m'.volume.root.get slot).isFree = false := by
    rw [Entry.isFree, hw.name_eq]
    exact hfree
  rw [plain_of_refiled hi ht (hw.refiled hi) fun s hne b hb => hw.block_eq hi ht hne hb,
    plainFile_of_name hfree' (hw.name_eq.trans hname), hw.bytesOf_eq hi ho hk, hw.files_eq,
    plain_moveTo (m := m) rfl, plain_bytes hfree, size_bytesOf]

end Written

/-- A write that stored nothing changed no plain file. -/
theorem Written.plain_eq_of_nothing {fd : Nat} {f : OpenFile} {data : ByteArray}
    (hw : Written m m' fd slot (own slot) new f.offset data 0) (hi : m.volume.Intact own)
    (ht : m'.volume.Tidy) (hf : m.volume.files.get? fd = some f)
    (hs : m.volume.root.find? f.name = some slot)
    (ho : f.offset ≤ (m.volume.root.get slot).size) : m'.plain = m.plain := by
  rw [hw.plain_eq hi ht hs ho (Nat.zero_le _)]
  have hsplice : (m.plain.bytes slot).extract 0 f.offset ++ data.extract 0 0 ++
      (m.plain.bytes slot).extract (f.offset + 0) (m.plain.bytes slot).size =
        m.plain.bytes slot := by
    have hsize := size_plain_bytes hi.toTidy slot
    refine ext_byteAt ?_ fun i _ => ?_
    · simp only [ByteArray.size_append, ByteArray.size_extract]
      omega
    · rw [byteAt_splice (by omega) (Nat.zero_le _), if_neg (by omega)]
  rw [hsplice, plain_setFile_self hs, plain_moveTo (m := m) rfl, Nat.add_zero,
    OpenFiles.moveTo_self hf]
  rfl

end Mounted

theorem FileSystem.write_refines (h : m.Faithful) (fd : Nat) (data : ByteArray) :
    Refines (write fd data) (Plain.write fd data) m := by
  have hplain := plain_write (m := m) fd data
  obtain ⟨own, hi⟩ := h.intact
  refine onVolume_ends ((write_ends_of_intact hi fd data).mono ?_ ?_)
  · intro k m' hok
    rcases hok with ⟨f, slot, new, hr, hw, ha, hn⟩
    obtain ⟨hf, hs⟩ := Volume.resolve_eq_ok_iff.mp hr
    have ht := hw.tidy hi hf hs
    have hle : k ≤ data.size := by
      rcases ha with rfl | ⟨-, hlt, -⟩
      · exact Nat.le_refl _
      · exact Nat.le_of_lt hlt
    have hroom := hw.room_eq hi ht (ha.imp_right fun ⟨_, _, hfull, hend⟩ => ⟨hle, hfull, hend⟩)
    have hstored : ¬ (0 < data.size ∧ k = 0) := by
      rcases ha with rfl | ⟨hpos, -⟩ <;> omega
    rw [hr] at hplain
    dsimp only at hplain
    rw [hroom, if_neg hstored, ← hw.plain_eq hi ht hs (hi.offset_le hr) hle] at hplain
    exact ⟨m', rfl, h.of_refiled hi ht (hw.refiled hi)
      (hw.touched hi).shape.blockCount_eq (hn h.neverFails), hplain⟩
  · intro e m' herr
    rcases herr with ⟨rfl, hr⟩ | ⟨f, slot, new, k, hr, hw, hlt, hrefused⟩
    · rw [hr] at hplain
      exact ⟨m', rfl, h, hplain⟩
    · rcases hrefused with ⟨rfl, rfl, hfull, hend, hn⟩ | ⟨-, hfail⟩
      · obtain ⟨hf, hs⟩ := Volume.resolve_eq_ok_iff.mp hr
        have ht := hw.tidy hi hf hs
        have hroom := hw.room_eq hi ht (.inr ⟨Nat.zero_le _, hfull, hend⟩)
        rw [hr] at hplain
        dsimp only at hplain
        rw [hroom, if_pos ⟨hlt, rfl⟩] at hplain
        have hview := hw.plain_eq_of_nothing hi ht hf hs (hi.offset_le hr)
        exact ⟨m', rfl, h.of_refiled hi ht (hw.refiled hi) (hw.touched hi).shape.blockCount_eq
          (hn h.neverFails), hplain.trans (by rw [hview])⟩
      · exact absurd h.neverFails (hfail h.inRange)

/-! ## 6. All calls -/

/-- **Every call does to the volume what it does to its plain files.** -/
theorem FileCall.run_refines (call : FileCall) (h : m.Faithful) :
    Refines call.run call.runPlain m := by
  cases call with
  | create name => exact (FileSystem.create_refines h name).map _
  | delete name => exact (FileSystem.delete_refines h name).map _
  | list =>
    have hlist := (FileSystem.list_refines h).map Answer.listing
    rwa [Functor.map_map] at hlist
  | openFile name => exact (FileSystem.openFile_refines h name).map _
  | close fd => exact (FileSystem.close_refines h fd).map _
  | stat fd => exact (FileSystem.stat_refines h fd).map _
  | tell fd => exact (FileSystem.tell_refines h fd).map _
  | seek fd offset => exact (FileSystem.seek_refines h fd offset).map _
  | read fd count => exact (FileSystem.read_refines h fd count).map _
  | write fd data => exact (FileSystem.write_refines h fd data).map _
  | truncate fd size => exact (FileSystem.truncate_refines h fd size).map _

/-- **No list of calls can tell the volume from its plain files.** -/
theorem answers_eq_of_faithful (calls : List FileCall) (h : m.Faithful) :
    answers FileCall.run calls (ofMounted m) = answers FileCall.runPlain calls m.plain := by
  induction calls generalizing m with
  | nil => rfl
  | cons call calls ih =>
    have hstep := call.run_refines h
    unfold Refines Ends at hstep
    unfold answers
    cases hrun : call.run (ofMounted m) with
    | ok a fs =>
      rw [hrun] at hstep
      obtain ⟨m', rfl, h', hplain⟩ := hstep
      rw [hplain]
      exact congrArg (_ :: ·) (ih h')
    | error e fs =>
      rw [hrun] at hstep
      obtain ⟨m', rfl, h', hplain⟩ := hstep
      rw [hplain]
      exact congrArg (_ :: ·) (ih h')

/-! ## 7. From a mount on -/

/-- The plain files of a freshly formatted volume: none, and room in all blocks but the reserved
    one. -/
theorem plain_blank {d : H} {sb : Superblock} {n : Nat} {w : W}
    (h : Superblock.forBlockCount? n = some sb) :
    plain ⟨Volume.blank d sb, w⟩ = Plain.blank (sb.dataBlocks.toNat - 1) := by
  have hfiles : (plain ⟨Volume.blank d sb, w⟩).files = Vector.replicate maxFiles none :=
    Vector.map_replicate
  have hcapacity : (plain ⟨Volume.blank d sb, w⟩).capacity = sb.dataBlocks.toNat - 1 := by
    have hpos : 0 < sb.dataBlocks.toNat :=
      (Superblock.laidOut_of_forBlockCount? h).geometry.data_pos
    have hcount := Volume.freeCount_blank (d := d) h
    have hreserved : (Volume.blank d sb).table.entries[0]? ≠ some Link.free := by
      rw [Volume.blank, entries_empty_zero hpos]
      decide
    rw [freeCount_eq, if_neg hreserved] at hcount
    show (freeBlocks (Volume.blank d sb).table).card + (Volume.blank d sb).blocksNeeded = _
    omega
  exact Plain.ext hfiles rfl hcapacity

namespace FileSystem

/-- What is mounted is faithful if `check` finds nothing wrong and the device never fails. -/
theorem faithful_of_mount {d : H} {fs fs₀ : FileSystem W H} {v : Volume H}
    (hm : mount d fs = .ok () fs₀) (hv : fs₀.mounted = some v) (hc : check fs₀ = .ok () fs₀)
    (hn : NeverFails d fs₀.world) : Faithful ⟨v, fs₀.world⟩ := by
  obtain ⟨rfl, hcarries, -⟩ := carries_of_mount hm hv
  have ht := tidy_of_mount hm v hv
  refine ⟨intact_of_check hm hc v hv, fun b hb => ?_, hn⟩
  have hb' : b.toNat < v.superblock.dataBlocks.toNat := by
    rw [← ht.size_eq]
    exact hb
  exact (hcarries.laidOut.dataBlock_lt hb').2

/-- **A volume is what its plain files are.** Where a volume was mounted with which `check` finds
    nothing wrong, from a device that never fails, every list of calls answers what it answers on
    the plain files of the volume. A freshly formatted volume is such a one, and its plain files are
    none. -/
theorem answers_eq_plain {d : H} {fs fs₀ : FileSystem W H} {v : Volume H}
    (hm : mount d fs = .ok () fs₀) (hv : fs₀.mounted = some v) (hn : NeverFails d fs₀.world) :
    (check fs₀ = .ok () fs₀ → ∀ calls : List FileCall,
      answers FileCall.run calls fs₀ = answers FileCall.runPlain calls (plain ⟨v, fs₀.world⟩)) ∧
    ∀ {d' : H} {w w' : W} {sb : Superblock}, (LawfulBlockDevice.storage d' w).whole →
      Volume.format d' w = .ok sb w' →
      LawfulBlockDevice.storage d fs.world = LawfulBlockDevice.storage d' w' →
      check fs₀ = .ok () fs₀ ∧
        plain ⟨v, fs₀.world⟩ = Plain.blank (sb.dataBlocks.toNat - 1) := by
  refine ⟨fun hc calls => ?_, fun {d' w w' sb} hw hf hst => ?_⟩
  · have hfs : fs₀ = ofMounted ⟨v, fs₀.world⟩ := by
      obtain ⟨_, w⟩ := fs₀
      cases hv
      rfl
    have hanswers := answers_eq_of_faithful calls (faithful_of_mount hm hv hc hn)
    rwa [← hfs] at hanswers
  · have hblank : Blank (LawfulBlockDevice.storage d fs.world) sb := by
      rw [hst]
      exact Volume.blank_of_format hw hf
    obtain rfl : v = Volume.blank d sb :=
      Option.some.inj (hv.symm.trans (mounted_of_blank hblank hm))
    have hfits := hblank.carries.fits
    have ht := tidy_of_mount hm _ hv
    exact ⟨check_eq_ok_iff.mpr ⟨rfl, _, hv, ht.check_eq_ok_iff.mpr ⟨_, Volume.intact_blank hfits⟩⟩,
      plain_blank hfits⟩

/-- In memory, on a freshly formatted volume. -/
theorem answers_eq_plain_memory : ∃ capacity,
    answers FileCall.run [.create "a", .openFile "a", .write 0 "abc".toUTF8, .seek 0 1, .read 0 9]
      (fresh 8) =
    answers FileCall.runPlain
      [.create "a", .openFile "a", .write 0 "abc".toUTF8, .seek 0 1, .read 0 9]
      (Plain.blank capacity) := by
  have hspec := fresh_spec (n := 8) (by decide)
  obtain ⟨sb, w, hformat, hm, hfs, hn⟩ := hspec
  have hmounted : (fresh 8).mounted = some (Volume.blank () sb) := by rw [hfs]; rfl
  have hworld : NeverFails () (fresh 8).world := by rw [hfs]; exact hn
  obtain ⟨hanswers, hfresh⟩ := answers_eq_plain hm hmounted hworld
  obtain ⟨hc, hplain⟩ := hfresh (w := { blockCount := 8 }) (Memory.whole_storage _) hformat rfl
  exact ⟨sb.dataBlocks.toNat - 1, by rw [← hplain, hanswers hc]⟩

end FileSystem

end FlatVolume
