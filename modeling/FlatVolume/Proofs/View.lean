import FlatVolume.Proofs.FileBytes
import FlatVolume.Proofs.Plain
import FlatVolume.Proofs.Refiling

/-!
# The plain files of a volume

`Mounted.plain` forgets everything about a mounted volume but what its user sees. The lookups of the
two agree (`plain_find?`, `plain_resolve`), and so do the blocks that are left (`plain_free`); so
the volume decides what a call does to its plain files (`plain_create`, `plain_write`). When one
file is replaced and its blocks are written, the plain files change in that slot and nowhere else
(`plain_of_refiled`).
-/

namespace FlatVolume

open AllocationTable Bytes

theorem lowest?_map {α β : Type} {n : Nat} (p : β → Bool) (f : α → β) (v : Vector α n) :
    lowest? p (v.map f) = lowest? (fun a => p (f a)) v := by
  ext i
  simp only [lowest?_eq_some_iff, Fin.getElem_fin, Vector.getElem_map]

/-- Bytes laid over a byte string, or put behind its end. -/
theorem byteAt_splice {old data : ByteArray} {offset k : Nat} (ho : offset ≤ old.size)
    (hk : k ≤ data.size) (i : Nat) :
    byteAt (old.extract 0 offset ++ data.extract 0 k ++ old.extract (offset + k) old.size) i =
      if offset ≤ i ∧ i < offset + k then byteAt data (i - offset) else byteAt old i := by
  have h1 : (old.extract 0 offset).size = offset := by
    rw [ByteArray.size_extract]
    omega
  have h2 : (old.extract 0 offset ++ data.extract 0 k).size = offset + k := by
    rw [ByteArray.size_append, h1, ByteArray.size_extract]
    omega
  by_cases hlt : i < offset
  · rw [if_neg (by omega), byteAt_append_left (by omega), byteAt_append_left (by omega),
      byteAt_extract (by omega), Nat.zero_add]
  · by_cases hend : i < offset + k
    · rw [if_pos (by omega), byteAt_append_left (by omega), byteAt_append_of_le (by omega), h1,
        byteAt_extract (by omega), Nat.zero_add]
    · rw [if_neg (by omega), byteAt_append_of_le (by omega), h2]
      by_cases hi : i < old.size
      · rw [byteAt_extract (by omega)]
        congr 1
        omega
      · rw [byteAt_of_le (by rw [ByteArray.size_extract]; omega), byteAt_of_le (by omega)]

namespace Mounted

variable {W H : Type} [BlockDevice W H] [LawfulBlockDevice W H]

/-- What a slot with this entry holds for its user. -/
def plainFile (m : Mounted W H) (e : Entry) : Option PlainFile :=
  if e.isFree then none else some ⟨e.name, m.bytesOf e⟩

/-- **The plain files of a mounted volume.** -/
def plain (m : Mounted W H) : Plain where
  files := m.volume.root.slots.map m.plainFile
  handles := m.volume.files.slots
  capacity := (freeBlocks m.volume.table).card + m.volume.blocksNeeded

variable {m : Mounted W H} {own : Slot → List Link} {slot : Slot}

/-! ## 1. Lookups -/

theorem plain_files (s : Slot) :
    m.plain.files.get s = m.plainFile (m.volume.root.get s) :=
  Vector.getElem_map m.plainFile s.isLt

theorem plainFile_of_name {e : Entry} {name : String} (hf : e.isFree = false) (hn : e.name = name) :
    m.plainFile e = some ⟨name, m.bytesOf e⟩ := by
  rw [plainFile, hf, hn]
  rfl

theorem plainFile_any (e : Entry) (name : String) :
    (m.plainFile e).any (·.name == name) = Directory.holds name e := by
  unfold plainFile Directory.holds
  cases e.isFree <;> rfl

theorem plain_find? (name : String) : m.plain.find? name = m.volume.root.find? name := by
  unfold Plain.find? Directory.find? plain
  rw [lowest?_map]
  simp only [plainFile_any]

theorem plain_freeSlot? : lowest? Option.isNone m.plain.files = m.volume.root.freeSlot? := by
  have hnone : ∀ e, (m.plainFile e).isNone = e.isFree := by
    intro e
    unfold plainFile
    cases e.isFree <;> rfl
  unfold Directory.freeSlot? plain
  rw [lowest?_map]
  simp only [hnone]

theorem plain_handle? (fd : Nat) : m.plain.handle? fd = m.volume.files.get? fd := rfl

theorem plain_resolve (fd : Nat) : m.plain.resolve fd = m.volume.resolve fd := by
  unfold Plain.resolve Volume.resolve OpenFiles.get
  rw [plain_handle?]
  cases m.volume.files.get? fd with
  | none => rfl
  | some f =>
    dsimp only
    rw [plain_find?]
    cases m.volume.root.find? f.name <;> rfl

theorem plain_isOpen (name : String) : m.plain.isOpen name = m.volume.files.isOpen name := by
  rw [Bool.eq_iff_iff, OpenFiles.isOpen_iff]
  unfold Plain.isOpen plain
  rw [Vector.any_eq_true]
  constructor
  · intro hq
    rcases hq with ⟨i, hi, h⟩
    cases hs : m.volume.files.slots[i] with
    | none =>
      rw [hs] at h
      cases h
    | some f =>
      rw [hs] at h
      exact ⟨i, f, by simp [OpenFiles.get?, hi, hs], by simpa using h⟩
  · intro hq
    rcases hq with ⟨fd, f, hf, rfl⟩
    have hlt := OpenFiles.lt_of_get? hf
    have hs : m.volume.files.slots[fd] = some f := by simpa [OpenFiles.get?, hlt] using hf
    exact ⟨fd, hlt, by simp [hs]⟩

omit [BlockDevice W H] [LawfulBlockDevice W H] in
/-- Descriptors move alike, whatever the files are. -/
theorem plain_moveTo {p : Plain} (h : p.handles = m.volume.files.slots) (fd offset : Nat) :
    p.moveTo fd offset = { p with handles := (m.volume.files.moveTo fd offset).slots } := by
  have hget : p.handle? fd = m.volume.files.get? fd := by
    rw [Plain.handle?, h]
    rfl
  unfold Plain.moveTo OpenFiles.moveTo
  rw [hget]
  cases m.volume.files.get? fd with
  | none => simp only [← h]
  | some f => simp only [h]

/-- The files are listed alike. -/
theorem plain_list :
    (m.plain.files.toList.filterMap fun f => f.map fun f => (f.name, f.bytes.size)) =
    m.volume.root.files.map fun e => (e.name, e.size) := by
  have hlist : ∀ l : List Entry, ((l.map m.plainFile).filterMap fun f =>
      f.map fun f => (f.name, f.bytes.size)) =
      (l.filter fun e => !e.isFree).map fun e => (e.name, e.size) := by
    intro l
    induction l with
    | nil => rfl
    | cons e es ih =>
      rw [List.map_cons, List.filterMap_cons, ih]
      cases hf : e.isFree with
      | true => simp [plainFile, hf]
      | false => simp [plainFile, hf]
  rw [Directory.files, ← hlist, plain, Vector.toList_map]

/-! ## 2. Bytes and blocks -/

theorem plain_bytes (h : (m.volume.root.get slot).isFree = false) :
    m.plain.bytes slot = m.bytesOf (m.volume.root.get slot) := by
  unfold Plain.bytes
  rw [plain_files, plainFile, h]
  rfl

theorem plain_bytes_of_isFree (h : (m.volume.root.get slot).isFree = true) :
    m.plain.bytes slot = ByteArray.empty := by
  unfold Plain.bytes
  rw [plain_files, plainFile, h]
  rfl

/-- Putting into a slot what is there already changes nothing. -/
theorem plain_setFile_self {name : String} (hs : m.volume.root.find? name = some slot) :
    m.plain.setFile slot (some ⟨name, m.plain.bytes slot⟩) = m.plain := by
  obtain ⟨hfree, hname⟩ := Directory.of_find? hs
  have hfile : some ⟨name, m.plain.bytes slot⟩ = m.plain.files.get slot := by
    rw [plain_files, plainFile_of_name hfree hname, plain_bytes hfree]
  unfold Plain.setFile
  rw [hfile]
  congr 1
  exact Vector.set_getElem_self slot.isLt

theorem size_plain_bytes (h : m.volume.Tidy) (s : Slot) :
    (m.plain.bytes s).size = (m.volume.root.get s).size := by
  cases hf : (m.volume.root.get s).isFree with
  | true =>
    rw [plain_bytes_of_isFree hf, h.free_eq s hf]
    rfl
  | false => rw [plain_bytes hf, size_bytesOf]

theorem plain_used (h : m.volume.Tidy) : m.plain.used = m.volume.blocksNeeded :=
  Finset.sum_congr rfl fun s _ => by rw [size_plain_bytes h]

/-- **The blocks that are left** are the free data blocks. -/
theorem plain_free (h : m.volume.Tidy) : m.plain.free = (freeBlocks m.volume.table).card := by
  rw [Plain.free, plain_used h]
  exact Nat.add_sub_cancel ..

/-! ## 3. One file replaced -/

/-- Where only descriptors changed, the plain files change in their descriptors. -/
theorem plain_of_files {files : OpenFiles} {w : W}
    (hs : storage ⟨{ m.volume with files }, w⟩ = m.storage) :
    plain ⟨{ m.volume with files }, w⟩ = { m.plain with handles := files.slots } := by
  have hfile : plainFile ⟨{ m.volume with files }, w⟩ = m.plainFile := by
    funext e
    have hbytes : bytesOf ⟨{ m.volume with files }, w⟩ e = m.bytesOf e :=
      bytesOf_congr rfl rfl fun b _ => by rw [hs]
    rw [plainFile, plainFile, hbytes]
  unfold plain
  rw [hfile]
  rfl

/-- **Where one file was replaced,** and nothing was stored in the blocks of another, the other one
    keeps its bytes. -/
theorem bytesOf_of_refiled {m' : Mounted W H} {new : List Link} (h : m.volume.Intact own)
    (ht : m'.volume.Tidy) (hr : Volume.Refiled m.volume m'.volume slot (own slot) new) {s : Slot}
    (hs : s ≠ slot) (hst : ∀ b ∈ own s, m'.storage.block (m.volume.superblock.dataBlock b) =
      m.storage.block (m.volume.superblock.dataBlock b)) :
    m'.bytesOf (m.volume.root.get s) = m.bytesOf (m.volume.root.get s) := by
  have hblocks := (h.refiled ht hr).blocksOf_eq s
  rw [hr.get_eq s hs, Function.update_of_ne hs, ← h.blocksOf_eq] at hblocks
  refine bytesOf_congr hr.superblock_eq hblocks fun b hb => ?_
  rw [h.blocksOf_eq] at hb
  exact hst b hb

/-- **Where one file was replaced,** and nothing was stored in the blocks of another, the plain
    files change in its slot and nowhere else. -/
theorem plain_of_refiled {m' : Mounted W H} {new : List Link} (h : m.volume.Intact own)
    (ht : m'.volume.Tidy) (hr : Volume.Refiled m.volume m'.volume slot (own slot) new)
    (hst : ∀ s, s ≠ slot → ∀ b ∈ own s, m'.storage.block (m.volume.superblock.dataBlock b) =
      m.storage.block (m.volume.superblock.dataBlock b)) :
    m'.plain = { m.plain.setFile slot (m'.plainFile (m'.volume.root.get slot)) with
      handles := m'.volume.files.slots } := by
  have hother : ∀ s, s ≠ slot →
      m'.plainFile (m'.volume.root.get s) = m.plainFile (m.volume.root.get s) := by
    intro s hs
    rw [hr.get_eq s hs, plainFile, plainFile, bytesOf_of_refiled h ht hr hs (hst s hs)]
  have hcapacity : m'.plain.capacity = m.plain.capacity := (hr.kept h ht).balance
  have hfiles :
      m'.plain.files = m.plain.files.set slot (m'.plainFile (m'.volume.root.get slot)) := by
    refine Vector.ext fun i hi => ?_
    have hi' := plain_files (m := m') ⟨i, hi⟩
    rw [Vector.getElem_set]
    split
    · rename_i he
      obtain rfl : slot = ⟨i, hi⟩ := Fin.ext he
      exact hi'
    · rename_i hne
      have hs : (⟨i, hi⟩ : Slot) ≠ slot := fun he => hne (congrArg Fin.val he).symm
      exact hi'.trans ((hother _ hs).trans (plain_files (m := m) ⟨i, hi⟩).symm)
  show (⟨m'.plain.files, m'.volume.files.slots, m'.plain.capacity⟩ : Plain) = _
  rw [hfiles, hcapacity]
  rfl

/-- A file that keeps its first blocks keeps its first bytes. -/
theorem bytesOf_shortened {m' : Mounted W H} {e : Entry} (h : m.volume.Intact own)
    (hsb : m'.volume.superblock = m.volume.superblock) (hst : m'.storage = m.storage)
    (hblocks : m'.volume.blocksOf e = (own slot).take (ceilDiv e.size blockSize))
    (hle : e.size ≤ (m.volume.root.get slot).size) :
    m'.bytesOf e = (m.bytesOf (m.volume.root.get slot)).extract 0 e.size := by
  refine ext_byteAt ?_ fun i hi => ?_
  · rw [ByteArray.size_extract, size_bytesOf, size_bytesOf]
    omega
  · rw [size_bytesOf] at hi
    rw [byteAt_extract (by omega), Nat.zero_add, byteAt_bytesOf _ _ hi,
      byteAt_bytesOf _ _ (Nat.lt_of_lt_of_le hi hle), hblocks, h.blocksOf_eq, hsb, hst,
      byteOn_take hi]

/-! ## 4. Calls

What each call does to the plain files of a volume is decided by what its directory and descriptors
hold.
-/

theorem plain_create (name : String) :
    Plain.create name m.plain =
      if validName name = false then .error (.invalidName name) m.plain
      else if (m.volume.root.find? name).isSome then .error (.nameExists name) m.plain
      else match m.volume.root.freeSlot? with
        | none => .error .directoryFull m.plain
        | some slot => .ok () (m.plain.setFile slot (some ⟨name, ByteArray.empty⟩)) := by
  rw [← plain_find?, ← plain_freeSlot?]
  rfl

theorem plain_delete (name : String) :
    Plain.delete name m.plain =
      if validName name = false then .error (.invalidName name) m.plain
      else match m.volume.root.find? name with
        | none => .error (.fileNotFound name) m.plain
        | some slot =>
          if m.volume.files.isOpen name then .error (.fileOpen name) m.plain
          else .ok () (m.plain.setFile slot none) := by
  rw [← plain_find?, ← plain_isOpen]
  rfl

theorem plain_openFile (name : String) :
    Plain.openFile name m.plain =
      if validName name = false then .error (.invalidName name) m.plain
      else if m.volume.root.find? name = none then .error (.fileNotFound name) m.plain
      else match lowest? Option.isNone m.volume.files.slots with
        | none => .error .tooManyOpenFiles m.plain
        | some fd => .ok fd.val { m.plain with
            handles := m.volume.files.slots.set fd (some ⟨name, 0⟩) fd.isLt } := by
  rw [← plain_find?]
  rfl

theorem plain_close (fd : Nat) :
    Plain.close fd m.plain = match m.volume.files.get? fd with
      | none => .error (.badDescriptor fd) m.plain
      | some _ =>
        .ok () { m.plain with handles := m.volume.files.slots.setIfInBounds fd none } := rfl

theorem plain_stat (fd : Nat) :
    Plain.stat fd m.plain = match m.volume.resolve fd with
      | .error e => .error e m.plain
      | .ok (_, slot) => .ok (m.plain.bytes slot).size m.plain := by
  rw [← plain_resolve]
  rfl

theorem plain_tell (fd : Nat) :
    Plain.tell fd m.plain = match m.volume.files.get? fd with
      | none => .error (.badDescriptor fd) m.plain
      | some f => .ok f.offset m.plain := rfl

theorem plain_seek (fd offset : Nat) :
    Plain.seek fd offset m.plain = match m.volume.resolve fd with
      | .error e => .error e m.plain
      | .ok (_, slot) =>
        if (m.plain.bytes slot).size < offset then
          .error (.offsetOutOfRange offset (m.plain.bytes slot).size) m.plain
        else .ok () (m.plain.moveTo fd offset) := by
  rw [← plain_resolve]
  rfl

theorem plain_read (fd count : Nat) :
    Plain.read fd count m.plain = match m.volume.resolve fd with
      | .error e => .error e m.plain
      | .ok (f, slot) =>
        .ok ((m.plain.bytes slot).extract f.offset
            (min (f.offset + count) (m.plain.bytes slot).size))
          (m.plain.moveTo fd (f.offset + ((m.plain.bytes slot).extract f.offset
            (min (f.offset + count) (m.plain.bytes slot).size)).size)) := by
  rw [← plain_resolve]
  rfl

theorem plain_truncate (fd size : Nat) :
    Plain.truncate fd size m.plain = match m.volume.resolve fd with
      | .error e => .error e m.plain
      | .ok (f, slot) =>
        if (m.plain.bytes slot).size < size then
          .error (.offsetOutOfRange size (m.plain.bytes slot).size) m.plain
        else .ok ()
          { m.plain.setFile slot (some ⟨f.name, (m.plain.bytes slot).extract 0 size⟩) with
            handles := (m.volume.files.clamp f.name size).slots } := by
  rw [← plain_resolve]
  rfl

theorem plain_write (fd : Nat) (data : ByteArray) :
    Plain.write fd data m.plain = match m.volume.resolve fd with
      | .error e => .error e m.plain
      | .ok (f, slot) =>
        if 0 < data.size ∧ m.plain.room slot f.offset data.size = 0 then .error .diskFull m.plain
        else .ok (m.plain.room slot f.offset data.size) ((m.plain.setFile slot (some ⟨f.name,
          (m.plain.bytes slot).extract 0 f.offset ++
          data.extract 0 (m.plain.room slot f.offset data.size) ++
          (m.plain.bytes slot).extract (f.offset + m.plain.room slot f.offset data.size)
            (m.plain.bytes slot).size⟩)).moveTo fd
          (f.offset + m.plain.room slot f.offset data.size)) := by
  rw [← plain_resolve]
  rfl

end Mounted

end FlatVolume
