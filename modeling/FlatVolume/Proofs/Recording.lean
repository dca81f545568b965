import FlatVolume.Proofs.Acceptance

/-!
# What a flush keeps of a directory

An entry is a name of any characters and any length, a size and a first block; a record has sixteen
bytes, four and two. `Entry.kept` says what is left of a name. If that ends within a character the
record cannot be read any more (`Entry.CutWithin`), and the directory with it; otherwise the slot is
read back as `Entry.Recorded` says. `Directory.flush_load` follows a directory to the device and
back: an occupied slot comes back unchanged exactly if its name is valid and its size fits in four
bytes.
-/

namespace FlatVolume

open Bytes FlatVolume.Computation
open LawfulBlockDevice (storage)

/-! ## 1. Names, cut -/

namespace Entry

variable {name : String} {e e' : Entry}

/-- **The fifteen bytes that are kept of a name end within one of its characters:** there is no way to
    part the name there. -/
def CutWithin (name : String) : Prop :=
  (kept name).size = longestName ∧
    ∀ front back : String, name = front ++ back → front.utf8ByteSize ≠ longestName

/-- What is kept of a name is UTF-8 if it ends between two characters. -/
theorem isValidUTF8_kept_iff_isValid :
    (kept name).IsValidUTF8 ↔ String.Pos.Raw.IsValid name ⟨(kept name).size⟩ := by
  have hle : (⟨(kept name).size⟩ : String.Pos.Raw) ≤ name.rawEndPos := (kept_spec name).1.2
  have hkept : name.toByteArray.extract 0 (kept name).size = kept name := (kept_eq_extract name).symm
  rw [String.Pos.Raw.isValid_iff_isValidUTF8_extract_zero, hkept, and_iff_right hle]

/-- **What is kept of a name is not UTF-8** exactly if it ends within a character. At a NUL and at the
    end of the name it does not. -/
theorem not_isValidUTF8_kept_iff : ¬ (kept name).IsValidUTF8 ↔ CutWithin name := by
  obtain ⟨⟨-, hle⟩, -, hend⟩ := kept_spec name
  rw [isValidUTF8_kept_iff_isValid]
  by_cases hfull : (kept name).size = longestName
  · rw [String.Pos.Raw.isValid_iff_exists_append, CutWithin, hfull]
    simp [String.Pos.Raw.ext_iff, eq_comm]
  · have hzero := hend.resolve_left hfull
    refine iff_of_false (not_not_intro ?_) fun h => hfull h.1
    rw [String.Pos.Raw.isValid_iff_isUTF8FirstByte]
    rcases Nat.lt_or_eq_of_le hle with hlt | heq
    · refine .inr ⟨hlt, ?_⟩
      rw [byteAt_of_lt hlt] at hzero
      show UInt8.IsUTF8FirstByte (name.toUTF8[(kept name).size])
      rw [hzero]
      decide
    · exact .inl (String.Pos.Raw.ext heq)

/-! ## 2. Entries, read back -/

/-- **What is read of an entry that was written:** what is kept of its name, its size modulo 2^32 and
    its first block. Where no name is kept, the slot is free in its default form. -/
structure Recorded (e e' : Entry) : Prop where
  name_eq : e'.name.toUTF8 = kept e.name
  file : kept e.name ≠ ByteArray.empty →
    e'.size = e.size % UInt32.size ∧ e'.firstBlock = e.firstBlock
  free : kept e.name = ByteArray.empty → e' = Entry.free

theorem isEmpty_iff_toUTF8 : name.isEmpty = true ↔ name.toUTF8 = ByteArray.empty := by
  rw [String.isEmpty_iff, ← String.toByteArray_inj]
  rfl

theorem ofRecord?_toRecord_eq_some_iff : ofRecord? e.toRecord = some e' ↔ Recorded e e' := by
  rw [ofRecord?_toRecord_eq, Option.map_eq_some_iff]
  simp only [fromUTF8?_eq_some_iff]
  constructor
  · intro hq
    rcases hq with ⟨name, hname, rfl⟩
    split
    · rename_i hempty
      have hnone := hname.symm.trans (isEmpty_iff_toUTF8.mp hempty)
      exact ⟨hnone.symm, fun h => absurd hnone h, fun _ => rfl⟩
    · rename_i hempty
      refine ⟨hname, fun _ => ⟨rfl, rfl⟩, fun h => ?_⟩
      exact absurd (isEmpty_iff_toUTF8.mpr (hname.trans h)) hempty
  · intro h
    refine ⟨e'.name, h.name_eq, ?_⟩
    split
    · rename_i hempty
      exact (h.free (h.name_eq.symm.trans (isEmpty_iff_toUTF8.mp hempty))).symm
    · rename_i hempty
      obtain ⟨hsize, hfirst⟩ :=
        h.file fun hnone => hempty (isEmpty_iff_toUTF8.mpr (h.name_eq.trans hnone))
      rw [← hsize, ← hfirst]

theorem Recorded.unique {e₁ e₂ : Entry} (h₁ : Recorded e e₁) (h₂ : Recorded e e₂) : e₁ = e₂ :=
  Option.some.inj
    ((ofRecord?_toRecord_eq_some_iff.mpr h₁).symm.trans (ofRecord?_toRecord_eq_some_iff.mpr h₂))

theorem isSome_ofRecord?_toRecord : (ofRecord? e.toRecord).isSome ↔ (kept e.name).IsValidUTF8 := by
  rw [ofRecord?_toRecord_eq, Option.isSome_map, Option.isSome_iff_exists]
  simp only [fromUTF8?_eq_some_iff]
  constructor
  · intro hq
    rcases hq with ⟨name, hname⟩
    exact hname ▸ name.isValidUTF8
  · intro h
    exact ⟨String.ofByteArray _ h, rfl⟩

/-- **An occupied entry is read back unchanged** exactly if its name is valid and its size fits in
    four bytes. -/
theorem recorded_self_iff (ho : e.isFree = false) :
    Recorded e e ↔ validName e.name = true ∧ e.size < UInt32.size := by
  have hne : e.name.toUTF8 ≠ ByteArray.empty := fun h => by
    rw [isFree, isEmpty_iff_toUTF8.mpr h] at ho
    cases ho
  rw [validName_iff, ← kept_eq_iff]
  constructor
  · intro h
    obtain ⟨hsize, -⟩ := h.file fun hnone => hne (h.name_eq.trans hnone)
    refine ⟨⟨ho, h.name_eq.symm⟩, ?_⟩
    rw [hsize]
    exact Nat.mod_lt _ (by decide)
  · intro hq
    rcases hq with ⟨⟨-, hname⟩, hsize⟩
    exact ⟨hname.symm, fun _ => ⟨(Nat.mod_eq_of_lt hsize).symm, rfl⟩,
      fun hnone => absurd (hname.symm.trans hnone) hne⟩

end Entry

/-! ## 3. Directories, read back -/

namespace Directory

variable {root root' : Directory}

/-- A slot that was written can be read if what is kept of its name is UTF-8. -/
theorem legible_encode_iff {s : Slot} :
    Legible root.encode s.val ↔ (Entry.kept (root.get s).name).IsValidUTF8 := by
  rw [← isSome_recordAt?, recordAt?_encode, Entry.isSome_ofRecord?_toRecord]

theorem decode_encode_eq_ok_iff :
    decode root.encode = .ok root' ↔ ∀ s, Entry.Recorded (root.get s) (root'.get s) := by
  simp only [decode_eq_ok_iff, recordAt?_encode, Entry.ofRecord?_toRecord_eq_some_iff]

theorem decode_encode_eq_error_iff {e : VolumeError} : decode root.encode = .error e ↔
    ∃ s : Slot, e = .corruptEntry s.val ∧ ¬ (Entry.kept (root.get s).name).IsValidUTF8 ∧
      ∀ j < s, (Entry.kept (root.get j).name).IsValidUTF8 := by
  simp only [decode_eq_error_iff, legible_encode_iff]

section OnDevice

variable {W H : Type} [BlockDevice W H] [LawfulBlockDevice W H] {d : H} {w : W}

/-- On a device that never fails flushing stores the block of the directory. -/
theorem exists_flush (root : Directory) (sb : Superblock) (hn : NeverFails d w)
    (hb : sb.directoryBlock.toNat < (storage d w).blockCount) : ∃ w',
      flush root d sb w = .ok () w' ∧
      Answered d w w' ((storage d w).set sb.directoryBlock.toNat root.encode) := by
  obtain ⟨_, w', hx, ha⟩ := (storeBlock_ends d sb.directoryBlock.toNat root.encode w).exists_ok
    fun _ _ hfail => hfail.2.fails hb hn
  exact ⟨w', hx, ha⟩

/-- On a device that never fails loading says what the block of the directory says. -/
theorem exists_load (sb : Superblock) (hn : NeverFails d w)
    (hb : sb.directoryBlock.toNat < (storage d w).blockCount) : ∃ w',
      Answered d w w' (storage d w) ∧
      (∀ root, decode ((storage d w).block sb.directoryBlock.toNat) = .ok root →
        load d sb w = .ok root w') ∧
      (∀ e, decode ((storage d w).block sb.directoryBlock.toNat) = .error e →
        load d sb w = .error e w') := by
  obtain ⟨block, w', hx, rfl, ha⟩ := (loadBlock_ends d sb.directoryBlock.toNat w).exists_ok
    fun _ _ hfail => hfail.2.fails hb hn
  refine ⟨w', ha, fun root hd => ?_, fun e hd => ?_⟩
  · rw [load, bind_of_ok hx, hd]
    rfl
  · rw [load, bind_of_ok hx, hd]
    rfl

/-- **A directory keeps exactly what its records can represent.** On a device that never fails any
    directory can be flushed. Loaded again, the lowest slot whose name ends within a character after it
    was cut is reported; if there is none, every slot is read back as `Entry.Recorded` says. Either
    way, of the occupied entries just those are found unchanged in their record whose name is valid
    and whose size fits in four bytes. -/
theorem flush_load (root : Directory) (sb : Superblock) (hn : NeverFails d w)
    (hb : sb.directoryBlock.toNat < (storage d w).blockCount) :
    (∀ s, ¬ (Entry.kept (root.get s).name).IsValidUTF8 ↔ Entry.CutWithin (root.get s).name) ∧
    ∃ w₁ w₂, flush root d sb w = .ok () w₁ ∧
      (∀ s : Slot, ¬ (Entry.kept (root.get s).name).IsValidUTF8 →
        (∀ j < s, (Entry.kept (root.get j).name).IsValidUTF8) →
        load d sb w₁ = .error (.corruptEntry s.val) w₂) ∧
      ((∀ s, (Entry.kept (root.get s).name).IsValidUTF8) → ∃ root',
        load d sb w₁ = .ok root' w₂ ∧ (∀ s, Entry.Recorded (root.get s) (root'.get s)) ∧
        ∀ s, (root.get s).isFree = false → (root'.get s = root.get s ↔
          validName (root.get s).name = true ∧ (root.get s).size < UInt32.size)) ∧
      (∀ s, (root.get s).isFree = false →
        (recordAt? ((storage d w₂).block sb.directoryBlock.toNat) s = some (root.get s) ↔
          validName (root.get s).name = true ∧ (root.get s).size < UInt32.size)) := by
  refine ⟨fun s => Entry.not_isValidUTF8_kept_iff, ?_⟩
  obtain ⟨w₁, hflush, h₁⟩ := exists_flush root sb hn hb
  have hblock : (storage d w₁).block sb.directoryBlock.toNat = root.encode := by
    rw [h₁.storage_eq]
    exact if_pos rfl
  obtain ⟨w₂, h₂, hok, herror⟩ := exists_load sb (h₁.neverFails hn) (by rwa [h₁.storage_eq])
  rw [hblock] at hok herror
  refine ⟨w₁, w₂, hflush, fun s hs hmin => herror _ ?_, fun hall => ?_, fun s ho => ?_⟩
  · exact decode_encode_eq_error_iff.mpr ⟨s, rfl, hs, hmin⟩
  · cases hd : decode root.encode with
    | error e =>
      obtain ⟨s, -, hs, -⟩ := decode_encode_eq_error_iff.mp hd
      exact absurd (hall s) hs
    | ok root' =>
      have hrec := decode_encode_eq_ok_iff.mp hd
      refine ⟨root', hok root' hd, hrec, fun s ho => ?_⟩
      rw [← Entry.recorded_self_iff ho]
      exact ⟨fun h => by simpa [h] using hrec s, fun h => (hrec s).unique h⟩
  · rw [h₂.storage_eq, hblock, recordAt?_encode, Entry.ofRecord?_toRecord_eq_some_iff,
      Entry.recorded_self_iff ho]

end OnDevice

/-- A file in slot 3 whose name is fourteen letters and one of two bytes. -/
def accented : Directory := empty.set ⟨3, by decide⟩ ⟨"abcdefghijklmné", 7, 9⟩

theorem get_accented (s : Slot) :
    accented.get s = if s.val = 3 then ⟨"abcdefghijklmné", 7, 9⟩ else Entry.free := by
  rw [accented, get_set, Volume.get_empty]
  simp only [Fin.ext_iff]

/-- In memory the last letter is cut, and the slot cannot be read any more. -/
theorem flush_load_accented : ∃ w₁ w₂,
    flush accented () Superblock.eight ({ blockCount := 8 } : Memory) = .ok () w₁ ∧
      load () Superblock.eight w₁ = .error (.corruptEntry 3) w₂ := by
  obtain ⟨-, w₁, w₂, hflush, hcut, -⟩ := flush_load accented Superblock.eight
    (Memory.neverFails (m := { blockCount := 8 }) rfl) (by decide)
  refine ⟨w₁, w₂, hflush, hcut ⟨3, by decide⟩ ?_ fun j hj => ?_⟩
  · rw [get_accented, if_pos rfl]
    decide +kernel
  · rw [get_accented, if_neg (Nat.ne_of_lt hj)]
    decide +kernel

end Directory

end FlatVolume
