import FlatVolume.Directory
import FlatVolume.Proofs.Growth

/-!
# Directory records, written and read

A name stands in sixteen bytes up to its first NUL. So the names that can be read are just the
valid ones (`validName_of_ofRecord?`). Of an entry that is written a record keeps what `Entry.kept`
says of its name, its size modulo 2^32 and its first block (`Entry.ofRecord?_toRecord_eq`); a file
with a valid name whose size fits in four bytes is read back as it was written
(`Entry.ofRecord?_toRecord`). The records of a directory stand one after the other in its block, and
a directory of such files is read back whole (`Directory.decode_encode`).
-/

namespace FlatVolume

open Bytes

/-! ## 1. NUL bytes -/

/-- **Only NUL is encoded with a zero byte.** -/
theorem zero_mem_utf8EncodeChar {c : Char} :
    (0 : UInt8) ∈ String.utf8EncodeChar c ↔ c = '\x00' := by
  have hz : ∀ {n : Nat}, (0 : UInt8) = UInt8.ofNat n ↔ n % 256 = 0 := by
    intro n
    rw [← UInt8.toNat_inj, UInt8.toNat_ofNat', eq_comm]
    rfl
  have hc : c = '\x00' ↔ c.val.toNat = 0 := by
    rw [← Char.val_inj, ← UInt32.toNat_inj]
    rfl
  rw [hc]
  unfold String.utf8EncodeChar
  dsimp only
  split
  · simp only [List.mem_singleton, hz]
    omega
  · split
    · simp only [List.mem_cons, List.not_mem_nil, or_false, hz]
      omega
    · split
      · simp only [List.mem_cons, List.not_mem_nil, or_false, hz]
        omega
      · simp only [List.mem_cons, List.not_mem_nil, or_false, hz]
        omega

theorem mem_data_iff {b : ByteArray} {x : UInt8} :
    x ∈ b.data.toList ↔ ∃ i < b.size, byteAt b i = x := by
  rw [Array.mem_toList_iff, Array.mem_iff_getElem]
  constructor
  · intro hq
    rcases hq with ⟨i, hi, rfl⟩
    exact ⟨i, hi, byteAt_of_lt hi⟩
  · intro hq
    rcases hq with ⟨i, hi, rfl⟩
    exact ⟨i, hi, (byteAt_of_lt hi).symm⟩

/-- **A name without NUL has no zero byte.** -/
theorem byteAt_toUTF8_ne_zero_iff {name : String} :
    (∀ i < name.toUTF8.size, byteAt name.toUTF8 i ≠ 0) ↔ '\x00' ∉ name.toList := by
  have hm : (0 : UInt8) ∈ name.toUTF8.data.toList ↔ '\x00' ∈ name.toList := by
    have hd : name.toUTF8.data.toList = name.toList.flatMap String.utf8EncodeChar := by
      show name.toByteArray.data.toList = _
      rw [← String.utf8Encode_toList, List.utf8Encode, List.toList_data_toByteArray]
    rw [hd, List.mem_flatMap]
    simp only [zero_mem_utf8EncodeChar]
    exact ⟨fun ⟨c, hc, he⟩ => he ▸ hc, fun h => ⟨_, h, rfl⟩⟩
  rw [← hm, mem_data_iff]
  simp only [not_exists, not_and, ne_eq]

/-! ## 2. Names -/

namespace Entry

/-- **The bytes of a name** are those before the first zero of its field. -/
theorem nameBytes?_eq_some_iff {field : Vector UInt8 16} {b : ByteArray} :
    nameBytes? field = some b ↔ b.size < 16 ∧
      (∀ i < b.size, byteAt b i = byteAt (ofVector field) i ∧ byteAt b i ≠ 0) ∧
      byteAt (ofVector field) b.size = 0 := by
  rw [nameBytes?, Option.map_eq_some_iff]
  simp only [Array.findIdx?_eq_some_iff_getElem, beq_iff_eq]
  have hfield : ∀ {i : Nat} (hi : i < field.toArray.size),
      field.toArray[i] = byteAt (ofVector field) i := by
    intro i hi
    rw [byteAt_ofVector field (by simpa using hi)]
    rfl
  have hsize : ∀ {n : Nat}, n < 16 → ((ofVector field).extract 0 n).size = n := by
    intro n hn
    rw [ByteArray.size_extract, size_ofVector]
    omega
  have hbyte : ∀ {n i : Nat}, i < n →
      byteAt ((ofVector field).extract 0 n) i = byteAt (ofVector field) i := by
    intro n i hi
    rw [byteAt_extract (by omega), Nat.zero_add]
  constructor
  · intro hq
    rcases hq with ⟨n, ⟨hn, hz, hmin⟩, rfl⟩
    have hn' : n < 16 := by simpa using hn
    rw [hsize hn']
    refine ⟨hn', fun i hi => ⟨hbyte hi, ?_⟩, (hfield hn).symm.trans hz⟩
    rw [hbyte hi, ← hfield (by omega)]
    exact hmin i hi
  · intro hq
    rcases hq with ⟨hlt, hbytes, hz⟩
    have hlt' : b.size < field.toArray.size := by simpa using hlt
    refine ⟨b.size, ⟨hlt', (hfield hlt').trans hz, fun j hj => ?_⟩, ?_⟩
    · obtain ⟨he, hne⟩ := hbytes j hj
      rwa [hfield (by omega), ← he]
    · refine ext_byteAt (hsize hlt) fun i hi => ?_
      rw [hsize hlt] at hi
      rw [hbyte hi, (hbytes i hi).1]

theorem fromUTF8?_eq_some_iff {b : ByteArray} {name : String} :
    String.fromUTF8? b = some name ↔ name.toUTF8 = b := by
  unfold String.fromUTF8?
  constructor
  · intro h
    split at h
    · cases h
      rfl
    · cases h
  · intro heq
    subst heq
    rw [dif_pos (show name.toUTF8.IsValidUTF8 from name.isValidUTF8)]
    rfl

theorem validName_iff {name : String} : validName name = true ↔
    name.isEmpty = false ∧ name.toUTF8.size ≤ longestName ∧ '\x00' ∉ name.toList := by
  simp [validName, and_assoc]

/-- **What is read has a valid name,** or is a free slot. -/
theorem validName_of_ofRecord? {r : Record} {e : Entry} (h : ofRecord? r = some e) :
    e = free ∨ validName e.name = true := by
  unfold ofRecord? at h
  split at h
  · cases h
  · rename_i b hb
    split at h
    · cases h
    · rename_i name hname
      cases hempty : name.isEmpty with
      | true =>
        rw [hempty, if_pos rfl] at h
        exact .inl (Option.some.inj h).symm
      | false =>
        rw [hempty, if_neg (by decide)] at h
        obtain rfl := Option.some.inj h
        obtain ⟨hlt, hbytes, -⟩ := nameBytes?_eq_some_iff.mp hb
        obtain rfl := fromUTF8?_eq_some_iff.mp hname
        refine .inr (validName_iff.mpr ⟨hempty, Nat.le_of_lt_succ hlt, ?_⟩)
        exact byteAt_toUTF8_ne_zero_iff.mp fun i hi => (hbytes i hi).2

end Entry

/-! ## 3. Entries, written and read -/

namespace Entry

/-- **What a record keeps of a name:** its bytes cut at fifteen, and of these the ones before the first
    NUL. -/
def kept (name : String) : ByteArray :=
  (name.toUTF8.extract 0 longestName).extract 0
    ((name.toUTF8.extract 0 longestName).data.findIdx (· == 0))

/-- What is kept are the first bytes of the name, at most fifteen and none of them NUL; it ends after
    fifteen bytes, at a NUL or with the name. -/
theorem kept_spec (name : String) :
    ((kept name).size ≤ longestName ∧ (kept name).size ≤ name.toUTF8.size) ∧
    (∀ i < (kept name).size,
      byteAt (kept name) i = byteAt name.toUTF8 i ∧ byteAt (kept name) i ≠ 0) ∧
    ((kept name).size = longestName ∨ byteAt name.toUTF8 (kept name).size = 0) := by
  let cut := name.toUTF8.extract 0 longestName
  have hcut : cut.size = min longestName name.toUTF8.size := by
    show (name.toUTF8.extract 0 longestName).size = _
    rw [ByteArray.size_extract]
    omega
  have hbyte : ∀ {i : Nat} (hi : i < cut.data.size), cut.data[i] = byteAt name.toUTF8 i := by
    intro i hi
    have hi' : i < cut.size := hi
    have := byteAt_extract (b := name.toUTF8) (i := 0) (j := longestName) (k := i) (by omega)
    rw [Nat.zero_add] at this
    rw [← this, byteAt_of_lt hi']
    rfl
  have hle : cut.data.findIdx (· == 0) ≤ cut.size := Array.findIdx_le_size
  have hsize : (kept name).size = cut.data.findIdx (· == 0) := by
    show (cut.extract 0 (cut.data.findIdx (· == 0))).size = _
    rw [ByteArray.size_extract]
    omega
  rw [hsize]
  refine ⟨⟨by omega, by omega⟩, fun i hi => ?_, ?_⟩
  · have heq : byteAt (kept name) i = byteAt name.toUTF8 i := by
      show byteAt (cut.extract 0 (cut.data.findIdx (· == 0))) i = _
      rw [byteAt_extract (by omega), byteAt_extract (by omega), Nat.zero_add, Nat.zero_add]
    have hne := Array.not_of_lt_findIdx hi
    rw [hbyte (Nat.lt_of_lt_of_le hi hle)] at hne
    exact ⟨heq, by simpa [heq] using hne⟩
  · rcases Nat.lt_or_eq_of_le hle with hlt | heq
    · have := Array.findIdx_getElem (w := hlt)
      rw [hbyte hlt] at this
      exact .inr (by simpa using this)
    · rcases Nat.le_total longestName name.toUTF8.size with h | h
      · exact .inl (by omega)
      · exact .inr (byteAt_of_le (by omega))

theorem kept_eq_extract (name : String) : kept name = name.toUTF8.extract 0 (kept name).size := by
  obtain ⟨⟨-, hle⟩, hbyte, -⟩ := kept_spec name
  refine ext_byteAt (by rw [ByteArray.size_extract]; omega) fun i hi => ?_
  rw [(hbyte i hi).1, byteAt_extract (by omega), Nat.zero_add]

/-- **A valid name is kept as it is,** and no other but the empty one. -/
theorem kept_eq_iff {name : String} :
    kept name = name.toUTF8 ↔ name.toUTF8.size ≤ longestName ∧ '\x00' ∉ name.toList := by
  obtain ⟨⟨hlong, hle⟩, hbyte, hend⟩ := kept_spec name
  rw [← byteAt_toUTF8_ne_zero_iff]
  constructor
  · intro h
    rw [h] at hlong hbyte
    exact ⟨hlong, fun i hi => (hbyte i hi).2⟩
  · intro hq
    rcases hq with ⟨hsize, hne⟩
    have hall : (kept name).size = name.toUTF8.size := by
      refine Nat.le_antisymm hle (Nat.le_of_not_lt fun hlt => ?_)
      rcases hend with h | h
      · omega
      · exact hne _ hlt h
    rw [kept_eq_extract, hall, ByteArray.extract_zero_size]

/-- The name field of an entry's record. -/
theorem byteAt_toRecord_name (e : Entry) {i : Nat} (hi : i < 16) :
    byteAt (ofVector e.toRecord.name) i = if i < longestName then byteAt e.name.toUTF8 i else 0 := by
  have hcut : (e.name.toUTF8.extract 0 longestName).size ≤ longestName := by
    rw [ByteArray.size_extract]
    omega
  rw [byteAt_ofVector _ hi, toRecord, vectorAt, Vector.getElem_ofFn, Nat.zero_add]
  dsimp only
  split
  · rw [byteAt_extract (by omega), Nat.zero_add]
  · rw [byteAt_of_le (by omega)]

/-- The name that is read from an entry's record is what was kept of it. -/
theorem nameBytes?_toRecord (e : Entry) : nameBytes? e.toRecord.name = some (kept e.name) := by
  obtain ⟨⟨hlong, -⟩, hbyte, hend⟩ := kept_spec e.name
  have hlt : (kept e.name).size < 16 := Nat.lt_succ_of_le hlong
  refine nameBytes?_eq_some_iff.mpr ⟨hlt, fun i hi => ?_, ?_⟩
  · rw [byteAt_toRecord_name e (by omega), if_pos (by omega)]
    exact hbyte i hi
  · rw [byteAt_toRecord_name e hlt]
    split
    · rename_i h
      exact hend.resolve_left (by omega)
    · rfl

/-- **A record says of an entry** what is kept of its name, the size modulo 2^32 and the first block;
    and nothing at all where no name is kept. -/
theorem ofRecord?_toRecord_eq (e : Entry) : ofRecord? e.toRecord =
    (String.fromUTF8? (kept e.name)).map fun name =>
      if name.isEmpty then free else ⟨name, e.size % UInt32.size, e.firstBlock⟩ := by
  have hsize : e.toRecord.size.toNat = e.size % UInt32.size := UInt32.toNat_ofNat'
  rw [ofRecord?, nameBytes?_toRecord]
  dsimp only
  cases String.fromUTF8? (kept e.name) with
  | none => rfl
  | some name =>
    rw [hsize, Option.map_some]
    dsimp only
    cases name.isEmpty <;> rfl

/-- What a record can hold: a free slot in its default form, or a file with a valid name and a size
    of four bytes. -/
def Storable (e : Entry) : Prop := e = free ∨ (validName e.name = true ∧ e.size < UInt32.size)

/-- **A record gives back what was written to it.** -/
theorem ofRecord?_toRecord {e : Entry} (h : e.Storable) : ofRecord? e.toRecord = some e := by
  have hkept : kept e.name = e.name.toUTF8 := by
    rcases h with rfl | ⟨hv, -⟩
    · exact kept_eq_iff.mpr ⟨by decide, List.not_mem_nil⟩
    · exact kept_eq_iff.mpr (validName_iff.mp hv).2
  rw [ofRecord?_toRecord_eq, hkept, fromUTF8?_eq_some_iff.mpr rfl, Option.map_some]
  rcases h with rfl | ⟨hv, hsize⟩
  · rfl
  · rw [if_neg (by simp [(validName_iff.mp hv).1]), Nat.mod_eq_of_lt hsize]

end Entry

/-! ## 4. The block of a directory -/

namespace Directory

/-- **A directory is read** exactly if each of its records is. -/
theorem decode_eq_ok_iff {b : Block} {d : Directory} :
    decode b = .ok d ↔ ∀ s, recordAt? b s = some (d.get s) := by
  unfold decode
  dsimp only
  cases hl : lowest? Option.isNone (Vector.ofFn (recordAt? b)) with
  | some slot =>
    refine iff_of_false (by simp) fun h => ?_
    have := (lowest?_eq_some_iff.mp hl).1
    simp [h slot] at this
  | none =>
    have hall := lowest?_eq_none_iff.mp hl
    constructor
    · intro h s
      cases h
      have := hall s
      cases hr : recordAt? b s with
      | none => simp [hr] at this
      | some e => simp [get, hr]
    · intro h
      refine congrArg Except.ok (ext_get fun s => ?_)
      simp [get, h s]

/-- A slot's record stands at its place in the block. -/
theorem slice_encode (d : Directory) (s : Slot) :
    d.encode.slice (Record.encodedSize * s.val) Record.encodedSize = (d.get s).toRecord.encode := by
  have hp : ∀ p ∈ d.slots.toList.map fun e => e.toRecord.encode, p.size = Record.encodedSize := by
    simp
  have hs : (concat (d.slots.toList.map fun e => e.toRecord.encode)).size = blockSize := by
    rw [size_concat hp, List.length_map, Vector.length_toList]
    rfl
  have hi : s.val < (d.slots.toList.map fun e => e.toRecord.encode).length := by simp
  rw [Block.slice, encode, Block.padded]
  simp only [fit_of_size_eq hs]
  rw [extract_concat hp hi]
  simp [get]

/-- What is read of a slot that was written. -/
theorem recordAt?_encode (d : Directory) (s : Slot) :
    recordAt? d.encode s = Entry.ofRecord? (d.get s).toRecord := by
  have hr := Record.ofBytes_encode_append (d.get s).toRecord ByteArray.empty
  rw [ByteArray.append_empty] at hr
  rw [recordAt?, slice_encode, hr]

/-- **A directory is read back as it was written.** -/
theorem decode_encode {d : Directory} (h : ∀ s, (d.get s).Storable) : decode d.encode = .ok d :=
  decode_eq_ok_iff.mpr fun s => by rw [recordAt?_encode, Entry.ofRecord?_toRecord (h s)]

/-- Whatever a block holds, the slots read from it are in default form or have valid names. -/
theorem valid_of_decode {b : Block} {d : Directory} (h : decode b = .ok d) (s : Slot) :
    d.get s = Entry.free ∨ validName (d.get s).name = true :=
  Entry.validName_of_ofRecord? (decode_eq_ok_iff.mp h s)

end Directory

end FlatVolume
