/-!
# Byte strings and little-endian numbers

Everything on a volume is bytes, and every number among them is little-endian. This file fixes:

* `byteAt b i` -- the byte at position `i`, zero past the end, so that reading is total;
* `zeros n` -- a run of zero bytes, and `fit n b` -- `b` cut or filled up with zeros to `n` bytes,
  as every field of a fixed width is written;
* `ofWord16`/`word16` and `ofWord32`/`word32` -- a 16 or 32 bit number written to and read from
  consecutive bytes, low byte first; `ofVector`/`vectorAt` the same for a field of a fixed number
  of bytes. Reading what was written gives it back (`word16_ofWord16`, `word32_ofWord32`,
  `vectorAt_ofVector`), wherever in a joined byte string it stands.
-/

namespace FlatVolume.Bytes

/-! ## 1. Single bytes -/

/-- The byte at position `i`, zero past the end. -/
def byteAt (b : ByteArray) (i : Nat) : UInt8 :=
  if h : i < b.size then b[i] else 0

theorem byteAt_of_lt {b : ByteArray} {i : Nat} (h : i < b.size) : byteAt b i = b[i] := by
  simp [byteAt, h]

theorem byteAt_of_le {b : ByteArray} {i : Nat} (h : b.size ≤ i) : byteAt b i = 0 := by
  simp [byteAt, Nat.not_lt.mpr h]

/-- A position in the first part of a joined byte string is read there. -/
theorem byteAt_append_left {a b : ByteArray} {i : Nat} (h : i < a.size) :
    byteAt (a ++ b) i = byteAt a i := by
  have h' : i < (a ++ b).size := by rw [ByteArray.size_append]; omega
  rw [byteAt_of_lt h', byteAt_of_lt h, ByteArray.getElem_append_left h]

/-- A position past the first part of a joined byte string is read in the second. -/
theorem byteAt_append_right (a b : ByteArray) (i : Nat) :
    byteAt (a ++ b) (a.size + i) = byteAt b i := by
  by_cases h : i < b.size
  · have h' : a.size + i < (a ++ b).size := by rw [ByteArray.size_append]; omega
    rw [byteAt_of_lt h', byteAt_of_lt h, ByteArray.getElem_append_right (by omega)]
    congr 1
    omega
  · rw [byteAt_of_le (by rw [ByteArray.size_append]; omega), byteAt_of_le (by omega)]

theorem byteAt_append_of_le {a b : ByteArray} {i : Nat} (h : a.size ≤ i) :
    byteAt (a ++ b) i = byteAt b (i - a.size) := by
  obtain ⟨k, rfl⟩ : ∃ k, i = a.size + k := ⟨i - a.size, by omega⟩
  rw [byteAt_append_right, Nat.add_sub_cancel_left]

/-- A byte of a part of a byte string is the byte at the shifted position. -/
theorem byteAt_extract {b : ByteArray} {i j k : Nat} (h : k < j - i) :
    byteAt (b.extract i j) k = byteAt b (i + k) := by
  by_cases hb : i + k < b.size
  · have hk : k < (b.extract i j).size := by rw [ByteArray.size_extract]; omega
    rw [byteAt_of_lt hk, byteAt_of_lt hb, ByteArray.getElem_extract]
  · rw [byteAt_of_le (by rw [ByteArray.size_extract]; omega), byteAt_of_le (by omega)]

/-- **Byte strings of one size are equal when they agree at every position.** -/
theorem ext_byteAt {a b : ByteArray} (hs : a.size = b.size)
    (h : ∀ i < a.size, byteAt a i = byteAt b i) : a = b := by
  refine ByteArray.ext_getElem hs fun i hi hi' => ?_
  have := h i hi
  rwa [byteAt_of_lt hi, byteAt_of_lt hi'] at this

/-! ## 2. Runs of zeros -/

/-- `n` zero bytes. -/
def zeros (n : Nat) : ByteArray := ⟨Array.replicate n 0⟩

@[simp] theorem size_zeros (n : Nat) : (zeros n).size = n := by
  simp [zeros, ByteArray.size]

@[simp] theorem byteAt_zeros (n i : Nat) : byteAt (zeros n) i = 0 := by
  by_cases h : i < (zeros n).size
  · rw [byteAt_of_lt h]
    simp [zeros, ByteArray.getElem_eq_getElem_data]
  · exact byteAt_of_le (by omega)

/-- Exactly `n` bytes: those of `b`, cut where there are more and followed by zeros where there
    are fewer. -/
def fit (n : Nat) (b : ByteArray) : ByteArray :=
  b.extract 0 n ++ zeros (n - b.size)

@[simp] theorem size_fit (n : Nat) (b : ByteArray) : (fit n b).size = n := by
  rw [fit, ByteArray.size_append, ByteArray.size_extract, size_zeros]
  omega

/-- **Fitting keeps the bytes and adds zeros.** -/
theorem byteAt_fit (b : ByteArray) {n i : Nat} (h : i < n) : byteAt (fit n b) i = byteAt b i := by
  by_cases hi : i < (b.extract 0 n).size
  · rw [fit, byteAt_append_left hi, byteAt_extract (by omega), Nat.zero_add]
  · have hs : b.size ≤ i := by rw [ByteArray.size_extract] at hi; omega
    rw [fit, byteAt_append_of_le (by omega), byteAt_zeros, byteAt_of_le hs]

/-- Bytes of the right number fit as they are. -/
theorem fit_of_size_eq {n : Nat} {b : ByteArray} (h : b.size = n) : fit n b = b :=
  ext_byteAt (by rw [size_fit, h]) fun i hi => byteAt_fit b (by rwa [size_fit] at hi)

/-- The parts of a list of byte strings, one after the other. -/
def concat (parts : List ByteArray) : ByteArray :=
  parts.foldl (· ++ ·) ByteArray.empty

theorem foldl_append (a : ByteArray) (parts : List ByteArray) :
    parts.foldl (· ++ ·) a = a ++ concat parts := by
  induction parts generalizing a with
  | nil => exact ByteArray.append_empty.symm
  | cons p ps ih =>
    have h : concat (p :: ps) = p ++ concat ps := by
      show List.foldl (· ++ ·) (ByteArray.empty ++ p) ps = p ++ concat ps
      rw [ih, ByteArray.empty_append]
    rw [List.foldl_cons, ih, h, ByteArray.append_assoc]

@[simp] theorem concat_nil : concat [] = ByteArray.empty := rfl

@[simp] theorem concat_cons (p : ByteArray) (ps : List ByteArray) :
    concat (p :: ps) = p ++ concat ps := by
  show List.foldl (· ++ ·) (ByteArray.empty ++ p) ps = p ++ concat ps
  rw [foldl_append, ByteArray.empty_append]

/-- Parts of one size are as long together as that size times their number. -/
theorem size_concat {n : Nat} {parts : List ByteArray} (h : ∀ p ∈ parts, p.size = n) :
    (concat parts).size = n * parts.length := by
  induction parts with
  | nil => simp
  | cons p ps ih =>
    rw [concat_cons, ByteArray.size_append, h p (List.mem_cons_self ..),
      ih fun q hq => h q (List.mem_cons_of_mem _ hq), List.length_cons, Nat.mul_succ, Nat.add_comm]

/-- **Among parts of one size, each is found by its number.** -/
theorem extract_concat {n : Nat} {parts : List ByteArray} (h : ∀ p ∈ parts, p.size = n) {i : Nat}
    (hi : i < parts.length) : (concat parts).extract (n * i) (n * i + n) = parts[i] := by
  induction parts generalizing i with
  | nil => simp at hi
  | cons p ps ih =>
    have hp : p.size = n := h p (List.mem_cons_self ..)
    cases i with
    | zero =>
      rw [concat_cons, Nat.mul_zero, Nat.zero_add, ByteArray.extract_append_eq_left hp.symm]
      rfl
    | succ i =>
      have hs : n * (i + 1) = p.size + n * i := by rw [hp, Nat.mul_succ, Nat.add_comm]
      rw [concat_cons, hs, Nat.add_assoc, ByteArray.extract_append_size_add,
        ih (fun q hq => h q (List.mem_cons_of_mem _ hq)) (by simpa using hi)]
      rfl

/-! ## 3. Numbers of two and four bytes -/

/-- The two bytes of a 16 bit number, low byte first. -/
def ofWord16 (w : UInt16) : ByteArray :=
  ⟨#[UInt8.ofNat w.toNat, UInt8.ofNat (w.toNat / 256)]⟩

/-- The 16 bit number whose low byte stands at position `i`. -/
def word16 (b : ByteArray) (i : Nat) : UInt16 :=
  UInt16.ofNat ((byteAt b i).toNat + 256 * (byteAt b (i + 1)).toNat)

/-- The four bytes of a 32 bit number, low byte first. -/
def ofWord32 (w : UInt32) : ByteArray :=
  ⟨#[UInt8.ofNat w.toNat, UInt8.ofNat (w.toNat / 256), UInt8.ofNat (w.toNat / 65536),
    UInt8.ofNat (w.toNat / 16777216)]⟩

/-- The 32 bit number whose low byte stands at position `i`. -/
def word32 (b : ByteArray) (i : Nat) : UInt32 :=
  UInt32.ofNat ((byteAt b i).toNat + 256 * (byteAt b (i + 1)).toNat
    + 65536 * (byteAt b (i + 2)).toNat + 16777216 * (byteAt b (i + 3)).toNat)

@[simp] theorem size_ofWord16 (w : UInt16) : (ofWord16 w).size = 2 := rfl

@[simp] theorem size_ofWord32 (w : UInt32) : (ofWord32 w).size = 4 := rfl

/-- **A 16 bit number is read back from its bytes.** -/
theorem word16_ofWord16 (w : UInt16) : word16 (ofWord16 w) 0 = w := by
  have h0 : byteAt (ofWord16 w) 0 = UInt8.ofNat w.toNat := rfl
  have h1 : byteAt (ofWord16 w) (0 + 1) = UInt8.ofNat (w.toNat / 256) := rfl
  have := w.toNat_lt
  apply UInt16.toNat_inj.mp
  simp only [word16, h0, h1, UInt8.toNat_ofNat', UInt16.toNat_ofNat']
  omega

/-- **A 32 bit number is read back from its bytes.** -/
theorem word32_ofWord32 (w : UInt32) : word32 (ofWord32 w) 0 = w := by
  have h0 : byteAt (ofWord32 w) 0 = UInt8.ofNat w.toNat := rfl
  have h1 : byteAt (ofWord32 w) (0 + 1) = UInt8.ofNat (w.toNat / 256) := rfl
  have h2 : byteAt (ofWord32 w) (0 + 2) = UInt8.ofNat (w.toNat / 65536) := rfl
  have h3 : byteAt (ofWord32 w) (0 + 3) = UInt8.ofNat (w.toNat / 16777216) := rfl
  have := w.toNat_lt
  apply UInt32.toNat_inj.mp
  simp only [word32, h0, h1, h2, h3, UInt8.toNat_ofNat', UInt32.toNat_ofNat']
  omega

/-- A number that lies within a part of a byte string is read there. -/
theorem word16_extract {b : ByteArray} {i j k : Nat} (h : k + 2 ≤ j - i) :
    word16 (b.extract i j) k = word16 b (i + k) := by
  rw [word16, word16, byteAt_extract (by omega), byteAt_extract (by omega), Nat.add_assoc]

/-- A number that lies in the first part of a joined byte string is read there. -/
theorem word16_append_left {a b : ByteArray} {i : Nat} (h : i + 2 ≤ a.size) :
    word16 (a ++ b) i = word16 a i := by
  simp only [word16, byteAt_append_left (show i < a.size by omega),
    byteAt_append_left (show i + 1 < a.size by omega)]

/-- A number that lies past the first part of a joined byte string is read in the second. -/
theorem word16_append_of_le {a b : ByteArray} {i : Nat} (h : a.size ≤ i) :
    word16 (a ++ b) i = word16 b (i - a.size) := by
  simp only [word16, byteAt_append_of_le h, byteAt_append_of_le (show a.size ≤ i + 1 by omega),
    Nat.sub_add_comm h]

theorem word32_append_left {a b : ByteArray} {i : Nat} (h : i + 4 ≤ a.size) :
    word32 (a ++ b) i = word32 a i := by
  simp only [word32, byteAt_append_left (show i < a.size by omega),
    byteAt_append_left (show i + 1 < a.size by omega),
    byteAt_append_left (show i + 2 < a.size by omega),
    byteAt_append_left (show i + 3 < a.size by omega)]

theorem word32_append_of_le {a b : ByteArray} {i : Nat} (h : a.size ≤ i) :
    word32 (a ++ b) i = word32 b (i - a.size) := by
  simp only [word32, byteAt_append_of_le h, byteAt_append_of_le (show a.size ≤ i + 1 by omega),
    byteAt_append_of_le (show a.size ≤ i + 2 by omega),
    byteAt_append_of_le (show a.size ≤ i + 3 by omega), Nat.sub_add_comm h]

/-! ## 4. Fields of a fixed width -/

/-- The bytes of a field. -/
def ofVector {n : Nat} (v : Vector UInt8 n) : ByteArray := ⟨v.toArray⟩

/-- The field of `n` bytes that begins at position `i`. -/
def vectorAt (n : Nat) (b : ByteArray) (i : Nat) : Vector UInt8 n :=
  Vector.ofFn fun k : Fin n => byteAt b (i + k.val)

@[simp] theorem size_ofVector {n : Nat} (v : Vector UInt8 n) : (ofVector v).size = n := by
  simp [ofVector, ByteArray.size]

theorem byteAt_ofVector {n : Nat} (v : Vector UInt8 n) {i : Nat} (h : i < n) :
    byteAt (ofVector v) i = v[i] := by
  rw [byteAt_of_lt (by rwa [size_ofVector])]
  rfl

/-- **A field is read back from its bytes.** -/
theorem vectorAt_ofVector {n : Nat} (v : Vector UInt8 n) : vectorAt n (ofVector v) 0 = v := by
  ext k hk
  rw [vectorAt, Vector.getElem_ofFn, Nat.zero_add, byteAt_ofVector v hk]

theorem vectorAt_append_left {a b : ByteArray} {n i : Nat} (h : i + n ≤ a.size) :
    vectorAt n (a ++ b) i = vectorAt n a i := by
  ext k hk
  rw [vectorAt, vectorAt, Vector.getElem_ofFn, Vector.getElem_ofFn,
    byteAt_append_left (show i + k < a.size by omega)]

theorem vectorAt_append_of_le {a b : ByteArray} {n i : Nat} (h : a.size ≤ i) :
    vectorAt n (a ++ b) i = vectorAt n b (i - a.size) := by
  ext k hk
  rw [vectorAt, vectorAt, Vector.getElem_ofFn, Vector.getElem_ofFn,
    byteAt_append_of_le (show a.size ≤ i + k by omega), Nat.sub_add_comm h]

end FlatVolume.Bytes
