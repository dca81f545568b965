import FlatVolume.Table
import FlatVolume.Bytes

/-!
# Directory entries and their records

A file is an `Entry`: a name, a size in bytes and the first block of its chain. On a volume an
entry is a `Record` of 32 bytes: sixteen for the name, then size, first block and padding.

* The name of a record ends at its first NUL and must be UTF-8 before it (`Entry.ofRecord?`); a
  record without a name is a free slot, whatever else it holds.
* `Entry.toRecord` keeps at most fifteen bytes of the name, so that a NUL always follows, and the
  low 32 bits of the size. `validName` accepts exactly the names that survive this.
-/

namespace FlatVolume

open Bytes

/-! ## 1. Entries -/

/-- The longest name in bytes. In the sixteen bytes of a record a NUL always follows it. -/
def longestName : Nat := 15

/-- A directory slot. A slot whose name is empty is free. -/
structure Entry where
  name : String
  /-- The size of the file in bytes. -/
  size : Nat
  /-- The first block of the file's chain, `Link.endOfChain` for a file without blocks. -/
  firstBlock : Link
deriving DecidableEq, Repr

namespace Entry

/-- An empty file. -/
def ofName (name : String) : Entry := ⟨name, 0, Link.endOfChain⟩

/-- A free slot. -/
def free : Entry := ofName ""

/-- Whether the slot is free. -/
def isFree (e : Entry) : Bool := e.name.isEmpty

/-- The line shown for a file. -/
def render (e : Entry) : String :=
  s!"file: {e.name}, size: {e.size}, data_blk: {e.firstBlock}"

end Entry

/-- A name that fits its field with room for the NUL, and holds none itself. -/
def validName (name : String) : Bool :=
  !name.isEmpty && name.utf8ByteSize ≤ longestName && !name.toList.contains '\x00'

/-- Refuses a name that no record can hold. -/
def checkName (name : String) : Except VolumeError Unit :=
  if validName name then .ok () else .error (.invalidName name)

/-! ## 2. Records -/

/-- A directory slot as it stands on a volume. -/
structure Record where
  /-- The name, a NUL, and anything after it. -/
  name : Vector UInt8 16
  size : UInt32
  firstBlock : UInt16
  /-- Bytes without meaning. -/
  padding : Vector UInt8 10
deriving DecidableEq

namespace Record

/-- The size of a record. -/
def encodedSize : Nat := 32

/-- The bytes of a record. -/
def encode (r : Record) : ByteArray :=
  ofVector r.name ++ ofWord32 r.size ++ ofWord16 r.firstBlock ++ ofVector r.padding

@[simp] theorem size_encode (r : Record) : r.encode.size = encodedSize := by
  simp only [encode, ByteArray.size_append, size_ofVector, size_ofWord16, size_ofWord32]
  rfl

/-- The record that stands at the beginning of `b`. -/
def ofBytes (b : ByteArray) : Record where
  name := vectorAt 16 b 0
  size := word32 b 16
  firstBlock := word16 b 20
  padding := vectorAt 10 b 22

/-- **A record is read back from its bytes,** whatever follows them. -/
theorem ofBytes_encode_append (r : Record) (b : ByteArray) : ofBytes (r.encode ++ b) = r := by
  have hs : r.encode.size = 32 := r.size_encode
  have h0 : vectorAt 16 r.encode 0 = r.name := by
    simp [encode, vectorAt_append_left, vectorAt_ofVector]
  have h16 : word32 r.encode 16 = r.size := by
    simp [encode, word32_append_left, word32_append_of_le, word32_ofWord32]
  have h20 : word16 r.encode 20 = r.firstBlock := by
    simp [encode, word16_append_left, word16_append_of_le, word16_ofWord16]
  have h22 : vectorAt 10 r.encode 22 = r.padding := by
    simp [encode, vectorAt_append_of_le, vectorAt_ofVector]
  simp only [ofBytes, vectorAt_append_left (show 0 + 16 ≤ r.encode.size by omega),
    word32_append_left (show 16 + 4 ≤ r.encode.size by omega),
    word16_append_left (show 20 + 2 ≤ r.encode.size by omega),
    vectorAt_append_left (show 22 + 10 ≤ r.encode.size by omega), h0, h16, h20, h22]

/-- A record is read from 32 bytes, neither more nor fewer. -/
def decode (b : ByteArray) : Except VolumeError Record :=
  if b.size = encodedSize then .ok (ofBytes b) else .error (.malformed encodedSize b.size)

end Record

namespace Entry

/-- The bytes of a record's name: those before the first NUL. Nothing if there is no NUL. -/
def nameBytes? (field : Vector UInt8 16) : Option ByteArray :=
  (field.toArray.findIdx? (· == 0)).map fun n => (ofVector field).extract 0 n

/-- **Reads a record.** Nothing if its name is not NUL terminated or not UTF-8; a record without a
    name is a free slot, and what its other fields hold is dropped. -/
def ofRecord? (r : Record) : Option Entry :=
  match nameBytes? r.name with
  | none => none
  | some bytes =>
    match String.fromUTF8? bytes with
    | none => none
    | some name => if name.isEmpty then some free else some ⟨name, r.size.toNat, r.firstBlock⟩

/-- **Writes a record:** the name cut to fifteen bytes with zeros after it, the size modulo 2^32,
    zero padding. -/
def toRecord (e : Entry) : Record where
  name := vectorAt 16 (e.name.toUTF8.extract 0 longestName) 0
  size := UInt32.ofNat e.size
  firstBlock := e.firstBlock
  padding := Vector.replicate 10 0

end Entry

end FlatVolume
