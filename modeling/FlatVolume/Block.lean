import FlatVolume.Bytes

/-!
# Blocks

A device is read and written in whole blocks of `blockSize` bytes, and nothing smaller ever
crosses that line. This file fixes:

* `Block` -- a byte string that carries the proof of its length, so that a block of another
  length cannot be handed to a device;
* `Block.padded` -- bytes followed by zeros up to a whole block (cut where they are longer);
* `Block.slice` and `Block.overlay` -- taking bytes out of a block and laying bytes over it.
  A byte laid over is read back where it was put, and every other byte is the old one
  (`byteAt_overlay`).
-/

namespace FlatVolume

open Bytes

/-- The size of every block in bytes. There is no support for other sizes. -/
def blockSize : Nat := 4096

/-- `a / b`, rounded up: how many pieces of size `b` it takes to hold `a`. -/
def ceilDiv (a b : Nat) : Nat := (a + b - 1) / b

/-- A whole block of bytes. -/
structure Block where
  bytes : ByteArray
  size_bytes : bytes.size = blockSize

namespace Block

attribute [simp] size_bytes

theorem ext_bytes {a b : Block} (h : a.bytes = b.bytes) : a = b := by
  cases a; cases b; congr

instance : DecidableEq Block := fun a b =>
  decidable_of_iff (a.bytes.data = b.bytes.data)
    ⟨fun h => ext_bytes (ByteArray.ext h), fun h => by rw [h]⟩

/-- The block of zeros. -/
def zero : Block := ⟨zeros blockSize, size_zeros blockSize⟩

instance : Inhabited Block := ⟨zero⟩

/-- The block that starts with `b` and goes on with zeros. What does not fit is cut. -/
def padded (b : ByteArray) : Block := ⟨fit blockSize b, size_fit blockSize b⟩

/-- `n` bytes of the block from position `within` on (fewer where the block ends). -/
def slice (b : Block) (within n : Nat) : ByteArray :=
  b.bytes.extract within (within + n)

/-- The block with `src` laid over it from position `within` on. Bytes that would reach past
    the end of the block are not laid at all. -/
def overlay (b : Block) (within : Nat) (src : ByteArray) : Block :=
  if h : within + src.size ≤ blockSize then
    { bytes := b.bytes.extract 0 within ++ src ++ b.bytes.extract (within + src.size) blockSize
      size_bytes := by
        simp only [ByteArray.size_append, ByteArray.size_extract, size_bytes]
        omega }
  else b

/-! ## What is read back -/

theorem byteAt_padded (b : ByteArray) {i : Nat} (h : i < blockSize) :
    byteAt (padded b).bytes i = byteAt b i := byteAt_fit b h

theorem byteAt_zero (i : Nat) : byteAt zero.bytes i = 0 := byteAt_zeros _ _

/-- **A byte of an overlaid block is the new one inside the laid range and the old one
    outside.** -/
theorem byteAt_overlay (b : Block) {within : Nat} {src : ByteArray} {i : Nat}
    (h : within + src.size ≤ blockSize) :
    byteAt (b.overlay within src).bytes i =
      if within ≤ i ∧ i < within + src.size then byteAt src (i - within)
      else byteAt b.bytes i := by
  have hb : b.bytes.size = blockSize := b.size_bytes
  have hl : (b.bytes.extract 0 within).size = within := by
    rw [ByteArray.size_extract]; omega
  simp only [overlay, h, dif_pos]
  by_cases h1 : i < within
  · rw [if_neg (by omega), ByteArray.append_assoc, byteAt_append_left (by omega),
      byteAt_extract (by omega), Nat.zero_add]
  · by_cases h2 : i < within + src.size
    · rw [if_pos (by omega), ByteArray.append_assoc, byteAt_append_of_le (by omega), hl,
        byteAt_append_left (by omega)]
    · have hs : (b.bytes.extract 0 within ++ src).size = within + src.size := by
        rw [ByteArray.size_append, hl]
      rw [if_neg (by omega), byteAt_append_of_le (by omega), hs]
      by_cases h3 : i < blockSize
      · rw [byteAt_extract (by omega)]
        congr 1
        omega
      · rw [byteAt_of_le (by rw [ByteArray.size_extract]; omega), byteAt_of_le (by omega)]

@[simp] theorem size_slice (b : Block) {within n : Nat} (h : within + n ≤ blockSize) :
    (b.slice within n).size = n := by
  rw [slice, ByteArray.size_extract, size_bytes]; omega

end Block

end FlatVolume
