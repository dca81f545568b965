import FlatVolume.Volume.Span
import Std.Data.TreeMap

/-!
# Files of the host

A host file is as long as it was made, and only those pieces of it are kept that were written: an
image of many blocks costs nothing until something is stored in it. Pieces are blocks, numbered
from the beginning of the file.

The last piece may reach past the end. Whoever holds whole pieces of the file, as an open image
does, can put bytes there; nobody who reads the file sees them, and they are gone as soon as the
file is written out (`HostFile.settle`).
-/

namespace FlatVolume

/-- A file of the host. -/
structure HostFile where
  /-- The length in bytes. -/
  size : Nat
  /-- The pieces that were written; all others are zero. -/
  pieces : Std.TreeMap Nat Block

namespace HostFile

/-- A file of `size` zero bytes. -/
def zeros (size : Nat) : HostFile := ⟨size, {}⟩

/-- The `i`th piece. -/
def piece (f : HostFile) (i : Nat) : Block := f.pieces.getD i Block.zero

/-- The file with a piece replaced; its length stays. -/
def setPiece (f : HostFile) (i : Nat) (b : Block) : HostFile :=
  { f with pieces := f.pieces.insert i b }

/-- **The piece that was set is there, and every other piece is the old one.** -/
theorem piece_setPiece (f : HostFile) (i j : Nat) (b : Block) :
    (f.setPiece i b).piece j = if j = i then b else f.piece j := by
  simp only [piece, setPiece, Std.TreeMap.getD_insert, Nat.compare_eq_eq]
  by_cases h : j = i
  · rw [if_pos h, if_pos h.symm]
  · rw [if_neg h, if_neg (Ne.symm h)]

/-- The file with `data` laid over it from byte `offset` on, longer if need be. Nothing laid over
    it makes it no longer. -/
def overlay (f : HostFile) (offset : Nat) (data : ByteArray) : HostFile :=
  if data.size = 0 then f
  else
    let f := (segments offset data).foldl
      (fun f s => f.setPiece s.index ((f.piece s.index).overlay s.within s.bytes)) f
    { f with size := max f.size (offset + data.size) }

/-- How many bytes of piece `i` belong to the file. -/
def pieceLength (f : HostFile) (i : Nat) : Nat := min blockSize (f.size - i * blockSize)

/-- The bytes of piece `i` that belong to the file. -/
def pieceBytes (f : HostFile) (i : Nat) : ByteArray := (f.piece i).slice 0 (f.pieceLength i)

/-- **The file written out:** what its last piece holds past the end is zero. -/
def settle (f : HostFile) : HostFile :=
  f.setPiece (f.size / blockSize) (Block.padded (f.pieceBytes (f.size / blockSize)))

/-- Pieces that lie within the file stay as they are when it is written out. -/
theorem piece_settle_of_lt (f : HostFile) {i : Nat} (h : i < f.size / blockSize) :
    f.settle.piece i = f.piece i := by
  rw [settle, piece_setPiece, if_neg (Nat.ne_of_lt h)]

/-- The file that holds `data`. -/
def ofBytes (data : ByteArray) : HostFile := (zeros 0).overlay 0 data

/-- What the file holds. -/
def toBytes (f : HostFile) : ByteArray :=
  Bytes.concat ((List.range (ceilDiv f.size blockSize)).map f.pieceBytes)

/-- The pieces that are not all zero, in ascending order, cut at the end of the file. -/
def nonzero (f : HostFile) : List (Nat × ByteArray) :=
  (f.pieces.toList.map fun (i, _) => (i, f.pieceBytes i)).filter fun (_, bytes) =>
    bytes.data.any (· != 0)

end HostFile

end FlatVolume
