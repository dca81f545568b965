import FlatVolume.Block

/-!
# Byte ranges cut at block boundaries

Reading or writing `count` bytes from some position of a file goes block by block: up to the end
of the block the position lies in, then whole blocks, then the rest. `spans` is that cut, for
reading; `segments` is the same cut with the bytes to be written in each piece.

* `mem_spans` -- no piece is empty, and none crosses a block boundary;
* `totalLength_spans` -- the pieces are as long together as the range.
-/

namespace FlatVolume

/-- A range of bytes of a file that lies within one block. -/
structure Span where
  /-- Which block of the file. -/
  index : Nat
  /-- Where in that block the range begins. -/
  within : Nat
  length : Nat
deriving DecidableEq, Repr

/-- How many of `count` bytes from `offset` on lie in the block that holds position `offset`. -/
def headLength (offset count : Nat) : Nat := min (blockSize - offset % blockSize) count

theorem headLength_pos (offset : Nat) {count : Nat} (h : count ≠ 0) : 0 < headLength offset count := by
  have : offset % blockSize < blockSize := Nat.mod_lt _ (by decide)
  simp only [headLength]
  omega

theorem headLength_le (offset count : Nat) : headLength offset count ≤ count :=
  Nat.min_le_right _ _

/-- A piece ends where its block ends, or before. -/
theorem mod_add_headLength_le (offset count : Nat) :
    offset % blockSize + headLength offset count ≤ blockSize := by
  have : offset % blockSize < blockSize := Nat.mod_lt _ (by decide)
  simp only [headLength]
  omega

/-- A piece that is not the last one ends where its block ends. -/
theorem mod_add_headLength_eq {offset count : Nat} (h : headLength offset count < count) :
    offset % blockSize + headLength offset count = blockSize := by
  have : offset % blockSize < blockSize := Nat.mod_lt _ (by decide)
  simp only [headLength] at h ⊢
  omega

/-- The pieces of the range of `count` bytes from `offset` on. -/
def spans (offset count : Nat) : List Span :=
  if h : count = 0 then []
  else
    have := headLength_pos offset h
    ⟨offset / blockSize, offset % blockSize, headLength offset count⟩
      :: spans (offset + headLength offset count) (count - headLength offset count)
termination_by count

/-- A piece of a write: the bytes to be laid into one block of a file. -/
structure Segment where
  /-- Which block of the file. -/
  index : Nat
  /-- Where in that block the bytes begin. -/
  within : Nat
  bytes : ByteArray

/-- The pieces of a write of `data` from `done` on, the byte at `done` going to `offset`. -/
def segmentsFrom (offset : Nat) (data : ByteArray) (done : Nat) : List Segment :=
  if h : data.size ≤ done then []
  else
    have := headLength_pos offset (show data.size - done ≠ 0 by omega)
    let n := headLength offset (data.size - done)
    ⟨offset / blockSize, offset % blockSize, data.extract done (done + n)⟩
      :: segmentsFrom (offset + n) data (done + n)
termination_by data.size - done

/-- The pieces of a write of `data` at `offset`. -/
def segments (offset : Nat) (data : ByteArray) : List Segment := segmentsFrom offset data 0

/-- **No piece of a range is empty, and none crosses a block boundary.** -/
theorem mem_spans {offset count : Nat} {s : Span} (h : s ∈ spans offset count) :
    0 < s.length ∧ s.within + s.length ≤ blockSize := by
  induction offset, count using spans.induct with
  | case1 offset => simp [spans] at h
  | case2 offset count hc hpos ih =>
    rw [spans, dif_neg hc] at h
    rcases List.mem_cons.mp h with rfl | h
    · exact ⟨hpos, mod_add_headLength_le offset count⟩
    · exact ih h

/-- How long the pieces are together. -/
def totalLength : List Span → Nat
  | [] => 0
  | s :: rest => s.length + totalLength rest

/-- **The pieces of a range are as long together as the range.** -/
theorem totalLength_spans (offset count : Nat) : totalLength (spans offset count) = count := by
  induction offset, count using spans.induct with
  | case1 offset => simp [spans, totalLength]
  | case2 offset count hc _ ih =>
    rw [spans, dif_neg hc, totalLength, ih]
    exact Nat.add_sub_cancel' (headLength_le offset count)

end FlatVolume
