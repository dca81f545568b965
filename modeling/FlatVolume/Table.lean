import FlatVolume.Computation

/-!
# The allocation table

One 16 bit entry per data block. An entry is free, or names the block that follows in its file, or
says that the file ends here; so the blocks of a file form a chain that is found from its first
block. Entry 0 is never handed out.

* `link?` -- the one step every walk makes: where a block leads, if it is a data block in use;
* `next`, `nthBlock`, `chain`, `chainLength` -- walks that change nothing. `chain` takes no more
  steps than the table has entries, since a longer chain must loop;
* `allocate`, `extend`, `cutAfter`, `freeChain` -- the four ways the table changes. `freeChain`
  destroys the links it walks, and with each step one entry fewer is in use, so it ends on any
  table (`usedCount_free_lt`).
-/

namespace FlatVolume

/-- A table entry, and the number of a data block. -/
abbrev Link := UInt16

/-- The entry of a block that belongs to no file. -/
def Link.free : Link := 0

/-- The entry of the last block of a file; also stands for the first block of an empty file. -/
def Link.endOfChain : Link := 0xFFFF

/-- One entry per data block. -/
structure AllocationTable where
  entries : Array Link
deriving DecidableEq, Repr

namespace AllocationTable

open Link (free endOfChain)

/-! ## 1. Reading the table -/

/-- The number of entries. -/
def size (t : AllocationTable) : Nat := t.entries.size

/-- The table of a volume without files: all entries free but the reserved entry 0. -/
def empty (n : Nat) : AllocationTable :=
  ⟨(Array.replicate n free).setIfInBounds 0 endOfChain⟩

/-- Whether `b` names a data block that a chain may contain. -/
def isDataBlock (t : AllocationTable) (b : Link) : Bool :=
  b ≠ 0 && b.toNat < t.size

/-- How many entries are free. -/
def freeCount (t : AllocationTable) : Nat :=
  t.entries.countP (· == free)

/-- How many entries are not free. -/
def usedCount (t : AllocationTable) : Nat :=
  t.entries.countP (· != free)

/-- The table with the entry of `b` replaced; the same table if it has no such entry. -/
def set (t : AllocationTable) (b v : Link) : AllocationTable :=
  ⟨t.entries.setIfInBounds b.toNat v⟩

@[simp] theorem size_set (t : AllocationTable) (b v : Link) : (t.set b v).size = t.size := by
  simp [set, size]

/-- **The step of every walk:** where block `b` leads, which may be `Link.endOfChain`. Nothing if
    `b` is no data block or is not in use. -/
def link? (t : AllocationTable) (b : Link) : Option Link :=
  if b = 0 then none else t.entries[b.toNat]?.filter (· ≠ free)

theorem link?_eq_some_iff {t : AllocationTable} {b n : Link} :
    t.link? b = some n ↔ b ≠ 0 ∧ t.entries[b.toNat]? = some n ∧ n ≠ free := by
  by_cases h : b = 0
  · simp [link?, h]
  · simp [link?, h, Option.filter_eq_some_iff]

/-- A block that leads somewhere is a data block of the table. -/
theorem lt_size_of_link? {t : AllocationTable} {b n : Link} (h : t.link? b = some n) :
    b.toNat < t.size := by
  have := (link?_eq_some_iff.mp h).2.1
  exact (Array.getElem?_eq_some_iff.mp this).1

/-! ## 2. Walks -/

/-- The block after `b`. -/
def next (t : AllocationTable) (b : Link) : Except VolumeError Link :=
  match t.link? b with
  | some n => .ok n
  | none => .error (.corruptChain b)

/-- The block reached from `first` over `n` links. Exactly at the end of a chain that is
    `Link.endOfChain`; there is no way further. -/
def nthBlock (t : AllocationTable) (first : Link) : Nat → Except VolumeError Link
  | 0 => .ok first
  | n + 1 =>
    if first = endOfChain then .error (.corruptChain first)
    else match t.next first with
      | .ok b => t.nthBlock b n
      | .error e => .error e

/-- The blocks from `first` to the end of its chain, if that takes at most `steps` links. -/
def walk (t : AllocationTable) : (steps : Nat) → (first : Link) → Except VolumeError (List Link)
  | 0, first => if first = endOfChain then .ok [] else .error (.corruptChain first)
  | steps + 1, first =>
    if first = endOfChain then .ok []
    else match t.next first with
      | .ok b =>
        match t.walk steps b with
        | .ok rest => .ok (first :: rest)
        | .error e => .error e
      | .error e => .error e

/-- **Every block of the chain that starts at `first`, in order.** A chain with more blocks than
    the table has entries must loop, and is reported at the block where the count ran out. -/
def chain (t : AllocationTable) (first : Link) : Except VolumeError (List Link) :=
  t.walk t.size first

/-- The number of blocks of the chain that starts at `first`. -/
def chainLength (t : AllocationTable) (first : Link) : Except VolumeError Nat :=
  (t.chain first).map List.length

/-! ## 3. Changing the table -/

/-- The lowest free entry that may be handed out. -/
def lowestFree? (t : AllocationTable) : Option Nat :=
  ((t.entries.extract 1 t.size).findIdx? (· == free)).map (· + 1)

/-- Takes the lowest free block, which then ends a chain of its own. -/
def allocate : VolumeM AllocationTable Link := fun t =>
  match t.lowestFree? with
  | some i => .ok (UInt16.ofNat i) ⟨t.entries.setIfInBounds i endOfChain⟩
  | none => .error .diskFull t

/-- Links `new` behind `last`, which has to end its chain. -/
def extend (last new : Link) : VolumeM AllocationTable Unit := fun t =>
  match t.entries[last.toNat]? with
  | some e =>
    if e = endOfChain then .ok () (t.set last new) else .error (.misuse (.notAnEnd last)) t
  | none => .error (.misuse (.noEntry last)) t

/-- Ends the chain at `b` and gives what `b` led to. -/
def cutAfter (b : Link) : VolumeM AllocationTable Link := fun t =>
  match t.entries[b.toNat]? with
  | some old => .ok old (t.set b endOfChain)
  | none => .error (.misuse (.noEntry b)) t

/-- **Freeing a block in use leaves one entry fewer in use.** -/
theorem usedCount_free_lt {t : AllocationTable} {b n : Link} (h : t.link? b = some n) :
    (t.set b free).usedCount < t.usedCount := by
  obtain ⟨-, he, hn⟩ := link?_eq_some_iff.mp h
  obtain ⟨hlt, hb⟩ := Array.getElem?_eq_some_iff.mp he
  have hpos : 0 < t.entries.countP (· != free) :=
    Array.countP_pos_iff.mpr ⟨n, hb ▸ Array.getElem_mem hlt, by simpa using hn⟩
  simp only [usedCount, set, Array.setIfInBounds, hlt, dif_pos, Array.countP_set, hb]
  simp only [bne_iff_ne, ne_eq, hn, not_false_eq_true, if_true, bne_self_eq_false,
    Bool.false_eq_true, if_false]
  omega

/-- Frees every block of the chain that starts at `first` and counts them. Stops at the first
    block that leads nowhere and leaves the rest as it is. -/
def freeChain (first : Link) : VolumeM AllocationTable Nat := fun t =>
  if first = endOfChain then .ok 0 t
  else
    match _h : t.link? first with
    | none => .error (.corruptChain first) t
    | some b =>
      match freeChain b (t.set first free) with
      | .ok n t => .ok (n + 1) t
      | .error e t => .error e t
termination_by t => t.usedCount
decreasing_by exact usedCount_free_lt _h

end AllocationTable

end FlatVolume
