import FlatVolume.Proofs.Intact
import FlatVolume.Proofs.Tidiness
import Mathlib.Algebra.BigOperators.Fin

/-!
# One file replaced by another

Whatever an operation does to an intact volume, it does to at most one file: `Refiled v v' slot old
new` says that the file in `slot` had the blocks `old` and now is one with the blocks `new`. From
this alone follow

* that the volume is intact again (`Intact.refiled`);
* that no block is lost and none is conjured (`Refiled.kept`): the orphans are the same, and so is
  the sum of the free blocks and of the blocks of all files.

`Kept` is what remains true over any number of such steps.
-/

namespace FlatVolume

open AllocationTable

variable {H : Type}

namespace Volume

variable {v v' v'' : Volume H} {own : Slot → List Link} {slot : Slot} {old new : List Link}

/-- **One file was replaced:** the one in `slot` had the blocks `old` and has the blocks `new`. -/
structure Refiled (v v' : Volume H) (slot : Slot) (old new : List Link) : Prop where
  device_eq : v'.device = v.device
  superblock_eq : v'.superblock = v.superblock
  get_eq : ∀ s, s ≠ slot → v'.root.get s = v.root.get s
  rechained : Rechained v.table v'.table old new
  chain : Chain v'.table (v'.root.get slot).firstBlock new
  length_eq : new.length = ceilDiv (v'.root.get slot).size blockSize

/-- Nothing was replaced where directory and table are the same. -/
theorem Refiled.of_eq (h : v.Intact own) (slot : Slot) (hd : v'.device = v.device)
    (hs : v'.superblock = v.superblock) (hr : v'.root = v.root) (ht : v'.table = v.table) :
    Refiled v v' slot (own slot) (own slot) where
  device_eq := hd
  superblock_eq := hs
  get_eq s _ := by rw [hr]
  rechained := ht ▸ .refl _ _
  chain := by
    rw [ht, hr]
    exact h.allotment.chain slot
  length_eq := by rw [hr, h.length_eq]

/-- **Setting one slot** replaces its file where the table has the new blocks. -/
theorem Refiled.of_set {e : Entry} (hd : v'.device = v.device)
    (hs : v'.superblock = v.superblock) (hroot : v'.root = v.root.set slot e)
    (ht : Rechained v.table v'.table old new) (hc : Chain v'.table e.firstBlock new)
    (hl : new.length = ceilDiv e.size blockSize) : Refiled v v' slot old new where
  device_eq := hd
  superblock_eq := hs
  get_eq s hne := by rw [hroot, Directory.get_set, if_neg hne]
  rechained := ht
  chain := by rwa [hroot, Directory.get_set_self]
  length_eq := by rwa [hroot, Directory.get_set_self]

theorem Refiled.root_eq (h : Refiled v v' slot old new) :
    v'.root = v.root.set slot (v'.root.get slot) := by
  refine Directory.ext_get fun s => ?_
  rw [Directory.get_set]
  split
  · rename_i hs
    rw [hs]
  · rename_i hs
    exact h.get_eq s hs

/-- **An intact volume is intact after one file was replaced.** -/
theorem Intact.refiled (h : v.Intact own) (ht : v'.Tidy) (hr : Refiled v v' slot (own slot) new) :
    v'.Intact (Function.update own slot new) where
  toTidy := ht
  allotment := by
    rw [hr.root_eq]
    exact h.allotment.replace hr.rechained hr.chain
  length_eq s := by
    by_cases hs : s = slot
    · subst hs
      rw [Function.update_self]
      exact hr.length_eq
    · rw [Function.update_of_ne hs, hr.get_eq s hs]
      exact h.length_eq s

/-! ## What is kept -/

/-- How many blocks the files of a volume need, together. -/
def blocksNeeded (v : Volume H) : Nat := ∑ s, ceilDiv (v.root.get s).size blockSize

/-- **Nothing but files changed,** and no block got lost or was conjured. -/
structure Kept (v v' : Volume H) : Prop where
  device_eq : v'.device = v.device
  superblock_eq : v'.superblock = v.superblock
  reserved_eq : v'.table.entries[0]? = v.table.entries[0]?
  orphan_iff : ∀ b, v'.Orphan b ↔ v.Orphan b
  balance :
    (freeBlocks v'.table).card + v'.blocksNeeded = (freeBlocks v.table).card + v.blocksNeeded

theorem Kept.refl (v : Volume H) : Kept v v := ⟨rfl, rfl, rfl, fun _ => Iff.rfl, rfl⟩

theorem Kept.trans (h : Kept v v') (h' : Kept v' v'') : Kept v v'' where
  device_eq := h'.device_eq.trans h.device_eq
  superblock_eq := h'.superblock_eq.trans h.superblock_eq
  reserved_eq := h'.reserved_eq.trans h.reserved_eq
  orphan_iff b := (h'.orphan_iff b).trans (h.orphan_iff b)
  balance := h'.balance.trans h.balance

theorem Intact.blocksNeeded_eq (h : v.Intact own) : v.blocksNeeded = ∑ s, (own s).length :=
  Finset.sum_congr rfl fun s _ => (h.length_eq s).symm

/-- **Replacing a file keeps the orphans and the balance.** -/
theorem Refiled.kept (hr : Refiled v v' slot (own slot) new) (h : v.Intact own) (ht : v'.Tidy) :
    Kept v v' := by
  have h' := h.refiled ht hr
  have hun : ∀ b, Unowned v'.table (Function.update own slot new) b ↔ Unowned v.table own b :=
    Allotment.unowned_update_iff hr.rechained
  have hb := h.allotment.balance h.table_size_le
  have hb' := h'.allotment.balance h'.table_size_le
  rw [unownedBlocks_congr hr.rechained.size_eq hun, hr.rechained.size_eq] at hb'
  refine ⟨hr.device_eq, hr.superblock_eq, ?_, fun b => ?_, ?_⟩
  · refine hr.rechained.entry_zero (h.allotment.zero_notMem slot) ?_
    have := h'.allotment.zero_notMem slot
    rwa [Function.update_self] at this
  · rw [h'.orphan_iff, h.orphan_iff]
    exact hun b
  · rw [h.blocksNeeded_eq, h'.blocksNeeded_eq]
    omega

/-- What the files that were not replaced need stays, so the balance is that of the one file. -/
theorem Refiled.blocksNeeded (hr : Refiled v v' slot old new) :
    v'.blocksNeeded + ceilDiv (v.root.get slot).size blockSize =
      v.blocksNeeded + ceilDiv (v'.root.get slot).size blockSize := by
  have hs : ∀ u : Volume H, u.blocksNeeded = ceilDiv (u.root.get slot).size blockSize +
      ∑ s ∈ Finset.univ.erase slot, ceilDiv (u.root.get s).size blockSize :=
    fun u => (Finset.add_sum_erase _ _ (Finset.mem_univ slot)).symm
  have he : ∑ s ∈ Finset.univ.erase slot, ceilDiv (v'.root.get s).size blockSize =
      ∑ s ∈ Finset.univ.erase slot, ceilDiv (v.root.get s).size blockSize :=
    Finset.sum_congr rfl fun s hmem => by rw [hr.get_eq s (Finset.ne_of_mem_erase hmem)]
  rw [hs v, hs v', he]
  omega

/-- Entry 0 is the same, so the free entries change as the free data blocks do. -/
theorem Kept.freeCount (h : Kept v v') :
    v'.table.freeCount + (freeBlocks v.table).card =
      v.table.freeCount + (freeBlocks v'.table).card := by
  rw [freeCount_eq, freeCount_eq, h.reserved_eq]
  omega

/-- **The free entries and the blocks of all files are together always as many.** -/
theorem Kept.freeCount_add (h : Kept v v') :
    v'.table.freeCount + v'.blocksNeeded = v.table.freeCount + v.blocksNeeded := by
  have hf := h.freeCount
  have hb := h.balance
  omega

/-- The blocks the files need, file by file; free slots need none. -/
theorem Tidy.sum_files (h : v.Tidy) :
    (v.root.files.map fun e => ceilDiv e.size blockSize).sum = v.blocksNeeded := by
  have hfilter : ∀ l : List Entry, (∀ e ∈ l, e.isFree = true → e = Entry.free) →
      ((l.filter fun e => !e.isFree).map fun e => ceilDiv e.size blockSize).sum =
        (l.map fun e => ceilDiv e.size blockSize).sum := by
    intro l hl
    induction l with
    | nil => rfl
    | cons e es ih =>
      have ih := ih fun e' he' => hl e' (List.mem_cons_of_mem _ he')
      cases he : e.isFree with
      | true =>
        have hz : ceilDiv e.size blockSize = 0 := by
          rw [hl e (List.mem_cons_self ..) he]
          rfl
        simp [he, ih, hz]
      | false => simp [he, ih]
  have hslots : v.root.slots.toList = List.ofFn v.root.get := by
    refine List.ext_getElem (by simp) fun i h1 h2 => ?_
    simp [Directory.get]
  rw [Directory.files, hfilter, hslots, List.map_ofFn, List.sum_ofFn]
  · rfl
  · intro e he hf
    rw [hslots, List.mem_ofFn] at he
    obtain ⟨s, rfl⟩ := he
    exact h.free_eq s hf

end Volume

end FlatVolume
