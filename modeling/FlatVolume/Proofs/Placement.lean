import FlatVolume.Proofs.Mooring
import FlatVolume.Proofs.Prepared
import FlatVolume.Proofs.Refinement
import Mathlib.Data.Finset.Sort

/-!
# Where a growing file is placed

A write takes new blocks one at a time, each the lowest that is free, and links it behind the last.
Over the whole write these are the lowest free blocks in ascending order, however the free blocks are
scattered. This file fixes

* `AllocationTable.freeInOrder` -- the free data blocks, the lowest first;
* `AllocationTable.Extended t t' old added` -- from `t` to `t'` the blocks `added` were put behind the
  chain `old`: they were the lowest free ones, and no entry changed but theirs and that of the last
  block of `old`;
* `Mounted.write_places` -- a write extends the chain of its file so, whatever stops it;
* `FileSystem.write_placement` -- with what the blocks hold afterwards.
-/

namespace FlatVolume

open AllocationTable Bytes FlatVolume.Computation
open Link (free endOfChain)

namespace AllocationTable

variable {t t' t'' : AllocationTable} {first b : Link} {blocks old added more : List Link}

/-! ## 1. Taking the lowest free blocks -/

/-- Chains that begin with the same blocks begin at the same one. -/
theorem Chain.first_eq {first' : Link} (h : Chain t first blocks) (h' : Chain t' first' (blocks ++ more))
    (hne : blocks ≠ []) : first' = first := by
  cases h with
  | done => exact absurd rfl hne
  | step => cases h'; rfl

/-- The numbers of the free data blocks, the lowest first. -/
def freeInOrder (t : AllocationTable) : List Nat := (freeBlocks t).sort

/-- The new link and the entry of the last block are all that linking changes. -/
theorem getElem?_linked {i : Nat} (hb : i ≠ b.toNat)
    (hl : ∀ l, blocks.getLast? = some l → i ≠ l.toNat) :
    (t.linked blocks b).entries[i]? = t.entries[i]? := by
  unfold linked
  split
  · rename_i last hlast
    rw [getElem?_set, getElem?_set, if_neg fun h => hl last hlast h.1, if_neg fun h => hb h.1]
  · rw [getElem?_set, if_neg fun h => hb h.1]

/-- A block that was linked is in use, and no other block was taken. -/
theorem freeBlocks_linked (hc : Chain t first blocks) (hb : FreeBlock t b) :
    freeBlocks (t.linked blocks b) = (freeBlocks t).erase b.toNat := by
  ext i
  simp only [freeBlocks, Finset.mem_erase, Finset.mem_filter, size_linked]
  by_cases hi : i = b.toNat
  · subst hi
    obtain ⟨n, link⟩ := (hc.linked hb).link_of_mem (List.mem_append_right _ (List.mem_singleton_self b))
    obtain ⟨-, he, hn⟩ := link?_eq_some_iff.mp link
    simp [he, hn]
  · by_cases hl : ∃ l, blocks.getLast? = some l ∧ i = l.toNat
    · -- the last block of a chain is in use, before and after
      obtain ⟨l, hlast, rfl⟩ := hl
      have hmem := List.mem_of_getLast? hlast
      obtain ⟨n, link⟩ := hc.link_of_mem hmem
      obtain ⟨n', link'⟩ := (hc.linked hb).link_of_mem (List.mem_append_left _ hmem)
      obtain ⟨-, he, hn⟩ := link?_eq_some_iff.mp link
      obtain ⟨-, he', hn'⟩ := link?_eq_some_iff.mp link'
      simp [he, hn, he', hn']
    · rw [getElem?_linked hi fun l hlast heq => hl ⟨l, hlast, heq⟩]
      tauto

/-- **What is taken is the first of the free blocks,** and the others stay in their order. -/
theorem freeInOrder_linked (hc : Chain t first blocks) (hb : FreeBlock t b)
    (hlow : t.lowestFree? = some b.toNat) :
    t.freeInOrder = b.toNat :: (t.linked blocks b).freeInOrder := by
  obtain ⟨h1, he, hmin⟩ := lowestFree?_eq_some_iff.mp hlow
  have hmem : b.toNat ∈ freeBlocks t :=
    Finset.mem_filter.mpr ⟨Finset.mem_Ico.mpr ⟨h1, hb.lt_size⟩, he⟩
  have hle : ∀ i ∈ (freeBlocks t).erase b.toNat, b.toNat ≤ i := by
    intro i hi
    obtain ⟨-, hi⟩ := Finset.mem_erase.mp hi
    obtain ⟨hrange, hfree⟩ := Finset.mem_filter.mp hi
    exact Nat.le_of_not_lt fun hlt => hmin i (Finset.mem_Ico.mp hrange).1 hlt hfree
  rw [freeInOrder, freeInOrder, freeBlocks_linked hc hb, ← Finset.sort_insert _ hle
    (Finset.notMem_erase _ _), Finset.insert_erase hmem]

/-- **The blocks `added` were put behind the chain `old`.** They were the lowest free ones. -/
structure Extended (t t' : AllocationTable) (old added : List Link) : Prop where
  taken : t.freeInOrder = added.map UInt16.toNat ++ t'.freeInOrder
  frame : ∀ i, (∀ b ∈ added, i ≠ b.toNat) → (∀ l, old.getLast? = some l → i ≠ l.toNat) →
    t'.entries[i]? = t.entries[i]?
  unchanged : added = [] → t' = t

theorem Extended.refl (t : AllocationTable) (old : List Link) : Extended t t old [] :=
  ⟨rfl, fun _ _ _ => rfl, fun _ => rfl⟩

theorem Extended.of_linked (hc : Chain t first blocks) (hb : FreeBlock t b)
    (hlow : t.lowestFree? = some b.toNat) : Extended t (t.linked blocks b) blocks [b] where
  taken := freeInOrder_linked hc hb hlow
  frame _ hi hl := getElem?_linked (hi b (List.mem_singleton_self b)) hl
  unchanged h := by cases h

/-- One extension after the other. -/
theorem Extended.trans (h : Extended t t' old added) (h' : Extended t' t'' (old ++ added) more) :
    Extended t t'' old (added ++ more) where
  taken := by rw [h.taken, h'.taken, List.map_append, List.append_assoc]
  frame i hi hl := by
    have ha : ∀ b ∈ added, i ≠ b.toNat := fun b hb => hi b (List.mem_append_left _ hb)
    refine (h'.frame i (fun b hb => hi b (List.mem_append_right _ hb)) fun l hlast => ?_).trans
      (h.frame i ha hl)
    -- the last block now is the last one added, if any was
    rw [List.getLast?_append] at hlast
    cases hadded : added.getLast? with
    | none =>
      rw [hadded] at hlast
      exact hl l hlast
    | some c =>
      rw [hadded] at hlast
      cases hlast
      exact ha l (List.mem_of_getLast? hadded)
  unchanged hnil := by
    obtain ⟨ha, hm⟩ := List.append_eq_nil_iff.mp hnil
    rw [h'.unchanged hm, h.unchanged ha]

/-- **The blocks added are the lowest free ones, in ascending order.** -/
theorem Extended.map_added (h : Extended t t' old added) :
    added.map UInt16.toNat = t.freeInOrder.take added.length := by
  rw [h.taken, List.take_left' (List.length_map _)]

end AllocationTable

/-! ## 2. The blocks a write takes -/

variable {W H : Type} [BlockDevice W H] [LawfulBlockDevice W H]

namespace Mounted

variable {m : Mounted W H} {own : Slot → List Link} {slot : Slot} {blocks : List Link}

/-- The chain of the file in `slot` was `blocks` in `m`, and in `m'` the blocks `added` stand behind
    it. -/
structure Extends (m m' : Mounted W H) (slot : Slot) (blocks added : List Link) : Prop where
  chain : Chain m'.volume.table (m'.volume.root.get slot).firstBlock (blocks ++ added)
  extended : Extended m.volume.table m'.volume.table blocks added
  size_eq : m'.volume.table.size = m.volume.table.size

omit [BlockDevice W H] [LawfulBlockDevice W H] in
theorem Extends.of_volume_eq {m' : Mounted W H} (h : m'.volume = m.volume)
    (hc : Chain m.volume.table (m.volume.root.get slot).firstBlock blocks) :
    Extends m m' slot blocks [] := by
  refine ⟨?_, ?_, by rw [h]⟩
  · rw [h, List.append_nil]
    exact hc
  · rw [h]
    exact .refl _ _

/-- **One piece of a write** is put into the chain or into the lowest free block behind it. -/
theorem storeSegment_extends (hs : m.volume.table.size ≤ 65535)
    (hc : Chain m.volume.table (m.volume.root.get slot).firstBlock blocks) (s : Segment) :
    Ends (storeSegment slot blocks.toArray s) m
      (fun chain m' => ∃ added, chain = (blocks ++ added).toArray ∧ Extends m m' slot blocks added)
      (fun _ m' => m'.volume = m.volume) := by
  unfold storeSegment
  split
  · refine Ends.bind ((overwrite_volume _ s m).mono ?_ fun _ _ h => h)
    intro _ m' hv
    exact ⟨[], by rw [List.append_nil], .of_volume_eq hv hc⟩
  · refine (append_ends hs hc).mono ?_ ?_
    · intro chain m' hok
      rcases hok with ⟨b, w, hlow, rfl, rfl, -⟩
      have hb := freeBlock_of_lowestFree? hs hlow
      refine ⟨[b], rfl, ?_, .of_linked hc hb hlow, size_linked _ _ _⟩
      simp only [Volume.grown, Directory.get_set_self]
      exact hc.linked hb
    · intro e m' herr
      rcases herr with ⟨-, -, rfl⟩ | hf
      · rfl
      · exact hf.volume_eq

/-- **The loop of a write** takes the lowest free blocks in ascending order. -/
theorem storeSegments_extends (hs : m.volume.table.size ≤ 65535)
    (hc : Chain m.volume.table (m.volume.root.get slot).firstBlock blocks) (segments : List Segment)
    (k : Nat) : Ends (storeSegments slot blocks.toArray segments k) m
      (fun _ m' => ∃ added, Extends m m' slot blocks added) (fun _ _ => False) := by
  induction segments generalizing m blocks k with
  | nil => exact ⟨[], .of_volume_eq rfl hc⟩
  | cons s rest ih =>
    have hstep := storeSegment_extends hs hc s
    unfold Ends at hstep
    unfold storeSegments Ends
    cases hx : storeSegment slot blocks.toArray s m with
    | ok chain m₁ =>
      rw [hx] at hstep
      obtain ⟨added, rfl, h₁⟩ := hstep
      simp only [hx]
      refine (ih (h₁.size_eq ▸ hs) h₁.chain (k + s.bytes.size)).mono ?_ fun _ _ h => h
      intro _ m₂ hok
      obtain ⟨more, h₂⟩ := hok
      refine ⟨added ++ more, ?_, h₁.extended.trans h₂.extended, h₂.size_eq.trans h₁.size_eq⟩
      rw [← List.append_assoc]
      exact h₂.chain
    | error e m₁ =>
      rw [hx] at hstep
      simp only [hx]
      exact ⟨[], .of_volume_eq hstep hc⟩

theorem write_extends {fd : Nat} {f : OpenFile} (hs : m.volume.table.size ≤ 65535)
    (hr : m.volume.resolve fd = .ok (f, slot))
    (hc : Chain m.volume.table (m.volume.root.get slot).firstBlock blocks) (data : ByteArray) :
    Ends (write fd data) m (fun _ m' => ∃ added, Extends m m' slot blocks added)
      (fun _ m' => ∃ added, Extends m m' slot blocks added) := by
  unfold write
  refine Ends.bind_ok (getVolume_run m) (Ends.bind_ok (lookup_eq_ok_iff.mpr ⟨hr, rfl⟩) ?_)
  dsimp only
  split
  · exact ⟨[], .of_volume_eq rfl hc⟩
  · refine Ends.bind_ok (lookup_eq_ok_iff.mpr ⟨chain_eq_ok_iff.mpr hc, rfl⟩) (Ends.bind ?_)
    refine (storeSegments_extends hs hc _ 0).mono ?_ fun _ _ h => h.elim
    intro p n hok
    obtain ⟨added, he⟩ := hok
    -- entering size and offset leaves table and chain alone
    obtain ⟨k, stopped⟩ := p
    obtain ⟨n', hn'⟩ : ∃ n', n' = if 0 < k then n.commit fd slot (f.offset + k) else n := ⟨_, rfl⟩
    have hshown : Extends m n' slot blocks added := by
      rw [hn']
      split
      · refine ⟨?_, he.extended, he.size_eq⟩
        simp only [commit, Directory.get_set_self]
        exact he.chain
      · exact he
    refine commit_ends ?_
    rw [← hn']
    cases stopped with
    | none => exact ⟨added, hshown⟩
    | some e =>
      cases e
      case diskFull =>
        dsimp only
        split <;> exact ⟨added, hshown⟩
      all_goals exact ⟨added, hshown⟩

/-- **Where a write places what it stores,** however it ends. -/
theorem write_places (h : m.volume.Intact own) {fd : Nat} {f : OpenFile}
    (hr : m.volume.resolve fd = .ok (f, slot)) (data : ByteArray) :
    Ends (write fd data) m
      (fun k m' => ∃ added, Extended m.volume.table m'.volume.table (own slot) added ∧
        Written m m' fd slot (own slot) (own slot ++ added) f.offset data k ∧
        Accepted m' f.offset data (own slot ++ added) k ∧ (m.NeverFails → m'.NeverFails))
      (fun e m' => ∃ added k, Extended m.volume.table m'.volume.table (own slot) added ∧
        Written m m' fd slot (own slot) (own slot ++ added) f.offset data k ∧ k < data.size ∧
        Refused m m' f.offset (own slot ++ added) k e) := by
  obtain ⟨hf, hs⟩ := Volume.resolve_eq_ok_iff.mp hr
  have hext := write_extends h.table_size_le hr (h.allotment.chain slot) data
  refine ((write_ends h hf hs data).and hext).mono ?_ ?_
  · intro k m' hok
    obtain ⟨⟨new, hw, ha, hn⟩, added, he⟩ := hok
    obtain rfl := (hw.refiled h).chain.unique he.chain
    exact ⟨added, he.extended, hw, ha, hn⟩
  · intro e m' herr
    obtain ⟨⟨new, k, hw, hk, -, hrefused⟩, added, he⟩ := herr
    obtain rfl := (hw.refiled h).chain.unique he.chain
    exact ⟨added, k, he.extended, hw, hk, hrefused⟩

/-! ## 3. What the blocks hold -/

section Written

variable {m' : Mounted W H} {fd offset k : Nat} {data : ByteArray} {old new : List Link}
  (hw : Written m m' fd slot old new offset data k)
include hw

omit hw in
/-- A position given by its block and its place in it. -/
theorem byteOn_block {sb : Superblock} {st : Storage} {j : Nat} {b : Link} (hb : blocks[j]? = some b)
    {i : Nat} (hi : i < blockSize) :
    byteOn sb st blocks (j * blockSize + i) = byteAt (st.block (sb.dataBlock b)).bytes i := by
  have hdiv : (j * blockSize + i) / blockSize = j := by
    simp only [blockSize] at hi ⊢
    omega
  have hmod : (j * blockSize + i) % blockSize = i := by
    simp only [blockSize] at hi ⊢
    omega
  rw [byteOn_of_getElem? (hdiv.symm ▸ hb), hmod]

theorem Written.length_eq : new.length = max old.length (ceilDiv (offset + k) blockSize) := by
  obtain ⟨n, hst, rfl⟩ := hw
  exact hst.length_eq

theorem Written.bytes (p : Nat) : byteOn m.volume.superblock m'.storage new p =
    if offset ≤ p ∧ p < offset + k then byteAt data (p - offset)
    else byteOn m.volume.superblock m.storage old p := by
  obtain ⟨n, hst, rfl⟩ := hw
  exact hst.bytes p

/-- Each byte of a block of the chain is a byte of the file. -/
theorem Written.byteAt_block {j : Nat} {b : Link} (hb : new[j]? = some b) {i : Nat}
    (hi : i < blockSize) : byteAt (m'.storage.block (m.volume.superblock.dataBlock b)).bytes i =
      if offset ≤ j * blockSize + i ∧ j * blockSize + i < offset + k then
        byteAt data (j * blockSize + i - offset)
      else byteOn m.volume.superblock m.storage old (j * blockSize + i) := by
  rw [← byteOn_block hb hi, hw.bytes]

/-- **A new block holds its part of the data, and zeros behind it.** -/
theorem Written.block_new (ho : offset ≤ old.length * blockSize) {j : Nat} {b : Link}
    (hb : new[j]? = some b) (hj : old.length ≤ j) :
    m'.storage.block (m.volume.superblock.dataBlock b) = Block.padded
      (data.extract (j * blockSize - offset) (min k ((j + 1) * blockSize - offset))) := by
  have hoj : offset ≤ j * blockSize := Nat.le_trans ho (Nat.mul_le_mul_right blockSize hj)
  refine Block.ext_byteAt fun i hi => ?_
  rw [hw.byteAt_block hb hi, Block.byteAt_padded _ hi]
  by_cases hin : j * blockSize + i < offset + k
  · rw [if_pos ⟨by omega, hin⟩, byteAt_extract (by simp only [blockSize] at *; omega)]
    congr 1
    omega
  · rw [if_neg (fun h => hin h.2), byteOn_of_le (by simp only [blockSize] at *; omega), byteAt_of_le]
    rw [ByteArray.size_extract]
    omega

/-- **Only the blocks that the written range lies in have changed.** -/
theorem Written.block_of_notMem (hk : 0 < k) (ho : offset ≤ old.length * blockSize)
    (hg : old <+: new) {i : Nat} (hi : ∀ j (b : Link), new[j]? = some b → offset / blockSize ≤ j →
      j ≤ (offset + k - 1) / blockSize → i ≠ m.volume.superblock.dataBlock b) :
    m'.storage.block i = m.storage.block i := by
  by_cases hmem : ∃ (j : Nat) (b : Link), new[j]? = some b ∧ i = m.volume.superblock.dataBlock b
  · obtain ⟨j, b, hb, rfl⟩ := hmem
    have hlt : j < new.length := (List.getElem?_eq_some_iff.mp hb).1
    have hlen := hw.length_eq
    -- a block behind the old ones holds a part of the range, so this is an old one
    have hout : ¬ (offset / blockSize ≤ j ∧ j ≤ (offset + k - 1) / blockSize) :=
      fun hin => hi j b hb hin.1 hin.2 rfl
    have hold : j < old.length := by
      simp only [ceilDiv, blockSize] at *
      omega
    have hbold : old[j]? = some b := by
      obtain ⟨added, rfl⟩ := hg
      rwa [List.getElem?_append_left hold] at hb
    refine Block.ext_byteAt fun p hp => ?_
    rw [hw.byteAt_block hb hp, if_neg, byteOn_block hbold hp]
    intro hin
    simp only [blockSize] at *
    omega
  · obtain ⟨n, hst, rfl⟩ := hw
    refine hst.frame i fun b hb he => hmem ?_
    obtain ⟨j, hj⟩ := List.mem_iff_getElem?.mp hb
    exact ⟨j, b, hj, he⟩

end Written

end Mounted

/-! ## 4. The placement of a write -/

open LawfulBlockDevice (storage)
open FileSystem (ofMounted ofWorld)

namespace FileSystem

/-- **Where `k` bytes of `data` were placed** that were written at `offset` into the file in `slot`. Its
    chain was `old`, and the blocks `added` were put behind it. -/
structure Placement (v v' : Volume H) (st st' : Storage) (slot : Slot) (offset k : Nat)
    (data : ByteArray) (old added : List Link) : Prop where
  chain_before : Chain v.table (v.root.get slot).firstBlock old
  chain_after : Chain v'.table (v'.root.get slot).firstBlock (old ++ added)
  /-- As many blocks as the file is short of; none if it is short of none. -/
  length_eq : added.length = ceilDiv (offset + k) blockSize - old.length
  lowest : added.map UInt16.toNat = v.table.freeInOrder.take added.length
  /-- No entry changed but those of the new blocks and of the last old one. -/
  entries : ∀ i, (∀ b ∈ added, i ≠ b.toNat) → (∀ l, old.getLast? = some l → i ≠ l.toNat) →
    v'.table.entries[i]? = v.table.entries[i]?
  unchanged : added = [] → v'.table = v.table
  firstBlock_eq : old ≠ [] → (v'.root.get slot).firstBlock = (v.root.get slot).firstBlock
  /-- No block of the device changed but those of the chain that the written range lies in. -/
  blocks : ∀ i, (∀ j (b : Link), (old ++ added)[j]? = some b → offset / blockSize ≤ j →
    j ≤ (offset + k - 1) / blockSize → i ≠ v.superblock.dataBlock b) → st'.block i = st.block i
  /-- A new block holds its part of the data, and zeros behind it. -/
  new : ∀ j b, added[j]? = some b → st'.block (v.superblock.dataBlock b) = Block.padded
    (data.extract ((old.length + j) * blockSize - offset)
      (min k ((old.length + j + 1) * blockSize - offset)))

/-- **The placement of a write.** What a write accepts goes into the blocks of its file and then into the
    lowest free blocks in ascending order, as many as it takes. -/
theorem write_placement {d : H} {fs fs₀ fs₁ fs₂ : FileSystem W H} {v : Volume H} {fd k : Nat}
    {f : OpenFile} {data : ByteArray} (hm : mount d fs = .ok () fs₀) (hr : Reachable fs₀ fs₁)
    (hv : fs₁.mounted = some v) (hc : check fs₁ = .ok () fs₁) (hf : v.files.get? fd = some f)
    (hw : write fd data fs₁ = .ok k fs₂) (hk : 0 < k) : ∃ slot v₂ old added,
      v.resolve fd = .ok (f, slot) ∧ fs₂.mounted = some v₂ ∧
      Placement v v₂ (storage v.device fs₁.world) (storage v.device fs₂.world) slot f.offset k data
        old added := by
  have ht : v.Tidy := hr.tidy (tidy_of_mount hm) v hv
  obtain ⟨own, hi⟩ := intact_of_checked ht hv hc
  obtain ⟨slot, hres, -, ho⟩ := ht.resolve_eq hf
  obtain ⟨_, w⟩ := fs₁
  cases hv
  have hends : Ends (write fd data) (ofMounted ⟨v, w⟩)
      (fun k fs' => ∃ m' added, fs' = ofMounted m' ∧
        Extended v.table m'.volume.table (own slot) added ∧
        Mounted.Written ⟨v, w⟩ m' fd slot (own slot) (own slot ++ added) f.offset data k)
      (fun _ _ => True) :=
    onVolume_ends ((Mounted.write_places (m := ⟨v, w⟩) hi hres data).mono
      (fun _ m' ⟨added, he, hwr, _⟩ => ⟨m', added, rfl, he, hwr⟩) fun _ _ _ => trivial)
  obtain ⟨m', added, rfl, he, hwr⟩ := (ends_iff.mp hends).1 k fs₂ hw
  have hrefiled := hwr.refiled hi
  have hold := hi.allotment.chain slot
  have hpos : f.offset ≤ (own slot).length * blockSize := by
    refine Nat.le_trans ho ?_
    rw [hi.length_eq]
    exact ceilDiv_mul_ge _
  have hdev : m'.storage = storage v.device m'.world := by
    rw [Mounted.storage, hrefiled.device_eq]
  have hlen := hwr.length_eq
  rw [List.length_append] at hlen
  refine ⟨slot, m'.volume, own slot, added, hres, rfl, hold, hrefiled.chain, by omega, he.map_added,
    he.frame, he.unchanged, fun hne => ?_, fun i hout => ?_, fun j b hb => ?_⟩
  · exact hold.first_eq hrefiled.chain hne
  · rw [← show m'.storage = storage v.device (ofMounted m').world from hdev]
    exact hwr.block_of_notMem hk hpos (List.prefix_append _ _) hout
  · rw [← show m'.storage = storage v.device (ofMounted m').world from hdev]
    refine hwr.block_new hpos ?_ (Nat.le_add_right _ j)
    rw [List.getElem?_append_right (Nat.le_add_right _ j), Nat.add_sub_cancel_left]
    exact hb

/-- In memory, where a file of a hundred bytes gets five thousand more: its second block is the lowest
    free one. -/
theorem write_placement_memory : ∃ fs fs₁ fs₂ v v₂ slot k old added,
    mount () (ofWorld (Memory.holding 16
      (Volume.lone AllocationTable.oneUsed Entry.hundredBytes))) = .ok () fs ∧
    Reachable fs fs₁ ∧ fs₁.mounted = some v ∧ check fs₁ = .ok () fs₁ ∧
    write 0 (zeros 5000) fs₁ = .ok k fs₂ ∧ 0 < k ∧ fs₂.mounted = some v₂ ∧
    Placement v v₂ (storage () fs₁.world) (storage () fs₂.world) slot 100 k (zeros 5000) old added := by
  obtain ⟨fs, files, w, hm, hr, hf, hn⟩ := exists_opened_hundredBytes
  obtain ⟨v, hv⟩ : ∃ v, v =
    { Volume.lone AllocationTable.oneUsed Entry.hundredBytes with files } := ⟨_, rfl⟩
  rw [← hv] at hr
  have hc : check (ofMounted ⟨v, w⟩) = .ok () (ofMounted ⟨v, w⟩) :=
    check_eq_ok_iff.mpr ⟨rfl, v, rfl, hv ▸ Volume.check_hundredBytes files⟩
  have hf' : v.files.get? 0 = some ⟨"a", 100⟩ := by rw [hv]; exact hf
  have ht : v.Tidy := hr.tidy (tidy_of_mount hm) v rfl
  obtain ⟨own, hi⟩ := intact_of_checked ht rfl hc
  obtain ⟨slot, hres, -⟩ := ht.resolve_eq hf'
  have hrange := Moored.inRange (m := ⟨v, w⟩)
    (hr.moored (tidy_of_mount hm) (moored_of_mount hm (Memory.whole_storage _)) v rfl) ht
  have hd : 0 < (zeros 5000).size := by
    rw [size_zeros]
    decide
  have hends := Mounted.write_ends_of_chain (m := ⟨v, w⟩) ht hres (hi.allotment.chain slot) hd
  have hwrite : Ends (write 0 (zeros 5000)) (ofMounted ⟨v, w⟩) (fun k _ => 0 < k)
      (fun _ _ => False) := by
    refine onVolume_ends (hends.mono (fun k m' ⟨_, _, hk, _⟩ => hk) fun e m' herr => ?_)
    -- data block 2 is free, and no call fails
    obtain ⟨-, -, -, -, ⟨-, -, hlow⟩ | ⟨-, hfail⟩⟩ := herr
    · have hfree : AllocationTable.oneUsed.entries[2]? = some free := by decide
      rw [hv] at hlow
      exact lowestFree?_eq_none_iff.mp hlow 2 (by decide) hfree
    · exact hfail hrange hn
  cases hx : write 0 (zeros 5000) (ofMounted ⟨v, w⟩) with
  | ok k fs₂ =>
    have hk : 0 < k := (ends_iff.mp hwrite).1 k fs₂ hx
    obtain ⟨slot', v₂, old, added, -, hv₂, hplaced⟩ := write_placement hm hr rfl hc hf' hx hk
    exact ⟨fs, _, fs₂, v, v₂, slot', k, old, added, hm, hr, rfl, hc, hx, hk, hv₂, hplaced⟩
  | error e fs₂ => exact ((ends_iff.mp hwrite).2 e fs₂ hx).elim

end FileSystem

end FlatVolume
