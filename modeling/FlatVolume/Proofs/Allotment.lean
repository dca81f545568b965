import FlatVolume.Proofs.Rechaining
import FlatVolume.Volume.Consistent
import Mathlib.Algebra.BigOperators.Group.Finset.Basic
import Mathlib.Data.Fintype.Basic
import Mathlib.Logic.Function.Basic
import Mathlib.Order.Interval.Finset.Nat

/-!
# Which file owns which block

`Allotment t root own` says that the file in slot `s` has the blocks `own s`, and that no block is
owned twice. This file fixes:

* `Allotment.replace` -- giving one slot another chain (`Rechained`) keeps the allotment;
* `Unowned` -- the blocks in use that no slot owns, and that giving one slot another chain neither
  makes nor takes away such a block (`Allotment.unowned_update_iff`);
* **the balance** (`Allotment.balance`): free data blocks, unowned blocks and owned blocks are
  together all data blocks but the reserved one. Where the unowned blocks stay the same, what one
  file gains is therefore what the free blocks lose.
-/

namespace FlatVolume

open AllocationTable
open Link (free endOfChain)

variable {t t' : AllocationTable} {root : Directory} {own : Slot → List Link}

/-- **Slot `s` owns the blocks `own s`,** which are its chain, and no block has two owners. -/
structure Allotment (t : AllocationTable) (root : Directory) (own : Slot → List Link) : Prop where
  chain : ∀ s, Chain t (root.get s).firstBlock (own s)
  disjoint : ∀ {s s' : Slot} {b : Link}, b ∈ own s → b ∈ own s' → s = s'

/-- A block in use that no slot owns. -/
def Unowned (t : AllocationTable) (own : Slot → List Link) (b : Link) : Prop :=
  (t.link? b).isSome ∧ ∀ s, b ∉ own s

namespace Allotment

variable {slot : Slot} {e : Entry} {blocks : List Link}

/-! ## 1. Another chain for one slot -/

/-- **One slot's chain may be replaced** where the table changed for that chain only. -/
theorem replace (h : Allotment t root own) (hr : Rechained t t' (own slot) blocks)
    (hc : Chain t' e.firstBlock blocks) :
    Allotment t' (root.set slot e) (Function.update own slot blocks) where
  chain s := by
    rw [Directory.get_set]
    by_cases hs : s = slot
    · subst hs
      rw [if_pos rfl, Function.update_self]
      exact hc
    · rw [if_neg hs, Function.update_of_ne hs]
      exact hr.chain_of_disjoint (h.chain s) fun b hb hb' => hs (h.disjoint hb hb')
  disjoint {s s' b} hb hb' := by
    -- a block of the new chain was the slot's own or was free, so it is nobody else's
    have key : ∀ {r : Slot}, r ≠ slot → b ∈ own r → b ∉ blocks := by
      intro r hr' hbr hbn
      by_cases ho : b ∈ own slot
      · exact hr' (h.disjoint hbr ho)
      · obtain ⟨n, link⟩ := (h.chain r).link_of_mem hbr
        rw [hr.taken b hbn ho] at link
        cases link
    by_cases hs : s = slot
    · by_cases hs' : s' = slot
      · rw [hs, hs']
      · subst hs
        rw [Function.update_self] at hb
        rw [Function.update_of_ne hs'] at hb'
        exact absurd hb (key hs' hb')
    · rw [Function.update_of_ne hs] at hb
      by_cases hs' : s' = slot
      · subst hs'
        rw [Function.update_self] at hb'
        exact absurd hb' (key hs hb)
      · rw [Function.update_of_ne hs'] at hb'
        exact h.disjoint hb hb'

/-- **No block is lost and none is conjured:** the unowned blocks are the same. -/
theorem unowned_update_iff (hr : Rechained t t' (own slot) blocks) (b : Link) :
    Unowned t' (Function.update own slot blocks) b ↔ Unowned t own b := by
  constructor
  · intro hq
    rcases hq with ⟨hu, hno⟩
    have hb : b ∉ blocks := by
      have := hno slot
      rwa [Function.update_self] at this
    have ho : b ∉ own slot := by
      intro ho
      rw [hr.released b ho hb] at hu
      cases hu
    refine ⟨by rwa [← link?_congr (hr.frame b ho hb)], fun s => ?_⟩
    by_cases hs : s = slot
    · exact hs ▸ ho
    · have := hno s
      rwa [Function.update_of_ne hs] at this
  · intro hq
    rcases hq with ⟨hu, hno⟩
    have hb : b ∉ blocks := by
      intro hb
      rw [hr.taken b hb (hno slot)] at hu
      cases hu
    refine ⟨by rwa [link?_congr (hr.frame b (hno slot) hb)], fun s => ?_⟩
    by_cases hs : s = slot
    · subst hs
      rwa [Function.update_self]
    · rw [Function.update_of_ne hs]
      exact hno s

theorem zero_notMem (h : Allotment t root own) (s : Slot) : (0 : Link) ∉ own s :=
  fun h0 => (h.chain s).ne_zero h0 rfl

/-- The allotment is determined by the table and the directory. -/
theorem unique {own' : Slot → List Link} (h : Allotment t root own)
    (h' : Allotment t root own') : own = own' :=
  funext fun s => (h.chain s).unique (h'.chain s)

end Allotment

/-! ## 2. Counting -/

/-- The numbers of the free data blocks. -/
def freeBlocks (t : AllocationTable) : Finset Nat :=
  (Finset.Ico 1 t.size).filter fun i => t.entries[i]? = some free

open Classical in
/-- The numbers of the blocks in use that no slot owns. -/
noncomputable def unownedBlocks (t : AllocationTable) (own : Slot → List Link) : Finset Nat :=
  (Finset.Ico 1 t.size).filter fun i => Unowned t own (UInt16.ofNat i)

theorem toNat_ofNat_of_lt {i n : Nat} (hn : n ≤ 65535) (hi : i < n) :
    (UInt16.ofNat i).toNat = i := by
  rw [UInt16.toNat_ofNat']
  omega

/-- A data block is free or leads somewhere. -/
theorem link?_isSome_iff {i : Nat} (hs : t.size ≤ 65535) (hi : i ∈ Finset.Ico 1 t.size) :
    (t.link? (UInt16.ofNat i)).isSome ↔ t.entries[i]? ≠ some free := by
  obtain ⟨h1, hlt⟩ := Finset.mem_Ico.mp hi
  have hn := toNat_ofNat_of_lt hs hlt
  have h0 : UInt16.ofNat i ≠ 0 := by
    intro e
    rw [e] at hn
    exact absurd hn.symm (Nat.ne_of_gt h1)
  obtain ⟨n, he⟩ : ∃ n, t.entries[i]? = some n := ⟨_, Array.getElem?_eq_getElem hlt⟩
  rw [Option.isSome_iff_exists]
  simp only [link?_eq_some_iff, hn, he]
  constructor
  · intro hmem hf
    rcases hmem with ⟨m, -, hm, hne⟩
    exact hne (Option.some.inj (hm.symm.trans hf))
  · intro hne
    exact ⟨n, h0, rfl, fun e => hne (by rw [e])⟩

namespace Allotment

/-- Owned blocks, counted file by file. -/
theorem card_owned (h : Allotment t root own) (hs : t.size ≤ 65535) :
    ((Finset.Ico 1 t.size).filter fun i => ∃ s, UInt16.ofNat i ∈ own s).card =
      ∑ s, (own s).length := by
  have hu : (Finset.Ico 1 t.size).filter (fun i => ∃ s, UInt16.ofNat i ∈ own s) =
      Finset.univ.biUnion fun s => ((own s).map UInt16.toNat).toFinset := by
    ext i
    simp only [Finset.mem_filter, Finset.mem_Ico, Finset.mem_biUnion, Finset.mem_univ, true_and,
      List.mem_toFinset, List.mem_map]
    constructor
    · intro hq
      rcases hq with ⟨⟨-, hlt⟩, s, hb⟩
      exact ⟨s, _, hb, toNat_ofNat_of_lt hs hlt⟩
    · intro hq
      rcases hq with ⟨s, b, hb, rfl⟩
      have h0 : b.toNat ≠ 0 := fun e => (h.chain s).ne_zero hb (UInt16.toNat_inj.mp e)
      refine ⟨⟨by omega, (h.chain s).lt_size hb⟩, s, ?_⟩
      rwa [UInt16.ofNat_toNat]
  rw [hu, Finset.card_biUnion]
  · refine Finset.sum_congr rfl fun s _ => ?_
    have hnd : ((own s).map UInt16.toNat).Nodup :=
      (h.chain s).nodup.map fun _ _ e => UInt16.toNat_inj.mp e
    rw [List.toFinset_card_of_nodup hnd, List.length_map]
  · intro s _ s' _ hne
    refine Finset.disjoint_left.mpr fun i hi hi' => hne ?_
    simp only [List.mem_toFinset, List.mem_map] at hi hi'
    obtain ⟨b, hb, rfl⟩ := hi
    obtain ⟨b', hb', he⟩ := hi'
    rw [UInt16.toNat_inj.mp he] at hb'
    exact h.disjoint hb hb'

/-- **The balance:** every data block but the reserved one is free, unowned or owned once. -/
theorem balance (h : Allotment t root own) (hs : t.size ≤ 65535) :
    (freeBlocks t).card + (unownedBlocks t own).card + ∑ s, (own s).length = t.size - 1 := by
  classical
  have hfree := Finset.card_filter_add_card_filter_not (s := Finset.Ico 1 t.size)
    (fun i => t.entries[i]? = some free)
  have hused := Finset.card_filter_add_card_filter_not
    (s := (Finset.Ico 1 t.size).filter fun i => ¬ t.entries[i]? = some free)
    (fun i => ∃ s, UInt16.ofNat i ∈ own s)
  rw [Finset.filter_filter, Finset.filter_filter] at hused
  have ho : (Finset.Ico 1 t.size).filter
      (fun i => ¬ t.entries[i]? = some free ∧ ∃ s, UInt16.ofNat i ∈ own s) =
      (Finset.Ico 1 t.size).filter fun i => ∃ s, UInt16.ofNat i ∈ own s := by
    refine Finset.filter_congr fun i hi => ⟨fun hp => hp.2, fun ⟨s, hb⟩ => ⟨?_, s, hb⟩⟩
    obtain ⟨n, link⟩ := (h.chain s).link_of_mem hb
    exact (link?_isSome_iff hs hi).mp (by rw [link]; rfl)
  have hn : (Finset.Ico 1 t.size).filter
      (fun i => ¬ t.entries[i]? = some free ∧ ¬ ∃ s, UInt16.ofNat i ∈ own s) =
      unownedBlocks t own := by
    refine Finset.filter_congr fun i hi => ?_
    rw [Unowned, link?_isSome_iff hs hi, not_exists]
  rw [ho, h.card_owned hs, hn] at hused
  rw [Nat.card_Ico] at hfree
  simp only [freeBlocks]
  omega

end Allotment

theorem unownedBlocks_congr {own' : Slot → List Link} (hs : t'.size = t.size)
    (hu : ∀ b, Unowned t' own' b ↔ Unowned t own b) :
    unownedBlocks t' own' = unownedBlocks t own := by
  classical
  simp only [unownedBlocks, hs, hu]

/-! ## 3. The free entries of the table -/

theorem countP_eq_card {α : Type} (p : α → Bool) (l : List α) :
    l.countP p = ((Finset.range l.length).filter fun i => l[i]?.any p).card := by
  induction l using List.reverseRecOn with
  | nil => rfl
  | append_singleton l a ih =>
    have hl : (Finset.range l.length).filter (fun i => (l ++ [a])[i]?.any p) =
        (Finset.range l.length).filter fun i => l[i]?.any p :=
      Finset.filter_congr fun i hi => by rw [List.getElem?_append_left (Finset.mem_range.mp hi)]
    rw [List.countP_append, ih, List.length_append, List.length_singleton, Finset.range_add_one,
      Finset.filter_insert, hl]
    cases hp : p a
    · simp [hp]
    · simp [hp, Finset.card_insert_of_notMem]

/-- **The free entries** are the free data blocks, and entry 0 where it is free. -/
theorem freeCount_eq (t : AllocationTable) : t.freeCount =
    (freeBlocks t).card + if t.entries[0]? = some free then 1 else 0 := by
  have hc : t.freeCount =
      ((Finset.range t.size).filter fun i => t.entries[i]? = some free).card := by
    rw [AllocationTable.freeCount, ← Array.countP_toList, countP_eq_card]
    congr 1
    refine Finset.filter_congr fun i _ => ?_
    rw [Array.getElem?_toList]
    cases t.entries[i]? <;> simp
  rw [hc, Finset.range_eq_Ico]
  rcases Nat.eq_zero_or_pos t.size with h0 | hpos
  · have : t.entries[0]? = none := by
      simp only [size] at h0
      simp [h0]
    simp [freeBlocks, h0, this]
  · have hins : Finset.Ico 0 t.size = insert 0 (Finset.Ico 1 t.size) := by
      ext i
      simp only [Finset.mem_Ico, Finset.mem_insert]
      omega
    rw [hins, Finset.filter_insert]
    split
    · rw [Finset.card_insert_of_notMem (by simp)]
      rfl
    · rfl

/-- There is no free data block exactly if none can be taken. -/
theorem card_freeBlocks_eq_zero_iff : (freeBlocks t).card = 0 ↔ t.lowestFree? = none := by
  rw [Finset.card_eq_zero, lowestFree?_eq_none_iff, freeBlocks, Finset.filter_eq_empty_iff]
  refine ⟨fun h i h1 he => ?_, fun h i hi => h i (Finset.mem_Ico.mp hi).1⟩
  obtain ⟨hlt, -⟩ := Array.getElem?_eq_some_iff.mp he
  exact h (Finset.mem_Ico.mpr ⟨h1, hlt⟩) he

end FlatVolume
