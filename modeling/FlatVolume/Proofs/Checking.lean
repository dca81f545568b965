import FlatVolume.Proofs.Consistency
import FlatVolume.Proofs.Prepared
import FlatVolume.Proofs.Sequences

/-!
# What `check` decides

A volume is filed soundly when the entries lead from the first block of every file over data blocks in
use to the end, over as many as the size of the file needs, and pass no block twice, be it for one
file or for two. `Filed v blocks` says so of the entries of the table, slot by slot, with the blocks
of each file in their order.

On a volume that was mounted, whatever its table and directory hold and whatever was done with it
since, `check` says whether there are such blocks: it answers without a complaint exactly if there
are, and with a corrupt chain otherwise (`FileSystem.check_decides`).
-/

namespace FlatVolume

open AllocationTable FlatVolume.Computation Mounted
open FileSystem (ofMounted ofWorld)
open Link (free endOfChain)

/-! ## 1. Files soundly filed -/

namespace Volume

variable {H : Type} {v : Volume H} {blocks : Slot → List Link}

/-- **The file in each occupied slot `s` lies in the blocks `blocks s`,** in this order, as many as its
    size needs, and no block is passed twice. -/
structure Filed (v : Volume H) (blocks : Slot → List Link) : Prop where
  sequence : ∀ {s}, (v.root.get s).isFree = false →
    v.table.Sequence (v.root.get s).firstBlock (blocks s)
  inRange : ∀ {s}, (v.root.get s).isFree = false →
    ∀ b ∈ blocks s, 1 ≤ b.toNat ∧ b.toNat ≤ v.superblock.dataBlocks.toNat - 1
  length_eq : ∀ {s}, (v.root.get s).isFree = false →
    (blocks s).length = ceilDiv (v.root.get s).size blockSize
  once : ∀ {s s' : Slot} {i i' : Nat} {b : Link}, (v.root.get s).isFree = false →
    (v.root.get s').isFree = false → (blocks s)[i]? = some b → (blocks s')[i']? = some b →
    s = s' ∧ i = i'

/-- What slots own is how their files are filed. -/
theorem Intact.filed {own : Slot → List Link} (h : v.Intact own) : v.Filed own where
  sequence _ := (h.allotment.chain _).sequence
  inRange _ := h.size_eq ▸ (h.allotment.chain _).sequence.inside
  length_eq _ := h.length_eq _
  once {s s' i i' b} _ _ hb hb' := by
    obtain rfl := h.allotment.disjoint (List.mem_of_getElem? hb) (List.mem_of_getElem? hb')
    have hnodup := (h.allotment.chain s).nodup
    obtain ⟨hlt, -⟩ := List.getElem?_eq_some_iff.mp hb
    exact ⟨rfl, (List.getElem?_inj hlt hnodup).mp (hb.trans hb'.symm)⟩

/-- Files that are soundly filed are sound. -/
theorem Filed.consistent (h : v.Filed blocks) (ht : v.Tidy) : v.Consistent := by
  have hhas : ∀ {s}, (v.root.get s).isFree = false → v.HasBlocks (v.root.get s) (blocks s) :=
    fun hs => ⟨(sequence_iff_chain ht.table_size_le).mp (h.sequence hs), h.length_eq hs⟩
  refine ⟨fun e he => ?_, pairwise_files_iff.mpr fun s s' hlt hs hs' bs bs' hb hb' b hm hm' => ?_⟩
  · obtain ⟨s, rfl, hs⟩ := mem_files_iff.mp he
    exact ⟨blocks s, hhas hs, (hhas hs).chain.nodup⟩
  · rw [hb.unique (hhas hs)] at hm
    rw [hb'.unique (hhas hs')] at hm'
    obtain ⟨i, hi⟩ := List.mem_iff_getElem?.mp hm
    obtain ⟨i', hi'⟩ := List.mem_iff_getElem?.mp hm'
    exact absurd (h.once hs hs' hi hi').1 (Fin.ne_of_lt hlt)

/-- **The files of a tidy volume are sound** exactly if they are soundly filed somewhere. -/
theorem Tidy.exists_filed_iff (h : v.Tidy) : (∃ blocks, v.Filed blocks) ↔ v.Consistent := by
  refine ⟨fun ⟨_, hf⟩ => hf.consistent h, fun hc => ?_⟩
  obtain ⟨own, hi⟩ := h.consistent_iff.mp hc
  exact ⟨own, hi.filed⟩

/-- Where files are soundly filed, those without bytes are those without blocks. -/
theorem Filed.size_eq_zero_iff (h : v.Filed blocks) (ht : v.Tidy) {s : Slot}
    (hs : (v.root.get s).isFree = false) :
    (v.root.get s).size = 0 ↔ (v.root.get s).firstBlock = endOfChain := by
  have hchain := (sequence_iff_chain ht.table_size_le).mp (h.sequence hs)
  have hlength := h.length_eq hs
  constructor
  · exact (HasBlocks.mk hchain hlength).firstBlock_of_size_eq_zero
  · intro hfirst
    rw [hchain.unique (Chain.nil_iff.mpr hfirst), List.length_nil] at hlength
    refine Nat.eq_zero_of_not_pos fun hpos => ?_
    exact absurd (ceilDiv_pos hpos) (by omega)

end Volume

/-! ## 2. What `check` answers -/

namespace FileSystem

variable {W H : Type} [BlockDevice W H] [LawfulBlockDevice W H]

/-- **`check` decides whether the files are soundly filed.** On a volume that was mounted from a device
    with any table and any directory, and after any operations, it finds nothing wrong exactly if each
    file lies in as many blocks as its size needs and no block is passed twice; then the files without
    bytes are those without blocks. In every other case it reports a corrupt chain. -/
theorem check_decides {d : H} {fs fs₀ fs₁ : FileSystem W H} {v : Volume H}
    (hm : mount d fs = .ok () fs₀) (hr : Reachable fs₀ fs₁) (hv : fs₁.mounted = some v) :
    (check fs₁ = .ok () fs₁ ↔ ∃ blocks, v.Filed blocks) ∧
    (∀ blocks, v.Filed blocks → ∀ s, (v.root.get s).isFree = false →
      ((v.root.get s).size = 0 ↔ (v.root.get s).firstBlock = endOfChain)) ∧
    ((¬ ∃ blocks, v.Filed blocks) → ∃ b, check fs₁ = .error (.corruptChain b) fs₁) := by
  have ht := hr.tidy (tidy_of_mount hm) v hv
  obtain ⟨_, w⟩ := fs₁
  cases hv
  have hrun := query_run Volume.check (⟨v, w⟩ : Mounted W H)
  refine ⟨?_, fun blocks hf s hs => hf.size_eq_zero_iff ht hs, fun hno => ?_⟩
  · rw [ht.exists_filed_iff, ← Volume.check_eq_ok_iff, check_eq_ok_iff]
    refine ⟨fun hq => ?_, fun hok => ⟨rfl, v, rfl, hok⟩⟩
    obtain ⟨-, v', hv', hok⟩ := hq
    cases hv'
    exact hok
  · rcases Volume.check_cases v with ⟨hc, -⟩ | ⟨-, b, hb⟩
    · exact absurd (ht.exists_filed_iff.mpr hc) hno
    · rw [hb] at hrun
      exact ⟨b, hrun⟩

/-- A file of a hundred bytes in one block is soundly filed. A file whose first block leads to itself
    is not, and its chain is reported. -/
theorem check_decides_looped :
    (∃ fs fs' v, mount () (ofWorld (Memory.holding 16
        (Volume.lone AllocationTable.oneUsed Entry.hundredBytes))) = .ok () fs ∧
      Reachable fs fs' ∧ fs'.mounted = some v ∧ ∃ blocks, v.Filed blocks) ∧
    ∃ fs fs' v, mount () (ofWorld (Memory.holding 16
        (Volume.lone AllocationTable.looped (Entry.twentyBlocks 1)))) = .ok () fs ∧
      Reachable fs fs' ∧ fs'.mounted = some v ∧ (¬ ∃ blocks, v.Filed blocks) ∧
      ∃ b, check fs' = .error (.corruptChain b) fs' := by
  constructor
  · obtain ⟨fs, files, w, hm, hr, -⟩ := exists_opened_hundredBytes
    refine ⟨fs, _, _, hm, hr, rfl, (check_decides hm hr rfl).1.mp ?_⟩
    exact check_eq_ok_iff.mpr ⟨rfl, _, rfl, Volume.check_hundredBytes files⟩
  · obtain ⟨fs, files, w, hm, hr⟩ := exists_opened_looped
    obtain ⟨hiff, -, hbad⟩ := check_decides hm hr rfl
    have hnot : ¬ ∃ blocks, Volume.Filed
        { Volume.lone AllocationTable.looped (Entry.twentyBlocks 1) with files } blocks := by
      intro hf
      obtain ⟨-, v', hv', hok⟩ := check_eq_ok_iff.mp (hiff.mpr hf)
      cases hv'
      cases hok
    exact ⟨fs, _, _, hm, hr, rfl, hnot, hbad hnot⟩

end FileSystem

end FlatVolume
