import FlatVolume.Proofs.Contents
import FlatVolume.Proofs.Records
import FlatVolume.Proofs.Rechaining
import FlatVolume.Proofs.Tidiness
import FlatVolume.Volume

/-!
# The metadata on a device

What is in memory while a volume is mounted stands in three places of the device, and this file
fixes what is read from each of them and what is written to it:

* `Carries st sb` -- block 0 of the storage `st` says `sb`, and that is the layout of its size;
* `AllocationTable.ofStorage sb st` -- the table that stands in the blocks after it. A table that
  was written there is what is read (`ofStorage_eq_of_written`);
* the directory, in the block after the table.
-/

namespace FlatVolume

open AllocationTable Bytes FlatVolume.Computation
open LawfulBlockDevice (storage)

/-! ## 1. The table -/

/-- A list of runs of one length: entry `j` stands in run `j / n`. -/
theorem getElem?_flatMap_of_length {α β : Type} {f : α → List β} {n : Nat} (hn : 0 < n)
    (hf : ∀ a, (f a).length = n) (l : List α) (j : Nat) :
    (l.flatMap f)[j]? = (l[j / n]?).bind fun a => (f a)[j % n]? := by
  induction l generalizing j with
  | nil => simp
  | cons a l ih =>
    rw [List.flatMap_cons]
    by_cases hj : j < n
    · rw [List.getElem?_append_left (by rw [hf]; exact hj), Nat.div_eq_of_lt hj,
        Nat.mod_eq_of_lt hj]
      rfl
    · have hle : n ≤ j := Nat.le_of_not_lt hj
      rw [List.getElem?_append_right (by rw [hf]; exact hle), hf, ih,
        Nat.div_eq_sub_div hn hle, List.getElem?_cons_succ, Nat.mod_eq_sub_mod hle]

namespace AllocationTable

/-- The table that stands on a storage with the layout `sb`. -/
def ofStorage (sb : Superblock) (st : Storage) : AllocationTable :=
  ⟨((((List.range sb.tableBlocks.toNat).map fun i =>
    st.block (sb.tableStart + i)).toArray).flatMap Block.links).extract 0 sb.dataBlocks.toNat⟩

/-- **Where an entry stands:** in the block of its run, two bytes wide. -/
theorem getElem?_ofStorage (sb : Superblock) (st : Storage) (j : Nat) :
    (ofStorage sb st).entries[j]? =
      if j < sb.dataBlocks.toNat ∧ j / linksPerBlock < sb.tableBlocks.toNat then
        some (word16 (st.block (sb.tableStart + j / linksPerBlock)).bytes (2 * (j % linksPerBlock)))
      else none := by
  have hlen : ∀ b : Block, b.links.toList.length = linksPerBlock := by
    intro b
    rw [Block.links, Array.length_toList, Array.size_ofFn]
  -- the joined runs, before they are cut to the number of data blocks
  have hruns : ∀ j, ((((List.range sb.tableBlocks.toNat).map fun i =>
      st.block (sb.tableStart + i)).toArray).flatMap Block.links)[j]? =
      if j / linksPerBlock < sb.tableBlocks.toNat then
        some (word16 (st.block (sb.tableStart + j / linksPerBlock)).bytes (2 * (j % linksPerBlock)))
      else none := by
    intro j
    rw [List.flatMap_toArray, List.getElem?_toArray,
      getElem?_flatMap_of_length (by decide) hlen, List.getElem?_map]
    have hmod : j % linksPerBlock < linksPerBlock := Nat.mod_lt _ (by decide)
    by_cases hj : j / linksPerBlock < sb.tableBlocks.toNat
    · rw [List.getElem?_range hj, if_pos hj]
      simp [Block.links, hmod]
    · rw [List.getElem?_eq_none (by simpa using hj), if_neg hj]
      rfl
  rw [ofStorage]
  dsimp only
  rw [Array.getElem?_extract, Nat.zero_add, hruns]
  generalize hn : Array.size _ = n
  have hlt := hruns j
  by_cases hj : j / linksPerBlock < sb.tableBlocks.toNat
  · rw [if_pos hj] at hlt
    obtain ⟨hjn, -⟩ := Array.getElem?_eq_some_iff.mp hlt
    rw [hn] at hjn
    simp only [hj, if_true, and_true, Nat.sub_zero, Nat.lt_min, hjn]
  · simp only [hj, if_false, and_false, ite_self]

theorem size_ofStorage {sb : Superblock} {n : Nat} (h : Superblock.LaidOut sb n) (st : Storage) :
    (ofStorage sb st).size = sb.dataBlocks.toNat := by
  have ht := h.geometry.table_eq
  refine Nat.le_antisymm ?_ ?_
  · refine Nat.le_of_not_lt fun hlt => ?_
    have hsome := Array.getElem?_eq_getElem hlt
    rw [getElem?_ofStorage, if_neg (by omega)] at hsome
    cases hsome
  · refine Nat.le_of_not_lt fun hlt => ?_
    have hnone : (ofStorage sb st).entries[(ofStorage sb st).size]? = none :=
      Array.getElem?_eq_none (Nat.le_refl _)
    have hdiv : (ofStorage sb st).size / linksPerBlock < sb.tableBlocks.toNat := by
      rw [ht]
      simp only [ceilDiv, linksPerBlock, blockSize]
      omega
    rw [getElem?_ofStorage, if_pos ⟨hlt, hdiv⟩] at hnone
    cases hnone

/-- The block a run of the table is written as. -/
def runBlock (t : AllocationTable) (i : Nat) : Block := Block.padded (encodeLinks (t.chunk i))

/-- **A table is read back as it was written.** -/
theorem ofStorage_eq_of_written {sb : Superblock} {n : Nat} (h : Superblock.LaidOut sb n)
    {t : AllocationTable} (hs : t.size = sb.dataBlocks.toNat) {st : Storage}
    (hw : ∀ i < sb.tableBlocks.toNat, st.block (sb.tableStart + i) = t.runBlock i) :
    ofStorage sb st = t := by
  refine ext_getElem? fun j => ?_
  have ht := h.geometry.table_eq
  rw [getElem?_ofStorage]
  by_cases hj : j < sb.dataBlocks.toNat
  · have hdiv : j / linksPerBlock < sb.tableBlocks.toNat := by
      rw [ht]
      simp only [ceilDiv, linksPerBlock, blockSize]
      omega
    have hmod : j % linksPerBlock < linksPerBlock := Nat.mod_lt _ (by decide)
    have hchunk : (t.chunk (j / linksPerBlock)).size =
        min ((j / linksPerBlock + 1) * linksPerBlock) t.size -
          j / linksPerBlock * linksPerBlock := by
      rw [chunk, Array.size_extract]
      rfl
    have hlt : j % linksPerBlock < (t.chunk (j / linksPerBlock)).size := by
      rw [hchunk, hs]
      simp only [linksPerBlock, blockSize] at hmod ⊢
      omega
    have hjt : j < t.entries.size := by
      rw [← hs] at hj
      exact hj
    rw [if_pos ⟨hj, hdiv⟩, hw _ hdiv, Array.getElem?_eq_getElem hjt]
    -- the entry stands in its run where the block has it
    have hword : word16 (t.runBlock (j / linksPerBlock)).bytes (2 * (j % linksPerBlock)) =
        word16 (encodeLinks (t.chunk (j / linksPerBlock))) (2 * (j % linksPerBlock)) := by
      have hb : 2 * (j % linksPerBlock) + 1 < blockSize := by
        simp only [linksPerBlock, blockSize] at hmod ⊢
        omega
      rw [word16, word16, runBlock, Block.byteAt_padded _ (by omega), Block.byteAt_padded _ hb]
    rw [hword, word16_encodeLinks hlt]
    simp only [chunk, Array.getElem_extract]
    congr 2
    exact Nat.div_add_mod' j linksPerBlock
  · rw [if_neg fun hc => hj hc.1, Array.getElem?_eq_none]
    simp only [size] at hs
    omega

end AllocationTable

/-! ## 2. Loading -/

/-- **The storage carries the layout `sb`:** block 0 says so, and it is the layout of its size. -/
structure Carries (st : Storage) (sb : Superblock) : Prop where
  header_eq : Superblock.ofBytes (st.block 0).bytes = sb
  fits : Superblock.forBlockCount? st.blockCount = some sb
  blockBytes_eq : st.blockBytes = blockSize

theorem Carries.laidOut {st : Storage} {sb : Superblock} (h : Carries st sb) :
    Superblock.LaidOut sb st.blockCount := Superblock.laidOut_of_forBlockCount? h.fits

section OnDevice

variable {W H : Type} [BlockDevice W H] [LawfulBlockDevice W H]

theorem Superblock.load_ends (d : H) (w : W) : Ends (Superblock.load d) w
    (fun sb w' => Carries (storage d w) sb ∧ Answered d w w' (storage d w))
    (fun _ w' => storage d w' = storage d w ∧
      ∀ sb, Carries (storage d w) sb → ¬ NeverFails d w) := by
  unfold Superblock.load
  refine Ends.bind_ok (get_run w) ?_
  split
  · rename_i hb
    refine ⟨rfl, fun sb hc => absurd ?_ hb⟩
    rw [← LawfulBlockDevice.blockBytes_eq]
    exact hc.blockBytes_eq
  · rename_i hb
    have hb' : (storage d w).blockBytes = blockSize := by
      rw [LawfulBlockDevice.blockBytes_eq]
      exact Decidable.not_not.mp hb
    refine Ends.bind ((loadBlock_ends d 0 w).mono ?_ ?_)
    · intro block w' hok
      rcases hok with ⟨rfl, ha⟩
      dsimp only
      split
      · rename_i hsig
        refine ⟨ha.storage_eq, fun sb hc => absurd ?_ hsig⟩
        rw [hc.header_eq, hc.laidOut.signature_eq]
      · refine Ends.bind_ok (get_run w') ?_
        rw [← LawfulBlockDevice.blockCount_eq, ha.storage_eq]
        split
        · rename_i hfit
          refine ⟨ha.storage_eq, fun sb hc => absurd ?_ hfit⟩
          rw [hc.header_eq, hc.fits]
        · rename_i hfit
          exact ⟨⟨rfl, (Decidable.not_not.mp hfit).symm, hb'⟩, ha⟩
    · intro e w' herr
      rcases herr with ⟨-, hf⟩
      refine ⟨hf.storage_eq, fun sb hc => hf.fails ?_⟩
      have := hc.laidOut.geometry.total_eq
      omega

/-- Loading blocks one after the other. -/
theorem mapM_loadBlock_ends (d : H) (pos : Nat → Nat) (l : List Nat) (w : W) :
    Ends (l.mapM fun i => loadBlock d (pos i)) w
      (fun bs w' => bs = l.map (fun i => (storage d w).block (pos i)) ∧
        Answered d w w' (storage d w))
      (fun _ w' => Failed d w w' (∀ i ∈ l, pos i < (storage d w).blockCount)) := by
  induction l generalizing w with
  | nil => exact ⟨rfl, .refl d w⟩
  | cons i l ih =>
    rw [List.mapM_cons]
    refine Ends.bind ((loadBlock_ends d (pos i) w).mono ?_ ?_)
    · intro b w' hok
      rcases hok with ⟨rfl, ha⟩
      have hl := ih w'
      rw [ha.storage_eq] at hl
      refine Ends.bind (hl.mono ?_ ?_)
      · intro bs w'' hok
        rcases hok with ⟨rfl, ha'⟩
        exact ⟨rfl, ha.trans ha'⟩
      · intro e w'' hf
        refine ⟨hf.storage_eq.trans ha.storage_eq, fun hr hn => ?_⟩
        exact hf.fails (fun j hj => hr j (List.mem_cons_of_mem _ hj)) (ha.neverFails hn)
    · intro e w' herr
      rcases herr with ⟨-, hf⟩
      exact ⟨hf.storage_eq, fun hr => hf.fails (hr i (List.mem_cons_self ..))⟩

theorem AllocationTable.load_ends (d : H) (sb : Superblock) (w : W) :
    Ends (AllocationTable.load d sb) w
      (fun t w' => t = ofStorage sb (storage d w) ∧ Answered d w w' (storage d w))
      (fun _ w' => Failed d w w'
        (∀ i < sb.tableBlocks.toNat, sb.tableStart + i < (storage d w).blockCount)) := by
  unfold AllocationTable.load
  refine Ends.bind ((mapM_loadBlock_ends d (fun i => sb.tableStart + i) _ w).mono ?_ ?_)
  · intro bs w' hok
    rcases hok with ⟨rfl, ha⟩
    exact ⟨rfl, ha⟩
  · intro e w' hf
    exact ⟨hf.storage_eq, fun hr => hf.fails fun i hi => hr i (List.mem_range.mp hi)⟩

theorem Directory.load_ends (d : H) (sb : Superblock) (w : W) :
    Ends (Directory.load d sb) w
      (fun root w' => Directory.decode ((storage d w).block sb.directoryBlock.toNat) = .ok root ∧
        Answered d w w' (storage d w))
      (fun _ w' => storage d w' = storage d w ∧
        (sb.directoryBlock.toNat < (storage d w).blockCount →
          (∃ root, Directory.decode ((storage d w).block sb.directoryBlock.toNat) = .ok root) →
          ¬ NeverFails d w)) := by
  unfold Directory.load
  refine Ends.bind ((loadBlock_ends d _ w).mono ?_ ?_)
  · intro block w' hok
    rcases hok with ⟨rfl, ha⟩
    cases hd : Directory.decode ((storage d w).block sb.directoryBlock.toNat) with
    | ok root => exact ⟨hd ▸ rfl, ha⟩
    | error e =>
      refine ⟨ha.storage_eq, fun _ ⟨root, hr⟩ => ?_⟩
      cases hr
  · intro e w' herr
    rcases herr with ⟨-, hf⟩
    exact ⟨hf.storage_eq, fun hr _ => hf.fails hr⟩

/-- **Loading a volume** gives what stands on the storage. Where the storage carries a layout and a
    directory that can be read, only a failing call stops it. -/
theorem Volume.load_ends (d : H) (w : W) : Ends (Volume.load d) w
    (fun v w' => v.device = d ∧ Carries (storage d w) v.superblock ∧
      v.table = ofStorage v.superblock (storage d w) ∧
      Directory.decode ((storage d w).block v.superblock.directoryBlock.toNat) = .ok v.root ∧
      v.files = OpenFiles.empty ∧ Answered d w w' (storage d w))
    (fun _ w' => storage d w' = storage d w ∧ ∀ sb root, Carries (storage d w) sb →
      Directory.decode ((storage d w).block sb.directoryBlock.toNat) = .ok root →
      ¬ NeverFails d w) := by
  unfold Volume.load
  refine Ends.bind ((Superblock.load_ends d w).mono ?_ ?_)
  · intro sb w₁ hok
    rcases hok with ⟨hc, h₁⟩
    have ht := AllocationTable.load_ends d sb w₁
    rw [h₁.storage_eq] at ht
    refine Ends.bind (ht.mono ?_ ?_)
    · intro t w₂ hok
      rcases hok with ⟨rfl, h₂⟩
      have hd := Directory.load_ends d sb w₂
      rw [h₂.storage_eq] at hd
      refine Ends.bind (hd.mono ?_ ?_)
      · intro root w₃ hok
        rcases hok with ⟨hr, h₃⟩
        exact ⟨rfl, hc, rfl, hr, rfl, (h₁.trans h₂).trans h₃⟩
      · intro e w₃ herr
        rcases herr with ⟨hs, hf⟩
        refine ⟨hs, fun sb' root hc' hr hn => ?_⟩
        obtain rfl : sb = sb' := hc.header_eq.symm.trans hc'.header_eq
        exact hf hc.laidOut.directoryBlock_lt ⟨root, hr⟩ (h₂.neverFails (h₁.neverFails hn))
    · intro e w₂ hf
      refine ⟨hf.storage_eq.trans h₁.storage_eq, fun _ _ _ _ hn => ?_⟩
      refine hf.fails (fun i hi => ?_) (h₁.neverFails hn)
      have := hc.laidOut.tableBlock_lt hi
      have := hc.laidOut.directoryBlock_lt
      omega
  · intro e w₁ herr
    rcases herr with ⟨hs, hf⟩
    exact ⟨hs, fun sb _ hc _ => hf sb hc⟩

/-- **What is mounted is tidy,** whatever the device holds. -/
theorem Volume.tidy_of_load {d : H} {v : Volume H} {w w' : W} (h : Volume.load d w = .ok v w') :
    v.Tidy := by
  obtain ⟨-, hc, ht, hr, hf, -⟩ := (ends_iff.mp (Volume.load_ends d w)).1 v w' h
  refine ⟨⟨_, hc.fits⟩, ?_, fun s hs => ?_, fun s hs => ?_, fun {fd f} hfd => ?_⟩
  · rw [ht]
    exact size_ofStorage hc.laidOut _
  · rcases Directory.valid_of_decode hr s with he | hv
    · exact he
    · rw [isFree_of_validName hv] at hs
      cases hs
  · rcases Directory.valid_of_decode hr s with he | hv
    · rw [he] at hs
      cases hs
    · exact hv
  · rw [hf, OpenFiles.get?_empty] at hfd
    cases hfd

end OnDevice

end FlatVolume
