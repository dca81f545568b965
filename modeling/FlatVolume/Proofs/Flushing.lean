import FlatVolume.Proofs.Metadata

/-!
# Writing metadata

Flushing writes the table and the directory to their blocks and nothing else; if it succeeds, they
stand there (`Volume.flush_ends`). Formatting writes block 0 as well and leaves an empty volume
(`Volume.format_ends`). What stands on a device is what is loaded from it
(`Volume.load_of_flushed`).
-/

namespace FlatVolume

open AllocationTable Bytes FlatVolume.Computation
open LawfulBlockDevice (storage)

/-! ## 1. Blocks that are written -/

/-- Only blocks with numbers in `p` were written on the way from `st` to `st'`. -/
structure Touched (p : Nat → Prop) (st st' : Storage) : Prop where
  shape : SameShape st st'
  block_eq : ∀ i, ¬ p i → st'.block i = st.block i

variable {p q : Nat → Prop} {st st' st'' : Storage}

theorem Touched.refl (p : Nat → Prop) (st : Storage) : Touched p st st := ⟨.refl st, fun _ _ => rfl⟩

theorem Touched.set {i : Nat} (h : p i) (st : Storage) (b : Block) : Touched p st (st.set i b) where
  shape := (SameShape.refl st).set i b
  block_eq j hj := by
    have hne : j ≠ i := fun e => hj (e ▸ h)
    rw [block_set, if_neg hne]

theorem Touched.trans (h : Touched p st st') (h' : Touched p st' st'') : Touched p st st'' where
  shape := h.shape.trans h'.shape
  block_eq i hi := (h'.block_eq i hi).trans (h.block_eq i hi)

theorem Touched.mono (h : Touched p st st') (hq : ∀ i, p i → q i) : Touched q st st' where
  shape := h.shape
  block_eq i hi := h.block_eq i fun hp => hi (hq i hp)

/-- **A layout is carried as long as block 0 is not written.** -/
theorem Carries.touched {sb : Superblock} (h : Carries st sb) (ht : Touched p st st')
    (h0 : ¬ p 0) : Carries st' sb where
  header_eq := by rw [ht.block_eq 0 h0, h.header_eq]
  fits := by rw [ht.shape.blockCount_eq, h.fits]
  blockBytes_eq := by rw [ht.shape.blockBytes_eq, h.blockBytes_eq]

section OnDevice

variable {W H : Type} [BlockDevice W H] [LawfulBlockDevice W H]

/-- **Storing a run of blocks one after the other.** -/
theorem forM_storeBlock_ends (d : H) (start : Nat) (blk : Nat → Block) {l : List Nat}
    (hl : l.Nodup) (w : W) :
    Ends (l.forM fun i => storeBlock d (start + i) (blk i)) w
      (fun _ w' => Touched (fun j => ∃ i ∈ l, j = start + i) (storage d w) (storage d w') ∧
        (∀ i ∈ l, (storage d w').block (start + i) = blk i) ∧ (NeverFails d w → NeverFails d w'))
      (fun e w' => (∃ i c, e = .io i c) ∧
        Touched (fun j => ∃ i ∈ l, j = start + i) (storage d w) (storage d w') ∧
        ((∀ i ∈ l, start + i < (storage d w).blockCount) → ¬ NeverFails d w)) := by
  induction l generalizing w with
  | nil => exact ⟨.refl _ _, fun _ h => absurd h List.not_mem_nil, id⟩
  | cons i l ih =>
    obtain ⟨hi, hl'⟩ := List.nodup_cons.mp hl
    have hfirst : ∀ blk', Touched (fun j => ∃ k ∈ i :: l, j = start + k) (storage d w)
        ((storage d w).set (start + i) blk') :=
      fun blk' => Touched.set ⟨i, List.mem_cons_self .., rfl⟩ _ _
    have hmono : ∀ j, (∃ k ∈ l, j = start + k) → ∃ k ∈ i :: l, j = start + k :=
      fun j ⟨k, hk, hj⟩ => ⟨k, List.mem_cons_of_mem _ hk, hj⟩
    show Ends (storeBlock d (start + i) (blk i) >>= fun _ =>
      l.forM fun i => storeBlock d (start + i) (blk i)) w _ _
    refine Ends.bind ((storeBlock_ends d (start + i) (blk i) w).mono ?_ ?_)
    · intro _ w' ha
      have hrest := ih hl' w'
      rw [ha.storage_eq] at hrest
      refine hrest.mono ?_ ?_
      · intro _ w'' hok
        rcases hok with ⟨ht, hb, hn⟩
        refine ⟨(hfirst _).trans (ht.mono hmono), fun k hk => ?_, fun h => hn (ha.neverFails h)⟩
        rcases List.mem_cons.mp hk with rfl | hk
        · rw [ht.block_eq _ fun ⟨k', hk', he⟩ => hi ((Nat.add_left_cancel he) ▸ hk'), block_set,
            if_pos rfl]
        · exact hb k hk
      · intro e w'' herr
        rcases herr with ⟨he, ht, hf⟩
        refine ⟨he, (hfirst _).trans (ht.mono hmono), fun hr hn => ?_⟩
        exact hf (fun k hk => hr k (List.mem_cons_of_mem _ hk)) (ha.neverFails hn)
    · intro e w' herr
      rcases herr with ⟨⟨c, rfl⟩, hf⟩
      refine ⟨⟨_, c, rfl⟩, ?_, fun hr => hf.fails (hr i (List.mem_cons_self ..))⟩
      rw [hf.storage_eq]
      exact .refl _ _

/-- The blocks of the metadata that are written back. -/
def IsMetadata (sb : Superblock) (i : Nat) : Prop := 0 < i ∧ i ≤ sb.directoryBlock.toNat

omit [BlockDevice W H] [LawfulBlockDevice W H] in
theorem not_isMetadata_zero (sb : Superblock) : ¬ IsMetadata sb 0 := fun h => Nat.lt_irrefl 0 h.1

omit [BlockDevice W H] [LawfulBlockDevice W H] in
/-- Data blocks lie behind the directory. -/
theorem not_isMetadata_dataBlock {sb : Superblock} {n : Nat} (hl : sb.LaidOut n) (b : Link) :
    ¬ IsMetadata sb (sb.dataBlock b) := by
  intro hb
  have hle := hb.2
  have hd := hl.directoryBlock_eq
  have hs := hl.dataStart_eq
  simp only [Superblock.dataBlock] at hle
  omega

/-- What stands on a storage when table and directory were written. -/
structure Flushed (st : Storage) (sb : Superblock) (t : AllocationTable) (root : Directory) :
    Prop where
  table_eq : ∀ i < sb.tableBlocks.toNat, st.block (sb.tableStart + i) = t.runBlock i
  root_eq : st.block sb.directoryBlock.toNat = root.encode

/-- Writing table and directory fails at a block or at the sync. -/
theorem flush_fails (d : H) (sb : Superblock) (t : AllocationTable) (root : Directory) (w : W) :
    Ends (do t.flush d sb; root.flush d sb; syncDevice d) w (fun _ _ => True)
      (fun e _ => (∃ i c, e = .io i c) ∨ ∃ c, e = .flushFailed (.device c)) := by
  have htable := forM_storeBlock_ends d sb.tableStart t.runBlock
    (List.nodup_range (n := sb.tableBlocks.toNat)) w
  refine Ends.bind (htable.mono (fun _ w₁ _ => ?_) fun e w₁ h => .inl h.1)
  refine Ends.bind ((storeBlock_ends d sb.directoryBlock.toNat root.encode w₁).mono
    (fun _ w₂ _ => ?_) fun e w₂ h => .inl ⟨_, h.1⟩)
  exact Ends.adaptExcept (ends_iff.mpr ⟨fun _ _ _ => trivial, fun c _ _ => .inr ⟨c, rfl⟩⟩)

/-- **Writing table and directory** touches their blocks only, and if it succeeds they stand
    there. -/
theorem flush_ends (d : H) {sb : Superblock} {n : Nat} (hl : Superblock.LaidOut sb n)
    (t : AllocationTable) (root : Directory) {w : W} (hw : (storage d w).whole) :
    Ends (do t.flush d sb; root.flush d sb; syncDevice d) w
      (fun _ w' => Touched (IsMetadata sb) (storage d w) (storage d w') ∧
        Flushed (storage d w') sb t root ∧ (NeverFails d w → NeverFails d w'))
      (fun _ w' => Touched (IsMetadata sb) (storage d w) (storage d w') ∧
        (n = (storage d w).blockCount → ¬ NeverFails d w)) := by
  have hrun : ∀ j, (∃ i ∈ List.range sb.tableBlocks.toNat, j = sb.tableStart + i) →
      IsMetadata sb j ∧ j ≠ sb.directoryBlock.toNat := by
    intro j hq
    rcases hq with ⟨i, hi, rfl⟩
    have := hl.tableBlock_lt (List.mem_range.mp hi)
    exact ⟨⟨this.1, by omega⟩, by omega⟩
  have hdir : IsMetadata sb sb.directoryBlock.toNat := by
    have := hl.directoryBlock_eq
    exact ⟨by omega, Nat.le_refl _⟩
  have htable := forM_storeBlock_ends d sb.tableStart t.runBlock
    (List.nodup_range (n := sb.tableBlocks.toNat)) w
  refine Ends.bind (htable.mono ?_ ?_)
  · intro _ w₁ hok
    rcases hok with ⟨ht₁, hb₁, hn₁⟩
    refine Ends.bind ((storeBlock_ends d sb.directoryBlock.toNat root.encode w₁).mono ?_ ?_)
    · intro _ w₂ h₂
      have ht₂ := Touched.set hdir (storage d w₁) root.encode
      rw [← h₂.storage_eq] at ht₂
      have ht := (ht₁.mono fun j hj => (hrun j hj).1).trans ht₂
      have hw₂ : (storage d w₂).whole := by
        rw [ht.shape.whole_eq]
        exact hw
      have hflushed : Flushed (storage d w₂) sb t root := by
        refine ⟨fun i hi => ?_, ?_⟩
        · have hmem := List.mem_range.mpr hi
          rw [h₂.storage_eq, block_set, if_neg (hrun _ ⟨i, hmem, rfl⟩).2]
          exact hb₁ i hmem
        · rw [h₂.storage_eq, block_set, if_pos rfl]
      refine (syncDevice_ends d hw₂).mono ?_ ?_
      · intro _ w₃ h₃
        rw [h₃.storage_eq]
        exact ⟨ht, hflushed, fun hn => h₃.neverFails (h₂.neverFails (hn₁ hn))⟩
      · intro e w₃ herr
        rcases herr with ⟨-, hf⟩
        rw [hf.storage_eq]
        exact ⟨ht, fun _ hn => hf.fails trivial (h₂.neverFails (hn₁ hn))⟩
    · intro e w₂ herr
      rcases herr with ⟨-, hf⟩
      refine ⟨?_, fun hn hnf => hf.fails ?_ (hn₁ hnf)⟩
      · rw [hf.storage_eq]
        exact ht₁.mono fun j hj => (hrun j hj).1
      · rw [ht₁.shape.blockCount_eq, ← hn]
        exact hl.directoryBlock_lt
  · intro e w₁ herr
    rcases herr with ⟨-, ht, hf⟩
    refine ⟨ht.mono fun j hj => (hrun j hj).1, fun hn => hf fun i hi => ?_⟩
    have h1 := hl.tableBlock_lt (List.mem_range.mp hi)
    have h2 := hl.directoryBlock_lt
    omega

/-! ## 2. Whole volumes -/

/-- **A superblock is read back** from the block it was put into. -/
theorem Superblock.ofBytes_padded_encode (sb : Superblock) :
    ofBytes (Block.padded sb.encode).bytes = sb := by
  have hsize : sb.encode.size ≤ blockSize := by
    rw [size_encode]
    decide
  have hext : sb.encode.extract 0 blockSize = sb.encode := by
    have := ByteArray.extract_zero_max_size (a := sb.encode) (i := blockSize)
    rwa [Nat.max_eq_left hsize] at this
  show ofBytes (sb.encode.extract 0 blockSize ++ zeros _) = sb
  rw [hext, ofBytes_encode_append]

namespace Volume

/-- **Flushing a volume** that fails is a failed flush, whatever failed. -/
theorem flush_fails (v : Volume H) (w : W) : Ends v.flush w (fun _ _ => True)
    (fun e _ => ∃ c, e.asFlushFailure = .flushFailed c) := by
  refine (FlatVolume.flush_fails v.device v.superblock v.table v.root w).mono
    (fun _ _ _ => trivial) ?_
  intro e w' herr
  rcases herr with ⟨i, c, rfl⟩ | ⟨c, rfl⟩
  · exact ⟨_, rfl⟩
  · exact ⟨_, rfl⟩

/-- The layout a device can be formatted with, if there is one. -/
def layout? (d : H) (w : W) : Option Superblock :=
  if BlockDevice.blockBytes d w = blockSize then
    Superblock.forBlockCount? (BlockDevice.blockCount d w)
  else none

theorem layout?_eq_some_iff {d : H} {w : W} {sb : Superblock} : layout? d w = some sb ↔
    (storage d w).blockBytes = blockSize ∧
      Superblock.forBlockCount? (storage d w).blockCount = some sb := by
  rw [layout?, LawfulBlockDevice.blockBytes_eq, LawfulBlockDevice.blockCount_eq]
  split
  · rename_i hb
    simp [hb]
  · rename_i hb
    simp [hb]

omit [LawfulBlockDevice W H] in
/-- A device without a layout is left as it is. -/
theorem format_of_no_layout {d : H} {w : W} (h : layout? d w = none) :
    format d w = .error .invalidGeometry w := by
  unfold format
  rw [bind_of_ok (get_run w)]
  split
  · rfl
  · rename_i hb
    rw [layout?, if_pos (Decidable.not_not.mp hb)] at h
    refine (bind_of_ok (get_run w)).trans ?_
    rw [h]
    rfl

omit [LawfulBlockDevice W H] in
/-- **Formatting stores the superblock and flushes an empty volume.** -/
theorem format_of_layout {d : H} {w : W} {sb : Superblock}
    (h : layout? d w = some sb) : format d w = (do
      sb.store d
      flush ⟨d, sb, AllocationTable.empty sb.dataBlocks.toNat, Directory.empty, OpenFiles.empty⟩
      return sb) w := by
  unfold format
  rw [bind_of_ok (get_run w)]
  split
  · rename_i hb
    rw [layout?, if_neg hb] at h
    cases h
  · rename_i hb
    rw [layout?, if_pos (Decidable.not_not.mp hb)] at h
    refine (bind_of_ok (get_run w)).trans ?_
    rw [h]
    simp only [flush, bind_assoc]

/-- **Formatting** leaves an empty volume and touches no data block; where the device has a layout,
    only a failing call stops it. -/
theorem format_ends (d : H) {w : W} (hw : (storage d w).whole) : Ends (format d) w
    (fun sb w' => Carries (storage d w') sb ∧
      Flushed (storage d w') sb (AllocationTable.empty sb.dataBlocks.toNat) Directory.empty ∧
      Touched (· ≤ sb.directoryBlock.toNat) (storage d w) (storage d w') ∧
      (NeverFails d w → NeverFails d w'))
    (fun _ _ => (storage d w).blockBytes = blockSize →
      (Superblock.forBlockCount? (storage d w).blockCount).isSome → ¬ NeverFails d w) := by
  cases hlayout : layout? d w with
  | none =>
    refine Ends.of_error (format_of_no_layout hlayout) fun hb hfit => ?_
    rw [layout?, ← LawfulBlockDevice.blockBytes_eq, ← LawfulBlockDevice.blockCount_eq,
      if_pos hb] at hlayout
    rw [hlayout] at hfit
    cases hfit
  | some sb =>
    refine Ends.of_eq (format_of_layout hlayout) ?_
    obtain ⟨hb, hfit⟩ := layout?_eq_some_iff.mp hlayout
    have hl := Superblock.laidOut_of_forBlockCount? hfit
    refine Ends.bind ((storeBlock_ends d 0 _ w).mono ?_ ?_)
    · intro _ w₁ h₁
      have hshape : SameShape (storage d w) (storage d w₁) := by
        rw [h₁.storage_eq]
        exact (SameShape.refl _).set ..
      refine Ends.bind ((flush_ends d hl (AllocationTable.empty sb.dataBlocks.toNat) Directory.empty
        (w := w₁) (by rwa [hshape.whole_eq])).mono ?_ ?_)
      · intro _ w₂ hok
        rcases hok with ⟨htouched, hflushed, hn⟩
        have hshape₂ := hshape.trans htouched.shape
        have hfirst : Touched (· ≤ sb.directoryBlock.toNat) (storage d w) (storage d w₁) := by
          rw [h₁.storage_eq]
          exact Touched.set (p := (· ≤ sb.directoryBlock.toNat)) (Nat.zero_le _) _ _
        refine ⟨⟨?_, ?_, ?_⟩, hflushed, hfirst.trans (htouched.mono fun i hi => hi.2),
          fun hnf => hn (h₁.neverFails hnf)⟩
        · rw [htouched.block_eq 0 fun h0 => absurd h0.1 (by decide), h₁.storage_eq, block_set,
            if_pos rfl, Superblock.ofBytes_padded_encode]
        · rw [hshape₂.blockCount_eq, hfit]
        · rw [hshape₂.blockBytes_eq, hb]
      · intro e w₂ herr _ _ hnf
        rcases herr with ⟨-, hn⟩
        exact hn hshape.blockCount_eq.symm (h₁.neverFails hnf)
    · intro e w₁ herr _ _
      rcases herr with ⟨-, hf⟩
      refine hf.fails ?_
      have := hl.directoryBlock_lt
      omega

/-- A device that never fails, of a size that has a layout, can be formatted. -/
theorem exists_format {d : H} {w : W} (hw : (storage d w).whole)
    (hb : (storage d w).blockBytes = blockSize)
    (hfit : (Superblock.forBlockCount? (storage d w).blockCount).isSome) (hn : NeverFails d w) :
    ∃ sb w', format d w = .ok sb w' := by
  obtain ⟨sb, w', hf, -⟩ := (format_ends d hw).exists_ok fun _ _ hfail => hfail hb hfit hn
  exact ⟨sb, w', hf⟩

/-- **What stands on a device is what is loaded from it.** -/
theorem load_of_flushed {d : H} {w : W} {sb : Superblock} {t : AllocationTable} {root : Directory}
    (hc : Carries (storage d w) sb) (hf : Flushed (storage d w) sb t root)
    (ht : t.size = sb.dataBlocks.toNat) (hr : ∀ s, (root.get s).Storable) :
    Ends (load d) w
      (fun v w' => v = ⟨d, sb, t, root, OpenFiles.empty⟩ ∧ Answered d w w' (storage d w))
      (fun _ _ => ¬ NeverFails d w) := by
  have hdecode : Directory.decode ((storage d w).block sb.directoryBlock.toNat) = .ok root := by
    rw [hf.root_eq]
    exact Directory.decode_encode hr
  refine (load_ends d w).mono ?_ ?_
  · intro p w' hok
    rcases p with ⟨dv, sbv, tv, rv, fv⟩
    rcases hok with ⟨rfl, hcv, htv, hrv, rfl, ha⟩
    obtain rfl : sbv = sb := hcv.header_eq.symm.trans hc.header_eq
    dsimp only at htv hrv
    rw [hdecode] at hrv
    rw [ofStorage_eq_of_written hc.laidOut ht hf.table_eq] at htv
    cases hrv
    exact ⟨by rw [htv], ha⟩
  · intro e w' herr
    rcases herr with ⟨-, h⟩
    exact h sb root hc hdecode

end Volume

end OnDevice

end FlatVolume
