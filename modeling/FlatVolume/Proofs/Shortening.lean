import FlatVolume.Proofs.Calls
import FlatVolume.Proofs.Intact
import FlatVolume.Proofs.Rechaining
import FlatVolume.Proofs.Tidiness

/-!
# Shortening and removing files

What `truncate` does, as one equation on any volume (`truncate_run`, `cutChain_succ_run`). However it
ends, the file was cut down to the new size or nothing has changed (`truncate_cuts`). On an intact
volume the first blocks of the file's chain are left, as many as the new size needs, and the others
are free (`truncate_run_of_intact`). Removing a file frees all of its chain (`freeChain_of_intact`).
-/

namespace FlatVolume

open AllocationTable FlatVolume.Computation
open Link (free endOfChain)

variable {W H : Type}

namespace AllocationTable

variable {t : AllocationTable} {first b : Link}

/-- **Freeing a chain keeps the size of the table,** however far it comes. -/
theorem freeChain_ends (first : Link) (t : AllocationTable) :
    Ends (freeChain first) t (fun _ t' => t'.size = t.size) fun _ t' => t'.size = t.size := by
  unfold Ends
  rcases freeChain_cases t first with ⟨blocks, -, hf⟩ | ⟨blocks, b, -, -, -, -, hf⟩
  · rw [hf]
    exact size_freeAll t blocks
  · rw [hf]
    exact size_freeAll t blocks

theorem cutAfter_of_entry (h : t.entries[first.toNat]? = some b) :
    cutAfter first t = .ok b (t.set first endOfChain) := by
  simp only [cutAfter, h]

end AllocationTable

namespace Mounted

variable {m : Mounted W H} {slot : Slot} {fd size : Nat} {f : OpenFile}

/-- The volume after the file in `slot`, which is called `name`, was shortened to `size` bytes. -/
def shortened (m : Mounted W H) (slot : Slot) (name : String) (size : Nat) (t : AllocationTable) :
    Mounted W H :=
  { m with volume := { m.volume with
      table := t
      root := m.volume.root.set slot { m.volume.root.get slot with size }
      files := m.volume.files.clamp name size } }

/-- The file in `slot` after it was shortened, with the table `t` and the first block `first`. -/
def cutDown (m : Mounted W H) (slot : Slot) (name : String) (size : Nat) (first : Link)
    (t : AllocationTable) : Mounted W H :=
  { m with volume := { m.volume with
      table := t
      root := m.volume.root.set slot ⟨(m.volume.root.get slot).name, size, first⟩
      files := m.volume.files.clamp name size } }

/-- The size is entered after the chain was cut. -/
theorem shortened_of_cut (m : Mounted W H) (slot : Slot) (name : String) (size : Nat) (first : Link)
    (t t' : AllocationTable) : ({ m with volume := { m.volume with
      table := t
      root := m.volume.root.set slot { m.volume.root.get slot with firstBlock := first } } } :
      Mounted W H).shortened slot name size t' = m.cutDown slot name size first t' := by
  simp only [shortened, cutDown, Directory.set_set, Directory.get_set_self]

/-- **Shortening** looks at the new size first, then cuts, then enters the size, then frees. -/
theorem truncate_run (fd size : Nat) (m : Mounted W H) : truncate fd size m =
    match m.volume.resolve fd with
    | .error e => .error e m
    | .ok (f, slot) =>
      if (m.volume.root.get slot).size < size then
        .error (.offsetOutOfRange size (m.volume.root.get slot).size) m
      else match cutChain slot (ceilDiv size blockSize) m with
        | .error e m' => .error e m'
        | .ok released m' => match freeChain released m'.volume.table with
          | .ok _ t => .ok () (m'.shortened slot f.name size t)
          | .error e t => .error e (m'.shortened slot f.name size t) := by
  unfold truncate
  rw [bind_of_ok (getVolume_run m)]
  cases m.volume.resolve fd with
  | error e => rfl
  | ok p =>
    obtain ⟨f, slot⟩ := p
    rw [bind_of_ok (lookup_eq_ok_iff.mpr ⟨rfl, rfl⟩)]
    dsimp only
    by_cases h : (m.volume.root.get slot).size < size
    · rw [if_pos h, if_pos h]
      rfl
    · rw [if_neg h, if_neg h]
      cases hc : cutChain slot (ceilDiv size blockSize) m with
      | error e m' => rw [bind_of_error hc]
      | ok released m' =>
        rw [bind_of_ok hc]
        refine (bind_of_ok (modifyVolume_run _ _)).trans
          ((bind_of_ok (modifyVolume_run _ _)).trans ?_)
        rw [discard_freeChain_run]
        rfl

/-- **Cutting a chain that is kept in part:** its new last block is found by counting off links, and
    is cut off if it is a data block. -/
theorem cutChain_succ_run (slot : Slot) (k : Nat) (m : Mounted W H) : cutChain slot (k + 1) m =
    match m.volume.table.nthBlock (m.volume.root.get slot).firstBlock k with
    | .error e => .error e m
    | .ok last =>
      if m.volume.table.isDataBlock last then
        .ok (m.volume.table.entries[last.toNat]?.getD free)
          { m with volume := { m.volume with table := m.volume.table.set last endOfChain } }
      else .error (.corruptChain last) m := by
  unfold cutChain
  rw [bind_of_ok (getVolume_run m)]
  dsimp only
  cases m.volume.table.nthBlock (m.volume.root.get slot).firstBlock k with
  | error e => rw [bind_of_error (lookup_eq_error_iff.mpr ⟨rfl, rfl⟩)]
  | ok last =>
    rw [bind_of_ok (lookup_eq_ok_iff.mpr ⟨rfl, rfl⟩)]
    dsimp only
    by_cases hb : m.volume.table.isDataBlock last
    · obtain ⟨old, he⟩ := exists_entry_of_isDataBlock hb
      rw [if_pos hb, if_pos hb, he]
      exact onTable_eq_ok_iff.mpr ⟨_, cutAfter_of_entry he, rfl⟩
    · rw [if_neg hb, if_neg hb]
      rfl

/-- **Cutting a chain** changes links and perhaps the first block of the file, or nothing. -/
theorem cutChain_ends (slot : Slot) (keep : Nat) (m : Mounted W H) : Ends (cutChain slot keep) m
    (fun _ m' => ∃ t first, t.size = m.volume.table.size ∧ m' = { m with volume := { m.volume with
      table := t
      root := m.volume.root.set slot { m.volume.root.get slot with firstBlock := first } } })
    (fun _ m' => m' = m) := by
  cases keep with
  | zero => exact ⟨m.volume.table, endOfChain, rfl, rfl⟩
  | succ k =>
    rw [Ends, cutChain_succ_run]
    cases m.volume.table.nthBlock (m.volume.root.get slot).firstBlock k with
    | error e => rfl
    | ok last =>
      dsimp only
      by_cases hb : m.volume.table.isDataBlock last
      · rw [if_pos hb]
        exact ⟨_, _, size_set _ _ _, by rw [Directory.set_eta]⟩
      · rw [if_neg hb]

/-- **However a truncate ends,** the file was cut down, or nothing has changed. -/
theorem truncate_cuts (fd size : Nat) (m : Mounted W H) : Ends (truncate fd size) m
    (fun _ m' => m' = m ∨ ∃ f slot first t, m.volume.resolve fd = .ok (f, slot) ∧
      size ≤ (m.volume.root.get slot).size ∧ t.size = m.volume.table.size ∧
      m' = m.cutDown slot f.name size first t)
    (fun _ m' => m' = m ∨ ∃ f slot first t, m.volume.resolve fd = .ok (f, slot) ∧
      size ≤ (m.volume.root.get slot).size ∧ t.size = m.volume.table.size ∧
      m' = m.cutDown slot f.name size first t) := by
  rw [Ends, truncate_run]
  cases hr : m.volume.resolve fd with
  | error e => exact .inl rfl
  | ok p =>
    obtain ⟨f, slot⟩ := p
    dsimp only
    by_cases hsize : (m.volume.root.get slot).size < size
    · rw [if_pos hsize]
      exact .inl rfl
    · rw [if_neg hsize]
      have hle := Nat.le_of_not_lt hsize
      have hcut := cutChain_ends slot (ceilDiv size blockSize) m
      unfold Ends at hcut
      cases hc : cutChain slot (ceilDiv size blockSize) m with
      | error e m' =>
        simp only [hc] at hcut ⊢
        exact .inl hcut
      | ok released m' =>
        simp only [hc] at hcut ⊢
        obtain ⟨t, first, hts, rfl⟩ := hcut
        have hfree := freeChain_ends released t
        unfold Ends at hfree
        cases hf : freeChain released t with
        | ok k t' =>
          simp only [hf, shortened_of_cut] at hfree ⊢
          exact .inr ⟨f, slot, first, t', rfl, hle, hfree.trans hts, rfl⟩
        | error e t' =>
          simp only [hf, shortened_of_cut] at hfree ⊢
          exact .inr ⟨f, slot, first, t', rfl, hle, hfree.trans hts, rfl⟩

/-- **Cutting a sound chain** behind its first `keep` blocks gives the chain of the others; once
    those are freed, the file has the blocks that were kept. -/
theorem cutChain_of_chain {keep : Nat} {blocks : List Link}
    (hc : Chain m.volume.table (m.volume.root.get slot).firstBlock blocks)
    (hk : keep ≤ blocks.length) :
    ∃ released t first, cutChain slot keep m = .ok released { m with volume := { m.volume with
        table := t
        root := m.volume.root.set slot { m.volume.root.get slot with firstBlock := first } } } ∧
      Chain t released (blocks.drop keep) ∧
      Rechained m.volume.table (t.freeAll (blocks.drop keep)) blocks (blocks.take keep) ∧
      Chain (t.freeAll (blocks.drop keep)) first (blocks.take keep) := by
  cases keep with
  | zero =>
    refine ⟨(m.volume.root.get slot).firstBlock, m.volume.table, endOfChain, rfl, hc, ?_, .done⟩
    exact Rechained.of_freeAll m.volume.table blocks
  | succ k =>
    have hlt : k < blocks.length := hk
    have hn := hc.nthBlock_eq (Nat.le_of_lt hlt)
    rw [List.getElem?_eq_getElem hlt, Option.getD_some] at hn
    have hsplit : blocks = blocks.take k ++ blocks[k] :: blocks.drop (k + 1) := by
      rw [← List.drop_eq_getElem_cons hlt, List.take_append_drop]
    have htake : blocks.take (k + 1) = blocks.take k ++ [blocks[k]] := by
      rw [List.take_append_getElem hlt]
    obtain ⟨next, link⟩ := hc.link_of_mem (List.getElem_mem hlt)
    have hc' := hc
    rw [hsplit] at hc'
    obtain ⟨-, released, he, hrest⟩ := hc'.cut
    refine ⟨released, m.volume.table.set blocks[k] endOfChain,
      (m.volume.root.get slot).firstBlock, ?_, hrest, ?_, ?_⟩
    · rw [cutChain_succ_run, hn]
      dsimp only
      rw [if_pos (isDataBlock_of_link? link), he, Directory.set_eta, Option.getD_some]
    · rw [htake]
      conv =>
        arg 3
        rw [hsplit]
      exact Rechained.of_cut m.volume.table
    · rw [htake]
      exact hc'.cut_freeAll

/-- **Shortening a file of an intact volume succeeds** whenever the file is long enough. The file
    keeps the first of its blocks, as many as it still needs, and the others are free. -/
theorem truncate_run_of_intact {own : Slot → List Link} (h : m.volume.Intact own)
    (hf : m.volume.files.get? fd = some f) (hs : m.volume.root.find? f.name = some slot)
    (hle : size ≤ (m.volume.root.get slot).size) :
    ∃ t first, truncate fd size m = .ok () { m with volume := { m.volume with
        table := t
        root := m.volume.root.set slot ⟨(m.volume.root.get slot).name, size, first⟩
        files := m.volume.files.clamp f.name size } } ∧
      Rechained m.volume.table t (own slot) ((own slot).take (ceilDiv size blockSize)) ∧
      Chain t first ((own slot).take (ceilDiv size blockSize)) := by
  obtain ⟨slot', hr, hs', -⟩ := h.resolve_eq hf
  obtain rfl : slot = slot' := Option.some.inj (hs.symm.trans hs')
  have hk : ceilDiv size blockSize ≤ (own slot).length := by
    rw [h.length_eq]
    exact ceilDiv_mono hle
  obtain ⟨released, t, first, hcut, hrest, hrech, hchain⟩ :=
    cutChain_of_chain (h.allotment.chain slot) hk
  refine ⟨_, first, ?_, hrech, hchain⟩
  rw [truncate_run, hr]
  dsimp only
  rw [if_neg (Nat.not_lt_of_le hle), hcut]
  dsimp only
  rw [hrest.freeChain_eq]
  simp only [shortened, Directory.set_set, Directory.get_set_self]

end Mounted

end FlatVolume
