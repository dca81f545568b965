import FlatVolume.Proofs.Walks

/-!
# The walks, entry by entry

What a walk has to find, said of the entries alone: from `first` on each entry names the block that
comes next, every block on the way is a data block whose entry is not free, and the last entry says
that the file ends (`Sequence`). There is no walking in this and nothing is counted. A way may also
lead to any other block (`Way`), as a path does (`way_iff_path`).

On every table that can be mounted the sequences are the chains (`sequence_iff_chain`), so `chain`
finds them and reports everything else, loops of any shape included, and `nthBlock` counts along them
(`walks_exact`).
-/

namespace FlatVolume.AllocationTable

open Link (free endOfChain)

variable {t : AllocationTable} {first b z : Link} {blocks : List Link} {i j n : Nat}

/-- **`blocks` is what lies on the way from `first` to the end,** as the entries say. -/
structure Sequence (t : AllocationTable) (first : Link) (blocks : List Link) : Prop where
  first_eq : first = blocks[0]?.getD endOfChain
  inside : ∀ b ∈ blocks, 1 ≤ b.toNat ∧ b.toNat ≤ t.size - 1
  used : ∀ b ∈ blocks, t.entries[b.toNat]? ≠ some free
  next_eq : ∀ {i : Nat} {b : Link}, blocks[i]? = some b →
    t.entries[b.toNat]? = some (blocks[i + 1]?.getD endOfChain)

/-- `blocks` is what lies on the way from `first` to `z`, which may be any block. -/
structure Way (t : AllocationTable) (first : Link) (blocks : List Link) (z : Link) : Prop where
  first_eq : first = blocks[0]?.getD z
  inside : ∀ b ∈ blocks, 1 ≤ b.toNat ∧ b.toNat ≤ t.size - 1
  used : ∀ b ∈ blocks, t.entries[b.toNat]? ≠ some free
  next_eq : ∀ {i : Nat} {b : Link}, blocks[i]? = some b →
    t.entries[b.toNat]? = some (blocks[i + 1]?.getD z)

theorem sequence_iff_way : Sequence t first blocks ↔ Way t first blocks endOfChain :=
  ⟨fun h => ⟨h.first_eq, h.inside, h.used, h.next_eq⟩,
    fun h => ⟨h.first_eq, h.inside, h.used, h.next_eq⟩⟩

namespace Way

/-- Behind its first block a way goes on as one. -/
theorem tail (h : Way t first (b :: blocks) z) : Way t (blocks[0]?.getD z) blocks z where
  first_eq := rfl
  inside c hc := h.inside c (List.mem_cons_of_mem _ hc)
  used c hc := h.used c (List.mem_cons_of_mem _ hc)
  next_eq {i c} hc := h.next_eq (i := i + 1) (b := c) hc

/-- The first block of a way leads to the second, or to where the way leads. -/
theorem link? (h : Way t first (b :: blocks) z) : t.link? b = some (blocks[0]?.getD z) := by
  have hmem : b ∈ b :: blocks := List.mem_cons_self ..
  have hentry : t.entries[b.toNat]? = some (blocks[0]?.getD z) := h.next_eq (i := 0) (b := b) rfl
  refine link?_eq_some_iff.mpr ⟨?_, hentry, fun hfree => ?_⟩
  · rintro rfl
    exact absurd (h.inside 0 hmem).1 (by decide)
  · exact h.used b hmem (hfree ▸ hentry)

end Way

theorem Path.way (h : Path t first blocks z) : Way t first blocks z := by
  induction h with
  | here => exact ⟨rfl, nofun, nofun, nofun⟩
  | @step b next z rest hb link tail ih =>
    obtain ⟨hzero, hentry, hfree⟩ := link?_eq_some_iff.mp link
    have hpos : b.toNat ≠ 0 := fun e => hzero (UInt16.toNat_inj.mp e)
    have hlt := lt_size_of_link? link
    refine ⟨rfl, fun c hc => ?_, fun c hc => ?_, fun {i c} hc => ?_⟩
    · rcases List.mem_cons.mp hc with rfl | hc
      · omega
      · exact ih.inside c hc
    · rcases List.mem_cons.mp hc with rfl | hc
      · rw [hentry]
        exact fun e => hfree (Option.some.inj e)
      · exact ih.used c hc
    · cases i with
      | zero =>
        obtain rfl : b = c := Option.some.inj hc
        rw [hentry, ih.first_eq]
        rfl
      | succ i => exact ih.next_eq (i := i) hc

/-- **In a table that can be mounted the ways are the paths:** the end is no data block, so no walk
    stops within one. -/
theorem way_iff_path (hs : t.size ≤ 65535) : Way t first blocks z ↔ Path t first blocks z := by
  refine ⟨fun h => ?_, Path.way⟩
  induction blocks generalizing first with
  | nil =>
    obtain rfl : first = z := h.first_eq
    exact .here
  | cons b rest ih =>
    obtain rfl : first = b := h.first_eq
    exact .step (ne_endOfChain_of_isDataBlock hs (isDataBlock_of_link? h.link?)) h.link? (ih h.tail)

theorem Chain.sequence (h : Chain t first blocks) : Sequence t first blocks :=
  sequence_iff_way.mpr (chain_iff_path.mp h).way

/-- **In a table that can be mounted the sequences are the chains.** -/
theorem sequence_iff_chain (hs : t.size ≤ 65535) : Sequence t first blocks ↔ Chain t first blocks :=
  sequence_iff_way.trans ((way_iff_path hs).trans chain_iff_path.symm)

/-- Past the end of a chain there is no way further. -/
theorem Chain.nthBlock_of_lt (h : Chain t first blocks) (hn : blocks.length < n) :
    t.nthBlock first n = .error (.corruptChain endOfChain) := by
  induction h generalizing n with
  | done =>
    obtain ⟨k, rfl⟩ := Nat.exists_eq_succ_of_ne_zero (Nat.ne_of_gt hn)
    rw [nthBlock, if_pos rfl]
  | step hb link _ ih =>
    obtain ⟨k, rfl⟩ := Nat.exists_eq_succ_of_ne_zero (Nat.ne_of_gt (Nat.zero_lt_of_lt hn))
    rw [nthBlock, if_neg hb, next_eq_ok_iff.mpr link]
    exact ih (Nat.lt_of_succ_lt_succ hn)

/-- **Along a chain no block is reached twice,** and neither is the end: what is left of the chain says
    how much of it was walked. -/
theorem Chain.nthBlock_inj (h : Chain t first blocks) (hi : t.nthBlock first i = .ok b)
    (hj : t.nthBlock first j = .ok b) : i = j := by
  obtain ⟨xs, hx, rfl⟩ := nthBlock_eq_ok_iff.mp hi
  obtain ⟨ys, hy, rfl⟩ := nthBlock_eq_ok_iff.mp hj
  obtain ⟨rest, rfl, hrest⟩ := hx.rest_of_chain h
  obtain ⟨rest', heq, hrest'⟩ := hy.rest_of_chain h
  obtain rfl := hrest.unique hrest'
  have hlength := congrArg List.length heq
  simp only [List.length_append] at hlength
  omega

/-- What is no chain is reported by both walks that collect blocks. -/
theorem exists_chain_error (h : ¬ ∃ blocks, Chain t first blocks) : ∃ b,
    t.chain first = .error (.corruptChain b) ∧ t.chainLength first = .error (.corruptChain b) := by
  cases hc : t.chain first with
  | ok blocks => exact absurd ⟨blocks, chain_eq_ok_iff.mp hc⟩ h
  | error e =>
    obtain ⟨b, rfl⟩ := walk_eq_error hc
    refine ⟨b, rfl, ?_⟩
    rw [chainLength, hc]
    rfl

/-- **The walks are exact.** On a table that can be mounted, `chain` finds the sequence from `first`
    to the end where there is one. It has no block twice, `chainLength` is its length, and `nthBlock`
    counts along it, to its end and not further. Where there is none both report a corrupt chain; and
    there is none where counting off links leads to one block twice. -/
theorem walks_exact (hs : t.size ≤ 65535) (first : Link) :
    (∀ blocks, t.chain first = .ok blocks ↔ t.Sequence first blocks) ∧
    (∀ blocks, t.Sequence first blocks →
      blocks.Nodup ∧ (0 < t.size → blocks.length ≤ t.size - 1) ∧
      (blocks = [] ↔ first = endOfChain) ∧
      t.chainLength first = .ok blocks.length ∧
      (∀ {n b}, blocks[n]? = some b → t.nthBlock first n = .ok b) ∧
      t.nthBlock first blocks.length = .ok endOfChain ∧
      ∀ n, blocks.length < n → t.nthBlock first n = .error (.corruptChain endOfChain)) ∧
    ((¬ ∃ blocks, t.Sequence first blocks) → ∃ b,
      t.chain first = .error (.corruptChain b) ∧ t.chainLength first = .error (.corruptChain b)) ∧
    (∀ {i j b}, i < j → t.nthBlock first i = .ok b → t.nthBlock first j = .ok b →
      ¬ ∃ blocks, t.Sequence first blocks) := by
  simp only [sequence_iff_chain hs]
  refine ⟨fun blocks => chain_eq_ok_iff, fun blocks h => ?_, exists_chain_error,
    fun hlt hi hj => ?_⟩
  · refine ⟨h.nodup, fun hpos => ?_, ⟨fun he => Chain.nil_iff.mp (he ▸ h), fun he => ?_⟩, ?_,
      fun {n b} hn => ?_, ?_, fun n => h.nthBlock_of_lt⟩
    · have := length_lt_of_nodup h.nodup (fun b hb => ⟨h.ne_zero hb, h.lt_size hb⟩) hpos
      omega
    · exact h.unique (Chain.nil_iff.mpr he)
    · rw [chainLength, chain_eq_ok_iff.mpr h]
      rfl
    · obtain ⟨hlt, -⟩ := List.getElem?_eq_some_iff.mp hn
      rw [h.nthBlock_eq (Nat.le_of_lt hlt), hn]
      rfl
    · rw [h.nthBlock_eq (Nat.le_refl _), List.getElem?_eq_none (Nat.le_refl _)]
      rfl
  · intro hq
    rcases hq with ⟨blocks, h⟩
    exact absurd (h.nthBlock_inj hi hj) (Nat.ne_of_lt hlt)

/-- A table with a chain, from data block 1 over block 3, and with a loop of the blocks 4 and 5 that
    block 6 leads into. -/
def branched : AllocationTable := ⟨#[endOfChain, 3, free, endOfChain, 5, 4, 4]⟩

/-- The chain is found, and counted along to its end; from block 6 links lead to block 4 twice. -/
theorem walks_exact_branched : branched.size ≤ 65535 ∧
    branched.Sequence 1 [1, 3] ∧ branched.nthBlock 1 2 = .ok endOfChain ∧
    branched.nthBlock 1 3 = .error (.corruptChain endOfChain) ∧
    branched.nthBlock 6 1 = .ok 4 ∧ branched.nthBlock 6 3 = .ok 4 ∧
    ∃ b, branched.chain 6 = .error (.corruptChain b) := by
  have hs : branched.size ≤ 65535 := by decide
  obtain ⟨hfound, hexact, -, -⟩ := walks_exact hs 1
  have hsequence : branched.Sequence 1 [1, 3] := (hfound _).mp (by decide)
  obtain ⟨-, -, -, -, -, hend, hpast⟩ := hexact _ hsequence
  obtain ⟨-, -, hnone, hloop⟩ := walks_exact hs 6
  have hfour : branched.nthBlock 6 1 = .ok 4 := by decide
  have hagain : branched.nthBlock 6 3 = .ok 4 := by decide
  obtain ⟨b, hb, -⟩ := hnone (hloop (by decide) hfour hagain)
  exact ⟨hs, hsequence, hend, hpast 3 (by decide), hfour, hagain, b, hb⟩

end FlatVolume.AllocationTable
