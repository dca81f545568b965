import FlatVolume.Proofs.Chains

/-!
# One file's chain replaced by another

Whatever an operation does to the allocation table, it does to the chain of one file. `Rechained t
t' old new` says that the chain over `old` gave way to a chain over `new`: blocks that are only old
are free afterwards, blocks that are only new were free before, and no other entry changed. This
file shows it for the three things that are done to a chain:

* freeing all of it (`Rechained.of_freeAll`);
* cutting it (`Rechained.of_cut`);
* growing it by the lowest free block (`Rechained.of_linked`), together with the way back
  (`unlinked_linked`).
-/

namespace FlatVolume.AllocationTable

open Link (free endOfChain)

variable {t t' t'' : AllocationTable} {first last b : Link} {blocks old mid new : List Link}

/-! ## 1. The change of one chain -/

/-- The blocks of one file were `old` and are `new`; all else in the table stayed. -/
structure Rechained (t t' : AllocationTable) (old new : List Link) : Prop where
  size_eq : t'.size = t.size
  frame : ∀ b, b ∉ old → b ∉ new → t'.entries[b.toNat]? = t.entries[b.toNat]?
  released : ∀ b ∈ old, b ∉ new → t'.link? b = none
  taken : ∀ b ∈ new, b ∉ old → t.link? b = none

theorem Rechained.refl (t : AllocationTable) (blocks : List Link) :
    Rechained t t blocks blocks where
  size_eq := rfl
  frame _ _ _ := rfl
  released _ h hn := absurd h hn
  taken _ h hn := absurd h hn

/-- Two steps of growth are one. -/
theorem Rechained.trans (h : Rechained t t' old mid) (h' : Rechained t' t'' mid new)
    (hm : old ⊆ mid) (hn : mid ⊆ new) : Rechained t t'' old new where
  size_eq := h'.size_eq.trans h.size_eq
  frame b ho hb :=
    have hmid : b ∉ mid := fun hb' => hb (hn hb')
    (h'.frame b hmid hb).trans (h.frame b ho hmid)
  released b ho hb := absurd (hn (hm ho)) hb
  taken b hb ho := by
    by_cases hmid : b ∈ mid
    · exact h.taken b hmid ho
    · rw [← link?_congr (h.frame b ho hmid)]
      exact h'.taken b hb hmid

/-- A chain that shares no block with the changed one stays. -/
theorem Rechained.chain_of_disjoint (h : Rechained t t' old new) (hc : Chain t first blocks)
    (hd : ∀ b ∈ blocks, b ∉ old) : Chain t' first blocks := by
  refine hc.congr fun b hb => link?_congr (h.frame b (hd b hb) fun hn => ?_)
  -- a block on the other chain is in use, so it was not there to be taken
  obtain ⟨n, link⟩ := hc.link_of_mem hb
  rw [h.taken b hn (hd b hb)] at link
  cases link

theorem Rechained.entry_zero (h : Rechained t t' old new) (ho : 0 ∉ old) (hn : 0 ∉ new) :
    t'.entries[0]? = t.entries[0]? :=
  h.frame 0 ho hn

/-! ## 2. Freeing and cutting -/

theorem link?_freeAll_of_mem (h : b ∈ blocks) : (t.freeAll blocks).link? b = none := by
  by_cases hlt : b.toNat < t.size
  · exact link?_of_entry_free (by rw [getElem?_freeAll, if_pos ⟨h, hlt⟩])
  · refine Option.eq_none_iff_forall_ne_some.mpr fun n hn => hlt ?_
    have := lt_size_of_link? hn
    rwa [size_freeAll] at this

/-- **Freeing a chain** leaves its file without blocks. -/
theorem Rechained.of_freeAll (t : AllocationTable) (blocks : List Link) :
    Rechained t (t.freeAll blocks) blocks [] where
  size_eq := size_freeAll t blocks
  frame b hb _ := by rw [getElem?_freeAll, if_neg fun h => hb h.1]
  released b hb _ := link?_freeAll_of_mem hb
  taken b hb := absurd hb List.not_mem_nil

/-- **Cutting a chain** behind `last` and freeing the rest leaves what stands up to `last`. -/
theorem Rechained.of_cut (t : AllocationTable) {init rest : List Link} :
    Rechained t ((t.set last endOfChain).freeAll rest) (init ++ last :: rest) (init ++ [last]) where
  size_eq := by rw [size_freeAll, size_set]
  frame b ho _ := by
    have hr : b ∉ rest := fun h => ho (by simp [h])
    have hl : b ≠ last := fun h => ho (by simp [h])
    rw [getElem?_freeAll, if_neg fun h => hr h.1, getElem?_set_of_ne hl]
  released b ho hn := by
    refine link?_freeAll_of_mem ?_
    rcases List.mem_append.mp ho with h | h
    · exact absurd (List.mem_append_left _ h) hn
    · rcases List.mem_cons.mp h with rfl | h
      · exact absurd (List.mem_append_right _ (List.mem_singleton_self _)) hn
      · exact h
  taken b hn ho := by
    refine absurd ?_ ho
    rcases List.mem_append.mp hn with h | h
    · exact List.mem_append_left _ h
    · obtain rfl := List.mem_singleton.mp h
      simp

/-- What a cut keeps is a chain when the rest is freed. -/
theorem Chain.cut_freeAll {init rest : List Link} (h : Chain t first (init ++ last :: rest)) :
    Chain ((t.set last endOfChain).freeAll rest) first (init ++ [last]) := by
  refine h.cut.1.congr fun b hb => link?_congr ?_
  have hr : b ∉ rest := by
    intro hr
    have hd := (List.nodup_append.mp h.nodup)
    rcases List.mem_append.mp hb with hi | hl
    · exact hd.2.2 b hi b (List.mem_cons_of_mem _ hr) rfl
    · obtain rfl := List.mem_singleton.mp hl
      exact (List.nodup_cons.mp hd.2.1).1 hr
  rw [getElem?_freeAll, if_neg fun h => hr h.1]

/-! ## 3. The lowest free block -/

/-- **The lowest free block is free, and no data block below it is.** -/
theorem lowestFree?_eq_some_iff {i : Nat} : t.lowestFree? = some i ↔
    1 ≤ i ∧ t.entries[i]? = some free ∧ ∀ j, 1 ≤ j → j < i → t.entries[j]? ≠ some free := by
  have hx : ∀ j : Nat, (t.entries.extract 1 t.size)[j]? = t.entries[j + 1]? := by
    intro j
    rw [Array.getElem?_extract, Nat.add_comm 1 j]
    by_cases hj : j + 1 < t.entries.size
    · rw [if_pos (by simp only [size]; omega)]
    · rw [if_neg (by simp only [size]; omega), Array.getElem?_eq_none (by omega)]
  rw [lowestFree?, Option.map_eq_some_iff]
  simp only [Array.findIdx?_eq_some_iff_getElem]
  constructor
  · intro hq
    rcases hq with ⟨k, ⟨hk, hp, hmin⟩, rfl⟩
    have hk' := hx k
    rw [Array.getElem?_eq_getElem hk, eq_of_beq hp] at hk'
    refine ⟨by omega, hk'.symm, fun j h1 hj he => ?_⟩
    have hj' := hx (j - 1)
    rw [Nat.sub_add_cancel h1, he, Array.getElem?_eq_getElem (by omega)] at hj'
    exact hmin (j - 1) (by omega) (by simpa using Option.some.inj hj')
  · intro hq
    rcases hq with ⟨h1, he, hmin⟩
    have hi := hx (i - 1)
    rw [Nat.sub_add_cancel h1, he] at hi
    obtain ⟨hlt, hv⟩ := Array.getElem?_eq_some_iff.mp hi
    refine ⟨i - 1, ⟨hlt, by simp [hv], fun j hj hp => ?_⟩, by omega⟩
    refine hmin (j + 1) (by omega) (by omega) ?_
    rw [← hx j, Array.getElem?_eq_getElem (by omega), eq_of_beq hp]

theorem lowestFree?_eq_none_iff :
    t.lowestFree? = none ↔ ∀ i, 1 ≤ i → t.entries[i]? ≠ some free := by
  constructor
  · intro h i
    -- the lowest free position above 0, if there is any at all
    induction i using Nat.strongRecOn with
    | ind i ih =>
      intro h1 he
      have := lowestFree?_eq_some_iff.mpr ⟨h1, he, fun j hj hji => ih j hji hj⟩
      rw [h] at this
      cases this
  · intro h
    refine Option.eq_none_iff_forall_ne_some.mpr fun i hi => ?_
    obtain ⟨h1, he, -⟩ := lowestFree?_eq_some_iff.mp hi
    exact h i h1 he

/-- A block of the table that may be handed out. -/
structure FreeBlock (t : AllocationTable) (b : Link) : Prop where
  ne_zero : b ≠ 0
  ne_end : b ≠ endOfChain
  lt_size : b.toNat < t.size
  entry_eq : t.entries[b.toNat]? = some free

theorem FreeBlock.link? (h : FreeBlock t b) : t.link? b = none := link?_of_entry_free h.entry_eq

theorem FreeBlock.notMem (h : FreeBlock t b) (hc : Chain t first blocks) : b ∉ blocks := by
  intro hb
  obtain ⟨n, link⟩ := hc.link_of_mem hb
  rw [h.link?] at link
  cases link

theorem freeBlock_of_lowestFree? (hs : t.size ≤ 65535) (h : t.lowestFree? = some b.toNat) :
    FreeBlock t b := by
  obtain ⟨h1, he, -⟩ := lowestFree?_eq_some_iff.mp h
  obtain ⟨hlt, -⟩ := Array.getElem?_eq_some_iff.mp he
  refine ⟨fun e => ?_, fun e => ?_, hlt, he⟩
  · subst e
    exact absurd h1 (by decide)
  · subst e
    have : (endOfChain : Link).toNat = 65535 := rfl
    simp only [size] at hs
    omega

/-- **Taking a block** gives the lowest free one, or fails if there is none. -/
theorem allocate_cases (hs : t.size ≤ 65535) :
    (∃ b, t.lowestFree? = some b.toNat ∧ allocate t = .ok b (t.set b endOfChain)) ∨
      (t.lowestFree? = none ∧ allocate t = .error .diskFull t) := by
  cases h : t.lowestFree? with
  | none => exact .inr ⟨rfl, by simp only [allocate, h]⟩
  | some i =>
    obtain ⟨hlt, -⟩ := Array.getElem?_eq_some_iff.mp (lowestFree?_eq_some_iff.mp h).2.1
    have hi : (UInt16.ofNat i).toNat = i := by
      rw [UInt16.toNat_ofNat']
      simp only [size] at hs
      omega
    refine .inl ⟨UInt16.ofNat i, by rw [hi], ?_⟩
    simp only [allocate, h, set, hi]

/-! ## 4. Growing a chain by a block -/

/-- The table after the free block `b` was put behind the last of `blocks`. -/
def linked (t : AllocationTable) (blocks : List Link) (b : Link) : AllocationTable :=
  match blocks.getLast? with
  | some last => (t.set b endOfChain).set last b
  | none => t.set b endOfChain

@[simp] theorem size_linked (t : AllocationTable) (blocks : List Link) (b : Link) :
    (t.linked blocks b).size = t.size := by
  unfold linked
  split <;> simp

/-- The first block of a chain over `blocks` that is grown by `b`. -/
def grownFirst (first : Link) (blocks : List Link) (b : Link) : Link :=
  if blocks = [] then b else first

/-- **The grown chain.** -/
theorem Chain.linked (h : Chain t first blocks) (hb : FreeBlock t b) :
    Chain (t.linked blocks b) (grownFirst first blocks b) (blocks ++ [b]) := by
  have hlink : (t.set b endOfChain).link? b = some endOfChain :=
    link?_set_self hb.ne_zero hb.lt_size (by decide)
  have hmem := hb.notMem h
  rcases List.eq_nil_or_concat blocks with rfl | ⟨init, last, rfl⟩
  · exact .step hb.ne_end hlink .done
  · rw [List.concat_eq_append] at h hmem ⊢
    have hg : grownFirst first (init ++ [last]) b = first := by simp [grownFirst]
    rw [AllocationTable.linked, List.getLast?_concat, hg]
    exact Chain.extended ((chain_set_iff hmem).mpr h) hlink hmem hb.ne_end

theorem Rechained.of_linked (hb : FreeBlock t b) :
    Rechained t (t.linked blocks b) blocks (blocks ++ [b]) where
  size_eq := size_linked t blocks b
  frame c hc hn := by
    have hcb : c ≠ b := fun e => hn (by simp [e])
    unfold AllocationTable.linked
    split
    · rename_i last hl
      have hcl : c ≠ last := fun e => hc (e ▸ List.mem_of_getLast? hl)
      rw [getElem?_set_of_ne hcl, getElem?_set_of_ne hcb]
    · rw [getElem?_set_of_ne hcb]
  released c hc hn := absurd (List.mem_append_left _ hc) hn
  taken c hc hn := by
    rcases List.mem_append.mp hc with h | h
    · exact absurd h hn
    · obtain rfl := List.mem_singleton.mp h
      exact hb.link?

/-- The last block of a chain is the one whose entry is the end. -/
theorem Chain.entry_last (h : Chain t first blocks) (hl : blocks.getLast? = some last) :
    t.entries[last.toNat]? = some endOfChain := by
  obtain ⟨init, rfl⟩ : ∃ init, blocks = init ++ [last] := by
    rcases List.eq_nil_or_concat blocks with rfl | ⟨init, x, rfl⟩
    · cases hl
    · rw [List.concat_eq_append, List.getLast?_concat] at hl
      exact ⟨init, by rw [Option.some.inj hl, List.concat_eq_append]⟩
  obtain ⟨-, -, n, link, tail⟩ := Path.append_cons_iff.mp (chain_iff_path.mp h)
  cases tail
  exact (link?_eq_some_iff.mp link).2.1

theorem set_of_entry_eq {v : Link} (h : t.entries[b.toNat]? = some v) : t.set b v = t := by
  refine ext_getElem? fun i => ?_
  rw [getElem?_set]
  split
  · rename_i hi
    rw [hi.1, h]
  · rfl

theorem set_set (t : AllocationTable) (b v w : Link) : (t.set b v).set b w = t.set b w := by
  refine ext_getElem? fun i => ?_
  simp only [getElem?_set, size_set]
  split <;> rfl

theorem set_comm {c v w : Link} (h : b ≠ c) : (t.set b v).set c w = (t.set c w).set b v := by
  have hn : b.toNat ≠ c.toNat := fun e => h (UInt16.toNat_inj.mp e)
  refine ext_getElem? fun i => ?_
  simp only [getElem?_set, size_set]
  by_cases hb : i = b.toNat
  · subst hb
    simp [hn]
  · simp [hb]

/-- **Taking the new block off again** gives back the table as it was, entry by entry. -/
theorem unlinked_linked (h : Chain t first blocks) (hb : FreeBlock t b) :
    (match blocks.getLast? with
      | some last => ((t.linked blocks b).set last endOfChain).set b free
      | none => (t.linked blocks b).set b free) = t := by
  unfold AllocationTable.linked
  cases hl : blocks.getLast? with
  | none => exact (set_set t b _ _).trans (set_of_entry_eq hb.entry_eq)
  | some last =>
    have hne : b ≠ last := fun e => hb.notMem h (e ▸ List.mem_of_getLast? hl)
    show (((t.set b endOfChain).set last b).set last endOfChain).set b free = t
    rw [set_set, set_comm (Ne.symm hne), set_set, set_of_entry_eq hb.entry_eq,
      set_of_entry_eq (h.entry_last hl)]

end FlatVolume.AllocationTable
