import FlatVolume.Proofs.Safety
import FlatVolume.Proofs.Sequences

/-!
# Freeing, entry by entry

Freeing a chain takes as many steps as it finds links and remembers no blocks. It destroys the links
it has followed, so it ends on any table, and a loop shows as a block that is free when the walk comes
to it again.

What it leaves is said of the entries alone, as for the walks that change nothing:

* `Freed t t' blocks` -- the entries of `blocks` have become free, and `t'` is like `t` otherwise;
* `BreaksOff t first blocks b` -- the way from `first` passes `blocks`, each once, and comes to `b`,
  which is no block to go on from.

Where there is no chain the way breaks off (`exists_breaksOff`), and freeing reports the block at which
it does (`freeing_exact`).
-/

namespace FlatVolume.AllocationTable

open Link (free endOfChain)

variable {t t' : AllocationTable} {first a b n z : Link} {xs blocks : List Link}

/-! ## 1. What becomes free -/

/-- **The entries of `blocks` have become free,** and no others; nothing else has changed. -/
structure Freed (t t' : AllocationTable) (blocks : List Link) : Prop where
  size_eq : t'.size = t.size
  became_free : ∀ b : Link,
    t.entries[b.toNat]? ≠ some free ∧ t'.entries[b.toNat]? = some free ↔ b ∈ blocks
  frame : ∀ b ∉ blocks, t'.entries[b.toNat]? = t.entries[b.toNat]?
  entry_zero : t'.entries[0]? = t.entries[0]?
  freeCount_eq : t'.freeCount = t.freeCount + blocks.length

/-- Freeing a block in use leaves one entry more free. -/
theorem freeCount_set_free (h : t.link? b = some n) :
    (t.set b free).freeCount = t.freeCount + 1 := by
  obtain ⟨-, he, hn⟩ := link?_eq_some_iff.mp h
  obtain ⟨hlt, hb⟩ := Array.getElem?_eq_some_iff.mp he
  simp only [freeCount, set, Array.setIfInBounds, hlt, dif_pos, Array.countP_set, hb, beq_iff_eq, hn,
    if_false, beq_self_eq_true, if_true, Nat.sub_zero]

theorem Path.freeCount_freeAll (h : Path t a xs z) (hn : xs.Nodup) :
    (t.freeAll xs).freeCount = t.freeCount + xs.length := by
  induction xs generalizing t a with
  | nil => rfl
  | cons b rest ih =>
    obtain ⟨hfirst, hrest⟩ := List.nodup_cons.mp hn
    cases h with
    | step hb link tail =>
      rw [freeAll_cons, ih ((path_set_iff hfirst).mpr tail) hrest, freeCount_set_free link,
        List.length_cons]
      omega

/-- **Freeing the blocks on a path** makes free what was in use, and so entry 0 stays. -/
theorem Path.freed (h : Path t a xs z) (hn : xs.Nodup) : Freed t (t.freeAll xs) xs where
  size_eq := size_freeAll t xs
  became_free b := by
    rw [getElem?_freeAll]
    constructor
    · intro hq
      by_cases hmem : b ∈ xs ∧ b.toNat < t.size
      · exact hmem.1
      · rw [if_neg hmem] at hq
        exact absurd hq.2 hq.1
    · intro hmem
      obtain ⟨next, link⟩ := h.link_of_mem hmem
      obtain ⟨-, he, hfree⟩ := link?_eq_some_iff.mp link
      refine ⟨fun e => hfree (Option.some.inj (he.symm.trans e)), ?_⟩
      rw [if_pos ⟨hmem, lt_size_of_link? link⟩]
  frame b hb := by rw [getElem?_freeAll, if_neg fun hq => hb hq.1]
  entry_zero := by
    have hzero : (0 : Link) ∉ xs := fun hmem => by
      obtain ⟨next, link⟩ := h.link_of_mem hmem
      exact ne_zero_of_link? link rfl
    exact (getElem?_freeAll t xs 0).trans (if_neg fun hq => hzero hq.1)
  freeCount_eq := h.freeCount_freeAll hn

/-! ## 2. Where a walk breaks off -/

/-- **The way from `first` passes `blocks`, each once, and breaks off at `b`:** that is not the end, and
    it is 0, behind the table, free, or passed already. -/
structure BreaksOff (t : AllocationTable) (first : Link) (blocks : List Link) (b : Link) : Prop where
  way : Way t first blocks b
  nodup : blocks.Nodup
  ne_end : b ≠ endOfChain
  stop : b = 0 ∨ t.size ≤ b.toNat ∨ t.entries[b.toNat]? = some free ∨ b ∈ blocks

theorem link?_eq_none_iff :
    t.link? b = none ↔ b = 0 ∨ t.size ≤ b.toNat ∨ t.entries[b.toNat]? = some free := by
  by_cases hzero : b = 0
  · simp only [link?, hzero, if_true, true_or]
  · by_cases hlt : b.toNat < t.size
    · obtain ⟨e, he⟩ : ∃ e, t.entries[b.toNat]? = some e := ⟨_, Array.getElem?_eq_getElem hlt⟩
      simp [link?, hzero, he, hlt]
    · have he : t.entries[b.toNat]? = none := Array.getElem?_eq_none (Nat.le_of_not_lt hlt)
      simp [link?, he, Nat.le_of_not_lt hlt]

/-- Once `blocks` are free, no link leads from them. -/
theorem link?_freeAll_eq_none_iff :
    (t.freeAll blocks).link? b = none ↔ t.link? b = none ∨ b ∈ blocks := by
  by_cases hmem : b ∈ blocks
  · simp only [link?_freeAll_of_mem hmem, hmem, or_true]
  · have hentry : (t.freeAll blocks).entries[b.toNat]? = t.entries[b.toNat]? := by
      rw [getElem?_freeAll, if_neg fun hq => hmem hq.1]
    rw [link?_congr hentry]
    simp only [hmem, or_false]

/-- **A way breaks off where no link leads on** once the blocks passed are free. -/
theorem breaksOff_iff (hs : t.size ≤ 65535) : BreaksOff t first blocks b ↔
    Path t first blocks b ∧ blocks.Nodup ∧ b ≠ endOfChain ∧ (t.freeAll blocks).link? b = none := by
  rw [link?_freeAll_eq_none_iff, link?_eq_none_iff, or_assoc, or_assoc, ← way_iff_path hs]
  exact ⟨fun h => ⟨h.way, h.nodup, h.ne_end, h.stop⟩, fun h => ⟨h.1, h.2.1, h.2.2.1, h.2.2.2⟩⟩

/-- Freeing from where a way breaks off frees what it passed and reports where it stopped. -/
theorem BreaksOff.freeChain_eq (h : BreaksOff t first blocks b) (hs : t.size ≤ 65535) :
    freeChain first t = .error (.corruptChain b) (t.freeAll blocks) := by
  obtain ⟨hpath, hnodup, hend, hlink⟩ := (breaksOff_iff hs).mp h
  rw [hpath.freeChain_eq hnodup, freeChain_of_link?_eq_none hend hlink]

/-- **Without a chain the way breaks off.** -/
theorem exists_breaksOff (hs : t.size ≤ 65535) (h : ¬ ∃ blocks, Chain t first blocks) :
    ∃ blocks b, BreaksOff t first blocks b := by
  rcases freeChain_cases t first with ⟨blocks, hc, -⟩ | ⟨blocks, b, hpath, hnodup, hend, hlink, -⟩
  · exact absurd ⟨blocks, hc⟩ h
  · exact ⟨blocks, b, (breaksOff_iff hs).mpr ⟨hpath, hnodup, hend, hlink⟩⟩

/-- **Freeing is exact.** On a table that can be mounted its loop comes to an end and meets no index
    outside the table. It counts `n` blocks exactly if `chain` finds `n` blocks, and these have become
    free. Where `chain` finds none, the way breaks off: then what it passed has become free, and the
    block at which it breaks off is reported. -/
theorem freeing_exact (hs : t.size ≤ 65535) (first : Link) :
    Guarded.freeChain first t = some (.ok (freeChain first t)) ∧
    (∀ n, (∃ t', freeChain first t = .ok n t') ↔
      ∃ blocks, t.chain first = .ok blocks ∧ blocks.length = n) ∧
    (∀ blocks, t.chain first = .ok blocks →
      ∃ t', freeChain first t = .ok blocks.length t' ∧ Freed t t' blocks) ∧
    ((¬ ∃ blocks, t.chain first = .ok blocks) → ∃ blocks b, BreaksOff t first blocks b) ∧
    (∀ blocks b, BreaksOff t first blocks b →
      ∃ t', freeChain first t = .error (.corruptChain b) t' ∧ Freed t t' blocks) := by
  simp only [chain_eq_ok_iff]
  refine ⟨Guarded.freeChain_agrees first t, fun n => ?_, fun blocks hc => ?_, exists_breaksOff hs,
    fun blocks b h => ?_⟩
  · simp only [freeChain_eq_ok_iff]
    constructor
    · intro hq
      rcases hq with ⟨-, blocks, hc, hn, -⟩
      exact ⟨blocks, hc, hn.symm⟩
    · intro hq
      rcases hq with ⟨blocks, hc, hn⟩
      exact ⟨t.freeAll blocks, blocks, hc, hn.symm, rfl⟩
  · exact ⟨_, hc.freeChain_eq, (chain_iff_path.mp hc).freed hc.nodup⟩
  · obtain ⟨hpath, hnodup, -, -⟩ := (breaksOff_iff hs).mp h
    exact ⟨_, h.freeChain_eq hs, hpath.freed hnodup⟩

/-- From block 6 of `branched` the way comes to block 4 again, behind the blocks 6, 4 and 5, which are
    free then. The chain over the blocks 1 and 3 is freed as a whole. -/
theorem freeing_exact_branched : branched.size ≤ 65535 ∧
    BreaksOff branched 6 [6, 4, 5] 4 ∧
    (∃ t', freeChain 6 branched = .error (.corruptChain 4) t' ∧ Freed branched t' [6, 4, 5] ∧
      t'.freeCount = 4) ∧
    ∃ t', freeChain 1 branched = .ok 2 t' ∧ Freed branched t' [1, 3] := by
  have hs : branched.size ≤ 65535 := by decide
  obtain ⟨-, -, -, -, hbroken⟩ := freeing_exact hs 6
  have hpath : Path branched 6 [6, 4, 5] 4 :=
    .step (n := 4) (by decide) (by decide)
      (.step (n := 5) (by decide) (by decide) (.step (by decide) (by decide) .here))
  have hbreaks : BreaksOff branched 6 [6, 4, 5] 4 :=
    ⟨hpath.way, by decide, by decide, by decide⟩
  obtain ⟨t', hf, hfreed⟩ := hbroken _ _ hbreaks
  obtain ⟨-, -, hfound, -, -⟩ := freeing_exact hs 1
  exact ⟨hs, hbreaks, ⟨t', hf, hfreed, hfreed.freeCount_eq⟩, hfound [1, 3] (by decide)⟩

end FlatVolume.AllocationTable
