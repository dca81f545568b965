import FlatVolume.Proofs.Shortening

/-!
# Walks on any table

The table that was mounted may hold anything: links may run in a loop, into a free block or out of
the table. What the walks do there is said with paths:

* counting off links (`nthBlock_eq_ok_iff`) finds where a path of that many links leads, and knows
  no loops;
* freeing (`freeChain_eq_ok_iff`) succeeds on chains and on nothing else;
* `OnLoop t b` -- links lead from `b` back to `b`. No block of a chain is on a loop
  (`Chain.not_onLoop`). Where a loop is cut behind `b`, what was cut off runs back to `b`
  (`OnLoop.chain_of_cut`), and freeing it frees `b` as well (`cut_freeChain_ends`);
* `Trail t first blocks` -- links lead from `first` over `blocks`, and the last of these is a data
  block, in use or not. Trails run along the chain, where there is one (`Trail.prefix_of_chain`);
  otherwise a trail may pass a block twice, but only if it ends in a block it has passed
  (`Trail.sound_iff`).
-/

namespace FlatVolume.AllocationTable

open Link (free endOfChain)
open FlatVolume.Computation

variable {t t' : AllocationTable} {a b first z z' : Link} {xs ys blocks : List Link} {n : Nat}

/-! ## 1. Counting off links -/

theorem isDataBlock_iff : t.isDataBlock b = true ↔ b ≠ 0 ∧ b.toNat < t.size := by
  simp only [isDataBlock, Bool.and_eq_true, decide_eq_true_eq]

/-- In a table that can be mounted, the end is no data block. -/
theorem ne_endOfChain_of_isDataBlock (hs : t.size ≤ 65535) (hb : t.isDataBlock b = true) :
    b ≠ endOfChain := by
  intro heq
  subst heq
  have hlt := (isDataBlock_iff.mp hb).2
  have : (endOfChain : Link).toNat = 65535 := rfl
  omega

/-- **Two paths of one length from one block are one path.** -/
theorem Path.unique (h : Path t a xs z) (h' : Path t a ys z') (hl : xs.length = ys.length) :
    xs = ys ∧ z = z' := by
  induction h generalizing ys with
  | here =>
    obtain rfl := List.length_eq_zero_iff.mp hl.symm
    cases h'
    exact ⟨rfl, rfl⟩
  | step hb link _ ih =>
    cases h' with
    | here => simp at hl
    | step _ link' tail' =>
      obtain rfl : _ = _ := Option.some.inj (link.symm.trans link')
      obtain ⟨rfl, rfl⟩ := ih tail' (by simpa using hl)
      exact ⟨rfl, rfl⟩

/-- **Behind a path the chain goes on** that starts where the path starts. -/
theorem Path.rest_of_chain (h : Path t a xs z) (hc : Chain t a blocks) :
    ∃ rest, blocks = xs ++ rest ∧ Chain t z rest := by
  induction h generalizing blocks with
  | here => exact ⟨blocks, rfl, hc⟩
  | step hb link _ ih =>
    cases hc with
    | done => exact absurd rfl hb
    | step _ link' tail' =>
      obtain rfl : _ = _ := Option.some.inj (link.symm.trans link')
      obtain ⟨rest, rfl, hrest⟩ := ih tail'
      exact ⟨rest, rfl, hrest⟩

/-- **A path that has not come to the end lies on the chain** that starts where it starts. -/
theorem Path.prefix_of_chain (h : Path t a xs z) (hz : z ≠ endOfChain) (hc : Chain t a blocks) :
    ∃ rest, blocks = xs ++ z :: rest := by
  obtain ⟨rest, rfl, hrest⟩ := h.rest_of_chain hc
  cases hrest with
  | done => exact absurd rfl hz
  | step _ _ _ => exact ⟨_, rfl⟩

/-- **Walking `n` links leads where a path of `n` links leads,** whatever the table holds. -/
theorem nthBlock_eq_ok_iff :
    t.nthBlock first n = .ok z ↔ ∃ blocks, Path t first blocks z ∧ blocks.length = n := by
  induction n generalizing first with
  | zero =>
    constructor
    · intro h
      cases h
      exact ⟨[], .here, rfl⟩
    · intro hq
      rcases hq with ⟨blocks, h, hl⟩
      obtain rfl := List.length_eq_zero_iff.mp hl
      cases h
      rfl
  | succ n ih =>
    constructor
    · intro h
      rw [nthBlock] at h
      split at h
      · cases h
      · rename_i hne
        cases hn : t.next first with
        | error e =>
          rw [hn] at h
          cases h
        | ok b =>
          rw [hn] at h
          obtain ⟨blocks, hp, hl⟩ := ih.mp h
          exact ⟨first :: blocks, .step hne (next_eq_ok_iff.mp hn) hp, by simp [hl]⟩
    · intro hq
      rcases hq with ⟨blocks, h, hl⟩
      cases h with
      | here => simp at hl
      | step hb link tail =>
        rw [nthBlock, if_neg hb, next_eq_ok_iff.mpr link]
        exact ih.mpr ⟨_, tail, by simpa using hl⟩

/-- A walk that fails names the block it failed at. -/
theorem nthBlock_eq_error {e : VolumeError} (h : t.nthBlock first n = .error e) :
    ∃ b, e = .corruptChain b := by
  induction n generalizing first with
  | zero => cases h
  | succ n ih =>
    rw [nthBlock] at h
    split at h
    · cases h
      exact ⟨first, rfl⟩
    · cases hn : t.next first with
      | error c =>
        rw [hn] at h
        cases h
        exact ⟨first, (next_eq_error_iff.mp hn).2⟩
      | ok b =>
        rw [hn] at h
        exact ih h

/-- The element that `n` others stand before. -/
theorem exists_split {α : Type} {l : List α} (h : n < l.length) :
    ∃ pre b post, l = pre ++ b :: post ∧ pre.length = n := by
  refine ⟨l.take n, l[n], l.drop (n + 1), ?_, List.length_take_of_le (Nat.le_of_lt h)⟩
  rw [← List.drop_eq_getElem_cons h, List.take_append_drop]

/-- **Counting off links of a chain that is long enough** leads to a data block. -/
theorem Chain.exists_nthBlock (hc : Chain t first blocks) (hn : n < blocks.length) :
    ∃ b, t.nthBlock first n = .ok b ∧ t.isDataBlock b = true := by
  obtain ⟨pre, b, post, rfl, hpre⟩ := exists_split hn
  obtain ⟨-, hp, next, link, -⟩ := Path.append_cons_iff.mp (chain_iff_path.mp hc)
  exact ⟨b, nthBlock_eq_ok_iff.mpr ⟨pre, hp, hpre⟩, isDataBlock_of_link? link⟩

/-! ## 2. Freeing -/

/-- Freeing that fails names the block it failed at. -/
theorem freeChain_eq_error {e : VolumeError} (h : freeChain first t = .error e t') :
    ∃ b, e = .corruptChain b := by
  rcases freeChain_cases t first with ⟨blocks, -, hf⟩ | ⟨blocks, b, -, -, -, -, hf⟩
  · rw [hf] at h
    cases h
  · rw [hf] at h
    cases h
    exact ⟨b, rfl⟩

/-- **Freeing succeeds on chains and on nothing else.** -/
theorem freeChain_eq_ok_iff : freeChain first t = .ok n t' ↔
    ∃ blocks, Chain t first blocks ∧ n = blocks.length ∧ t' = t.freeAll blocks := by
  constructor
  · intro h
    rcases freeChain_cases t first with ⟨blocks, hc, hf⟩ | ⟨blocks, b, -, -, -, -, hf⟩
    · rw [hf] at h
      cases h
      exact ⟨blocks, hc, rfl, rfl⟩
    · rw [hf] at h
      cases h
  · intro hq
    rcases hq with ⟨blocks, hc, rfl, rfl⟩
    exact hc.freeChain_eq

/-! ## 3. Loops -/

/-- Links lead from `b` back to `b`. -/
def OnLoop (t : AllocationTable) (b : Link) : Prop := ∃ blocks, Path t b (b :: blocks) b

theorem OnLoop.link? (h : OnLoop t b) : b ≠ endOfChain ∧ ∃ n, t.link? b = some n := by
  obtain ⟨blocks, hp⟩ := h
  cases hp with
  | step hb link _ => exact ⟨hb, _, link⟩

/-- **No block of a chain is on a loop:** its chain would be as long as that chain and the loop. -/
theorem Chain.not_onLoop (h : Chain t first blocks) (hb : b ∈ blocks) : ¬ OnLoop t b := by
  intro hq
  rcases hq with ⟨loop, hp⟩
  obtain ⟨pre, post, -, hc⟩ := h.from_mem hb
  have hround : Chain t b ((b :: loop) ++ b :: post) :=
    chain_iff_path.mpr (Path.append_iff.mpr ⟨b, hp, chain_iff_path.mp hc⟩)
  have := congrArg List.length (hc.unique hround)
  simp at this
  omega

/-- **Cut behind one of its blocks, a loop is a chain** that ends in this block. -/
theorem OnLoop.chain_of_cut (h : OnLoop t b) (hn : t.link? b = some a) :
    ∃ blocks, Chain (t.set b endOfChain) a (blocks ++ [b]) := by
  obtain ⟨loop, hp⟩ := h
  cases hp with
  | @step _ next _ _ hb link tail =>
    obtain rfl : next = a := Option.some.inj (link.symm.trans hn)
    -- the first return to `b`
    obtain ⟨round, hround, hmem⟩ : ∃ round, Path t next round b ∧ b ∉ round := by
      by_cases hbl : b ∈ loop
      · obtain ⟨pre, post, rfl, hpre⟩ := List.eq_append_cons_of_mem hbl
        exact ⟨pre, (Path.append_cons_iff.mp tail).2.1, hpre⟩
      · exact ⟨loop, tail, hbl⟩
    refine ⟨round, chain_iff_path.mpr (Path.append_cons_iff.mpr ⟨hb, ?_, endOfChain, ?_, .here⟩)⟩
    · exact (path_set_iff hmem).mpr hround
    · exact link?_set_self (ne_zero_of_link? link) (lt_size_of_link? link) (by decide)

/-- **What was cut off behind `b` either was the rest of a chain, or runs back to `b`.** -/
theorem Chain.of_cut (hc : Chain (t.set b endOfChain) a blocks) (hb : b ≠ endOfChain)
    (hn : t.link? b = some a) : (b ∉ blocks ∧ Chain t a blocks) ∨ (b ∈ blocks ∧ OnLoop t b) := by
  by_cases hmem : b ∈ blocks
  · refine .inr ⟨hmem, ?_⟩
    obtain ⟨pre, post, rfl, hpre⟩ := List.eq_append_cons_of_mem hmem
    have hp := (Path.append_cons_iff.mp (chain_iff_path.mp hc)).2.1
    exact ⟨pre, .step hb hn ((path_set_iff hpre).mp hp)⟩
  · exact .inl ⟨hmem, (chain_set_iff hmem).mp hc⟩

/-- **A path whose end was freed belongs to no chain any more.** -/
theorem Path.not_chain_of_freed (h : Path t a xs b) (hb : b ≠ endOfChain) (hmem : b ∈ blocks) :
    ¬ ∃ ys, Chain ((t.set b endOfChain).freeAll blocks) a ys := by
  have hgone : ∀ {c : Link}, c ∈ blocks → c ≠ endOfChain →
      ¬ ∃ ys, Chain ((t.set b endOfChain).freeAll blocks) c ys := by
    intro c hc hne hq
    rcases hq with ⟨ys, hch⟩
    cases hch with
    | done => exact hne rfl
    | step _ link _ =>
      rw [link?_freeAll_of_mem hc] at link
      cases link
  induction h with
  | here => exact hgone hmem hb
  | @step c next z rest hne link _ ih =>
    intro hq
    rcases hq with ⟨ys, hch⟩
    by_cases hc : c ∈ blocks
    · exact hgone hc hne ⟨ys, hch⟩
    · cases hch with
      | done => exact hne rfl
      | step _ link' tail' =>
        have hcz : c ≠ z := fun e => hc (e ▸ hmem)
        have hsame : ((t.set z endOfChain).freeAll blocks).link? c = t.link? c := by
          refine link?_congr ?_
          rw [getElem?_freeAll, if_neg fun hq => hc hq.1, getElem?_set_of_ne hcz]
        obtain rfl : _ = _ := Option.some.inj ((hsame.trans link).symm.trans link')
        exact ih hb hmem hgone ⟨_, tail'⟩

/-- **Cutting behind the block a path leads to and freeing the rest.** If that succeeds, the path
    and its end are a chain now, unless the end was on a loop; then it is free, and no chain starts
    where the path starts. If it fails, the end was on no loop, and no chain started there before. -/
theorem cut_freeChain_ends (h : Path t first xs b) (hb : t.isDataBlock b = true)
    (hne : b ≠ endOfChain) (he : t.entries[b.toNat]? = some a) :
    Ends (freeChain a) (t.set b endOfChain)
      (fun _ t' => (¬ OnLoop t b ∧ Chain t' first (xs ++ [b])) ∨
        (OnLoop t b ∧ ¬ ∃ ys, Chain t' first ys))
      (fun e _ => (∃ c, e = .corruptChain c) ∧ ¬ OnLoop t b ∧
        ¬ ∃ blocks, Chain t first blocks) := by
  refine ends_iff.mpr ⟨fun n t' hf => ?_, fun e t' hf => ?_⟩
  · obtain ⟨rest, hc, -, rfl⟩ := freeChain_eq_ok_iff.mp hf
    have hb0 : b ≠ 0 := (isDataBlock_iff.mp hb).1
    have hfree : a ≠ free := by
      intro heq
      subst heq
      cases hc with
      | step _ link _ => exact ne_zero_of_link? link rfl
    have link : t.link? b = some a := link?_eq_some_iff.mpr ⟨hb0, he, hfree⟩
    rcases hc.of_cut hne link with ⟨hmem, hc'⟩ | ⟨hmem, hloop⟩
    · have hwhole : Chain t first (xs ++ b :: rest) :=
        chain_iff_path.mpr (Path.append_cons_iff.mpr ⟨hne, h, a, link, chain_iff_path.mp hc'⟩)
      exact .inl ⟨hwhole.not_onLoop (by simp), hwhole.cut_freeAll⟩
    · exact .inr ⟨hloop, h.not_chain_of_freed hne hmem⟩
  · -- a chain or a loop through `b` would have been freed
    have hno : ∀ blocks, ¬ Chain (t.set b endOfChain) a blocks := by
      intro blocks hc
      rw [hc.freeChain_eq] at hf
      cases hf
    refine ⟨freeChain_eq_error hf, fun hloop => ?_, fun hq => ?_⟩
    · obtain ⟨-, n, link⟩ := hloop.link?
      obtain rfl : n = a := Option.some.inj ((link?_eq_some_iff.mp link).2.1.symm.trans he)
      obtain ⟨blocks, hc⟩ := hloop.chain_of_cut link
      exact hno _ hc
    · rcases hq with ⟨blocks, hc⟩
      obtain ⟨rest, rfl⟩ := h.prefix_of_chain hne hc
      obtain ⟨-, n, he', hrest⟩ := hc.cut
      obtain rfl : n = a := Option.some.inj (he'.symm.trans he)
      exact hno _ hrest

/-! ## 4. Trails -/

/-- Links lead from `first` over `blocks`, and the last of these is a data block, in use or not. -/
inductive Trail (t : AllocationTable) : (first : Link) → (blocks : List Link) → Prop where
  | last {b : Link} (hb : t.isDataBlock b = true) : Trail t b [b]
  | step {b n : Link} {rest : List Link} (hb : b ≠ endOfChain) (link : t.link? b = some n)
      (tail : Trail t n rest) : Trail t b (b :: rest)

theorem Trail.isDataBlock (h : Trail t first blocks) : t.isDataBlock first = true := by
  cases h with
  | last hb => exact hb
  | step _ link _ => exact isDataBlock_of_link? link

theorem trail_iff_path : Trail t first blocks ↔
    ∃ init b, blocks = init ++ [b] ∧ Path t first init b ∧ t.isDataBlock b = true := by
  constructor
  · intro h
    induction h with
    | @last b hb => exact ⟨[], b, rfl, .here, hb⟩
    | @step b _ _ hne link _ ih =>
      obtain ⟨init, c, rfl, hp, hc⟩ := ih
      exact ⟨b :: init, c, rfl, .step hne link hp, hc⟩
  · intro hq
    rcases hq with ⟨init, b, rfl, hp, hb⟩
    induction hp with
    | here => exact .last hb
    | step hne link _ ih => exact .step hne link (ih hb)

/-- A path goes on as a trail. -/
theorem trail_append_iff (hy : ys ≠ []) :
    Trail t first (xs ++ ys) ↔ ∃ b, Path t first xs b ∧ Trail t b ys := by
  simp only [trail_iff_path]
  constructor
  · intro hq
    rcases hq with ⟨init, b, heq, hp, hb⟩
    obtain ⟨ys', c, rfl⟩ := (List.eq_nil_or_concat' ys).resolve_left hy
    rw [← List.append_assoc] at heq
    obtain ⟨rfl, hcb⟩ := List.append_inj' heq rfl
    obtain rfl : c = b := by simpa using hcb
    obtain ⟨m, hxs, hys⟩ := Path.append_iff.mp hp
    exact ⟨m, hxs, ys', c, rfl, hys, hb⟩
  · intro hq
    rcases hq with ⟨m, hxs, init, b, rfl, hp, hb⟩
    exact ⟨xs ++ init, b, (List.append_assoc ..).symm, Path.append_iff.mpr ⟨m, hxs, hp⟩, hb⟩

/-- **A long trail** is a trail behind a walk. -/
theorem exists_trail_add_iff {k j : Nat} (hj : 0 < j) :
    (∃ blocks, Trail t first blocks ∧ blocks.length = k + j) ↔
      ∃ b, t.nthBlock first k = .ok b ∧ ∃ blocks, Trail t b blocks ∧ blocks.length = j := by
  simp only [nthBlock_eq_ok_iff]
  constructor
  · intro hq
    rcases hq with ⟨blocks, h, hl⟩
    have hdrop : blocks.drop k ≠ [] := by
      rw [ne_eq, List.drop_eq_nil_iff]
      omega
    rw [← List.take_append_drop k blocks, trail_append_iff hdrop] at h
    obtain ⟨b, hp, htrail⟩ := h
    refine ⟨b, ⟨_, hp, List.length_take_of_le (by omega)⟩, _, htrail, ?_⟩
    rw [List.length_drop]
    omega
  · intro hq
    rcases hq with ⟨b, ⟨xs, hp, hx⟩, ys, htrail, hy⟩
    have hne : ys ≠ [] := List.ne_nil_of_length_pos (by omega)
    exact ⟨xs ++ ys, (trail_append_iff hne).mpr ⟨b, hp, htrail⟩, by simp [hx, hy]⟩

/-- Two trails of one length from one block are one trail. -/
theorem Trail.unique (h : Trail t first xs) (h' : Trail t first ys) (hl : xs.length = ys.length) :
    xs = ys := by
  obtain ⟨init, b, rfl, hp, -⟩ := trail_iff_path.mp h
  obtain ⟨init', b', rfl, hp', -⟩ := trail_iff_path.mp h'
  obtain ⟨rfl, rfl⟩ := hp.unique hp' (by simpa using hl)
  rfl

/-- **Trails run along the chain,** where there is one. -/
theorem Trail.prefix_of_chain (h : Trail t first xs) (hs : t.size ≤ 65535)
    (hc : Chain t first blocks) : xs <+: blocks := by
  obtain ⟨init, b, rfl, hp, hb⟩ := trail_iff_path.mp h
  obtain ⟨rest, rfl⟩ := hp.prefix_of_chain (ne_endOfChain_of_isDataBlock hs hb) hc
  exact ⟨rest, by simp⟩

/-- What a chain begins with is a trail. -/
theorem Chain.exists_trail (h : Chain t first blocks) (hn : 0 < n) (hle : n ≤ blocks.length) :
    ∃ xs, Trail t first xs ∧ xs.length = n := by
  obtain ⟨k, rfl⟩ := Nat.exists_eq_succ_of_ne_zero (Nat.ne_of_gt hn)
  obtain ⟨pre, b, post, rfl, rfl⟩ := exists_split hle
  obtain ⟨-, hp, next, link, -⟩ := Path.append_cons_iff.mp (chain_iff_path.mp h)
  exact ⟨pre ++ [b], trail_iff_path.mpr ⟨pre, b, rfl, hp, isDataBlock_of_link? link⟩, by simp⟩

/-- **A path that passes a block twice has passed its end as well:** where the block was passed
    first, the way went on as it does after the second time. -/
theorem Path.end_mem (h : Path t a xs z) (hn : ¬ xs.Nodup) : z ∈ xs := by
  induction h with
  | here => exact absurd List.nodup_nil hn
  | @step b n z rest hb link tail ih =>
    by_cases hrest : rest.Nodup
    · have hmem : b ∈ rest := Decidable.not_not.mp fun hb' => hn (List.nodup_cons.mpr ⟨hb', hrest⟩)
      obtain ⟨pre, post, rfl⟩ := List.append_of_mem hmem
      obtain ⟨-, -, n', link', htail⟩ := Path.append_cons_iff.mp tail
      have hshort : Path t b (b :: post) z := .step hb link' htail
      -- the block that the longer way has come to after as many links
      obtain ⟨way, c, more, heq, hway⟩ := exists_split
        (show (b :: post).length < (b :: (pre ++ b :: post)).length by
          simp only [List.length_cons, List.length_append]
          omega)
      have hlong : Path t b (way ++ c :: more) z := heq ▸ .step hb link tail
      have hc := (Path.append_cons_iff.mp hlong).2.1
      obtain ⟨-, rfl⟩ := hshort.unique hc hway.symm
      rw [heq]
      simp
    · exact List.mem_cons_of_mem _ (ih hrest)

/-- **A trail passes only different blocks, all in use,** exactly if its last block is in use and
    was not passed before. -/
theorem Trail.sound_iff (h : Trail t first (xs ++ [b])) :
    ((xs ++ [b]).Nodup ∧ ∀ c ∈ xs ++ [b], (t.link? c).isSome) ↔
      (t.link? b).isSome ∧ b ∉ xs := by
  obtain ⟨init, c, heq, hp, -⟩ := trail_iff_path.mp h
  obtain ⟨rfl, hbc⟩ := List.append_inj' heq rfl
  obtain rfl : b = c := by simpa using hbc
  constructor
  · intro hq
    rcases hq with ⟨hn, hu⟩
    refine ⟨hu b (by simp), fun hmem => ?_⟩
    exact (List.nodup_append.mp hn).2.2 b hmem b (List.mem_singleton_self b) rfl
  · intro hq
    rcases hq with ⟨hu, hmem⟩
    have hn : xs.Nodup := Decidable.not_not.mp fun hn => hmem (hp.end_mem hn)
    refine ⟨List.nodup_append.mpr ⟨hn, List.nodup_singleton b, fun c hc d hd => ?_⟩, fun c hc => ?_⟩
    · rintro rfl
      rw [List.mem_singleton] at hd
      exact hmem (hd ▸ hc)
    · rcases List.mem_append.mp hc with hc | hc
      · obtain ⟨n, link⟩ := hp.link_of_mem hc
        exact link ▸ rfl
      · rw [List.mem_singleton] at hc
        exact hc ▸ hu

end FlatVolume.AllocationTable
