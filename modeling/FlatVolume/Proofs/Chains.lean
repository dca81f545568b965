import FlatVolume.Table.Chain
import Mathlib.Data.List.Nodup
import Mathlib.Data.List.Perm.Subperm

/-!
# Chains as paths through the table

`Path t a blocks z` says that following links from `a` over `blocks` leads to `z`; a chain is a path
that leads to the end (`chain_iff_path`). This file fixes:

* what a chain is made of: distinct data blocks of the table, none of them the end (`Chain.nodup`,
  `Chain.length_le_size`), so that `chain` finds every chain and nothing else (`chain_eq_ok_iff`);
* where `nthBlock` leads on a chain (`Chain.nthBlock_eq`);
* how chains get through a change of the table: `Path.congr` and `path_set_iff` for those that are
  left alone, `Chain.extended` and `Chain.cut` for the one that is changed;
* what freeing leaves (`freeChain_cases`): every walk comes to the end or breaks off
  (`exists_path_to_stop`), and freeing follows it (`Path.freeChain_eq`), which on a chain comes to
  the end (`Chain.freeChain_eq`).
-/

namespace FlatVolume.AllocationTable

open Link (free endOfChain)

variable {t t' : AllocationTable}

/-! ## 1. Entries -/

theorem getElem?_set (t : AllocationTable) (b v : Link) (i : Nat) :
    (t.set b v).entries[i]? = if i = b.toNat ∧ i < t.size then some v else t.entries[i]? := by
  simp only [set, size, Array.getElem?_setIfInBounds]
  by_cases h : b.toNat = i
  · subst h
    by_cases hb : b.toNat < t.entries.size <;> simp [hb]
  · simp [h, Ne.symm h]

theorem getElem?_set_of_ne {b c v : Link} (h : c ≠ b) :
    (t.set b v).entries[c.toNat]? = t.entries[c.toNat]? := by
  have hn : c.toNat ≠ b.toNat := fun e => h (UInt16.toNat_inj.mp e)
  rw [getElem?_set, if_neg fun hc => hn hc.1]

theorem getElem?_set_self {b v : Link} (h : b.toNat < t.size) :
    (t.set b v).entries[b.toNat]? = some v := by
  rw [getElem?_set, if_pos ⟨rfl, h⟩]

theorem ext_getElem? (h : ∀ i : Nat, t.entries[i]? = t'.entries[i]?) : t = t' := by
  cases t
  cases t'
  exact congrArg _ (Array.ext_getElem? h)

/-- A block leads where its entry says; the entry alone decides. -/
theorem link?_congr {b : Link} (h : t'.entries[b.toNat]? = t.entries[b.toNat]?) :
    t'.link? b = t.link? b := by
  simp only [link?, h]

theorem link?_set_of_ne {b c v : Link} (h : c ≠ b) : (t.set b v).link? c = t.link? c :=
  link?_congr (getElem?_set_of_ne h)

theorem link?_set_self {b v : Link} (hb : b ≠ 0) (h : b.toNat < t.size) (hv : v ≠ free) :
    (t.set b v).link? b = some v :=
  link?_eq_some_iff.mpr ⟨hb, getElem?_set_self h, hv⟩

theorem link?_of_entry_free {b : Link} (h : t.entries[b.toNat]? = some free) :
    t.link? b = none := by
  simp [link?, h]

theorem ne_zero_of_link? {b n : Link} (h : t.link? b = some n) : b ≠ 0 :=
  (link?_eq_some_iff.mp h).1

theorem isDataBlock_of_link? {b n : Link} (h : t.link? b = some n) : t.isDataBlock b = true := by
  simp [isDataBlock, ne_zero_of_link? h, lt_size_of_link? h]

/-! ## 2. Paths -/

/-- Following links from `a` over `blocks` leads to `z`. -/
inductive Path (t : AllocationTable) : (a : Link) → (blocks : List Link) → (z : Link) → Prop where
  | here {a : Link} : Path t a [] a
  | step {b n z : Link} {rest : List Link} (hb : b ≠ endOfChain) (link : t.link? b = some n)
      (tail : Path t n rest z) : Path t b (b :: rest) z

variable {a z first : Link} {xs ys blocks : List Link}

theorem chain_iff_path : Chain t first blocks ↔ Path t first blocks endOfChain := by
  constructor
  · intro h
    induction h with
    | done => exact .here
    | step hb link _ ih => exact .step hb link ih
  · intro h
    generalize hz : endOfChain = z at h
    induction h with
    | here => exact hz ▸ .done
    | step hb link _ ih => exact .step hb link (ih hz)

theorem Path.append_iff :
    Path t a (xs ++ ys) z ↔ ∃ m, Path t a xs m ∧ Path t m ys z := by
  induction xs generalizing a with
  | nil =>
    refine ⟨fun h => ⟨a, .here, h⟩, fun ⟨_, h, h'⟩ => ?_⟩
    cases h
    exact h'
  | cons x xs ih =>
    constructor
    · intro h
      cases h with
      | step hb link tail =>
        obtain ⟨m, h, h'⟩ := ih.mp tail
        exact ⟨m, .step hb link h, h'⟩
    · intro hq
      rcases hq with ⟨m, h, h'⟩
      cases h with
      | step hb link tail => exact .step hb link (ih.mpr ⟨m, tail, h'⟩)

/-- A path that goes on over `x` has come to `x`. -/
theorem Path.append_cons_iff {x : Link} : Path t a (xs ++ x :: ys) z ↔
    x ≠ endOfChain ∧ Path t a xs x ∧ ∃ n, t.link? x = some n ∧ Path t n ys z := by
  rw [append_iff]
  constructor
  · intro hq
    rcases hq with ⟨m, h, h'⟩
    cases h' with
    | step hb link tail => exact ⟨hb, h, _, link, tail⟩
  · intro hq
    rcases hq with ⟨hb, h, n, link, tail⟩
    exact ⟨x, h, .step hb link tail⟩

/-- Every block that a path passes is in use. -/
theorem Path.link_of_mem {b : Link} (h : Path t a xs z) (hb : b ∈ xs) : ∃ n, t.link? b = some n := by
  obtain ⟨pre, post, rfl⟩ := List.append_of_mem hb
  obtain ⟨-, -, n, link, -⟩ := Path.append_cons_iff.mp h
  exact ⟨n, link⟩

/-- **A path stays while the entries on it stay.** -/
theorem Path.congr (h : Path t a xs z) (hx : ∀ b ∈ xs, t'.link? b = t.link? b) :
    Path t' a xs z := by
  induction h with
  | here => exact .here
  | step hb link _ ih =>
    refine .step hb ((hx _ (List.mem_cons_self ..)).trans link) ?_
    exact ih fun b hb => hx b (List.mem_cons_of_mem _ hb)

theorem Chain.congr (h : Chain t first blocks) (hx : ∀ b ∈ blocks, t'.link? b = t.link? b) :
    Chain t' first blocks :=
  chain_iff_path.mpr ((chain_iff_path.mp h).congr hx)

/-- **A new entry makes no difference to the paths that do not pass it.** -/
theorem path_set_iff {b v : Link} (hb : b ∉ xs) : Path (t.set b v) a xs z ↔ Path t a xs z := by
  have hsame : ∀ c ∈ xs, (t.set b v).link? c = t.link? c := fun c hc =>
    link?_set_of_ne fun e => hb (e ▸ hc)
  exact ⟨fun h => h.congr fun c hc => (hsame c hc).symm, fun h => h.congr hsame⟩

theorem chain_set_iff {b v : Link} (hb : b ∉ blocks) :
    Chain (t.set b v) first blocks ↔ Chain t first blocks := by
  rw [chain_iff_path, chain_iff_path, path_set_iff hb]

/-! ## 3. The blocks of a chain -/

/-- From each of its blocks on, a chain is a chain. -/
theorem Chain.from_mem (h : Chain t first blocks) {b : Link} (hb : b ∈ blocks) :
    ∃ pre post, blocks = pre ++ b :: post ∧ Chain t b (b :: post) := by
  obtain ⟨pre, post, rfl⟩ := List.append_of_mem hb
  obtain ⟨hne, -, n, link, tail⟩ := Path.append_cons_iff.mp (chain_iff_path.mp h)
  exact ⟨pre, post, rfl, chain_iff_path.mpr (.step hne link tail)⟩

/-- **A chain passes no block twice:** from the second time on it would be as long as from the
    first. -/
theorem Chain.nodup (h : Chain t first blocks) : blocks.Nodup := by
  induction h with
  | done => exact List.nodup_nil
  | @step b n rest hb link tail ih =>
    refine List.nodup_cons.mpr ⟨fun hmem => ?_, ih⟩
    obtain ⟨pre, post, he, hc⟩ := tail.from_mem hmem
    have hl : rest = post := (List.cons.inj (Chain.unique (.step hb link tail) hc)).2
    have := congrArg List.length he
    simp [hl] at this
    omega

theorem Chain.ne_zero (h : Chain t first blocks) {b : Link} (hb : b ∈ blocks) : b ≠ 0 := by
  obtain ⟨n, link⟩ := h.link_of_mem hb
  exact ne_zero_of_link? link

theorem Chain.lt_size (h : Chain t first blocks) {b : Link} (hb : b ∈ blocks) :
    b.toNat < t.size := by
  obtain ⟨n, link⟩ := h.link_of_mem hb
  exact lt_size_of_link? link

/-- Distinct data blocks are fewer than the entries, since entry 0 is none of them. -/
theorem length_lt_of_nodup {n : Nat} (hn : blocks.Nodup) (hb : ∀ b ∈ blocks, b ≠ 0 ∧ b.toNat < n)
    (hpos : 0 < n) : blocks.length < n := by
  have hmap : (blocks.map UInt16.toNat).Nodup :=
    hn.map fun _ _ h => UInt16.toNat_inj.mp h
  have hsub : blocks.map UInt16.toNat ⊆ List.range' 1 (n - 1) := by
    intro i hi
    obtain ⟨b, hmem, rfl⟩ := List.mem_map.mp hi
    obtain ⟨h0, hlt⟩ := hb b hmem
    have : b.toNat ≠ 0 := fun e => h0 (UInt16.toNat_inj.mp e)
    rw [List.mem_range'_1]
    omega
  have := (hmap.subperm hsub).length_le
  rw [List.length_map, List.length_range'] at this
  omega

theorem Chain.length_le_size (h : Chain t first blocks) : blocks.length ≤ t.size := by
  cases hs : t.size with
  | zero =>
    cases blocks with
    | nil => exact Nat.le_refl 0
    | cons b bs => exact absurd (h.lt_size (List.mem_cons_self ..)) (by omega)
  | succ n =>
    have hlt := length_lt_of_nodup h.nodup (n := t.size)
      (fun b hb => ⟨h.ne_zero hb, h.lt_size hb⟩) (by omega)
    omega

/-- **`chain` finds every chain and nothing else:** the bound on its steps cuts none short. -/
theorem chain_eq_ok_iff : t.chain first = .ok blocks ↔ Chain t first blocks := by
  rw [chain, walk_eq_ok_iff]
  exact ⟨fun h => h.1, fun h => ⟨h, h.length_le_size⟩⟩

/-- A walk that fails names the block it failed at. -/
theorem walk_eq_error {steps : Nat} {e : VolumeError} (h : t.walk steps first = .error e) :
    ∃ b, e = .corruptChain b := by
  induction steps generalizing first with
  | zero =>
    unfold walk at h
    split at h
    · cases h
    · exact ⟨first, (Except.error.inj h).symm⟩
  | succ steps ih =>
    unfold walk at h
    split at h
    · cases h
    · split at h
      · rename_i b hb
        split at h
        · cases h
        · rename_i e' he'
          cases h
          exact ih he'
      · rename_i e' he'
        cases h
        exact ⟨first, (next_eq_error_iff.mp he').2⟩

/-- Walking `n` links of a chain leads to its block `n`, or to the end where it has `n` blocks. -/
theorem Chain.nthBlock_eq (h : Chain t first blocks) {n : Nat} (hn : n ≤ blocks.length) :
    t.nthBlock first n = .ok (blocks[n]?.getD endOfChain) := by
  induction h generalizing n with
  | done =>
    obtain rfl : n = 0 := by simpa using hn
    rfl
  | step hb link _ ih =>
    cases n with
    | zero => rfl
    | succ n =>
      rw [nthBlock, if_neg hb, next_eq_ok_iff.mpr link]
      simpa using ih (by simpa using hn)

/-! ## 4. Chains in a changed table -/

/-- **A chain is extended by a block that is the end of a chain of its own.** -/
theorem Chain.extended {last new : Link} {init : List Link} (h : Chain t first (init ++ [last]))
    (hnew : t.link? new = some endOfChain) (hne : new ∉ init ++ [last]) (he : new ≠ endOfChain) :
    Chain (t.set last new) first (init ++ [last] ++ [new]) := by
  have hnd := h.nodup
  obtain ⟨hl, hpath, n, link, -⟩ := Path.append_cons_iff.mp (chain_iff_path.mp h)
  have hlast : last ∉ init := fun hmem =>
    (List.nodup_append.mp hnd).2.2 last hmem last (List.mem_singleton_self _) rfl
  have hnl : new ≠ last := fun e => hne (by simp [e])
  have hfree : new ≠ free := ne_zero_of_link? hnew
  rw [List.append_assoc, chain_iff_path]
  refine Path.append_cons_iff.mpr ⟨hl, (path_set_iff hlast).mpr hpath, new, ?_, ?_⟩
  · exact link?_set_self (ne_zero_of_link? link) (lt_size_of_link? link) hfree
  · exact .step he ((link?_set_of_ne hnl).trans hnew) .here

/-- **Cutting a chain behind one of its blocks leaves two chains:** what it keeps, and what it
    led to. -/
theorem Chain.cut {last : Link} {init rest : List Link}
    (h : Chain t first (init ++ last :: rest)) :
    Chain (t.set last endOfChain) first (init ++ [last]) ∧
      ∃ n, t.entries[last.toNat]? = some n ∧ Chain (t.set last endOfChain) n rest := by
  obtain ⟨-, hd, hdis⟩ := List.nodup_append.mp h.nodup
  obtain ⟨hl, hpath, n, link, tail⟩ := Path.append_cons_iff.mp (chain_iff_path.mp h)
  have hrest : last ∉ rest := (List.nodup_cons.mp hd).1
  have hinit : last ∉ init := fun hmem => hdis last hmem last (List.mem_cons_self ..) rfl
  have hend : (t.set last endOfChain).link? last = some endOfChain :=
    link?_set_self (ne_zero_of_link? link) (lt_size_of_link? link) (by decide)
  refine ⟨chain_iff_path.mpr (Path.append_cons_iff.mpr ⟨hl, ?_, endOfChain, hend, .here⟩), n,
    (link?_eq_some_iff.mp link).2.1, ?_⟩
  · exact (path_set_iff hinit).mpr hpath
  · exact (chain_set_iff hrest).mpr (chain_iff_path.mpr tail)

/-! ## 5. Freeing -/

/-- The table with the entries of `blocks` free. -/
def freeAll (t : AllocationTable) (blocks : List Link) : AllocationTable :=
  blocks.foldl (fun t b => t.set b free) t

@[simp] theorem freeAll_nil (t : AllocationTable) : t.freeAll [] = t := rfl

@[simp] theorem freeAll_cons (t : AllocationTable) (b : Link) (bs : List Link) :
    t.freeAll (b :: bs) = (t.set b free).freeAll bs := rfl

@[simp] theorem size_freeAll (t : AllocationTable) (blocks : List Link) :
    (t.freeAll blocks).size = t.size := by
  induction blocks generalizing t with
  | nil => rfl
  | cons b bs ih => rw [freeAll_cons, ih, size_set]

theorem getElem?_freeAll (t : AllocationTable) (blocks : List Link) (c : Link) :
    (t.freeAll blocks).entries[c.toNat]? =
      if c ∈ blocks ∧ c.toNat < t.size then some free else t.entries[c.toNat]? := by
  induction blocks generalizing t with
  | nil => simp
  | cons b bs ih =>
    rw [freeAll_cons, ih, size_set]
    by_cases hc : c = b
    · subst hc
      by_cases hlt : c.toNat < t.size
      · by_cases hm : c ∈ bs <;> simp [hm, hlt, getElem?_set_self]
      · have hnone : t.entries[c.toNat]? = none := by simpa [size] using hlt
        simp [hlt, getElem?_set, hnone]
    · simp [hc, getElem?_set_of_ne]

theorem freeChain_of_link?_eq_none (hne : first ≠ endOfChain) (h : t.link? first = none) :
    freeChain first t = .error (.corruptChain first) t := by
  rw [freeChain, if_neg hne]
  split
  · rfl
  · rename_i b hb
    rw [h] at hb
    cases hb

theorem freeChain_of_link?_eq_some {b : Link} (hne : first ≠ endOfChain) (h : t.link? first = some b) :
    freeChain first t = match freeChain b (t.set first free) with
      | .ok n t' => .ok (n + 1) t'
      | .error e t' => .error e t' := by
  rw [freeChain, if_neg hne]
  split
  · rename_i hnone
    rw [h] at hnone
    cases hnone
  · rename_i b' hb
    obtain rfl := Option.some.inj (h.symm.trans hb)
    rfl

/-- **Freeing follows a path:** it frees the blocks on it and goes on where the path leads. The links
    that it destroys are those it has followed. -/
theorem Path.freeChain_eq (h : Path t a xs z) (hn : xs.Nodup) :
    freeChain a t = match freeChain z (t.freeAll xs) with
      | .ok n t' => .ok (n + xs.length) t'
      | .error e t' => .error e t' := by
  induction xs generalizing t a with
  | nil =>
    cases h
    rw [freeAll_nil]
    cases freeChain z t <;> rfl
  | cons b rest ih =>
    obtain ⟨hfirst, hrest⟩ := List.nodup_cons.mp hn
    cases h with
    | step hb link tail =>
      rw [freeChain_of_link?_eq_some hb link, ih ((path_set_iff hfirst).mpr tail) hrest, freeAll_cons]
      cases freeChain z ((t.set b free).freeAll rest) <;> rfl

/-- **Freeing a chain frees its blocks and nothing else,** and counts them. -/
theorem Chain.freeChain_eq (h : Chain t first blocks) :
    freeChain first t = .ok blocks.length (t.freeAll blocks) := by
  rw [(chain_iff_path.mp h).freeChain_eq h.nodup, freeChain, if_pos rfl]
  simp only [Nat.zero_add]

/-- **Every walk comes to the end, or to a block from where no link leads** once the blocks on the way
    are free. It passes no block twice until then: with each block that it frees, one entry fewer is
    in use. -/
theorem exists_path_to_stop (t : AllocationTable) (first : Link) : ∃ blocks z,
    Path t first blocks z ∧ blocks.Nodup ∧ (z = endOfChain ∨ (t.freeAll blocks).link? z = none) := by
  induction hm : t.usedCount using Nat.strongRecOn generalizing t first with
  | ind m ih =>
    by_cases hend : first = endOfChain
    · exact ⟨[], first, .here, List.nodup_nil, .inl hend⟩
    · cases hl : t.link? first with
      | none => exact ⟨[], first, .here, List.nodup_nil, .inr hl⟩
      | some n =>
        obtain ⟨blocks, z, hpath, hnodup, hstop⟩ :=
          ih _ (hm ▸ usedCount_free_lt hl) (t.set first free) n rfl
        -- the rest of the way does not come over `first`, which is free by then
        have hmem : first ∉ blocks := by
          intro hmem
          obtain ⟨n', link⟩ := hpath.link_of_mem hmem
          rw [link?_of_entry_free (getElem?_set_self (lt_size_of_link? hl))] at link
          cases link
        exact ⟨first :: blocks, z, .step hend hl ((path_set_iff hmem).mp hpath),
          List.nodup_cons.mpr ⟨hmem, hnodup⟩, hstop⟩

/-- **How freeing ends:** on a chain with its blocks free and counted. Otherwise it reports the block at
    which the walk breaks off, with those before it free. -/
theorem freeChain_cases (t : AllocationTable) (first : Link) :
    (∃ blocks, Chain t first blocks ∧ freeChain first t = .ok blocks.length (t.freeAll blocks)) ∨
    ∃ blocks b, Path t first blocks b ∧ blocks.Nodup ∧ b ≠ endOfChain ∧
      (t.freeAll blocks).link? b = none ∧
      freeChain first t = .error (.corruptChain b) (t.freeAll blocks) := by
  obtain ⟨blocks, z, hpath, hnodup, hstop⟩ := exists_path_to_stop t first
  by_cases hend : z = endOfChain
  · subst hend
    have hchain := chain_iff_path.mpr hpath
    exact .inl ⟨blocks, hchain, hchain.freeChain_eq⟩
  · have hlink := hstop.resolve_left hend
    refine .inr ⟨blocks, z, hpath, hnodup, hend, hlink, ?_⟩
    rw [hpath.freeChain_eq hnodup, freeChain_of_link?_eq_none hend hlink]

end FlatVolume.AllocationTable
