import FlatVolume.Proofs.Mooring
import FlatVolume.Proofs.Prepared

/-!
# Reading files of any volume

A read follows the links as far as its range reaches and no further, and it looks at each block only
for whether it is a data block. So what it reads need not be part of a chain: the last block may be
free, and it may be one that was read before. `Follows t first offset k skipped copied` says which
blocks a read of `k` bytes at `offset` takes its bytes from.

Where the last of them is in use and new, they are different blocks in use
(`Follows.sound_iff`); where there is a chain, they are consecutive blocks of it
(`Follows.prefix_of_chain`). Whatever was mounted, a read that succeeds gives the bytes of these
blocks, and one that fails leaves the descriptor where it is; it reports a corrupt chain exactly
where links do not lead so far (`FileSystem.read_sound_iff`).
-/

namespace FlatVolume

open AllocationTable Bytes FlatVolume.Computation Mounted
open FileSystem (ofMounted ofWorld)
open LawfulBlockDevice (storage)

/-! ## 1. The blocks of a range -/

namespace AllocationTable

variable {t : AllocationTable} {first last : Link} {offset k : Nat}
  {skipped copied blocks : List Link}

/-- **The blocks of the range** of `k` bytes at `offset` are `copied`, when links are followed from
    `first`; `skipped` are the blocks before it. -/
structure Follows (t : AllocationTable) (first : Link) (offset k : Nat)
    (skipped copied : List Link) : Prop where
  trail : t.Trail first (skipped ++ copied)
  skipped_eq : skipped.length = offset / blockSize
  reached_eq : (skipped ++ copied).length = ceilDiv (offset + k) blockSize

/-- **What is read is determined** by the table. -/
theorem Follows.unique {skipped' copied' : List Link} (h : Follows t first offset k skipped copied)
    (h' : Follows t first offset k skipped' copied') : skipped = skipped' ∧ copied = copied' :=
  List.append_inj (h.trail.unique h'.trail (h.reached_eq.trans h'.reached_eq.symm))
    (h.skipped_eq.trans h'.skipped_eq.symm)

/-- A trail to the end of the range passes all its blocks. -/
theorem Trail.follows (h : t.Trail first blocks) (hk : 0 < k)
    (hl : blocks.length = ceilDiv (offset + k) blockSize) :
    ∃ skipped copied last, blocks = skipped ++ (copied ++ [last]) ∧
      Follows t first offset k skipped (copied ++ [last]) := by
  have hlt : offset / blockSize < blocks.length := by
    rw [hl]
    simp only [ceilDiv, blockSize]
    omega
  have hne : blocks.drop (offset / blockSize) ≠ [] := by
    rw [ne_eq, List.drop_eq_nil_iff]
    omega
  obtain ⟨copied, last, hdrop⟩ := (List.eq_nil_or_concat' _).resolve_left hne
  have heq : blocks = blocks.take (offset / blockSize) ++ (copied ++ [last]) := by
    rw [← hdrop, List.take_append_drop]
  refine ⟨_, copied, last, heq, heq ▸ h, List.length_take_of_le (Nat.le_of_lt hlt), heq ▸ hl⟩

/-- **The blocks of a range are different and in use** exactly if the last of them is in use and is
    none of the others. -/
theorem Follows.sound_iff (h : Follows t first offset k skipped (copied ++ [last])) :
    ((copied ++ [last]).Nodup ∧ ∀ b ∈ copied ++ [last], (t.link? b).isSome) ↔
      (t.link? last).isSome ∧ last ∉ copied := by
  obtain ⟨b, -, htrail⟩ := (trail_append_iff (by simp)).mp h.trail
  exact htrail.sound_iff

/-- **Where there is a chain, the blocks of a range are consecutive blocks of it.** -/
theorem Follows.prefix_of_chain (h : Follows t first offset k skipped copied)
    (hs : t.size ≤ 65535) (hc : t.Chain first blocks) : skipped ++ copied <+: blocks :=
  h.trail.prefix_of_chain hs hc

end AllocationTable

/-! ## 2. Over runs -/

namespace FileSystem

variable {W H : Type} [BlockDevice W H] [LawfulBlockDevice W H]

/-- **What a read gives,** on any volume that was mounted and in any state it has come to. If it
    succeeds, the bytes stand at the offset in the blocks of the range. These are different blocks,
    all in use, unless the last of them is free or one of the others; where the file has a chain,
    they are part of it. If it fails, nothing is moved. It reports a corrupt chain where links do
    not lead through the whole range, and otherwise fails only if a call to the device does. -/
theorem read_sound_iff {d : H} {fs fs₀ fs₁ : FileSystem W H} {v : Volume H} {fd : Nat}
    {f : OpenFile} (hm : mount d fs = .ok () fs₀) (hr : Reachable fs₀ fs₁)
    (hv : fs₁.mounted = some v) (hf : v.files.get? fd = some f) (count : Nat) :
    ∃ slot, v.resolve fd = .ok (f, slot) ∧ Ends (read fd count) fs₁
      (fun bytes fs₂ => bytes.size = min count ((v.root.get slot).size - f.offset) ∧
        fs₂.mounted = some { v with files := v.files.moveTo fd (f.offset + bytes.size) } ∧
        (0 < bytes.size → ∃ skipped copied last,
          v.table.Follows (v.root.get slot).firstBlock f.offset bytes.size skipped
            (copied ++ [last]) ∧
          ReadFrom v.superblock (storage v.device fs₁.world) (skipped ++ (copied ++ [last]))
            f.offset bytes.size bytes ∧
          (((copied ++ [last]).Nodup ∧ ∀ b ∈ copied ++ [last], (v.table.link? b).isSome) ↔
            (v.table.link? last).isSome ∧ last ∉ copied) ∧
          ∀ blocks, v.table.Chain (v.root.get slot).firstBlock blocks →
            skipped ++ (copied ++ [last]) <+: blocks))
      (fun e fs₂ => fs₂.mounted = some v ∧
        (((∃ b, e = .corruptChain b) ∧ ¬ ∃ skipped copied,
            v.table.Follows (v.root.get slot).firstBlock f.offset
              (min count ((v.root.get slot).size - f.offset)) skipped copied) ∨
          (∃ i c, e = .io i c) ∧ ((storage d fs.world).whole → ¬ NeverFails d fs₁.world))) := by
  have hmounted := tidy_of_mount hm
  have ht := hr.tidy hmounted v hv
  have hmoored : (storage d fs.world).whole → Moored d v fs₁.world :=
    fun hw => hr.moored hmounted (moored_of_mount hm hw) v hv
  obtain ⟨_, w⟩ := fs₁
  cases hv
  obtain ⟨slot, hs, -⟩ := ht.resolve_eq hf
  refine ⟨slot, hs, onVolume_ends (m := ⟨v, w⟩)
    ((Mounted.read_ends_of_tidy (m := ⟨v, w⟩) ht hs rfl).mono ?_ ?_)⟩
  · intro bytes m' hok
    rcases hok with ⟨⟨w', rfl, -⟩, hsize, hread⟩
    dsimp only at hsize hread ⊢
    rw [← hsize] at hread ⊢
    refine ⟨rfl, rfl, fun hpos => ?_⟩
    obtain ⟨blocks, htrail, hl, hfrom⟩ := hread hpos
    obtain ⟨skipped, copied, last, rfl, hfollows⟩ := htrail.follows hpos hl
    exact ⟨skipped, copied, last, hfollows, hfrom, hfollows.sound_iff,
      fun blocks hc => hfollows.prefix_of_chain ht.table_size_le hc⟩
  · intro e m' herr
    rcases herr with ⟨-, ⟨he, hno, w', rfl, -⟩ | hfail⟩
    · refine ⟨rfl, .inl ⟨he, fun hq => ?_⟩⟩
      obtain ⟨skipped, copied, hfollows⟩ := hq
      exact hno ⟨_, hfollows.trail, hfollows.reached_eq⟩
    · obtain ⟨b, c, rfl⟩ := hfail.error_eq
      refine ⟨congrArg some hfail.volume_eq, .inr ⟨⟨_, c, rfl⟩, fun hw hn => ?_⟩⟩
      obtain hmoor := hmoored hw
      refine hfail.fails (hmoor.inRange (m := ⟨v, w⟩) ht) ?_
      rw [Mounted.NeverFails, hmoor.device_eq]
      exact hn

/-- In memory, where the first block of a file of twenty blocks leads to itself: the whole file is
    read, and this block is read twenty times. -/
theorem read_sound_iff_looped : ∃ fs fs₁ fs₂ bytes,
    mount () (ofWorld (Memory.holding 16 (Volume.lone looped (Entry.twentyBlocks 1)))) = .ok () fs ∧
    Reachable fs fs₁ ∧ read 0 81920 fs₁ = .ok bytes fs₂ ∧ bytes.size = 81920 ∧
    ReadFrom Superblock.sixteen (storage () fs₁.world) (List.replicate 20 1) 0 81920 bytes := by
  have hw := Volume.writable_lone size_looped (Entry.storable_twentyBlocks 1)
  have hs := Volume.find?_lone (t := looped) (e := Entry.twentyBlocks 1) rfl
  have hget := Volume.get_lone looped (Entry.twentyBlocks 1)
  have hfollows : looped.Follows 1 0 81920 [] (List.replicate 20 1) :=
    ⟨trail_looped 19, rfl, by decide⟩
  obtain ⟨fs, files, w, hm, hr, hf, hn⟩ := exists_opened hw hs (Nat.zero_le _)
  obtain ⟨slot, hres, hends⟩ := read_sound_iff hm hr rfl hf 81920
  obtain rfl : slot = ⟨0, by decide⟩ :=
    Option.some.inj ((Volume.resolve_eq_ok_iff.mp hres).2.symm.trans hs)
  dsimp only at hends
  rw [hget] at hends
  obtain ⟨hok, herr⟩ := ends_iff.mp hends
  cases hx : read 0 81920 (ofMounted ⟨{ Volume.lone looped (Entry.twentyBlocks 1) with files }, w⟩) with
  | ok bytes fs₂ =>
    obtain ⟨hsize, -, hread⟩ := hok bytes fs₂ hx
    rw [show min 81920 ((Entry.twentyBlocks 1).size - 0) = 81920 from rfl] at hsize
    rw [hsize] at hread
    obtain ⟨skipped, copied, last, hread, hfrom, -⟩ := hread (by decide)
    obtain ⟨rfl, heq⟩ := hread.unique hfollows
    rw [heq] at hfrom
    exact ⟨fs, _, fs₂, bytes, hm, hr, hx, hsize, hfrom⟩
  | error e fs₂ =>
    rcases (herr e fs₂ hx).2 with ⟨-, hno⟩ | ⟨-, hfails⟩
    · exact absurd ⟨[], List.replicate 20 1, hfollows⟩ hno
    · exact absurd hn (hfails (Memory.whole_storage _))

end FileSystem

end FlatVolume
