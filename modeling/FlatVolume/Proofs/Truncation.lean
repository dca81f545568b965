import FlatVolume.Proofs.Prepared
import FlatVolume.Proofs.Walks

/-!
# Shortening files of any volume

The new last block is found by counting off links, so `truncate` does not notice when the chain
runs in a loop: it cuts the loop behind that block, and what was cut off leads back to it and is
freed together with it. `Volume.KeepsLoop v e size` says that this is the case for the file `e`.

* Whatever the table holds, a truncate that succeeds leaves a file of the new size, and this file
  has its blocks unless the last of them was on a loop; one that fails and not for the size
  reports a corrupt chain, and the file had no chain that was long enough
  (`FileSystem.truncate_sound_iff`);
* on a loop it succeeds and leaves a file without a chain.
-/

namespace FlatVolume

open AllocationTable FlatVolume.Computation
open FileSystem (ofMounted ofWorld)
open Link (free endOfChain)

variable {W H : Type}

namespace Volume

variable {v : Volume H} {e : Entry} {size : Nat}

/-- **The last block that the file `e` keeps when it is shortened to `size` bytes is on a loop.** -/
def KeepsLoop (v : Volume H) (e : Entry) (size : Nat) : Prop :=
  ∃ kept last, kept.length + 1 = ceilDiv size blockSize ∧ v.table.Path e.firstBlock kept last ∧
    v.table.OnLoop last

/-- The last block that is kept is where counting off links leads. -/
theorem keepsLoop_iff {k : Nat} (hk : ceilDiv size blockSize = k + 1) :
    v.KeepsLoop e size ↔
      ∃ last, v.table.nthBlock e.firstBlock k = .ok last ∧ v.table.OnLoop last := by
  constructor
  · intro hq
    rcases hq with ⟨kept, last, hl, hp, hloop⟩
    exact ⟨last, nthBlock_eq_ok_iff.mpr ⟨kept, hp, by omega⟩, hloop⟩
  · intro hq
    rcases hq with ⟨last, hn, hloop⟩
    obtain ⟨kept, hp, hl⟩ := nthBlock_eq_ok_iff.mp hn
    exact ⟨kept, last, by omega, hp, hloop⟩

theorem not_keepsLoop_of_eq_zero (hk : ceilDiv size blockSize = 0) : ¬ v.KeepsLoop e size := by
  intro hq
  rcases hq with ⟨kept, last, hl, -⟩
  omega

/-- **Where counting off links leads to no data block,** there is neither a loop nor a chain that is
    long enough. -/
theorem short_of_nthBlock {k : Nat} (hk : ceilDiv size blockSize = k + 1)
    (hno : ∀ last, v.table.nthBlock e.firstBlock k = .ok last → ¬ v.table.isDataBlock last = true) :
    ¬ v.KeepsLoop e size ∧ ∀ blocks, v.table.Chain e.firstBlock blocks → blocks.length < k + 1 := by
  refine ⟨fun hq => ?_, fun blocks hc => Nat.lt_of_not_le fun hle => ?_⟩
  · obtain ⟨last, hn, hloop⟩ := (keepsLoop_iff hk).mp hq
    obtain ⟨-, next, link⟩ := hloop.link?
    exact hno last hn (isDataBlock_of_link? link)
  · obtain ⟨last, hn, hb⟩ := hc.exists_nthBlock hle
    exact hno last hn hb

end Volume

namespace Mounted

variable {m : Mounted W H} {slot : Slot} {fd size keep : Nat} {f : OpenFile}

/-- A descriptor of a file that was shortened stands in it, not past its end. -/
theorem resolve_cutDown (hr : m.volume.resolve fd = .ok (f, slot)) (size : Nat) (first : Link)
    (t : AllocationTable) : (m.cutDown slot f.name size first t).volume.resolve fd =
      .ok (⟨f.name, min f.offset size⟩, slot) := by
  obtain ⟨hf, hs⟩ := Volume.resolve_eq_ok_iff.mp hr
  refine Volume.resolve_eq_ok_iff.mpr ⟨?_, ?_⟩
  · show (m.volume.files.clamp f.name size).get? fd = _
    rw [OpenFiles.get?_clamp, hf, Option.map_some, if_pos (beq_self_eq_true _)]
  · exact (Directory.find?_set_of_name_eq (by rfl) _).trans hs

/-- **Cutting a chain of any kind and freeing what was cut off.** -/
theorem cutChain_freeChain_ends (ht : m.volume.Tidy) (slot : Slot) (size : Nat) :
    Ends (cutChain slot (ceilDiv size blockSize)) m
      (fun released m' => ∃ t first,
        m' = { m with volume := { m.volume with
          table := t
          root := m.volume.root.set slot { m.volume.root.get slot with firstBlock := first } } } ∧
        Ends (freeChain released) t
          (fun _ t' => (¬ m.volume.KeepsLoop (m.volume.root.get slot) size ∧
              ∃ blocks, Chain t' first blocks ∧ blocks.length = ceilDiv size blockSize) ∨
            (m.volume.KeepsLoop (m.volume.root.get slot) size ∧ ¬ ∃ blocks, Chain t' first blocks))
          (fun e _ => (∃ b, e = .corruptChain b) ∧
            ¬ m.volume.KeepsLoop (m.volume.root.get slot) size ∧
            ¬ ∃ blocks, Chain m.volume.table (m.volume.root.get slot).firstBlock blocks))
      (fun e m' => m' = m ∧ (∃ b, e = .corruptChain b) ∧
        ¬ m.volume.KeepsLoop (m.volume.root.get slot) size ∧
        ∀ blocks, Chain m.volume.table (m.volume.root.get slot).firstBlock blocks →
          blocks.length < ceilDiv size blockSize) := by
  have hs := ht.table_size_le
  cases hk : ceilDiv size blockSize with
  | zero =>
    have hno : ¬ m.volume.KeepsLoop (m.volume.root.get slot) size :=
      Volume.not_keepsLoop_of_eq_zero hk
    refine ⟨m.volume.table, endOfChain, rfl, ends_iff.mpr ⟨fun n t' _ => ?_, fun e t' hf => ?_⟩⟩
    · exact .inl ⟨hno, [], .done, rfl⟩
    · refine ⟨freeChain_eq_error hf, hno, fun hq => ?_⟩
      rcases hq with ⟨blocks, hc⟩
      rw [hc.freeChain_eq] at hf
      cases hf
  | succ k =>
    rw [Ends, cutChain_succ_run]
    cases hn : m.volume.table.nthBlock (m.volume.root.get slot).firstBlock k with
    | error e =>
      refine ⟨rfl, nthBlock_eq_error hn, Volume.short_of_nthBlock hk fun last hok => ?_⟩
      rw [hn] at hok
      cases hok
    | ok last =>
      dsimp only
      by_cases hb : m.volume.table.isDataBlock last = true
      · rw [if_pos hb]
        obtain ⟨kept, hp, hl⟩ := nthBlock_eq_ok_iff.mp hn
        have hloop : m.volume.KeepsLoop (m.volume.root.get slot) size ↔ OnLoop m.volume.table last := by
          rw [Volume.keepsLoop_iff hk, hn]
          refine ⟨fun hq => ?_, fun h => ⟨last, rfl, h⟩⟩
          obtain ⟨_, heq, h⟩ := hq
          exact Except.ok.inj heq ▸ h
        obtain ⟨a, he⟩ := exists_entry_of_isDataBlock hb
        refine ⟨_, (m.volume.root.get slot).firstBlock, by rw [Directory.set_eta], ?_⟩
        rw [hloop, he]
        refine (cut_freeChain_ends hp hb (ne_endOfChain_of_isDataBlock hs hb) he).mono ?_
          fun _ _ h => h
        intro n t' hok
        rcases hok with ⟨hno, hc⟩ | hq
        · exact .inl ⟨hno, _, hc, by simp [hl]⟩
        · exact .inr hq
      · rw [if_neg hb]
        refine ⟨rfl, ⟨last, rfl⟩, Volume.short_of_nthBlock hk fun last' hok => ?_⟩
        obtain rfl := Except.ok.inj (hn.symm.trans hok)
        exact hb

/-- **Shortening a file of any volume,** however it ends. -/
theorem truncate_ends_of_tidy (ht : m.volume.Tidy) (hr : m.volume.resolve fd = .ok (f, slot))
    (size : Nat) : Ends (truncate fd size) m
      (fun _ m' => size ≤ (m.volume.root.get slot).size ∧
        m'.volume.resolve fd = .ok (⟨f.name, min f.offset size⟩, slot) ∧
        (m'.volume.root.get slot).size = size ∧
        ((¬ m.volume.KeepsLoop (m.volume.root.get slot) size ∧
            ∃ blocks, m'.volume.HasBlocks (m'.volume.root.get slot) blocks) ∨
          (m.volume.KeepsLoop (m.volume.root.get slot) size ∧
            ¬ ∃ blocks, Chain m'.volume.table (m'.volume.root.get slot).firstBlock blocks)))
      (fun e m' =>
        ((m.volume.root.get slot).size < size ∧ m' = m ∧
          e = .offsetOutOfRange size (m.volume.root.get slot).size) ∨
        (size ≤ (m.volume.root.get slot).size ∧ (∃ b, e = .corruptChain b) ∧
          ¬ m.volume.KeepsLoop (m.volume.root.get slot) size ∧
          ∀ blocks, Chain m.volume.table (m.volume.root.get slot).firstBlock blocks →
            blocks.length < ceilDiv size blockSize)) := by
  unfold Ends
  rw [truncate_run, hr]
  dsimp only
  by_cases hlt : (m.volume.root.get slot).size < size
  · rw [if_pos hlt]
    exact .inl ⟨hlt, rfl, rfl⟩
  · rw [if_neg hlt]
    have hle := Nat.le_of_not_lt hlt
    have hcut := cutChain_freeChain_ends ht slot size
    unfold Ends at hcut
    cases hc : cutChain slot (ceilDiv size blockSize) m with
    | error e m' =>
      rw [hc] at hcut
      obtain ⟨-, he, hloop, hshort⟩ := hcut
      exact .inr ⟨hle, he, hloop, hshort⟩
    | ok released m' =>
      rw [hc] at hcut
      obtain ⟨t, first, rfl, hfree⟩ := hcut
      cases hf : freeChain released t with
      | error e t' =>
        simp only [hf] at hfree ⊢
        obtain ⟨he, hloop, hno⟩ := hfree
        exact .inr ⟨hle, he, hloop, fun blocks hc => absurd ⟨blocks, hc⟩ hno⟩
      | ok n t' =>
        simp only [hf] at hfree ⊢
        have hentry : (m.cutDown slot f.name size first t').volume.root.get slot =
            ⟨(m.volume.root.get slot).name, size, first⟩ := Directory.get_set_self _ _ _
        rw [shortened_of_cut, hentry]
        refine ⟨hle, resolve_cutDown hr size first t', rfl, ?_⟩
        rcases hfree with ⟨hloop, blocks, hch, hlen⟩ | hbad
        · exact .inl ⟨hloop, blocks, hch, hlen⟩
        · exact .inr hbad

end Mounted

/-! ## 2. Over runs -/

namespace FileSystem

variable [BlockDevice W H] [LawfulBlockDevice W H]

/-- **What a truncate leaves,** on any volume that was mounted and in any state it has come to. If it
    succeeds, the file has the new size; its chain is as long as that size needs, made of data
    blocks in use, unless the last block it keeps was on a loop: then it has no chain any more. If
    it fails and the new size was not too large, it reports a corrupt chain, and the file had no
    chain that was long enough. -/
theorem truncate_sound_iff {d : H} {fs fs₀ fs₁ : FileSystem W H} {v : Volume H} {fd : Nat}
    {f : OpenFile} (hm : mount d fs = .ok () fs₀) (hr : Reachable fs₀ fs₁)
    (hv : fs₁.mounted = some v) (hf : v.files.get? fd = some f) (size : Nat) :
    ∃ slot, v.resolve fd = .ok (f, slot) ∧ Ends (truncate fd size) fs₁
      (fun _ fs₂ => size ≤ (v.root.get slot).size ∧ ∃ v', fs₂.mounted = some v' ∧
        v'.resolve fd = .ok (⟨f.name, min f.offset size⟩, slot) ∧ (v'.root.get slot).size = size ∧
        ((∃ blocks, v'.HasBlocks (v'.root.get slot) blocks) ↔
          ¬ v.KeepsLoop (v.root.get slot) size))
      (fun e fs₂ =>
        ((v.root.get slot).size < size ∧ fs₂ = fs₁ ∧
          e = .offsetOutOfRange size (v.root.get slot).size) ∨
        (size ≤ (v.root.get slot).size ∧ (∃ b, e = .corruptChain b) ∧
          ¬ v.KeepsLoop (v.root.get slot) size ∧
          ∀ blocks, v.table.Chain (v.root.get slot).firstBlock blocks →
            blocks.length < ceilDiv size blockSize)) := by
  have ht := hr.tidy (tidy_of_mount hm) v hv
  obtain ⟨_, w⟩ := fs₁
  cases hv
  obtain ⟨slot, hs, -⟩ := ht.resolve_eq hf
  refine ⟨slot, hs, onVolume_ends (m := ⟨v, w⟩)
    ((Mounted.truncate_ends_of_tidy (m := ⟨v, w⟩) ht hs size).mono ?_ ?_)⟩
  · intro _ m' hok
    rcases hok with ⟨hle, hr', hsize, hcases⟩
    refine ⟨hle, m'.volume, rfl, hr', hsize, ?_⟩
    rcases hcases with ⟨hno, hb⟩ | ⟨hloop, hno⟩
    · exact iff_of_true hb hno
    · exact iff_of_false (fun ⟨blocks, hb⟩ => hno ⟨blocks, hb.chain⟩) fun h => h hloop
  · intro e m' herr
    rcases herr with ⟨hlt, rfl, he⟩ | hcorrupt
    · exact .inl ⟨hlt, rfl, he⟩
    · exact .inr hcorrupt

/-- In memory, where the first block of a file of twenty blocks leads to itself: shortening the file to
    the size it has succeeds, and leaves it without a chain. -/
theorem truncate_sound_iff_looped : ∃ fs fs₁ fs₂ v slot,
    mount () (ofWorld (Memory.holding 16 (Volume.lone looped (Entry.twentyBlocks 1)))) = .ok () fs ∧
    Reachable fs fs₁ ∧ truncate 0 81920 fs₁ = .ok () fs₂ ∧ fs₂.mounted = some v ∧
    (v.root.get slot).size = 81920 ∧ ¬ ∃ blocks, v.HasBlocks (v.root.get slot) blocks := by
  have hw := Volume.writable_lone size_looped (Entry.storable_twentyBlocks 1)
  have hs := Volume.find?_lone (t := looped) (e := Entry.twentyBlocks 1) rfl
  have hget := Volume.get_lone looped (Entry.twentyBlocks 1)
  obtain ⟨fs, files, w, hm, hr, hf, -⟩ := exists_opened hw hs (Nat.zero_le _)
  obtain ⟨slot, hres, hends⟩ := truncate_sound_iff hm hr rfl hf 81920
  obtain rfl : slot = ⟨0, by decide⟩ :=
    Option.some.inj ((Volume.resolve_eq_ok_iff.mp hres).2.symm.trans hs)
  have hloop : Volume.KeepsLoop { Volume.lone looped (Entry.twentyBlocks 1) with files }
      (Entry.twentyBlocks 1) 81920 :=
    ⟨List.replicate 19 1, 1, rfl, path_looped 19, onLoop_looped⟩
  dsimp only at hends
  rw [hget] at hends
  obtain ⟨hok, herr⟩ := ends_iff.mp hends
  cases ht : truncate 0 81920 (ofMounted ⟨{ Volume.lone looped (Entry.twentyBlocks 1) with files }, w⟩) with
  | ok u fs₂ =>
    obtain ⟨-, v, hv, -, hsize, hiff⟩ := hok u fs₂ ht
    exact ⟨fs, _, fs₂, v, _, hm, hr, ht, hv, hsize, fun hq => hiff.mp hq hloop⟩
  | error e fs₂ =>
    rcases herr e fs₂ ht with ⟨hlt, -⟩ | ⟨-, -, hno, -⟩
    · exact absurd hlt (by decide)
    · exact absurd hloop hno

end FileSystem

end FlatVolume
