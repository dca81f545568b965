import FlatVolume.Proofs.Mooring
import FlatVolume.Proofs.Prepared

/-!
# Reading back what was written, on any volume

A write counts blocks in the chain and goes on behind it, while a read counts links to the block of
its offset. Where the offset lies in the chain or in the block behind it, both come to the same
place, and what was written is read back. Further behind the chain the bytes land in front of their
offset (`landing`), and a read at the offset finds no block (`Entered.read_ends_at_offset`).

Together with what the next mount shows of the size, this is what becomes of a write on any volume
that was mounted (`FileSystem.write_readback_iff`).
-/

namespace FlatVolume

open AllocationTable Bytes FlatVolume.Computation Mounted
open FileSystem (ofMounted ofWorld)
open LawfulBlockDevice (storage)

variable {W H : Type} [BlockDevice W H] [LawfulBlockDevice W H]

/-! ## 1. Reading where a write began -/

namespace Mounted

variable {m m' : Mounted W H} {fd k : Nat} {f : OpenFile} {slot : Slot} {old new : List Link}
  {data : ByteArray}

/-- **The chain reaches to the end of what was written** exactly if the write did not begin further
    behind it than in the next block. -/
theorem Entered.reaches_iff (h : Entered m m' fd f slot old new data k) (hk : 0 < k) :
    ceilDiv (f.offset + k) blockSize ≤ new.length ↔ f.offset / blockSize ≤ old.length := by
  rw [h.length_eq hk]
  constructor
  · intro hle
    refine Nat.le_of_not_lt fun hlt => ?_
    rw [landing, Nat.min_eq_right (Nat.le_of_lt hlt)] at hle
    simp only [ceilDiv, blockSize] at hle hlt
    omega
  · intro hle
    rw [landing_of_le hle]
    exact Nat.le_max_right _ _

/-- What was written stands at its offset, if that is where it landed. -/
theorem Entered.bytes_eq (h : Entered m m' fd f slot old new data k) (hk : k ≤ data.size)
    (ho : f.offset / blockSize ≤ old.length) {bytes : ByteArray}
    (hb : ReadFrom m.volume.superblock m'.storage new f.offset k bytes) :
    bytes = data.extract 0 k := by
  have hsize : bytes.size = (data.extract 0 k).size := by
    rw [hb.size_eq, ByteArray.size_extract]
    omega
  refine ext_byteAt hsize fun i hi => ?_
  rw [hb.size_eq] at hi
  rw [hb.byteAt_eq i hi, h.bytes, landing_of_le ho, if_pos (by omega), byteAt_extract (by omega)]
  congr 1
  omega

/-- **A read at the offset of a write:** it gives what was written if the write began in the chain or
    right behind it, and reports a corrupt chain otherwise. -/
theorem Entered.read_ends_at_offset (h : Entered m m' fd f slot old new data k) (hk : 0 < k)
    (hkd : k ≤ data.size) (ht : m'.volume.Tidy) :
    Ends (read fd k)
      { m' with volume := { m'.volume with files := m'.volume.files.moveTo fd f.offset } }
      (fun bytes _ => bytes = data.extract 0 k ∧ f.offset / blockSize ≤ old.length)
      (fun e _ => ((∃ b, e = .corruptChain b) ∧ old.length < f.offset / blockSize) ∨
        (m'.InRange → ¬ m'.NeverFails)) := by
  obtain ⟨hf, hs⟩ := Volume.resolve_eq_ok_iff.mp h.resolve_eq
  have hle : f.offset + k ≤ (m'.volume.root.get slot).size := by
    rw [h.size_eq]
    exact Nat.le_max_right _ _
  have hmoved : Volume.resolve
      { m'.volume with files := m'.volume.files.moveTo fd f.offset } fd =
        .ok (⟨f.name, f.offset⟩, slot) := by
    refine Volume.resolve_eq_ok_iff.mpr ⟨?_, hs⟩
    rw [OpenFiles.get?_moveTo, if_pos rfl, hf]
    rfl
  have hwanted : k = min k ((m'.volume.root.get slot).size - f.offset) := by omega
  have htidy := ht.moved hf hs (show f.offset ≤ (m'.volume.root.get slot).size by omega)
  refine (read_ends_of_tidy (m := ⟨_, m'.world⟩) htidy hmoved hwanted).mono ?_ ?_
  · intro bytes m'' hok
    rcases hok with ⟨-, -, hread⟩
    obtain ⟨blocks, htrail, hl, hfrom⟩ := hread hk
    have hpre : blocks <+: new := htrail.prefix_of_chain ht.table_size_le h.chain_after
    have ho : f.offset / blockSize ≤ old.length := by
      rw [← h.reaches_iff hk, ← hl]
      exact hpre.length_le
    have hall := hfrom.of_prefix hpre (by rw [hl]; exact ceilDiv_mul_ge _)
    rw [show Volume.superblock _ = m'.volume.superblock from rfl, h.superblock_eq] at hall
    exact ⟨h.bytes_eq hkd ho hall, ho⟩
  · intro e m'' herr
    rcases herr with ⟨-, ⟨he, hno, -⟩ | hfail⟩
    · refine .inl ⟨he, Nat.lt_of_not_le fun ho => hno ?_⟩
      -- the chain begins with the trail that is needed
      exact h.chain_after.exists_trail (ceilDiv_pos (by omega)) ((h.reaches_iff hk).mpr ho)
    · exact .inr hfail.fails

end Mounted

/-! ## 2. Over runs -/

namespace FileSystem

/-- **The next mount shows the size** that `stat` shows, as far as 32 bits can. -/
theorem exists_remount_stat {d : H} {m : Mounted W H} {fd o : Nat} {name : String} {slot : Slot}
    (hr : m.volume.resolve fd = .ok (⟨name, o⟩, slot)) (ht : m.volume.Tidy)
    (h : Moored d m.volume m.world) (hn : NeverFails d m.world) :
    ∃ size w m', stat fd (ofMounted m) = .ok size (ofMounted m) ∧
      unmount (ofMounted m) = .ok () (ofWorld w) ∧ mount d (ofWorld w) = .ok () (ofMounted m') ∧
      m'.volume.root.find? name = some slot ∧
      (m'.volume.root.get slot).size = size % UInt32.size := by
  have hmounted : (ofMounted m).mounted = some m.volume := rfl
  obtain ⟨w, w', hu, hm⟩ := exists_remount hmounted ht h hn
  refine ⟨(m.volume.root.get slot).size, w, _, ?_, hu, hm, ?_, ?_⟩
  · rw [stat, query_run, hr]
    rfl
  · rw [Directory.find?_wrapped]
    exact (Volume.resolve_eq_ok_iff.mp hr).2
  · rw [Directory.get_wrapped]
    rfl

/-- **What becomes of a write,** on any volume that was mounted, in any state it has come to, where
    no call fails. A write that succeeds with `k > 0` has written to a file with a chain. Its bytes
    are read back at its offset if the offset was not further behind the chain than in the next
    block, and a corrupt chain is reported otherwise; and the next mount shows the size that `stat`
    showed, as far as 32 bits can. A write that fails had no free block for the first byte, or
    reports that the file has no chain. -/
theorem write_readback_iff {d : H} {fs fs₀ fs₁ : FileSystem W H} {v : Volume H} {fd : Nat}
    {f : OpenFile} (hm : mount d fs = .ok () fs₀) (hw : (storage d fs.world).whole)
    (hr : Reachable fs₀ fs₁) (hv : fs₁.mounted = some v) (hf : v.files.get? fd = some f)
    (hn : NeverFails d fs₁.world) (data : ByteArray) :
    ∃ slot, v.resolve fd = .ok (f, slot) ∧ Ends (write fd data) fs₁
      (fun k fs₂ => k ≤ data.size ∧ (0 < data.size → 0 < k) ∧ (0 < k →
        ∃ blocks, v.table.Chain (v.root.get slot).firstBlock blocks ∧
          (∃ fs₃, seek fd f.offset fs₂ = .ok () fs₃ ∧ Ends (read fd k) fs₃
            (fun bytes _ => bytes = data.extract 0 k ∧ f.offset / blockSize ≤ blocks.length)
            (fun e _ => (∃ b, e = .corruptChain b) ∧ blocks.length < f.offset / blockSize)) ∧
          ∃ size w m', stat fd fs₂ = .ok size fs₂ ∧ unmount fs₂ = .ok () (ofWorld w) ∧
            mount d (ofWorld w) = .ok () (ofMounted m') ∧
            m'.volume.root.find? f.name = some slot ∧
            (m'.volume.root.get slot).size = size % UInt32.size))
      (fun e _ => (e = .diskFull ∧ v.table.lowestFree? = none) ∨
        ((∃ b, e = .corruptChain b) ∧
          ¬ ∃ blocks, v.table.Chain (v.root.get slot).firstBlock blocks)) := by
  have ht := hr.tidy (tidy_of_mount hm) v hv
  have hmoor := hr.moored (tidy_of_mount hm) (moored_of_mount hm hw) v hv
  obtain ⟨_, w₁⟩ := fs₁
  cases hv
  obtain ⟨slot, hs, -⟩ := ht.resolve_eq hf
  have hnever : Mounted.NeverFails (⟨v, w₁⟩ : Mounted W H) := by
    rw [Mounted.NeverFails, hmoor.device_eq]
    exact hn
  refine ⟨slot, hs, onVolume_ends (m := ⟨v, w₁⟩) ?_⟩
  rcases Nat.eq_zero_or_pos data.size with h0 | hpos
  · refine Ends.of_ok (write_of_size_eq_zero hs h0) ⟨Nat.zero_le _, fun hpos => ?_, fun hk => ?_⟩
    · exact absurd h0 (Nat.ne_of_gt hpos)
    · exact absurd hk (Nat.lt_irrefl 0)
  by_cases hc : ∃ blocks, v.table.Chain (v.root.get slot).firstBlock blocks
  · obtain ⟨blocks, hc⟩ := hc
    have hwrite := write_ends_of_chain (m := ⟨v, w₁⟩) ht hs hc hpos
    refine (hwrite.and (write_tidy (m := ⟨v, w₁⟩) ht fd data)).mono ?_ ?_
    · intro k m₂ hok
      rcases hok with ⟨⟨new, he, hk, hkd, hnf⟩, ht₂⟩
      have hmoor₂ : Moored d m₂.volume m₂.world := Moored.steady (m := ⟨v, w₁⟩) hmoor (he.steady ht)
      have hnever₂ := hnf hnever
      refine ⟨hkd, fun _ => hk, fun _ => ⟨blocks, hc, ?_, ?_⟩⟩
      · refine ⟨_, ?_, onVolume_ends ((he.read_ends_at_offset hk hkd ht₂).mono
          (fun _ _ h => h) fun e m₃ herr => ?_)⟩
        · rw [seek_run, he.resolve_eq]
          dsimp only
          rw [if_neg (by rw [he.size_eq]; omega)]
        · exact herr.resolve_right fun hfail => hfail (hmoor₂.inRange ht₂) hnever₂
      · rw [Mounted.NeverFails, hmoor₂.device_eq] at hnever₂
        exact exists_remount_stat he.resolve_eq ht₂ hmoor₂ hnever₂
    · intro e m₂ herr
      rcases herr with ⟨⟨new, k, -, -, ⟨rfl, -, hlow⟩ | ⟨-, hfail⟩⟩, -⟩
      · exact .inl ⟨rfl, hlow⟩
      · exact absurd hnever (hfail (hmoor.inRange (m := ⟨v, w₁⟩) ht))
  · obtain ⟨b, hb⟩ := write_of_no_chain (m := ⟨v, w₁⟩) hs hpos hc
    exact Ends.of_error hb (.inr ⟨⟨b, rfl⟩, hc⟩)

/-- In memory, where a file that says it has twenty blocks has none: a write to the last of them succeeds,
    and what was written is not read back. -/
theorem write_readback_iff_short : ∃ fs fs₁ fs₂ fs₃ fs₄ k b,
    mount () (ofWorld (Memory.holding 16
      (Volume.lone (AllocationTable.empty 13) (Entry.twentyBlocks Link.endOfChain)))) = .ok () fs ∧
    Reachable fs fs₁ ∧ write 0 "hello".toUTF8 fs₁ = .ok k fs₂ ∧ 0 < k ∧
    seek 0 77824 fs₂ = .ok () fs₃ ∧ read 0 k fs₃ = .error (.corruptChain b) fs₄ := by
  obtain ⟨e, he⟩ : ∃ e, e = Entry.twentyBlocks Link.endOfChain := ⟨_, rfl⟩
  have hw := Volume.writable_lone (AllocationTable.size_empty 13)
    (he ▸ Entry.storable_twentyBlocks Link.endOfChain)
  have hs := Volume.find?_lone (t := AllocationTable.empty 13) (e := e) (he ▸ rfl)
  have hget := Volume.get_lone (AllocationTable.empty 13) e
  have ho : 77824 ≤ ((Volume.lone (AllocationTable.empty 13) e).root.get ⟨0, by decide⟩).size := by
    rw [hget, he]
    decide
  obtain ⟨fs, files, w, hm, hr, hf, hn⟩ := exists_opened hw hs ho
  obtain ⟨slot, hres, hends⟩ :=
    write_readback_iff hm (Memory.whole_storage _) hr rfl hf hn "hello".toUTF8
  obtain rfl : slot = ⟨0, by decide⟩ :=
    Option.some.inj ((Volume.resolve_eq_ok_iff.mp hres).2.symm.trans hs)
  dsimp only at hends
  rw [hget, he] at hends
  have hempty : ∀ blocks, (AllocationTable.empty 13).Chain Link.endOfChain blocks → blocks = [] :=
    fun blocks hc => hc.unique .done
  obtain ⟨hok, herr⟩ := ends_iff.mp hends
  subst he
  cases hx : write 0 "hello".toUTF8 (ofMounted ⟨{ Volume.lone (AllocationTable.empty 13)
      (Entry.twentyBlocks Link.endOfChain) with files }, w⟩) with
  | ok k fs₂ =>
    obtain ⟨-, hpos, hread⟩ := hok k fs₂ hx
    obtain ⟨blocks, hc, ⟨fs₃, hseek, hback⟩, -⟩ := hread (hpos (by decide))
    obtain rfl := hempty blocks hc
    obtain ⟨hgood, hbad⟩ := ends_iff.mp hback
    cases hy : read 0 k fs₃ with
    | ok bytes fs₄ => exact absurd (hgood bytes fs₄ hy).2 (by decide)
    | error c fs₄ =>
      obtain ⟨⟨b, rfl⟩, -⟩ := hbad c fs₄ hy
      exact ⟨fs, _, fs₂, fs₃, fs₄, k, b, hm, hr, hx, hpos (by decide), hseek, hy⟩
  | error c fs₂ =>
    rcases herr c fs₂ hx with ⟨-, hlow⟩ | ⟨-, hno⟩
    · have hfree : (AllocationTable.empty 13).entries[1]? = some Link.free := by decide
      exact absurd hfree (lowestFree?_eq_none_iff.mp hlow 1 (Nat.le_refl 1))
    · exact absurd ⟨[], .done⟩ hno

end FileSystem

end FlatVolume
