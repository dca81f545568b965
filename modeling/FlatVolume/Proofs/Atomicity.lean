import FlatVolume.Proofs.Footprints
import FlatVolume.Proofs.Prepared

/-!
# Operations that fail

An operation that fails leaves everything in memory as it was: the table, the directory, the
descriptors and their offsets, and being mounted. This is so on every volume that can be mounted and
with every device, and the exceptions are those of `Operation.PartlyDone`:

* a write that has stored a block;
* a delete, or a truncate past its cut, that was freeing blocks and was led to one that is not in use;
* an unmount whose device could not be closed.

The proof is `Operation.run_traced`, for each operation, along the run (`FileSystem.failure_atomic`).
-/

namespace FlatVolume

open AllocationTable FlatVolume.Computation
open Link (endOfChain)

variable {W H : Type}

/-! ## 1. A truncate that finds no last block -/

section Truncate

variable {m : Mounted W H} {slot : Slot} {fd size k : Nat} {f : OpenFile} {e : VolumeError}

/-- Counting off the blocks to keep comes before the first change. -/
theorem Mounted.truncate_of_nthBlock (hr : m.volume.resolve fd = .ok (f, slot))
    (hsize : size ≤ (m.volume.root.get slot).size) (hk : ceilDiv size blockSize = k + 1)
    (hn : m.volume.table.nthBlock (m.volume.root.get slot).firstBlock k = .error e) :
    truncate fd size m = .error e m := by
  rw [truncate_run, hr]
  dsimp only
  rw [if_neg (Nat.not_lt_of_le hsize), hk, cutChain_succ_run, hn]

theorem Volume.CutOff.exists_nthBlock {v : Volume H} {released : Link} {t : AllocationTable}
    (h : v.CutOff slot (k + 1) released t) :
    ∃ last, v.table.nthBlock (v.root.get slot).firstBlock k = .ok last := by
  cases h with
  | behind hn => exact ⟨_, hn⟩

end Truncate

/-! ## 2. Over runs -/

namespace FileSystem

variable [BlockDevice W H]

/-- **An operation that fails changes nothing in memory,** unless it was partly done. In particular a
    write that has stored no block leaves table and directory as they were, and a mount that fails
    always does. -/
theorem failure_atomic {d : H} {fs fs₀ fs₁ : FileSystem W H} (hm : mount d fs = .ok () fs₀)
    (hr : Driven fs₀ fs₁) :
    (∀ op e fs₂, Operation.run op fs₁ = .error e fs₂ → fs₂.mounted = fs₁.mounted ∨
      ∃ v, fs₁.mounted = some v ∧ op.PartlyDone v e (op.events fs₁)) ∧
    (∀ fd data e fs₂, write fd data fs₁ = .error e fs₂ →
      ¬ Wrote ((Operation.file (.write fd data)).events fs₁) → fs₂.mounted = fs₁.mounted) ∧
    ∀ d' e fs₂, mount d' fs₁ = .error e fs₂ → fs₂.mounted = fs₁.mounted := by
  have hop : ∀ op e fs₂, Operation.run op fs₁ = .error e fs₂ → fs₂.mounted = fs₁.mounted ∨
      ∃ v, fs₁.mounted = some v ∧ op.PartlyDone v e (op.events fs₁) := by
    intro op e fs₂ hrun
    rcases op.run_cases (hr.tidy_of_mount hm) with ⟨hrefused, -⟩ | ⟨v, hv, htrace⟩
    · cases hrefused.symm.trans hrun
      exact .inl rfl
    · have h := ((ends_iff.mp htrace).2 e fs₂ hrun).unchanged e rfl
      exact h.imp (fun hsame => hsame.trans hv.symm) fun hpart => ⟨v, hv, hpart⟩
  refine ⟨hop, fun fd data e fs₂ hrun hno => ?_, fun d' e fs₂ hrun => ?_⟩
  · have hfail : (Operation.file (.write fd data)).run fs₁ = .error e fs₂ :=
      discard_eq_error_iff.mpr (map_eq_error_iff.mpr hrun)
    refine (hop _ e fs₂ hfail).resolve_right fun hq => ?_
    rcases hq with ⟨v, -, ⟨⟨hw⟩⟩⟩
    exact hno hw
  · exact ((ends_iff.mp (mount_calls d' fs₁)).2 e fs₂ hrun).1

/-- In memory, where the only file says that it has twenty blocks and has none: it cannot be shortened
    to that size, and nothing is changed. -/
theorem failure_atomic_chainless : ∃ fs fs₁ e fs₂,
    mount () (ofWorld (Memory.holding 16
      (Volume.lone (AllocationTable.empty 13) (Entry.twentyBlocks endOfChain)))) = .ok () fs ∧
    Driven fs fs₁ ∧ fs₁.isMounted = true ∧ truncate 0 81920 fs₁ = .error e fs₂ ∧
    fs₂.mounted = fs₁.mounted := by
  have hw := Volume.writable_lone (AllocationTable.size_empty 13)
    (Entry.storable_twentyBlocks endOfChain)
  have hs := Volume.find?_lone (t := AllocationTable.empty 13)
    (e := Entry.twentyBlocks endOfChain) rfl
  have hget := Volume.get_lone (AllocationTable.empty 13) (Entry.twentyBlocks endOfChain)
  obtain ⟨fs, files, w, hm, hr, hf, -⟩ := exists_opened hw hs (Nat.zero_le _)
  obtain ⟨v, hv⟩ : ∃ v, v = { Volume.lone (AllocationTable.empty 13)
    (Entry.twentyBlocks endOfChain) with files } := ⟨_, rfl⟩
  have hres : v.resolve 0 = .ok (⟨"a", 0⟩, ⟨0, by decide⟩) :=
    Volume.resolve_eq_ok_iff.mpr (by rw [hv]; exact ⟨hf, hs⟩)
  have hentry : v.root.get ⟨0, by decide⟩ = Entry.twentyBlocks endOfChain := by
    rw [hv]
    exact hget
  -- from the end of a chain no link leads on
  have hnth : v.table.nthBlock (v.root.get ⟨0, by decide⟩).firstBlock 19 =
      .error (.corruptChain endOfChain) := by rw [hentry, hv]; rfl
  rw [← hv] at hr
  have hrun : truncate 0 81920 (ofMounted ⟨v, w⟩) =
      .error (.corruptChain endOfChain) (ofMounted ⟨v, w⟩) := by
    rw [truncate, onVolume_run, Mounted.truncate_of_nthBlock (m := ⟨v, w⟩) hres ?_ rfl hnth]
    rw [hentry]
    exact Nat.le_refl 81920
  have hfail : (Operation.file (.truncate 0 81920)).run (ofMounted ⟨v, w⟩) =
      .error (.corruptChain endOfChain) (ofMounted ⟨v, w⟩) :=
    discard_eq_error_iff.mpr (map_eq_error_iff.mpr hrun)
  refine ⟨fs, _, _, _, hm, hr.driven, rfl, hrun, ?_⟩
  refine ((failure_atomic hm hr.driven).1 _ _ _ hfail).resolve_right ?_
  rintro ⟨v', hv', ⟨hpart⟩⟩
  obtain rfl := Option.some.inj hv'
  cases hpart with
  | shortened hr' hc =>
    cases hr'.symm.trans hres
    obtain ⟨last, hok⟩ := Volume.CutOff.exists_nthBlock (k := 19) hc
    cases hnth.symm.trans hok

end FileSystem

end FlatVolume
