import FlatVolume.Proofs.Formatted
import FlatVolume.Proofs.Steps

/-!
# Consistency is kept

A volume on which `check` found nothing wrong when it was mounted stays that way, whatever is done
with it and whichever calls of its device fail (`FileSystem.check_of_reachable`); and nothing that
is done reports a corrupt chain.

The invariant is `Volume.IsIntact`. One operation keeps it (`Operation.run_intact`), and so does a
run (`Reachable.intact`).
-/

namespace FlatVolume

open FlatVolume.Computation Mounted
open FileSystem (ofMounted)

variable {W H : Type} [BlockDevice W H] [LawfulBlockDevice W H]

/-! ## 1. The invariant -/

/-- An intact volume, whoever owns which block. -/
def Volume.IsIntact (v : Volume H) : Prop := ∃ own, v.Intact own

omit [LawfulBlockDevice W H] [BlockDevice W H] in
/-- A tidy volume is intact exactly if `check` finds nothing wrong. -/
theorem Volume.Tidy.check_eq_ok_iff {v : Volume H} (h : v.Tidy) :
    v.check = .ok () ↔ v.IsIntact := Volume.check_eq_ok_iff.trans h.consistent_iff

namespace FileSystem

omit [LawfulBlockDevice W H] [BlockDevice W H] in
theorem check_eq_ok_iff {fs fs' : FileSystem W H} : check fs = .ok () fs' ↔
    fs' = fs ∧ ∃ v, fs.mounted = some v ∧ v.check = .ok () := by
  obtain ⟨_ | v, w⟩ := fs
  · refine ⟨fun h => ?_, fun ⟨_, v, hv, _⟩ => ?_⟩
    · cases h
    · cases hv
  · have hrun := query_run Volume.check (⟨v, w⟩ : Mounted W H)
    cases hc : v.check with
    | ok u =>
      rw [hc] at hrun
      refine ⟨fun h => ?_, fun ⟨hfs, _⟩ => ?_⟩
      · cases h.symm.trans hrun
        exact ⟨rfl, v, rfl, hc⟩
      · rw [hfs]
        exact hrun
    | error e =>
      rw [hc] at hrun
      refine ⟨fun h => ?_, fun ⟨_, v', hv, hok⟩ => ?_⟩
      · cases h.symm.trans hrun
      · cases hv
        rw [hc] at hok
        cases hok

/-- A volume that was mounted and checked is intact. -/
theorem intact_of_check {d : H} {fs fs₀ fs₁ : FileSystem W H} (hm : mount d fs = .ok () fs₀)
    (hc : check fs₀ = .ok () fs₁) : fs₁.Mounting Volume.IsIntact := by
  obtain ⟨rfl, v, hv, hok⟩ := check_eq_ok_iff.mp hc
  intro v' hv'
  cases hv.symm.trans hv'
  exact (tidy_of_mount hm v hv).check_eq_ok_iff.mp hok

omit [LawfulBlockDevice W H] [BlockDevice W H] in
/-- What `check` finds nothing wrong with is intact, if it is tidy. -/
theorem intact_of_checked {fs : FileSystem W H} {v : Volume H} (ht : v.Tidy)
    (hv : fs.mounted = some v) (hc : check fs = .ok () fs) : v.IsIntact := by
  obtain ⟨-, v', hv', hok⟩ := check_eq_ok_iff.mp hc
  cases hv.symm.trans hv'
  exact ht.check_eq_ok_iff.mp hok

end FileSystem

/-! ## 2. One operation and runs -/

theorem Mounted.Stepped.intact {m m' : Mounted W H} {own : Slot → List Link}
    (hs : Stepped m m' own) (h : m.volume.Intact own) : m'.volume.IsIntact := by
  obtain ⟨slot, new, hr⟩ := hs.refiled
  exact ⟨_, h.refiled hs.tidy hr⟩

/-- **One operation keeps an intact volume intact,** and reports no corrupt chain. -/
theorem Operation.run_intact (op : Operation) {fs : FileSystem W H}
    (h : fs.Mounting Volume.IsIntact) : Ends op.run fs (fun _ fs' => fs'.Mounting Volume.IsIntact)
      (fun e fs' => (∀ b, e ≠ .corruptChain b) ∧ fs'.Mounting Volume.IsIntact) := by
  obtain ⟨_ | v, w⟩ := fs
  · exact Ends.of_error (op.run_of_none w) ⟨nofun, nofun⟩
  · obtain ⟨own, hi⟩ := h v rfl
    refine (op.run_stepped (m := ⟨v, w⟩) hi).mono ?_ ?_
    · intro _ fs' hs v' hv'
      exact (hs v' hv').intact hi
    · intro e fs' herr
      rcases herr with ⟨hs, he⟩
      exact ⟨he, fun v' hv' => (hs v' hv').intact hi⟩

/-- **Every volume that is reached from an intact one is intact.** -/
theorem Reachable.intact {fs₀ fs : FileSystem W H} (h : Reachable fs₀ fs)
    (h₀ : fs₀.Mounting Volume.IsIntact) : fs.Mounting Volume.IsIntact := by
  induction h with
  | start => exact h₀
  | step _ op ih =>
    exact Ends.stateAfter ((op.run_intact ih).mono (fun _ _ h => h) fun _ _ h => h.2)
  | elsewhere _ _ ih => exact ih

/-! ## 3. What `check` says -/

namespace FileSystem

/-- If a volume is mounted, its files are sound and `check` says so. -/
structure Checked (fs : FileSystem W H) : Prop where
  check_eq : fs.isMounted = true → check fs = .ok () fs
  consistent : fs.Mounting Volume.Consistent

omit [LawfulBlockDevice W H] [BlockDevice W H] in
theorem checked_of_intact {fs : FileSystem W H} (h : fs.Mounting Volume.IsIntact) :
    fs.Checked := by
  have hc : fs.Mounting Volume.Consistent := by
    intro v hv
    obtain ⟨own, hi⟩ := h v hv
    exact hi.toTidy.consistent_iff.mpr ⟨own, hi⟩
  refine ⟨fun hmounted => ?_, hc⟩
  obtain ⟨v, hv⟩ := Option.isSome_iff_exists.mp hmounted
  exact check_eq_ok_iff.mpr ⟨rfl, v, hv, Volume.check_eq_ok_iff.mpr (hc v hv)⟩

/-- `check` finds nothing wrong with a freshly formatted volume. -/
theorem check_fresh {n : Nat} (h : (Superblock.forBlockCount? n).isSome) :
    check (fresh n) = .ok () (fresh n) := by
  obtain ⟨sb, w, -, hm, hfs, -⟩ := fresh_spec h
  have hv : (fresh n).mounted = some (Volume.blank () sb) := by
    rw [hfs]
    rfl
  have ht := tidy_of_mount hm _ hv
  obtain ⟨total, hl⟩ := ht.layout
  refine check_eq_ok_iff.mpr ⟨rfl, _, hv, ht.check_eq_ok_iff.mpr ⟨_, Volume.intact_blank hl⟩⟩

/-- **Consistency is kept.** A run starts with a mount after which `check` finds nothing wrong.
    After every operation of the run, whether it succeeds or fails, `check` finds nothing wrong with
    what is still mounted, and no operation reports a corrupt chain. -/
theorem check_of_reachable {d : H} {fs fs₀ fs₁ fs₂ : FileSystem W H}
    (hm : mount d fs = .ok () fs₀) (hc : check fs₀ = .ok () fs₁) (hr : Reachable fs₁ fs₂)
    (op : Operation) : Ends op.run fs₂ (fun _ fs' => fs'.Checked)
      (fun e fs' => fs'.Checked ∧ ∀ b, e ≠ .corruptChain b) := by
  have hi := hr.intact (intact_of_check hm hc)
  refine (op.run_intact hi).mono ?_ ?_
  · exact fun _ _ h => checked_of_intact h
  · exact fun _ _ h => ⟨checked_of_intact h.2, h.1⟩

/-- A volume in memory on which a file was created and opened, and then all writes fail. -/
theorem check_of_reachable_memory :
    Ends (Operation.file (.write 0 "a".toUTF8)).run
      ((stateAfter (Operation.file (.openFile "a")).run
        (stateAfter (Operation.file (.create "a")).run (fresh 8))).withFaults
        { failWrites := true })
      (fun _ fs' => fs'.Checked) (fun e fs' => fs'.Checked ∧ ∀ b, e ≠ .corruptChain b) := by
  have hr : Reachable (fresh 8) (fresh 8) := .start
  exact check_of_reachable (mount_formatted (by decide)) (check_fresh (by decide))
    (((hr.step (.file (.create "a"))).step (.file (.openFile "a"))).withFaults _) _

end FileSystem

end FlatVolume
