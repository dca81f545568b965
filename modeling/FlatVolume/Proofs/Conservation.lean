import FlatVolume.Proofs.Consistency
import FlatVolume.Proofs.FileBytes

/-!
# No block is lost and none is conjured

`check` does not look for blocks that are in use and belong to no file, so nothing notices a leak
when it happens. There is none: on a volume whose files are sound the orphans and the reserved entry
stay the same through every operation, and with them the sum of the free entries and of the lengths
of all chains (`Reachable.kept`). What `delete`, `truncate` and `write` do to the number of free
entries follows, whichever calls of the device fail (`FileSystem.conservation`).

A freshly formatted volume has no orphans, so there every data block is free, reserved or in a file.
-/

namespace FlatVolume

open AllocationTable FlatVolume.Computation Mounted
open FileSystem (ofMounted)
open Link (free endOfChain)
open LawfulBlockDevice (storage)

/-! ## 1. What is counted -/

namespace Volume

variable {H : Type} {v v' : Volume H} {own : Slot → List Link} {slot : Slot} {new : List Link}

/-- The free entries and the lengths of the chains of all files. -/
def accounted (v : Volume H) : Nat :=
  v.info.tableFree + (v.root.files.map fun e => (v.blocksOf e).length).sum

/-- The chains of an intact volume are as long as the sizes of its files say. -/
theorem Intact.accounted_eq (h : v.Intact own) :
    v.accounted = v.table.freeCount + v.blocksNeeded := by
  have hlength : (v.root.files.map fun e => (v.blocksOf e).length) =
      v.root.files.map fun e => ceilDiv e.size blockSize := by
    refine List.map_congr_left fun e he => ?_
    obtain ⟨s, rfl, -⟩ := mem_files_iff.mp he
    rw [h.blocksOf_eq, h.length_eq]
  rw [accounted, hlength, h.sum_files]
  rfl

/-- **What the file that was replaced gains, the free entries lose.** -/
theorem Refiled.freeCount (hr : Refiled v v' slot (own slot) new) (h : v.Intact own)
    (ht : v'.Tidy) : v'.table.freeCount + ceilDiv (v'.root.get slot).size blockSize =
      v.table.freeCount + ceilDiv (v.root.get slot).size blockSize := by
  have hk := (hr.kept h ht).freeCount_add
  have hb := hr.blocksNeeded
  omega

end Volume

/-! ## 2. One operation and runs -/

variable {W H : Type} [BlockDevice W H] [LawfulBlockDevice W H]

/-- **One operation keeps what is in use.** -/
theorem Operation.run_kept (op : Operation) {m : Mounted W H} (h : m.volume.IsIntact) :
    Ends op.run (ofMounted m) (fun _ fs => fs.Mounting (Volume.Kept m.volume))
      (fun _ fs => fs.Mounting (Volume.Kept m.volume)) := by
  obtain ⟨own, hi⟩ := h
  have hkept : ∀ {m' : Mounted W H}, Stepped m m' own → Volume.Kept m.volume m'.volume := by
    intro m' hs
    obtain ⟨slot, new, hr⟩ := hs.refiled
    exact hr.kept hi hs.tidy
  refine (op.run_stepped hi).mono ?_ ?_
  · exact fun _ fs hs v hv => hkept (hs v hv)
  · exact fun _ fs hs v hv => hkept (hs.1 v hv)

/-- **A run keeps what is in use,** if it begins with an intact volume. -/
theorem Reachable.kept {fs₀ fs : FileSystem W H} (h : Reachable fs₀ fs) {v₀ : Volume H}
    (hv₀ : fs₀.mounted = some v₀) (hi : v₀.IsIntact) : fs.Mounting (Volume.Kept v₀) := by
  have h₀ : fs₀.Mounting Volume.IsIntact := by
    intro v hv
    cases hv₀.symm.trans hv
    exact hi
  induction h with
  | start =>
    intro v hv
    obtain rfl : v₀ = v := Option.some.inj (hv₀.symm.trans hv)
    exact .refl _
  | @step fs hreach op ih =>
    obtain ⟨_ | v, w⟩ := fs
    · rw [stateAfter, op.run_of_none w]
      intro v hv
      cases hv
    · have hv : v.IsIntact := hreach.intact h₀ v rfl
      have hkept := Ends.stateAfter (op.run_kept (m := ⟨v, w⟩) hv)
      exact fun v' hv' => (ih v rfl).trans (hkept v' hv')
  | elsewhere _ _ ih => exact ih

/-! ## 3. The law -/

namespace FileSystem

/-- The orphans and the reserved entry of `v'` are those of `v`. -/
structure SameInUse (v v' : Volume H) : Prop where
  orphan_iff : ∀ b, v'.Orphan b ↔ v.Orphan b
  reserved_eq : v'.table.entries[0]? = v.table.entries[0]?

/-- Writing through `fd` took as many free entries as the file grew by, and none without a file. -/
def Grown (v : Volume H) (fd : Nat) (fs' : FileSystem W H) : Prop :=
  ∃ v', fs'.mounted = some v' ∧ match v.resolve fd with
    | .error _ => v' = v
    | .ok (_, slot) => (v.root.get slot).size ≤ (v'.root.get slot).size ∧
      v'.info.tableFree + (ceilDiv (v'.root.get slot).size blockSize
        - ceilDiv (v.root.get slot).size blockSize) = v.info.tableFree

/-- **What is conserved** while `v` is mounted at `fs`. -/
structure Conserves (fs : FileSystem W H) (v : Volume H) : Prop where
  /-- No operation makes or removes an orphan or touches the reserved entry, however it ends. -/
  step : ∀ op : Operation, Ends op.run fs (fun _ fs' => fs'.Mounting (SameInUse v))
    (fun _ fs' => fs'.Mounting (SameInUse v))
  /-- Over a run the free entries and the chains are together always as many. -/
  run : ∀ fs', Reachable fs fs' → fs'.Mounting fun v' => v'.accounted = v.accounted
  /-- Removing a file frees as many entries as its size needs. -/
  delete : ∀ name fs', FileSystem.delete name fs = .ok () fs' →
    ∃ slot v', v.root.find? name = some slot ∧ fs'.mounted = some v' ∧
      v'.info.tableFree = v.info.tableFree + ceilDiv (v.root.get slot).size blockSize
  /-- Shortening a file frees as many as it needs no longer. -/
  truncate : ∀ fd size fs', FileSystem.truncate fd size fs = .ok () fs' →
    ∃ f slot v', v.resolve fd = .ok (f, slot) ∧ fs'.mounted = some v' ∧
      v'.info.tableFree = v.info.tableFree +
        (ceilDiv (v.root.get slot).size blockSize - ceilDiv size blockSize)
  /-- Writing takes as many as the file grows by, however it ends. -/
  write : ∀ fd data, Ends (FileSystem.write fd data) fs (fun _ => Grown v fd) fun _ => Grown v fd

section Calls

variable {m : Mounted W H} {own : Slot → List Link}

omit [BlockDevice W H] [LawfulBlockDevice W H] in
theorem delete_freeCount (h : m.volume.Intact own) (name : String) :
    Ends (delete name) (ofMounted m)
      (fun _ fs => ∃ slot v', m.volume.root.find? name = some slot ∧ fs.mounted = some v' ∧
        v'.table.freeCount =
          m.volume.table.freeCount + ceilDiv (m.volume.root.get slot).size blockSize)
      (fun _ _ => True) := by
  refine (delete_ends_of_intact h name).mono ?_ fun _ _ _ => trivial
  intro _ fs hok
  rcases hok with ⟨slot, v', hs, rfl, hfree, hr, ht⟩
  have hcount := hr.freeCount h ht
  rw [hfree] at hcount
  exact ⟨slot, v', hs, rfl, hcount⟩

omit [BlockDevice W H] [LawfulBlockDevice W H] in
theorem truncate_freeCount (h : m.volume.Intact own) (fd size : Nat) :
    Ends (truncate fd size) (ofMounted m)
      (fun _ fs => ∃ f slot v', m.volume.resolve fd = .ok (f, slot) ∧ fs.mounted = some v' ∧
        v'.table.freeCount = m.volume.table.freeCount +
          (ceilDiv (m.volume.root.get slot).size blockSize - ceilDiv size blockSize))
      (fun _ _ => True) := by
  refine onVolume_ends ((truncate_ends_of_intact h fd size).mono ?_ fun _ _ _ => trivial)
  intro _ m' hok
  rcases hok with ⟨f, slot, v', hr, hle, rfl, hsize, hrefiled, ht⟩
  have hcount := hrefiled.freeCount h ht
  rw [hsize] at hcount
  have := ceilDiv_mono hle
  exact ⟨f, slot, v', hr, rfl, by omega⟩

theorem write_freeCount (h : m.volume.Intact own) (fd : Nat) (data : ByteArray) :
    Ends (write fd data) (ofMounted m) (fun _ => Grown m.volume fd)
      (fun _ => Grown m.volume fd) := by
  have hwritten : ∀ {m' : Mounted W H} {f : OpenFile} {slot : Slot} {new : List Link} {k : Nat},
      m.volume.resolve fd = .ok (f, slot) →
      Written m m' fd slot (own slot) new f.offset data k → Grown m.volume fd (ofMounted m') := by
    intro m' f slot new k hr hw
    obtain ⟨hf, hs⟩ := Volume.resolve_eq_ok_iff.mp hr
    have hcount := (hw.refiled h).freeCount h (hw.tidy h hf hs)
    have hle : (m.volume.root.get slot).size ≤ (m'.volume.root.get slot).size := by
      rw [hw.size_eq]
      exact Nat.le_max_left _ _
    refine ⟨m'.volume, rfl, ?_⟩
    rw [hr]
    refine ⟨hle, ?_⟩
    have := ceilDiv_mono hle
    show m'.volume.table.freeCount + _ = m.volume.table.freeCount
    omega
  refine onVolume_ends ((write_ends_of_intact h fd data).mono ?_ ?_)
  · intro k m' hok
    rcases hok with ⟨f, slot, new, hr, hw, -, -⟩
    exact hwritten hr hw
  · intro e m' herr
    rcases herr with ⟨rfl, hr⟩ | ⟨f, slot, new, k, hr, hw, -, -⟩
    · refine ⟨m'.volume, rfl, ?_⟩
      rw [hr]
    · exact hwritten hr hw

end Calls

theorem conserves_of_intact {fs : FileSystem W H} {v : Volume H} (hv : fs.mounted = some v)
    (hi : v.IsIntact) : Conserves fs v := by
  obtain ⟨_, w⟩ := fs
  cases hv
  have h := hi
  obtain ⟨own, h⟩ := h
  have hsame : ∀ {fs' : FileSystem W H}, fs'.Mounting (Volume.Kept v) →
      fs'.Mounting (SameInUse v) :=
    fun hk v' hv' => ⟨(hk v' hv').orphan_iff, (hk v' hv').reserved_eq⟩
  refine ⟨fun op => ?_, fun fs' hr v' hv' => ?_, fun name fs' hd => ?_, fun fd size fs' ht => ?_,
    fun fd data => ?_⟩
  · exact (op.run_kept (m := ⟨v, w⟩) hi).mono (fun _ _ => hsame) fun _ _ => hsame
  · have hkept := hr.kept rfl hi v' hv'
    have hintact : fs'.Mounting Volume.IsIntact := hr.intact (mounting_ofMounted (m := ⟨v, w⟩) hi)
    obtain ⟨own', h'⟩ := hintact v' hv'
    show v'.accounted = v.accounted
    rw [h'.accounted_eq, h.accounted_eq, hkept.freeCount_add]
  · exact (ends_iff.mp (delete_freeCount (m := ⟨v, w⟩) h name)).1 () fs' hd
  · exact (ends_iff.mp (truncate_freeCount (m := ⟨v, w⟩) h fd size)).1 () fs' ht
  · exact write_freeCount (m := ⟨v, w⟩) h fd data

/-- **Nothing is lost and nothing is conjured.** Whatever a run from a mount leads to: if `check`
    finds nothing wrong there, what is in use is conserved; and if the volume was freshly formatted
    when it was mounted, it has no orphans and every data block is free, reserved or in a file. -/
theorem conservation {d : H} {fs fs₀ fs₁ : FileSystem W H} {v : Volume H}
    (hm : mount d fs = .ok () fs₀) (hr : Reachable fs₀ fs₁) (hv : fs₁.mounted = some v) :
    (check fs₁ = .ok () fs₁ → Conserves fs₁ v) ∧
    ∀ {d' : H} {w w' : W} {sb : Superblock}, (storage d' w).whole →
      Volume.format d' w = .ok sb w' → storage d fs.world = storage d' w' →
      (∀ b, ¬ v.Orphan b) ∧
      v.info.tableFree + (v.root.files.map fun e => ceilDiv e.size blockSize).sum + 1 =
        v.info.dataBlocks := by
  have htidy : v.Tidy := hr.tidy (tidy_of_mount hm) v hv
  refine ⟨fun hc => ?_, fun {d' w w' sb} hw hf hst => ?_⟩
  · obtain ⟨-, v', hv', hok⟩ := check_eq_ok_iff.mp hc
    cases hv.symm.trans hv'
    exact conserves_of_intact hv (htidy.check_eq_ok_iff.mp hok)
  · have hblank : Blank (storage d fs.world) sb := by
      rw [hst]
      exact Volume.blank_of_format hw hf
    have hv₀ := mounted_of_blank hblank hm
    have hfits := hblank.carries.fits
    have hi₀ : (Volume.blank d sb).IsIntact := ⟨_, Volume.intact_blank hfits⟩
    have hkept := hr.kept hv₀ hi₀ v hv
    refine ⟨fun b ho => Volume.not_orphan_blank b ((hkept.orphan_iff b).mp ho), ?_⟩
    have hcount := hkept.freeCount_add
    have hfree := Volume.freeCount_blank (d := d) hfits
    rw [htidy.sum_files]
    show v.table.freeCount + v.blocksNeeded + 1 = v.superblock.dataBlocks.toNat
    rw [hkept.superblock_eq, hcount]
    exact hfree

/-- In memory, after a file was created on a freshly formatted volume. -/
theorem conservation_memory :
    ∃ v, (stateAfter (Operation.file (.create "a")).run (fresh 8)).mounted = some v ∧
      Conserves (stateAfter (Operation.file (.create "a")).run (fresh 8)) v ∧ (∀ b, ¬ v.Orphan b) ∧
      v.info.tableFree + (v.root.files.map fun e => ceilDiv e.size blockSize).sum + 1 =
        v.info.dataBlocks := by
  have hspec := fresh_spec (n := 8) (by decide)
  obtain ⟨sb, w, hformat, hm, hfs, -⟩ := hspec
  have hr : Reachable (fresh 8) (stateAfter (Operation.file (.create "a")).run (fresh 8)) :=
    Reachable.start.step _
  have hmounted : (fresh 8).mounted = some (Volume.blank () sb) := by rw [hfs]; rfl
  have ht := tidy_of_mount hm _ hmounted
  obtain ⟨v, hv⟩ := (FileCall.create "a").exists_mounted_after hmounted ht
  have hchecked := checked_of_intact (hr.intact (intact_of_check hm (check_fresh (by decide))))
  have hc := hchecked.check_eq (Option.isSome_iff_exists.mpr ⟨v, hv⟩)
  have hlaw := conservation hm hr hv
  exact ⟨v, hv, hlaw.1 hc, hlaw.2 (w := { blockCount := 8 }) rfl hformat rfl⟩

end FileSystem

end FlatVolume
