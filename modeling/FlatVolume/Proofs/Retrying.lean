import FlatVolume.Proofs.Mooring
import FlatVolume.Proofs.Plans
import FlatVolume.Proofs.Prepared

/-!
# Unmounting again

While the flush fails a volume stays mounted, and unmounting it can be tried again. This file says how
each attempt ends and what it leaves on the device (`FileSystem.unmount_unmounting`), and that failed
attempts do no harm: the first that gets past the sync leaves what one without a failure would have
left from the beginning (`FileSystem.unmount_retried`).

What a failed attempt has written is a part of what the next one writes. So it is enough that blocks of
the metadata only were touched before (`Attempted.kept`), and that a flush which is done says what each
of them holds (`Volume.WrittenBack.unique`).
-/

namespace FlatVolume

open FlatVolume.Computation Mounted AllocationTable
open FileSystem (ofMounted ofWorld)
open LawfulBlockDevice (storage)

variable {W H : Type}

/-! ## 1. What is written back -/

/-- **Table and directory of `v` were written back** to a device that held `st`, and nothing else. -/
structure Volume.WrittenBack (v : Volume H) (st st' : Storage) : Prop where
  touched : Touched (IsMetadata v.superblock) st st'
  flushed : Flushed st' v.superblock v.table v.root

section WrittenBack

variable {v : Volume H} {st st₁ st' st'' : Storage}

/-- Blocks of the metadata that were touched before do not matter. -/
theorem Volume.WrittenBack.of_touched (h : v.WrittenBack st₁ st')
    (ht : Touched (IsMetadata v.superblock) st st₁) : v.WrittenBack st st' :=
  ⟨ht.trans h.touched, h.flushed⟩

/-- The metadata is the blocks of the table and the directory block. -/
theorem Superblock.LaidOut.eq_of_isMetadata {sb : Superblock} {n i : Nat} (hl : LaidOut sb n)
    (h : IsMetadata sb i) :
    (∃ j < sb.tableBlocks.toNat, i = sb.tableStart + j) ∨ i = sb.directoryBlock.toNat := by
  have hd := hl.directoryBlock_eq
  obtain ⟨hpos, hle⟩ := h
  by_cases hi : i = sb.directoryBlock.toNat
  · exact .inr hi
  · refine .inl ⟨i - 1, by omega, ?_⟩
    simp only [Superblock.tableStart]
    omega

/-- **Writing back leaves one thing only.** -/
theorem Volume.WrittenBack.unique (hv : v.Tidy) (h : v.WrittenBack st st')
    (h' : v.WrittenBack st st'') : st' = st'' := by
  obtain ⟨n, hfit⟩ := hv.layout
  have hl := Superblock.laidOut_of_forBlockCount? hfit
  have hblock : st'.block = st''.block := by
    funext i
    by_cases hi : IsMetadata v.superblock i
    · rcases hl.eq_of_isMetadata hi with ⟨j, hj, rfl⟩ | rfl
      · rw [h.flushed.table_eq j hj, h'.flushed.table_eq j hj]
      · rw [h.flushed.root_eq, h'.flushed.root_eq]
    · rw [h.touched.block_eq i hi, h'.touched.block_eq i hi]
  obtain ⟨hn, hb, hw⟩ := h.touched.shape
  obtain ⟨hn', hb', hw'⟩ := h'.touched.shape
  obtain ⟨n₁, b₁, w₁, f₁⟩ := st'
  obtain ⟨n₂, b₂, w₂, f₂⟩ := st''
  cases hn.trans hn'.symm
  cases hb.trans hb'.symm
  cases hw.trans hw'.symm
  cases hblock
  rfl

end WrittenBack

/-! ## 2. One attempt -/

/-- What stopped a flush, when `c` is how a call of it failed. -/
def Call.flushCause (c : DeviceError) : Call → FlushCause
  | .read i => .store i c
  | .write i => .store i c
  | .sync => .device c
  | .close => .device c

/-- **Every failure is wrapped once.** -/
theorem Call.asFlushFailure_reported (call : Call) (c : DeviceError) :
    (call.reported c).asFlushFailure = .flushFailed (call.flushCause c) := by cases call <;> rfl

/-- The blocks that a flush writes, in order: those of the table, and the directory block. -/
def Superblock.storeCalls (sb : Superblock) : List Call :=
  ((List.range sb.tableBlocks.toNat).map fun i => .write (sb.tableStart + i)) ++
    [.write sb.directoryBlock.toNat]

section Calls

variable {sb : Superblock} {call : Call} {c : DeviceError} {events : List Event}

theorem Superblock.flushCalls_eq (sb : Superblock) : sb.flushCalls = sb.storeCalls ++ [.sync] := by
  simp [flushCalls, storeCalls]

theorem Superblock.eq_write_of_mem_storeCalls (h : call ∈ sb.storeCalls) : ∃ i, call = .write i := by
  simp only [storeCalls, List.mem_append, List.mem_map, List.mem_singleton] at h
  rcases h with ⟨i, -, rfl⟩ | rfl
  · exact ⟨_, rfl⟩
  · exact ⟨_, rfl⟩

theorem Superblock.sync_mem_flushCalls (sb : Superblock) : .sync ∈ sb.flushCalls := by
  rw [flushCalls_eq]
  exact List.mem_append_right _ (List.mem_singleton.mpr rfl)

theorem Superblock.close_notMem_flushCalls (sb : Superblock) : .close ∉ sb.flushCalls := by
  rw [flushCalls_eq, List.mem_append, List.mem_singleton]
  rintro (h | h)
  · obtain ⟨i, hi⟩ := eq_write_of_mem_storeCalls h
    cases hi
  · cases h

theorem Executed.eq_of_singleton {call' : Call} (h : Executed [call'] (some (call, c)) events) :
    call = call' ∧ events = [⟨call', some c⟩] := by
  cases h with
  | failed => exact ⟨rfl, rfl⟩
  | next _ h => cases h

/-- A flush that fails does not get past the sync. -/
theorem Executed.sync_notMem (h : Executed sb.flushCalls (some (call, c)) events) :
    ⟨.sync, none⟩ ∉ events := by
  have hstores : ∀ {r a}, Executed sb.storeCalls r a → (⟨.sync, none⟩ : Event) ∉ a := by
    intro r a ha hmem
    have hcall := ha.isPrefix_calls.subset (List.mem_map_of_mem hmem)
    obtain ⟨i, hi⟩ := Superblock.eq_write_of_mem_storeCalls hcall
    cases hi
  rw [Superblock.flushCalls_eq] at h
  rcases h.append_cases with h | ⟨a, b, rfl, ha, hb⟩
  · exact hstores h
  · rw [hb.eq_of_singleton.2, List.mem_append, List.mem_singleton]
    rintro (h | h)
    · exact hstores ha h
    · cases h

end Calls

variable [BlockDevice W H] [LawfulBlockDevice W H]

/-- **How unmounting the volume `v` can end:** its calls go through the blocks of the table in ascending
    order, the directory block, the sync and the close, up to the first that fails. -/
inductive Unmounting (v : Volume H) (fs : FileSystem W H) :
    EStateM.Result VolumeError (FileSystem W H) Unit → Prop where
  /-- All is done. -/
  | done {fs' : FileSystem W H} (mounted_eq : fs'.mounted = none)
      (events_eq : Operation.unmount.events fs =
        (v.superblock.flushCalls ++ [Call.close]).map (Event.mk · none))
      (written : v.WrittenBack (storage v.device fs.world) (storage v.device fs'.world)) :
      Unmounting v fs (.ok () fs')
  /-- A block could not be written, or the device not be synced. -/
  | unflushed {call : Call} {c : DeviceError} {fs' : FileSystem W H} (mounted_eq : fs'.mounted = some v)
      (executed : Executed v.superblock.flushCalls (some (call, c)) (Operation.unmount.events fs))
      (touched : Touched (IsMetadata v.superblock) (storage v.device fs.world)
        (storage v.device fs'.world)) :
      Unmounting v fs (.error (.flushFailed (call.flushCause c)) fs')
  /-- All was written and synced, and then the device could not be closed. -/
  | unclosed {c : DeviceError} {fs' : FileSystem W H} (mounted_eq : fs'.mounted = none)
      (events_eq : Operation.unmount.events fs =
        v.superblock.flushCalls.map (Event.mk · none) ++ [⟨.close, some c⟩])
      (written : v.WrittenBack (storage v.device fs.world) (storage v.device fs'.world)) :
      Unmounting v fs (.error (.flushFailed (.device c)) fs')

section Attempts

variable {fs fs' : FileSystem W H} {v : Volume H}

/-- Flushing writes back what it has to, or a part of it. -/
theorem Volume.flush_writesBack (ht : v.Tidy) {w : W} (hw : (storage v.device w).whole) :
    Ends v.flush w (fun _ w' => v.WrittenBack (storage v.device w) (storage v.device w'))
      fun _ w' => Touched (IsMetadata v.superblock) (storage v.device w) (storage v.device w') := by
  obtain ⟨n, hfit⟩ := ht.layout
  have hl := Superblock.laidOut_of_forBlockCount? hfit
  exact (flush_ends v.device hl v.table v.root hw).mono (fun _ _ h => ⟨h.1, h.2.1⟩) fun _ _ h => h.1

/-- **Unmounting ends in one of three ways.** -/
theorem FileSystem.unmount_unmounting (hv : fs.mounted = some v) (ht : v.Tidy)
    (hw : (storage v.device fs.world).whole) : Unmounting v fs (unmount fs) := by
  obtain ⟨_, w⟩ := fs
  cases hv
  obtain ⟨hflush, hfail⟩ := ends_iff.mp (Volume.flush_writesBack ht hw)
  have hclose := fun w₁ : W => ends_iff.mp (closeDevice_ends v.device w₁)
  have hmounted : (ofMounted ⟨v, w⟩ : FileSystem W H).mounted = some v := rfl
  have hends := (unmount_ends ⟨v, w⟩).and (unmount_calls hmounted)
  show Unmounting v (ofMounted ⟨v, w⟩) (unmount (ofMounted ⟨v, w⟩))
  unfold Ends at hends
  cases hu : unmount (ofMounted ⟨v, w⟩ : FileSystem W H) with
  | ok u fs' =>
    rw [hu] at hends
    obtain ⟨⟨w₁, w₂, hf, hc, rfl⟩, hnone, hcalls⟩ := hends
    have hclosed := ((hclose w₁).1 () w₂ hc).storage_eq
    exact .done hnone hcalls.eq_of_none (hclosed.symm ▸ hflush () w₁ hf)
  | error e fs' =>
    rw [hu] at hends
    obtain ⟨hstate, call, c, rfl, hcalls, hkept⟩ := hends
    rw [call.asFlushFailure_reported]
    -- where the failing call stands in the plan says whether the flush was done
    rcases hcalls.append_cases with hex | ⟨a, b, hab, ha, hb⟩
    · have hne : call ≠ .close :=
        fun he => v.superblock.close_notMem_flushCalls (he ▸ hex.mem_of_some)
      rw [if_neg hne] at hkept
      rcases hstate with ⟨w₁, c', hf, -, rfl⟩ | ⟨w₁, w₂, -, -, rfl⟩
      · exact .unflushed rfl hex (hfail c' w₁ hf)
      · cases hkept
    · obtain ⟨rfl, rfl⟩ := hb.eq_of_singleton
      rw [if_pos rfl] at hkept
      rcases hstate with ⟨w₁, c', -, -, rfl⟩ | ⟨w₁, w₂, hf, hc, rfl⟩
      · cases hkept
      · have hclosed := ((hclose w₁).2 _ w₂ hc).2.storage_eq
        exact .unclosed rfl (hab.trans (by rw [ha.eq_of_none])) (hclosed.symm ▸ hflush () w₁ hf)

/-- **An attempt that gets past the sync** has written everything back. -/
theorem Unmounting.writtenBack (h : Unmounting v fs (FileSystem.unmount fs))
    (hsync : ⟨.sync, none⟩ ∈ Operation.unmount.events fs) :
    v.WrittenBack (storage v.device fs.world)
      (storage v.device (stateAfter FileSystem.unmount fs).world) := by
  unfold stateAfter
  cases hu : FileSystem.unmount fs with
  | ok _ fs' =>
    rw [hu] at h
    cases h with
    | done _ _ hw => exact hw
  | error e fs' =>
    rw [hu] at h
    cases h with
    | unflushed _ hex => exact absurd hsync hex.sync_notMem
    | unclosed _ _ hw => exact hw

/-- **Failed attempts to unmount** lead from `fs` to what is still mounted. Between them the device may
    become better or worse, as long as it holds what it held. -/
inductive Attempted (fs : FileSystem W H) : FileSystem W H → Prop where
  | start : Attempted fs fs
  | failed {fs₁ fs₂ : FileSystem W H} {e : VolumeError} (h : Attempted fs fs₁)
      (hu : FileSystem.unmount fs₁ = .error e fs₂) (hm : fs₂.isMounted) : Attempted fs fs₂
  | elsewhere {fs₁ : FileSystem W H} (h : Attempted fs fs₁) {w : W}
      (hw : ∀ v, fs₁.mounted = some v → storage v.device w = storage v.device fs₁.world) :
      Attempted fs { fs₁ with world := w }

/-- Attempts are operations. -/
theorem Attempted.reachable {fs₀ : FileSystem W H} (h : Attempted fs fs') (hr : Reachable fs₀ fs) :
    Reachable fs₀ fs' := by
  induction h with
  | start => exact hr
  | @failed fs₁ fs₂ e _ hu _ ih =>
    have hstep := ih.step .unmount
    rwa [stateAfter, Operation.run, hu] at hstep
  | elsewhere _ hw ih => exact ih.elsewhere hw

/-- **Failed attempts do no harm:** everything in memory is as it was, and so is every block that is not
    written back anyway. -/
theorem Attempted.kept (h : Attempted fs fs') (hv : fs.mounted = some v) (ht : v.Tidy)
    (hw : (storage v.device fs.world).whole) : fs'.mounted = some v ∧
      Touched (IsMetadata v.superblock) (storage v.device fs.world) (storage v.device fs'.world) := by
  induction h with
  | start => exact ⟨hv, .refl _ _⟩
  | @failed fs₁ fs₂ e _ hu hm ih =>
    obtain ⟨hv₁, ht₁⟩ := ih
    have hends := FileSystem.unmount_unmounting hv₁ ht (ht₁.shape.whole_eq.trans hw)
    rw [hu] at hends
    cases hends with
    | unflushed hmounted _ htouched => exact ⟨hmounted, ht₁.trans htouched⟩
    | unclosed hmounted =>
      rw [FileSystem.isMounted, hmounted] at hm
      cases hm
  | @elsewhere fs₁ _ w hw₁ ih =>
    obtain ⟨hv₁, ht₁⟩ := ih
    exact ⟨hv₁, (hw₁ v hv₁).symm ▸ ht₁⟩

end Attempts

/-! ## 3. Over runs -/

namespace FileSystem

/-- **Unmounting can be tried again.** After any number of failed attempts the volume is what it was, and
    of the device only the metadata was touched. The next attempt ends as `Unmounting` says; if it gets
    past the sync, the device holds what any unmount that succeeds would have left from the beginning;
    and once the device does not fail any more, it succeeds. -/
theorem unmount_retried {d : H} {fs fs₀ fs₁ fs₂ : FileSystem W H} {v : Volume H}
    (hm : mount d fs = .ok () fs₀) (hw : (storage d fs.world).whole) (hr : Reachable fs₀ fs₁)
    (hv : fs₁.mounted = some v) (ha : Attempted fs₁ fs₂) :
    v.device = d ∧ fs₂.mounted = some v ∧
    Touched (IsMetadata v.superblock) (storage d fs₁.world) (storage d fs₂.world) ∧
    Unmounting v fs₂ (unmount fs₂) ∧
    (⟨.sync, none⟩ ∈ Operation.unmount.events fs₂ →
      ∀ (w : W) fs', storage d w = storage d fs₁.world → unmount ⟨some v, w⟩ = .ok () fs' →
        storage d (stateAfter unmount fs₂).world = storage d fs'.world) ∧
    (NeverFails d fs₂.world → ∃ w : W, unmount fs₂ = .ok () (ofWorld w)) := by
  have htidy := tidy_of_mount hm
  have hmoored := moored_of_mount hm hw
  have ht := hr.tidy htidy v hv
  obtain ⟨rfl, -, hwhole⟩ := hr.moored htidy hmoored v hv
  obtain ⟨hv₂, htouched⟩ := ha.kept hv ht hwhole
  have hm₂ := (ha.reachable hr).moored htidy hmoored v hv₂
  have hends := unmount_unmounting hv₂ ht hm₂.whole
  refine ⟨rfl, hv₂, htouched, hends, fun hsync w fs' hs hu => ?_, fun hn => ?_⟩
  · have hbegin : Unmounting v ⟨some v, w⟩ (unmount ⟨some v, w⟩) :=
      unmount_unmounting rfl ht (hs ▸ hwhole)
    rw [hu] at hbegin
    cases hbegin with
    | done _ _ hwritten =>
      exact ((hends.writtenBack hsync).of_touched htouched).unique ht (hs ▸ hwritten)
  · obtain ⟨w, hu, -⟩ := exists_unmount hv₂ hm₂ hn
    exact ⟨w, hu⟩

/-- In memory, where block 2 cannot be written: an attempt stores the table and then fails at the
    directory. Once the block can be written again, the next attempt succeeds and leaves what one
    without a failure would have left. -/
theorem unmount_retried_memory : ∃ fs fs₁ fs₂ fs₃ v w,
    mount () (ofWorld (Memory.holding 16 (Volume.lone looped (Entry.twentyBlocks 1)))) = .ok () fs ∧
    Reachable fs fs₁ ∧ fs₁.mounted = some v ∧ fs₁.world.faults.badBlocks = [2] ∧
    unmount fs₁ = .error (.flushFailed (.store 2 (Memory.injected "write"))) fs₂ ∧
    unmount (fs₂.withFaults {}) = .ok () (ofWorld w) ∧
    unmount (fs₁.withFaults {}) = .ok () fs₃ ∧ storage () w = storage () fs₃.world := by
  obtain ⟨fs, files, w, hm, hr⟩ := exists_opened_looped
  obtain ⟨v, hv⟩ : ∃ v, v = { Volume.lone looped (Entry.twentyBlocks 1) with files } := ⟨_, rfl⟩
  rw [← hv] at hr
  have hwhole := Memory.whole_storage
    (Memory.holding 16 (Volume.lone looped (Entry.twentyBlocks 1)))
  have hmoored := hr.moored (tidy_of_mount hm) (moored_of_mount hm hwhole) v rfl
  have hcount : 16 = w.blockCount := by
    have hsize : v.superblock.totalBlocks.toNat = w.blockCount :=
      hmoored.carries.laidOut.totalBlocks_eq
    rw [← hsize, hv]
    rfl
  have hfaulty := hr.withFaults { badBlocks := [2] }
  obtain ⟨fs₂, hfail, hmounted⟩ : ∃ fs₂ : FileSystem Memory Unit,
      unmount ((ofMounted ⟨v, w⟩).withFaults { badBlocks := [2] }) =
        .error (.flushFailed (.store 2 (Memory.injected "write"))) fs₂ ∧ fs₂.isMounted := by
    obtain ⟨n, bytes, blocks, faults, calls⟩ := w
    cases hcount
    rw [hv]
    refine ⟨_, rfl, ?_⟩
    rfl
  have hretry : Attempted _ (fs₂.withFaults {}) :=
    (Attempted.start.failed hfail hmounted).elsewhere fun _ _ => rfl
  obtain ⟨-, -, -, hends, hsame, hsucceeds⟩ := unmount_retried hm hwhole hfaulty rfl hretry
  obtain ⟨w₂, hu⟩ := hsucceeds (Memory.neverFails rfl)
  obtain ⟨-, -, -, -, -, hbegin⟩ := unmount_retried hm hwhole (hr.withFaults {}) rfl .start
  obtain ⟨w₃, hu₃⟩ := hbegin (Memory.neverFails rfl)
  rw [hu] at hends
  have hsync : ⟨.sync, none⟩ ∈ Operation.unmount.events (fs₂.withFaults {}) := by
    cases hends with
    | done _ hevents =>
      rw [hevents]
      exact List.mem_map_of_mem (List.mem_append_left _ v.superblock.sync_mem_flushCalls)
  have heq := hsame hsync { w with faults := {} } _ rfl hu₃
  rw [stateAfter, hu] at heq
  exact ⟨fs, _, fs₂, _, v, w₂, hm, hfaulty, rfl, rfl, hfail, hu, hu₃, heq⟩

end FileSystem

end FlatVolume
