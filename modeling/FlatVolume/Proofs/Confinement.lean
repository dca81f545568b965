import FlatVolume.Proofs.Footprints
import FlatVolume.Proofs.Prepared

/-!
# Where the calls go

A layout says where everything lies, and the calls of a mounted volume keep to it: file data to the
data blocks behind the reserved one (`Superblock.IsFileBlock`), a flush to the table and the
directory. So block 0 and the reserved data block are never written, and no call asks for a block that
the device did not have when it was mounted (`Operation.MayCall.spares`, `FileSystem.calls_confined`).
Nothing is assumed of the table, of the directory, or of the device.
-/

namespace FlatVolume

open FlatVolume.Computation
open AllocationTable (looped)
open FileSystem (ofMounted ofWorld)

variable {W H : Type}

/-! ## 1. The calls of a layout -/

/-- The block a call is about. -/
def Call.block? : Call → Option Nat
  | .read i => some i
  | .write i => some i
  | .sync => none
  | .close => none

/-- **A call that spares what must not be written:** it is about a block below `n`, and writes neither
    block 0 nor the reserved data block. -/
structure Call.Spares (sb : Superblock) (n : Nat) (call : Call) : Prop where
  lt : ∀ i, call.block? = some i → i < n
  ne_write_zero : call ≠ .write 0
  ne_write_reserved : call ≠ .write (sb.dataBlock 0)

namespace Superblock

variable {sb : Superblock} {n : Nat} {call : Call}

/-- What mounting reads is there. -/
theorem LaidOut.mem_loadCalls (h : LaidOut sb n) (hc : call ∈ sb.loadCalls) :
    ∃ i, call = .read i ∧ i < n := by
  have hdir := h.directoryBlock_lt
  simp only [loadCalls, List.cons_append, List.mem_cons, List.mem_append, List.mem_map,
    List.mem_range, List.not_mem_nil, or_false] at hc
  rcases hc with rfl | ⟨i, hi, rfl⟩ | rfl
  · exact ⟨0, rfl, Nat.zero_lt_of_lt hdir⟩
  · exact ⟨_, rfl, (h.tableBlock_lt hi).2.trans hdir⟩
  · exact ⟨_, rfl, hdir⟩

/-- **Mounting reads no block twice.** -/
theorem LaidOut.nodup_loadCalls (h : LaidOut sb n) : sb.loadCalls.Nodup := by
  have hinj : ∀ i j, Call.read (sb.tableStart + i) = .read (sb.tableStart + j) → i = j := by
    intro i j he
    exact Nat.add_left_cancel (Call.read.inj he)
  have hd := h.directoryBlock_eq
  rw [loadCalls, List.nodup_append]
  refine ⟨List.nodup_cons.mpr ⟨fun hc => ?_, ?_⟩, List.nodup_singleton _, fun c hc c' hc' he => ?_⟩
  · obtain ⟨i, hi, he⟩ := List.mem_map.mp hc
    have := Call.read.inj he
    have := (h.tableBlock_lt (List.mem_range.mp hi)).1
    omega
  · exact List.nodup_range.map hinj
  · obtain rfl := List.mem_singleton.mp hc'
    subst he
    rcases List.mem_cons.mp hc with he | hc
    · have := Call.read.inj he
      omega
    · obtain ⟨i, hi, he⟩ := List.mem_map.mp hc
      have := Call.read.inj he
      have := (h.tableBlock_lt (List.mem_range.mp hi)).2
      omega

/-- File data spares the metadata. -/
theorem LaidOut.spares_of_isFileBlock (h : LaidOut sb n) {i : Nat} (hi : sb.IsFileBlock i)
    (hc : call = .read i ∨ call = .write i) : call.Spares sb n := by
  obtain ⟨hlo, hhi⟩ := hi
  rw [h.totalBlocks_eq] at hhi
  have hzero : (0 : UInt16).toNat = 0 := rfl
  rcases hc with rfl | rfl
  · refine ⟨fun j hj => ?_, nofun, nofun⟩
    cases hj
    exact hhi
  · refine ⟨fun j hj => ?_, fun he => ?_, fun he => ?_⟩
    · cases hj
      exact hhi
    · have := Call.write.inj he
      omega
    · have := Call.write.inj he
      simp only [dataBlock] at this
      omega

/-- A flush spares block 0 and all file data. -/
theorem LaidOut.spares_of_mem_flushCalls (h : LaidOut sb n)
    (hc : call ∈ sb.flushCalls ++ [.close]) : call.Spares sb n := by
  have hdir := h.directoryBlock_lt
  have hd := h.directoryBlock_eq
  have hs := h.dataStart_eq
  have hwrite : ∀ i, 0 < i → i ≤ sb.directoryBlock.toNat → Call.Spares sb n (.write i) := by
    intro i hpos hle
    refine ⟨fun j hj => ?_, fun he => ?_, fun he => ?_⟩
    · cases hj
      omega
    · have := Call.write.inj he
      omega
    · have := Call.write.inj he
      simp only [dataBlock] at this
      omega
  have hquiet : ∀ c : Call, c.block? = none → c.Spares sb n := by
    intro c hnone
    refine ⟨fun i hi => ?_, fun he => ?_, fun he => ?_⟩
    · rw [hnone] at hi
      cases hi
    · rw [he] at hnone
      cases hnone
    · rw [he] at hnone
      cases hnone
  simp only [flushCalls, List.mem_append, List.mem_map, List.mem_range, List.mem_cons,
    List.not_mem_nil, or_false] at hc
  rcases hc with (⟨i, hi, rfl⟩ | rfl | rfl) | rfl
  · exact hwrite _ (h.tableBlock_lt hi).1 (h.tableBlock_lt hi).2.le
  · exact hwrite _ (by omega) (Nat.le_refl _)
  · exact hquiet _ rfl
  · exact hquiet _ rfl

end Superblock

/-- **Every call an operation may make** spares what must not be written. -/
theorem Operation.MayCall.spares {sb : Superblock} {n : Nat} {op : Operation} {call : Call}
    (h : op.MayCall sb call) (hl : Superblock.LaidOut sb n) : call.Spares sb n := by
  cases h with
  | unmount hc => exact hl.spares_of_mem_flushCalls hc
  | file h =>
    cases h with
    | read hi => exact hl.spares_of_isFileBlock hi (.inl rfl)
    | fetch hi => exact hl.spares_of_isFileBlock hi (.inl rfl)
    | store hi => exact hl.spares_of_isFileBlock hi (.inr rfl)

/-- What mounting begins with reads. -/
theorem LoadBegun.eq_read [BlockDevice W H] {d : H} {w : W} {events : List Event}
    (h : LoadBegun d w events) {ev : Event} (hev : ev ∈ events) : ∃ i, ev.call = .read i := by
  have hmem : ev.call ∈ events.map Event.call := List.mem_map_of_mem hev
  rcases h with hpre | ⟨sb, ⟨b, w', -, hfit⟩, hpre⟩
  · exact ⟨0, List.mem_singleton.mp (hpre.mem hmem)⟩
  · obtain ⟨i, hi, -⟩ := (Superblock.laidOut_of_forBlockCount? hfit).mem_loadCalls (hpre.mem hmem)
    exact ⟨i, hi⟩

/-! ## 2. Over runs -/

namespace FileSystem

variable [BlockDevice W H]

/-- The calls of the operation `op` on what is reached from a mount. -/
theorem mayCall_of_driven {d : H} {fs fs₀ fs₁ : FileSystem W H} {v₀ : Volume H}
    (hm : mount d fs = .ok () fs₀) (hv₀ : fs₀.mounted = some v₀) (hr : Driven fs₀ fs₁)
    (op : Operation) {ev : Event} (hev : ev ∈ op.events fs₁) :
    op.MayCall v₀.superblock ev.call := by
  rcases op.run_cases (hr.tidy_of_mount hm) with ⟨-, hnone⟩ | ⟨v, hv, htrace⟩
  · rw [hnone] at hev
    cases hev
  · obtain ⟨v', hv', -, hsb⟩ := hr.kept (Driven.start.tidy_of_mount hm) hv
    obtain rfl := Option.some.inj (hv₀.symm.trans hv')
    rw [← hsb]
    exact Ends.stateAfter (P := fun _ => ∀ ev ∈ op.events fs₁, op.MayCall v.superblock ev.call)
      (htrace.mono (fun _ _ h => h.mayCall) fun _ _ h => h.mayCall) ev hev

/-- The calls of an unmount are the first of a flush and a close, in their order. -/
theorem isPrefix_unmount_calls {fs : FileSystem W H} {v : Volume H} (hv : fs.mounted = some v) :
    (Operation.unmount.events fs).map Event.call <+: v.superblock.flushCalls ++ [.close] := by
  refine Ends.stateAfter (P := fun _ => (Operation.unmount.events fs).map Event.call <+:
    v.superblock.flushCalls ++ [.close]) ((unmount_calls hv).mono ?_ ?_)
  · exact fun _ _ h => h.2.isPrefix_calls
  · intro e fs' herr
    obtain ⟨call, c, -, hex, -⟩ := herr
    exact hex.isPrefix_calls

/-- Mounting begins with the calls of the layout it finds, and makes none where a volume is mounted
    already. -/
theorem mount_begun (d : H) (fs : FileSystem W H) :
    LoadBegun d fs.world (mountEvents d fs) ∧ (fs.isMounted → mountEvents d fs = []) := by
  refine Ends.stateAfter (P := fun _ => LoadBegun d fs.world (mountEvents d fs) ∧
    (fs.isMounted → mountEvents d fs = [])) ((mount_calls d fs).mono ?_ ?_)
  · intro _ fs' hok
    obtain ⟨hnone, v, -, hfrom⟩ := hok
    refine ⟨.inr ⟨v.superblock, hfrom.found, ?_⟩, fun hmounted => ?_⟩
    · rw [hfrom.events_eq, List.map_map]
      exact (List.map_id _).symm ▸ List.prefix_refl _
    · rw [isMounted, hnone] at hmounted
      cases hmounted
  · exact fun _ _ h => ⟨h.2.2, h.2.1⟩

/-- **File data never lands on metadata.** A mount that succeeds has read block 0, found there the
    layout `sb` of the `n` blocks the device has, and read the blocks of the table and the directory,
    each once. Whatever is done with the volume then, and whatever the device answers: only calls of
    `Operation.MayCall sb` are made, and they spare block 0, the reserved data block, and everything
    from block `n` on. A flush goes in the order of the layout; and mounting, whenever it is tried, only
    reads, in the order of the layout it has found. -/
theorem calls_confined {d : H} {fs fs₀ fs₁ : FileSystem W H} (hm : mount d fs = .ok () fs₀)
    (hr : Driven fs₀ fs₁) :
    ∃ sb n b w, BlockDevice.readBlock d 0 fs.world = .ok b w ∧ BlockDevice.blockCount d w = n ∧
      Superblock.forBlockCount? n = some sb ∧
      (mountEvents d fs = sb.loadCalls.map (Event.mk · none) ∧ sb.loadCalls.Nodup ∧
        ∀ call ∈ sb.loadCalls, ∃ i, call = .read i ∧ i < n) ∧
      (∀ v, fs₁.mounted = some v → v.device = d ∧ v.superblock = sb) ∧
      (∀ op : Operation, ∀ ev ∈ op.events fs₁, op.MayCall sb ev.call ∧ ev.call.Spares sb n) ∧
      (Operation.unmount.events fs₁).map Event.call <+: sb.flushCalls ++ [.close] ∧
      ∀ d', LoadBegun d' fs₁.world (mountEvents d' fs₁) ∧
        (∀ ev ∈ mountEvents d' fs₁, ∃ i, ev.call = .read i) ∧
        (fs₁.isMounted → mountEvents d' fs₁ = []) := by
  obtain ⟨v₀, hv₀, hfrom⟩ := mountedFrom_of_mount hm
  obtain ⟨b, w, hread, hfit⟩ := hfrom.found
  have hl := Superblock.laidOut_of_forBlockCount? hfit
  have hkept : ∀ v, fs₁.mounted = some v → v.device = d ∧ v.superblock = v₀.superblock := by
    intro v hv
    obtain ⟨v', hv', hd, hsb⟩ := hr.kept (Driven.start.tidy_of_mount hm) hv
    obtain rfl := Option.some.inj (hv₀.symm.trans hv')
    exact ⟨hd.trans hfrom.device_eq, hsb⟩
  refine ⟨v₀.superblock, _, b, w, hread, rfl, hfit,
    ⟨hfrom.events_eq, hl.nodup_loadCalls, fun call => hl.mem_loadCalls⟩, hkept,
    fun op ev hev => ?_, ?_, fun d' => ?_⟩
  · have hmay := mayCall_of_driven hm hv₀ hr op hev
    exact ⟨hmay, hmay.spares hl⟩
  · obtain ⟨_ | v, w₁⟩ := fs₁
    · rw [Operation.events_of_none]
      exact List.nil_prefix
    · rw [← (hkept v rfl).2]
      exact isPrefix_unmount_calls rfl
  · obtain ⟨hbegun, hmounted⟩ := mount_begun d' fs₁
    exact ⟨hbegun, fun ev => hbegun.eq_read, hmounted⟩

/-- On a device of sixteen blocks in memory, where the first block of the only file leads to itself and
    block 5 can be neither read nor written: mounting has read the first three blocks, and whatever is
    done then, blocks 0 and 3 are not written, and no block from 16 on is asked for. -/
theorem calls_confined_looped : ∃ fs fs₁,
    mount () (ofWorld (Memory.holding 16 (Volume.lone looped (Entry.twentyBlocks 1)))) = .ok () fs ∧
    Driven fs fs₁ ∧ fs₁.isMounted = true ∧ fs₁.world.faults.badBlocks = [5] ∧
    mountEvents () (ofWorld (Memory.holding 16 (Volume.lone looped (Entry.twentyBlocks 1)))) =
      [⟨.read 0, none⟩, ⟨.read 1, none⟩, ⟨.read 2, none⟩] ∧
    ∀ op : Operation, ∀ ev ∈ op.events fs₁, ev.call ≠ .write 0 ∧ ev.call ≠ .write 3 ∧
      ∀ i, ev.call.block? = some i → i < 16 := by
  obtain ⟨fs, files, w, hm, hr⟩ := exists_opened_looped
  have hfaulty := (hr.withFaults { badBlocks := [5] }).driven
  obtain ⟨sb, n, b, w', -, -, hfit, ⟨hmount, -⟩, hkept, hcalls, -⟩ := calls_confined hm hfaulty
  obtain rfl : Superblock.sixteen = sb := (hkept _ rfl).2
  obtain rfl : 16 = n := (Superblock.laidOut_of_forBlockCount? hfit).totalBlocks_eq
  refine ⟨fs, _, hm, hfaulty, rfl, rfl, hmount.trans rfl, fun op ev hev => ?_⟩
  have hspares := (hcalls op ev hev).2
  exact ⟨hspares.ne_write_zero, hspares.ne_write_reserved, hspares.lt⟩

end FileSystem

end FlatVolume
