import FlatVolume.Proofs.Footprints
import FlatVolume.Proofs.Prepared
import FlatVolume.Proofs.Refinement

/-!
# Writes that are cut short

Each piece of a write can fail in three places: no block is free, the block it lies in cannot be read,
or it cannot be stored, and then a new block is linked already. Whatever stops a write, it leaves the
file with the first `k` bytes of the data in it and everything else as it was; offset, size, chain and
answer agree on this `k`. This file fixes

* `BrokenOff r events` -- after a call that failed nothing was called, and `r` reports that call;
* `FileSystem.Committed` -- the first `k` bytes of a write count, and no other file or descriptor was
  changed;
* `FileSystem.write_commits_prefix` -- every write on a sound volume ends so, on any device.
-/

namespace FlatVolume

open AllocationTable FlatVolume.Computation Mounted
open FileSystem (ofMounted ofWorld)

variable {W H : Type}

/-! ## 1. Nothing after a failure -/

/-- **After a call that fails nothing is called,** and that call is what `r` reports. Where no call has
    failed, none is reported. -/
inductive BrokenOff : (r : Option VolumeError) → List Event → Prop where
  | whole {r : Option VolumeError} {plan : List Call} {events : List Event}
      (h : Executed plan none events) (hr : Unreported r) : BrokenOff r events
  | broken {plan : List Call} {call : Call} {c : DeviceError} {events : List Event}
      (h : Executed plan (some (call, c)) events) : BrokenOff (some (call.reported c)) events

theorem Account.brokenOff (p : Call → Prop) : Account p BrokenOff where
  nil := .whole .done nofun
  append := by
    intro r a b ha hb
    cases ha with
    | whole ha _ =>
      cases hb with
      | whole hb hr => exact .whole (ha.append hb) hr
      | broken hb => exact .broken (ha.append hb)
  executed := by
    intro plan f events h _
    cases f with
    | none => exact .whole h nofun
    | some f => exact .broken h
  unreported := by
    intro r r' events h hr hr'
    cases h with
    | whole h _ => exact .whole h hr'
    | broken _ => exact absurd rfl (hr _ _)

/-- No call of the list failed. -/
def Unfailed (events : List Event) : Prop := ∀ ev ∈ events, ev.failure = none

/-- Only the last call failed, a read or a write of block `i`, and for the reason `c`. -/
def FailedLast (i : Nat) (c : DeviceError) (events : List Event) : Prop :=
  ∃ made call, (call = .read i ∨ call = .write i) ∧ Unfailed made ∧
    events = made ++ [⟨call, some c⟩]

section BrokenOff

variable {r : Option VolumeError} {plan : List Call} {events : List Event}

theorem Executed.unfailed (h : Executed plan none events) : Unfailed events := by
  rw [h.eq_of_none]
  intro ev hev
  obtain ⟨call, -, rfl⟩ := List.mem_map.mp hev
  rfl

theorem BrokenOff.unfailed (h : BrokenOff r events) (hr : Unreported r) : Unfailed events := by
  cases h with
  | whole h _ => exact h.unfailed
  | broken _ => exact absurd rfl (hr _ _)

/-- **What an error names was the last thing that was asked of the device.** -/
theorem BrokenOff.failedLast {i : Nat} {c : DeviceError} (h : BrokenOff (some (.io i c)) events) :
    FailedLast i c events := by
  generalize hr : some (VolumeError.io i c) = r at h
  cases h with
  | whole _ hno => exact absurd hr.symm (hno (.read i) c)
  | @broken plan call c' events h =>
    obtain ⟨made, rest, -, rfl⟩ := h.eq_of_some
    have hmade : Unfailed (made.map (Event.mk · none)) := by
      intro ev hev
      obtain ⟨call, -, rfl⟩ := List.mem_map.mp hev
      rfl
    cases call with
    | read j =>
      cases hr
      exact ⟨_, _, .inl rfl, hmade, rfl⟩
    | write j =>
      cases hr
      exact ⟨_, _, .inr rfl, hmade, rfl⟩
    | sync => cases hr
    | close => cases hr

end BrokenOff

theorem Computation.stateAfter_map {ε σ α β : Type} (f : α → β) (x : EStateM ε σ α) (s : σ) :
    stateAfter (f <$> x) s = stateAfter x s := by
  show stateAfter (EStateM.map f x) s = stateAfter x s
  unfold stateAfter EStateM.map
  cases x s <;> rfl

/-- **A write makes no call after one that failed,** on any volume and with any device. -/
theorem FileSystem.write_brokenOff [BlockDevice W H] {fs : FileSystem W H} {v : Volume H}
    (hv : fs.mounted = some v) (ht : v.Tidy) (fd : Nat) (data : ByteArray) :
    Ends (write fd data) fs
      (fun _ _ => BrokenOff none ((Operation.file (.write fd data)).events fs))
      (fun e _ => BrokenOff (some e) ((Operation.file (.write fd data)).events fs)) := by
  have hevents : (Operation.file (.write fd data)).events fs =
      (stateAfter (write fd data) fs.observed).world.events := by
    show (stateAfter ((fun _ => ()) <$> Answer.number <$> write fd data) fs.observed).world.events = _
    rw [stateAfter_map, stateAfter_map]
  rw [hevents]
  refine Mirrors.ends (p := unobserved) (onVolume_mirrors (write_mirrors fd data)) (s := fs.observed)
    (q := fun fs' => fs'.world.events) (P := fun _ _ events => BrokenOff none events)
    (Q := fun e _ events => BrokenOff (some e) events) ?_
  obtain ⟨_, w⟩ := fs
  cases hv
  have hfoot := write_footprint (m := ⟨v, (⟨w, []⟩ : Observed W)⟩) (.brokenOff fun _ => True)
    (fun _ _ => ⟨trivial, trivial⟩) ht fd data
  exact onVolume_ends (hfoot.mono (fun _ _ h => h.since.events) fun _ _ h => h.since.events.1)

/-! ## 2. The first bytes of a write -/

variable [BlockDevice W H] [LawfulBlockDevice W H]

namespace FileSystem

/-- **The first `k` bytes of `data` count,** written through `fd`, which was bound to `f`, to the file
    in `slot` of `v`: this is what all calls tell of `fs'`, where `v'` is mounted. No other file and no
    other descriptor was changed. -/
structure Committed (fs fs' : FileSystem W H) (v v' : Volume H) (fd : Nat) (f : OpenFile)
    (slot : Slot) (data : ByteArray) (k : Nat) : Prop where
  mounted_eq : fs'.mounted = some v'
  tell_eq : tell fd fs' = .ok (f.offset + k) fs'
  stat_eq : stat fd fs' = .ok (max (v.root.get slot).size (f.offset + k)) fs'
  /-- The bytes written stand over the old ones, and behind them where the file ended. -/
  bytes_eq : bytesOf ⟨v', fs'.world⟩ (v'.root.get slot) =
    (bytesOf ⟨v, fs.world⟩ (v.root.get slot)).extract 0 f.offset ++ data.extract 0 k ++
      (bytesOf ⟨v, fs.world⟩ (v.root.get slot)).extract (f.offset + k) (v.root.get slot).size
  check_eq : check fs' = .ok () fs'
  /-- Size and first block of every other file, and its bytes. -/
  others : ∀ s, s ≠ slot → v'.root.get s = v.root.get s ∧
    bytesOf ⟨v', fs'.world⟩ (v.root.get s) = bytesOf ⟨v, fs.world⟩ (v.root.get s)
  descriptors : ∀ fd', fd' ≠ fd → v'.files.get? fd' = v.files.get? fd'

theorem committed_of_written {m m' : Mounted W H} {own : Slot → List Link} {fd k : Nat} {f : OpenFile}
    {slot : Slot} {new : List Link} {data : ByteArray} (h : m.volume.Intact own)
    (hr : m.volume.resolve fd = .ok (f, slot))
    (hw : Written m m' fd slot (own slot) new f.offset data k) (hk : k ≤ data.size) :
    Committed (ofMounted m) (ofMounted m') m.volume m'.volume fd f slot data k := by
  obtain ⟨hf, hs⟩ := Volume.resolve_eq_ok_iff.mp hr
  have ht := hw.tidy h hf hs
  have hrefiled := hw.refiled h
  have hr' := hw.resolve_eq h hr
  refine ⟨rfl, ?_, ?_, hw.bytesOf_eq h (h.offset_le hr) hk, ?_, fun s hne => ⟨?_, ?_⟩,
    fun fd' hne => ?_⟩
  · rw [tell, query_run, OpenFiles.get, (Volume.resolve_eq_ok_iff.mp hr').1]
    rfl
  · rw [stat, query_run, hr']
    dsimp only [Except.map]
    rw [hw.size_eq]
  · exact check_eq_ok_iff.mpr ⟨rfl, _, rfl, ht.check_eq_ok_iff.mpr ⟨_, h.refiled ht hrefiled⟩⟩
  · exact hrefiled.get_eq s hne
  · exact bytesOf_of_refiled h ht hrefiled hne fun b hb => hw.block_eq h ht hne hb
  · rw [hw.files_eq, OpenFiles.get?_moveTo, if_neg hne]

/-- **A write commits a prefix of its data,** whichever calls of the device fail. Of the bytes that are
    to be written it commits the first `k`, and answers this number if it came to the end, or to the end
    of the last free block. It says that the volume is full if there was no block for the first byte;
    every other error names the block whose call failed, and nothing is called after that. Where it
    stopped on the way, it stopped at the end of a block. -/
theorem write_commits_prefix {d : H} {fs fs₀ fs₁ : FileSystem W H} {v : Volume H} {fd : Nat}
    {f : OpenFile} (hm : mount d fs = .ok () fs₀) (hr : Reachable fs₀ fs₁)
    (hv : fs₁.mounted = some v) (hc : check fs₁ = .ok () fs₁) (hf : v.files.get? fd = some f)
    (data : ByteArray) : ∃ slot, v.resolve fd = .ok (f, slot) ∧ Ends (write fd data) fs₁
      (fun k fs₂ => ∃ v₂, Committed fs₁ fs₂ v v₂ fd f slot data k ∧
        Unfailed ((Operation.file (.write fd data)).events fs₁) ∧
        (k = data.size ∨ 0 < k ∧ k < data.size ∧ (f.offset + k) % blockSize = 0 ∧
          freeBlocks v₂.table = ∅))
      (fun e fs₂ => ∃ v₂ k, Committed fs₁ fs₂ v v₂ fd f slot data k ∧
        k < data.size ∧ (0 < k → (f.offset + k) % blockSize = 0) ∧
        ((e = .diskFull ∧ k = 0 ∧ freeBlocks v₂.table = ∅ ∧
            Unfailed ((Operation.file (.write fd data)).events fs₁)) ∨
          ∃ i c, e = .io i c ∧
            FailedLast i c ((Operation.file (.write fd data)).events fs₁))) := by
  have ht : v.Tidy := hr.tidy (tidy_of_mount hm) v hv
  obtain ⟨own, hi⟩ := intact_of_checked ht hv hc
  obtain ⟨slot, hres, hs, -⟩ := ht.resolve_eq hf
  have hcalls := write_brokenOff hv ht fd data
  obtain ⟨_, w⟩ := fs₁
  cases hv
  have hends : Ends (write fd data) (ofMounted ⟨v, w⟩)
      (fun k fs₂ => ∃ m' new, fs₂ = ofMounted m' ∧
        Written ⟨v, w⟩ m' fd slot (own slot) new f.offset data k ∧ Accepted m' f.offset data new k)
      (fun e fs₂ => ∃ m' new k, fs₂ = ofMounted m' ∧
        Written ⟨v, w⟩ m' fd slot (own slot) new f.offset data k ∧ k < data.size ∧
        (0 < k → (f.offset + k) % blockSize = 0) ∧ Mounted.Refused ⟨v, w⟩ m' f.offset new k e) :=
    onVolume_ends ((write_ends (m := ⟨v, w⟩) hi hf hs data).mono
      (fun k m' ⟨new, hw, ha, _⟩ => ⟨m', new, rfl, hw, ha⟩)
      fun e m' ⟨new, k, h⟩ => ⟨m', new, k, rfl, h⟩)
  refine ⟨slot, hres, (hends.and hcalls).mono ?_ ?_⟩
  · intro k fs₂ hok
    rcases hok with ⟨⟨m', new, rfl, hw, ha⟩, hbroken⟩
    have hk : k ≤ data.size := by
      rcases ha with rfl | ⟨-, hlt, -⟩
      · exact Nat.le_refl _
      · exact Nat.le_of_lt hlt
    refine ⟨m'.volume, committed_of_written (m := ⟨v, w⟩) hi hres hw hk, hbroken.unfailed nofun, ?_⟩
    refine ha.imp_right fun hstop => ?_
    obtain ⟨hpos, hlt, hlow, hend⟩ := hstop
    exact ⟨hpos, hlt, by rw [hend, Nat.mul_mod_left],
      Finset.card_eq_zero.mp (card_freeBlocks_eq_zero_iff.mpr hlow)⟩
  · intro e fs₂ herr
    rcases herr with ⟨⟨m', new, k, rfl, hw, hlt, hcut, hrefused⟩, hbroken⟩
    refine ⟨m'.volume, k, committed_of_written (m := ⟨v, w⟩) hi hres hw (Nat.le_of_lt hlt), hlt,
      hcut, ?_⟩
    rcases hrefused with ⟨rfl, hk, hlow, -, -⟩ | ⟨⟨b, c, rfl⟩, -⟩
    · exact .inl ⟨rfl, hk, Finset.card_eq_zero.mp (card_freeBlocks_eq_zero_iff.mpr hlow),
        hbroken.unfailed fun call c => by cases call <;> nofun⟩
    · exact .inr ⟨_, c, rfl, hbroken.failedLast⟩

/-- In memory, where one more block can be stored and then no other: of five thousand bytes behind the
    first hundred of a file as many were written as descriptor and file say. -/
theorem write_commits_prefix_memory : ∃ fs fs₁ fs₂ k,
    mount () (ofWorld (Memory.holding 16
      (Volume.lone AllocationTable.oneUsed Entry.hundredBytes))) = .ok () fs ∧
    Reachable fs fs₁ ∧ fs₁.world.faults.writeBudget = some 1 ∧ check fs₁ = .ok () fs₁ ∧
    fs₂ = stateAfter (write 0 (Bytes.zeros 5000)) fs₁ ∧ k ≤ 5000 ∧
    tell 0 fs₂ = .ok (100 + k) fs₂ ∧ stat 0 fs₂ = .ok (100 + k) fs₂ ∧ check fs₂ = .ok () fs₂ := by
  obtain ⟨fs, files, w, hm, hr, hf, -⟩ := exists_opened_hundredBytes
  obtain ⟨v, hv⟩ : ∃ v, v =
    { Volume.lone AllocationTable.oneUsed Entry.hundredBytes with files } := ⟨_, rfl⟩
  rw [← hv] at hr
  obtain ⟨fs₁, hfs₁⟩ : ∃ fs₁, fs₁ = (ofMounted ⟨v, w⟩).withFaults { writeBudget := some 1 } :=
    ⟨_, rfl⟩
  have hmounted : fs₁.mounted = some v := hfs₁ ▸ rfl
  have hr₁ : Reachable fs fs₁ := hfs₁ ▸ hr.withFaults _
  have hc : check fs₁ = .ok () fs₁ :=
    check_eq_ok_iff.mpr ⟨rfl, v, hmounted, hv ▸ Volume.check_hundredBytes files⟩
  have hf' : v.files.get? 0 = some ⟨"a", 100⟩ := by rw [hv]; exact hf
  obtain ⟨slot, hres, hends⟩ := write_commits_prefix hm hr₁ hmounted hc hf' (Bytes.zeros 5000)
  have hslot : slot = ⟨0, by decide⟩ := by
    have hs := (Volume.resolve_eq_ok_iff.mp hres).2
    rw [hv] at hs
    exact Option.some.inj (hs.symm.trans
      (Volume.find?_lone (t := AllocationTable.oneUsed) (e := Entry.hundredBytes) rfl))
  have hsize : (v.root.get slot).size = 100 := by
    rw [hslot, hv]
    exact congrArg Entry.size (Volume.get_lone AllocationTable.oneUsed Entry.hundredBytes)
  have htold : ∀ {fs₂ v₂ k}, Committed fs₁ fs₂ v v₂ 0 ⟨"a", 100⟩ slot (Bytes.zeros 5000) k →
      k ≤ (Bytes.zeros 5000).size → ∃ k, k ≤ 5000 ∧ tell 0 fs₂ = .ok (100 + k) fs₂ ∧
        stat 0 fs₂ = .ok (100 + k) fs₂ ∧ check fs₂ = .ok () fs₂ := by
    intro fs₂ v₂ k hcom hk
    have hstat := hcom.stat_eq
    rw [hsize, Nat.max_eq_right (Nat.le_add_right 100 k)] at hstat
    rw [Bytes.size_zeros] at hk
    exact ⟨k, hk, hcom.tell_eq, hstat, hcom.check_eq⟩
  obtain ⟨k, hk, htell, hstat, hcheck⟩ := Ends.stateAfter (hends.mono
    (fun k fs₂ ⟨v₂, hcom, _, hk⟩ => htold hcom (hk.elim Nat.le_of_eq fun h => Nat.le_of_lt h.2.1))
    fun e fs₂ ⟨v₂, k, hcom, hk, _⟩ => htold hcom (Nat.le_of_lt hk))
  exact ⟨fs, fs₁, _, k, hm, hr₁, by rw [hfs₁]; rfl, hc, rfl, hk, htell, hstat, hcheck⟩

end FileSystem

end FlatVolume
