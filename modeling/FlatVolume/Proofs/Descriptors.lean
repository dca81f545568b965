import FlatVolume.Proofs.Landing
import FlatVolume.Proofs.Prepared
import FlatVolume.Proofs.Truncation

/-!
# Descriptors of any volume

A descriptor is bound to a name, and the name is looked up on each use. Still it never dangles:
whatever was mounted and whichever calls failed since, the name of an open descriptor is held by an
occupied slot, and the descriptor stands in the file in the lowest such slot or at its end.

So a call on a descriptor never fails for a file that is not found (`FileCall.run_of_open`), and it
reports a bad descriptor exactly if the descriptor is not open (`FileCall.run_of_closed`). Both are
said of runs in `FileSystem.descriptors_bound`.
-/

namespace FlatVolume

open AllocationTable FlatVolume.Computation Mounted
open FileSystem (ofMounted ofWorld)
open LawfulBlockDevice (storage)

variable {W H : Type} [BlockDevice W H]

/-! ## 1. Calls on descriptors -/

/-- The descriptor that a call is made on, if it is made on one. -/
def FileCall.descriptor? : FileCall → Option Nat
  | .close fd => some fd
  | .stat fd => some fd
  | .tell fd => some fd
  | .seek fd _ => some fd
  | .read fd _ => some fd
  | .write fd _ => some fd
  | .truncate fd _ => some fd
  | .create _ => none
  | .delete _ => none
  | .list => none
  | .openFile _ => none

/-- **A call on a descriptor that is not open** is refused, and changes nothing. -/
theorem FileCall.run_of_closed {call : FileCall} {fd : Nat} {m : Mounted W H}
    (hd : call.descriptor? = some fd) (hf : m.volume.files.get? fd = none) :
    call.run (ofMounted m) = .error (.badDescriptor fd) (ofMounted m) := by
  have hr := Volume.resolve_of_get?_none hf
  have hget : m.volume.files.get fd = .error (.badDescriptor fd) := by simp only [OpenFiles.get, hf]
  have hrelease : m.volume.files.release fd = .error (.badDescriptor fd) := by
    simp only [OpenFiles.release, hf]
  cases call with
  | create name => cases hd
  | delete name => cases hd
  | list => cases hd
  | openFile name => cases hd
  | close fd' =>
    obtain rfl := Option.some.inj hd
    exact map_eq_error_iff.mpr (by rw [FileSystem.close_run, hrelease])
  | stat fd' =>
    obtain rfl := Option.some.inj hd
    exact map_eq_error_iff.mpr (by rw [FileSystem.stat, FileSystem.query_run, hr]; rfl)
  | tell fd' =>
    obtain rfl := Option.some.inj hd
    exact map_eq_error_iff.mpr (by rw [FileSystem.tell, FileSystem.query_run, hget]; rfl)
  | seek fd' offset =>
    obtain rfl := Option.some.inj hd
    exact map_eq_error_iff.mpr (by rw [FileSystem.seek_run, hr])
  | read fd' count =>
    obtain rfl := Option.some.inj hd
    refine map_eq_error_iff.mpr ?_
    rw [FileSystem.read, FileSystem.onVolume_run, read_of_unresolved hr]
  | write fd' data =>
    obtain rfl := Option.some.inj hd
    refine map_eq_error_iff.mpr ?_
    rw [FileSystem.write, FileSystem.onVolume_run, write_of_unresolved hr]
  | truncate fd' size =>
    obtain rfl := Option.some.inj hd
    refine map_eq_error_iff.mpr ?_
    rw [FileSystem.truncate, FileSystem.onVolume_run, truncate_run, hr]

/-- The error is about a file that was found: it says neither that there is no such file nor that
    there is no such descriptor. -/
def Located (e : VolumeError) : Prop :=
  (∀ name, e ≠ .fileNotFound name) ∧ ∀ fd, e ≠ .badDescriptor fd

variable [LawfulBlockDevice W H] {m : Mounted W H} {fd : Nat} {f : OpenFile} {slot : Slot}

/-- **A write to a file that is found** fails for its chain, for lack of room or for the device. -/
theorem Mounted.write_located (ht : m.volume.Tidy) (hr : m.volume.resolve fd = .ok (f, slot))
    (data : ByteArray) : Ends (write fd data) m (fun _ _ => True) fun e _ => Located e := by
  rcases Nat.eq_zero_or_pos data.size with h0 | hpos
  · exact Ends.of_ok (write_of_size_eq_zero hr h0) trivial
  · by_cases hc : ∃ blocks, Chain m.volume.table (m.volume.root.get slot).firstBlock blocks
    · obtain ⟨old, hc⟩ := hc
      refine (write_ends_of_chain ht hr hc hpos).mono (fun _ _ _ => trivial) ?_
      intro e m' herr
      rcases herr with ⟨new, k, -, -, ⟨rfl, -, -⟩ | ⟨⟨b, c, rfl⟩, -⟩⟩
      · exact ⟨nofun, nofun⟩
      · exact ⟨nofun, nofun⟩
    · obtain ⟨b, hw⟩ := write_of_no_chain hr hpos hc
      exact Ends.of_error hw ⟨nofun, nofun⟩

/-- **A call on a descriptor that is open** finds its file. -/
theorem FileCall.run_of_open {call : FileCall} (ht : m.volume.Tidy)
    (hd : call.descriptor? = some fd) (hf : m.volume.files.get? fd = some f) :
    Ends call.run (ofMounted m) (fun _ _ => True) fun e _ => Located e := by
  obtain ⟨slot, hr, -⟩ := ht.resolve_eq hf
  cases call with
  | create name => cases hd
  | delete name => cases hd
  | list => cases hd
  | openFile name => cases hd
  | close fd' =>
    obtain rfl := Option.some.inj hd
    refine Ends.map ?_
    unfold Ends
    simp only [FileSystem.close_run, OpenFiles.release, hf]
  | stat fd' =>
    obtain rfl := Option.some.inj hd
    refine Ends.map ((FileSystem.query_ends m _).mono (fun _ _ _ => trivial) fun e fs herr => ?_)
    rw [hr] at herr
    cases herr.1
  | tell fd' =>
    obtain rfl := Option.some.inj hd
    refine Ends.map ((FileSystem.query_ends m _).mono (fun _ _ _ => trivial) fun e fs herr => ?_)
    rw [OpenFiles.get, hf] at herr
    cases herr.1
  | seek fd' offset =>
    obtain rfl := Option.some.inj hd
    refine Ends.map ?_
    unfold Ends
    rw [FileSystem.seek_run, hr]
    dsimp only
    split
    · trivial
    · rename_i h
      split at h
      · cases h
        refine ⟨fun _ h => ?_, fun _ h => ?_⟩ <;> cases h
      · cases h
  | read fd' count =>
    obtain rfl := Option.some.inj hd
    refine Ends.map (FileSystem.onVolume_ends
      ((read_ends_of_tidy ht hr rfl).mono (fun _ _ _ => trivial) fun e m' herr => ?_))
    rcases herr with ⟨-, ⟨⟨b, rfl⟩, -⟩ | hfail⟩
    · refine ⟨fun _ h => ?_, fun _ h => ?_⟩ <;> cases h
    · obtain ⟨b, c, rfl⟩ := hfail.error_eq
      refine ⟨fun _ h => ?_, fun _ h => ?_⟩ <;> cases h
  | write fd' data =>
    obtain rfl := Option.some.inj hd
    exact Ends.map (FileSystem.onVolume_ends (write_located ht hr data))
  | truncate fd' size =>
    obtain rfl := Option.some.inj hd
    refine Ends.map (FileSystem.onVolume_ends
      ((truncate_ends_of_tidy ht hr size).mono (fun _ _ _ => trivial) fun e m' herr => ?_))
    rcases herr with ⟨-, -, rfl⟩ | ⟨-, ⟨b, rfl⟩, -⟩
    · refine ⟨fun _ h => ?_, fun _ h => ?_⟩ <;> cases h
    · refine ⟨fun _ h => ?_, fun _ h => ?_⟩ <;> cases h

/-! ## 2. Over runs -/

namespace FileSystem

/-- **Descriptors never dangle and never point past the end,** on any volume that was mounted and in
    any state it has come to: the name of an open descriptor is held by an occupied slot, the offset
    is at most the size of the lowest such slot, and moving the descriptor to where it stands
    succeeds. No call on a descriptor reports that a file is not found, and it reports a bad
    descriptor exactly if this descriptor is not open. -/
theorem descriptors_bound {d : H} {fs fs₀ fs₁ : FileSystem W H} {v : Volume H}
    (hm : mount d fs = .ok () fs₀) (hr : Reachable fs₀ fs₁) (hv : fs₁.mounted = some v) :
    (∀ fd f, v.files.get? fd = some f →
      (∃ slot, (v.root.get slot).isFree = false ∧ (v.root.get slot).name = f.name ∧
        (∀ s < slot, (v.root.get s).isFree = false → (v.root.get s).name ≠ f.name) ∧
        f.offset ≤ (v.root.get slot).size) ∧
      tell fd fs₁ = .ok f.offset fs₁ ∧ seek fd f.offset fs₁ = .ok () fs₁) ∧
    ∀ (call : FileCall) (fd : Nat), call.descriptor? = some fd → Ends call.run fs₁
      (fun _ _ => ∃ f, v.files.get? fd = some f)
      (fun e _ => (∀ name, e ≠ .fileNotFound name) ∧
        ((∃ n, e = .badDescriptor n) ↔ v.files.get? fd = none) ∧
        ∀ n, e = .badDescriptor n → n = fd) := by
  have ht := hr.tidy (tidy_of_mount hm) v hv
  obtain ⟨_, w⟩ := fs₁
  cases hv
  refine ⟨fun fd f hf => ⟨?_, ?_, ?_⟩, fun call fd hd => ?_⟩
  · obtain ⟨slot, hs, ho⟩ := ht.bound hf
    obtain ⟨hholds, hlowest⟩ := Directory.find?_eq_some_iff.mp hs
    obtain ⟨hocc, hname⟩ := Directory.holds_iff.mp hholds
    refine ⟨slot, hocc, hname, fun s hlt hs hn => ?_, ho⟩
    exact absurd (Directory.holds_iff.mpr ⟨hs, hn⟩) (Bool.eq_false_iff.mp (hlowest s hlt))
  · show tell fd (ofMounted ⟨v, w⟩) = _
    rw [tell, query_run, OpenFiles.get, hf]
    rfl
  · obtain ⟨slot, hres, -, ho⟩ := ht.resolve_eq hf
    show seek fd f.offset (ofMounted ⟨v, w⟩) = _
    rw [seek_run]
    simp only [hres, if_neg (Nat.not_lt_of_le ho), OpenFiles.moveTo_self hf]
    rfl
  · cases hf : v.files.get? fd with
    | none =>
      refine Ends.of_error (FileCall.run_of_closed (m := ⟨v, w⟩) hd hf) ⟨fun _ heq => ?_, ?_, ?_⟩
      · cases heq
      · exact iff_of_true ⟨fd, rfl⟩ rfl
      · intro n heq
        cases heq
        rfl
    | some f =>
      refine (FileCall.run_of_open (m := ⟨v, w⟩) ht hd hf).mono (fun _ _ _ => ⟨f, rfl⟩) ?_
      intro e fs' herr
      refine ⟨herr.1, iff_of_false (fun hq => ?_) (Option.some_ne_none f),
        fun n heq => absurd heq (herr.2 n)⟩
      obtain ⟨n, heq⟩ := hq
      exact herr.2 n heq

end FileSystem

/-! ## 3. Two files of one name -/

/-- Two files of one name whose chain is a loop. -/
def Volume.twins : Volume Unit :=
  let v := lone looped (Entry.twentyBlocks 1)
  { v with root := v.root.set ⟨1, by decide⟩ (Entry.twentyBlocks 1) }

theorem Volume.get_twins : twins.root.get ⟨0, by decide⟩ = Entry.twentyBlocks 1 ∧
    twins.root.get ⟨1, by decide⟩ = Entry.twentyBlocks 1 := by
  refine ⟨?_, Directory.get_set_self _ _ _⟩
  rw [twins, Directory.get_set, if_neg (by decide)]
  exact get_lone _ _

theorem Volume.writable_twins : twins.Writable 16 where
  layout := Superblock.forBlockCount?_sixteen
  size_eq := size_looped
  storable s := by
    rw [twins, Directory.get_set]
    split
    · exact Entry.storable_twentyBlocks 1
    · exact (writable_lone size_looped (Entry.storable_twentyBlocks 1)).storable s

/-- A file whose first block is on a loop is not sound. -/
theorem Volume.check_ne_ok_of_twins (files : OpenFiles) :
    check { twins with files } ≠ .ok () := by
  intro hc
  have hmem : Entry.twentyBlocks 1 ∈ twins.root.files := mem_files_iff.mpr ⟨_, get_twins.1, rfl⟩
  obtain ⟨blocks, hb, -⟩ := (check_eq_ok_iff.mp hc).hasBlocks _ hmem
  have hchain : looped.Chain 1 blocks := hb.chain
  have hfirst : (1 : Link) ∈ blocks := by
    cases hchain with
    | step _ _ _ => exact List.mem_cons_self ..
  exact hchain.not_onLoop hfirst onLoop_looped

/-- In memory, with two files of one name whose chain is a loop: the descriptor is bound to the lower
    of them, and stands in it. -/
theorem FileSystem.descriptors_bound_twins : ∃ fs fs₁ v,
    mount () (ofWorld (Memory.holding 16 Volume.twins)) = .ok () fs ∧ Reachable fs fs₁ ∧
    fs₁.mounted = some v ∧ v.check ≠ .ok () ∧
    (v.root.get ⟨0, by decide⟩).name = (v.root.get ⟨1, by decide⟩).name ∧
    tell 0 fs₁ = .ok 4096 fs₁ ∧ seek 0 4096 fs₁ = .ok () fs₁ := by
  have hs : Volume.twins.root.find? "a" = some ⟨0, by decide⟩ := by
    refine Directory.find?_eq_some_iff.mpr ⟨?_, nofun⟩
    rw [Volume.get_twins.1]
    rfl
  have ho : 4096 ≤ (Volume.twins.root.get ⟨0, by decide⟩).size := by
    rw [Volume.get_twins.1]
    decide
  obtain ⟨fs, files, w, hm, hr, hf, -⟩ := exists_opened Volume.writable_twins hs ho
  obtain ⟨hopen, -⟩ := descriptors_bound hm hr rfl
  obtain ⟨-, htell, hseek⟩ := hopen 0 _ hf
  refine ⟨fs, _, _, hm, hr, rfl, Volume.check_ne_ok_of_twins files, ?_, htell, hseek⟩
  exact congrArg Entry.name (Volume.get_twins.1.trans Volume.get_twins.2.symm)

end FlatVolume
