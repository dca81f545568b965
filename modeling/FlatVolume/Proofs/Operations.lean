import FlatVolume.FileSystem
import FlatVolume.Proofs.Calls
import FlatVolume.Proofs.Flushing
import FlatVolume.Proofs.Regrowth

/-!
# Operations and runs

`FileCall` are the calls on names and descriptors, with their arguments, and `Operation` adds the
queries on the whole volume and unmounting; `run` is what each of them does. `Reachable fs₀ fs` says
that operations lead from `fs₀` to `fs`, whichever of them fail. Between two of them the world may
change, as long as the device that is mounted keeps what it holds: faults may be set and wear off at
any time.

Every operation leaves a tidy volume tidy (`Operation.run_tidy`), and so does every run from a mount
(`Reachable.tidy`).
-/

namespace FlatVolume

open FlatVolume.Computation Mounted
open FileSystem (ofMounted)
open LawfulBlockDevice (storage)

/-! ## 1. Operations -/

/-- A call on the files of a mounted volume. -/
inductive FileCall where
  | create (name : String)
  | delete (name : String)
  | list
  | openFile (name : String)
  | close (fd : Nat)
  | stat (fd : Nat)
  | tell (fd : Nat)
  | seek (fd offset : Nat)
  | read (fd count : Nat)
  | write (fd : Nat) (data : ByteArray)
  | truncate (fd size : Nat)

/-- What a call answers. -/
inductive Answer where
  | done
  | number (n : Nat)
  | bytes (b : ByteArray)
  /-- Name and size of each file. -/
  | listing (files : List (String × Nat))

/-- An operation on a mount point that holds a volume. -/
inductive Operation where
  | file (call : FileCall)
  | info
  | check
  | unmount

variable {W H : Type} [BlockDevice W H]

/-- What a call does. -/
def FileCall.run : FileCall → FileSystemM W H Answer
  | .create name => (fun _ => .done) <$> FileSystem.create name
  | .delete name => (fun _ => .done) <$> FileSystem.delete name
  | .list => (fun files => .listing (files.map fun e => (e.name, e.size))) <$> FileSystem.list
  | .openFile name => .number <$> FileSystem.openFile name
  | .close fd => (fun _ => .done) <$> FileSystem.close fd
  | .stat fd => .number <$> FileSystem.stat fd
  | .tell fd => .number <$> FileSystem.tell fd
  | .seek fd offset => (fun _ => .done) <$> FileSystem.seek fd offset
  | .read fd count => .bytes <$> FileSystem.read fd count
  | .write fd data => .number <$> FileSystem.write fd data
  | .truncate fd size => (fun _ => .done) <$> FileSystem.truncate fd size

/-- What an operation does, whatever it answers. -/
def Operation.run : Operation → FileSystemM W H Unit
  | .file call => discard call.run
  | .info => discard FileSystem.info
  | .check => FileSystem.check
  | .unmount => FileSystem.unmount

/-- The state in which a computation ends, whether it fails or not. -/
def Computation.stateAfter {ε σ α : Type} (x : EStateM ε σ α) (s : σ) : σ :=
  match x s with
  | .ok _ t => t
  | .error _ t => t

theorem Computation.Ends.stateAfter {ε σ α : Type} {x : EStateM ε σ α} {s : σ} {P : σ → Prop}
    (h : Ends x s (fun _ t => P t) fun _ t => P t) : P (stateAfter x s) := by
  unfold Ends at h
  unfold Computation.stateAfter
  cases hx : x s <;> simpa [hx] using h

theorem Computation.Ends.map {ε σ α β : Type} {x : EStateM ε σ α} {s : σ} {f : α → β}
    {ok : β → σ → Prop} {err : ε → σ → Prop} (h : Ends x s (fun a t => ok (f a) t) err) :
    Ends (f <$> x) s ok err := by
  obtain ⟨ho, he⟩ := ends_iff.mp h
  refine ends_iff.mpr ⟨fun b t hb => ?_, fun e t hb => he e t (map_eq_error_iff.mp hb)⟩
  obtain ⟨a, ha, rfl⟩ := map_eq_ok_iff.mp hb
  exact ho a t ha

/-! ## 2. Runs -/

/-- **Operations lead from `fs₀` to `fs`.** What happens elsewhere in the world does not change
    what the mounted device holds. -/
inductive Reachable [LawfulBlockDevice W H] (fs₀ : FileSystem W H) : FileSystem W H → Prop where
  | start : Reachable fs₀ fs₀
  | step {fs : FileSystem W H} (h : Reachable fs₀ fs) (op : Operation) :
      Reachable fs₀ (stateAfter op.run fs)
  | elsewhere {fs : FileSystem W H} (h : Reachable fs₀ fs) {w : W}
      (hw : ∀ v, fs.mounted = some v → storage v.device w = storage v.device fs.world) :
      Reachable fs₀ { fs with world := w }

/-- If a volume is mounted, it has the property. -/
def FileSystem.Mounting (P : Volume H → Prop) (fs : FileSystem W H) : Prop :=
  ∀ v, fs.mounted = some v → P v

omit [BlockDevice W H] in
theorem FileSystem.mounting_ofMounted {P : Volume H → Prop} {m : Mounted W H} (h : P m.volume) :
    (ofMounted m).Mounting P := by
  intro v hv
  cases hv
  exact h

/-! ## 3. Tidiness -/

theorem OpenFiles.isOpen_iff {t : OpenFiles} {name : String} :
    t.isOpen name = true ↔ ∃ fd f, t.get? fd = some f ∧ f.name = name := by
  have hb : t.isOpen name = true ↔ ∃ f ∈ t.toList, f.name = name := by
    simp [isOpen, boundTo, List.filter_eq_nil_iff]
  have hl : ∀ f, f ∈ t.toList ↔ ∃ fd, t.get? fd = some f := by
    intro f
    simp only [toList, List.mem_filterMap, id, Vector.mem_toList_iff, Vector.mem_iff_getElem]
    constructor
    · intro hq
      rcases hq with ⟨s, ⟨i, hi, rfl⟩, hs⟩
      exact ⟨i, by simp [get?, hi, hs]⟩
    · intro hq
      rcases hq with ⟨fd, hf⟩
      have hlt := lt_of_get? hf
      refine ⟨some f, ⟨fd, hlt, ?_⟩, rfl⟩
      simpa [get?, hlt] using hf
  rw [hb]
  constructor
  · intro hq
    rcases hq with ⟨f, hf, hn⟩
    obtain ⟨fd, hfd⟩ := (hl f).mp hf
    exact ⟨fd, f, hfd, hn⟩
  · intro hq
    rcases hq with ⟨fd, f, hfd, hn⟩
    exact ⟨f, (hl f).mpr ⟨fd, hfd⟩, hn⟩

/-- Opening a file that exists, at its beginning. -/
theorem Volume.Tidy.opened {v : Volume H} (h : v.Tidy) {name : String} {slot : Slot} {fd : Nat}
    {files : OpenFiles} (hs : v.root.find? name = some slot)
    (hb : v.files.bind name = .ok (fd, files)) : Volume.Tidy { v with files } := by
  refine h.withFiles fun {fd' f} hf => ?_
  rw [(OpenFiles.get?_of_bind hb).2] at hf
  split at hf
  · cases hf
    exact ⟨slot, hs, Nat.zero_le _⟩
  · exact h.bound hf

theorem Volume.Tidy.closed {v : Volume H} (h : v.Tidy) {fd : Nat} {files : OpenFiles}
    (hr : v.files.release fd = .ok files) : Volume.Tidy { v with files } := by
  refine h.withFiles fun {fd' f} hf => ?_
  rw [OpenFiles.get?_of_release hr] at hf
  split at hf
  · cases hf
  · exact h.bound hf

/-- Removing a file that is not open, with another table of the same size. -/
theorem Volume.Tidy.deleted {v : Volume H} (h : v.Tidy) {name : String} {slot : Slot}
    {table : AllocationTable} (hs : v.root.find? name = some slot)
    (ho : v.files.isOpen name = false) (ht : table.size = v.table.size) :
    Volume.Tidy { v with table, root := v.root.set slot Entry.free } := by
  refine (h.removed slot fun {fd f} hf hn => ?_).withTable ht
  have hopen := OpenFiles.isOpen_iff.mpr ⟨fd, f, hf, hn.trans (Directory.of_find? hs).2⟩
  rw [ho] at hopen
  cases hopen

/-- **Every call on the files leaves a tidy volume tidy,** however it ends. -/
theorem FileCall.run_tidy (call : FileCall) {m : Mounted W H} (ht : m.volume.Tidy) :
    Ends call.run (ofMounted m) (fun _ fs => ∃ m', fs = ofMounted m' ∧ m'.volume.Tidy)
      (fun _ fs => ∃ m', fs = ofMounted m' ∧ m'.volume.Tidy) := by
  have hsame : ∀ {fs : FileSystem W H}, fs = ofMounted m →
      ∃ m', fs = ofMounted m' ∧ m'.volume.Tidy := fun h => ⟨m, h, ht⟩
  have hquery : ∀ {α : Type} (f : Volume H → Except VolumeError α), Ends (FileSystem.query f)
      (ofMounted m) (fun _ fs => ∃ m', fs = ofMounted m' ∧ m'.volume.Tidy)
      (fun _ fs => ∃ m', fs = ofMounted m' ∧ m'.volume.Tidy) :=
    fun f => (FileSystem.query_ends m f).mono (fun _ _ h => hsame h.2) fun _ _ h => hsame h.2
  have hvolume : ∀ {α : Type} {act : MountedM W H α},
      Ends act m (fun _ m' => m'.volume.Tidy) (fun _ m' => m'.volume.Tidy) →
      Ends (FileSystem.onVolume act) (ofMounted m)
        (fun _ fs => ∃ m', fs = ofMounted m' ∧ m'.volume.Tidy)
        (fun _ fs => ∃ m', fs = ofMounted m' ∧ m'.volume.Tidy) :=
    fun h => FileSystem.onVolume_ends
      (h.mono (fun _ m' h => ⟨m', rfl, h⟩) fun _ m' h => ⟨m', rfl, h⟩)
  cases call with
  | create name =>
    refine Ends.map ((FileSystem.create_ends m name).mono ?_ fun _ _ h => hsame h.1)
    intro _ fs hok
    rcases hok with ⟨slot, hv, hn, hs, rfl⟩
    exact ⟨_, rfl, ht.created hv hn hs⟩
  | delete name =>
    have hsize := fun first => ends_iff.mp (AllocationTable.freeChain_ends first m.volume.table)
    refine Ends.map ((FileSystem.delete_ends m name).mono ?_ ?_)
    · intro _ fs hok
      rcases hok with ⟨slot, n, table, hs, ho, hc, rfl⟩
      exact ⟨_, rfl, ht.deleted hs ho ((hsize _).1 _ _ hc)⟩
    · intro e fs herr
      rcases herr with h | ⟨slot, table, hs, ho, hc, rfl⟩
      · exact hsame h.1
      · exact ⟨_, rfl, ht.deleted hs ho ((hsize _).2 _ _ hc)⟩
  | list => exact Ends.map (hquery _)
  | openFile name =>
    refine Ends.map ((FileSystem.openFile_ends m name).mono ?_ fun _ _ h => hsame h.1)
    intro fd fs hok
    rcases hok with ⟨slot, files, hs, hb, rfl⟩
    exact ⟨_, rfl, ht.opened hs hb⟩
  | close fd =>
    refine Ends.map ((FileSystem.close_ends m fd).mono ?_ fun _ _ h => hsame h.1)
    intro _ fs hok
    rcases hok with ⟨files, hr, rfl⟩
    exact ⟨_, rfl, ht.closed hr⟩
  | stat fd => exact Ends.map (hquery _)
  | tell fd => exact Ends.map (hquery _)
  | seek fd offset =>
    refine Ends.map ((FileSystem.seek_ends m fd offset).mono ?_ fun _ _ h => hsame h.1)
    intro _ fs hok
    rcases hok with ⟨f, slot, hr, ho, rfl⟩
    obtain ⟨hf, hs⟩ := Volume.resolve_eq_ok_iff.mp hr
    exact ⟨_, rfl, ht.moved hf hs ho⟩
  | read fd count => exact Ends.map (hvolume (read_tidy ht fd count))
  | write fd data => exact Ends.map (hvolume (write_tidy ht fd data))
  | truncate fd size => exact Ends.map (hvolume (truncate_tidy ht fd size))

/-- A volume stays mounted through every call on its files. -/
theorem FileCall.exists_mounted_after (call : FileCall) {fs : FileSystem W H} {v : Volume H}
    (hv : fs.mounted = some v) (ht : v.Tidy) :
    ∃ v', (stateAfter (Operation.file call).run fs).mounted = some v' := by
  obtain ⟨_, w⟩ := fs
  cases hv
  refine Ends.stateAfter (P := fun fs' : FileSystem W H => ∃ v', fs'.mounted = some v') ?_
  refine Ends.map ((call.run_tidy (m := ⟨v, w⟩) ht).mono ?_ ?_)
  · intro _ fs' hok
    rcases hok with ⟨m', rfl, -⟩
    exact ⟨m'.volume, rfl⟩
  · intro e fs' herr
    rcases herr with ⟨m', rfl, -⟩
    exact ⟨m'.volume, rfl⟩

/-- **Every operation leaves a tidy volume tidy,** however it ends. -/
theorem Operation.run_tidy (op : Operation) {m : Mounted W H} (ht : m.volume.Tidy) :
    (stateAfter op.run (ofMounted m)).Mounting Volume.Tidy := by
  refine Ends.stateAfter ?_
  have hsame : ∀ {fs : FileSystem W H}, fs = ofMounted m → fs.Mounting Volume.Tidy := by
    intro fs heq
    subst heq
    exact FileSystem.mounting_ofMounted ht
  cases op with
  | file call =>
    refine Ends.map ((call.run_tidy ht).mono ?_ ?_)
    · intro _ fs hok
      rcases hok with ⟨m', rfl, ht'⟩
      exact FileSystem.mounting_ofMounted ht'
    · intro _ fs hok
      rcases hok with ⟨m', rfl, ht'⟩
      exact FileSystem.mounting_ofMounted ht'
  | info =>
    exact Ends.map
      ((FileSystem.query_ends m _).mono (fun _ _ h => hsame h.2) fun _ _ h => hsame h.2)
  | check =>
    exact (FileSystem.query_ends m _).mono (fun _ _ h => hsame h.2) fun _ _ h => hsame h.2
  | unmount =>
    refine (FileSystem.unmount_ends m).mono ?_ ?_
    · intro _ fs hok
      rcases hok with ⟨w, w', -, -, rfl⟩
      exact nofun
    · intro e fs herr
      rcases herr with ⟨w, e', -, -, rfl⟩ | ⟨w, w', -, -, rfl⟩
      · exact FileSystem.mounting_ofMounted ht
      · exact nofun

/-- Without a volume every operation is refused. -/
theorem Operation.run_of_none (op : Operation) (w : W) :
    op.run (⟨none, w⟩ : FileSystem W H) = .error .notMounted ⟨none, w⟩ := by
  cases op with
  | file call => cases call <;> rfl
  | info => rfl
  | check => rfl
  | unmount => rfl

/-- **Every volume that is reached from a tidy one is tidy.** -/
theorem Reachable.tidy [LawfulBlockDevice W H] {fs₀ fs : FileSystem W H} (h : Reachable fs₀ fs)
    (h₀ : fs₀.Mounting Volume.Tidy) : fs.Mounting Volume.Tidy := by
  induction h with
  | start => exact h₀
  | @step fs _ op ih =>
    obtain ⟨_ | v, w⟩ := fs
    · rw [stateAfter, op.run_of_none w]
      exact ih
    · exact op.run_tidy (m := ⟨v, w⟩) (ih v rfl)
  | elsewhere _ _ ih => exact ih

/-- **Mounting that succeeds** has loaded the volume. -/
theorem FileSystem.load_of_mount {d : H} {fs fs' : FileSystem W H} (h : mount d fs = .ok () fs') :
    ∃ v, Volume.load d fs.world = .ok v fs'.world ∧ fs'.mounted = some v := by
  unfold mount at h
  split at h
  · cases h
  · split at h
    · rename_i hl
      cases h
      exact ⟨_, hl, rfl⟩
    · cases h

/-- What was loaded is mounted. -/
theorem FileSystem.mount_of_load {d : H} {w w' : W} {v : Volume H}
    (h : Volume.load d w = .ok v w') : mount d (ofWorld w) = .ok () ⟨some v, w'⟩ := by
  unfold mount ofWorld
  dsimp only
  rw [h]

/-- What cannot be loaded is not mounted. -/
theorem FileSystem.mount_of_load_error {d : H} {w w' : W} {e : VolumeError}
    (h : Volume.load d w = .error e w') : mount d (ofWorld w) = .error e ⟨none, w'⟩ := by
  unfold mount ofWorld
  dsimp only
  rw [h]

/-- What was mounted is tidy. -/
theorem FileSystem.tidy_of_mount [LawfulBlockDevice W H] {d : H} {fs fs' : FileSystem W H}
    (h : mount d fs = .ok () fs') : fs'.Mounting Volume.Tidy := by
  intro v hv
  obtain ⟨v', hl, hv'⟩ := load_of_mount h
  cases hv'.symm.trans hv
  exact Volume.tidy_of_load hl

/-- The device of what was mounted carries its layout. -/
theorem FileSystem.carries_of_mount [LawfulBlockDevice W H] {d : H} {fs fs' : FileSystem W H}
    {v : Volume H} (h : mount d fs = .ok () fs') (hv : fs'.mounted = some v) : v.device = d ∧
      Carries (storage d fs'.world) v.superblock ∧ storage d fs'.world = storage d fs.world := by
  obtain ⟨v', hl, hv'⟩ := load_of_mount h
  cases hv'.symm.trans hv
  obtain ⟨hd, hc, -, -, -, ha⟩ := (ends_iff.mp (Volume.load_ends d fs.world)).1 _ _ hl
  rw [ha.storage_eq]
  exact ⟨hd, hc, rfl⟩

end FlatVolume
