import FlatVolume.FileSystem
import FlatVolume.Proofs.DeviceCalls

/-!
# Calls on a mounted volume

What each call does on a mount point that holds a volume, as one equation: which refusal comes
first, and what is in memory afterwards. The calls that only look at the directory and at the
descriptors are all here; those that follow chains have files of their own.

Every call ends in a mounted volume, whether it fails or not (`onVolume_ends`); only unmounting does
not.
-/

namespace FlatVolume

open AllocationTable FlatVolume.Computation Mounted

variable {W H α : Type}

/-- A mount point that holds this volume. -/
def FileSystem.ofMounted (m : Mounted W H) : FileSystem W H := ⟨some m.volume, m.world⟩

theorem FileSystem.ofMounted_inj {m m' : Mounted W H} (h : ofMounted m = ofMounted m') :
    m = m' := by
  obtain ⟨v, w⟩ := m
  obtain ⟨v', w'⟩ := m'
  cases h
  rfl

/-- Freeing a chain whose length is of no interest. -/
theorem Mounted.discard_freeChain_run (first : Link) (m : Mounted W H) :
    discard (onTable (freeChain first)) m = match freeChain first m.volume.table with
      | .ok _ table => .ok () { m with volume := { m.volume with table } }
      | .error e table => .error e { m with volume := { m.volume with table } } := by
  show EStateM.map (fun _ => ()) (onTable (freeChain first)) m = _
  unfold EStateM.map onTable
  cases freeChain first m.volume.table <;> rfl

namespace FileSystem

theorem onVolume_run (act : MountedM W H α) (m : Mounted W H) : onVolume act (ofMounted m) =
    match act m with
    | .ok a m' => .ok a (ofMounted m')
    | .error e m' => .error e (ofMounted m') := rfl

theorem onVolume_ends {act : MountedM W H α} {m : Mounted W H} {ok : α → FileSystem W H → Prop}
    {err : VolumeError → FileSystem W H → Prop}
    (h : Ends act m (fun a m' => ok a (ofMounted m')) fun e m' => err e (ofMounted m')) :
    Ends (onVolume act) (ofMounted m) ok err := by
  unfold Ends at *
  rw [onVolume_run]
  cases hact : act m with
  | ok a m' => simpa [hact] using h
  | error e m' => simpa [hact] using h

theorem query_run (f : Volume H → Except VolumeError α) (m : Mounted W H) :
    query f (ofMounted m) = match f m.volume with
      | .ok a => .ok a (ofMounted m)
      | .error e => .error e (ofMounted m) := by
  unfold query
  rw [onVolume_run, bind_of_ok (getVolume_run m)]
  cases f m.volume <;> rfl

variable (m : Mounted W H)

/-! ## 1. Names -/

/-- **Creating** looks at the name first, then whether it is taken, then whether there is room. -/
theorem create_run (name : String) : create name (ofMounted m) =
    if validName name = false then .error (.invalidName name) (ofMounted m)
    else if (m.volume.root.find? name).isSome then .error (.nameExists name) (ofMounted m)
    else match m.volume.root.freeSlot? with
      | none => .error .directoryFull (ofMounted m)
      | some slot => .ok () (ofMounted { m with volume := { m.volume with
          root := m.volume.root.set slot (Entry.ofName name) } }) := by
  have hc : m.volume.root.create name =
      if validName name = false then .error (.invalidName name)
      else if (m.volume.root.find? name).isSome then .error (.nameExists name)
      else match m.volume.root.freeSlot? with
        | none => .error .directoryFull
        | some slot => .ok (slot, m.volume.root.set slot (Entry.ofName name)) := by
    unfold Directory.create checkName
    cases validName name with
    | false => rfl
    | true =>
      cases m.volume.root.find? name with
      | some s => rfl
      | none => cases m.volume.root.freeSlot? <;> rfl
  unfold create
  rw [onVolume_run, bind_of_ok (getVolume_run m), hc]
  cases validName name with
  | false => rfl
  | true =>
    cases m.volume.root.find? name with
    | some s => rfl
    | none => cases m.volume.root.freeSlot? <;> rfl

/-- **Removing** looks at the name first, then whether there is such a file, then whether it is
    open. Its slot is free before its chain is followed. -/
theorem delete_run (name : String) : delete name (ofMounted m) =
    if validName name = false then .error (.invalidName name) (ofMounted m)
    else match m.volume.root.find? name with
      | none => .error (.fileNotFound name) (ofMounted m)
      | some slot =>
        if m.volume.files.isOpen name then .error (.fileOpen name) (ofMounted m)
        else match freeChain (m.volume.root.get slot).firstBlock m.volume.table with
          | .ok _ table => .ok () (ofMounted { m with volume := { m.volume with
              table, root := m.volume.root.set slot Entry.free } })
          | .error e table => .error e (ofMounted { m with volume := { m.volume with
              table, root := m.volume.root.set slot Entry.free } }) := by
  unfold delete checkName
  rw [onVolume_run, bind_of_ok (getVolume_run m)]
  cases validName name with
  | false => rfl
  | true =>
    cases m.volume.root.find? name with
    | none => rfl
    | some slot =>
      cases m.volume.files.isOpen name with
      | true => rfl
      | false =>
        rw [if_pos rfl, if_neg (by decide), bind_of_ok (lookup_eq_ok_iff.mpr ⟨rfl, rfl⟩)]
        simp only [Bool.false_eq_true, if_false, Directory.remove]
        rw [bind_of_ok (modifyVolume_run _ m), discard_freeChain_run]
        cases freeChain (m.volume.root.get slot).firstBlock m.volume.table <;> rfl

/-- **Opening** takes the lowest free descriptor. -/
theorem openFile_run (name : String) : openFile name (ofMounted m) =
    if validName name = false then .error (.invalidName name) (ofMounted m)
    else if m.volume.root.find? name = none then .error (.fileNotFound name) (ofMounted m)
    else match m.volume.files.bind name with
      | .error e => .error e (ofMounted m)
      | .ok (fd, files) =>
        .ok fd (ofMounted { m with volume := { m.volume with files } }) := by
  unfold openFile checkName
  rw [onVolume_run, bind_of_ok (getVolume_run m)]
  cases validName name with
  | false => rfl
  | true =>
    cases m.volume.root.find? name with
    | none => rfl
    | some slot =>
      cases m.volume.files.bind name with
      | error e => rfl
      | ok p => rfl

/-! ## 2. Descriptors -/

theorem close_run (fd : Nat) : close fd (ofMounted m) =
    match m.volume.files.release fd with
      | .error e => .error e (ofMounted m)
      | .ok files => .ok () (ofMounted { m with volume := { m.volume with files } }) := by
  unfold close
  rw [onVolume_run, bind_of_ok (getVolume_run m)]
  cases m.volume.files.release fd <;> rfl

theorem seek_run (fd offset : Nat) : seek fd offset (ofMounted m) =
    match m.volume.resolve fd with
      | .error e => .error e (ofMounted m)
      | .ok (_, slot) =>
        if (m.volume.root.get slot).size < offset then
          .error (.offsetOutOfRange offset (m.volume.root.get slot).size) (ofMounted m)
        else .ok () (ofMounted { m with volume := { m.volume with
          files := m.volume.files.moveTo fd offset } }) := by
  unfold seek
  rw [onVolume_run, bind_of_ok (getVolume_run m)]
  cases m.volume.resolve fd with
  | error e => rfl
  | ok p =>
    obtain ⟨f, slot⟩ := p
    by_cases h : (m.volume.root.get slot).size < offset
    · rw [bind_of_ok (lookup_eq_ok_iff.mpr ⟨rfl, rfl⟩)]
      simp only [if_pos h]
      rfl
    · rw [bind_of_ok (lookup_eq_ok_iff.mpr ⟨rfl, rfl⟩)]
      simp only [if_neg h]
      rfl

/-! ## 3. Both ends of each call -/

/-- A query leaves everything as it is. -/
theorem query_ends (f : Volume H → Except VolumeError α) : Ends (query f) (ofMounted m)
    (fun a fs => f m.volume = .ok a ∧ fs = ofMounted m)
    (fun e fs => f m.volume = .error e ∧ fs = ofMounted m) := by
  unfold Ends
  rw [query_run]
  cases f m.volume with
  | ok a => exact ⟨rfl, rfl⟩
  | error e => exact ⟨rfl, rfl⟩

/-- Refused with nothing changed, and not for the state of some chain. -/
def Refused (e : VolumeError) (fs : FileSystem W H) : Prop :=
  fs = ofMounted m ∧ ∀ b, e ≠ .corruptChain b

theorem ne_corruptChain_of_get {files : OpenFiles} {fd : Nat} {e : VolumeError}
    (h : files.get fd = .error e) (b : Link) : e ≠ .corruptChain b := by
  unfold OpenFiles.get at h
  split at h <;> cases h
  nofun

theorem ne_corruptChain_of_resolve {v : Volume H} {fd : Nat} {e : VolumeError}
    (h : v.resolve fd = .error e) (b : Link) : e ≠ .corruptChain b := by
  unfold Volume.resolve at h
  split at h
  · rename_i he
    cases h
    exact ne_corruptChain_of_get he b
  · split at h <;> cases h
    nofun

/-- A query is refused where it fails and does not ask for the state of some chain. -/
theorem query_refused {f : Volume H → Except VolumeError α}
    (h : ∀ e, f m.volume = .error e → ∀ b, e ≠ .corruptChain b) :
    Ends (query f) (ofMounted m) (fun _ fs => fs = ofMounted m) (Refused m) :=
  (query_ends m f).mono (fun _ _ hq => hq.2) fun e _ hq => ⟨hq.2, h e hq.1⟩

theorem stat_ends (fd : Nat) :
    Ends (stat fd) (ofMounted m) (fun _ fs => fs = ofMounted m) (Refused m) := by
  refine query_refused m fun e he => ?_
  cases hr : m.volume.resolve fd with
  | error c =>
    rw [hr] at he
    cases he
    exact ne_corruptChain_of_resolve hr
  | ok p =>
    rw [hr] at he
    cases he

theorem tell_ends (fd : Nat) :
    Ends (tell fd) (ofMounted m) (fun _ fs => fs = ofMounted m) (Refused m) := by
  refine query_refused m fun e he => ?_
  cases hg : m.volume.files.get fd with
  | error c =>
    rw [hg] at he
    cases he
    exact ne_corruptChain_of_get hg
  | ok f =>
    rw [hg] at he
    cases he

theorem create_ends (name : String) : Ends (create name) (ofMounted m)
    (fun _ fs => ∃ slot, validName name = true ∧ m.volume.root.find? name = none ∧
      m.volume.root.freeSlot? = some slot ∧ fs = ofMounted { m with volume := { m.volume with
        root := m.volume.root.set slot (Entry.ofName name) } })
    (Refused m) := by
  unfold Ends
  rw [create_run]
  cases hv : validName name with
  | false => exact ⟨rfl, nofun⟩
  | true =>
    cases hf : m.volume.root.find? name with
    | some s => exact ⟨rfl, nofun⟩
    | none =>
      cases hs : m.volume.root.freeSlot? with
      | none => exact ⟨rfl, nofun⟩
      | some slot => exact ⟨slot, rfl, rfl, rfl, rfl⟩

theorem delete_ends (name : String) : Ends (delete name) (ofMounted m)
    (fun _ fs => ∃ slot n table, m.volume.root.find? name = some slot ∧
      m.volume.files.isOpen name = false ∧
      freeChain (m.volume.root.get slot).firstBlock m.volume.table = .ok n table ∧
      fs = ofMounted { m with volume := { m.volume with
        table, root := m.volume.root.set slot Entry.free } })
    (fun e fs => Refused m e fs ∨ ∃ slot table, m.volume.root.find? name = some slot ∧
      m.volume.files.isOpen name = false ∧
      freeChain (m.volume.root.get slot).firstBlock m.volume.table = .error e table ∧
      fs = ofMounted { m with volume := { m.volume with
        table, root := m.volume.root.set slot Entry.free } }) := by
  unfold Ends
  rw [delete_run]
  cases hv : validName name with
  | false => exact .inl ⟨rfl, nofun⟩
  | true =>
    cases hf : m.volume.root.find? name with
    | none => exact .inl ⟨rfl, nofun⟩
    | some slot =>
      cases ho : m.volume.files.isOpen name with
      | true => exact .inl ⟨rfl, nofun⟩
      | false =>
        simp only [Bool.false_eq_true, if_false, reduceCtorEq]
        cases hc : freeChain (m.volume.root.get slot).firstBlock m.volume.table with
        | ok n table => exact ⟨slot, n, table, rfl, trivial, hc, rfl⟩
        | error e table => exact .inr ⟨slot, table, rfl, trivial, hc, rfl⟩

theorem openFile_ends (name : String) : Ends (openFile name) (ofMounted m)
    (fun fd fs => ∃ slot files, m.volume.root.find? name = some slot ∧
      m.volume.files.bind name = .ok (fd, files) ∧
      fs = ofMounted { m with volume := { m.volume with files } })
    (Refused m) := by
  unfold Ends
  rw [openFile_run]
  cases hv : validName name with
  | false => exact ⟨rfl, nofun⟩
  | true =>
    cases hf : m.volume.root.find? name with
    | none => exact ⟨rfl, nofun⟩
    | some slot =>
      cases hb : m.volume.files.bind name with
      | error e =>
        refine ⟨rfl, ?_⟩
        unfold OpenFiles.bind at hb
        split at hb <;> cases hb
        nofun
      | ok p => exact ⟨slot, p.2, rfl, rfl, rfl⟩

theorem close_ends (fd : Nat) : Ends (close fd) (ofMounted m)
    (fun _ fs => ∃ files, m.volume.files.release fd = .ok files ∧
      fs = ofMounted { m with volume := { m.volume with files } })
    (Refused m) := by
  unfold Ends
  rw [close_run]
  cases hr : m.volume.files.release fd with
  | error e =>
    refine ⟨rfl, ?_⟩
    unfold OpenFiles.release at hr
    split at hr <;> cases hr
    nofun
  | ok files => exact ⟨files, rfl, rfl⟩

theorem seek_ends (fd offset : Nat) : Ends (seek fd offset) (ofMounted m)
    (fun _ fs => ∃ f slot, m.volume.resolve fd = .ok (f, slot) ∧
      offset ≤ (m.volume.root.get slot).size ∧ fs = ofMounted { m with volume := { m.volume with
        files := m.volume.files.moveTo fd offset } })
    (Refused m) := by
  unfold Ends
  rw [seek_run]
  cases hr : m.volume.resolve fd with
  | error e => exact ⟨rfl, ne_corruptChain_of_resolve hr⟩
  | ok p =>
    obtain ⟨f, slot⟩ := p
    dsimp only
    by_cases h : (m.volume.root.get slot).size < offset
    · rw [if_pos h]
      exact ⟨rfl, nofun⟩
    · rw [if_neg h]
      exact ⟨f, slot, rfl, Nat.le_of_not_lt h, rfl⟩

/-- **Unmounting** lets go of the volume once it is flushed, even if closing the device fails. While
    the flush fails, the volume stays as it is. -/
theorem unmount_ends [BlockDevice W H] : Ends unmount (ofMounted m)
    (fun _ fs => ∃ w w', m.volume.flush m.world = .ok () w ∧
      closeDevice m.volume.device w = .ok () w' ∧ fs = ⟨none, w'⟩)
    (fun e fs =>
      (∃ w c, m.volume.flush m.world = .error c w ∧ e = c.asFlushFailure ∧
        fs = ofMounted { m with world := w }) ∨
      ∃ w w', m.volume.flush m.world = .ok () w ∧ closeDevice m.volume.device w = .error e w' ∧
        fs = ⟨none, w'⟩) := by
  unfold Ends unmount ofMounted
  dsimp only
  cases hf : m.volume.flush m.world with
  | error c w => exact .inl ⟨w, c, rfl, rfl, rfl⟩
  | ok u w =>
    dsimp only
    cases hc : closeDevice m.volume.device w with
    | ok u' w' => exact ⟨w, w', rfl, hc, rfl⟩
    | error e w' => exact .inr ⟨w, w', rfl, hc, rfl⟩

end FileSystem

end FlatVolume
