import FlatVolume.CommandLine
import FlatVolume.Proofs.Images
import FlatVolume.Proofs.Pieces
import FlatVolume.Proofs.Provenance

/-!
# Commands on an image

A command mounts the image anew, does one thing and unmounts it. Where the image holds an intact
volume `v`, the commands that only look print what `v` says, and the image holds `v` still
(`Holds.looked`). This file fixes

* `CommandLine.perform` -- what the program does once its arguments were recognised;
* `infoOutput`, `listOutput`, `statOutput`, `catOutput` -- what is printed of a volume;
* `Preserved path v h h'` -- the image holds `v` on both hosts, and its files hold the same.
-/

namespace FlatVolume

open AllocationTable Bytes FlatVolume.Computation Mounted
open FileSystem (ofMounted ofWorld)
open LawfulBlockDevice (storage)

namespace CommandLine

/-! ## 1. Running a command -/

/-- What the program does for a command. -/
def perform (c : Command) (host : Host) : Output × Host :=
  match execute c ⟨ofWorld host, ByteArray.empty⟩ with
  | .ok () r => (⟨0, r.printed, none⟩, r.fs.world)
  | .error f r => (⟨1, r.printed, some f.render⟩, r.fs.world)

theorem run_of_parse? {args : List String} {c : Command} (h : Command.parse? args = some c)
    (host : Host) : run args host = perform c host := by
  simp only [run, h]
  rfl

variable {α : Type} {c : Command} {host : Host} {fs fs' : FileSystem Host Image} {out : ByteArray}

/-- What a command prints that has succeeded. -/
def success (printed : ByteArray) : Output := ⟨0, printed, none⟩

/-- A command that succeeds ends with nothing mounted. -/
theorem perform_of_ok {host' : Host}
    (h : execute c ⟨ofWorld host, ByteArray.empty⟩ = .ok () ⟨ofWorld host', out⟩) :
    perform c host = (success out, host') := by
  rw [perform, h]
  rfl

theorem perform_of_error {f : Failure}
    (h : execute c ⟨ofWorld host, ByteArray.empty⟩ = .error f ⟨fs, out⟩) :
    perform c host = (⟨1, out, some f.render⟩, fs.world) := by
  rw [perform, h]

theorem onFileSystem_of_ok {act : FileSystemM Host Image α} {a : α} (h : act fs = .ok a fs') :
    onFileSystem act ⟨fs, out⟩ = .ok a ⟨fs', out⟩ := by
  simp only [onFileSystem, h]

theorem onFileSystem_of_error {act : FileSystemM Host Image α} {e : VolumeError}
    (h : act fs = .error e fs') :
    onFileSystem act ⟨fs, out⟩ = .error (.ofVolumeError e) ⟨fs', out⟩ := by
  simp only [onFileSystem, h]

theorem mount_of_ok {image : String} (h : FileSystem.mountImage image fs = .ok () fs') :
    mount image ⟨fs, out⟩ = .ok () ⟨fs', out⟩ := by
  simp only [mount, onFileSystem, h]

/-- The bytes of a line. -/
def line (text : String) : ByteArray := (text ++ "\n").toUTF8

theorem printBytes_run (bytes : ByteArray) :
    printBytes bytes ⟨fs, out⟩ = .ok () ⟨fs, out ++ bytes⟩ := rfl

theorem printLine_run (text : String) :
    printLine text ⟨fs, out⟩ = .ok () ⟨fs, out ++ line text⟩ := rfl

/-- Printing a line for each entry. -/
theorem forIn_printLine_run (entries : List Entry) :
    (forIn entries PUnit.unit fun entry _ => do
      printLine entry.render
      return ForInStep.yield PUnit.unit : RunM PUnit) ⟨fs, out⟩ =
      .ok PUnit.unit ⟨fs, out ++ concat (entries.map fun e => line e.render)⟩ := by
  induction entries generalizing out with
  | nil =>
    rw [List.map_nil, concat_nil, ByteArray.append_empty]
    rfl
  | cons e entries ih =>
    rw [List.forIn_cons, List.map_cons, concat_cons, ← ByteArray.append_assoc, ← ih]
    rfl

/-! ## 2. What is printed of a volume -/

/-- What a command prints that an operation has stopped. -/
def refusal (e : VolumeError) : Output := ⟨1, ByteArray.empty, some (Failure.ofVolumeError e).render⟩

/-- The report on a volume. -/
def infoOutput (v : Volume Image) : Output := success (line v.info.render)

/-- The lines of a list of files. -/
def listing (files : List Entry) : Output :=
  success (line "FS Ls:" ++ concat (files.map fun e => line e.render))

/-- The slot of the file called `name`, or why it cannot be opened. -/
def slotOf {H : Type} (v : Volume H) (name : String) : Except VolumeError Slot :=
  if validName name = false then .error (.invalidName name)
  else match v.root.find? name with
    | none => .error (.fileNotFound name)
    | some slot => .ok slot

/-- What is printed of the file called `name`. -/
def fileOutput (v : Volume Image) (name : String) (shown : Entry → ByteArray) : Output :=
  match slotOf v name with
  | .ok slot => success (shown (v.root.get slot))
  | .error e => refusal e

/-- The size of a file, with its name. -/
def sizeLine (name : String) (e : Entry) : ByteArray :=
  line s!"Size of file '{name}' is {e.size} bytes"

end CommandLine

open CommandLine

/-! ## 3. Steps of a command -/

section Steps

variable {W H : Type} {m : Mounted W H}

/-- Opening a file where none is open. -/
theorem FileSystem.exists_openFile (ht : m.volume.Tidy) (hf : m.volume.files = OpenFiles.empty)
    {name : String} {slot : Slot} (hs : m.volume.root.find? name = some slot) :
    ∃ files, openFile name (ofMounted m) =
        .ok 0 (ofMounted ⟨{ m.volume with files }, m.world⟩) ∧
      Volume.Tidy { m.volume with files } ∧
      Volume.resolve { m.volume with files } 0 = .ok (⟨name, 0⟩, slot) := by
  obtain ⟨hocc, hname⟩ := Directory.of_find? hs
  have hvalid : validName name = true := hname ▸ ht.validName slot hocc
  obtain ⟨files, hb⟩ := OpenFiles.exists_bind_empty name
  rw [← hf] at hb
  have hopen := openFile_run m name
  simp only [hvalid, hs, hb, Bool.true_eq_false, if_false, reduceCtorEq] at hopen
  refine ⟨files, hopen, ht.opened hs hb, Volume.resolve_eq_ok_iff.mpr ⟨?_, hs⟩⟩
  rw [(OpenFiles.get?_of_bind hb).2, if_pos rfl]

/-- Why a file cannot be opened. -/
theorem FileSystem.openFile_of_slotOf_error {name : String} {e : VolumeError}
    (h : slotOf m.volume name = .error e) : openFile name (ofMounted m) = .error e (ofMounted m) := by
  rw [openFile_run]
  unfold slotOf at h
  cases hv : validName name with
  | false =>
    rw [hv] at h
    cases h
    rfl
  | true =>
    rw [hv] at h
    cases hs : m.volume.root.find? name with
    | none =>
      rw [hs] at h
      cases h
      rfl
    | some slot =>
      rw [hs] at h
      cases h

theorem find?_of_slotOf {name : String} {slot : Slot} (h : slotOf m.volume name = .ok slot) :
    m.volume.root.find? name = some slot := by
  unfold slotOf at h
  split at h
  · cases h
  · split at h <;> cases h
    assumption

/-- The size of a file that is open. -/
theorem FileSystem.stat_of_resolve {fd : Nat} {f : OpenFile} {slot : Slot}
    (hr : m.volume.resolve fd = .ok (f, slot)) :
    stat fd (ofMounted m) = .ok (m.volume.root.get slot).size (ofMounted m) := by
  unfold stat
  rw [query_run, hr]
  rfl

/-- Closing a descriptor that is open. -/
theorem FileSystem.exists_close (ht : m.volume.Tidy) {fd : Nat} {f : OpenFile}
    (hf : m.volume.files.get? fd = some f) :
    ∃ files, close fd (ofMounted m) = .ok () (ofMounted ⟨{ m.volume with files }, m.world⟩) ∧
      Volume.Tidy { m.volume with files } := by
  have hrelease : m.volume.files.release fd = .ok ⟨m.volume.files.slots.setIfInBounds fd none⟩ := by
    rw [OpenFiles.release, hf]
  have hclose := close_run m fd
  rw [hrelease] at hclose
  exact ⟨_, hclose, ht.closed hrelease⟩

end Steps

variable {path : String} {h h' h'' : Host} {v : Volume Image} {m : Mounted Host Image}

/-- **Reading from a file that is open** gives its bytes and leaves the image alone. -/
theorem Aboard.exists_read (ha : Aboard path m) {fd : Nat} {f : OpenFile} {slot : Slot}
    (hr : m.volume.resolve fd = .ok (f, slot)) (count : Nat) :
    ∃ files w, FileSystem.read fd count (ofMounted m) =
        .ok ((m.bytesOf (m.volume.root.get slot)).extract f.offset (f.offset + count))
          (ofMounted ⟨{ m.volume with files }, w⟩) ∧
      Volume.Tidy { m.volume with files } ∧ (∃ f', files.get? fd = some f') ∧
      Untouched path m.volume m.world w := by
  obtain ⟨own, hi⟩ := ha.anchored.intact
  obtain ⟨hok, herr⟩ := ends_iff.mp (((Mounted.read_fetches ha.faithful hi hr count).and
    (Mounted.read_gives hi fd count)))
  have hrun := FileSystem.onVolume_run (Mounted.read fd count) m
  cases hread : Mounted.read fd count m with
  | error e m₁ => exact absurd (herr e m₁ hread).1 not_false
  | ok bytes m₁ =>
    rw [hread] at hrun
    obtain ⟨⟨-, hi₁, hfetched⟩, f', slot', hr', hbytes⟩ := hok bytes m₁ hread
    cases hr.symm.trans hr'
    obtain ⟨hget, -⟩ := Volume.resolve_eq_ok_iff.mp (hfetched.resolve_eq hr)
    have hvol := hfetched.volume_eq
    have hst := hfetched.storage_eq
    obtain ⟨v₁, w⟩ := m₁
    cases hvol
    refine ⟨_, w, ?_, hi₁.toTidy, ⟨_, hget⟩, ?_, hst⟩
    · rw [← hbytes]
      exact hrun
    · have halike := Image.alike_of_ok hrun (FileSystem.onVolume_mirrors (read_mirrors fd count))
      exact (Image.open?_of_alike halike path).trans ha.opened

/-! ## 4. Commands that look -/

/-- **The image holds the volume still,** and its files hold what they held. -/
structure Preserved (path : String) (v : Volume Image) (h h' : Host) : Prop where
  holds : Holds path v h'
  bytes_eq : ∀ e, bytesOf ⟨v, h'⟩ e = bytesOf ⟨v, h⟩ e

theorem Holds.preserved (hv : Holds path v h) : Preserved path v h h := ⟨hv, fun _ => rfl⟩

theorem Preserved.trans (h₁ : Preserved path v h h') (h₂ : Preserved path v h' h'') :
    Preserved path v h h'' := ⟨h₂.holds, fun e => (h₂.bytes_eq e).trans (h₁.bytes_eq e)⟩

theorem Holds.preserved_of_untouched (hv : Holds path v h) (hu : Untouched path v h h') :
    Preserved path v h h' := ⟨hv.untouched hu, hu.bytesOf_eq⟩

/-- With other descriptors, before it is unmounted. -/
theorem Holds.aboard (hv : Holds path v h) {files : OpenFiles}
    (ht : Volume.Tidy { v with files }) {w : Host} (hu : Untouched path v h w) :
    Aboard path ⟨{ v with files }, w⟩ := by
  obtain ⟨own, hi⟩ := hv.anchored.intact
  exact (hv.untouched hu).toAboard.of_memory rfl rfl ⟨own, ht, hi.allotment, hi.length_eq⟩

/-- **At the end of a command** that has changed nothing but descriptors. -/
theorem Holds.exists_unmount (hv : Holds path v h) {files : OpenFiles}
    (ht : Volume.Tidy { v with files }) {w : Host} (hu : Untouched path v h w) :
    ∃ h', FileSystem.unmount (ofMounted ⟨{ v with files }, w⟩) = .ok () (ofWorld h') ∧
      Preserved path v h h' := by
  obtain ⟨h', hun, hh, hb⟩ := (hv.aboard ht hu).exists_unmount
  have hvol : { v with files := OpenFiles.empty } = v := by
    obtain ⟨d, sb, t, r, f⟩ := v
    simp only [show f = OpenFiles.empty from hv.files_eq]
  dsimp only at hh hb
  rw [hvol] at hh hb
  exact ⟨h', hun, hh, fun e => (hb e).trans (hu.bytesOf_eq e)⟩

theorem Holds.tidy (hv : Holds path v h) : v.Tidy := hv.anchored.intact.choose_spec.toTidy

/-- **A command about a file that is not there** says so. -/
theorem CommandLine.perform_of_slotOf_error {c : Command} {name : String} {e : VolumeError}
    {w : Host} {rest : Nat → RunM Unit}
    (hm : FileSystem.mountImage path (ofWorld h) = .ok () (ofMounted ⟨v, w⟩))
    (hs : slotOf v name = .error e)
    (hc : execute c = (do mount path; let fd ← onFileSystem (FileSystem.openFile name); rest fd)) :
    perform c h = (refusal e, w) := by
  have hopen := FileSystem.openFile_of_slotOf_error (m := ⟨v, w⟩) hs
  have hfail : execute c ⟨ofWorld h, ByteArray.empty⟩ =
      .error (.ofVolumeError e) ⟨ofMounted ⟨v, w⟩, ByteArray.empty⟩ := by
    rw [hc, bind_of_ok (mount_of_ok hm)]
    exact bind_of_error (onFileSystem_of_error hopen)
  exact perform_of_error hfail

theorem Holds.info_run (hv : Holds path v h) :
    ∃ h', perform (.info path) h = (infoOutput v, h') ∧ Preserved path v h h' := by
  obtain ⟨w, hm, hu⟩ := hv.exists_mount
  obtain ⟨h', hun, hp⟩ := hv.exists_unmount hv.tidy hu
  have hinfo : FileSystem.info (ofMounted ⟨v, w⟩) = .ok v.info (ofMounted ⟨v, w⟩) := rfl
  refine ⟨h', perform_of_ok ?_, hp⟩
  rw [execute, bind_of_ok (mount_of_ok hm), bind_of_ok (onFileSystem_of_ok hinfo),
    bind_of_ok (printLine_run _), ByteArray.empty_append]
  exact onFileSystem_of_ok hun

theorem Holds.list_run (hv : Holds path v h) :
    ∃ h', perform (.list path) h = (listing v.root.files, h') ∧ Preserved path v h h' := by
  obtain ⟨w, hm, hu⟩ := hv.exists_mount
  obtain ⟨h', hun, hp⟩ := hv.exists_unmount hv.tidy hu
  have hlist : FileSystem.list (ofMounted ⟨v, w⟩) = .ok v.root.files (ofMounted ⟨v, w⟩) := rfl
  refine ⟨h', perform_of_ok ?_, hp⟩
  rw [execute, bind_of_ok (mount_of_ok hm), bind_of_ok (printLine_run _),
    bind_of_ok (onFileSystem_of_ok hlist), bind_of_ok (forIn_printLine_run _),
    ByteArray.empty_append]
  exact onFileSystem_of_ok hun

theorem Holds.stat_run (hv : Holds path v h) (name : String) :
    ∃ h', perform (.stat path name) h = (fileOutput v name (sizeLine name), h') ∧
      Preserved path v h h' := by
  obtain ⟨w, hm, hu⟩ := hv.exists_mount
  unfold fileOutput
  cases hs : slotOf v name with
  | error e =>
    exact ⟨w, perform_of_slotOf_error hm hs rfl, hv.preserved_of_untouched hu⟩
  | ok slot =>
    obtain ⟨files, hopen, ht, hr⟩ := FileSystem.exists_openFile (m := ⟨v, w⟩) hv.tidy hv.files_eq
      (find?_of_slotOf (m := ⟨v, w⟩) hs)
    obtain ⟨files', hclose, ht'⟩ := FileSystem.exists_close (m := ⟨{ v with files }, w⟩) ht
      (Volume.resolve_eq_ok_iff.mp hr).1
    obtain ⟨h', hun, hp⟩ := hv.exists_unmount ht' hu
    have hstat := FileSystem.stat_of_resolve (m := ⟨{ v with files }, w⟩) hr
    refine ⟨h', perform_of_ok ?_, hp⟩
    rw [execute, bind_of_ok (mount_of_ok hm), bind_of_ok (onFileSystem_of_ok hopen),
      bind_of_ok (onFileSystem_of_ok hstat), bind_of_ok (printLine_run _),
      bind_of_ok (onFileSystem_of_ok hclose), ByteArray.empty_append]
    exact onFileSystem_of_ok hun

theorem Holds.cat_run (hv : Holds path v h) (name : String) :
    ∃ h', perform (.cat path name) h = (fileOutput v name (bytesOf ⟨v, h⟩), h') ∧
      Preserved path v h h' := by
  obtain ⟨w, hm, hu⟩ := hv.exists_mount
  unfold fileOutput
  cases hs : slotOf v name with
  | error e =>
    exact ⟨w, perform_of_slotOf_error hm hs rfl, hv.preserved_of_untouched hu⟩
  | ok slot =>
    obtain ⟨files, hopen, ht, hr⟩ := FileSystem.exists_openFile (m := ⟨v, w⟩) hv.tidy hv.files_eq
      (find?_of_slotOf (m := ⟨v, w⟩) hs)
    have hstat := FileSystem.stat_of_resolve (m := ⟨{ v with files }, w⟩) hr
    obtain ⟨files₁, w₁, hread, ht₁, ⟨f, hf⟩, hu₁⟩ :=
      (hv.aboard ht hu).exists_read hr (v.root.get slot).size
    obtain ⟨files₂, hclose, ht₂⟩ :=
      FileSystem.exists_close (m := ⟨{ v with files := files₁ }, w₁⟩) ht₁ hf
    obtain ⟨h', hun, hp⟩ := hv.exists_unmount ht₂ (hu.trans ⟨hu₁.opened, hu₁.storage_eq⟩)
    -- the whole file is read
    have hbytes : (bytesOf ⟨{ v with files }, w⟩ (v.root.get slot)).extract 0
        (0 + (v.root.get slot).size) = bytesOf ⟨v, h⟩ (v.root.get slot) := by
      have hsize : (bytesOf ⟨{ v with files }, w⟩ (v.root.get slot)).size =
        (v.root.get slot).size := size_bytesOf _ _
      rw [Nat.zero_add, ← hsize, ByteArray.extract_zero_size]
      exact hu.bytesOf_eq _
    dsimp only at hread
    rw [hbytes] at hread
    refine ⟨h', perform_of_ok ?_, hp⟩
    rw [execute, bind_of_ok (mount_of_ok hm), bind_of_ok (onFileSystem_of_ok hopen),
      bind_of_ok (onFileSystem_of_ok hstat), bind_of_ok (onFileSystem_of_ok hread),
      bind_of_ok (printBytes_run _), bind_of_ok (onFileSystem_of_ok hclose), ByteArray.empty_append]
    exact onFileSystem_of_ok hun

/-- The commands that only look at an image. -/
inductive Command.Looks (path : String) : Command → Prop where
  | info : Looks path (.info path)
  | list : Looks path (.list path)
  | stat (name : String) : Looks path (.stat path name)
  | cat (name : String) : Looks path (.cat path name)

/-- **Each of them can be given,** whatever the path and the name look like. -/
theorem Command.Looks.exists_args {c : Command} (hc : c.Looks path) (hp : path ≠ "") :
    ∃ args, Command.parse? args = some c := by
  have hpath : Command.path? path = some path := if_neg hp
  cases hc with
  | info =>
    exact ⟨["info", "--", path], by
      simp only [Command.parse?, Command.image?, Arguments.sort?, hpath, Option.map_some]⟩
  | list =>
    exact ⟨["ls", "--", path], by
      simp only [Command.parse?, Command.image?, Arguments.sort?, hpath, Option.map_some]⟩
  | stat name =>
    exact ⟨["stat", "--", path, name], by
      simp only [Command.parse?, Command.imageAndName?, Arguments.sort?, hpath, Option.map_some]⟩
  | cat name =>
    exact ⟨["cat", "--", path, name], by
      simp only [Command.parse?, Command.imageAndName?, Arguments.sort?, hpath, Option.map_some]⟩

/-- **From `h` to `h'` the image was only looked at,** any number of times. -/
inductive Looked (path : String) (h : Host) : Host → Prop where
  | refl : Looked path h h
  | step {h' : Host} {args : List String} {c : Command} (hl : Looked path h h')
      (ha : Command.parse? args = some c) (hc : c.Looks path) : Looked path h (run args h').2

/-- Looking at an image once preserves the volume. -/
theorem Holds.preserved_by_look (hv : Holds path v h) {c : Command} (hc : c.Looks path) :
    Preserved path v h (perform c h).2 := by
  cases hc with
  | info =>
    obtain ⟨_, hrun, hp⟩ := hv.info_run
    exact hrun ▸ hp
  | list =>
    obtain ⟨_, hrun, hp⟩ := hv.list_run
    exact hrun ▸ hp
  | stat name =>
    obtain ⟨_, hrun, hp⟩ := hv.stat_run name
    exact hrun ▸ hp
  | cat name =>
    obtain ⟨_, hrun, hp⟩ := hv.cat_run name
    exact hrun ▸ hp

/-- **Looking at an image** preserves the volume. -/
theorem Holds.looked (hv : Holds path v h) (hl : Looked path h h') : Preserved path v h h' := by
  induction hl with
  | refl => exact hv.preserved
  | step _ ha hc ih =>
    rw [run_of_parse? ha]
    exact ih.trans (ih.holds.preserved_by_look hc)

/-! ## 5. What is shown -/

/-- **Whichever arguments give the command,** it prints `o`: on `h`, and when the image was looked at
    in the meantime. -/
def Prints (path : String) (c : Command) (h : Host) (o : Output) : Prop :=
  ∀ h', Looked path h h' → ∀ args, Command.parse? args = some c → (run args h').1 = o

/-- **The command prints the same** on both hosts, also when the image was looked at in the
    meantime. -/
def PrintsSame (path : String) (c : Command) (before after : Host) : Prop :=
  ∀ h', Looked path after h' → ∀ args, Command.parse? args = some c →
    (run args h').1 = (run args before).1

theorem Prints.same {c : Command} {o : Output} (h₁ : Prints path c h o) (h₂ : Prints path c h' o) :
    PrintsSame path c h h' := fun h'' hl args ha =>
  (h₂ h'' hl args ha).trans (h₁ h .refl args ha).symm

/-- What a command prints of any host on which the volume is preserved. -/
theorem Holds.prints (hv : Holds path v h) {c : Command} {o : Output}
    (hrun : ∀ {h'}, Preserved path v h h' → ∃ h'', perform c h' = (o, h'') ∧ Preserved path v h' h'') :
    Prints path c h o := by
  intro h' hl args ha
  obtain ⟨_, hperform, -⟩ := hrun (hv.looked hl)
  rw [run_of_parse? ha, hperform]

theorem Holds.prints_info (hv : Holds path v h) : Prints path (.info path) h (infoOutput v) :=
  hv.prints fun hp => hp.holds.info_run

theorem Holds.prints_list (hv : Holds path v h) :
    Prints path (.list path) h (listing v.root.files) := hv.prints fun hp => hp.holds.list_run

theorem Holds.prints_cat (hv : Holds path v h) (name : String) :
    Prints path (.cat path name) h (fileOutput v name (bytesOf ⟨v, h⟩)) := by
  refine hv.prints fun hp => ?_
  rw [← funext hp.bytes_eq]
  exact hp.holds.cat_run name

end FlatVolume
