import FlatVolume.Proofs.Formatting
import FlatVolume.Proofs.Observation
import FlatVolume.Proofs.Persistence

/-!
# Volumes in image files

An image is opened by its path for every command anew. Calls on images change what files hold, but
never which files there are and how long they are, so a path that led to an image leads to it for
good. This file fixes

* `Lasting I` -- a property of worlds that no call of a device ends, and so no operation
  (`Lasting.kept`);
* `Host.Alike h h'` -- the same directories, files of the same length, and as much to spare;
* `Holds path v h` -- the image at `path` on the host `h` holds the volume `v`, and `Aboard path m` --
  `m` was mounted from there;
* `Holds.exists_mount` and `Aboard.exists_unmount` -- from the one to the other and back;
* `Image.exists_format` -- an image that was formatted holds the empty volume.
-/

namespace FlatVolume

open AllocationTable FlatVolume.Computation Mounted
open FileSystem (ofMounted ofWorld)

/-! ## 1. What lasts -/

section Lasting

variable {W H α : Type} [BlockDevice W H]

/-- **A property of worlds that no call of a device ends.** -/
structure Lasting (I : W → Prop) : Prop where
  read : ∀ (d : H) (i : Nat) (w : W), I w → I (stateAfter (BlockDevice.readBlock d i) w)
  write : ∀ (d : H) (i : Nat) (b : Block) (w : W),
    I w → I (stateAfter (BlockDevice.writeBlock d i b) w)
  sync : ∀ (d : H) (w : W), I w → I (stateAfter (BlockDevice.sync d) w)
  close : ∀ (d : H) (w : W), I w → I (stateAfter (BlockDevice.close d) w)

variable {I : W → Prop}

/-- A call on a world that has the property leads to one that has it. -/
def Lasting.within (x : EStateM DeviceError W α) (h : ∀ w, I w → I (stateAfter x w)) :
    EStateM DeviceError { w // I w } α := fun w =>
  match x w.val with
  | .ok a _ => .ok a ⟨stateAfter x w.val, h w.val w.property⟩
  | .error e _ => .error e ⟨stateAfter x w.val, h w.val w.property⟩

theorem Lasting.within_mirrors (x : EStateM DeviceError W α) (h : ∀ w, I w → I (stateAfter x w)) :
    Mirrors Subtype.val (within x h) x := by
  intro w
  unfold within
  cases hx : x w.val <;> simp only [mapState, stateAfter, hx]

/-- The worlds that have a lasting property. -/
def Lasting.World (_ : Lasting I) : Type := { w // I w }

/-- They are worlds of devices themselves. -/
instance (h : Lasting I) : BlockDevice h.World H where
  blockCount d w := BlockDevice.blockCount d w.val
  blockBytes d w := BlockDevice.blockBytes d w.val
  readBlock d i := Lasting.within (BlockDevice.readBlock d i) (h.read d i)
  writeBlock d i b := Lasting.within (BlockDevice.writeBlock d i b) (h.write d i b)
  sync d := Lasting.within (BlockDevice.sync d) (h.sync d)
  close d := Lasting.within (BlockDevice.close d) (h.close d)

/-- A world, whatever is known of it. -/
def Lasting.world (h : Lasting I) (w : h.World) : W := w.val

instance (h : Lasting I) : WorldView h.world where
  blockCount_eq _ _ := rfl
  blockBytes_eq _ _ := rfl
  read _ _ := Lasting.within_mirrors _ _
  write _ _ _ := Lasting.within_mirrors _ _
  sync _ := Lasting.within_mirrors _ _
  close _ := Lasting.within_mirrors _ _

/-- What is seen of a result is seen of some state. -/
theorem Computation.Mirrors.ends_seen {ε σ τ : Type} {q : σ → τ} {x : EStateM ε σ α} {y : EStateM ε τ α}
    (hxy : Mirrors q x y) (s : σ) :
    Ends y (q s) (fun _ t => ∃ s', q s' = t) fun _ t => ∃ s', q s' = t := by
  unfold Ends
  rw [hxy s]
  cases x s with
  | ok a s' => exact ⟨s', rfl⟩
  | error e s' => exact ⟨s', rfl⟩

/-- **What no call ends, no operation ends.** -/
theorem Lasting.kept (h : Lasting I) {x : FileSystemM h.World H α} {y : FileSystemM W H α}
    (hxy : Mirrors (FileSystem.via h.world) x y) {fs : FileSystem W H} (hI : I fs.world) :
    Ends y fs (fun _ fs' => I fs'.world) fun _ fs' => I fs'.world := by
  refine (hxy.ends_seen ⟨fs.mounted, ⟨fs.world, hI⟩⟩).mono ?_ ?_ <;>
  · rintro - - ⟨t, rfl⟩
    exact t.world.property

/-- The same without a file system. -/
theorem Lasting.kept_by_volume (h : Lasting I) {x : VolumeM h.World α} {y : VolumeM W α}
    (hxy : Mirrors h.world x y) {w : W} (hI : I w) : Ends y w (fun _ => I) fun _ => I := by
  refine (hxy.ends_seen ⟨w, hI⟩).mono ?_ ?_ <;>
  · rintro - - ⟨t, rfl⟩
    exact t.property

end Lasting

/-! ## 2. Hosts -/

/-- What is read of a file is as long as it is. -/
theorem HostFile.size_toBytes (f : HostFile) : f.toBytes.size = f.size := by
  have hsize : ∀ n, (Bytes.concat ((List.range n).map f.pieceBytes)).size =
      min f.size (n * blockSize) := by
    intro n
    induction n with
    | zero => rw [Nat.zero_mul, Nat.min_zero]; rfl
    | succ n ih =>
      have hpiece : (f.pieceBytes n).size = f.pieceLength n :=
        Block.size_slice _ (by rw [Nat.zero_add]; exact Nat.min_le_left ..)
      rw [List.range_succ, List.map_append, Bytes.concat, List.foldl_append]
      show (Bytes.concat _ ++ f.pieceBytes n).size = _
      rw [ByteArray.size_append, ih, hpiece, pieceLength, Nat.add_one_mul]
      omega
  rw [toBytes, hsize, Nat.min_eq_left (ceilDiv_mul_ge f.size)]

namespace Host

variable {h h' h'' : Host}

theorem node?_put_of_ne (h : Host) {p q : Place} (n : Node) (hq : q ≠ p) :
    (h.put p n).node? q = h.node? q := by
  have hlookup : ∀ l : List (Place × Node),
      (l.filter (·.1 != p)).lookup q = l.lookup q := by
    intro l
    induction l with
    | nil => rfl
    | cons x l ih =>
      obtain ⟨r, n'⟩ := x
      by_cases hr : r = p
      · have hqr : (q == r) = false := by simpa [hr] using hq
        rw [List.filter_cons_of_neg (by simpa using hr), List.lookup_cons, hqr, ih]
      · rw [List.filter_cons_of_pos (by simpa using hr), List.lookup_cons, List.lookup_cons, ih]
  have hne : (q == p) = false := by simpa using hq
  rw [put, node?, node?, List.lookup_cons, hne]
  exact hlookup h.nodes

/-- What can be seen of a place without looking into a file: that it is a directory, or how long the file
    is. -/
def outline? (h : Host) (p : Place) : Option (Option Nat) :=
  (h.node? p).map fun
    | .directory => none
    | .file f => some f.size

/-- **The same directories, and files of the same length,** on a host that has as much to spare. -/
structure Alike (h h' : Host) : Prop where
  workingDirectory_eq : h'.workingDirectory = h.workingDirectory
  allowance_eq : h'.allowance = h.allowance
  outline_eq : ∀ p, h'.outline? p = h.outline? p

theorem Alike.refl (h : Host) : Alike h h := ⟨rfl, rfl, fun _ => rfl⟩

theorem Alike.trans (h₁ : Alike h h') (h₂ : Alike h' h'') : Alike h h'' :=
  ⟨h₂.workingDirectory_eq.trans h₁.workingDirectory_eq, h₂.allowance_eq.trans h₁.allowance_eq,
    fun p => (h₂.outline_eq p).trans (h₁.outline_eq p)⟩

theorem node?_of_file? {p : Place} {f : HostFile} (hf : h.file? p = some f) :
    h.node? p = some (.file f) := by
  unfold file? at hf
  split at hf
  · cases hf
    assumption
  · cases hf

/-- A file that is replaced by one of its length. -/
theorem Alike.put {p : Place} {f f' : HostFile} (hf : h.file? p = some f) (hs : f'.size = f.size) :
    Alike h (h.put p (.file f')) := by
  refine ⟨rfl, rfl, fun q => ?_⟩
  rw [outline?, outline?]
  by_cases hq : q = p
  · rw [hq, node?_put_self, node?_of_file? hf]
    exact congrArg (fun n => some (some n)) hs
  · rw [node?_put_of_ne h _ hq]

theorem Alike.step_eq (ha : Alike h h') (p : Place) (component : String) :
    h'.step p component = h.step p component := by
  have hsome : ∀ q, (h'.node? q).isSome = (h.node? q).isSome := by
    intro q
    have hq := congrArg Option.isSome (ha.outline_eq q)
    rwa [outline?, outline?, Option.isSome_map, Option.isSome_map] at hq
  have hp := ha.outline_eq p
  unfold outline? at hp
  unfold step
  simp only [hsome]
  rcases hn : h.node? p with _ | _ | f <;> rcases hn' : h'.node? p with _ | _ | f' <;>
    simp only [hn, hn', Option.map_some, Option.map_none, reduceCtorEq, Option.some.injEq] at hp ⊢

/-- A path leads to the same place. -/
theorem Alike.resolve_eq (ha : Alike h h') (path : String) : h'.resolve path = h.resolve path := by
  have hstep : h'.absoluteStep = h.absoluteStep := by
    funext p component
    rw [absoluteStep, absoluteStep, ha.step_eq]
  unfold resolve parsePath
  rw [ha.workingDirectory_eq, hstep]

/-- The same put at the same place. -/
theorem Alike.put_congr (ha : Alike h h') (p : Place) (n : Node) :
    Alike (h.put p n) (h'.put p n) := by
  refine ⟨ha.workingDirectory_eq, ha.allowance_eq, fun q => ?_⟩
  by_cases hq : q = p
  · rw [hq, outline?, outline?, node?_put_self, node?_put_self]
  · have houtline := ha.outline_eq q
    rwa [outline?, outline?, node?_put_of_ne h' n hq, node?_put_of_ne h n hq]

/-- A file is read at the place its path leads to. -/
theorem Alike.readFile_eq (ha : Alike h h') {path : String} {p : Place} {f f' : HostFile}
    (hr : h.resolveFile path = .ok (p, f)) (hf : h'.node? p = some (.file f')) :
    h'.readFile path = .ok f'.toBytes := by
  have hstep : h'.step = h.step := funext fun p => funext fun component => ha.step_eq p component
  have hparse : h'.parseShortPath path = h.parseShortPath path := by
    unfold parseShortPath parsePath
    rw [ha.workingDirectory_eq]
  unfold readFile
  unfold resolveFile at hr ⊢
  rw [hparse, hstep]
  simp only [bind, Except.bind, pure, Except.pure] at hr ⊢
  rcases hs : h.parseShortPath path with e | s <;> simp only [hs, reduceCtorEq] at hr ⊢
  rcases hp : s.2.foldlM h.step s.1 with e | q <;> simp only [hp, reduceCtorEq] at hr ⊢
  rcases ho : h.openPlace q with e | f₁ <;> simp only [ho, reduceCtorEq] at hr
  cases hr
  rw [openPlace, hf]

end Host

namespace Image

/-- **No call on an image changes what can be seen** without looking into the files. -/
theorem lasting_alike (h₀ : Host) : Lasting (H := Image) (Host.Alike h₀) where
  read i b h hh := by
    show Host.Alike h₀ (stateAfter (i.readBlock b) h)
    rw [stateAfter]
    cases hr : i.readBlock b h with
    | ok block h' =>
      obtain ⟨-, -, rfl⟩ := readBlock_eq_ok hr
      exact hh
    | error e h' => exact readBlock_eq_error hr ▸ hh
  write i b block h hh := by
    show Host.Alike h₀ (stateAfter (i.writeBlock b block) h)
    rw [stateAfter, writeBlock]
    rcases i.checkRange b with e | u
    · exact hh
    · cases hf : h.file? i.place with
      | none => exact hh
      | some f => exact hh.trans (.put hf rfl)
  sync i h hh := by
    show Host.Alike h₀ (stateAfter i.sync h)
    rw [stateAfter, sync]
    cases hf : h.file? i.place with
    | none => exact hh
    | some f => exact hh.trans (.put hf rfl)
  close _ _ hh := hh

/-- **A path leads to the same image.** -/
theorem open?_of_alike {h h' : Host} (ha : Host.Alike h h') (path : String) :
    open? h' path = open? h path := by
  unfold open? Host.openPlace
  rw [ha.resolve_eq, ha.allowance_eq]
  cases h.resolve path with
  | error e => rfl
  | ok p =>
    have hp := ha.outline_eq p
    unfold Host.outline? at hp
    dsimp only
    rcases hn : h.node? p with _ | _ | f <;> rcases hn' : h'.node? p with _ | _ | f' <;>
      simp only [hn, hn', Option.map_some, Option.map_none, reduceCtorEq, Option.some.injEq] at hp ⊢
    rw [hp]

/-- What is put elsewhere is not in the image. -/
theorem storage_put_of_ne {i : Image} (h : Host) {p : Place} (n : Node) (hp : i.place ≠ p) :
    i.storage (h.put p n) = i.storage h := by
  unfold storage Host.file?
  rw [Host.node?_put_of_ne h n hp]

/-- **Operations on images change files within their length** and nothing else of the host. -/
theorem alike_ends {α : Type} {fs : FileSystem Host Image} {y : FileSystemM Host Image α}
    {x : FileSystemM (lasting_alike fs.world).World Image α}
    (hxy : Mirrors (FileSystem.via (lasting_alike fs.world).world) x y) :
    Ends y fs (fun _ fs' => Host.Alike fs.world fs'.world)
      fun _ fs' => Host.Alike fs.world fs'.world :=
  (lasting_alike fs.world).kept hxy (.refl _)

theorem alike_of_ok {α : Type} {fs fs' : FileSystem Host Image} {y : FileSystemM Host Image α} {a : α}
    (hy : y fs = .ok a fs') {x : FileSystemM (lasting_alike fs.world).World Image α}
    (hxy : Mirrors (FileSystem.via (lasting_alike fs.world).world) x y) :
    Host.Alike fs.world fs'.world :=
  (ends_iff.mp (alike_ends hxy)).1 a fs' hy

/-- **Calls on an image whose file is there do not fail.** -/
theorem neverFails_of_open? {h : Host} {path : String} {i : Image} (hi : open? h path = .ok i) :
    NeverFails i h := by
  obtain ⟨f₀, hf₀, -⟩ := file?_of_open? hi
  refine ⟨fun h => ∃ f, h.file? i.place = some f, ⟨?_, ?_, ?_, ?_⟩, f₀, hf₀⟩
  · intro h b hf hb
    obtain ⟨f, hf⟩ := hf
    have hb' : b < i.blockCount := hb
    exact ⟨f.piece b, h, by
      show i.readBlock b h = _
      simp only [readBlock, checkRange, if_pos hb', hf], f, hf⟩
  · intro h b block hf hb
    obtain ⟨f, hf⟩ := hf
    have hb' : b < i.blockCount := hb
    exact ⟨h.put i.place (.file (f.setPiece b block)), by
      show i.writeBlock b block h = _
      simp only [writeBlock, checkRange, if_pos hb', hf], _, file?_put_self ..⟩
  · intro h hf
    obtain ⟨f, hf⟩ := hf
    exact ⟨h.put i.place (.file f.settle), by
      show i.sync h = _
      simp only [sync, hf], _, file?_put_self ..⟩
  · exact fun hf => ⟨_, rfl, hf⟩

end Image

/-! ## 3. Mounted from an image -/

open LawfulBlockDevice (storage)

variable {path : String} {h h' : Host} {m m' : Mounted Host Image} {v : Volume Image}

/-- **Mounted from the image at `path`:** what is mounted is an intact volume, and the path leads to its
    image still. -/
structure Aboard (path : String) (m : Mounted Host Image) : Prop where
  opened : Image.open? m.world path = .ok m.volume.device
  anchored : Anchored m.volume.device m.volume m.world

theorem Aboard.neverFails (ha : Aboard path m) : m.NeverFails := Image.neverFails_of_open? ha.opened

/-- Nothing is wrong with what was mounted from an image. -/
theorem Aboard.faithful (ha : Aboard path m) : m.Faithful where
  intact := ha.anchored.intact
  inRange := ha.anchored.moored.inRange ha.anchored.intact.choose_spec.toTidy
  neverFails := ha.neverFails

/-- An operation leaves a volume aboard, as long as it stays mounted. -/
theorem Aboard.stepped (ha : Aboard path m) {own : Slot → List Link} (hi : m.volume.Intact own)
    (hs : Stepped m m' own) (hh : Host.Alike m.world m'.world) : Aboard path m' := by
  obtain ⟨slot, new, hr⟩ := hs.refiled
  have hstep := ha.anchored.stepped hi hs
  rw [← hr.device_eq] at hstep
  exact ⟨by rw [Image.open?_of_alike hh, ha.opened, hr.device_eq], hstep⟩

/-- A change in memory leaves a volume aboard. -/
theorem Aboard.of_memory (ha : Aboard path m) (hd : v.device = m.volume.device)
    (hsb : v.superblock = m.volume.superblock) (hi : v.IsIntact) : Aboard path ⟨v, m.world⟩ := by
  obtain ⟨-, -, hc, hw⟩ := ha.anchored
  refine ⟨?_, rfl, hi, ?_, ?_⟩
  · rw [hd]
    exact ha.opened
  · rw [hd, hsb]
    exact hc
  · rw [hd]
    exact hw

/-! ## 4. At rest in an image -/

/-- **The image at `path` on the host `h` holds the intact volume `v`.** No file of it is open. -/
structure Holds (path : String) (v : Volume Image) (h : Host) : Prop extends Aboard path ⟨v, h⟩ where
  table_eq : v.table = ofStorage v.superblock (storage v.device h)
  root_eq : Directory.decode ((storage v.device h).block v.superblock.directoryBlock.toNat) =
    .ok v.root
  files_eq : v.files = OpenFiles.empty

/-- The path leads to the image still, and it holds what it held. -/
structure Untouched (path : String) (v : Volume Image) (h h' : Host) : Prop where
  opened : Image.open? h' path = .ok v.device
  storage_eq : storage v.device h' = storage v.device h

theorem Untouched.trans {h'' : Host} (h₁ : Untouched path v h h') (h₂ : Untouched path v h' h'') :
    Untouched path v h h'' := ⟨h₂.opened, h₂.storage_eq.trans h₁.storage_eq⟩

theorem Holds.untouched (hv : Holds path v h) (hu : Untouched path v h h') : Holds path v h' := by
  obtain ⟨⟨-, -, hi, hc, hw⟩, ht, hr, hf⟩ := hv
  exact ⟨⟨hu.opened, rfl, hi, hu.storage_eq ▸ hc, hu.storage_eq ▸ hw⟩, hu.storage_eq ▸ ht,
    hu.storage_eq ▸ hr, hf⟩

/-- The files hold what they held. -/
theorem Untouched.bytesOf_eq (hu : Untouched path v h h') (e : Entry) :
    bytesOf ⟨v, h'⟩ e = bytesOf ⟨v, h⟩ e :=
  bytesOf_congr rfl rfl fun _ _ => congrArg (fun st : Storage => st.block _) hu.storage_eq

/-- **What an image holds can be mounted.** -/
theorem Holds.exists_mount (hv : Holds path v h) :
    ∃ w, FileSystem.mountImage path (ofWorld h) = .ok () (ofMounted ⟨v, w⟩) ∧
      Untouched path v h w := by
  obtain ⟨v', w, hl, hd, hc, ht, hr, hf, ha⟩ := (Volume.load_ends v.device h).exists_ok
    fun _ _ hfail => hfail.2 _ _ hv.anchored.carries hv.root_eq hv.neverFails
  -- block 0 says the layout, and the rest is read from where the layout says
  have hsb : v'.superblock = v.superblock :=
    hc.header_eq.symm.trans hv.anchored.carries.header_eq
  obtain rfl : v' = v := by
    rw [hsb] at ht hr
    rw [hv.root_eq] at hr
    obtain ⟨d', sb', t', r', f'⟩ := v'
    obtain ⟨d, sb, t, r, f⟩ := v
    cases hr
    simp only at hd hsb ht hf
    rw [hd, hsb, ht, hf, show t = _ from hv.table_eq, show f = _ from hv.files_eq]
  have hm := FileSystem.mount_of_load hl
  have halike : Host.Alike h w := Image.alike_of_ok hm (FileSystem.mount_mirrors v'.device)
  refine ⟨w, ?_, ?_, ha.storage_eq⟩
  · unfold FileSystem.mountImage
    rw [if_neg (by exact nofun), show Image.open? (ofWorld h : FileSystem Host Image).world path = _
      from hv.opened]
    exact hm
  · exact (Image.open?_of_alike halike path).trans hv.opened

/-- **What is aboard can be unmounted,** and the image holds it then. -/
theorem Aboard.exists_unmount (ha : Aboard path m) :
    ∃ w, FileSystem.unmount (ofMounted m) = .ok () (ofWorld w) ∧
      Holds path { m.volume with files := OpenFiles.empty } w ∧
      ∀ e, bytesOf ⟨{ m.volume with files := OpenFiles.empty }, w⟩ e = m.bytesOf e := by
  obtain ⟨v, h⟩ := m
  have hmounted : (ofMounted ⟨v, h⟩ : FileSystem Host Image).mounted = some v := rfl
  obtain ⟨w, hu, -⟩ :=
    FileSystem.exists_unmount hmounted ha.anchored.moored ha.neverFails
  obtain ⟨w₁, w₂, hflush, hclose, hw⟩ :=
    (ends_iff.mp (FileSystem.unmount_ends (⟨v, h⟩ : Mounted Host Image))).1 () _ hu
  cases hw
  obtain ⟨⟨-, ⟨own, hi⟩, hc, hwhole⟩, hflushed, hdata⟩ := ha.anchored.flushed hflush
  have hst : storage v.device w = storage v.device w₁ :=
    ((ends_iff.mp (closeDevice_ends v.device w₁)).1 () w hclose).storage_eq
  have halike : Host.Alike h w := Image.alike_of_ok hu FileSystem.unmount_mirrors
  rw [← hst] at hc hwhole hflushed hdata
  refine ⟨w, hu, ⟨⟨?_, rfl, ⟨own, hi.withoutFiles⟩, hc, hwhole⟩, ?_, ?_, rfl⟩, fun e => ?_⟩
  · exact (Image.open?_of_alike halike path).trans ha.opened
  · exact (ofStorage_eq_of_written hc.laidOut hi.size_eq hflushed.table_eq).symm
  · show Directory.decode ((storage v.device w).block v.superblock.directoryBlock.toNat) = .ok v.root
    rw [hflushed.root_eq]
    exact Directory.decode_encode hi.storable
  · exact bytesOf_congr rfl rfl fun b _ => hdata b

/-- **What is mounted from an image without a complaint** is what the image holds. -/
theorem FileSystem.exists_holds {fs₀ : FileSystem Host Image}
    (hm : mountImage path (ofWorld h) = .ok () fs₀) (hc : check fs₀ = .ok () fs₀) :
    ∃ v, fs₀.mounted = some v ∧ Holds path v h := by
  obtain ⟨i, hi, hm⟩ := mount_of_mountImage hm
  have hw : (storage i h).whole := Image.whole_of_open? hi
  obtain ⟨v, hl, hv⟩ := load_of_mount hm
  obtain ⟨rfl, hcarries, ht, hr, hf, -⟩ := (ends_iff.mp (Volume.load_ends i h)).1 v _ hl
  exact ⟨v, hv, ⟨hi, rfl, intact_of_check hm hc v hv, hcarries, hw⟩, ht, hr, hf⟩

/-! ## 5. Formatted images -/

/-- **An image of a size that there is a layout for** can be formatted, and holds the empty volume then. -/
theorem Image.exists_format {i : Image} {sb : Superblock} (hi : open? h path = .ok i)
    (hfits : Superblock.forBlockCount? i.blockCount = some sb) : ∃ h',
      Volume.format i h = .ok sb h' ∧ Host.Alike h h' ∧ Holds path (Volume.blank i sb) h' := by
  have hcount : ∀ h : Host, (LawfulBlockDevice.storage i h).blockCount = i.blockCount :=
    fun h => LawfulBlockDevice.blockCount_eq i h
  have hbytes : (LawfulBlockDevice.storage i h).blockBytes = blockSize :=
    LawfulBlockDevice.blockBytes_eq i h
  obtain ⟨sb', h', hf⟩ := Volume.exists_format (whole_of_open? hi) hbytes
    (by rw [hcount, hfits]; rfl) (neverFails_of_open? hi)
  obtain ⟨hc, hflushed⟩ := Volume.blank_of_format (whole_of_open? hi) hf
  obtain rfl : sb' = sb := by
    have hfits' := hc.fits
    rw [hcount] at hfits'
    exact Option.some.inj (hfits'.symm.trans hfits)
  have halike : Host.Alike h h' := (ends_iff.mp
    ((lasting_alike h).kept_by_volume (Volume.format_mirrors i) (.refl h))).1 sb' h' hf
  have hopened := (open?_of_alike halike path).trans hi
  refine ⟨h', hf, halike,
    ⟨hopened, rfl, ⟨_, Volume.intact_blank hfits⟩, hc, whole_of_open? hopened⟩, ?_, ?_, rfl⟩
  · exact (ofStorage_eq_of_written hc.laidOut (size_empty _) hflushed.table_eq).symm
  · refine (congrArg Directory.decode hflushed.root_eq).trans ?_
    exact Directory.decode_encode fun s => .inl (Volume.get_empty s)

end FlatVolume
