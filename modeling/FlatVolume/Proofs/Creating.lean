import FlatVolume.Proofs.Images

/-!
# Images, created and opened

`Image.create` makes a file of zeros at a place where nothing stood. The walk that led there is
walked again when the image is opened, and a host that has more leads to the same place
(`Host.Grown`). What is found is an image of as many zero blocks as the length of the file says
(`Image.HoldsZeros`), if the host lets it be opened at all (`Host.Grants`): its place may be too deep
for an absolute path, and the file may be more than can be mapped. `Host.grants_of_short` gives paths
that are short enough.

The length is computed with 64 bits, and nobody looks whether it fits. `Image.create_sound_iff` says
which block counts are lost where it is wrapped, `Image.create_stopped` where the program stops.
-/

namespace FlatVolume

open FlatVolume.Computation

/-! ## 1. Walks on a host that has grown -/

/-- A sequence of two steps without a state succeeds when both do. -/
theorem Computation.except_bind_eq_ok_iff {ε α β : Type} {x : Except ε α} {f : α → Except ε β}
    {b : β} : (x >>= f) = .ok b ↔ ∃ a, x = .ok a ∧ f a = .ok b := by
  cases x with
  | error e => simp [bind, Except.bind]
  | ok a => simp [bind, Except.bind]

namespace Host

variable {h h' : Host}

/-- **A step** starts from a directory. It stays, leads up, or leads to something that stands below. -/
theorem step_eq_ok_iff {p q : Place} {component : String} :
    h.step p component = .ok q ↔ h.node? p = some .directory ∧
      if component = "" ∨ component = "." then q = p
      else if component = ".." then q = p.dropLast
      else childPlace p component = .ok q ∧ (h.node? q).isSome := by
  unfold step
  split
  · rename_i hp
    rw [hp, and_iff_right rfl]
    split_ifs
    · exact ⟨fun h => by cases h; rfl, fun h => by rw [h]⟩
    · exact ⟨fun h => by cases h; rfl, fun h => by rw [h]⟩
    · cases hc : childPlace p component with
      | error e => simp
      | ok child =>
        dsimp only
        split
        · rename_i hn
          simp only [Except.ok.injEq]
          exact ⟨fun h => ⟨h, h ▸ hn⟩, And.left⟩
        · rename_i hn
          simp only [reduceCtorEq, Except.ok.injEq, false_iff, not_and]
          exact fun h => h ▸ hn
  · rename_i hp
    simp [hp]
  · rename_i hp
    simp [hp]

/-- **Whatever stands on `h` stands on `h'`.** -/
structure Grown (h h' : Host) : Prop where
  workingDirectory_eq : h'.workingDirectory = h.workingDirectory
  node?_eq : ∀ {p : Place} {n : Node}, h.node? p = some n → h'.node? p = some n

theorem Grown.refl (h : Host) : Grown h h := ⟨rfl, id⟩

/-- Something put where nothing stood. -/
theorem Grown.put (hg : Grown h h') {p : Place} (hp : h.node? p = none) (n : Node) :
    Grown h (h'.put p n) := by
  refine ⟨hg.workingDirectory_eq, fun {q m} hq => ?_⟩
  have hne : q ≠ p := fun heq => by
    rw [heq, hp] at hq
    cases hq
  rw [node?_put_of_ne h' n hne]
  exact hg.node?_eq hq

/-- A step that can be made can still be made, and leads to the same place. -/
theorem Grown.step_eq (hg : Grown h h') {p q : Place} {component : String}
    (hs : h.step p component = .ok q) : h'.step p component = .ok q := by
  obtain ⟨hp, hq⟩ := step_eq_ok_iff.mp hs
  refine step_eq_ok_iff.mpr ⟨hg.node?_eq hp, ?_⟩
  split_ifs at hq ⊢
  · exact hq
  · exact hq
  · obtain ⟨hc, hn⟩ := hq
    obtain ⟨n, hn⟩ := Option.isSome_iff_exists.mp hn
    exact ⟨hc, by rw [hg.node?_eq hn]; rfl⟩

/-- A walk leads to the same place. -/
theorem Grown.walk_eq (hg : Grown h h') {components : List String} {p q : Place}
    (hw : components.foldlM h.step p = .ok q) : components.foldlM h'.step p = .ok q := by
  induction components generalizing p with
  | nil => exact hw
  | cons c cs ih =>
    rw [List.foldlM_cons] at hw ⊢
    obtain ⟨r, hs, hrest⟩ := except_bind_eq_ok_iff.mp hw
    exact except_bind_eq_ok_iff.mpr ⟨r, hg.step_eq hs, ih hrest⟩

/-! ## 2. The place of a new file -/

/-- What is left when slashes at the end of a path are dropped does not end in a slash. -/
theorem getLast?_trimmed_ne {components : List String} {name : String}
    (hn : (components.reverse.dropWhile (· == "")).reverse.getLast? = some name) : name ≠ "" := by
  rw [List.getLast?_reverse] at hn
  have := List.head?_dropWhile_not (· == "") components.reverse
  rw [hn] at this
  simpa using this

/-- A path that is short enough is read like any other. -/
theorem parsePath_of_short {path : String} {parsed : Place × List String}
    (hs : h.parseShortPath path = .ok parsed) : h.parsePath path = .ok parsed := by
  unfold parseShortPath at hs
  obtain ⟨parsed', hparse, hs⟩ := except_bind_eq_ok_iff.mp hs
  split at hs <;> cases hs
  exact hparse

/-- The directory and the name of a path without slashes at its end. -/
theorem resolveParent_eq_ok {path name : String} {parent : Place}
    (hr : h.resolveParent path = .ok (parent, some name, false)) : ∃ start front,
      h.parseShortPath path = .ok (start, front ++ [name]) ∧
        front.foldlM h.step start = .ok parent ∧
        h.node? parent = some .directory ∧ name ≠ "" ∧ name ≠ "." ∧ name ≠ ".." := by
  unfold resolveParent at hr
  obtain ⟨⟨start, components⟩, hparse, hr⟩ := except_bind_eq_ok_iff.mp hr
  obtain ⟨parent', hwalk, hr⟩ := except_bind_eq_ok_iff.mp hr
  have hlast := @getLast?_trimmed_ne components name
  have hprefix : (components.reverse.dropWhile (· == "")).reverse <+: components := by
    rw [← List.reverse_suffix, List.reverse_reverse]
    exact List.dropWhile_suffix _
  generalize (components.reverse.dropWhile (· == "")).reverse = trimmed at hwalk hr hlast hprefix
  split at hr
  · rename_i hdir
    simp only [pure, Except.pure, Except.ok.injEq, Prod.mk.injEq, Option.filter_eq_some_iff,
      bne_eq_false_iff_eq] at hr
    obtain ⟨rfl, ⟨hname, hdots⟩, hlen⟩ := hr
    obtain rfl := hprefix.eq_of_length hlen
    refine ⟨start, trimmed.dropLast, ?_, hwalk, hdir, hlast hname, by simpa using hdots⟩
    rw [List.dropLast_append_getLast? name hname, hparse]
  · cases hr
  · cases hr

/-- **A file is created where nothing stood,** in a directory its path leads to. -/
theorem createFile_eq_ok {path : String} {p : Place} (hc : h.createFile path = .ok (p, h')) :
    h.node? p = none ∧ h' = h.put p (.file (HostFile.zeros 0)) ∧
      ∃ start front name parent, h.parseShortPath path = .ok (start, front ++ [name]) ∧
        front.foldlM h.step start = .ok parent ∧ h.node? parent = some .directory ∧
        (name ≠ "" ∧ name ≠ "." ∧ name ≠ "..") ∧ childPlace parent name = .ok p := by
  unfold createFile at hc
  obtain ⟨⟨parent, name?, slashes⟩, hr, hc⟩ := except_bind_eq_ok_iff.mp hc
  cases name? with
  | none => cases hc
  | some name =>
    cases slashes with
    | true => cases hc
    | false =>
      obtain ⟨child, hchild, hc⟩ := except_bind_eq_ok_iff.mp hc
      dsimp only at hc
      split at hc
      · cases hc
      · rename_i hfree
        cases hc
        obtain ⟨start, front, hparse, hwalk, hdir, hname⟩ := resolveParent_eq_ok hr
        exact ⟨by simpa using hfree, rfl, start, front, name, parent, hparse, hwalk, hdir, hname,
          hchild⟩

/-- The path of a file that was created leads to it. -/
theorem Grown.resolveFile_created {h₁ : Host} {path : String} {p : Place} {f : HostFile}
    (hc : h.createFile path = .ok (p, h₁)) (hg : Grown h h') (hn : h'.node? p = some (.file f)) :
    h'.resolveFile path = .ok (p, f) := by
  obtain ⟨-, -, start, front, name, parent, hparse, hwalk, hdir, ⟨hempty, hdot, hdots⟩, hchild⟩ :=
    createFile_eq_ok hc
  have hparse' : h'.parseShortPath path = .ok (start, front ++ [name]) := by
    rw [← hparse, parseShortPath, parseShortPath, parsePath, parsePath, hg.workingDirectory_eq]
  have hlast : h'.step parent name = .ok p := by
    refine step_eq_ok_iff.mpr ⟨hg.node?_eq hdir, ?_⟩
    rw [if_neg (not_or.mpr ⟨hempty, hdot⟩), if_neg hdots]
    exact ⟨hchild, by rw [hn]; rfl⟩
  have hwalk' : (front ++ [name]).foldlM h'.step start = .ok p := by
    rw [List.foldlM_append]
    refine except_bind_eq_ok_iff.mpr ⟨parent, hg.walk_eq hwalk, ?_⟩
    rw [List.foldlM_cons]
    exact except_bind_eq_ok_iff.mpr ⟨p, hlast, rfl⟩
  refine except_bind_eq_ok_iff.mpr ⟨_, hparse', except_bind_eq_ok_iff.mpr ⟨p, hwalk', ?_⟩⟩
  rw [openPlace, hn]
  rfl

/-! ## 3. The place of a file, made out by the program -/

/-- The program comes as far as the host, unless a place is too deep. -/
theorem absoluteStep_cases (h : Host) (p : Place) (component : String) :
    h.absoluteStep p component = h.step p component ∨
      h.absoluteStep p component = .error .nameTooLong := by
  unfold absoluteStep
  split_ifs
  · exact .inl rfl
  · exact .inr rfl
  · exact .inl rfl

/-- The same on a walk. -/
theorem absoluteWalk_cases {components : List String} {p q : Place}
    (hw : components.foldlM h.step p = .ok q) : components.foldlM h.absoluteStep p = .ok q ∨
      components.foldlM h.absoluteStep p = .error .nameTooLong := by
  induction components generalizing p with
  | nil => exact .inl hw
  | cons c cs ih =>
    rw [List.foldlM_cons] at hw
    obtain ⟨r, hs, hrest⟩ := except_bind_eq_ok_iff.mp hw
    rw [List.foldlM_cons]
    rcases h.absoluteStep_cases p c with heq | heq
    · rw [heq, hs]
      exact ih hrest
    · rw [heq]
      exact .inr rfl

/-- The walk to a file that the host finds. -/
theorem resolveFile_eq_ok {path : String} {p : Place} {f : HostFile}
    (hr : h.resolveFile path = .ok (p, f)) : ∃ start components,
      h.parsePath path = .ok (start, components) ∧ components.foldlM h.step start = .ok p ∧
        h.openPlace p = .ok f := by
  obtain ⟨⟨start, components⟩, hparse, hr⟩ := except_bind_eq_ok_iff.mp hr
  obtain ⟨q, hwalk, hr⟩ := except_bind_eq_ok_iff.mp hr
  obtain ⟨g, hopen, hr⟩ := except_bind_eq_ok_iff.mp hr
  cases hr
  exact ⟨start, components, parsePath_of_short hparse, hwalk, hopen⟩

/-- **A file that the host finds** is found by the program as well, unless a place on the way is too
    deep. -/
theorem resolve_of_resolveFile {path : String} {p : Place} {f : HostFile}
    (hr : h.resolveFile path = .ok (p, f)) :
    h.resolve path = .ok p ∨ h.resolve path = .error .nameTooLong := by
  obtain ⟨start, components, hparse, hwalk, -⟩ := resolveFile_eq_ok hr
  unfold resolve
  rw [hparse]
  exact absoluteWalk_cases hwalk

/-- **What the host has to grant** before a file of `size` bytes at `path` can be opened as an image: no
    place on the way is too deep for an absolute path, and so many bytes can be mapped. -/
structure Grants (h : Host) (path : String) (size : Nat) : Prop where
  reached : h.resolve path ≠ .error .nameTooLong
  mapped : h.allowance.mapping? size = none

theorem placeLength_append (p q : Place) : placeLength (p ++ q) = placeLength p + placeLength q := by
  induction p with
  | nil => rw [List.nil_append, placeLength, Nat.zero_add]
  | cons name p ih =>
    rw [List.cons_append, placeLength, placeLength, ih]
    omega

/-- A step goes no deeper than its component is long. -/
theorem placeLength_step {p q : Place} {component : String} (hs : h.step p component = .ok q) :
    placeLength q ≤ placeLength p + placeLength [component] := by
  have hq := (step_eq_ok_iff.mp hs).2
  split_ifs at hq
  · rw [hq]
    exact Nat.le_add_right ..
  · obtain ⟨rest, hrest⟩ := p.dropLast_prefix
    have hp := placeLength_append p.dropLast rest
    rw [hrest] at hp
    rw [hq]
    omega
  · have hchild := hq.1
    unfold childPlace at hchild
    split at hchild <;> cases hchild
    exact Nat.le_of_eq (placeLength_append ..)

/-- A walk that starts high enough for the length of its path comes nowhere too deep. -/
theorem absoluteWalk_of_short {components : List String} {p q : Place}
    (hw : components.foldlM h.step p = .ok q)
    (hlen : placeLength p + placeLength components ≤ longestPath) :
    components.foldlM h.absoluteStep p = .ok q := by
  -- What is gained in depth is gone from the components, so the sum of both never grows.
  induction components generalizing p with
  | nil => exact hw
  | cons c cs ih =>
    rw [List.foldlM_cons] at hw ⊢
    obtain ⟨r, hs, hrest⟩ := except_bind_eq_ok_iff.mp hw
    have hcons : placeLength (c :: cs) = placeLength [c] + placeLength cs :=
      placeLength_append [c] cs
    have hr := placeLength_step hs
    have hstep : h.absoluteStep p c = h.step p c := by
      have hc := placeLength_append p [c]
      unfold absoluteStep
      rw [if_neg (c := longestPath < _) (by omega), ite_self]
    refine except_bind_eq_ok_iff.mpr ⟨r, hstep.trans hs, ih hrest ?_⟩
    omega

/-- The pieces between the slashes are as long as the whole, with a slash before the first. -/
theorem placeLength_splitSlashes (cs : List Char) :
    placeLength ((Path.splitSlashes cs).map String.ofList) =
      1 + (String.ofList cs).utf8ByteSize := by
  induction cs with
  | nil => rfl
  | cons c cs ih =>
    obtain ⟨piece, pieces, hp⟩ := List.exists_cons_of_ne_nil (Path.splitSlashes_ne_nil cs)
    rw [hp, List.map_cons, placeLength] at ih
    rw [String.ofList_cons, String.utf8ByteSize_append, String.utf8ByteSize_singleton]
    by_cases hc : c = '/'
    · have hslash : '/'.utf8Size = 1 := rfl
      simp only [Path.splitSlashes, hc, if_true, hp, List.map_cons, placeLength, ih, hslash,
        String.ofList_nil, String.utf8ByteSize_empty]
    · simp only [Path.splitSlashes, hc, if_false, hp, List.map_cons, placeLength,
        String.ofList_cons, String.utf8ByteSize_append, String.utf8ByteSize_singleton]
      omega

theorem placeLength_components (path : String) :
    placeLength (Path.components path) = 1 + path.utf8ByteSize := by
  rw [Path.components, placeLength_splitSlashes, String.ofList_toList]

/-- **A file with a short path can be opened** if so many bytes can be mapped: the path may be as long as
    the working directory leaves room for. -/
theorem grants_of_short {path : String} {p : Place} {f : HostFile} {size : Nat}
    (hr : h.resolveFile path = .ok (p, f)) (hm : h.allowance.mapping? size = none)
    (hlen : placeLength h.workingDirectory + path.utf8ByteSize < longestPath) :
    h.Grants path size := by
  obtain ⟨start, components, hparse, hwalk, -⟩ := resolveFile_eq_ok hr
  obtain ⟨rfl, hstart⟩ : components = Path.components path ∧
      placeLength start ≤ placeLength h.workingDirectory := by
    unfold parsePath at hparse
    split_ifs at hparse <;> cases hparse
    · exact ⟨rfl, Nat.zero_le _⟩
    · exact ⟨rfl, Nat.le_refl _⟩
  have hresolve : h.resolve path = .ok p := by
    unfold resolve
    rw [hparse]
    refine absoluteWalk_of_short hwalk ?_
    rw [placeLength_components]
    omega
  exact ⟨by simp [hresolve], hm⟩

end Host

/-! ## 4. Images of zeros -/

namespace Image

variable {h h' : Host} {path : String} {n : Nat} {a : Arithmetic}

/-- The length in bytes that 64 bits cannot hold any more, in blocks. -/
def lengthPeriod : Nat := 4503599627370496

/-- **The length of an image** is right up to a multiple of what 64 bits cannot hold, and if products are
    checked then there is no such multiple. -/
theorem lengthFor?_eq_some_iff {size : Nat} : a.lengthFor? n = some size ↔
    size = n % lengthPeriod * blockSize ∧ (a = .checked → n < lengthPeriod) := by
  have hfits : n * blockSize < 18446744073709551616 ↔ n < lengthPeriod :=
    Nat.mul_lt_mul_right (a := blockSize) (c := lengthPeriod) (by decide)
  have hwraps : n * blockSize % 18446744073709551616 = n % lengthPeriod * blockSize :=
    Nat.mul_mod_mul_right blockSize n lengthPeriod
  cases a with
  | checked =>
    simp only [Arithmetic.lengthFor?, hfits, forall_const]
    split
    · rename_i hn
      rw [Nat.mod_eq_of_lt hn, Option.some.injEq, and_iff_left hn, eq_comm]
    · rename_i hn
      simp [hn]
  | wrapping =>
    simp only [Arithmetic.lengthFor?, hwraps, Option.some.injEq, reduceCtorEq, false_implies,
      and_true, eq_comm]

/-- **At `path` stands an image of exactly `n` blocks of zeros.** The file is that long and holds nothing
    else. It can be opened unless there is no block in it, as far as the host grants that, and then it has
    `n` blocks that read as zeros and no others. -/
structure HoldsZeros (path : String) (n : Nat) (h : Host) : Prop where
  file : ∃ p f, h.resolveFile path = .ok (p, f) ∧ f.size = n * blockSize ∧
    ∀ b, f.piece b = Block.zero
  opens_iff : (∃ i, open? h path = .ok i) ↔ 1 ≤ n ∧ h.Grants path (n * blockSize)
  blockCount_eq : ∀ i, open? h path = .ok i → i.blockCount = n
  read_eq : ∀ i, open? h path = .ok i → ∀ b < n, i.readBlock b h = .ok Block.zero h
  outOfRange : ∀ i, open? h path = .ok i → ∀ b, n ≤ b →
    i.readBlock b h = .error (.outOfRange b n) h ∧
      ∀ block, i.writeBlock b block h = .error (.outOfRange b n) h

/-- One file has one length. -/
theorem HoldsZeros.unique {m : Nat} (hn : HoldsZeros path n h) (hm : HoldsZeros path m h) :
    n = m := by
  obtain ⟨p, f, hf, hsize, -⟩ := hn.file
  obtain ⟨q, g, hg, hsize', -⟩ := hm.file
  cases hf.symm.trans hg
  exact Nat.eq_of_mul_eq_mul_right (by decide) (hsize.symm.trans hsize')

/-- A file of zeros is opened with its length, unless it is empty or the host does not grant it. -/
theorem open?_zeros_eq_ok_iff {p : Place} {i : Image}
    (hr : h.resolveFile path = .ok (p, HostFile.zeros (n * blockSize))) :
    open? h path = .ok i ↔
      1 ≤ n ∧ h.Grants path (n * blockSize) ∧ i = ⟨p, n * blockSize⟩ := by
  have hsize : (HostFile.zeros (n * blockSize)).size = n * blockSize := rfl
  have hwhole : n * blockSize = 0 ∨ n * blockSize % blockSize ≠ 0 ↔ n = 0 := by
    rw [Nat.mul_mod_left]
    simp [blockSize]
  obtain ⟨-, -, -, -, hopen⟩ := Host.resolveFile_eq_ok hr
  rcases Host.resolve_of_resolveFile hr with hp | hp
  · have hgrants : h.Grants path (n * blockSize) ↔ h.allowance.mapping? (n * blockSize) = none :=
      ⟨Host.Grants.mapped, fun hm => ⟨by simp [hp], hm⟩⟩
    unfold open?
    simp only [hp, hopen, hsize, hwhole, hgrants]
    split_ifs with hn
    · simp [hn]
    · cases hm : h.allowance.mapping? (n * blockSize) with
      | some e => simp
      | none => simp [Nat.one_le_iff_ne_zero, hn, eq_comm]
  · unfold open?
    simp only [hp, reduceCtorEq, false_iff, not_and]
    exact fun _ hg => absurd hp hg.reached

/-- **A file of zeros is an image of zeros.** -/
theorem holdsZeros_of_file {p : Place}
    (hr : h.resolveFile path = .ok (p, HostFile.zeros (n * blockSize))) : HoldsZeros path n h := by
  obtain ⟨-, -, -, -, hplace⟩ := Host.resolveFile_eq_ok hr
  have hfile := Host.file?_of_openPlace hplace
  have hopened : ∀ {i}, open? h path = .ok i → i = ⟨p, n * blockSize⟩ := fun hi =>
    ((open?_zeros_eq_ok_iff hr).mp hi).2.2
  have hcount : blockCount ⟨p, n * blockSize⟩ = n := Nat.mul_div_cancel n (by decide)
  refine ⟨⟨p, _, hr, rfl, fun b => rfl⟩, ?_, fun i hi => ?_, fun i hi b hb => ?_,
    fun i hi b hb => ?_⟩
  · simp only [open?_zeros_eq_ok_iff hr, exists_and_left, exists_eq, and_true]
  · obtain rfl := hopened hi
    exact hcount
  · obtain rfl := hopened hi
    simp only [readBlock, checkRange, hcount, if_pos hb, hfile]
    rfl
  · obtain rfl := hopened hi
    have hrange : checkRange ⟨p, n * blockSize⟩ b = .error (.outOfRange b n) := by
      rw [checkRange, hcount, if_neg (Nat.not_lt.mpr hb)]
    exact ⟨by rw [readBlock, hrange], fun block => by rw [writeBlock, hrange]⟩

/-! ## 5. Images that are created -/

/-- An image that is created is found as a file of zeros, of the length that was computed. -/
theorem resolveFile_of_create (hc : create a path n h = .ok () h') : ∃ p size,
    a.lengthFor? n = some size ∧ h'.resolveFile path = .ok (p, HostFile.zeros size) := by
  unfold create at hc
  split at hc
  · cases hc
  · rename_i p h₁ hfile
    obtain ⟨hfree, rfl, -⟩ := Host.createFile_eq_ok hfile
    split at hc
    · cases hc
    · rename_i size hlength
      split at hc <;> cases hc
      have hgrown := ((Host.Grown.refl h).put hfree (.file (HostFile.zeros 0))).put hfree
        (.file (HostFile.zeros size))
      exact ⟨p, size, hlength, hgrown.resolveFile_created hfile (Host.node?_put_self ..)⟩

/-- A creation that stops the program leaves the file that was made. -/
theorem resolveFile_of_stopped (hc : create a path n h = .error .stopped h') :
    a.lengthFor? n = none ∧ ∃ p, h'.resolveFile path = .ok (p, HostFile.zeros 0) := by
  unfold create at hc
  split at hc
  · cases hc
  · rename_i p h₁ hfile
    obtain ⟨hfree, rfl, -⟩ := Host.createFile_eq_ok hfile
    split at hc
    · rename_i hlength
      cases hc
      have hgrown := (Host.Grown.refl h).put hfree (.file (HostFile.zeros 0))
      exact ⟨hlength, p, hgrown.resolveFile_created hfile (Host.node?_put_self ..)⟩
    · split at hc <;> cases hc

/-- **An image that is created has the size asked for** exactly if 64 bits can hold that in bytes.
    Otherwise what was created is an image of zeros all the same, but whole periods of its block count
    are lost. Where products are checked, nothing is created then. -/
theorem create_sound_iff (hc : create a path n h = .ok () h') :
    (a = .checked → n < lengthPeriod) ∧ HoldsZeros path (n % lengthPeriod) h' ∧
      (HoldsZeros path n h' ↔ n < lengthPeriod) := by
  obtain ⟨p, size, hlength, hr⟩ := resolveFile_of_create hc
  obtain ⟨rfl, hchecked⟩ := lengthFor?_eq_some_iff.mp hlength
  have hzeros := holdsZeros_of_file hr
  refine ⟨hchecked, hzeros, fun hn => ?_, fun hn => ?_⟩
  · rw [hn.unique hzeros]
    exact Nat.mod_lt n (by decide)
  · rwa [Nat.mod_eq_of_lt hn] at hzeros

/-- One block more than 64 bits can hold in bytes: the image has one block, and can be opened. Where
    products are checked, the same call stops the program. -/
theorem create_sound_iff_wrapped : (∃ h',
    create .wrapping "disk.img" 4503599627370497 (Host.ofWorkingDirectory []) = .ok () h' ∧
      HoldsZeros "disk.img" 1 h' ∧ ¬ HoldsZeros "disk.img" 4503599627370497 h' ∧
      ∃ i, open? h' "disk.img" = .ok i) ∧
    ∃ h', create .checked "disk.img" 4503599627370497 (Host.ofWorkingDirectory []) =
      .error .stopped h' := by
  obtain ⟨h', hc, hplain, hdir⟩ : ∃ h',
      create .wrapping "disk.img" 4503599627370497 (Host.ofWorkingDirectory []) = .ok () h' ∧
        h'.allowance = .all ∧ h'.workingDirectory = [] := ⟨_, rfl, rfl, rfl⟩
  obtain ⟨-, hzeros, hsound⟩ := create_sound_iff hc
  obtain ⟨p, f, hr, -⟩ := hzeros.file
  have hgrants : h'.Grants "disk.img" (1 * blockSize) :=
    Host.grants_of_short hr (by rw [hplain]; rfl) (by rw [hdir]; decide)
  exact ⟨⟨h', hc, hzeros, fun hn => absurd (hsound.mp hn) (by decide),
    hzeros.opens_iff.mpr ⟨Nat.le_refl 1, hgrants⟩⟩, _, rfl⟩

/-- **A creation that stops the program** leaves an empty file. It does so only where products are
    checked, at the block counts that would be lost otherwise. -/
theorem create_stopped (hc : create a path n h = .error .stopped h') :
    a = .checked ∧ lengthPeriod ≤ n ∧ HoldsZeros path 0 h' := by
  obtain ⟨hlength, p, hr⟩ := resolveFile_of_stopped hc
  have hlost : ¬ (a = .checked → n < lengthPeriod) := fun hn => by
    rw [lengthFor?_eq_some_iff.mpr ⟨rfl, hn⟩] at hlength
    cases hlength
  obtain ⟨hchecked, hn⟩ := Classical.not_imp.mp hlost
  have hzeros : HoldsZeros path 0 h' := holdsZeros_of_file (by rwa [Nat.zero_mul])
  exact ⟨hchecked, Nat.le_of_not_lt hn, hzeros⟩

end Image

end FlatVolume
