import FlatVolume.Proofs.Operations
import FlatVolume.Proofs.Refiling

/-!
# One step on an intact volume

`Stepped m m' own` is what every operation does to an intact volume, as long as it stays mounted: it
replaces at most one file, leaves the volume tidy, and does not write to block 0
(`Operation.run_stepped`). None reports a corrupt chain. What becomes of the file is said for the
calls that follow its chain: `delete_ends_of_intact`, `truncate_ends_of_intact`,
`write_ends_of_intact`, `read_ends_of_intact`.
-/

namespace FlatVolume

open AllocationTable FlatVolume.Computation
open FileSystem (ofMounted Refused)

variable {W H : Type} [BlockDevice W H] [LawfulBlockDevice W H]

namespace Mounted

variable {m m' : Mounted W H} {own : Slot → List Link} {slot : Slot} {fd : Nat} {f : OpenFile}
  {new : List Link}

/-- **What an operation does to an intact volume.** -/
structure Stepped (m m' : Mounted W H) (own : Slot → List Link) : Prop where
  tidy : m'.volume.Tidy
  refiled : ∃ slot new, Volume.Refiled m.volume m'.volume slot (own slot) new
  touched : m.storage.whole → Touched (0 < ·) m.storage m'.storage

/-- Only descriptors and metadata blocks may have changed. -/
theorem Stepped.of_files (h : m.volume.Intact own) (files : OpenFiles) {w : W}
    (ht : Volume.Tidy { m.volume with files })
    (hs : m.storage.whole → Touched (0 < ·) m.storage (storage ⟨{ m.volume with files }, w⟩)) :
    Stepped m ⟨{ m.volume with files }, w⟩ own where
  tidy := ht
  refiled := ⟨⟨0, by decide⟩, _, .of_eq h _ rfl rfl rfl rfl⟩
  touched := hs

/-- Nothing was written. -/
theorem touched_of_storage_eq {w : W} {v : Volume H} (hd : v.device = m.volume.device)
    (hs : LawfulBlockDevice.storage m.volume.device w = m.storage) :
    m.storage.whole → Touched (0 < ·) m.storage (storage ⟨v, w⟩) := by
  have hst : storage ⟨v, w⟩ = m.storage := by
    unfold storage
    rw [hd]
    exact hs
  rw [hst]
  exact fun _ => .refl _ _

theorem Stepped.refl (h : m.volume.Intact own) : Stepped m m own :=
  .of_files h m.volume.files h.toTidy (touched_of_storage_eq rfl rfl)

end Mounted

open Mounted

/-! ## 1. Entering, removing and shortening -/

variable {m : Mounted W H} {own : Slot → List Link}

/-- A file entered in a free slot has no blocks yet. -/
theorem Volume.Intact.created_refiled {v : Volume H} (h : v.Intact own) {slot : Slot}
    (hs : v.root.freeSlot? = some slot) (name : String) :
    Refiled v { v with root := v.root.set slot (Entry.ofName name) } slot (own slot) [] := by
  rw [h.own_of_isFree (Directory.freeSlot?_eq_some_iff.mp hs).1]
  refine .of_set rfl rfl rfl (.refl _ _) .done ?_
  show 0 = ceilDiv 0 blockSize
  decide

/-- A file whose blocks were freed and whose slot was cleared. -/
theorem Volume.deleted_refiled (v : Volume H) (own : Slot → List Link) (slot : Slot) :
    Refiled v { v with table := v.table.freeAll (own slot), root := v.root.set slot Entry.free }
      slot (own slot) [] :=
  .of_set rfl rfl rfl (.of_freeAll _ _) .done rfl

/-- A file that keeps the first of its blocks. -/
theorem Volume.Intact.shortened_refiled {v : Volume H} (h : v.Intact own) {slot : Slot}
    {size : Nat} {first : Link} {t : AllocationTable} (name : String)
    (hle : size ≤ (v.root.get slot).size)
    (ht : Rechained v.table t (own slot) ((own slot).take (ceilDiv size blockSize)))
    (hc : Chain t first ((own slot).take (ceilDiv size blockSize))) :
    Refiled v { v with
      table := t
      root := v.root.set slot ⟨(v.root.get slot).name, size, first⟩
      files := v.files.clamp name size } slot (own slot)
      ((own slot).take (ceilDiv size blockSize)) := by
  refine .of_set rfl rfl rfl ht hc ?_
  rw [List.length_take, h.length_eq]
  exact Nat.min_eq_left (ceilDiv_mono hle)

omit [BlockDevice W H] [LawfulBlockDevice W H] in
/-- **Removing a file of an intact volume** frees its blocks, or is refused. -/
theorem FileSystem.delete_ends_of_intact (h : m.volume.Intact own) (name : String) :
    Ends (delete name) (ofMounted m)
      (fun _ fs => ∃ slot v, m.volume.root.find? name = some slot ∧ fs = ofMounted ⟨v, m.world⟩ ∧
        v.root.get slot = Entry.free ∧ Volume.Refiled m.volume v slot (own slot) [] ∧ v.Tidy)
      (Refused m) := by
  refine (delete_ends m name).mono ?_ ?_
  · intro _ fs hok
    rcases hok with ⟨slot, n, table, hs, ho, hc, rfl⟩
    have hchain := h.allotment.chain slot
    rw [hchain.freeChain_eq] at hc
    cases hc
    exact ⟨slot, _, hs, rfl, Directory.get_set_self _ _ _, Volume.deleted_refiled _ own slot,
      h.deleted hs ho (size_freeAll _ _)⟩
  · intro e fs herr
    rcases herr with hr | ⟨slot, table, hs, ho, hc, rfl⟩
    · exact hr
    · rw [(h.allotment.chain slot).freeChain_eq] at hc
      cases hc

namespace Mounted

omit [BlockDevice W H] [LawfulBlockDevice W H] in
/-- **Shortening a file of an intact volume** frees the blocks it no longer needs, or is refused. -/
theorem truncate_ends_of_intact (h : m.volume.Intact own) (fd size : Nat) :
    Ends (truncate fd size) m
      (fun _ m' => ∃ f slot v, m.volume.resolve fd = .ok (f, slot) ∧
        size ≤ (m.volume.root.get slot).size ∧ m' = ⟨v, m.world⟩ ∧ (v.root.get slot).size = size ∧
        Volume.Refiled m.volume v slot (own slot) ((own slot).take (ceilDiv size blockSize)) ∧
        v.Tidy)
      (fun e m' => m' = m ∧ ∀ b, e ≠ .corruptChain b) := by
  cases hr : m.volume.resolve fd with
  | error e =>
    have hrun : truncate fd size m = .error e m := by rw [truncate_run, hr]
    exact Ends.of_error hrun ⟨rfl, FileSystem.ne_corruptChain_of_resolve hr⟩
  | ok p =>
    obtain ⟨f, slot⟩ := p
    obtain ⟨hf, hs⟩ := Volume.resolve_eq_ok_iff.mp hr
    by_cases hsize : (m.volume.root.get slot).size < size
    · refine Ends.of_error (e := .offsetOutOfRange size (m.volume.root.get slot).size) ?_
        ⟨rfl, nofun⟩
      rw [truncate_run, hr]
      exact if_pos hsize
    · have hle := Nat.le_of_not_lt hsize
      obtain ⟨t, first, hrun, hrech, hchain⟩ := truncate_run_of_intact h hf hs hle
      refine Ends.of_ok hrun ⟨f, slot, _, rfl, hle, rfl, ?_,
        h.shortened_refiled f.name hle hrech hchain, h.shortened _ hs hle hrech.size_eq⟩
      show ((m.volume.root.set slot _).get slot).size = size
      rw [Directory.get_set_self]

/-! ## 2. Writing -/

/-- Of two sizes the larger one needs the more blocks. -/
theorem ceilDiv_max (a b : Nat) :
    ceilDiv (max a b) blockSize = max (ceilDiv a blockSize) (ceilDiv b blockSize) := by
  rcases Nat.le_total a b with h | h
  · rw [Nat.max_eq_right h, Nat.max_eq_right (ceilDiv_mono h)]
  · rw [Nat.max_eq_left h, Nat.max_eq_left (ceilDiv_mono h)]

section Written

variable {m' : Mounted W H} {slot : Slot} {fd offset k : Nat} {f : OpenFile} {new : List Link}
  {data : ByteArray}

/-- The size that a write leaves. -/
theorem Written.size_eq (hw : Written m m' fd slot (own slot) new offset data k) :
    (m'.volume.root.get slot).size = max (m.volume.root.get slot).size (offset + k) := by
  obtain ⟨n, hst, rfl⟩ := hw
  obtain ⟨first, hv⟩ := hst.volume_eq
  have hroot : (n.volume.root.get slot).size = (m.volume.root.get slot).size := by
    rw [hv]
    simp only [Directory.get_set_self]
  simp only [commit, Directory.get_set_self, hroot]

/-- **A write replaces its file,** whatever stopped it. -/
theorem Written.refiled (hw : Written m m' fd slot (own slot) new offset data k)
    (h : m.volume.Intact own) : Volume.Refiled m.volume m'.volume slot (own slot) new := by
  have hsize := hw.size_eq
  obtain ⟨n, hst, rfl⟩ := hw
  obtain ⟨first, hv⟩ := hst.volume_eq
  refine ⟨hst.device_eq, hst.superblock_eq, fun s hne => ?_, hst.rechained, ?_, ?_⟩
  · have hroot : n.volume.root.get s = m.volume.root.get s := by
      rw [hv]
      exact (Directory.get_set ..).trans (if_neg hne)
    simp only [commit, Directory.get_set, if_neg hne, hroot]
  · have hc := hst.chain
    simp only [commit, Directory.get_set_self]
    exact hc
  · rw [hsize, ceilDiv_max, hst.length_eq, h.length_eq]

theorem Written.tidy (hw : Written m m' fd slot (own slot) new offset data k)
    (h : m.volume.Intact own) (hf : m.volume.files.get? fd = some f)
    (hs : m.volume.root.find? f.name = some slot) : m'.volume.Tidy := by
  obtain ⟨n, hst, rfl⟩ := hw
  have hn : Regrown slot m n := ⟨hst.rechained.size_eq, hst.volume_eq⟩
  obtain ⟨first, hv⟩ := hst.volume_eq
  refine commit_tidy (hn.tidy h.toTidy (Directory.of_find? hs).1) (f := f) ?_ ?_
  · rw [hv]
    exact hf
  · rw [hv]
    exact (Directory.find?_set_of_name_eq (by rfl) _).trans hs

theorem Written.touched (hw : Written m m' fd slot (own slot) new offset data k)
    (h : m.volume.Intact own) : Touched (0 < ·) m.storage m'.storage := by
  obtain ⟨n, hst, rfl⟩ := hw
  obtain ⟨total, hl⟩ := h.layout
  have hlaid := Superblock.laidOut_of_forBlockCount? hl
  refine ⟨hst.shape, fun i hi => hst.frame i fun b hb he => hi ?_⟩
  have hlt := hst.chain.lt_size hb
  rw [hst.rechained.size_eq, h.size_eq] at hlt
  have := (hlaid.dataBlock_lt hlt).1
  rw [he]
  omega

end Written

/-- **Writing to a file of an intact volume,** however it ends: some bytes were written, or nothing
    is bound to the descriptor. -/
theorem write_ends_of_intact (h : m.volume.Intact own) (fd : Nat) (data : ByteArray) :
    Ends (write fd data) m
      (fun k m' => ∃ f slot new, m.volume.resolve fd = .ok (f, slot) ∧
        Written m m' fd slot (own slot) new f.offset data k ∧ Accepted m' f.offset data new k ∧
        (m.NeverFails → m'.NeverFails))
      (fun e m' => (m' = m ∧ m.volume.resolve fd = .error e) ∨
        ∃ f slot new k, m.volume.resolve fd = .ok (f, slot) ∧
          Written m m' fd slot (own slot) new f.offset data k ∧ k < data.size ∧
          Mounted.Refused m m' f.offset new k e) := by
  cases hr : m.volume.resolve fd with
  | error e => exact Ends.of_error (write_of_unresolved hr data) (.inl ⟨rfl, rfl⟩)
  | ok p =>
    obtain ⟨f, slot⟩ := p
    obtain ⟨hf, hs⟩ := Volume.resolve_eq_ok_iff.mp hr
    refine (write_ends h hf hs data).mono ?_ ?_
    · intro k m' hok
      rcases hok with ⟨new, hw, ha, hn⟩
      exact ⟨f, slot, new, rfl, hw, ha, hn⟩
    · intro e m' herr
      rcases herr with ⟨new, k, hw, hk, -, hrefused⟩
      exact .inr ⟨f, slot, new, k, rfl, hw, hk, hrefused⟩

theorem Refused.ne_corruptChain {m' : Mounted W H} {offset k : Nat} {new : List Link}
    {e : VolumeError} (h : Mounted.Refused m m' offset new k e) (b : Link) :
    e ≠ .corruptChain b := by
  rcases h with ⟨rfl, -⟩ | ⟨⟨b, c, rfl⟩, -⟩ <;> exact nofun

/-! ## 3. Reading -/

/-- **Reading from a file of an intact volume:** some bytes were read, or nothing has changed. -/
theorem read_ends_of_intact (h : m.volume.Intact own) (fd count : Nat) :
    Ends (read fd count) m
      (fun bytes m' => ∃ f slot k w, m.volume.resolve fd = .ok (f, slot) ∧
        k = min count ((m.volume.root.get slot).size - f.offset) ∧
        ReadFrom m.volume.superblock m.storage (own slot) f.offset k bytes ∧
        m' = ⟨{ m.volume with files := m.volume.files.moveTo fd (f.offset + k) }, w⟩ ∧
        Answered m.volume.device m.world w m.storage)
      (fun e m' => (m' = m ∧ m.volume.resolve fd = .error e) ∨ BlockFailed m e m') := by
  cases hr : m.volume.resolve fd with
  | error e => exact Ends.of_error (read_of_unresolved hr count) (.inl ⟨rfl, rfl⟩)
  | ok p =>
    obtain ⟨f, slot⟩ := p
    obtain ⟨hf, hs⟩ := Volume.resolve_eq_ok_iff.mp hr
    refine (read_ends h hf hs rfl).mono ?_ fun _ _ hb => .inr hb
    intro bytes m' hok
    rcases hok with ⟨hbytes, w, hm, ha⟩
    exact ⟨f, slot, _, w, rfl, rfl, hbytes, hm, ha⟩

/-! ## 4. Every call -/

/-- **What a call leaves of an intact volume:** what it was, other descriptors, a file cut short, or a
    file written to. A file that is entered or removed is cut to nothing. -/
inductive Effect (call : FileCall) (m : Mounted W H) (own : Slot → List Link) : Mounted W H → Prop where
  | none : Effect call m own m
  | files {files : OpenFiles} {w : W} (hcall : ∀ fd data, call ≠ .write fd data)
      (ht : Volume.Tidy { m.volume with files })
      (hst : LawfulBlockDevice.storage m.volume.device w = m.storage) :
      Effect call m own ⟨{ m.volume with files }, w⟩
  | shortened {v : Volume H} {slot : Slot} {size : Nat} (hcall : ∀ fd data, call ≠ .write fd data)
      (ht : v.Tidy) (hr : Volume.Refiled m.volume v slot (own slot)
        ((own slot).take (ceilDiv size blockSize)))
      (hsize : (v.root.get slot).size = size) (hle : size ≤ (m.volume.root.get slot).size) :
      Effect call m own ⟨v, m.world⟩
  | written {m' : Mounted W H} {fd k : Nat} {data : ByteArray} {f : OpenFile} {slot : Slot}
      {new : List Link} (hcall : call = .write fd data)
      (hr : m.volume.resolve fd = .ok (f, slot))
      (hw : Written m m' fd slot (own slot) new f.offset data k) (hk : k ≤ data.size) :
      Effect call m own m'

variable {call : FileCall}

/-- A call on a block that failed has done nothing. -/
theorem Effect.of_failed (h : m.volume.Intact own) {m' : Mounted W H} {e : VolumeError}
    (hf : BlockFailed m e m') (hcall : ∀ fd data, call ≠ .write fd data) :
    Effect call m own m' := by
  obtain ⟨v, w⟩ := m'
  obtain rfl : v = m.volume := hf.volume_eq
  exact .files hcall h.toTidy hf.storage_eq

theorem Effect.stepped {m' : Mounted W H} (h : m.volume.Intact own) (he : Effect call m own m') :
    Stepped m m' own := by
  cases he with
  | none => exact .refl h
  | files _ ht hst => exact .of_files h _ ht (touched_of_storage_eq rfl hst)
  | shortened _ ht hr _ _ => exact ⟨ht, ⟨_, _, hr⟩, touched_of_storage_eq hr.device_eq rfl⟩
  | written _ hr hw _ =>
    obtain ⟨hf, hs⟩ := Volume.resolve_eq_ok_iff.mp hr
    exact ⟨hw.tidy h hf hs, ⟨_, _, hw.refiled h⟩, fun _ => hw.touched h⟩

end Mounted

/-- **Every call on the files of an intact volume has one of these effects,** however it ends; and none
    reports a corrupt chain. -/
theorem FileCall.run_effect (call : FileCall) (h : m.volume.Intact own) :
    Ends call.run (ofMounted m) (fun _ fs => ∃ m', fs = ofMounted m' ∧ Effect call m own m')
      (fun e fs => (∃ m', fs = ofMounted m' ∧ Effect call m own m') ∧
        ∀ b, e ≠ .corruptChain b) := by
  have hsame : ∀ {call : FileCall} {fs : FileSystem W H}, fs = ofMounted m →
      ∃ m', fs = ofMounted m' ∧ Effect call m own m' := fun hm => ⟨m, hm, .none⟩
  have hrefused : ∀ {call : FileCall} e (fs : FileSystem W H), Refused m e fs →
      (∃ m', fs = ofMounted m' ∧ Effect call m own m') ∧ ∀ b, e ≠ .corruptChain b :=
    fun e fs hr => ⟨hsame hr.1, hr.2⟩
  cases call with
  | create name =>
    refine Ends.map ((FileSystem.create_ends m name).mono ?_ hrefused)
    intro _ fs hok
    rcases hok with ⟨slot, hv, hn, hs, rfl⟩
    refine ⟨_, rfl, .shortened nofun (h.created hv hn hs) (h.created_refiled hs name) ?_
      (Nat.zero_le _)⟩
    rw [Directory.get_set_self]
    rfl
  | delete name =>
    refine Ends.map ((FileSystem.delete_ends_of_intact h name).mono ?_ hrefused)
    intro _ fs hok
    rcases hok with ⟨slot, v, -, rfl, hfree, hr, ht⟩
    exact ⟨_, rfl, .shortened nofun ht hr (by rw [hfree]; rfl) (Nat.zero_le _)⟩
  | list =>
    have hlist := FileSystem.query_refused m (f := fun v => .ok v.root.files) fun _ he => by cases he
    exact Ends.map (hlist.mono (fun _ _ => hsame) hrefused)
  | openFile name =>
    refine Ends.map ((FileSystem.openFile_ends m name).mono ?_ hrefused)
    intro fd fs hok
    rcases hok with ⟨slot, files, hs, hb, rfl⟩
    exact ⟨_, rfl, .files nofun (h.opened hs hb) rfl⟩
  | close fd =>
    refine Ends.map ((FileSystem.close_ends m fd).mono ?_ hrefused)
    intro _ fs hok
    rcases hok with ⟨files, hr, rfl⟩
    exact ⟨_, rfl, .files nofun (h.closed hr) rfl⟩
  | stat fd => exact Ends.map ((FileSystem.stat_ends m fd).mono (fun _ _ => hsame) hrefused)
  | tell fd => exact Ends.map ((FileSystem.tell_ends m fd).mono (fun _ _ => hsame) hrefused)
  | seek fd offset =>
    refine Ends.map ((FileSystem.seek_ends m fd offset).mono ?_ hrefused)
    intro _ fs hok
    rcases hok with ⟨f, slot, hr, ho, rfl⟩
    obtain ⟨hf, hs⟩ := Volume.resolve_eq_ok_iff.mp hr
    exact ⟨_, rfl, .files nofun (h.moved hf hs ho) rfl⟩
  | read fd count =>
    refine Ends.map (FileSystem.onVolume_ends ((read_ends_of_intact h fd count).mono ?_ ?_))
    · intro bytes m' hok
      rcases hok with ⟨f, slot, k, w, hr, hk, -, rfl, ha⟩
      obtain ⟨hf, hs⟩ := Volume.resolve_eq_ok_iff.mp hr
      have ho := h.offset_le hr
      have hle : f.offset + k ≤ (m.volume.root.get slot).size := by omega
      exact ⟨_, rfl, .files nofun (h.moved hf hs hle) ha.storage_eq⟩
    · intro e m' herr
      rcases herr with ⟨rfl, hr⟩ | hfail
      · exact ⟨hsame rfl, FileSystem.ne_corruptChain_of_resolve hr⟩
      · obtain ⟨b, c, rfl⟩ := hfail.error_eq
        exact ⟨⟨m', rfl, .of_failed h hfail nofun⟩, nofun⟩
  | write fd data =>
    refine Ends.map (FileSystem.onVolume_ends ((write_ends_of_intact h fd data).mono ?_ ?_))
    · intro k m' hok
      rcases hok with ⟨f, slot, new, hr, hw, ha, -⟩
      refine ⟨m', rfl, .written rfl hr hw ?_⟩
      rcases ha with rfl | ⟨-, hlt, -⟩
      · exact Nat.le_refl _
      · exact Nat.le_of_lt hlt
    · intro e m' herr
      rcases herr with ⟨rfl, hr⟩ | ⟨f, slot, new, k, hr, hw, hlt, hrefused⟩
      · exact ⟨hsame rfl, FileSystem.ne_corruptChain_of_resolve hr⟩
      · exact ⟨⟨m', rfl, .written rfl hr hw (Nat.le_of_lt hlt)⟩, hrefused.ne_corruptChain⟩
  | truncate fd size =>
    refine Ends.map (FileSystem.onVolume_ends ((truncate_ends_of_intact h fd size).mono ?_ ?_))
    · intro _ m' hok
      rcases hok with ⟨f, slot, v, -, hle, rfl, hsize, hr, ht⟩
      exact ⟨_, rfl, .shortened nofun ht hr hsize hle⟩
    · intro e m' herr
      rcases herr with ⟨rfl, hne⟩
      exact ⟨hsame rfl, hne⟩

/-- **What every call on the files does to an intact volume,** however it ends; and none reports a
    corrupt chain. -/
theorem FileCall.run_stepped (call : FileCall) (h : m.volume.Intact own) :
    Ends call.run (ofMounted m) (fun _ fs => ∃ m', fs = ofMounted m' ∧ Stepped m m' own)
      (fun e fs => (∃ m', fs = ofMounted m' ∧ Stepped m m' own) ∧ ∀ b, e ≠ .corruptChain b) := by
  have hstep : ∀ fs : FileSystem W H, (∃ m', fs = ofMounted m' ∧ Effect call m own m') →
      ∃ m', fs = ofMounted m' ∧ Stepped m m' own :=
    fun fs ⟨m', hfs, he⟩ => ⟨m', hfs, he.stepped h⟩
  exact (call.run_effect h).mono (fun _ fs hok => hstep fs hok)
    fun _ fs herr => ⟨hstep fs herr.1, herr.2⟩

/-- **Unmounting an intact volume** lets go of it, or leaves it with what the flush has stored. -/
theorem FileSystem.unmount_ends_of_intact (h : m.volume.Intact own) :
    Ends unmount (ofMounted m) (fun _ fs => fs.mounted = none)
      (fun e fs => (fs.mounted = none ∨ ∃ m', fs = ofMounted m' ∧ Stepped m m' own) ∧
        ∀ b, e ≠ .corruptChain b) := by
  obtain ⟨n, hl⟩ := h.layout
  have hlaid := Superblock.laidOut_of_forBlockCount? hl
  refine (unmount_ends m).mono ?_ ?_
  · intro _ fs hok
    rcases hok with ⟨w, w', -, -, rfl⟩
    rfl
  · intro e fs herr
    rcases herr with ⟨w, c, hf, rfl, rfl⟩ | ⟨w, w', -, hc, rfl⟩
    · obtain ⟨cause, hcause⟩ := (ends_iff.mp (Volume.flush_fails m.volume m.world)).2 c w hf
      rw [hcause]
      refine ⟨.inr ⟨_, rfl, .of_files h m.volume.files h.toTidy fun hw => ?_⟩, nofun⟩
      have hflush := flush_ends m.volume.device hlaid m.volume.table m.volume.root hw
      exact ((ends_iff.mp hflush).2 c w hf).1.mono fun i hi => hi.1
    · obtain ⟨⟨cause, rfl⟩, -⟩ := (ends_iff.mp (closeDevice_ends m.volume.device w)).2 e w' hc
      exact ⟨.inl rfl, nofun⟩

/-- What the operation `op` on an intact volume leaves, if it leaves a volume. -/
theorem Operation.run_stepped (op : Operation) (h : m.volume.Intact own) :
    Ends op.run (ofMounted m) (fun _ fs => ∀ v, fs.mounted = some v → Stepped m ⟨v, fs.world⟩ own)
      (fun e fs => (∀ v, fs.mounted = some v → Stepped m ⟨v, fs.world⟩ own) ∧
        ∀ b, e ≠ .corruptChain b) := by
  have hmounted : ∀ {m' : Mounted W H}, Stepped m m' own →
      ∀ v, (ofMounted m').mounted = some v → Stepped m ⟨v, (ofMounted m').world⟩ own := by
    intro m' hs v hok
    rcases hok with ⟨⟩
    exact hs
  cases op with
  | file call =>
    refine Ends.map ((call.run_stepped h).mono ?_ ?_)
    · intro _ fs hok
      rcases hok with ⟨m', rfl, hs⟩
      exact hmounted hs
    · intro e fs herr
      rcases herr with ⟨⟨m', rfl, hs⟩, he⟩
      exact ⟨hmounted hs, he⟩
  | info =>
    refine Ends.map ((FileSystem.query_refused m fun _ he => by cases he).mono ?_ ?_)
    · intro _ fs hok
      subst hok
      exact hmounted (.refl h)
    · intro e fs herr
      rcases herr with ⟨rfl, he⟩
      exact ⟨hmounted (.refl h), he⟩
  | check =>
    have hc : m.volume.check = .ok () :=
      Volume.check_eq_ok_iff.mpr (h.toTidy.consistent_iff.mpr ⟨own, h⟩)
    refine (FileSystem.query_ends m _).mono ?_ ?_
    · intro _ fs hok
      rcases hok with ⟨-, rfl⟩
      exact hmounted (.refl h)
    · intro e fs herr
      rcases herr with ⟨he, -⟩
      rw [hc] at he
      cases he
  | unmount =>
    refine (FileSystem.unmount_ends_of_intact h).mono ?_ ?_
    · intro _ fs hn v hv
      rw [hn] at hv
      cases hv
    · intro e fs herr
      rcases herr with ⟨hn | ⟨m', rfl, hs⟩, he⟩
      · refine ⟨fun v hv => ?_, he⟩
        rw [hn] at hv
        cases hv
      · exact ⟨hmounted hs, he⟩

end FlatVolume
