import FlatVolume.Proofs.Landing
import FlatVolume.Proofs.Plans

/-!
# The calls of file operations

Of the calls on files only reading and writing ask anything of the device, and only blocks that hold
file data: every block number comes through `Volume.locate`, which lets data blocks of the table
through and not the reserved first one (`Volume.isFileBlock_of_locate`). This file fixes, for volumes
with any table and devices that answer anything,

* `Noted p r events` -- only calls of `p` were made, and one that failed is what `r` reports;
* `Account p N` -- what may be said of the calls of an access, put together call by call;
* `Footprint P m m'` -- device and layout stayed, and what was written down since satisfies `P`;
* `storeSegment_footprint`, `storeSegments_footprint` -- a write that has stored nothing has changed
  nothing in memory, the link to a new block included: it was set before the block was stored, and is
  taken back;
* `FileCall.run_footprint` -- the calls each operation makes, and that one that fails leaves memory as
  it was, unless it was partly done (`FileCall.PartlyDone`).
-/

namespace FlatVolume

open AllocationTable FlatVolume.Computation Mounted
open FileSystem (ofMounted)

variable {W H α β : Type}

/-! ## 1. Calls and their failures -/

/-- Only calls of `p` were made, and if one of them failed, that is what `r` reports. -/
def Noted (p : Call → Prop) (r : Option VolumeError) (events : List Event) : Prop :=
  ∀ ev ∈ events, p ev.call ∧ ∀ c, ev.failure = some c → r = some (ev.call.reported c)

/-- Some block was stored. -/
def Wrote (events : List Event) : Prop := ∃ i, ⟨.write i, none⟩ ∈ events

section Noted

variable {p q : Call → Prop} {r : Option VolumeError} {events events' : List Event}

theorem Noted.nil (p : Call → Prop) (r : Option VolumeError) : Noted p r [] := nofun

theorem Noted.append (h : Noted p none events) (h' : Noted p r events') :
    Noted p r (events ++ events') := by
  intro ev hev
  rcases List.mem_append.mp hev with hl | hr
  · refine ⟨(h ev hl).1, fun c hc => ?_⟩
    cases (h ev hl).2 c hc
  · exact h' ev hr

theorem Noted.mono (h : Noted p r events) (hq : ∀ c, p c → q c) : Noted q r events :=
  fun ev hev => ⟨hq _ (h ev hev).1, (h ev hev).2⟩

/-- Where no failure of a call is reported, no call has failed. -/
theorem Noted.of_ne (h : Noted p r events) (hr : ∀ (call : Call) c, r ≠ some (call.reported c))
    (r' : Option VolumeError) : Noted p r' events :=
  fun ev hev => ⟨(h ev hev).1, fun c hc => absurd ((h ev hev).2 c hc) (hr ev.call c)⟩

theorem Executed.noted {plan : List Call} {f : Option (Call × DeviceError)}
    (h : Executed plan f events) (hp : ∀ c ∈ plan, p c) :
    Noted p (f.map fun f => f.1.reported f.2) events := by
  induction h with
  | done => exact .nil _ _
  | failed call rest c =>
    intro ev hev
    obtain rfl := List.mem_singleton.mp hev
    refine ⟨hp call (List.mem_cons_self ..), fun c' hc => ?_⟩
    cases hc
    rfl
  | next call _ ih =>
    intro ev hev
    rcases List.mem_cons.mp hev with rfl | hev
    · exact ⟨hp call (List.mem_cons_self ..), nofun⟩
    · exact ih (fun c hc => hp c (List.mem_cons_of_mem _ hc)) ev hev

/-- **However `x` ends,** it has made only calls of `p`, and reports the one that failed. -/
def Asks (p : Call → Prop) (x : VolumeM (Observed W) α) : Prop :=
  ∀ o, Ends x o (fun _ o' => Since (Noted p none) o o') fun e o' => Since (Noted p (some e)) o o'

theorem Asks.pure (p : Call → Prop) (a : α) : Asks p (Pure.pure a : VolumeM (Observed W) α) :=
  fun o => Since.refl o (.nil _ _)

theorem Asks.throw (p : Call → Prop) (e : VolumeError) :
    Asks p (MonadExcept.throw e : VolumeM (Observed W) α) := fun o => Since.refl o (.nil _ _)

theorem Asks.bind {x : VolumeM (Observed W) α} {f : α → VolumeM (Observed W) β} (h : Asks p x)
    (hf : ∀ a, Asks p (f a)) : Asks p (x >>= f) := by
  intro o
  refine Ends.bind ((h o).mono (fun a o' hs => ?_) fun _ _ hs => hs)
  exact (hf a o').mono (fun _ _ hs' => hs.trans hs' fun _ _ => .append)
    fun _ _ hs' => hs.trans hs' fun _ _ => .append

end Noted

/-- `r` is not how the failure of a call is reported. -/
def Unreported (r : Option VolumeError) : Prop := ∀ (call : Call) c, r ≠ some (call.reported c)

/-- **What may be said of the calls of an access that ended with `r`:** `N r` holds of the calls of two
    steps if it holds of each, and of the calls of a plan that lie in `p`. Where no call is reported it
    does not depend on the end. -/
structure Account (p : Call → Prop) (N : Option VolumeError → List Event → Prop) : Prop where
  nil : N none []
  append : ∀ {r : Option VolumeError} {a b : List Event}, N none a → N r b → N r (a ++ b)
  executed : ∀ {plan : List Call} {f : Option (Call × DeviceError)} {events : List Event},
    Executed plan f events → (∀ c ∈ plan, p c) → N (f.map fun f => f.1.reported f.2) events
  unreported : ∀ {r r' : Option VolumeError} {events : List Event},
    N r events → Unreported r → Unreported r' → N r' events

section Account

variable {p : Call → Prop} {N : Option VolumeError → List Event → Prop}

theorem Account.noted (p : Call → Prop) : Account p (Noted p) where
  nil := .nil p none
  append := .append
  executed h hp := h.noted hp
  unreported h hr _ := h.of_ne hr _

/-- A refusal that reports no call has made none. -/
theorem Account.refused (hN : Account p N) {r : Option VolumeError} (hr : Unreported r) : N r [] :=
  hN.unreported hN.nil nofun hr

theorem Account.executes (hN : Account p N) {plan : List Call} {x : VolumeM (Observed W) α}
    (h : Executes plan x) (hp : ∀ c ∈ plan, p c) (o : Observed W) :
    Ends x o (fun _ o' => Since (N none) o o') fun e o' => Since (N (some e)) o o' := by
  refine (h o).mono (fun _ _ hs => hs.mono fun _ h => hN.executed h hp) fun e o' herr => ?_
  obtain ⟨call, c, rfl, hs⟩ := herr
  exact hs.mono fun _ h => hN.executed h hp

end Account

/-! ## 2. Blocks of file data -/

/-- The blocks that hold file data: all data blocks but the first, which is reserved. -/
def Superblock.IsFileBlock (sb : Superblock) (i : Nat) : Prop :=
  sb.dataStart.toNat < i ∧ i < sb.totalBlocks.toNat

/-- The table has one entry for each data block of the layout. -/
structure Volume.Sized (v : Volume H) : Prop where
  layout : ∃ n, Superblock.forBlockCount? n = some v.superblock
  size_eq : v.table.size = v.superblock.dataBlocks.toNat

theorem Volume.Tidy.sized {v : Volume H} (h : v.Tidy) : v.Sized := ⟨h.layout, h.size_eq⟩

theorem Volume.Sized.table_size_le {v : Volume H} (h : v.Sized) : v.table.size ≤ 65535 := by
  have := v.superblock.dataBlocks.toNat_lt
  rw [h.size_eq]
  omega

/-- **What a data block is located at holds file data.** -/
theorem Volume.isFileBlock_of_locate {v : Volume H} (h : v.Sized) {b : Link} {i : Nat}
    (hi : v.locate b = .ok i) : v.superblock.IsFileBlock i := by
  unfold locate at hi
  split at hi
  · rename_i hb
    cases hi
    obtain ⟨n, hfit⟩ := h.layout
    have hl := Superblock.laidOut_of_forBlockCount? hfit
    obtain ⟨h0, hlt⟩ := isDataBlock_iff.mp hb
    have hpos : b.toNat ≠ 0 := fun e => h0 (UInt16.toNat_inj.mp e)
    rw [h.size_eq] at hlt
    refine ⟨?_, ?_⟩
    · show v.superblock.dataStart.toNat < v.superblock.dataStart.toNat + b.toNat
      omega
    · rw [hl.totalBlocks_eq]
      exact (hl.dataBlock_lt hlt).2
  · cases hi

/-- A block that cannot be located is reported as one no chain may contain. -/
theorem Volume.unreported_of_locate {v : Volume H} {b : Link} {e : VolumeError}
    (h : v.locate b = .error e) : Unreported (some e) := by
  unfold locate at h
  split at h
  · cases h
  · cases h
    exact fun call c => by cases call <;> nofun

/-- No file behind a descriptor is no failure of a call. -/
theorem Volume.unreported_of_resolve {v : Volume H} {fd : Nat} {e : VolumeError}
    (h : v.resolve fd = .error e) : Unreported (some e) := by
  unfold resolve at h
  split at h
  · rename_i he
    cases h
    unfold OpenFiles.get at he
    split at he <;> cases he
    exact fun call c => by cases call <;> nofun
  · split at h <;> cases h
    exact fun call c => by cases call <;> nofun

section OnDevice

variable [BlockDevice W H] {v : Volume H} {p : Call → Prop}
  {N : Option VolumeError → List Event → Prop}

theorem Volume.loadData_account (hN : Account p N) (hv : v.Sized)
    (hp : ∀ i, v.superblock.IsFileBlock i → p (.read i)) (b : Link) (o : Observed W) :
    Ends (v.loadData b) o (fun _ o' => Since (N none) o o') fun e o' => Since (N (some e)) o o' := by
  unfold loadData
  cases hi : v.locate b with
  | error e => exact Since.refl o (hN.refused (unreported_of_locate hi))
  | ok i =>
    refine hN.executes (loadBlock_executes v.device i) (fun c hc => ?_) o
    obtain rfl := List.mem_singleton.mp hc
    exact hp i (isFileBlock_of_locate hv hi)

theorem Volume.loadData_asks (hv : v.Sized) (hp : ∀ i, v.superblock.IsFileBlock i → p (.read i))
    (b : Link) : Asks p (v.loadData b : VolumeM (Observed W) Block) :=
  loadData_account (.noted p) hv hp b

theorem Volume.loadSpans_asks (hv : v.Sized) (hp : ∀ i, v.superblock.IsFileBlock i → p (.read i))
    (b : Link) (pieces : List Span) :
    Asks p (v.loadSpans b pieces : VolumeM (Observed W) (List ByteArray)) := by
  induction pieces generalizing b with
  | nil => exact .pure p _
  | cons s rest ih =>
    cases rest with
    | nil => exact (loadData_asks hv hp b).bind fun _ => .pure p _
    | cons s' rest =>
      refine (loadData_asks hv hp b).bind fun block => ?_
      cases v.table.next b with
      | ok following => exact (ih following).bind fun _ => .pure p _
      | error e => exact .throw p e

end OnDevice

/-! ## 3. Storing the pieces of a write -/

namespace Mounted

variable {P Q R : List Event → Prop} {m m' m'' : Mounted (Observed W) H}

/-- **Device and layout stayed,** and what was written down since satisfies `P`. -/
structure Footprint (P : List Event → Prop) (m m' : Mounted (Observed W) H) : Prop where
  device_eq : m'.volume.device = m.volume.device
  superblock_eq : m'.volume.superblock = m.volume.superblock
  size_eq : m'.volume.table.size = m.volume.table.size
  since : Since P m.world m'.world

theorem Footprint.of_volume_eq (h : m'.volume = m.volume) (hs : Since P m.world m'.world) :
    Footprint P m m' := ⟨by rw [h], by rw [h], by rw [h], hs⟩

theorem Footprint.refl (m : Mounted (Observed W) H) (h : P []) : Footprint P m m :=
  .of_volume_eq rfl (.refl m.world h)

theorem Footprint.mono (h : Footprint P m m') (hQ : ∀ a, P a → Q a) : Footprint Q m m' :=
  { h with since := h.since.mono hQ }

theorem Footprint.trans (h : Footprint P m m') (h' : Footprint Q m' m'')
    (hR : ∀ a b, P a → Q b → R (a ++ b)) : Footprint R m m'' where
  device_eq := h'.device_eq.trans h.device_eq
  superblock_eq := h'.superblock_eq.trans h.superblock_eq
  size_eq := h'.size_eq.trans h.size_eq
  since := h.since.trans h'.since hR

theorem Footprint.sized (h : Footprint P m m') (hv : m.volume.Sized) : m'.volume.Sized :=
  ⟨h.superblock_eq ▸ hv.layout, by rw [h.size_eq, h.superblock_eq, hv.size_eq]⟩

variable [BlockDevice W H] {p : Call → Prop} {N : Option VolumeError → List Event → Prop}
  {slot : Slot} {blocks : List Link}

/-- Storing a data block changes nothing in memory. -/
theorem storeData_footprint (hN : Account p N) (hv : m.volume.Sized)
    (hp : ∀ i, m.volume.superblock.IsFileBlock i → p (.write i)) (b : Link) (blk : Block) :
    Ends (storeData b blk) m
      (fun _ m' => m'.volume = m.volume ∧
        Since (fun new => N none new ∧ Wrote new) m.world m'.world)
      (fun e m' => m'.volume = m.volume ∧ Since (N (some e)) m.world m'.world) := by
  refine Ends.bind_ok (getVolume_run m) ?_
  cases hi : m.volume.locate b with
  | error e =>
    exact Ends.bind (Ends.of_error (lookup_eq_error_iff.mpr ⟨rfl, rfl⟩)
      ⟨rfl, .refl _ (hN.refused (Volume.unreported_of_locate hi))⟩)
  | ok i =>
    have hcall : ∀ c ∈ [Call.write i], p c := by
      intro c hc
      obtain rfl := List.mem_singleton.mp hc
      exact hp i (Volume.isFileBlock_of_locate hv hi)
    refine Ends.bind_ok (lookup_eq_ok_iff.mpr ⟨rfl, rfl⟩) (onDevice_ends ?_)
    refine (storeBlock_executes m.volume.device i blk m.world).mono ?_ ?_
    · intro _ o hs
      refine ⟨rfl, hs.mono fun new hex => ⟨hN.executed hex hcall, i, ?_⟩⟩
      rw [hex.eq_of_none]
      exact List.mem_singleton_self _
    · intro e o herr
      obtain ⟨call, c, rfl, hs⟩ := herr
      exact ⟨rfl, hs.mono fun new hex => hN.executed hex hcall⟩

variable (hN : Account p N) (hv : m.volume.Sized)
  (hp : ∀ i, m.volume.superblock.IsFileBlock i → p (.read i) ∧ p (.write i))
include hN hv hp

theorem overwrite_footprint (b : Link) (s : Segment) : Ends (overwrite b s) m
    (fun _ m' => m'.volume = m.volume ∧
      Since (fun new => N none new ∧ Wrote new) m.world m'.world)
    (fun e m' => m'.volume = m.volume ∧ Since (N (some e)) m.world m'.world) := by
  unfold overwrite
  split
  · refine Ends.bind_ok (getVolume_run m) (Ends.bind (onDevice_ends ?_))
    refine (Volume.loadData_account hN hv (fun i hi => (hp i hi).1) b m.world).mono ?_ ?_
    · intro old o hs
      refine (storeData_footprint (m := { m with world := o }) hN hv (fun i hi => (hp i hi).2) b _).mono
        ?_ ?_
      · intro _ m' hok
        obtain ⟨hvol, hs'⟩ := hok
        exact ⟨hvol, hs.trans hs' fun _ c ha hc =>
          ⟨hN.append ha hc.1, hc.2.imp fun i hi => List.mem_append_right _ hi⟩⟩
      · intro e m' herr
        obtain ⟨hvol, hs'⟩ := herr
        exact ⟨hvol, hs.trans hs' fun _ _ => hN.append⟩
    · exact fun e o hs => ⟨rfl, hs⟩
  · exact storeData_footprint hN hv (fun i hi => (hp i hi).2) b _

/-- **A piece in a new block:** the chain has grown by a block that was stored, or memory is as it
    was. -/
theorem append_footprint (hc : Chain m.volume.table (m.volume.root.get slot).firstBlock blocks)
    (s : Segment) : Ends (append slot blocks.toArray s) m
      (fun chain m' => (∃ blocks', chain = blocks'.toArray ∧
          Chain m'.volume.table (m'.volume.root.get slot).firstBlock blocks') ∧
        Footprint (fun new => N none new ∧ Wrote new) m m')
      (fun e m' => m'.volume = m.volume ∧ Since (N (some e)) m.world m'.world) := by
  unfold append
  rcases allocate_cases hv.table_size_le with ⟨b, hlow, ha⟩ | ⟨hlow, ha⟩
  · have hb := freeBlock_of_lowestFree? hv.table_size_le hlow
    refine Ends.bind_ok (onTable_eq_ok_iff.mpr ⟨_, ha, rfl⟩) ?_
    refine Ends.bind_ok (linkLast_run hc hb) ?_
    have hpush : blocks.toArray.push b = (blocks ++ [b]).toArray := by simp
    have hgrown : Volume.Sized (m.volume.grown slot blocks b) :=
      ⟨hv.layout, (size_linked _ _ _).trans hv.size_eq⟩
    rw [hpush]
    refine Ends.bind (Ends.undoing ((storeData_footprint
      (m := { m with volume := m.volume.grown slot blocks b }) hN hgrown
      (fun i hi => (hp i hi).2) b _).mono ?_ ?_))
    · intro _ m' hok
      obtain ⟨v, o⟩ := m'
      obtain ⟨rfl, hs⟩ := hok
      refine ⟨⟨blocks ++ [b], rfl, ?_⟩, rfl, rfl, size_linked _ _ _, hs⟩
      simp only [Volume.grown, Directory.get_set_self]
      exact hc.linked hb
    · intro e m' herr
      obtain ⟨v, o⟩ := m'
      obtain ⟨rfl, hs⟩ := herr
      exact ⟨{ m with world := o }, unlinkLast_run (m := { m with world := o }) hc hb, rfl, hs⟩
  · refine Ends.bind (Ends.of_error (onTable_eq_error_iff.mpr ⟨_, ha, rfl⟩) ?_)
    refine ⟨rfl, .refl _ (hN.refused fun call c h => ?_)⟩
    cases call <;> cases h

/-- **One piece of a write** is stored, or changes nothing in memory. -/
theorem storeSegment_footprint
    (hc : Chain m.volume.table (m.volume.root.get slot).firstBlock blocks) (s : Segment) :
    Ends (storeSegment slot blocks.toArray s) m
      (fun chain m' => (∃ blocks', chain = blocks'.toArray ∧
          Chain m'.volume.table (m'.volume.root.get slot).firstBlock blocks') ∧
        Footprint (fun new => N none new ∧ Wrote new) m m')
      (fun e m' => m'.volume = m.volume ∧ Since (N (some e)) m.world m'.world) := by
  unfold storeSegment
  split
  · refine Ends.bind ((overwrite_footprint hN hv hp _ s).mono ?_ fun _ _ h => h)
    intro _ m' hok
    obtain ⟨hvol, hs⟩ := hok
    exact ⟨⟨blocks, rfl, hvol ▸ hc⟩, .of_volume_eq hvol hs⟩
  · exact append_footprint hN hv hp hc s

/-- **The loop of a write** has stored a block, or memory is as it was and nothing counts as
    written. -/
theorem storeSegments_footprint
    (hc : Chain m.volume.table (m.volume.root.get slot).firstBlock blocks)
    (segments : List Segment) (k : Nat) :
    Ends (storeSegments slot blocks.toArray segments k) m
      (fun q m' => Footprint (fun new => N q.stopped new ∧
        (Wrote new ∨ m'.volume = m.volume ∧ q.written = k)) m m')
      (fun _ _ => False) := by
  induction segments generalizing m blocks k with
  | nil => exact Footprint.refl m ⟨hN.nil, .inr ⟨rfl, rfl⟩⟩
  | cons s rest ih =>
    have hstep := storeSegment_footprint hN hv hp hc s
    unfold Ends at hstep
    unfold storeSegments Ends
    cases hx : storeSegment slot blocks.toArray s m with
    | ok chain m₁ =>
      rw [hx] at hstep
      obtain ⟨⟨blocks', rfl, hc'⟩, hfoot⟩ := hstep
      simp only [hx]
      have hrest := ih (hfoot.sized hv) (hfoot.superblock_eq ▸ hp) hc' (k + s.bytes.size)
      refine hrest.mono (fun q m₂ hok => hfoot.trans hok fun a b ha hb => ?_) fun _ _ h => h
      exact ⟨hN.append ha.1 hb.1, .inl (ha.2.imp fun i hi => List.mem_append_left _ hi)⟩
    | error e m₁ =>
      rw [hx] at hstep
      obtain ⟨hvol, hs⟩ := hstep
      simp only [hx]
      exact .of_volume_eq hvol (hs.mono fun _ h => ⟨h, .inr ⟨hvol, trivial⟩⟩)

/-! ## 4. Reading and writing -/

omit hN hv hp in
/-- **A read** makes reads of file blocks, and moves its descriptor or changes nothing. -/
theorem read_footprint (ht : m.volume.Tidy)
    (hp : ∀ i, m.volume.superblock.IsFileBlock i → p (.read i)) (fd count : Nat) :
    Ends (read fd count) m
    (fun _ m' => Footprint (Noted p none) m m')
    (fun e m' => m'.volume = m.volume ∧ Since (Noted p (some e)) m.world m'.world) := by
  unfold read
  refine Ends.bind_ok (getVolume_run m) ?_
  cases hr : m.volume.resolve fd with
  | error e =>
    exact Ends.bind (Ends.of_error (lookup_eq_error_iff.mpr ⟨rfl, rfl⟩) ⟨rfl, .refl _ (.nil _ _)⟩)
  | ok r =>
    obtain ⟨f, slot⟩ := r
    refine Ends.bind_ok (lookup_eq_ok_iff.mpr ⟨rfl, rfl⟩) ?_
    dsimp only
    split
    · exact Footprint.refl m (.nil _ _)
    · cases hn : m.volume.table.nthBlock (m.volume.root.get slot).firstBlock
          (f.offset / blockSize) with
      | error e =>
        exact Ends.bind (Ends.of_error (lookup_eq_error_iff.mpr ⟨rfl, rfl⟩)
          ⟨rfl, .refl _ (.nil _ _)⟩)
      | ok first =>
        refine Ends.bind_ok (lookup_eq_ok_iff.mpr ⟨rfl, rfl⟩) (Ends.bind (onDevice_ends ?_))
        refine (Volume.loadSpans_asks ht.sized hp first _ m.world).mono ?_ ?_
        · exact fun parts o hs => ⟨rfl, rfl, rfl, hs⟩
        · exact fun e o hs => ⟨rfl, hs⟩

omit hv in
/-- **A write** makes reads and writes of file blocks. If it fails it has stored a block, or memory is
    as it was. -/
theorem write_footprint (ht : m.volume.Tidy) (fd : Nat) (data : ByteArray) : Ends (write fd data) m
    (fun _ m' => Footprint (N none) m m')
    (fun e m' => Footprint (fun new => N (some e) new ∧
      (Wrote new ∨ m'.volume = m.volume)) m m') := by
  have hrefused : ∀ {e : VolumeError}, Unreported (some e) → Footprint (fun new =>
      N (some e) new ∧ (Wrote new ∨ m.volume = m.volume)) m m :=
    fun he => .refl m ⟨hN.refused he, .inr rfl⟩
  unfold write
  refine Ends.bind_ok (getVolume_run m) ?_
  cases hr : m.volume.resolve fd with
  | error e =>
    exact Ends.bind (Ends.of_error (lookup_eq_error_iff.mpr ⟨rfl, rfl⟩)
      (hrefused (Volume.unreported_of_resolve hr)))
  | ok r =>
    obtain ⟨f, slot⟩ := r
    refine Ends.bind_ok (lookup_eq_ok_iff.mpr ⟨rfl, rfl⟩) ?_
    dsimp only
    split
    · exact Footprint.refl m hN.nil
    · cases hc : m.volume.table.chain (m.volume.root.get slot).firstBlock with
      | error e =>
        obtain ⟨b, rfl⟩ := walk_eq_error hc
        exact Ends.bind (Ends.of_error (lookup_eq_error_iff.mpr ⟨rfl, rfl⟩)
          (hrefused fun call c => by cases call <;> nofun))
      | ok blocks =>
        refine Ends.bind_ok (lookup_eq_ok_iff.mpr ⟨rfl, rfl⟩) (Ends.bind ?_)
        refine (storeSegments_footprint hN ht.sized hp (chain_eq_ok_iff.mp hc) _ 0).mono ?_
          fun _ _ hfalse => hfalse.elim
        intro q n hfoot
        obtain ⟨k, stopped⟩ := q
        obtain ⟨n', hn'⟩ : ∃ n', n' = if 0 < k then n.commit fd slot (f.offset + k) else n :=
          ⟨_, rfl⟩
        -- size and offset are entered in memory only, and only where a block was stored
        have hshown : Footprint (fun new => N stopped new ∧
            (Wrote new ∨ n'.volume = m.volume)) m n' := by
          rw [hn']
          split
          · rename_i hk
            refine ⟨hfoot.device_eq, hfoot.superblock_eq, hfoot.size_eq, hfoot.since.mono ?_⟩
            refine fun new h => ⟨h.1, .inl (h.2.resolve_right fun h0 => ?_)⟩
            exact absurd h0.2 (Nat.ne_of_gt hk)
          · exact hfoot.mono fun new h => ⟨h.1, h.2.imp id And.left⟩
        refine commit_ends ?_
        rw [← hn']
        cases stopped with
        | none => exact hshown.mono fun _ h => h.1
        | some e =>
          cases e
          case diskFull =>
            dsimp only
            split
            · exact hshown.mono fun _ h =>
                hN.unreported h.1 (fun call c => by cases call <;> nofun) nofun
            · exact hshown
          all_goals exact hshown

end Mounted

/-! ## 5. Calls on files -/

/-- The calls that a call on the files may make on a device with the layout `sb`. -/
inductive FileCall.MayCall (sb : Superblock) : FileCall → Call → Prop where
  | read {fd count i : Nat} (h : sb.IsFileBlock i) : MayCall sb (.read fd count) (.read i)
  /-- A block that is written in part is read first. -/
  | fetch {fd : Nat} {data : ByteArray} {i : Nat} (h : sb.IsFileBlock i) :
      MayCall sb (.write fd data) (.read i)
  | store {fd : Nat} {data : ByteArray} {i : Nat} (h : sb.IsFileBlock i) :
      MayCall sb (.write fd data) (.write i)

/-- What is cut off when the file in a slot keeps its first blocks, as many as are told: the block it
    goes on at, and the table after the cut. -/
inductive Volume.CutOff (v : Volume H) (slot : Slot) : Nat → Link → AllocationTable → Prop where
  | all : CutOff v slot 0 (v.root.get slot).firstBlock v.table
  | behind {k : Nat} {last released : Link}
      (hn : v.table.nthBlock (v.root.get slot).firstBlock k = .ok last)
      (hb : v.table.isDataBlock last) (he : v.table.entries[last.toNat]? = some released) :
      CutOff v slot (k + 1) released (v.table.set last Link.endOfChain)

/-- **How a call can fail with a part of its work done:** bytes were stored, or blocks of a file were to
    be freed, and the links led to the block `b` where there was no way further. -/
inductive FileCall.PartlyDone (v : Volume H) (e : VolumeError) (events : List Event) :
    FileCall → Prop where
  | stored {fd : Nat} {data : ByteArray} (h : Wrote events) : PartlyDone v e events (.write fd data)
  | deleted {name : String} {slot : Slot} {b : Link} {t : AllocationTable}
      (hs : v.root.find? name = some slot)
      (hf : freeChain (v.root.get slot).firstBlock v.table = .error (.corruptChain b) t)
      (he : e = .corruptChain b) : PartlyDone v e events (.delete name)
  | shortened {fd size : Nat} {f : OpenFile} {slot : Slot} {released b : Link}
      {t t' : AllocationTable} (hr : v.resolve fd = .ok (f, slot))
      (hc : v.CutOff slot (ceilDiv size blockSize) released t)
      (hf : freeChain released t = .error (.corruptChain b) t') (he : e = .corruptChain b) :
      PartlyDone v e events (.truncate fd size)

section Shortening

variable {m : Mounted W H}

theorem Mounted.cutChain_cutOff (slot : Slot) (keep : Nat) : Ends (cutChain slot keep) m
    (fun released m' => m.volume.CutOff slot keep released m'.volume.table) (fun _ m' => m' = m) := by
  cases keep with
  | zero => exact .all
  | succ k =>
    rw [Ends, cutChain_succ_run]
    cases hn : m.volume.table.nthBlock (m.volume.root.get slot).firstBlock k with
    | error e => rfl
    | ok last =>
      dsimp only
      by_cases hb : m.volume.table.isDataBlock last
      · obtain ⟨released, he⟩ := exists_entry_of_isDataBlock hb
        rw [if_pos hb, he]
        exact .behind hn hb he
      · rw [if_neg hb]

/-- **A truncate that fails** has changed nothing, unless it was freeing what it had cut off. -/
theorem Mounted.truncate_partlyDone (fd size : Nat) : Ends (truncate fd size) m (fun _ _ => True)
    (fun e m' => m' = m ∨ ∀ events, FileCall.PartlyDone m.volume e events (.truncate fd size)) := by
  rw [Ends, truncate_run]
  cases hr : m.volume.resolve fd with
  | error e => exact .inl rfl
  | ok p =>
    obtain ⟨f, slot⟩ := p
    dsimp only
    by_cases hsize : (m.volume.root.get slot).size < size
    · rw [if_pos hsize]
      exact .inl rfl
    · rw [if_neg hsize]
      have hcut := cutChain_cutOff (m := m) slot (ceilDiv size blockSize)
      unfold Ends at hcut
      cases hc : cutChain slot (ceilDiv size blockSize) m with
      | error e m' =>
        simp only [hc] at hcut ⊢
        exact .inl hcut
      | ok released m' =>
        simp only [hc] at hcut ⊢
        cases hf : freeChain released m'.volume.table with
        | ok n t => trivial
        | error e t =>
          obtain ⟨b, rfl⟩ := freeChain_eq_error hf
          exact .inr fun events => .shortened hr hcut hf rfl

end Shortening

section Calls

variable {m m' : Mounted (Observed W) H} {call : FileCall}

/-- What a call leaves behind that answers, or that fails with the error `r`: device and layout stayed,
    only calls were made that it may make, and memory is as it was if it failed and was not partly
    done. -/
def FileCall.Leaves (call : FileCall) (m : Mounted (Observed W) H) (r : Option VolumeError)
    (fs : FileSystem (Observed W) H) : Prop :=
  ∃ m', fs = ofMounted m' ∧
    Footprint (fun new => Noted (call.MayCall m.volume.superblock) r new ∧
      ∀ e, r = some e → m'.volume = m.volume ∨ call.PartlyDone m.volume e new) m m'

theorem FileCall.Leaves.of_ok
    (h : Footprint (Noted (call.MayCall m.volume.superblock) none) m m') :
    call.Leaves m none (ofMounted m') := ⟨m', rfl, h.mono fun _ hn => ⟨hn, nofun⟩⟩

/-- A call that fails and leaves memory as it was. -/
theorem FileCall.Leaves.of_volume_eq {e : VolumeError} (hv : m'.volume = m.volume)
    (hs : Since (Noted (call.MayCall m.volume.superblock) (some e)) m.world m'.world) :
    call.Leaves m (some e) (ofMounted m') :=
  ⟨m', rfl, .of_volume_eq hv (hs.mono fun _ hn => ⟨hn, fun _ _ => .inl hv⟩)⟩

theorem FileCall.Leaves.refused {e : VolumeError} {fs : FileSystem (Observed W) H}
    (h : fs = ofMounted m) : call.Leaves m (some e) fs :=
  h ▸ .of_volume_eq rfl (.refl _ (.nil _ _))

/-- What is changed in memory only leaves no trace on the device. -/
theorem FileCall.Leaves.of_memory {v : Volume H} (hd : v.device = m.volume.device)
    (hs : v.superblock = m.volume.superblock) (hz : v.table.size = m.volume.table.size) :
    call.Leaves m none (ofMounted { m with volume := v }) :=
  .of_ok ⟨hd, hs, hz, .refl _ (.nil _ _)⟩

theorem FileCall.Leaves.of_query {α : Type} (f : Volume H → Except VolumeError α) :
    Ends (FileSystem.query f) (ofMounted m) (fun _ fs => call.Leaves m none fs)
      (fun e fs => call.Leaves m (some e) fs) :=
  (FileSystem.query_ends m f).mono (fun _ _ h => h.2 ▸ .of_ok (.refl m (.nil _ _)))
    fun _ _ h => .refused h.2

variable [BlockDevice W H]

/-- **The calls of each call on the files,** on any volume and however it ends. If it fails, memory is
    as it was or the call was partly done. -/
theorem FileCall.run_footprint (call : FileCall) (ht : m.volume.Tidy) :
    Ends call.run (ofMounted m) (fun _ fs => call.Leaves m none fs)
      (fun e fs => call.Leaves m (some e) fs) := by
  have hsize : ∀ first, Ends (freeChain first) m.volume.table
      (fun _ t => t.size = m.volume.table.size) (fun _ t => t.size = m.volume.table.size) :=
    fun first => freeChain_ends first m.volume.table
  cases call with
  | create name =>
    refine Ends.map ((FileSystem.create_ends m name).mono ?_ fun _ _ h => .refused h.1)
    intro _ fs hok
    rcases hok with ⟨slot, -, -, -, rfl⟩
    exact .of_memory rfl rfl rfl
  | delete name =>
    refine Ends.map ((FileSystem.delete_ends m name).mono ?_ ?_)
    · intro _ fs hok
      rcases hok with ⟨slot, n, table, -, -, hf, rfl⟩
      exact .of_memory rfl rfl ((ends_iff.mp (hsize _)).1 _ _ hf)
    · intro e fs herr
      rcases herr with h | ⟨slot, table, hs, -, hf, rfl⟩
      · exact .refused h.1
      · obtain ⟨b, rfl⟩ := freeChain_eq_error hf
        refine ⟨_, rfl, rfl, rfl, (ends_iff.mp (hsize _)).2 _ _ hf, .refl _ ⟨.nil _ _, ?_⟩⟩
        exact fun e he => .inr (.deleted hs hf (Option.some.inj he).symm)
  | list => exact Ends.map (Leaves.of_query _)
  | openFile name =>
    refine Ends.map ((FileSystem.openFile_ends m name).mono ?_ fun _ _ h => .refused h.1)
    intro fd fs hok
    rcases hok with ⟨slot, files, -, -, rfl⟩
    exact .of_memory rfl rfl rfl
  | close fd =>
    refine Ends.map ((FileSystem.close_ends m fd).mono ?_ fun _ _ h => .refused h.1)
    intro _ fs hok
    rcases hok with ⟨files, -, rfl⟩
    exact .of_memory rfl rfl rfl
  | stat fd => exact Ends.map (Leaves.of_query _)
  | tell fd => exact Ends.map (Leaves.of_query _)
  | seek fd offset =>
    refine Ends.map ((FileSystem.seek_ends m fd offset).mono ?_ fun _ _ h => .refused h.1)
    intro _ fs hok
    rcases hok with ⟨f, slot, -, -, rfl⟩
    exact .of_memory rfl rfl rfl
  | read fd count =>
    exact Ends.map (FileSystem.onVolume_ends ((read_footprint ht (fun _ => .read) fd count).mono
      (fun _ m' h => .of_ok h) fun e m' h => .of_volume_eq h.1 h.2))
  | write fd data =>
    refine Ends.map (FileSystem.onVolume_ends ((write_footprint (.noted _)
      (fun i hi => ⟨.fetch hi, .store hi⟩) ht fd data).mono (fun _ m' h => .of_ok h) fun e m' h => ?_))
    refine ⟨m', rfl, h.mono fun new hq => ⟨hq.1, fun e' _ => ?_⟩⟩
    exact hq.2.symm.imp id .stored
  | truncate fd size =>
    refine Ends.map (FileSystem.onVolume_ends (((truncate_cuts fd size m).and
      (truncate_partlyDone fd size)).mono ?_ ?_))
    · intro _ m' hok
      rcases hok.1 with rfl | ⟨f, slot, first, t, -, -, hz, rfl⟩
      · exact .of_ok (.refl m' (.nil _ _))
      · exact .of_memory rfl rfl hz
    · intro e m' herr
      rcases herr with ⟨rfl | ⟨f, slot, first, t, -, -, hz, rfl⟩, hpart⟩
      · exact .refused rfl
      · rcases hpart with heq | hpart
        · exact .refused (by rw [heq])
        · refine ⟨_, rfl, rfl, rfl, hz, .refl _ ⟨.nil _ _, fun e' he => .inr ?_⟩⟩
          exact Option.some.inj he ▸ hpart []

end Calls

/-! ## 6. Operations -/

/-- The calls that an operation may make on a device with the layout `sb`. -/
inductive Operation.MayCall (sb : Superblock) : Operation → Call → Prop where
  | file {op : FileCall} {call : Call} (h : op.MayCall sb call) : MayCall sb (.file op) call
  | unmount {call : Call} (h : call ∈ sb.flushCalls ++ [.close]) : MayCall sb .unmount call

/-- How an operation reports that a call failed. -/
def Operation.reported (op : Operation) (call : Call) (c : DeviceError) : VolumeError :=
  match op with
  | .unmount => (call.reported c).asFlushFailure
  | _ => call.reported c

/-- **How an operation can fail with a part of its work done:** as a call on the files, or because the
    device could not be closed. -/
inductive Operation.PartlyDone (v : Volume H) (e : VolumeError) (events : List Event) :
    Operation → Prop where
  | file {op : FileCall} (h : op.PartlyDone v e events) : PartlyDone v e events (.file op)
  | unclosed {c : DeviceError} (h : ⟨.close, some c⟩ ∈ events) : PartlyDone v e events .unmount

/-- **What an operation on the volume `v` leaves** that answers, or that fails with the error `r`, when
    it has made the calls `events`. -/
structure Operation.Trace (op : Operation) (v : Volume H) (r : Option VolumeError)
    (mounted : Option (Volume H)) (events : List Event) : Prop where
  mayCall : ∀ ev ∈ events, op.MayCall v.superblock ev.call
  /-- A call that failed is what is reported. -/
  reported : ∀ ev ∈ events, ∀ c, ev.failure = some c → r = some (op.reported ev.call c)
  kept : ∀ v', mounted = some v' → v'.device = v.device ∧ v'.superblock = v.superblock
  unchanged : ∀ e, r = some e → mounted = some v ∨ op.PartlyDone v e events

section Operations

variable [BlockDevice W H] {fs : FileSystem W H} {v : Volume H}

omit [BlockDevice W H] in
theorem FileCall.Leaves.trace {call : FileCall} {w : W} {r : Option VolumeError}
    {fs' : FileSystem (Observed W) H} (h : call.Leaves ⟨v, ⟨w, []⟩⟩ r fs') :
    Operation.Trace (.file call) v r fs'.mounted fs'.world.events := by
  obtain ⟨m', rfl, hfoot⟩ := h
  obtain ⟨hn, hv⟩ := hfoot.since.events
  refine ⟨fun ev hev => .file (hn ev hev).1, fun ev hev => (hn ev hev).2, fun v' hv' => ?_,
    fun e he => (hv e he).imp (congrArg some) .file⟩
  cases hv'
  exact ⟨hfoot.device_eq, hfoot.superblock_eq⟩

/-- What unmounting leaves and the calls it makes. -/
theorem FileSystem.unmount_traced (v : Volume H) (w : W) :
    Ends unmount (ofMounted ⟨v, (⟨w, []⟩ : Observed W)⟩)
      (fun _ fs => Operation.Trace .unmount v none fs.mounted fs.world.events)
      (fun e fs => Operation.Trace .unmount v (some e) fs.mounted fs.world.events) := by
  refine (unmount_observed ⟨v, ⟨w, []⟩⟩).mono (fun _ fs hok => ?_) fun e fs herr => ?_
  · obtain ⟨hnone, hs⟩ := hok
    have hn := hs.events.noted fun c hc => Operation.MayCall.unmount hc
    refine ⟨fun ev hev => (hn ev hev).1, fun ev hev c hc => ?_, fun v' hv' => ?_, nofun⟩
    · cases (hn ev hev).2 c hc
    · cases hnone.symm.trans hv'
  · obtain ⟨call, c, rfl, hs, hmounted⟩ := herr
    have hn := hs.events.noted fun c hc => Operation.MayCall.unmount hc
    rw [hmounted]
    refine ⟨fun ev hev => (hn ev hev).1, fun ev hev c' hc' => ?_, fun v' hv' => ?_, fun e' _ => ?_⟩
    · have hrep := Option.some.inj ((hn ev hev).2 c' hc')
      exact congrArg (fun e => some e.asFlushFailure) hrep
    · split at hv' <;> cases hv'
      exact ⟨rfl, rfl⟩
    · split
      · rename_i hclose
        subst hclose
        obtain ⟨made, rest, -, hevents⟩ := hs.events.eq_of_some
        exact .inr (.unclosed (c := c) (by rw [hevents]; simp))
      · exact .inl rfl

/-- **What every operation leaves and the calls it makes,** on any volume and however it ends. -/
theorem Operation.run_traced (op : Operation) (hv : fs.mounted = some v) (ht : v.Tidy) :
    Ends op.run fs (fun _ fs' => op.Trace v none fs'.mounted (op.events fs))
      (fun e fs' => op.Trace v (some e) fs'.mounted (op.events fs)) := by
  refine run_observed op (P := fun _ fs' events => op.Trace v none fs'.mounted events)
    (Q := fun e fs' events => op.Trace v (some e) fs'.mounted events) ?_
  obtain ⟨_, w⟩ := fs
  cases hv
  have hquiet : ∀ {r : Option VolumeError}, op.Trace v r (some v) [] := by
    refine ⟨nofun, nofun, fun v' hv' => ?_, fun _ _ => .inl rfl⟩
    cases hv'
    exact ⟨rfl, rfl⟩
  have hquery : ∀ {α : Type} (f : Volume H → Except VolumeError α),
      Ends (FileSystem.query f) (ofMounted ⟨v, (⟨w, []⟩ : Observed W)⟩)
        (fun _ fs' => op.Trace v none fs'.mounted fs'.world.events)
        (fun e fs' => op.Trace v (some e) fs'.mounted fs'.world.events) :=
    fun f => (FileSystem.query_ends _ f).mono (fun _ _ h => h.2 ▸ hquiet) fun _ _ h => h.2 ▸ hquiet
  cases op with
  | file call =>
    exact Ends.map ((call.run_footprint (m := ⟨v, ⟨w, []⟩⟩) ht).mono (fun _ _ h => h.trace)
      fun _ _ h => h.trace)
  | info => exact Ends.map (hquery _)
  | check => exact hquery _
  | unmount => exact FileSystem.unmount_traced v w

/-- Without a volume an operation makes no call. -/
theorem Operation.events_of_none (op : Operation) (w : W) :
    op.events (⟨none, w⟩ : FileSystem W H) = [] := by
  show (stateAfter op.run (⟨none, ⟨w, []⟩⟩ : FileSystem (Observed W) H)).world.events = []
  rw [stateAfter, op.run_of_none]

/-- An operation is refused without a volume, and leaves its trace on the one that is mounted. -/
theorem Operation.run_cases (op : Operation) (h : fs.Mounting Volume.Tidy) :
    (op.run fs = .error .notMounted fs ∧ op.events fs = []) ∨ ∃ v, fs.mounted = some v ∧
      Ends op.run fs (fun _ fs' => op.Trace v none fs'.mounted (op.events fs))
        (fun e fs' => op.Trace v (some e) fs'.mounted (op.events fs)) := by
  cases hv : fs.mounted with
  | none =>
    obtain ⟨_, w⟩ := fs
    cases hv
    exact .inl ⟨op.run_of_none w, op.events_of_none w⟩
  | some v => exact .inr ⟨v, rfl, op.run_traced hv (h v hv)⟩

/-! ## 7. Runs on any device -/

/-- **Operations lead from `fs₀` to `fs`,** whatever happens to the world between two of them. -/
inductive Driven (fs₀ : FileSystem W H) : FileSystem W H → Prop where
  | start : Driven fs₀ fs₀
  | step {fs : FileSystem W H} (h : Driven fs₀ fs) (op : Operation) :
      Driven fs₀ (stateAfter op.run fs)
  | elsewhere {fs : FileSystem W H} (h : Driven fs₀ fs) (w : W) : Driven fs₀ { fs with world := w }

theorem Reachable.driven [LawfulBlockDevice W H] {fs₀ fs : FileSystem W H} (h : Reachable fs₀ fs) :
    Driven fs₀ fs := by
  induction h with
  | start => exact .start
  | step _ op ih => exact ih.step op
  | elsewhere _ _ ih => exact ih.elsewhere _

theorem Driven.tidy {fs₀ fs : FileSystem W H} (h : Driven fs₀ fs)
    (h₀ : fs₀.Mounting Volume.Tidy) : fs.Mounting Volume.Tidy := by
  induction h with
  | start => exact h₀
  | @step fs _ op ih =>
    obtain ⟨_ | v, w⟩ := fs
    · rw [stateAfter, op.run_of_none w]
      exact ih
    · exact op.run_tidy (m := ⟨v, w⟩) (ih v rfl)
  | elsewhere _ _ ih => exact ih

theorem Driven.tidy_of_mount {d : H} {fs₀ fs₁ : FileSystem W H}
    (hm : FileSystem.mount d fs = .ok () fs₀) (hr : Driven fs₀ fs₁) : fs₁.Mounting Volume.Tidy := by
  obtain ⟨v, hv, hfrom⟩ := FileSystem.mountedFrom_of_mount hm
  refine hr.tidy fun v' hv' => ?_
  obtain rfl := Option.some.inj (hv.symm.trans hv')
  exact hfrom.tidy

/-- **Every volume that is reached has the device and the layout it was mounted with.** -/
theorem Driven.kept {fs₀ fs : FileSystem W H} (h : Driven fs₀ fs)
    (h₀ : fs₀.Mounting Volume.Tidy) (hv : fs.mounted = some v) :
    ∃ v₀, fs₀.mounted = some v₀ ∧ v.device = v₀.device ∧ v.superblock = v₀.superblock := by
  induction h generalizing v with
  | start => exact ⟨v, hv, rfl, rfl⟩
  | @step fs hr op ih =>
    rcases op.run_cases (hr.tidy h₀) with ⟨hrun, -⟩ | ⟨u, hu, htrace⟩
    · rw [stateAfter, hrun] at hv
      exact ih hv
    · obtain ⟨v₀, hv₀, hd, hs⟩ := ih hu
      have hkept := Ends.stateAfter (P := fun fs' : FileSystem W H => ∀ v', fs'.mounted = some v' →
        v'.device = u.device ∧ v'.superblock = u.superblock)
        (htrace.mono (fun _ _ h => h.kept) fun _ _ h => h.kept)
      obtain ⟨hd', hs'⟩ := hkept v hv
      exact ⟨v₀, hv₀, hd'.trans hd, hs'.trans hs⟩
  | elsewhere _ _ ih => exact ih hv

end Operations

end FlatVolume
