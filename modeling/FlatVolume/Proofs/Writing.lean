import FlatVolume.Proofs.Growth
import FlatVolume.Proofs.Intact

/-!
# A write, however it ends

`Placed m₀ m slot old new offset data k` says that the first `k` bytes of `data` stand at `offset` in
the file in `slot`, over the bytes it had, while its chain `old` has become `new`. In
`Stored m₀ m slot old new offset data k` this chain is also just long enough: it is the state of a
write that has come `k` bytes far. It holds before the first piece (`Stored.start`), each piece that
is stored leads to the next such state, and each piece that fails leaves it as it was
(`storeSegment_ends`). So it holds when the loop ends, whatever ended it (`storeSegments_ends`), and
size and offset are then moved on by what was stored (`write_ends`).
-/

namespace FlatVolume

open AllocationTable Bytes FlatVolume.Computation

variable {W H : Type} [BlockDevice W H] [LawfulBlockDevice W H]

namespace Mounted

/-- **`k` bytes of `data` stand** from `offset` on in the file in `slot`, whose chain was `old` in
    `m₀` and is `new` in `m`. Its entry does not show it yet, but for the first block. -/
structure Placed (m₀ m : Mounted W H) (slot : Slot) (old new : List Link) (offset : Nat)
    (data : ByteArray) (k : Nat) : Prop where
  volume_eq : ∃ first, m.volume = { m₀.volume with
    table := m.volume.table
    root := m₀.volume.root.set slot { m₀.volume.root.get slot with firstBlock := first } }
  chain : Chain m.volume.table (m.volume.root.get slot).firstBlock new
  rechained : Rechained m₀.volume.table m.volume.table old new
  grown : old <+: new
  shape : SameShape m₀.storage m.storage
  frame : ∀ i, (∀ b ∈ new, i ≠ m₀.volume.superblock.dataBlock b) →
    m.storage.block i = m₀.storage.block i
  bytes : ∀ p, byteOn m₀.volume.superblock m.storage new p =
    if offset ≤ p ∧ p < offset + k then byteAt data (p - offset)
    else byteOn m₀.volume.superblock m₀.storage old p

/-- **`k` bytes of `data` are stored** in a chain that is just long enough for them. -/
structure Stored (m₀ m : Mounted W H) (slot : Slot) (old new : List Link) (offset : Nat)
    (data : ByteArray) (k : Nat) : Prop extends Placed m₀ m slot old new offset data k where
  length_eq : new.length = max old.length (ceilDiv (offset + k) blockSize)

variable {m₀ m : Mounted W H} {slot : Slot} {old new : List Link} {offset k n : Nat}
  {data : ByteArray}

theorem Placed.start (hc : Chain m₀.volume.table (m₀.volume.root.get slot).firstBlock old)
    (offset : Nat) (data : ByteArray) : Placed m₀ m₀ slot old old offset data 0 where
  volume_eq := ⟨(m₀.volume.root.get slot).firstBlock, by rw [Directory.set_eta]⟩
  chain := hc
  rechained := .refl _ _
  grown := List.prefix_refl old
  shape := .refl _
  frame _ _ := rfl
  bytes p := by rw [if_neg (by omega)]

theorem Stored.start (hc : Chain m₀.volume.table (m₀.volume.root.get slot).firstBlock old)
    (ho : ceilDiv offset blockSize ≤ old.length) (data : ByteArray) :
    Stored m₀ m₀ slot old old offset data 0 where
  toPlaced := .start hc offset data
  length_eq := by
    rw [Nat.add_zero]
    omega

section Placed

variable (h : Placed m₀ m slot old new offset data k)
include h

theorem Placed.superblock_eq : m.volume.superblock = m₀.volume.superblock := by
  obtain ⟨first, hv⟩ := h.volume_eq
  rw [hv]

theorem Placed.device_eq : m.volume.device = m₀.volume.device := by
  obtain ⟨first, hv⟩ := h.volume_eq
  rw [hv]

/-- The range of the device is that of the beginning. -/
theorem Placed.inRange (hr : m₀.InRange) : m.InRange := by
  intro b hb
  rw [h.rechained.size_eq] at hb
  rw [h.superblock_eq, h.shape.blockCount_eq]
  exact hr b hb

/-- A failed piece leaves the state of the write as it was. -/
theorem Placed.of_failed {e : VolumeError} {m' : Mounted W H} (hf : BlockFailed m e m') :
    Placed m₀ m' slot old new offset data k where
  volume_eq := hf.volume_eq ▸ h.volume_eq
  chain := hf.volume_eq ▸ h.chain
  rechained := hf.volume_eq ▸ h.rechained
  grown := h.grown
  shape := hf.storage_eq ▸ h.shape
  frame := hf.storage_eq ▸ h.frame
  bytes := hf.storage_eq ▸ h.bytes

/-- **A piece placed in a new block** behind the chain. -/
theorem Placed.appended {w : W} {b : Link} (hb : FreeBlock m.volume.table b)
    (hdiv : (offset + k) / blockSize = new.length)
    (hn : (offset + k) % blockSize + n ≤ blockSize) (hk : k + n ≤ data.size)
    (ha : Answered m.volume.device m.world w (m.storage.set (m.volume.superblock.dataBlock b)
      (Block.zero.overlay ((offset + k) % blockSize) (data.extract k (k + n))))) :
    Placed m₀ ⟨m.volume.grown slot new b, w⟩ slot old (new ++ [b]) offset data (k + n) := by
  obtain ⟨first, hv⟩ := h.volume_eq
  have hs : storage (⟨m.volume.grown slot new b, w⟩ : Mounted W H) = _ := ha.storage_eq
  have hsz : (data.extract k (k + n)).size = n := by
    rw [ByteArray.size_extract]
    omega
  refine ⟨⟨grownFirst (m.volume.root.get slot).firstBlock new b, ?_⟩, ?_, ?_, ?_, ?_,
    fun i hi => ?_, fun p => ?_⟩
  · show m.volume.grown slot new b = _
    unfold Volume.grown
    rw [hv]
    simp only [Directory.set_set, Directory.get_set_self]
  · show Chain (m.volume.table.linked new b) _ _
    simp only [Volume.grown, Directory.get_set_self]
    exact h.chain.linked hb
  · exact h.rechained.trans (.of_linked hb) h.grown.subset (List.subset_append_left _ _)
  · exact h.grown.trans (List.prefix_append _ _)
  · rw [hs]
    exact h.shape.set _ _
  · rw [hs, block_set, h.superblock_eq, if_neg (hi b (by simp))]
    exact h.frame i fun c hc => hi c (List.mem_append_left _ hc)
  · rw [hs, h.superblock_eq, byteOn_append_overlay (hb.notMem h.chain) hdiv (by omega), h.bytes p,
      ite_range_append data p _ hk]

end Placed

section Step

variable (h : Stored m₀ m slot old new offset data k)
include h

/-- The next position to be written lies in the chain or just behind it. -/
theorem Stored.position_le : offset + k ≤ new.length * blockSize := by
  refine Nat.le_trans (ceilDiv_mul_ge (offset + k)) (Nat.mul_le_mul_right blockSize ?_)
  rw [h.length_eq]
  exact Nat.le_max_right _ _

/-- A failed piece leaves the state of the write as it was. -/
theorem Stored.of_failed {e : VolumeError} {m' : Mounted W H} (hf : BlockFailed m e m') :
    Stored m₀ m' slot old new offset data k :=
  ⟨h.toPlaced.of_failed hf, h.length_eq⟩

/-- **A piece stored in a block of the chain.** -/
theorem Stored.overwritten {w : W} {b : Link} (hb : new[(offset + k) / blockSize]? = some b)
    (hn : (offset + k) % blockSize + n ≤ blockSize) (hk : k + n ≤ data.size)
    (ha : Answered m.volume.device m.world w (m.storage.set (m.volume.superblock.dataBlock b)
      ((m.storage.block (m.volume.superblock.dataBlock b)).overlay ((offset + k) % blockSize)
        (data.extract k (k + n))))) :
    Stored m₀ { m with world := w } slot old new offset data (k + n) := by
  have hs : storage ({ m with world := w } : Mounted W H) = _ := ha.storage_eq
  have hsz : (data.extract k (k + n)).size = n := by
    rw [ByteArray.size_extract]
    omega
  refine ⟨⟨h.volume_eq, h.chain, h.rechained, h.grown, ?_, fun i hi => ?_, fun p => ?_⟩, ?_⟩
  · rw [hs]
    exact h.shape.set _ _
  · rw [hs, block_set, h.superblock_eq, if_neg (hi b (List.mem_of_getElem? hb))]
    exact h.frame i hi
  · rw [hs, h.superblock_eq, byteOn_set_overlay h.chain.nodup hb (by omega), h.bytes p,
      ite_range_append data p _ hk]
  · have hlt : (offset + k) / blockSize < new.length := (List.getElem?_eq_some_iff.mp hb).1
    have hmono := ceilDiv_mono (show offset + k ≤ offset + (k + n) by omega)
    have hle : ceilDiv (offset + (k + n)) blockSize ≤ (offset + k) / blockSize + 1 := by
      simp only [ceilDiv, blockSize] at hn ⊢
      omega
    have hl := h.length_eq
    omega

/-- **A piece stored in a new block.** -/
theorem Stored.appended {w : W} {b : Link} (hb : FreeBlock m.volume.table b)
    (hpos : offset + k = new.length * blockSize) (hn0 : 0 < n) (hn : n ≤ blockSize)
    (hk : k + n ≤ data.size)
    (ha : Answered m.volume.device m.world w (m.storage.set (m.volume.superblock.dataBlock b)
      (Block.zero.overlay ((offset + k) % blockSize) (data.extract k (k + n))))) :
    Stored m₀ ⟨m.volume.grown slot new b, w⟩ slot old (new ++ [b]) offset data (k + n) := by
  refine ⟨h.toPlaced.appended hb ?_ ?_ hk ha, ?_⟩
  · rw [hpos, Nat.mul_div_cancel _ (by decide)]
  · rw [hpos, Nat.mul_mod_left]
    omega
  · have hl := h.length_eq
    have hc : ceilDiv (offset + (k + n)) blockSize = new.length + 1 := by
      simp only [ceilDiv, blockSize] at hpos hn ⊢
      omega
    have hc' : ceilDiv (offset + k) blockSize = new.length := by
      simp only [ceilDiv, blockSize] at hpos ⊢
      omega
    rw [List.length_append, List.length_singleton, hc]
    omega

end Step

/-- What stopped a write that had come to position `pos`, where the file had `blocks` blocks: no
    block was free, or a call failed. -/
def Stopped (m₀ m : Mounted W H) (pos blocks : Nat) (e : VolumeError) : Prop :=
  (e = .diskFull ∧ m.volume.table.lowestFree? = none ∧ pos = blocks * blockSize ∧
      (m₀.NeverFails → m.NeverFails)) ∨
    (∃ b c, e = .io (m₀.volume.superblock.dataBlock b) c) ∧ (m₀.InRange → ¬ m₀.NeverFails)

theorem Stopped.of_failed (h : Stored m₀ m slot old new offset data k) {e : VolumeError}
    {m' : Mounted W H} (hn : m₀.NeverFails → m.NeverFails) (hf : BlockFailed m e m')
    (pos blocks : Nat) : Stopped m₀ m' pos blocks e := by
  obtain ⟨b, c, he⟩ := hf.error_eq
  refine .inr ⟨⟨b, c, by rw [he, h.superblock_eq]⟩, fun hr hnf => ?_⟩
  exact hf.fails (h.inRange hr) (hn hnf)

/-- **One piece of a write** is stored, or changes nothing. -/
theorem storeSegment_ends (h : Stored m₀ m slot old new offset data k)
    (hs : m₀.volume.table.size ≤ 65535) (hk : k < data.size)
    (hnf : m₀.NeverFails → m.NeverFails) (hn : n = headLength (offset + k) (data.size - k)) :
    Ends (storeSegment slot new.toArray
        ⟨(offset + k) / blockSize, (offset + k) % blockSize, data.extract k (k + n)⟩) m
      (fun chain m' => ∃ new', chain = new'.toArray ∧
        Stored m₀ m' slot old new' offset data (k + n) ∧ (m₀.NeverFails → m'.NeverFails))
      (fun e m' => Stored m₀ m' slot old new offset data k ∧
        Stopped m₀ m' (offset + k) new.length e ∧ m'.volume = m.volume) := by
  have hpos := headLength_pos (offset + k) (show data.size - k ≠ 0 by omega)
  have hle := headLength_le (offset + k) (data.size - k)
  have hspan : (offset + k) % blockSize + n ≤ blockSize := hn ▸ mod_add_headLength_le _ _
  have hsz : (data.extract k (k + n)).size = n := by
    rw [ByteArray.size_extract]
    omega
  unfold storeSegment
  rw [List.getElem?_toArray]
  cases hb : new[(offset + k) / blockSize]? with
  | some b =>
    obtain ⟨next, link⟩ := h.chain.link_of_mem (List.mem_of_getElem? hb)
    refine Ends.bind ((overwrite_ends (isDataBlock_of_link? link) ?_).mono ?_ ?_)
    · intro hfull
      refine ⟨?_, ?_⟩ <;> dsimp only at hfull ⊢ <;> omega
    · intro _ _ hok
      rcases hok with ⟨w, rfl, ha⟩
      exact ⟨new, rfl, h.overwritten hb hspan (by omega) ha, fun hm => ha.neverFails (hnf hm)⟩
    · exact fun e m' hf => ⟨h.of_failed hf, .of_failed h hnf hf _ _, hf.volume_eq⟩
  | none =>
    have hge := List.getElem?_eq_none_iff.mp hb
    -- the position is not past the chain, so it is at its end
    have hend : offset + k = new.length * blockSize := by
      have := h.position_le
      simp only [blockSize] at hge this ⊢
      omega
    refine (append_ends (h.rechained.size_eq ▸ hs) h.chain).mono ?_ ?_
    · intro _ _ hok
      rcases hok with ⟨b, w, hlow, rfl, rfl, ha⟩
      have hfree := freeBlock_of_lowestFree? (h.rechained.size_eq ▸ hs) hlow
      exact ⟨new ++ [b], rfl, h.appended hfree hend (by omega) (by omega) (by omega) ha,
        fun hm => ha.neverFails (hnf hm)⟩
    · intro e m' herr
      rcases herr with ⟨rfl, hlow, rfl⟩ | hf
      · exact ⟨h, .inl ⟨rfl, hlow, hend, hnf⟩, rfl⟩
      · exact ⟨h.of_failed hf, .of_failed h hnf hf _ _, hf.volume_eq⟩

/-- How a write ended: all was stored, or it stopped before at the end of a block. -/
def Finished (m₀ m : Mounted W H) (offset : Nat) (data : ByteArray) (new : List Link)
    (p : Progress) : Prop :=
  (p.stopped = none ∧ p.written = data.size ∧ (m₀.NeverFails → m.NeverFails)) ∨
    ∃ e, p.stopped = some e ∧ p.written < data.size ∧
      (0 < p.written → (offset + p.written) % blockSize = 0) ∧
      Stopped m₀ m (offset + p.written) new.length e

theorem segmentsFrom_of_lt {pos done : Nat} (h : done < data.size)
    (hn : n = headLength pos (data.size - done)) : segmentsFrom pos data done =
      ⟨pos / blockSize, pos % blockSize, data.extract done (done + n)⟩
        :: segmentsFrom (pos + n) data (done + n) := by
  rw [segmentsFrom, dif_neg (Nat.not_le_of_lt h), hn]

/-- **The loop of a write** never fails by itself: it says how far it came, and the state is that
    of a write that has come so far. Where it has not come further, memory is as it was. -/
theorem storeSegments_ends (hs : m₀.volume.table.size ≤ 65535)
    (h : Stored m₀ m slot old new offset data k) (hk : k ≤ data.size)
    (hal : 0 < k → k < data.size → (offset + k) % blockSize = 0)
    (hnf : m₀.NeverFails → m.NeverFails) :
    Ends (storeSegments slot new.toArray (segmentsFrom (offset + k) data k) k) m
      (fun p m' => (∃ new', Stored m₀ m' slot old new' offset data p.written ∧
        Finished m₀ m' offset data new' p) ∧
        k ≤ p.written ∧ (p.written = k → m'.volume = m.volume))
      (fun _ _ => False) := by
  induction hd : data.size - k using Nat.strongRecOn generalizing k m new with
  | ind d ih =>
    by_cases hdone : data.size ≤ k
    · rw [segmentsFrom, dif_pos hdone]
      have hkd : k = data.size := Nat.le_antisymm hk hdone
      exact ⟨⟨new, h, .inl ⟨rfl, hkd, hnf⟩⟩, Nat.le_refl k, fun _ => rfl⟩
    · have hlt : k < data.size := Nat.lt_of_not_le hdone
      have hpos := headLength_pos (offset + k) (show data.size - k ≠ 0 by omega)
      have hle := headLength_le (offset + k) (data.size - k)
      obtain ⟨n, hn⟩ : ∃ n, n = headLength (offset + k) (data.size - k) := ⟨_, rfl⟩
      have hstep := storeSegment_ends h hs hlt hnf hn
      rw [segmentsFrom_of_lt hlt hn]
      rw [← hn] at hpos hle
      have hsz : (data.extract k (k + n)).size = n := by
        rw [ByteArray.size_extract]
        omega
      unfold storeSegments Ends
      unfold Ends at hstep
      cases hx : storeSegment slot new.toArray
          ⟨(offset + k) / blockSize, (offset + k) % blockSize, data.extract k (k + n)⟩ m with
      | ok chain m' =>
        rw [hx] at hstep
        obtain ⟨new', rfl, h', hnf'⟩ := hstep
        have hal' : 0 < k + n → k + n < data.size → (offset + (k + n)) % blockSize = 0 := by
          intro _ hkn
          have hcut : (offset + k) % blockSize + n = blockSize :=
            hn ▸ mod_add_headLength_eq (show headLength _ _ < _ by omega)
          simp only [blockSize] at hcut ⊢
          omega
        have hrest := ih (data.size - (k + n)) (by omega) h' (by omega) hal' hnf' rfl
        rw [← Nat.add_assoc] at hrest
        simp only [hx, hsz]
        refine hrest.mono (fun p m'' hq => ⟨hq.1, ?_, fun hp => ?_⟩) fun _ _ hfalse => hfalse
        · exact Nat.le_trans (Nat.le_add_right k n) hq.2.1
        · have := hq.2.1
          omega
      | error e m' =>
        rw [hx] at hstep
        obtain ⟨h', hstop, hmem⟩ := hstep
        simp only [hx]
        refine ⟨⟨new, h', .inr ⟨e, rfl, hlt, fun h0 => hal h0 hlt, hstop⟩⟩, Nat.le_refl k, ?_⟩
        exact fun _ => hmem

/-! ## The whole write -/

omit [LawfulBlockDevice W H] in
/-- Without a file there is nothing to write to. -/
theorem write_of_unresolved {fd : Nat} {e : VolumeError} (h : m.volume.resolve fd = .error e)
    (data : ByteArray) : write fd data m = .error e m := by
  unfold write
  exact (bind_of_ok (getVolume_run m)).trans (bind_of_error (lookup_eq_error_iff.mpr ⟨h, rfl⟩))

/-- The size of the file in `slot` is at least `reached`, and `fd` stands there. -/
def commit (m : Mounted W H) (fd : Nat) (slot : Slot) (reached : Nat) : Mounted W H :=
  { m with volume := { m.volume with
      root := m.volume.root.set slot { m.volume.root.get slot with
        size := max (m.volume.root.get slot).size reached }
      files := m.volume.files.moveTo fd reached } }

/-- Before anything is placed, the entry and the descriptor are what they are to become. -/
theorem Placed.commit_eq {n : Mounted W H} {fd pos : Nat} {f : OpenFile}
    (h : Placed m n slot old new pos data 0) (hf : m.volume.files.get? fd = some f)
    (ho : f.offset ≤ (m.volume.root.get slot).size) : n.commit fd slot f.offset = n := by
  obtain ⟨first, hv⟩ := h.volume_eq
  have hf' : n.volume.files.get? fd = some f := by
    rw [hv]
    exact hf
  have ho' : f.offset ≤ (n.volume.root.get slot).size := by
    rw [hv]
    simpa using ho
  simp only [commit, Nat.max_eq_left ho', OpenFiles.moveTo_self hf', Directory.set_eta]

omit [BlockDevice W H] [LawfulBlockDevice W H] in
/-- A write goes on in the state that shows what was stored, if anything was. -/
theorem commit_ends {α : Type} {act : MountedM W H α} {fd reached : Nat}
    {ok : α → Mounted W H → Prop} {err : VolumeError → Mounted W H → Prop}
    (h : Ends act (if 0 < k then m.commit fd slot reached else m) ok err) :
    Ends (do
      if 0 < k then
        updateEntry slot fun e => { e with size := max e.size reached }
        moveTo fd reached
      act) m ok err := by
  split at h
  · rename_i hk
    simp only [if_pos hk]
    exact h
  · rename_i hk
    simp only [if_neg hk]
    exact h

/-- **`k` bytes of `data` were written** through `fd` to the file in `slot`, whose chain was `old`
    and is `new`. -/
def Written (m₀ m : Mounted W H) (fd : Nat) (slot : Slot) (old new : List Link) (offset : Nat)
    (data : ByteArray) (k : Nat) : Prop :=
  ∃ n, Stored m₀ n slot old new offset data k ∧ m = n.commit fd slot (offset + k)

/-- How a write that succeeds ended: it stored all, or as much as there was room for. -/
def Accepted (m : Mounted W H) (offset : Nat) (data : ByteArray) (new : List Link) (k : Nat) :
    Prop :=
  k = data.size ∨
    (0 < k ∧ k < data.size ∧ m.volume.table.lowestFree? = none ∧
      offset + k = new.length * blockSize)

/-- Why a write failed after `k` bytes: there was no room for the first byte, or a call failed. -/
def Refused (m₀ m : Mounted W H) (offset : Nat) (new : List Link) (k : Nat) (e : VolumeError) :
    Prop :=
  (e = .diskFull ∧ k = 0 ∧ m.volume.table.lowestFree? = none ∧ offset = new.length * blockSize ∧
      (m₀.NeverFails → m.NeverFails)) ∨
    (∃ b c, e = .io (m₀.volume.superblock.dataBlock b) c) ∧ (m₀.InRange → ¬ m₀.NeverFails)

/-- **A write, however it ends:** `k` bytes are written and nothing else has changed. -/
theorem write_ends {own : Slot → List Link} {fd : Nat} {f : OpenFile} (h : m.volume.Intact own)
    (hf : m.volume.files.get? fd = some f) (hs : m.volume.root.find? f.name = some slot)
    (data : ByteArray) :
    Ends (write fd data) m
      (fun k m' => ∃ new, Written m m' fd slot (own slot) new f.offset data k ∧
        Accepted m' f.offset data new k ∧ (m.NeverFails → m'.NeverFails))
      (fun e m' => ∃ new k, Written m m' fd slot (own slot) new f.offset data k ∧
        k < data.size ∧ (0 < k → (f.offset + k) % blockSize = 0) ∧
        Refused m m' f.offset new k e) := by
  obtain ⟨slot', hr, hs', ho⟩ := h.resolve_eq hf
  obtain rfl : slot = slot' := Option.some.inj (hs.symm.trans hs')
  have hc := h.allotment.chain slot
  have hlen : ceilDiv f.offset blockSize ≤ (own slot).length := by
    rw [h.length_eq]
    exact ceilDiv_mono ho
  have hstart := Stored.start hc hlen data
  unfold write
  refine Ends.bind_ok (getVolume_run m) ?_
  refine Ends.bind_ok (lookup_eq_ok_iff.mpr ⟨hr, rfl⟩) ?_
  dsimp only
  split
  · rename_i h0
    exact ⟨own slot, ⟨m, hstart, (hstart.toPlaced.commit_eq hf ho).symm⟩, .inl h0.symm, id⟩
  · rename_i h0
    refine Ends.bind_ok (lookup_eq_ok_iff.mpr ⟨chain_eq_ok_iff.mpr hc, rfl⟩) (Ends.bind ?_)
    have hloop := storeSegments_ends h.table_size_le hstart (Nat.zero_le _)
      (fun h1 _ => absurd h1 (Nat.lt_irrefl 0)) id
    refine hloop.mono ?_ fun _ _ hfalse => hfalse.elim
    intro p n hok
    rcases hok with ⟨⟨new, hst, hfin⟩, -⟩
    obtain ⟨k, stopped⟩ := p
    have hw : Written m (n.commit fd slot (f.offset + k)) fd slot (own slot) new f.offset data k :=
      ⟨n, hst, rfl⟩
    -- what is answered is answered in the state that shows the stored bytes
    have hshown : (if 0 < k then n.commit fd slot (f.offset + k) else n) =
        n.commit fd slot (f.offset + k) := by
      split
      · rfl
      · rename_i hk
        obtain rfl := Nat.eq_zero_of_not_pos hk
        exact (hst.toPlaced.commit_eq hf ho).symm
    refine commit_ends ?_
    rw [hshown]
    rcases hfin with ⟨rfl, hall, hnf⟩ | ⟨e, rfl, hlt, hal, hstop⟩
    · exact ⟨new, hw, .inl hall, hnf⟩
    · rcases hstop with ⟨rfl, hlow, hend, hnf⟩ | ⟨⟨b, c, rfl⟩, hfail⟩
      · by_cases hk : 0 < k
        · simp only [if_pos hk]
          exact ⟨new, hw, .inr ⟨hk, hlt, hlow, hend⟩, hnf⟩
        · simp only [if_neg hk]
          have hk0 := Nat.eq_zero_of_not_pos hk
          refine ⟨new, k, hw, hlt, hal, .inl ⟨rfl, hk0, hlow, ?_, hnf⟩⟩
          simpa [hk0] using hend
      · exact ⟨new, k, hw, hlt, hal, .inr ⟨⟨b, c, rfl⟩, hfail⟩⟩

end Mounted

end FlatVolume
