import FlatVolume.Proofs.Flushing
import FlatVolume.Proofs.Regrowth

/-!
# Writing to a file of any volume

The size of a file may promise more blocks than its chain has, so a descriptor may stand past the
end of the chain. A write finds no block for its first piece there and puts it into a new one behind
the chain, and so on with every piece: the bytes go where they would go if the offset lay in the
block behind the chain. That position is `landing blocks offset`.

`Landed m n slot old new offset data p` is where the loop of a write comes to that has begun in `m`,
and `Entered m m' fd f slot old new data k` is what the whole write shows of it: size and offset have
moved on by `k`, and the bytes stand where they landed. A write leaves such a state, however it ends,
as long as the file has a chain (`write_ends_of_chain`); without one it is refused
(`write_of_no_chain`).
-/

namespace FlatVolume

open AllocationTable Bytes FlatVolume.Computation

variable {W H : Type} [BlockDevice W H]

/-! ## 1. Behind the chain -/

/-- Where a write at `offset` begins in a file of so many blocks: there, or at the same place of the
    block that comes to stand behind the others. -/
def landing (blocks offset : Nat) : Nat := min (offset / blockSize) blocks * blockSize + offset % blockSize

theorem landing_mod (blocks offset : Nat) : landing blocks offset % blockSize = offset % blockSize := by
  rw [landing, Nat.mul_add_mod', Nat.mod_mod]

theorem landing_div (blocks offset : Nat) :
    landing blocks offset / blockSize = min (offset / blockSize) blocks := by
  have hmod : offset % blockSize < blockSize := Nat.mod_lt _ (by decide)
  rw [landing]
  simp only [blockSize] at hmod ⊢
  omega

theorem landing_of_le {blocks offset : Nat} (h : offset / blockSize ≤ blocks) :
    landing blocks offset = offset := by
  rw [landing, Nat.min_eq_left h, Nat.div_add_mod']

namespace Mounted

variable {slot : Slot}

/-- Taking a new block makes the chain longer by one. -/
theorem size_of_append {chain chain' : Array Link} {s : Segment} {m m' : Mounted W H}
    (h : append slot chain s m = .ok chain' m') : chain'.size = chain.size + 1 := by
  unfold append at h
  obtain ⟨b, m₁, -, h⟩ := bind_eq_ok_iff.mp h
  obtain ⟨-, m₂, -, h⟩ := bind_eq_ok_iff.mp h
  obtain ⟨-, m₃, -, h⟩ := bind_eq_ok_iff.mp h
  cases h
  exact Array.size_push ..

/-- A piece behind the chain goes into a new block, whatever its number is. -/
theorem storeSegment_of_le {chain : Array Link} {s : Segment} (h : chain.size ≤ s.index) (i : Nat) :
    storeSegment slot chain s (W := W) (H := H) = append slot chain { s with index := i } := by
  unfold storeSegment
  rw [Array.getElem?_eq_none h]
  rfl

/-- **Behind the chain the number of a block does not matter,** only the place in it. -/
theorem storeSegments_congr {chain : Array Link} {pos pos' k : Nat} (data : ByteArray)
    (hmod : pos % blockSize = pos' % blockSize) (h : chain.size ≤ pos / blockSize)
    (h' : chain.size ≤ pos' / blockSize) (m : Mounted W H) :
    storeSegments slot chain (segmentsFrom pos data k) k m =
      storeSegments slot chain (segmentsFrom pos' data k) k m := by
  induction hd : data.size - k using Nat.strongRecOn generalizing k pos pos' chain m with
  | ind d ih =>
    by_cases hdone : data.size ≤ k
    · rw [segmentsFrom, dif_pos hdone, segmentsFrom, dif_pos hdone]
    · have hlt := Nat.lt_of_not_le hdone
      obtain ⟨n, hn⟩ : ∃ n, n = headLength pos (data.size - k) := ⟨_, rfl⟩
      have hn' : n = headLength pos' (data.size - k) := by rw [hn, headLength, headLength, hmod]
      have hn0 : 0 < n := hn ▸ headLength_pos pos (show data.size - k ≠ 0 by omega)
      have hle : n ≤ data.size - k := hn ▸ headLength_le pos (data.size - k)
      have hsz : (data.extract k (k + n)).size = n := by
        rw [ByteArray.size_extract]
        omega
      rw [segmentsFrom_of_lt hlt hn, segmentsFrom_of_lt hlt hn']
      unfold storeSegments
      rw [storeSegment_of_le h 0, storeSegment_of_le h' 0, hmod]
      cases hx : append slot chain ⟨0, pos' % blockSize, data.extract k (k + n)⟩ m with
      | error e m' => rfl
      | ok chain' m' =>
        dsimp only
        rw [hsz]
        by_cases hrest : data.size ≤ k + n
        · rw [segmentsFrom, dif_pos hrest, segmentsFrom, dif_pos hrest]
        · -- the piece filled its block, so both go on at the beginning of one
          have hsize := size_of_append hx
          have hcut : pos % blockSize + n = blockSize :=
            hn ▸ mod_add_headLength_eq (show headLength _ _ < _ by omega)
          refine ih (data.size - (k + n)) (by omega) ?_ ?_ ?_ m' rfl
          · simp only [blockSize] at hcut hmod ⊢
            omega
          · simp only [blockSize] at hcut h ⊢
            omega
          · simp only [blockSize] at hcut hmod h' ⊢
            omega

/-! ## 2. The loop on any volume -/

variable [LawfulBlockDevice W H] {m : Mounted W H} {old : List Link} {data : ByteArray}

/-- What stopped a write: no block was free, or a call failed. -/
def Halted (m₀ m : Mounted W H) (e : VolumeError) : Prop :=
  (e = .diskFull ∧ m.volume.table.lowestFree? = none ∧ (m₀.NeverFails → m.NeverFails)) ∨
    (∃ b c, e = .io (m₀.volume.superblock.dataBlock b) c) ∧ (m₀.InRange → ¬ m₀.NeverFails)

/-- **How a write to a file with the chain `old` ended,** as far as `p` says: what was written stands
    where it lands, in a chain that is just long enough. Where nothing was, memory is as it was. -/
structure Landed (m n : Mounted W H) (slot : Slot) (old new : List Link) (offset : Nat)
    (data : ByteArray) (p : Progress) : Prop where
  placed : Placed m n slot old new (landing old.length offset) data p.written
  length_eq : 0 < p.written →
    new.length = max old.length (ceilDiv (landing old.length offset + p.written) blockSize)
  unwritten : p.written = 0 → n.volume = m.volume
  finished : (p.stopped = none ∧ p.written = data.size ∧ (m.NeverFails → n.NeverFails)) ∨
    ∃ e, p.stopped = some e ∧ p.written < data.size ∧ Halted m n e

theorem Landed.of_finished {n : Mounted W H} {new : List Link} {offset pos : Nat} {p : Progress}
    (hpos : pos = landing old.length offset) (h : Stored m n slot old new pos data p.written)
    (hfin : Finished m n pos data new p) (hmem : p.written = 0 → n.volume = m.volume) :
    Landed m n slot old new offset data p where
  placed := hpos ▸ h.toPlaced
  length_eq _ := hpos ▸ h.length_eq
  unwritten := hmem
  finished := by
    rcases hfin with hall | ⟨e, he, hlt, -, hstop⟩
    · exact .inl hall
    · refine .inr ⟨e, he, hlt, ?_⟩
      rcases hstop with ⟨hfull, hlow, -, hnf⟩ | hfail
      · exact .inl ⟨hfull, hlow, hnf⟩
      · exact .inr hfail

/-- The loop of a write that begins behind the last full block of the chain. -/
theorem storeSegments_ends_of_behind (hs : m.volume.table.size ≤ 65535)
    (hc : Chain m.volume.table (m.volume.root.get slot).firstBlock old) (hd : 0 < data.size)
    {pos offset : Nat} (hpos : pos = landing old.length offset)
    (hdiv : pos / blockSize = old.length) :
    Ends (storeSegments slot old.toArray (segments pos data) 0) m
      (fun p n => ∃ new, Landed m n slot old new offset data p) (fun _ _ => False) := by
  obtain ⟨n, hn⟩ : ∃ n, n = headLength pos (data.size - 0) := ⟨_, rfl⟩
  have hn0 : 0 < n := hn ▸ headLength_pos pos (show data.size - 0 ≠ 0 by omega)
  have hle : n ≤ data.size - 0 := hn ▸ headLength_le pos (data.size - 0)
  have hspan : pos % blockSize + n ≤ blockSize := hn ▸ mod_add_headLength_le pos (data.size - 0)
  have hsz : (data.extract 0 (0 + n)).size = n := by
    rw [ByteArray.size_extract]
    omega
  have hstart : Placed m m slot old old pos data 0 := .start hc pos data
  have hchain : old.toArray.size ≤ pos / blockSize := by
    rw [List.size_toArray, hdiv]
  rw [segments, segmentsFrom_of_lt hd hn]
  unfold storeSegments
  rw [storeSegment_of_le hchain 0]
  have happend := append_ends hs hc (s := ⟨0, pos % blockSize, data.extract 0 (0 + n)⟩)
  unfold Ends at happend ⊢
  cases hx : append slot old.toArray ⟨0, pos % blockSize, data.extract 0 (0 + n)⟩ m with
  | error e m' =>
    simp only [hx] at happend ⊢
    have hstop : Placed m m' slot old old pos data 0 ∧ m'.volume = m.volume ∧ Halted m m' e := by
      rcases happend with ⟨rfl, hlow, rfl⟩ | hf
      · exact ⟨hstart, rfl, .inl ⟨rfl, hlow, id⟩⟩
      · exact ⟨hstart.of_failed hf, hf.volume_eq, .inr ⟨hf.error_eq, hf.fails⟩⟩
    obtain ⟨hplaced, hmem, hhalt⟩ := hstop
    exact ⟨old, hpos ▸ hplaced, fun h => absurd h (Nat.lt_irrefl 0), fun _ => hmem,
      .inr ⟨e, rfl, hd, hhalt⟩⟩
  | ok chain m' =>
    simp only [hx] at happend ⊢
    obtain ⟨b, w, hlow, rfl, rfl, ha⟩ := happend
    have hfree := freeBlock_of_lowestFree? hs hlow
    have hplaced := hstart.appended hfree hdiv hspan (by omega) ha
    have hst : Stored m ⟨m.volume.grown slot old b, w⟩ slot old (old ++ [b]) pos data (0 + n) := by
      refine ⟨hplaced, ?_⟩
      rw [List.length_append, List.length_singleton, ← hdiv]
      simp only [ceilDiv, blockSize] at hspan ⊢
      omega
    have hloop := storeSegments_ends hs hst (by omega) (fun _ hlt => ?_) ha.neverFails
    · rw [hsz]
      unfold Ends at hloop
      rw [← Nat.add_assoc, Nat.add_zero] at hloop
      cases hy : storeSegments slot (old ++ [b]).toArray (segmentsFrom (pos + n) data (0 + n)) (0 + n)
          ⟨m.volume.grown slot old b, w⟩ with
      | error e m'' => simp only [hy] at hloop
      | ok p m'' =>
        simp only [hy] at hloop ⊢
        obtain ⟨⟨new, hst', hfin⟩, hle', -⟩ := hloop
        exact ⟨new, .of_finished hpos hst' hfin fun h0 => by omega⟩
    · have hcut : pos % blockSize + n = blockSize :=
        hn ▸ mod_add_headLength_eq (show headLength _ _ < _ by omega)
      simp only [blockSize] at hcut ⊢
      omega

/-- **The loop of a write on any volume.** -/
theorem storeSegments_ends_of_chain (hs : m.volume.table.size ≤ 65535)
    (hc : Chain m.volume.table (m.volume.root.get slot).firstBlock old) (hd : 0 < data.size)
    (offset : Nat) : Ends (storeSegments slot old.toArray (segments offset data) 0) m
      (fun p n => ∃ new, Landed m n slot old new offset data p) (fun _ _ => False) := by
  by_cases ho : ceilDiv offset blockSize ≤ old.length
  · have hle : offset / blockSize ≤ old.length := by
      simp only [ceilDiv, blockSize] at ho ⊢
      omega
    have hloop := storeSegments_ends hs (Stored.start hc ho data) (Nat.zero_le _)
      (fun h _ => absurd h (Nat.lt_irrefl 0)) id
    refine hloop.mono ?_ fun _ _ h => h
    intro p n hok
    rcases hok with ⟨⟨new, hst, hfin⟩, -, hmem⟩
    exact ⟨new, .of_finished (landing_of_le hle).symm hst hfin hmem⟩
  · have hge : old.length ≤ offset / blockSize := by
      simp only [ceilDiv, blockSize] at ho ⊢
      omega
    have hdiv : landing old.length offset / blockSize = old.length := by
      rw [landing_div, Nat.min_eq_right hge]
    have hcongr : storeSegments slot old.toArray (segmentsFrom offset data 0) 0 m =
        storeSegments slot old.toArray (segmentsFrom (landing old.length offset) data 0) 0 m :=
      storeSegments_congr data (landing_mod old.length offset).symm (by rwa [List.size_toArray])
        (by rw [List.size_toArray, hdiv]) m
    have hends := storeSegments_ends_of_behind hs hc hd rfl hdiv
    unfold Ends segments at hends ⊢
    rw [hcongr]
    exact hends

/-! ## 3. The whole write -/

/-- **`k` bytes of `data` were written** through `fd`, which was bound to `f`, to the file in `slot`.
    Its chain was `old` and is `new`. -/
structure Entered (m m' : Mounted W H) (fd : Nat) (f : OpenFile) (slot : Slot) (old new : List Link)
    (data : ByteArray) (k : Nat) : Prop where
  device_eq : m'.volume.device = m.volume.device
  superblock_eq : m'.volume.superblock = m.volume.superblock
  resolve_eq : m'.volume.resolve fd = .ok (⟨f.name, f.offset + k⟩, slot)
  size_eq : (m'.volume.root.get slot).size = max (m.volume.root.get slot).size (f.offset + k)
  chain_before : Chain m.volume.table (m.volume.root.get slot).firstBlock old
  chain_after : Chain m'.volume.table (m'.volume.root.get slot).firstBlock new
  length_eq : 0 < k →
    new.length = max old.length (ceilDiv (landing old.length f.offset + k) blockSize)
  touched : Touched (fun i => ∃ b ∈ new, i = m.volume.superblock.dataBlock b) m.storage m'.storage
  bytes : ∀ p, byteOn m.volume.superblock m'.storage new p =
    if landing old.length f.offset ≤ p ∧ p < landing old.length f.offset + k then
      byteAt data (p - landing old.length f.offset)
    else byteOn m.volume.superblock m.storage old p

theorem Landed.entered {n : Mounted W H} {new : List Link} {fd : Nat} {f : OpenFile} {p : Progress}
    (h : Landed m n slot old new f.offset data p) (hr : m.volume.resolve fd = .ok (f, slot))
    (hc : Chain m.volume.table (m.volume.root.get slot).firstBlock old) :
    Entered m (n.commit fd slot (f.offset + p.written)) fd f slot old new data p.written := by
  obtain ⟨hf, hs⟩ := Volume.resolve_eq_ok_iff.mp hr
  obtain ⟨first, hv⟩ := h.placed.volume_eq
  have hname : n.volume.root.find? f.name = some slot := by
    rw [hv]
    exact (Directory.find?_set_of_name_eq (by rfl) _).trans hs
  have hbound : n.volume.files.get? fd = some f := by
    rw [hv]
    exact hf
  have hsize : (n.volume.root.get slot).size = (m.volume.root.get slot).size := by
    rw [hv]
    simp only [Directory.get_set_self]
  refine ⟨h.placed.device_eq, h.placed.superblock_eq, Volume.resolve_eq_ok_iff.mpr ⟨?_, ?_⟩, ?_, hc,
    ?_, h.length_eq, ⟨h.placed.shape, fun i hi => ?_⟩, h.placed.bytes⟩
  · show (n.volume.files.moveTo fd (f.offset + p.written)).get? fd = _
    rw [OpenFiles.get?_moveTo, if_pos rfl, hbound]
    rfl
  · exact (Directory.find?_set_of_name_eq (by rfl) _).trans hname
  · simp only [commit, Directory.get_set_self, hsize]
  · have hchain := h.placed.chain
    simp only [commit, Directory.get_set_self]
    exact hchain
  · exact h.placed.frame i fun b hb he => hi ⟨b, hb, he⟩

/-- **A write to a file that has a chain, however it ends.** -/
theorem write_ends_of_chain {fd : Nat} {f : OpenFile} (ht : m.volume.Tidy)
    (hr : m.volume.resolve fd = .ok (f, slot))
    (hc : Chain m.volume.table (m.volume.root.get slot).firstBlock old) (hd : 0 < data.size) :
    Ends (write fd data) m
      (fun k m' => ∃ new, Entered m m' fd f slot old new data k ∧ 0 < k ∧ k ≤ data.size ∧
        (m.NeverFails → m'.NeverFails))
      (fun e m' => ∃ new k, Entered m m' fd f slot old new data k ∧ k < data.size ∧
        ((e = .diskFull ∧ k = 0 ∧ m.volume.table.lowestFree? = none) ∨
          (∃ b c, e = .io (m.volume.superblock.dataBlock b) c) ∧ (m.InRange → ¬ m.NeverFails))) := by
  obtain ⟨hf, hs⟩ := Volume.resolve_eq_ok_iff.mp hr
  have ho := ht.offset_le hr
  unfold write
  refine Ends.bind_ok (getVolume_run m) (Ends.bind_ok (lookup_eq_ok_iff.mpr ⟨hr, rfl⟩) ?_)
  dsimp only
  rw [if_neg (Nat.ne_of_gt hd)]
  refine Ends.bind_ok (lookup_eq_ok_iff.mpr ⟨chain_eq_ok_iff.mpr hc, rfl⟩) (Ends.bind ?_)
  refine (storeSegments_ends_of_chain ht.table_size_le hc hd f.offset).mono ?_ fun _ _ h => h.elim
  intro p n hok
  rcases hok with ⟨new, hl⟩
  have he := hl.entered hr hc
  obtain ⟨k, stopped⟩ := p
  dsimp only at he
  have hshown : (if 0 < k then n.commit fd slot (f.offset + k) else n) =
      n.commit fd slot (f.offset + k) := by
    split
    · rfl
    · rename_i hk
      obtain rfl := Nat.eq_zero_of_not_pos hk
      exact (hl.placed.commit_eq hf ho).symm
  refine commit_ends ?_
  rw [hshown]
  rcases hl.finished with ⟨hstop, hall, hnf⟩ | ⟨e, hstop, hlt, hhalt⟩
  · dsimp only at hstop hall
    subst hstop
    exact ⟨new, he, hall ▸ hd, Nat.le_of_eq hall, hnf⟩
  · dsimp only at hstop hlt
    subst hstop
    rcases hhalt with ⟨rfl, hlow, hnf⟩ | ⟨⟨b, c, rfl⟩, hfail⟩
    · by_cases hk : 0 < k
      · simp only [if_pos hk]
        exact ⟨new, he, hk, Nat.le_of_lt hlt, hnf⟩
      · simp only [if_neg hk]
        obtain rfl := Nat.eq_zero_of_not_pos hk
        rw [hl.unwritten rfl] at hlow
        exact ⟨new, 0, he, hlt, .inl ⟨rfl, rfl, hlow⟩⟩
    · exact ⟨new, k, he, hlt, .inr ⟨⟨b, c, rfl⟩, hfail⟩⟩

omit [LawfulBlockDevice W H] in
/-- **A write to a file that has none is refused,** and nothing is written. -/
theorem write_of_no_chain {fd : Nat} {f : OpenFile} (hr : m.volume.resolve fd = .ok (f, slot))
    (hd : 0 < data.size)
    (hc : ¬ ∃ blocks, Chain m.volume.table (m.volume.root.get slot).firstBlock blocks) :
    ∃ b, write fd data m = .error (.corruptChain b) m := by
  cases hchain : m.volume.table.chain (m.volume.root.get slot).firstBlock with
  | ok blocks => exact absurd ⟨blocks, chain_eq_ok_iff.mp hchain⟩ hc
  | error e =>
    obtain ⟨b, rfl⟩ := walk_eq_error hchain
    refine ⟨b, ?_⟩
    unfold write
    rw [bind_of_ok (getVolume_run m), bind_of_ok (lookup_eq_ok_iff.mpr ⟨hr, rfl⟩)]
    dsimp only
    rw [if_neg (Nat.ne_of_gt hd), hchain]
    rfl

omit [LawfulBlockDevice W H] in
/-- Writing nothing does nothing. -/
theorem write_of_size_eq_zero {fd : Nat} {f : OpenFile} (hr : m.volume.resolve fd = .ok (f, slot))
    (hd : data.size = 0) : write fd data m = .ok 0 m := by
  unfold write
  rw [bind_of_ok (getVolume_run m), bind_of_ok (lookup_eq_ok_iff.mpr ⟨hr, rfl⟩)]
  dsimp only
  rw [if_pos hd]
  rfl

end Mounted

end FlatVolume
