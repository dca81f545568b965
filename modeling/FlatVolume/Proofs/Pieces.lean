import FlatVolume.Proofs.Formatting
import FlatVolume.Proofs.Placement

/-!
# Reading and writing in pieces

Data that is written in one call goes through whole new blocks; written in pieces it goes through
blocks that were read, changed and stored again, and the chain is collected anew for each piece. On
an intact volume whose device does not fail both come to the same, also where the volume becomes
full on the way. This file fixes

* `Computation.after` -- the state that calls leave, one after the other;
* `Mounted.Filled m m' fd slot old new offset data k` -- from `m` to `m'` the first `k` bytes of
  `data` were written through `fd`, as many as there was room for, into the chain and the lowest free
  blocks;
* `Filled.trans` and `Filled.unique` -- two writes in a row are such a write, and what it leaves is
  determined;
* `FileSystem.pieces_make_no_difference` -- so the pieces do not matter, nor do they in reading.
-/

namespace FlatVolume

open AllocationTable Bytes FlatVolume.Computation
open FileSystem (ofMounted ofWorld onVolume_ends)
open LawfulBlockDevice (storage)

/-! ## 1. Calls one after the other -/

namespace Computation

variable {ε σ α γ : Type} {run : γ → EStateM ε σ α}

/-- The state that a list of calls leaves. A call that fails leaves its state to the next one. -/
def after (run : γ → EStateM ε σ α) (calls : List γ) (s : σ) : σ :=
  calls.foldl (fun s call => stateAfter (run call) s) s

theorem length_answers (run : γ → EStateM ε σ α) (calls : List γ) (s : σ) :
    (answers run calls s).length = calls.length := by
  induction calls generalizing s with
  | nil => rfl
  | cons call calls ih =>
    unfold answers
    split <;> exact congrArg (· + 1) (ih _)

/-- What holds of each end of a call holds of its answer and of the state in which the others
    begin. -/
theorem Ends.answers_cons {call : γ} {s : σ} {P : Except ε α → σ → Prop}
    (h : Ends (run call) s (fun a t => P (.ok a) t) fun e t => P (.error e) t) (calls : List γ) :
    ∃ r t, P r t ∧ answers run (call :: calls) s = r :: answers run calls t ∧
      after run (call :: calls) s = after run calls t := by
  unfold Ends at h
  rw [answers, after, List.foldl_cons, Computation.stateAfter]
  cases hx : run call s with
  | ok a t =>
    rw [hx] at h
    exact ⟨_, t, h, rfl, rfl⟩
  | error e t =>
    rw [hx] at h
    exact ⟨_, t, h, rfl, rfl⟩

end Computation

/-! ## 2. What a chain and a frame determine -/

namespace AllocationTable

variable {t t₁ t₂ : AllocationTable} {first₁ first₂ : Link} {blocks old added more : List Link}

/-- The blocks of a chain say where it begins. -/
theorem Chain.first_unique (h₁ : Chain t₁ first₁ blocks) (h₂ : Chain t₂ first₂ blocks) :
    first₁ = first₂ := by
  cases h₁ <;> cases h₂ <;> rfl

/-- The blocks of a chain say what stands in their entries. -/
theorem Chain.link?_unique (h₁ : Chain t₁ first₁ blocks) (h₂ : Chain t₂ first₂ blocks) :
    ∀ b ∈ blocks, t₁.link? b = t₂.link? b := by
  induction h₁ generalizing first₂ with
  | done => exact fun b hb => absurd hb List.not_mem_nil
  | step _ link₁ tail₁ ih =>
    cases h₂ with
    | step _ link₂ tail₂ =>
      intro b hb
      rcases List.mem_cons.mp hb with rfl | hb
      · rw [link₁, link₂, tail₁.first_unique tail₂]
      · exact ih tail₂ b hb

/-- As many blocks are free less as were added. -/
theorem Extended.card_freeBlocks (h : Extended t t₁ old added) :
    (freeBlocks t).card = added.length + (freeBlocks t₁).card := by
  have hl := congrArg List.length h.taken
  rwa [List.length_append, List.length_map, freeInOrder, freeInOrder, Finset.length_sort,
    Finset.length_sort] at hl

/-- How many blocks are added says which. -/
theorem Extended.added_unique (h₁ : Extended t t₁ old added) (h₂ : Extended t t₂ old more)
    (hl : added.length = more.length) : added = more := by
  have hmap : added.map UInt16.toNat = more.map UInt16.toNat := by
    rw [h₁.map_added, h₂.map_added, hl]
  exact List.map_injective_iff.mpr (fun _ _ h => UInt16.toNat_inj.mp h) hmap

/-- **The blocks that were added determine the table.** -/
theorem Extended.unique (h₁ : Extended t t₁ old added) (h₂ : Extended t t₂ old added)
    (c₁ : Chain t₁ first₁ (old ++ added)) (c₂ : Chain t₂ first₂ (old ++ added)) : t₁ = t₂ := by
  refine ext_getElem? fun i => ?_
  by_cases hi : ∃ b ∈ old ++ added, i = b.toNat
  · obtain ⟨b, hb, rfl⟩ := hi
    obtain ⟨n, link⟩ := c₁.link_of_mem hb
    rw [(link?_eq_some_iff.mp link).2.1, (link?_eq_some_iff.mp (c₁.link?_unique c₂ b hb ▸ link)).2.1]
  · -- an entry off the chain is that of `t`
    have ha : ∀ b ∈ added, i ≠ b.toNat := fun b hb e => hi ⟨b, List.mem_append_right _ hb, e⟩
    have ho : ∀ l, old.getLast? = some l → i ≠ l.toNat := fun l hlast e =>
      hi ⟨l, List.mem_append_left _ (List.mem_of_getLast? hlast), e⟩
    rw [h₁.frame i ha ho, h₂.frame i ha ho]

end AllocationTable

/-- Moving a descriptor twice is moving it to the second place. -/
theorem OpenFiles.moveTo_moveTo (t : OpenFiles) (fd offset offset' : Nat) :
    (t.moveTo fd offset).moveTo fd offset' = t.moveTo fd offset' := by
  refine ext_get? fun fd' => ?_
  simp only [get?_moveTo]
  split
  · cases t.get? fd <;> rfl
  · rfl

/-- Storages of one shape that agree in every block. -/
theorem SameShape.eq_of_block {st st₁ st₂ : Storage} (h₁ : SameShape st st₁)
    (h₂ : SameShape st st₂) (hb : ∀ i, st₁.block i = st₂.block i) : st₁ = st₂ := by
  obtain ⟨n₁, s₁, w₁, b₁⟩ := st₁
  obtain ⟨n₂, s₂, w₂, b₂⟩ := st₂
  obtain rfl : n₁ = n₂ := h₁.blockCount_eq.trans h₂.blockCount_eq.symm
  obtain rfl : s₁ = s₂ := h₁.blockBytes_eq.trans h₂.blockBytes_eq.symm
  obtain rfl : w₁ = w₂ := h₁.whole_eq.trans h₂.whole_eq.symm
  obtain rfl : b₁ = b₂ := funext hb
  rfl

variable {W H : Type} [BlockDevice W H] [LawfulBlockDevice W H]

namespace Mounted

/-! ## 3. Two writes in a row -/

section Written

variable {m m₁ m₂ : Mounted W H} {fd offset k k₁ k₂ : Nat} {slot : Slot} {old mid new : List Link}
  {a b data : ByteArray}

/-- The volume in which a write shows what it has stored. -/
def shown (m : Mounted W H) (fd : Nat) (slot : Slot) (reached : Nat) (t : AllocationTable)
    (first : Link) : Volume H :=
  { m.volume with
    table := t
    root := m.volume.root.set slot
      ⟨(m.volume.root.get slot).name, max (m.volume.root.get slot).size reached, first⟩
    files := m.volume.files.moveTo fd reached }

omit [BlockDevice W H] [LawfulBlockDevice W H] in
/-- What is shown later covers what was shown before. -/
theorem shown_of_shown {reached reached' : Nat} {t t' : AllocationTable} {first first' : Link}
    (h : m₁.volume = m.shown fd slot reached t first) (hle : reached ≤ reached') :
    m₁.shown fd slot reached' t' first' = m.shown fd slot reached' t' first' := by
  have hmax : max (max (m.volume.root.get slot).size reached) reached' =
      max (m.volume.root.get slot).size reached' := by omega
  simp only [shown, h, Directory.get_set_self, Directory.set_set, OpenFiles.moveTo_moveTo, hmax]

/-- **All that a write changes of a volume in memory** are its table, one entry and one offset. -/
theorem Written.volume_eq (h : Written m m₁ fd slot old new offset data k) :
    ∃ first, Chain m₁.volume.table first new ∧
      m₁.volume = m.shown fd slot (offset + k) m₁.volume.table first := by
  obtain ⟨n, hst, rfl⟩ := h
  obtain ⟨first, hv⟩ := hst.volume_eq
  have hentry : n.volume.root.get slot = { m.volume.root.get slot with firstBlock := first } := by
    rw [congrArg Volume.root hv, Directory.get_set_self]
  have hc := hst.chain
  rw [hentry] at hc
  refine ⟨first, hc, ?_⟩
  simp only [commit, shown, hentry]
  rw [congrArg Volume.root hv, Directory.set_set, congrArg Volume.files hv,
    congrArg Volume.superblock hv, congrArg Volume.device hv]

theorem Written.shape (h : Written m m₁ fd slot old new offset data k) :
    SameShape m.storage m₁.storage := by
  obtain ⟨n, hst, rfl⟩ := h
  exact hst.shape

theorem Written.frame (h : Written m m₁ fd slot old new offset data k) (i : Nat)
    (hi : ∀ b ∈ new, i ≠ m.volume.superblock.dataBlock b) :
    m₁.storage.block i = m.storage.block i := by
  obtain ⟨n, hst, rfl⟩ := h
  exact hst.frame i hi

theorem Written.grown (h : Written m m₁ fd slot old new offset data k) : old <+: new := by
  obtain ⟨n, hst, rfl⟩ := h
  exact hst.grown

theorem Written.rechained (h : Written m m₁ fd slot old new offset data k) :
    Rechained m.volume.table m₁.volume.table old new := by
  obtain ⟨n, hst, rfl⟩ := h
  exact hst.rechained

theorem Written.device_eq (h : Written m m₁ fd slot old new offset data k) :
    m₁.volume.device = m.volume.device := by
  obtain ⟨first, -, hv⟩ := h.volume_eq
  rw [hv]
  rfl

theorem Written.superblock_eq (h : Written m m₁ fd slot old new offset data k) :
    m₁.volume.superblock = m.volume.superblock := by
  obtain ⟨first, -, hv⟩ := h.volume_eq
  rw [hv]
  rfl

/-- **Two writes in a row are one** of what both have written. -/
theorem Written.trans (h₁ : Written m m₁ fd slot old mid offset a k₁)
    (h₂ : Written m₁ m₂ fd slot mid new (offset + k₁) b k₂)
    (ha : ∀ i < k₁, byteAt data i = byteAt a i) (hb : ∀ i < k₂, byteAt data (k₁ + i) = byteAt b i) :
    Written m m₂ fd slot old new offset data (k₁ + k₂) := by
  obtain ⟨first₁, -, v₁⟩ := h₁.volume_eq
  obtain ⟨first, hc, v₂⟩ := h₂.volume_eq
  rw [shown_of_shown v₁ (Nat.le_add_right _ k₂), Nat.add_assoc] at v₂
  -- before size and offset are entered, they are those of the beginning
  obtain ⟨n, hn⟩ : ∃ n : Mounted W H, n = ⟨{ m.volume with
      table := m₂.volume.table
      root := m.volume.root.set slot { m.volume.root.get slot with firstBlock := first } },
    m₂.world⟩ := ⟨_, rfl⟩
  have hst : n.storage = m₂.storage := by
    rw [hn, storage, storage, congrArg Volume.device v₂]
    rfl
  refine ⟨n, ⟨⟨⟨first, by rw [hn]⟩, ?_, ?_, h₁.grown.trans h₂.grown, ?_, fun i hi => ?_,
    fun p => ?_⟩, ?_⟩, ?_⟩
  · rw [hn, Directory.get_set_self]
    exact hc
  · rw [hn]
    exact h₁.rechained.trans h₂.rechained h₁.grown.subset h₂.grown.subset
  · rw [hst]
    exact h₁.shape.trans h₂.shape
  · rw [hst]
    refine (h₂.frame i fun c hc => ?_).trans (h₁.frame i fun c hc => hi c (h₂.grown.subset hc))
    rw [h₁.superblock_eq]
    exact hi c hc
  · have hbytes := h₂.bytes p
    rw [h₁.superblock_eq] at hbytes
    rw [hst, hbytes]
    by_cases hin₂ : offset + k₁ ≤ p ∧ p < offset + k₁ + k₂
    · rw [if_pos hin₂, if_pos (by omega), ← hb (p - (offset + k₁)) (by omega)]
      congr 1
      omega
    · rw [if_neg hin₂, h₁.bytes p]
      by_cases hin₁ : offset ≤ p ∧ p < offset + k₁
      · rw [if_pos hin₁, if_pos (by omega), ha _ (by omega)]
      · rw [if_neg hin₁, if_neg (by omega)]
  · have hl₁ := h₁.length_eq
    have hl₂ := h₂.length_eq
    have hmono := ceilDiv_mono (show offset + k₁ ≤ offset + (k₁ + k₂) by omega)
    rw [Nat.add_assoc] at hl₂
    omega
  · obtain ⟨v, w⟩ := m₂
    simp only at v₂ hn ⊢
    rw [v₂, hn]
    simp only [commit, shown, Directory.get_set_self, Directory.set_set]

/-- **As many bytes of `data` as there is room for** were written through `fd`, into the blocks `old`
    of the file in `slot` and the lowest free ones. -/
structure Filled (m m₁ : Mounted W H) (fd : Nat) (slot : Slot) (old new : List Link) (offset : Nat)
    (data : ByteArray) (k : Nat) : Prop where
  written : Written m m₁ fd slot old new offset data k
  extended : ∃ added, new = old ++ added ∧ Extended m.volume.table m₁.volume.table old added
  room_eq : k = min data.size
    ((old.length + (freeBlocks m.volume.table).card) * blockSize - offset)

/-- **Two such writes in a row are one:** the second has the room that the first has left. -/
theorem Filled.trans (h₁ : Filled m m₁ fd slot old mid offset a k₁)
    (h₂ : Filled m₁ m₂ fd slot mid new (offset + k₁) b k₂) :
    Filled m m₂ fd slot old new offset (a ++ b) (k₁ + k₂) := by
  obtain ⟨added, rfl, he₁⟩ := h₁.extended
  obtain ⟨more, rfl, he₂⟩ := h₂.extended
  have hcard := he₁.card_freeBlocks
  have hroom₁ := h₁.room_eq
  have hroom₂ := h₂.room_eq
  have htotal : (old ++ added).length + (freeBlocks m₁.volume.table).card =
      old.length + (freeBlocks m.volume.table).card := by
    rw [List.length_append]
    omega
  rw [htotal] at hroom₂
  refine ⟨h₁.written.trans h₂.written (fun i hi => byteAt_append_left (by omega)) fun i hi => ?_,
    ⟨added ++ more, List.append_assoc .., he₁.trans he₂⟩, ?_⟩
  · -- where there is room for more, all of the first piece was written
    obtain rfl : k₁ = a.size := by omega
    exact byteAt_append_right a b i
  · rw [ByteArray.size_append]
    omega

/-- **What such a write leaves is determined:** the volume in memory and every block. -/
theorem Filled.unique {new₁ new₂ : List Link} (h₁ : Filled m m₁ fd slot old new₁ offset data k₁)
    (h₂ : Filled m m₂ fd slot old new₂ offset data k₂) :
    k₁ = k₂ ∧ m₁.volume = m₂.volume ∧ m₁.storage = m₂.storage := by
  obtain rfl : k₁ = k₂ := h₁.room_eq.trans h₂.room_eq.symm
  obtain ⟨added₁, rfl, he₁⟩ := h₁.extended
  obtain ⟨added₂, rfl, he₂⟩ := h₂.extended
  have hl₁ := h₁.written.length_eq
  have hl₂ := h₂.written.length_eq
  rw [List.length_append] at hl₁ hl₂
  obtain rfl : added₁ = added₂ := he₁.added_unique he₂ (by omega)
  obtain ⟨first₁, hc₁, hv₁⟩ := h₁.written.volume_eq
  obtain ⟨first₂, hc₂, hv₂⟩ := h₂.written.volume_eq
  refine ⟨rfl, ?_, h₁.written.shape.eq_of_block h₂.written.shape fun i => ?_⟩
  · rw [hv₁, hv₂, he₁.unique he₂ hc₁ hc₂, hc₁.first_unique hc₂]
  · by_cases hi : ∃ b ∈ old ++ added₁, i = m.volume.superblock.dataBlock b
    · -- a block of the chain holds bytes of the file
      obtain ⟨b, hb, rfl⟩ := hi
      obtain ⟨j, hj⟩ := List.mem_iff_getElem?.mp hb
      refine Block.ext_byteAt fun p hp => ?_
      rw [h₁.written.byteAt_block hj hp, h₂.written.byteAt_block hj hp]
    · have hout : ∀ b ∈ old ++ added₁, i ≠ m.volume.superblock.dataBlock b :=
        fun b hb e => hi ⟨b, hb, e⟩
      rw [h₁.written.frame i hout, h₂.written.frame i hout]

end Written

/-! ## 4. Writing in pieces -/

section Faithful

variable {m : Mounted W H} {slot : Slot} {old : List Link} {fd : Nat} {f : OpenFile}

/-- A write of nothing. -/
theorem Filled.refl {own : Slot → List Link} (h : m.volume.Intact own)
    (hr : m.volume.resolve fd = .ok (f, slot)) :
    Filled m m fd slot (own slot) (own slot) f.offset ByteArray.empty 0 := by
  have ho : f.offset ≤ (m.volume.root.get slot).size := h.offset_le hr
  have hlen : ceilDiv f.offset blockSize ≤ (own slot).length := by
    rw [h.length_eq]
    exact ceilDiv_mono ho
  have hstart := Stored.start (h.allotment.chain slot) hlen ByteArray.empty
  refine ⟨⟨m, hstart, ?_⟩, ⟨[], (List.append_nil _).symm, .refl _ _⟩, (Nat.zero_min _).symm⟩
  exact (hstart.toPlaced.commit_eq (Volume.resolve_eq_ok_iff.mp hr).1 ho).symm

/-- A write that stored all, or stopped where no block was free, filled the room. -/
theorem Filled.of_written {m' : Mounted W H} {added : List Link} {offset k : Nat} {data : ByteArray}
    (hw : Written m m' fd slot old (old ++ added) offset data k)
    (he : Extended m.volume.table m'.volume.table old added)
    (hk : k = data.size ∨ k ≤ data.size ∧ m'.volume.table.lowestFree? = none ∧
      offset + k = (old ++ added).length * blockSize) :
    Filled m m' fd slot old (old ++ added) offset data k := by
  refine ⟨hw, ⟨added, rfl, he⟩, ?_⟩
  have hpos := hw.position_le
  rw [he.card_freeBlocks, ← Nat.add_assoc, ← List.length_append]
  rcases hk with rfl | ⟨hle, hfull, hend⟩
  · simp only [blockSize] at hpos ⊢
    omega
  · rw [card_freeBlocks_eq_zero_iff.mpr hfull, Nat.add_zero, ← hend]
    omega

/-- **A write to a faithful volume** writes what there is room for, and fails where that is nothing. -/
theorem write_fills (h : m.Faithful)
    (hc : Chain m.volume.table (m.volume.root.get slot).firstBlock old)
    (hr : m.volume.resolve fd = .ok (f, slot)) (data : ByteArray) :
    Ends (write fd data) m
      (fun k m' => (0 < data.size → 0 < k) ∧ m'.Faithful ∧
        ∃ new, Filled m m' fd slot old new f.offset data k)
      (fun e m' => e = .diskFull ∧ 0 < data.size ∧ m'.Faithful ∧
        ∃ new, Filled m m' fd slot old new f.offset data 0) := by
  obtain ⟨own, hi⟩ := h.intact
  obtain rfl := (hi.allotment.chain slot).unique hc
  obtain ⟨hf, hs⟩ := Volume.resolve_eq_ok_iff.mp hr
  have hfaithful : ∀ {m' : Mounted W H} {new : List Link} {k : Nat},
      Written m m' fd slot (own slot) new f.offset data k → (m.NeverFails → m'.NeverFails) →
        m'.Faithful := fun hw hn =>
    h.of_refiled hi (hw.tidy hi hf hs) (hw.refiled hi) (hw.touched hi).shape.blockCount_eq
      (hn h.neverFails)
  refine (write_places hi hr data).mono ?_ ?_
  · intro k m' hok
    obtain ⟨added, he, hw, ha, hn⟩ := hok
    refine ⟨fun hpos => ?_, hfaithful hw hn, _, .of_written hw he (ha.imp_right ?_)⟩
    · rcases ha with rfl | ⟨hk, -⟩
      · exact hpos
      · exact hk
    · rintro ⟨-, hlt, hfull, hend⟩
      exact ⟨Nat.le_of_lt hlt, hfull, hend⟩
  · intro e m' herr
    obtain ⟨added, k, he, hw, hlt, ⟨rfl, rfl, hfull, hend, hn⟩ | ⟨-, hfail⟩⟩ := herr
    · exact ⟨rfl, hlt, hfaithful hw hn, _,
        .of_written hw he (.inr ⟨Nat.zero_le _, hfull, hend⟩)⟩
    · exact absurd h.neverFails (hfail h.inRange)

/-- How a write ends that no failure of the device stops. -/
def StoredOrFull (r : Except VolumeError Answer) : Prop :=
  (∃ k, r = .ok (.number k)) ∨ r = .error .diskFull

/-- A write that is answered `r` in the state `fs` has written what there was room for. -/
def FilledBy (m : Mounted W H) (fd : Nat) (slot : Slot) (old : List Link) (offset : Nat)
    (data : ByteArray) (r : Except VolumeError Answer) (fs : FileSystem W H) : Prop :=
  ∃ m' new, fs = ofMounted m' ∧ m'.Faithful ∧ Filled m m' fd slot old new offset data (numberOf r) ∧
    StoredOrFull r

theorem write_call_fills (h : m.Faithful)
    (hc : Chain m.volume.table (m.volume.root.get slot).firstBlock old)
    (hr : m.volume.resolve fd = .ok (f, slot)) (data : ByteArray) :
    Ends (FileCall.run (.write fd data)) (ofMounted m)
      (fun a fs => FilledBy m fd slot old f.offset data (.ok a) fs)
      (fun e fs => FilledBy m fd slot old f.offset data (.error e) fs) :=
  Ends.map (onVolume_ends ((write_fills h hc hr data).mono
    (fun k m' ⟨_, hf, new, hw⟩ => ⟨m', new, rfl, hf, hw, .inl ⟨k, rfl⟩⟩)
    fun _ m' ⟨he, _, hf, new, hw⟩ => ⟨m', new, rfl, hf, hw, .inr (congrArg _ he)⟩))

/-- **Pieces that are written one after the other** are written as one write of all of them. -/
theorem write_pieces (h : m.Faithful)
    (hc : Chain m.volume.table (m.volume.root.get slot).firstBlock old)
    (hr : m.volume.resolve fd = .ok (f, slot)) (pieces : List ByteArray) :
    ∃ m' new, after FileCall.run (pieces.map (.write fd)) (ofMounted m) = ofMounted m' ∧
      Filled m m' fd slot old new f.offset (concat pieces)
        (stored (answers FileCall.run (pieces.map (.write fd)) (ofMounted m))) ∧
      ∀ r ∈ answers FileCall.run (pieces.map (.write fd)) (ofMounted m), StoredOrFull r := by
  induction pieces generalizing m f old with
  | nil =>
    obtain ⟨own, hi⟩ := h.intact
    obtain rfl := (hi.allotment.chain slot).unique hc
    exact ⟨m, _, rfl, .refl hi hr, fun r hmem => absurd hmem List.not_mem_nil⟩
  | cons piece pieces ih =>
    obtain ⟨r, _, ⟨m₁, mid, rfl, h₁, hw₁, hr₁⟩, hans, hafter⟩ :=
      Ends.answers_cons (write_call_fills h hc hr piece) (pieces.map (.write fd))
    obtain ⟨own, hi⟩ := h.intact
    obtain rfl := (hi.allotment.chain slot).unique hc
    obtain ⟨m₂, new, hm₂, hw₂, hr₂⟩ :=
      ih h₁ (hw₁.written.refiled hi).chain (hw₁.written.resolve_eq hi hr)
    refine ⟨m₂, new, ?_, ?_, ?_⟩
    · rw [List.map_cons, hafter, hm₂]
    · rw [List.map_cons, hans, stored, List.map_cons, List.sum_cons, concat_cons]
      exact hw₁.trans hw₂
    · rw [List.map_cons, hans]
      exact fun r' hmem => (List.mem_cons.mp hmem).elim (fun he => he ▸ hr₁) (hr₂ r')

/-! ## 5. Reading in pieces -/

/-- **`bytes` were read** through `fd` from the blocks `blocks` of the file in `slot`, as many of
    `count` as there are behind `offset`. -/
structure Fetched (m m₁ : Mounted W H) (fd : Nat) (slot : Slot) (blocks : List Link)
    (offset count : Nat) (bytes : ByteArray) : Prop where
  volume_eq : m₁.volume =
    { m.volume with files := m.volume.files.moveTo fd (offset + bytes.size) }
  storage_eq : m₁.storage = m.storage
  from_blocks : ReadFrom m.volume.superblock m.storage blocks offset bytes.size bytes
  size_eq : bytes.size = min count ((m.volume.root.get slot).size - offset)

section Fetched

variable {m₁ m₂ : Mounted W H} {blocks : List Link} {offset count count' : Nat} {a b : ByteArray}

theorem Fetched.trans (h₁ : Fetched m m₁ fd slot blocks offset count a)
    (h₂ : Fetched m₁ m₂ fd slot blocks (offset + a.size) count' b) :
    Fetched m m₂ fd slot blocks offset (count + count') (a ++ b) := by
  have hs₁ := h₁.size_eq
  have hs₂ := h₂.size_eq
  have hb := h₂.from_blocks
  rw [h₁.storage_eq] at hb
  rw [h₁.volume_eq] at hs₂ hb
  dsimp only at hs₂ hb
  refine ⟨?_, h₂.storage_eq.trans h₁.storage_eq, ⟨rfl, fun i hi => ?_⟩, ?_⟩
  · rw [h₂.volume_eq, h₁.volume_eq, ByteArray.size_append, ← Nat.add_assoc]
    dsimp only
    rw [OpenFiles.moveTo_moveTo]
  · rw [ByteArray.size_append] at hi
    by_cases hin : i < a.size
    · rw [byteAt_append_left hin, h₁.from_blocks.byteAt_eq i hin]
    · rw [byteAt_append_of_le (by omega), hb.byteAt_eq _ (by omega)]
      congr 1
      omega
  · rw [ByteArray.size_append]
    omega

theorem Fetched.resolve_eq (h : Fetched m m₁ fd slot blocks f.offset count a)
    (hr : m.volume.resolve fd = .ok (f, slot)) :
    m₁.volume.resolve fd = .ok (⟨f.name, f.offset + a.size⟩, slot) := by
  obtain ⟨hf, hs⟩ := Volume.resolve_eq_ok_iff.mp hr
  rw [h.volume_eq]
  refine Volume.resolve_eq_ok_iff.mpr ⟨?_, hs⟩
  rw [OpenFiles.get?_moveTo, if_pos rfl, hf]
  rfl

/-- **What is read is determined.** -/
theorem Fetched.unique (h₁ : Fetched m m₁ fd slot blocks offset count a)
    (h₂ : Fetched m m₂ fd slot blocks offset count b) :
    a = b ∧ m₁.volume = m₂.volume ∧ m₁.storage = m₂.storage := by
  have hsize : a.size = b.size := h₁.size_eq.trans h₂.size_eq.symm
  refine ⟨ext_byteAt hsize fun i hi => ?_, ?_, h₁.storage_eq.trans h₂.storage_eq.symm⟩
  · rw [h₁.from_blocks.byteAt_eq i hi, h₂.from_blocks.byteAt_eq i (hsize ▸ hi)]
  · rw [h₁.volume_eq, h₂.volume_eq, hsize]

end Fetched

/-- **A read from a faithful volume** succeeds. -/
theorem read_fetches {own : Slot → List Link} (h : m.Faithful) (hi : m.volume.Intact own)
    (hr : m.volume.resolve fd = .ok (f, slot)) (count : Nat) :
    Ends (read fd count) m
      (fun bytes m₁ => m₁.Faithful ∧ m₁.volume.Intact own ∧
        Fetched m m₁ fd slot (own slot) f.offset count bytes)
      (fun _ _ => False) := by
  obtain ⟨hf, hs⟩ := Volume.resolve_eq_ok_iff.mp hr
  have ho := hi.offset_le hr
  refine (read_ends_of_intact hi fd count).mono ?_ ?_
  · intro bytes m₁ hok
    obtain ⟨f', slot', k, w, hr', hk, hbytes, rfl, ha⟩ := hok
    cases hr.symm.trans hr'
    obtain rfl : bytes.size = k := hbytes.size_eq
    have ht := hi.toTidy.moved hf hs (show f.offset + bytes.size ≤ _ by omega)
    have hrefiled : Volume.Refiled m.volume
        { m.volume with files := m.volume.files.moveTo fd (f.offset + bytes.size) } slot (own slot)
        (own slot) := .of_eq hi slot rfl rfl rfl rfl
    refine ⟨h.of_refiled hi ht hrefiled (congrArg Storage.blockCount ha.storage_eq)
      (ha.neverFails h.neverFails), ?_, rfl, ha.storage_eq, hbytes, hk⟩
    have hi₁ := hi.refiled ht hrefiled
    rwa [Function.update_eq_self] at hi₁
  · intro e m₁ herr
    rcases herr with ⟨rfl, hr'⟩ | hfail
    · cases hr.symm.trans hr'
    · exact hfail.fails h.inRange h.neverFails

/-- A read that is answered `r` in the state `fs` has succeeded. -/
def FetchedBy (m : Mounted W H) (fd : Nat) (slot : Slot) (own : Slot → List Link) (offset count : Nat)
    (r : Except VolumeError Answer) (fs : FileSystem W H) : Prop :=
  ∃ m₁ bytes, r = .ok (.bytes bytes) ∧ fs = ofMounted m₁ ∧ m₁.Faithful ∧ m₁.volume.Intact own ∧
    Fetched m m₁ fd slot (own slot) offset count bytes

theorem read_call_fetches {own : Slot → List Link} (h : m.Faithful) (hi : m.volume.Intact own)
    (hr : m.volume.resolve fd = .ok (f, slot)) (count : Nat) :
    Ends (FileCall.run (.read fd count)) (ofMounted m)
      (fun a fs => FetchedBy m fd slot own f.offset count (.ok a) fs)
      (fun e fs => FetchedBy m fd slot own f.offset count (.error e) fs) :=
  Ends.map (onVolume_ends ((read_fetches h hi hr count).mono
    (fun bytes m₁ ⟨hf, hi₁, hread⟩ => ⟨m₁, bytes, rfl, rfl, hf, hi₁, hread⟩)
    fun _ _ => False.elim))

/-- **Pieces that are read one after the other** are read as in one read of all of them. -/
theorem read_pieces {own : Slot → List Link} (h : m.Faithful) (hi : m.volume.Intact own)
    (hr : m.volume.resolve fd = .ok (f, slot)) (counts : List Nat) :
    ∃ m' parts, after FileCall.run (counts.map (.read fd)) (ofMounted m) = ofMounted m' ∧
      answers FileCall.run (counts.map (.read fd)) (ofMounted m) =
        parts.map (fun bytes => .ok (.bytes bytes)) ∧
      Fetched m m' fd slot (own slot) f.offset counts.sum (concat parts) := by
  induction counts generalizing m f with
  | nil =>
    refine ⟨m, [], rfl, rfl, ?_, rfl, .nil .., (Nat.zero_min _).symm⟩
    show _ = { m.volume with files := m.volume.files.moveTo fd f.offset }
    rw [OpenFiles.moveTo_self (Volume.resolve_eq_ok_iff.mp hr).1]
  | cons count counts ih =>
    obtain ⟨r, _, ⟨m₁, bytes, rfl, rfl, h₁, hi₁, hread₁⟩, hans, hafter⟩ :=
      Ends.answers_cons (read_call_fetches h hi hr count) (counts.map (.read fd))
    obtain ⟨m₂, parts, hm₂, hparts, hread₂⟩ := ih h₁ hi₁ (hread₁.resolve_eq hr)
    refine ⟨m₂, bytes :: parts, ?_, ?_, ?_⟩
    · rw [List.map_cons, hafter, hm₂]
    · rw [List.map_cons, hans, hparts, List.map_cons]
    · rw [List.sum_cons, concat_cons]
      exact hread₁.trans hread₂

end Faithful

end Mounted

/-! ## 6. Over runs -/

namespace FileSystem

open Mounted

/-- Where `check` finds nothing wrong with what was mounted, and no call fails, the volume is
    faithful. -/
theorem faithful_of_checked {d : H} {fs fs₀ fs₁ : FileSystem W H} {v : Volume H}
    (hm : mount d fs = .ok () fs₀) (hw : (storage d fs.world).whole)
    (hr : Reachable fs₀ fs₁) (hv : fs₁.mounted = some v) (hc : check fs₁ = .ok () fs₁)
    (hn : NeverFails d fs₁.world) : Faithful ⟨v, fs₁.world⟩ := by
  have ht : v.Tidy := hr.tidy (tidy_of_mount hm) v hv
  have hmoored := hr.moored (tidy_of_mount hm) (moored_of_mount hm hw) v hv
  refine ⟨intact_of_checked ht hv hc, Moored.inRange (m := ⟨v, fs₁.world⟩) hmoored ht, ?_⟩
  show NeverFails v.device fs₁.world
  rw [hmoored.device_eq]
  exact hn

/-- **The calls leave the same:** the same volume in memory, that is table, directory and
    descriptors, and the same contents of every block of the device. -/
structure LeaveSame (d : H) (fs : FileSystem W H) (calls calls' : List FileCall) : Prop where
  mounted_eq : (after FileCall.run calls fs).mounted = (after FileCall.run calls' fs).mounted
  storage_eq : storage d (after FileCall.run calls fs).world =
    storage d (after FileCall.run calls' fs).world

/-- **Pieces make no difference.** Where a volume was mounted and `check` finds nothing wrong in the
    state it has come to, and no call fails, data that is written in pieces through any open descriptor
    leaves what it leaves in one piece, and as many bytes are stored in all; each write stores a part
    or finds the volume full. What is read in pieces is what is read in one, and leaves the same. -/
theorem pieces_make_no_difference {d : H} {fs fs₀ fs₁ : FileSystem W H} {v : Volume H} {fd : Nat}
    {f : OpenFile} (hm : mount d fs = .ok () fs₀)
    (hw : (storage d fs.world).whole) (hr : Reachable fs₀ fs₁)
    (hv : fs₁.mounted = some v) (hc : check fs₁ = .ok () fs₁) (hn : NeverFails d fs₁.world)
    (hf : v.files.get? fd = some f) :
    (∀ pieces : List ByteArray,
      LeaveSame d fs₁ (pieces.map (.write fd)) [.write fd (concat pieces)] ∧
      stored (answers FileCall.run (pieces.map (.write fd)) fs₁) =
        stored (answers FileCall.run [.write fd (concat pieces)] fs₁) ∧
      ∀ r ∈ answers FileCall.run (pieces.map (.write fd)) fs₁ ++
        answers FileCall.run [.write fd (concat pieces)] fs₁, StoredOrFull r) ∧
    ∀ counts : List Nat, LeaveSame d fs₁ (counts.map (.read fd)) [.read fd counts.sum] ∧
      ∃ parts, answers FileCall.run (counts.map (.read fd)) fs₁ =
          parts.map (fun bytes => .ok (.bytes bytes)) ∧
        answers FileCall.run [.read fd counts.sum] fs₁ = [.ok (.bytes (concat parts))] := by
  have hfaithful := faithful_of_checked hm hw hr hv hc hn
  have ht := hr.tidy (tidy_of_mount hm) v hv
  have hdev : v.device = d := (hr.moored (tidy_of_mount hm) (moored_of_mount hm hw) v hv).device_eq
  obtain ⟨slot, hres, -⟩ := ht.resolve_eq hf
  obtain ⟨own, hi⟩ := intact_of_checked ht hv hc
  obtain ⟨_, w⟩ := fs₁
  cases hv
  have hleft : ∀ {calls calls' : List FileCall} {m₁ m₂ : Mounted W H},
      after FileCall.run calls (ofMounted ⟨v, w⟩) = ofMounted m₁ →
      after FileCall.run calls' (ofMounted ⟨v, w⟩) = ofMounted m₂ → m₁.volume.device = v.device →
      m₁.volume = m₂.volume → m₁.storage = m₂.storage →
      LeaveSame d (ofMounted ⟨v, w⟩) calls calls' := by
    intro calls calls' m₁ m₂ h₁ h₂ hd hvol hsame
    have hd₁ : m₁.volume.device = d := hd.trans hdev
    refine ⟨by rw [h₁, h₂]; exact congrArg some hvol, ?_⟩
    rw [Mounted.storage, Mounted.storage, ← hvol, hd₁] at hsame
    rw [h₁, h₂]
    exact hsame
  refine ⟨fun pieces => ?_, fun counts => ?_⟩
  · have hchain := hi.allotment.chain slot
    obtain ⟨m₁, _, hm₁, hfill₁, hr₁⟩ := write_pieces hfaithful hchain hres pieces
    obtain ⟨m₂, _, hm₂, hfill₂, hr₂⟩ := write_pieces hfaithful hchain hres [concat pieces]
    rw [concat_cons, concat_nil, ByteArray.append_empty] at hfill₂
    obtain ⟨hk, hvol, hsame⟩ := hfill₁.unique hfill₂
    refine ⟨hleft hm₁ hm₂ hfill₁.written.device_eq hvol hsame, hk, fun r hmem => ?_⟩
    exact (List.mem_append.mp hmem).elim (hr₁ r) (hr₂ r)
  · obtain ⟨m₁, parts, hm₁, hparts, hread₁⟩ := read_pieces hfaithful hi hres counts
    obtain ⟨m₂, parts', hm₂, hparts', hread₂⟩ := read_pieces hfaithful hi hres [counts.sum]
    rw [List.sum_cons, List.sum_nil, Nat.add_zero] at hread₂
    obtain ⟨hbytes, hvol, hsame⟩ := hread₁.unique hread₂
    have hdevice : m₁.volume.device = v.device := by rw [hread₁.volume_eq]
    refine ⟨hleft hm₁ hm₂ hdevice hvol hsame, parts, hparts, ?_⟩
    -- one read gives one answer
    obtain ⟨bytes, rfl⟩ : ∃ bytes, parts' = [bytes] := by
      have hlen := congrArg List.length hparts'
      rw [List.length_map] at hlen
      exact List.length_eq_one_iff.mp (hlen.symm.trans (length_answers _ _ _))
    rw [concat_cons, concat_nil, ByteArray.append_empty] at hbytes
    rw [hbytes]
    exact hparts'

/-- In memory, behind a file of a hundred bytes, with more than the volume has room for. -/
theorem pieces_make_no_difference_memory : ∃ fs fs₁ v f,
    mount () (ofWorld (Memory.holding 16
      (Volume.lone AllocationTable.oneUsed Entry.hundredBytes))) = .ok () fs ∧
    Reachable fs fs₁ ∧ fs₁.mounted = some v ∧ check fs₁ = .ok () fs₁ ∧ NeverFails () fs₁.world ∧
    v.files.get? 0 = some f ∧
    LeaveSame () fs₁ ([zeros 5000, ByteArray.empty, zeros 60000].map (.write 0))
      [.write 0 (concat [zeros 5000, ByteArray.empty, zeros 60000])] ∧
    LeaveSame () fs₁ ([4000, 0, 4000].map (.read 0)) [.read 0 8000] := by
  obtain ⟨fs, files, w, hm, hr, hf, hn⟩ := exists_opened_hundredBytes
  have hc : check (ofMounted
      ⟨{ Volume.lone AllocationTable.oneUsed Entry.hundredBytes with files }, w⟩) = .ok () _ :=
    check_eq_ok_iff.mpr ⟨rfl, _, rfl, Volume.check_hundredBytes files⟩
  obtain ⟨hwrites, hreads⟩ :=
    pieces_make_no_difference hm (Memory.whole_storage _) hr rfl hc hn hf
  exact ⟨fs, _, _, _, hm, hr, rfl, hc, hn, hf, (hwrites _).1, (hreads [4000, 0, 4000]).1⟩

end FileSystem

end FlatVolume
