import FlatVolume.Proofs.Growth
import FlatVolume.Proofs.Intact
import FlatVolume.Proofs.Tidiness
import FlatVolume.Proofs.Walks
import FlatVolume.Volume.Read

/-!
# What a read gives

The pieces of a range are read block by block, and the chain is followed no further than that. So a
read needs no chain, only a trail of as many blocks as reach to the end of the range: if there is
one, the joined pieces are the bytes of the range, and if there is none, a corrupt chain is reported
(`loadSpans_ends`). A read of any volume moves the descriptor behind the bytes it gives, or it fails
and changes nothing (`read_ends_of_tidy`); on an intact volume it fails on a block of the device only
(`read_ends`).
-/

namespace FlatVolume

open AllocationTable Bytes FlatVolume.Computation
open LawfulBlockDevice (storage)

variable {W H : Type} [BlockDevice W H] [LawfulBlockDevice W H]

/-! ## 1. The pieces of a range -/

/-- Bytes that stand at the positions `pos` to `pos + count` of a file. -/
structure ReadFrom (sb : Superblock) (st : Storage) (blocks : List Link) (pos count : Nat)
    (bytes : ByteArray) : Prop where
  size_eq : bytes.size = count
  byteAt_eq : ∀ i < count, byteAt bytes i = byteOn sb st blocks (pos + i)

section ReadFrom

variable {sb : Superblock} {st : Storage} {blocks : List Link} {b : Link} {pos n count : Nat}
  {bytes : ByteArray}

theorem ReadFrom.nil (sb : Superblock) (st : Storage) (blocks : List Link) (pos : Nat) :
    ReadFrom sb st blocks pos 0 ByteArray.empty :=
  ⟨rfl, fun i hi => absurd hi (Nat.not_lt_zero i)⟩

/-- A piece within one block, followed by what comes after it. -/
theorem ReadFrom.cons (hb : blocks[pos / blockSize]? = some b)
    (hn : pos % blockSize + n ≤ blockSize) (hle : n ≤ count)
    (h : ReadFrom sb st blocks (pos + n) (count - n) bytes) :
    ReadFrom sb st blocks pos count
      ((st.block (sb.dataBlock b)).slice (pos % blockSize) n ++ bytes) := by
  have hs : ((st.block (sb.dataBlock b)).slice (pos % blockSize) n).size = n :=
    Block.size_slice _ hn
  refine ⟨?_, fun i hi => ?_⟩
  · rw [ByteArray.size_append, hs, h.size_eq]
    omega
  · by_cases hin : i < n
    · have hdiv : (pos + i) / blockSize = pos / blockSize := by
        simp only [blockSize] at hn ⊢
        omega
      have hmod : (pos + i) % blockSize = pos % blockSize + i := by
        simp only [blockSize] at hn ⊢
        omega
      rw [byteAt_append_left (by omega), Block.slice, byteAt_extract (by omega),
        byteOn_of_getElem? (hdiv ▸ hb), hmod]
    · rw [byteAt_append_of_le (by omega), hs, h.byteAt_eq _ (by omega)]
      congr 1
      omega

/-- What follows the blocks of the range is not read. -/
theorem ReadFrom.of_prefix {blocks' : List Link} (h : ReadFrom sb st blocks pos count bytes)
    (hp : blocks <+: blocks') (hle : pos + count ≤ blocks.length * blockSize) :
    ReadFrom sb st blocks' pos count bytes := by
  obtain ⟨rest, rfl⟩ := hp
  refine ⟨h.size_eq, fun i hi => ?_⟩
  have hlt : (pos + i) / blockSize < blocks.length := by
    simp only [blockSize] at hle ⊢
    omega
  rw [h.byteAt_eq i hi]
  simp only [byteOn, List.getElem?_append_left hlt]

end ReadFrom

theorem spans_of_pos {pos count n : Nat} (h : 0 < count) (hn : n = headLength pos count) :
    spans pos count =
      ⟨pos / blockSize, pos % blockSize, n⟩ :: spans (pos + n) (count - n) := by
  rw [spans, dif_neg (Nat.ne_of_gt h), hn]

theorem spans_zero (pos : Nat) : spans pos 0 = [] := by
  rw [spans, dif_pos rfl]

/-- **There is one piece for each block** from the one a range begins in to the one it ends in. -/
theorem length_spans {pos count : Nat} (h : 0 < count) :
    pos / blockSize + (spans pos count).length = ceilDiv (pos + count) blockSize := by
  induction hd : count using Nat.strongRecOn generalizing pos count with
  | ind d ih =>
    subst hd
    obtain ⟨n, hn⟩ : ∃ n, n = headLength pos count := ⟨_, rfl⟩
    have hn0 : 0 < n := hn ▸ headLength_pos pos (Nat.ne_of_gt h)
    have hnle : n ≤ count := hn ▸ headLength_le pos count
    have hspan : pos % blockSize + n ≤ blockSize := hn ▸ mod_add_headLength_le pos count
    rw [spans_of_pos h hn, List.length_cons]
    by_cases hrest : count - n = 0
    · rw [hrest, spans_zero, List.length_nil]
      simp only [ceilDiv, blockSize] at hspan ⊢
      omega
    · have hcut : pos % blockSize + n = blockSize :=
        hn ▸ mod_add_headLength_eq (show headLength _ _ < _ by omega)
      have htail : (pos + n) / blockSize + (spans (pos + n) (count - n)).length =
          ceilDiv (pos + n + (count - n)) blockSize :=
        ih (count - n) (by omega) (Nat.pos_of_ne_zero hrest) rfl
      have hstop : pos + n + (count - n) = pos + count := by omega
      rw [hstop] at htail
      simp only [blockSize] at hcut htail ⊢
      omega

/-- What stands at each piece, the first being taken from the first block, and so on. -/
def piecesOn (sb : Superblock) (st : Storage) (blocks : List Link) (pieces : List Span) :
    List ByteArray :=
  List.zipWith (fun b s => (st.block (sb.dataBlock b)).slice s.within s.length) blocks pieces

/-- **Joined, the pieces of a range are its bytes.** -/
theorem readFrom_piecesOn (sb : Superblock) (st : Storage) {pre blocks : List Link}
    {pos count : Nat} (hpre : pre.length = pos / blockSize)
    (hl : blocks.length = (spans pos count).length) :
    ReadFrom sb st (pre ++ blocks) pos count
      (concat (piecesOn sb st blocks (spans pos count))) := by
  induction hd : count using Nat.strongRecOn generalizing pos count pre blocks with
  | ind d ih =>
    subst hd
    by_cases h0 : count = 0
    · subst h0
      rw [spans_zero, piecesOn, List.zipWith_nil_right]
      exact .nil ..
    · obtain ⟨n, hn⟩ : ∃ n, n = headLength pos count := ⟨_, rfl⟩
      have hn0 : 0 < n := hn ▸ headLength_pos pos h0
      have hnle : n ≤ count := hn ▸ headLength_le pos count
      have hspan : pos % blockSize + n ≤ blockSize := hn ▸ mod_add_headLength_le pos count
      rw [spans_of_pos (Nat.pos_of_ne_zero h0) hn] at hl ⊢
      cases blocks with
      | nil => cases hl
      | cons b rest =>
        have hb : (pre ++ b :: rest)[pos / blockSize]? = some b := by
          rw [← hpre, List.getElem?_append_right (Nat.le_refl _), Nat.sub_self]
          rfl
        rw [piecesOn, List.zipWith_cons_cons, concat_cons]
        refine ReadFrom.cons hb hspan hnle ?_
        by_cases hrest : count - n = 0
        · rw [hrest, spans_zero, List.zipWith_nil_right]
          exact .nil ..
        · have hcut : pos % blockSize + n = blockSize :=
            hn ▸ mod_add_headLength_eq (show headLength _ _ < _ by omega)
          have hpre' : (pre ++ [b]).length = (pos + n) / blockSize := by
            rw [List.length_append, List.length_singleton, hpre]
            simp only [blockSize] at hcut ⊢
            omega
          have := ih (count - n) (by omega) hpre' (Nat.succ.inj hl) rfl
          rwa [List.append_assoc, List.singleton_append] at this

/-! ## 2. Following the chain -/

/-- Why `n` pieces, the first of them in block `b`, could not be read: no trail from `b` has so many
    blocks, or a call failed. -/
def Volume.Unread (v : Volume H) (w : W) (b : Link) (n : Nat) (e : VolumeError) (w' : W) : Prop :=
  ((∃ c, e = .corruptChain c) ∧ (¬ ∃ blocks, Trail v.table b blocks ∧ blocks.length = n) ∧
      Answered v.device w w' (storage v.device w)) ∨
    ((∃ b c, e = .io (v.superblock.dataBlock b) c) ∧ Failed v.device w w'
      (∀ b : Link, b.toNat < v.table.size →
        v.superblock.dataBlock b < (storage v.device w).blockCount))

section Unread

variable {v : Volume H} {w w' w'' : W} {b b' : Link} {n : Nat} {e : VolumeError}

/-- Pieces that could not be read after one that could. -/
theorem Volume.Unread.after (h : v.Unread w' b' n e w'') (link : v.table.link? b = some b')
    (hn : 0 < n) (ha : Answered v.device w w' (storage v.device w)) :
    v.Unread w b (n + 1) e w'' := by
  rcases h with ⟨he, hno, ha'⟩ | ⟨he, hf⟩
  · rw [ha.storage_eq] at ha'
    refine .inl ⟨he, fun hq => ?_, ha.trans ha'⟩
    rcases hq with ⟨blocks, htrail, hl⟩
    cases htrail with
    | last _ =>
      rw [List.length_singleton] at hl
      omega
    | step _ link' tail =>
      obtain rfl := Option.some.inj (link.symm.trans link')
      exact hno ⟨_, tail, Nat.succ.inj hl⟩
  · rw [ha.storage_eq] at hf
    exact .inr ⟨he, hf.storage_eq.trans ha.storage_eq, fun hr hnf => hf.fails hr (ha.neverFails hnf)⟩

/-- Reading the first of `n` pieces. -/
theorem Volume.loadData_ends_of_any (v : Volume H) (b : Link) (w : W) (n : Nat) :
    Ends (v.loadData b) w
      (fun blk w' => v.table.isDataBlock b = true ∧
        blk = (storage v.device w).block (v.superblock.dataBlock b) ∧
        Answered v.device w w' (storage v.device w))
      (v.Unread w b n) := by
  by_cases hb : v.table.isDataBlock b = true
  · refine (loadData_ends hb w).mono (fun blk w' hok => ⟨hb, hok⟩) fun e w' herr => ?_
    obtain ⟨⟨c, rfl⟩, hf⟩ := herr
    refine .inr ⟨⟨b, c, rfl⟩, hf.storage_eq, fun hr => hf.fails (hr b ?_)⟩
    exact Mounted.lt_size_of_isDataBlock hb
  · have hl : v.loadData b w = .error (.corruptChain b) w := by
      simp only [loadData, locate, hb, Bool.false_eq_true, if_false]
      rfl
    refine Ends.of_error hl (.inl ⟨⟨b, rfl⟩, fun hq => ?_, .refl _ _⟩)
    obtain ⟨blocks, htrail, -⟩ := hq
    exact hb htrail.isDataBlock

end Unread

/-- **Reading pieces block by block** follows a trail of so many blocks, if there is one. -/
theorem Volume.loadSpans_ends {v : Volume H} (hs : v.table.size ≤ 65535) (s : Span)
    (rest : List Span) (b : Link) (w : W) : Ends (v.loadSpans b (s :: rest)) w
      (fun parts w' => (∃ blocks, Trail v.table b blocks ∧ blocks.length = rest.length + 1 ∧
          parts = piecesOn v.superblock (storage v.device w) blocks (s :: rest)) ∧
        Answered v.device w w' (storage v.device w))
      (v.Unread w b (rest.length + 1)) := by
  induction rest generalizing s b w with
  | nil =>
    refine Ends.bind ((loadData_ends_of_any v b w _).mono ?_ fun _ _ h => h)
    intro blk w' hok
    rcases hok with ⟨hb, rfl, ha⟩
    exact ⟨⟨[b], .last hb, rfl, rfl⟩, ha⟩
  | cons s' rest ih =>
    rw [loadSpans]
    swap
    · exact List.cons_ne_nil s' rest
    refine Ends.bind ((loadData_ends_of_any v b w _).mono ?_ fun _ _ h => h)
    intro blk w₁ hok
    rcases hok with ⟨hb, rfl, ha⟩
    cases hnext : v.table.next b with
    | error e =>
      obtain ⟨hlink, rfl⟩ := next_eq_error_iff.mp hnext
      refine .inl ⟨⟨b, rfl⟩, fun hq => ?_, ha⟩
      obtain ⟨blocks, htrail, hl⟩ := hq
      cases htrail with
      | last _ => cases hl
      | step _ link _ =>
        rw [hlink] at link
        cases link
    | ok b' =>
      have link := next_eq_ok_iff.mp hnext
      have htail := ih s' b' w₁
      rw [ha.storage_eq] at htail
      refine Ends.bind (htail.mono ?_ fun e w₂ h => h.after link (Nat.succ_pos _) ha)
      intro parts w₂ hok
      rcases hok with ⟨⟨blocks, htrail, hl, rfl⟩, ha'⟩
      refine ⟨⟨b :: blocks, .step (ne_endOfChain_of_isDataBlock hs hb) link htrail, ?_, rfl⟩,
        ha.trans ha'⟩
      rw [List.length_cons, hl]
      rfl

namespace Mounted

variable {m : Mounted W H} {slot : Slot} {fd : Nat} {f : OpenFile}

/-! ## 3. A whole read -/

omit [LawfulBlockDevice W H] in
/-- Without a file there is nothing to read. -/
theorem read_of_unresolved {e : VolumeError} (h : m.volume.resolve fd = .error e) (count : Nat) :
    read fd count m = .error e m := by
  unfold read
  exact (bind_of_ok (getVolume_run m)).trans (bind_of_error (lookup_eq_error_iff.mpr ⟨h, rfl⟩))

/-- **A read of any volume, however it ends:** it gives the bytes from the offset to the end of the
    request or of the file, taken from a trail that reaches so far, or nothing has changed. -/
theorem read_ends_of_tidy (ht : m.volume.Tidy) (hr : m.volume.resolve fd = .ok (f, slot))
    {count k : Nat} (hk : k = min count ((m.volume.root.get slot).size - f.offset)) :
    Ends (read fd count) m
      (fun bytes m' => (∃ w,
          m' = ⟨{ m.volume with files := m.volume.files.moveTo fd (f.offset + k) }, w⟩ ∧
          Answered m.volume.device m.world w m.storage) ∧
        bytes.size = k ∧ (0 < k → ∃ blocks,
          Trail m.volume.table (m.volume.root.get slot).firstBlock blocks ∧
          blocks.length = ceilDiv (f.offset + k) blockSize ∧
          ReadFrom m.volume.superblock m.storage blocks f.offset k bytes))
      (fun e m' => 0 < k ∧
        (((∃ b, e = .corruptChain b) ∧
            (¬ ∃ blocks, Trail m.volume.table (m.volume.root.get slot).firstBlock blocks ∧
              blocks.length = ceilDiv (f.offset + k) blockSize) ∧
            ∃ w, m' = { m with world := w } ∧ Answered m.volume.device m.world w m.storage) ∨
          BlockFailed m e m')) := by
  obtain ⟨hf, hs⟩ := Volume.resolve_eq_ok_iff.mp hr
  unfold read
  refine Ends.bind_ok (getVolume_run m) (Ends.bind_ok (lookup_eq_ok_iff.mpr ⟨hr, rfl⟩) ?_)
  dsimp only
  rw [← hk]
  by_cases h0 : k = 0
  · rw [if_pos h0]
    subst h0
    refine ⟨⟨m.world, ?_, .refl _ _⟩, rfl, fun h => absurd h (Nat.lt_irrefl 0)⟩
    rw [Nat.add_zero, OpenFiles.moveTo_self hf]
  · rw [if_neg h0]
    have hpos := Nat.pos_of_ne_zero h0
    have hlen : f.offset / blockSize + (spans f.offset k).length =
        ceilDiv (f.offset + k) blockSize := length_spans hpos
    obtain ⟨s, rest, hsr⟩ : ∃ s rest, spans f.offset k = s :: rest := by
      rw [spans_of_pos hpos rfl]
      exact ⟨_, _, rfl⟩
    rw [hsr, List.length_cons] at hlen
    -- a trail to the end of the range is what the walk finds and what is read behind it
    rw [← hlen, exists_trail_add_iff (Nat.succ_pos _)]
    cases hn : m.volume.table.nthBlock (m.volume.root.get slot).firstBlock
        (f.offset / blockSize) with
    | error e =>
      refine Ends.bind (Ends.of_error (lookup_eq_error_iff.mpr ⟨rfl, rfl⟩) ⟨hpos, .inl ?_⟩)
      refine ⟨nthBlock_eq_error hn, fun hq => ?_, m.world, rfl, .refl _ _⟩
      obtain ⟨b, hb, -⟩ := hq
      cases hb
    | ok b =>
      refine Ends.bind_ok (lookup_eq_ok_iff.mpr ⟨rfl, rfl⟩) (Ends.bind (onDevice_ends ?_))
      rw [hsr]
      refine (Volume.loadSpans_ends ht.table_size_le s rest b m.world).mono ?_ ?_
      · intro parts w hok
        rcases hok with ⟨⟨blocks, htrail, hl, rfl⟩, ha⟩
        obtain ⟨pre, hp, hpre⟩ := nthBlock_eq_ok_iff.mp hn
        have hcount : blocks.length = (spans f.offset k).length := by rw [hl, hsr, List.length_cons]
        have hread := readFrom_piecesOn m.volume.superblock m.storage hpre hcount
        rw [hsr] at hread
        have hne : blocks ≠ [] := List.ne_nil_of_length_pos (by omega)
        refine ⟨⟨w, rfl, ha⟩, hread.size_eq, fun _ => ⟨pre ++ blocks, ?_, ?_, hread⟩⟩
        · exact (trail_append_iff hne).mpr ⟨b, hp, htrail⟩
        · rw [List.length_append, hpre, hl]
      · intro e w herr
        rcases herr with ⟨he, hno, ha⟩ | ⟨he, hf⟩
        · refine ⟨hpos, .inl ⟨he, fun hq => ?_, w, rfl, ha⟩⟩
          obtain ⟨b', hb', hq⟩ := hq
          cases hb'
          exact hno hq
        · exact ⟨hpos, .inr ⟨rfl, hf.storage_eq, he, hf.fails⟩⟩

/-- **A read of an intact volume, however it ends:** it gives the bytes from the offset to the end
    of the request or of the file, or nothing has changed. -/
theorem read_ends {own : Slot → List Link} (h : m.volume.Intact own)
    (hf : m.volume.files.get? fd = some f) (hs : m.volume.root.find? f.name = some slot)
    {count k : Nat} (hk : k = min count ((m.volume.root.get slot).size - f.offset)) :
    Ends (read fd count) m
      (fun bytes m' => ReadFrom m.volume.superblock m.storage (own slot) f.offset k bytes ∧
        ∃ w, m' = ⟨{ m.volume with files := m.volume.files.moveTo fd (f.offset + k) }, w⟩ ∧
          Answered m.volume.device m.world w m.storage)
      (BlockFailed m) := by
  have hc := h.allotment.chain slot
  have hr := Volume.resolve_eq_ok_iff.mpr ⟨hf, hs⟩
  refine (read_ends_of_tidy h.toTidy hr hk).mono ?_ ?_
  · intro bytes m' hok
    rcases hok with ⟨hm, hsize, hread⟩
    refine ⟨?_, hm⟩
    rcases Nat.eq_zero_or_pos k with h0 | hpos
    · rw [h0] at hsize ⊢
      exact ⟨hsize, fun i hi => absurd hi (Nat.not_lt_zero i)⟩
    · obtain ⟨blocks, htrail, hl, hread⟩ := hread hpos
      refine hread.of_prefix (htrail.prefix_of_chain h.table_size_le hc) ?_
      rw [hl]
      exact ceilDiv_mul_ge _
  · intro e m' herr
    rcases herr with ⟨hpos, ⟨-, hno, -⟩ | hfail⟩
    · -- the chain itself begins with the trail that is needed
      refine absurd (hc.exists_trail (ceilDiv_pos (by omega)) ?_) hno
      rw [h.length_eq]
      exact ceilDiv_mono (by omega)
    · exact hfail

end Mounted

end FlatVolume
