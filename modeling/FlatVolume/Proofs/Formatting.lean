import FlatVolume.Proofs.Plans
import FlatVolume.Proofs.Refinement

/-!
# Formatting a device

What formatting does to a device, call by call, and what is mounted afterwards: a volume without
files in which one file can be filled up to the last data block but the reserved one.

* `Volume.formatEvents` -- the calls formatting makes; `Volume.format_observed` says which, up to the
  first that fails.
* `fillAnswers` -- what writes answer that fill a file piece by piece. One file of otherwise empty
  plain files is filled like that (`Plain.answers_fill`).
-/

namespace FlatVolume

open AllocationTable Bytes FlatVolume.Computation Mounted
open FileSystem (ofMounted)
open LawfulBlockDevice (storage)

/-! ## 1. Filling a file -/

/-- What writes answer that put pieces one behind the other where `room` bytes are left: as much of a
    piece is stored as there is room for, and the disk is full once not a byte of a piece can be. -/
def fillAnswers : (room : Nat) → (pieces : List ByteArray) → List (Except VolumeError Answer)
  | _, [] => []
  | room, piece :: pieces =>
    (if 0 < piece.size ∧ room = 0 then .error .diskFull
      else .ok (.number (min piece.size room))) :: fillAnswers (room - piece.size) pieces

/-- The number that was answered, if it is one. -/
def numberOf : Except VolumeError Answer → Nat
  | .ok (.number n) => n
  | _ => 0

/-- How many bytes writes have stored that gave these answers. -/
def stored (answers : List (Except VolumeError Answer)) : Nat := (answers.map numberOf).sum

/-- **All the room is filled, and no more.** -/
theorem stored_fillAnswers (room : Nat) (pieces : List ByteArray) :
    stored (fillAnswers room pieces) = min (pieces.map ByteArray.size).sum room := by
  induction pieces generalizing room with
  | nil => simp [fillAnswers, stored]
  | cons piece pieces ih =>
    have hrest := ih (room - piece.size)
    unfold stored at hrest ⊢
    rw [fillAnswers, List.map_cons, List.sum_cons, List.map_cons, List.sum_cons, hrest]
    split
    · simp only [numberOf]
      omega
    · simp only [numberOf]
      omega

namespace Plain

/-- One file, in slot 0, with descriptor 0 at its end. -/
def single (name : String) (bytes : ByteArray) (capacity : Nat) : Plain where
  files := (Vector.replicate maxFiles none).set 0 (some ⟨name, bytes⟩) maxFiles_pos
  handles := (Vector.replicate maxOpenFiles none).set 0 (some ⟨name, bytes.size⟩)
  capacity := capacity

variable {name : String} {bytes : ByteArray} {capacity : Nat}

theorem handle?_single : (single name bytes capacity).handle? 0 = some ⟨name, bytes.size⟩ := by
  rw [handle?, single, Vector.getElem?_set_self]
  rfl

theorem resolve_single : (single name bytes capacity).resolve 0 =
    .ok (⟨name, bytes.size⟩, ⟨0, by decide⟩) := by
  have hfind : (single name bytes capacity).find? name = some ⟨0, by decide⟩ :=
    lowest?_eq_some_iff.mpr ⟨by simp [single], fun j hj => absurd hj (Nat.not_lt_zero _)⟩
  simp only [resolve, handle?_single, hfind]

theorem bytes_single (s : Slot) :
    (single name bytes capacity).bytes s = if s.val = 0 then bytes else ByteArray.empty := by
  have hget : (single name bytes capacity).files.get s =
      if s.val = 0 then some ⟨name, bytes⟩ else none := by
    show (single name bytes capacity).files[s.val] = _
    simp [single, Vector.getElem_set, eq_comm]
  unfold Plain.bytes
  rw [hget]
  by_cases h : s.val = 0
  · simp only [if_pos h]
  · simp only [if_neg h]

theorem used_single :
    (single name bytes capacity).used = ceilDiv bytes.size blockSize := by
  rw [used, Finset.sum_eq_single ⟨0, by decide⟩]
  · rw [bytes_single, if_pos rfl]
  · intro s _ hs
    rw [bytes_single, if_neg fun h => hs (Fin.ext h)]
    rfl
  · exact fun h => absurd (Finset.mem_univ _) h

/-- There is room for what the blocks hold that the file does not use yet. -/
theorem room_single (h : bytes.size ≤ capacity * blockSize) (count : Nat) :
    (single name bytes capacity).room ⟨0, by decide⟩ bytes.size count =
      min count (capacity * blockSize - bytes.size) := by
  have hle : ceilDiv bytes.size blockSize ≤ capacity := by
    simp only [ceilDiv, blockSize] at h ⊢
    omega
  have hblocks : ceilDiv bytes.size blockSize + (single name bytes capacity).free = capacity := by
    rw [free, used_single]
    exact Nat.add_sub_cancel' hle
  rw [room, bytes_single, if_pos rfl, hblocks]

/-- The file with other contents, and the descriptor at their end. -/
theorem replaced_single (new : ByteArray) :
    ((single name bytes capacity).setFile ⟨0, by decide⟩ (some ⟨name, new⟩)).moveTo 0 new.size =
      single name new capacity := by
  have hhandle : ((single name bytes capacity).setFile ⟨0, by decide⟩ (some ⟨name, new⟩)).handle? 0 =
      some ⟨name, bytes.size⟩ := by
    rw [← @handle?_single name bytes capacity]
    rfl
  rw [moveTo, hhandle]
  refine Plain.ext ?_ ?_ rfl
  · simp [setFile, single]
  · ext1 i hi
    by_cases h : 0 = i
    · simp [setFile, single, h]
    · simp [setFile, single, h]

/-- **One more piece** is put behind the file, as far as there is room. -/
theorem write_single (h : bytes.size ≤ capacity * blockSize) (piece : ByteArray) :
    write 0 piece (single name bytes capacity) =
      if 0 < piece.size ∧ capacity * blockSize - bytes.size = 0 then
        .error .diskFull (single name bytes capacity)
      else .ok (min piece.size (capacity * blockSize - bytes.size))
        (single name (bytes ++ piece.extract 0 (min piece.size (capacity * blockSize - bytes.size)))
          capacity) := by
  generalize hk : min piece.size (capacity * blockSize - bytes.size) = k
  have hfull : (0 < piece.size ∧ k = 0) ↔
      0 < piece.size ∧ capacity * blockSize - bytes.size = 0 := by omega
  have hsize : (bytes ++ piece.extract 0 k).size = bytes.size + k := by
    rw [ByteArray.size_append, ByteArray.size_extract]
    omega
  have hnew : bytes.extract 0 bytes.size ++ piece.extract 0 k ++
      bytes.extract (bytes.size + k) bytes.size = bytes ++ piece.extract 0 k := by
    have htail : bytes.extract (bytes.size + k) bytes.size = ByteArray.empty :=
      ByteArray.extract_eq_empty_iff.mpr (by omega)
    rw [ByteArray.extract_zero_size, htail, ByteArray.append_empty]
  have hb : (single name bytes capacity).bytes ⟨0, by decide⟩ = bytes := by
    rw [bytes_single, if_pos rfl]
  unfold write
  simp only [resolve_single, hb, room_single h, hk, hfull, hnew]
  split
  · rfl
  · rw [← hsize, replaced_single]

/-- **A file is filled piece by piece.** -/
theorem answers_fill_single (h : bytes.size ≤ capacity * blockSize) (pieces : List ByteArray) :
    answers FileCall.runPlain (pieces.map (.write 0)) (single name bytes capacity) =
      fillAnswers (capacity * blockSize - bytes.size) pieces := by
  induction pieces generalizing bytes with
  | nil => rfl
  | cons piece pieces ih =>
    have hrun : (FileCall.write 0 piece).runPlain (single name bytes capacity) =
        EStateM.map .number (write 0 piece) (single name bytes capacity) := rfl
    rw [List.map_cons, answers, hrun, EStateM.map, write_single h, fillAnswers]
    by_cases hfull : 0 < piece.size ∧ capacity * blockSize - bytes.size = 0
    · have hrest := ih h
      simp only [if_pos hfull, hrest]
      rw [hfull.2, Nat.zero_sub]
    · have hsize : (bytes ++ piece.extract 0
          (min piece.size (capacity * blockSize - bytes.size))).size =
          bytes.size + min piece.size (capacity * blockSize - bytes.size) := by
        rw [ByteArray.size_append, ByteArray.size_extract]
        omega
      have hrest := @ih (bytes ++ piece.extract 0
        (min piece.size (capacity * blockSize - bytes.size))) (by omega)
      rw [hsize] at hrest
      simp only [if_neg hfull, hrest]
      congr 2
      omega

/-- Where nothing is stored yet, a file with a valid name can be created, opened and filled with as
    many bytes as there are blocks for. -/
theorem answers_fill (hname : validName name = true) (pieces : List ByteArray) :
    answers FileCall.runPlain (.create name :: .openFile name :: pieces.map (.write 0))
        (blank capacity) =
      .ok .done :: .ok (.number 0) :: fillAnswers (capacity * blockSize) pieces := by
  have hcreate : create name (blank capacity) =
      .ok () ((blank capacity).setFile ⟨0, by decide⟩ (some ⟨name, ByteArray.empty⟩)) := by
    have hfind : (blank capacity).find? name = none :=
      lowest?_eq_none_iff.mpr fun i => by simp [blank]
    have hslot : lowest? Option.isNone (blank capacity).files = some ⟨0, by decide⟩ :=
      lowest?_eq_some_iff.mpr ⟨by simp [blank], fun j hj => absurd hj (Nat.not_lt_zero _)⟩
    simp [create, hname, hfind, hslot]
  have hopen : openFile name
      ((blank capacity).setFile ⟨0, by decide⟩ (some ⟨name, ByteArray.empty⟩)) =
      .ok 0 (single name ByteArray.empty capacity) := by
    have hfind : ((blank capacity).setFile ⟨0, by decide⟩ (some ⟨name, ByteArray.empty⟩)).find?
        name = some ⟨0, by decide⟩ :=
      lowest?_eq_some_iff.mpr ⟨by simp [blank, setFile], fun j hj => absurd hj (Nat.not_lt_zero _)⟩
    have hslot : lowest? Option.isNone ((blank capacity).setFile ⟨0, by decide⟩
        (some ⟨name, ByteArray.empty⟩)).handles = some ⟨0, by decide⟩ :=
      lowest?_eq_some_iff.mpr ⟨by simp [blank, setFile], fun j hj => absurd hj (Nat.not_lt_zero _)⟩
    simp only [openFile, hname, hfind, hslot]
    rfl
  have hempty := @answers_fill_single name ByteArray.empty capacity (Nat.zero_le _) pieces
  have hfirst : (FileCall.create name).runPlain (blank capacity) =
      EStateM.map (fun _ => .done) (create name) (blank capacity) := rfl
  have hsecond : (FileCall.openFile name).runPlain
      ((blank capacity).setFile ⟨0, by decide⟩ (some ⟨name, ByteArray.empty⟩)) =
      EStateM.map .number (openFile name)
        ((blank capacity).setFile ⟨0, by decide⟩ (some ⟨name, ByteArray.empty⟩)) := rfl
  rw [answers, hfirst, EStateM.map, hcreate]
  dsimp only
  rw [answers, hsecond, EStateM.map, hopen]
  dsimp only
  rw [hempty]
  rfl

end Plain

/-! ## 2. The calls of formatting -/

section OnDevice

variable {W H : Type} [BlockDevice W H]

theorem Volume.format_mirrors {W' : Type} [BlockDevice W' H] {q : W' → W} [WorldView q] (d : H) :
    Mirrors q (format d : VolumeM W' Superblock) (format d) := by
  unfold format
  refine Mirrors.get_bind fun w => ?_
  rw [WorldView.blockBytes_eq]
  refine Mirrors.ite (.throw _) (Mirrors.get_bind fun w' => ?_)
  rw [WorldView.blockCount_eq]
  cases Superblock.forBlockCount? (BlockDevice.blockCount d w') with
  | none => exact .throw _
  | some sb =>
    refine (storeBlock_mirrors d _ _).bind fun _ => ?_
    refine (forM_storeBlock_mirrors d _ _ _).bind fun _ => ?_
    exact (storeBlock_mirrors d _ _).bind fun _ => (syncDevice_mirrors d).bind fun _ => .pure _

/-- The calls that formatting `d` makes, in order. -/
def Volume.formatEvents (d : H) (w : W) : List Event :=
  (stateAfter (format d) (⟨w, []⟩ : Observed W)).events

/-- The calls of formatting: all blocks before the data blocks in ascending order, and a sync. -/
def Superblock.formatCalls (sb : Superblock) : List Call :=
  (List.range sb.dataStart.toNat).map Call.write ++ [.sync]

theorem Superblock.LaidOut.formatCalls_eq {sb : Superblock} {n : Nat} (h : sb.LaidOut n) :
    sb.formatCalls = .write 0 :: sb.flushCalls := by
  rw [formatCalls, flushCalls, h.dataStart_eq, h.directoryBlock_eq, List.range_succ_eq_map,
    List.range_succ]
  simp [tableStart, Nat.add_comm]

/-- **Formatting makes the calls of the layout of its device,** and stops at the first that fails. A
    device without a layout is not called at all. -/
theorem Volume.format_observed (d : H) (w : W) : Ends (format d) w
    (fun sb _ => layout? d w = some sb ∧ Executed sb.formatCalls none (formatEvents d w))
    (fun e _ => (layout? d w = none ∧ e = .invalidGeometry ∧ formatEvents d w = []) ∨
      ∃ sb call c, layout? d w = some sb ∧ e = call.reported c ∧
        Executed sb.formatCalls (some (call, c)) (formatEvents d w)) := by
  refine Mirrors.ends (p := Observed.world) (format_mirrors d) (s := ⟨w, []⟩) (q := Observed.events)
    (P := fun sb _ events => layout? d w = some sb ∧ Executed sb.formatCalls none events)
    (Q := fun e _ events => (layout? d w = none ∧ e = .invalidGeometry ∧ events = []) ∨
      ∃ sb call c, layout? d w = some sb ∧ e = call.reported c ∧
        Executed sb.formatCalls (some (call, c)) events) ?_
  have hobserved : layout? d (⟨w, []⟩ : Observed W) = layout? d w := rfl
  rw [← hobserved]
  cases hlayout : layout? d (⟨w, []⟩ : Observed W) with
  | none => exact Ends.of_error (format_of_no_layout hlayout) (.inl ⟨rfl, rfl, rfl⟩)
  | some sb =>
    refine Ends.of_eq (format_of_layout hlayout) ?_
    have hl : sb.LaidOut (BlockDevice.blockCount d w) := by
      rw [hobserved, layout?] at hlayout
      split at hlayout
      · exact Superblock.laidOut_of_forBlockCount? hlayout
      · cases hlayout
    have hplan : Executes sb.formatCalls (do
        sb.store d
        flush (blank d sb) : VolumeM (Observed W) Unit) := by
      rw [hl.formatCalls_eq]
      exact (storeBlock_executes d 0 _).bind fun _ => flush_executes (blank d sb)
    rw [← bind_assoc]
    refine Ends.bind ((hplan ⟨w, []⟩).mono (fun _ o hs => ⟨rfl, hs.events⟩) fun e o herr => ?_)
    obtain ⟨call, c, he, hs⟩ := herr
    exact .inr ⟨sb, call, c, rfl, he, hs.events⟩

/-! ## 3. What is mounted afterwards -/

/-- **Formatting wrote the layout `sb` and nothing else:** it is the layout of the device, every block
    before the data blocks was written once, then the device was synced, and the data blocks hold
    what they held. -/
structure Formatted [LawfulBlockDevice W H] (d : H) (w : W) (sb : Superblock) (w' : W) : Prop where
  laidOut : sb.LaidOut (storage d w).blockCount
  events_eq : Volume.formatEvents d w = sb.formatCalls.map (Event.mk · none)
  data_eq : ∀ i, sb.dataStart.toNat ≤ i → (storage d w').block i = (storage d w).block i

/-- **A volume without files is mounted,** whose one file can take all data blocks but one. -/
structure FileSystem.HoldsNothing (fs : FileSystem W H) (sb : Superblock) : Prop where
  superblock_eq : fs.mounted.map Volume.superblock = some sb
  list_eq : list fs = .ok [] fs
  check_eq : check fs = .ok () fs
  info_eq : ∃ i, info fs = .ok i fs ∧ i.tableFree = sb.dataBlocks.toNat - 1 ∧
    i.directoryFree = maxFiles
  /-- A file that is created is filled piece by piece, until all blocks are in use. -/
  fill_eq : ∀ (name : String) (pieces : List ByteArray), validName name = true → ∃ filling,
    answers FileCall.run (.create name :: .openFile name :: pieces.map (.write 0)) fs =
      .ok .done :: .ok (.number 0) :: filling ∧
    filling = fillAnswers ((sb.dataBlocks.toNat - 1) * blockSize) pieces ∧
    stored filling = min (pieces.map ByteArray.size).sum ((sb.dataBlocks.toNat - 1) * blockSize)

variable [LawfulBlockDevice W H] {d : H} {w : W} {sb : Superblock}

/-- Formatting that succeeds has written the layout of the device. -/
theorem Volume.formatted_of_format {w' : W} (hw : (storage d w).whole)
    (h : format d w = .ok sb w') : Formatted d w sb w' := by
  obtain ⟨hlayout, hevents⟩ := (ends_iff.mp (format_observed d w)).1 _ _ h
  obtain ⟨-, -, htouched, -⟩ := (ends_iff.mp (format_ends d hw)).1 _ _ h
  have hl := Superblock.laidOut_of_forBlockCount? (layout?_eq_some_iff.mp hlayout).2
  refine ⟨hl, hevents.eq_of_none, fun i hi => htouched.block_eq i fun hle => ?_⟩
  have := hl.directoryBlock_eq
  have := hl.dataStart_eq
  omega

theorem Directory.freeCount_empty : Directory.empty.freeCount = maxFiles := by
  rw [freeCount, empty, Vector.toList_replicate, List.countP_replicate]
  exact if_pos rfl

theorem Directory.files_empty : Directory.empty.files = [] := by
  rw [files, empty, Vector.toList_replicate, List.filter_replicate]
  exact if_neg (by decide)

/-- What is mounted from a formatted device that never fails is a volume without files. -/
theorem FileSystem.holdsNothing_of_blank {n : Nat} {m : Mounted W H}
    (hv : m.volume = Volume.blank d sb) (hfits : Superblock.forBlockCount? n = some sb)
    (hn : NeverFails d m.world) (hcount : (storage d m.world).blockCount = n) :
    (ofMounted m).HoldsNothing sb := by
  obtain ⟨v, w⟩ := m
  obtain rfl : v = Volume.blank d sb := hv
  have hi := Volume.intact_blank (d := d) hfits
  have hl := Superblock.laidOut_of_forBlockCount? hfits
  have hfaithful : Faithful ⟨Volume.blank d sb, w⟩ := by
    refine ⟨⟨_, hi⟩, fun b hb => ?_, hn⟩
    have hlt : b.toNat < sb.dataBlocks.toNat := hi.size_eq ▸ hb
    exact hcount ▸ (hl.dataBlock_lt hlt).2
  have hfree : (Volume.blank d sb).info.tableFree + 1 = sb.dataBlocks.toNat :=
    AllocationTable.freeCount_empty hl.geometry.data_pos
  refine ⟨rfl, ?_, ?_, ⟨(Volume.blank d sb).info, rfl, by omega, ?_⟩, fun name pieces hname => ?_⟩
  · show EStateM.Result.ok Directory.empty.files _ = _
    rw [Directory.files_empty]
    rfl
  · exact check_eq_ok_iff.mpr ⟨rfl, _, rfl, hi.toTidy.check_eq_ok_iff.mpr ⟨_, hi⟩⟩
  · simp only [Volume.info, Volume.blank, Directory.freeCount_empty]
  · refine ⟨_, ?_, rfl, stored_fillAnswers _ _⟩
    rw [answers_eq_of_faithful _ hfaithful, plain_blank hfits, Plain.answers_fill hname]

/-- **Formatting gives an empty volume that can be mounted.** On a device of blocks of the right size
    that never fails, formatting is refused exactly where no numbers satisfy the equations of a
    layout, and then no call is made. Otherwise all blocks before the data blocks are written and
    nothing else, and what is then mounted holds no files, with room for one of the size of all data
    blocks but the reserved one: of the pieces that are put behind each other in a file, just so many
    bytes are stored, and then the disk is full. -/
theorem FileSystem.format_empties (hb : (storage d w).blockBytes = blockSize)
    (hw : (storage d w).whole) (hn : NeverFails d w) :
    ((∃ w', Volume.format d w = .error .invalidGeometry w') ↔
      ¬ ∃ t k, Geometry (storage d w).blockCount t k) ∧
    (∀ e w', Volume.format d w = .error e w' →
      e = .invalidGeometry ∧ w' = w ∧ Volume.formatEvents d w = []) ∧
    (∀ {t k}, Geometry (storage d w).blockCount t k → ∃ sb w' fs,
      Volume.format d w = .ok sb w' ∧ Formatted d w sb w' ∧ sb.dataBlocks.toNat = k ∧
      mount d (ofWorld w') = .ok () fs ∧ fs.HoldsNothing sb) := by
  have hnone : Volume.layout? d w = none ↔ ¬ ∃ t k, Geometry (storage d w).blockCount t k := by
    rw [Volume.layout?, ← LawfulBlockDevice.blockBytes_eq, ← LawfulBlockDevice.blockCount_eq,
      if_pos hb, Superblock.forBlockCount?_eq_none_iff]
  have hobserved := Volume.format_observed d w
  have hends := Volume.format_ends d hw
  cases hlayout : Volume.layout? d w with
  | none =>
    have hno := hnone.mp hlayout
    have hformat := Volume.format_of_no_layout hlayout
    refine ⟨iff_of_true ⟨w, hformat⟩ hno, fun e w' he => ?_, fun hg => absurd ⟨_, _, hg⟩ hno⟩
    rcases (ends_iff.mp hobserved).2 e w' he with ⟨-, -, hevents⟩ | ⟨sb, -, -, hsome, -⟩
    · cases hformat.symm.trans he
      exact ⟨rfl, rfl, hevents⟩
    · rw [hlayout] at hsome
      cases hsome
  | some sb =>
    have hfits := (Volume.layout?_eq_some_iff.mp hlayout).2
    have hyes : ∃ t k, Geometry (storage d w).blockCount t k :=
      ⟨_, _, (Superblock.laidOut_of_forBlockCount? hfits).geometry⟩
    obtain ⟨sb', w', hf⟩ := Volume.exists_format hw hb (by rw [hfits]; rfl) hn
    have herr : ∀ {e w'}, Volume.format d w ≠ .error e w' := by
      intro e w' he
      cases hf.symm.trans he
    refine ⟨iff_of_false (not_exists.mpr fun _ he => herr he) (not_not_intro hyes),
      fun e w' he => absurd he herr, fun hg => ?_⟩
    obtain ⟨hc, -, -, hnf⟩ := (ends_iff.mp hends).1 sb' w' hf
    have hblank := Volume.blank_of_format hw hf
    have hformatted := Volume.formatted_of_format hw hf
    obtain ⟨w'', hm, ha⟩ := exists_mount_of_blank hblank (hnf hn)
    refine ⟨sb', w', _, hf, hformatted, (hformatted.laidOut.geometry.unique hg).2, hm, ?_⟩
    exact holdsNothing_of_blank rfl hc.fits (ha.neverFails (hnf hn))
      (congrArg Storage.blockCount ha.storage_eq)

end OnDevice

/-- In memory: two blocks are too few, and eight are enough. -/
theorem FileSystem.format_empties_memory :
    (∃ w', Volume.format () ({ blockCount := 2 } : Memory) = .error .invalidGeometry w') ∧
    ∃ sb w' fs, Volume.format () ({ blockCount := 8 } : Memory) = .ok sb w' ∧
      sb.dataBlocks.toNat = 5 ∧ mount () (ofWorld w') = .ok () fs ∧ fs.HoldsNothing sb := by
  constructor
  · refine (format_empties (d := ()) rfl (Memory.whole_storage _) (Memory.neverFails rfl)).1.mpr ?_
    intro hq
    rcases hq with ⟨t, k, hg⟩
    have hpos := hg.data_pos
    have htotal : 2 = k + t + 2 := hg.total_eq
    omega
  · have hg : Geometry 8 1 5 := ⟨by decide, rfl, by decide, by decide⟩
    obtain ⟨sb, w', fs, hf, -, hdata, hm, hempty⟩ :=
      (format_empties (d := ()) (w := ({ blockCount := 8 } : Memory)) rfl (Memory.whole_storage _)
        (Memory.neverFails rfl)).2.2 hg
    exact ⟨sb, w', fs, hf, hdata, hm, hempty⟩

end FlatVolume
