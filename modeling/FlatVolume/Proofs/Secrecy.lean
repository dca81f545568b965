import FlatVolume.Proofs.Acceptance
import FlatVolume.Proofs.Formatted
import FlatVolume.Proofs.InStep
import FlatVolume.Proofs.Persistence
import FlatVolume.Proofs.Provenance

/-!
# Old contents do not show

Formatting leaves the data blocks as they are. Still nothing of them is ever seen: two devices of one
size that held different things, formatted and then used alike, with calls that fail alike, answer
alike (`FileSystem.format_conceals`).

`Pairing.Twins` is what a run keeps while a volume is mounted: the same metadata in memory, and files
that hold the same bytes, whatever else the data blocks hold. `Pairing.Alike` says it of two mount
points, and every request keeps it (`Request.run_alike`).
-/

namespace FlatVolume

open AllocationTable Bytes FlatVolume.Computation Mounted
open FileSystem (ofMounted ofWorld)
open LawfulBlockDevice (storage)

/-! ## 1. Requests -/

/-- Whatever can be asked of a mount point and its device. -/
inductive Request where
  | mount
  | unmount
  | info
  | check
  | list
  | file (call : FileCall)

/-- What is answered. -/
inductive Reply where
  | done
  | info (info : Volume.Info)
  | listing (files : List Entry)
  | answer (answer : Answer)

/-- What a request does at a mount point whose device is `d`. -/
def Request.run {W H : Type} [BlockDevice W H] (d : H) : Request → FileSystemM W H Reply
  | .mount => (fun _ => .done) <$> FileSystem.mount d
  | .unmount => (fun _ => .done) <$> FileSystem.unmount
  | .info => .info <$> FileSystem.info
  | .check => (fun _ => .done) <$> FileSystem.check
  | .list => .listing <$> FileSystem.list
  | .file call => .answer <$> call.run

variable {W₁ H₁ W₂ H₂ α β : Type} [BlockDevice W₁ H₁] [LawfulBlockDevice W₁ H₁] [BlockDevice W₂ H₂]
  [LawfulBlockDevice W₂ H₂] {p : Pairing H₁ H₂}

/-! ## 2. Twins -/

theorem Volume.Intact.moved {H H' : Type} {v : Volume H} {own : Slot → List Link}
    (h : v.Intact own) (d : H') : (v.moved d).Intact own where
  layout := h.layout
  size_eq := h.size_eq
  free_eq := h.free_eq
  validName := h.validName
  bound := h.bound
  allotment := h.allotment
  length_eq := h.length_eq

/-- Writing metadata leaves the bytes of all files as they are. -/
theorem Anchored.bytesOf_eq {W H : Type} [BlockDevice W H] [LawfulBlockDevice W H]
    {d : H} {v : Volume H} {w w' : W} (h : Anchored d v w)
    (ht : Touched (IsMetadata v.superblock) (storage d w) (storage d w')) (e : Entry) :
    bytesOf ⟨v, w'⟩ e = bytesOf ⟨v, w⟩ e := by
  obtain rfl := h.device_eq
  exact bytesOf_congr rfl rfl fun b _ =>
    ht.block_eq _ (not_isMetadata_dataBlock h.carries.laidOut b)

namespace Pairing

/-- **One volume on both devices, and its files hold the same.** What stands in other blocks, or behind
    the end of a file, is left open. -/
structure Twins (p : Pairing H₁ H₂) (v : Volume H₁) (w₁ : W₁) (w₂ : W₂) : Prop where
  left : Anchored p.left v w₁
  right : Anchored p.right (v.moved p.right) w₂
  abreast : p.Abreast w₁ w₂
  bytes_eq : ∀ s, bytesOf ⟨v.moved p.right, w₂⟩ (v.root.get s) = bytesOf ⟨v, w₁⟩ (v.root.get s)

variable {v : Volume H₁} {w₁ u₁ : W₁} {w₂ u₂ : W₂}

theorem Twins.inStep (h : p.Twins v w₁ w₂) : p.InStep ⟨v, w₁⟩ ⟨v.moved p.right, w₂⟩ := by
  obtain ⟨past, hrun, -⟩ := h.abreast
  obtain ⟨own, hi⟩ := h.left.intact
  exact ⟨⟨h.left.device_eq, hrun.blockCount_eq ▸ h.left.carries.laidOut, hi.size_eq⟩, rfl, h.abreast⟩

/-- Twins are twins after metadata was written. -/
theorem Twins.touched (h : p.Twins v w₁ w₂)
    (h₁ : Touched (IsMetadata v.superblock) (storage p.left w₁) (storage p.left u₁))
    (h₂ : Touched (IsMetadata v.superblock) (storage p.right w₂) (storage p.right u₂))
    (ha : p.Abreast u₁ u₂) : p.Twins v u₁ u₂ where
  left := h.left.touched h₁
  right := h.right.touched h₂
  abreast := ha
  bytes_eq s := by rw [h.left.bytesOf_eq h₁, ← h.bytes_eq s]; exact h.right.bytesOf_eq h₂ _

/-- Twins are twins when their files were closed. -/
theorem Twins.closed (h : p.Twins v w₁ w₂) :
    p.Twins { v with files := OpenFiles.empty } w₁ w₂ := by
  obtain ⟨own, hi⟩ := h.left.intact
  have hclosed := hi.withoutFiles
  exact ⟨⟨h.left.device_eq, ⟨own, hclosed⟩, h.left.carries, h.left.whole⟩,
    ⟨rfl, ⟨own, hclosed.moved p.right⟩, h.right.carries, h.right.whole⟩, h.abreast, h.bytes_eq⟩

/-- **Twins that were flushed:** both devices hold the metadata of the volume. -/
structure Resting (p : Pairing H₁ H₂) (v : Volume H₁) (w₁ : W₁) (w₂ : W₂) : Prop
    extends Twins p v w₁ w₂ where
  flushed_left : Flushed (storage p.left w₁) v.superblock v.table v.root
  flushed_right : Flushed (storage p.right w₂) v.superblock v.table v.root

/-- What rests goes on resting while the devices hold what they hold. -/
theorem Resting.of_storage_eq (h : p.Resting v w₁ w₂) (h₁ : storage p.left u₁ = storage p.left w₁)
    (h₂ : storage p.right u₂ = storage p.right w₂) (ha : p.Abreast u₁ u₂) : p.Resting v u₁ u₂ where
  toTwins := h.toTwins.touched (h₁ ▸ .refl _ _) (h₂ ▸ .refl _ _) ha
  flushed_left := h₁ ▸ h.flushed_left
  flushed_right := h₂ ▸ h.flushed_right

/-- **Two mount points that cannot be told apart:** twins are mounted, or nothing is and twins are at
    rest. -/
inductive Alike (p : Pairing H₁ H₂) : FileSystem W₁ H₁ → FileSystem W₂ H₂ → Prop where
  | mounted {v : Volume H₁} {w₁ : W₁} {w₂ : W₂} (h : p.Twins v w₁ w₂) :
      Alike p (ofMounted ⟨v, w₁⟩) (ofMounted ⟨v.moved p.right, w₂⟩)
  | resting {v : Volume H₁} {w₁ : W₁} {w₂ : W₂} (h : p.Resting v w₁ w₂) :
      Alike p (ofWorld w₁) (ofWorld w₂)

/-! ## 3. Mounting and unmounting -/

/-- Both devices have answered the same calls and hold what they held. -/
def Reading (p : Pairing H₁ H₂) (st₁ st₂ : Storage) (w₁ : W₁) (w₂ : W₂) : Prop :=
  p.Abreast w₁ w₂ ∧ storage p.left w₁ = st₁ ∧ storage p.right w₂ = st₂

variable {st₁ st₂ : Storage} {sb : Superblock} {t : AllocationTable} {root : Directory}

theorem loadBlock_reading {i : Nat} (hi : i < p.blockCount) :
    Lockstep (p.Reading st₁ st₂) (fun b b' => b = st₁.block i ∧ b' = st₂.block i)
      (loadBlock p.left i : VolumeM W₁ Block) (loadBlock p.right i : VolumeM W₂ Block) := by
  intro w₁ w₂ hw
  obtain ⟨ha, rfl, rfl⟩ := hw
  refine (loadBlock_lockstep hi w₁ w₂ ha).and_ends (loadBlock_ends _ i w₁) (loadBlock_ends _ i w₂)
    ?_ ?_
  · intro b b' u₁ u₂ _ hu h₁ h₂
    exact ⟨⟨h₁.1, h₂.1⟩, hu, h₁.2.storage_eq, h₂.2.storage_eq⟩
  · intro e u₁ u₂ hu h₁ h₂
    exact ⟨hu, h₁.2.storage_eq, h₂.2.storage_eq⟩

theorem mapM_loadBlock_reading {pos : Nat → Nat} {l : List Nat}
    (hl : ∀ i ∈ l, pos i < p.blockCount) :
    Lockstep (p.Reading st₁ st₂) (fun _ _ => True)
      (l.mapM fun i => (loadBlock p.left (pos i) : VolumeM W₁ Block))
      (l.mapM fun i => (loadBlock p.right (pos i) : VolumeM W₂ Block)) := by
  induction l with
  | nil => exact .pure trivial
  | cons i l ih =>
    rw [List.mapM_cons, List.mapM_cons]
    refine (loadBlock_reading (hl i (List.mem_cons_self ..))).bind fun _ _ _ => ?_
    exact (ih fun j hj => hl j (List.mem_cons_of_mem _ hj)).bind fun _ _ _ => .pure trivial

theorem superblockLoad_reading (h₁ : Carries st₁ sb) (h₂ : Carries st₂ sb)
    (hl : sb.LaidOut p.blockCount) :
    Lockstep (p.Reading st₁ st₂) (fun sb₁ sb₂ => sb₁ = sb ∧ sb₂ = sb)
      (Superblock.load p.left : VolumeM W₁ Superblock)
      (Superblock.load p.right : VolumeM W₂ Superblock) := by
  unfold Superblock.load
  refine .get_bind fun w₁ w₂ hw => ?_
  obtain ⟨-, hw₁, hw₂⟩ := hw
  rw [← LawfulBlockDevice.blockBytes_eq, ← LawfulBlockDevice.blockBytes_eq, hw₁, hw₂,
    h₁.blockBytes_eq, h₂.blockBytes_eq, if_neg (not_not_intro rfl), if_neg (not_not_intro rfl)]
  have hpos := hl.directoryBlock_lt
  refine (loadBlock_reading (by omega)).bind fun b b' hb => ?_
  obtain ⟨rfl, rfl⟩ := hb
  dsimp only
  rw [h₁.header_eq, h₂.header_eq, h₁.laidOut.signature_eq, if_neg (not_not_intro rfl),
    if_neg (not_not_intro rfl)]
  refine .get_bind fun u₁ u₂ hu => ?_
  obtain ⟨-, hu₁, hu₂⟩ := hu
  rw [← LawfulBlockDevice.blockCount_eq, ← LawfulBlockDevice.blockCount_eq, hu₁, hu₂, h₁.fits,
    h₂.fits, if_neg (not_not_intro rfl), if_neg (not_not_intro rfl)]
  exact .pure ⟨rfl, rfl⟩

/-- **What was flushed is loaded at the same time,** or the same call fails. -/
theorem load_reading (hc₁ : Carries st₁ sb) (hc₂ : Carries st₂ sb) (hf₁ : Flushed st₁ sb t root)
    (hf₂ : Flushed st₂ sb t root) (hl : sb.LaidOut p.blockCount) (hr : ∀ s, (root.get s).Storable) :
    Lockstep (p.Reading st₁ st₂) (fun _ _ => True) (Volume.load p.left : VolumeM W₁ (Volume H₁))
      (Volume.load p.right : VolumeM W₂ (Volume H₂)) := by
  refine (superblockLoad_reading hc₁ hc₂ hl).bind fun sb₁ sb₂ hsb => ?_
  rw [hsb.1, hsb.2]
  have htable : ∀ i ∈ List.range sb.tableBlocks.toNat, sb.tableStart + i < p.blockCount := by
    intro i hi
    have := hl.tableBlock_lt (List.mem_range.mp hi)
    have := hl.directoryBlock_lt
    omega
  refine ((mapM_loadBlock_reading htable).bind (B := fun _ _ => True) fun _ _ _ =>
    .pure trivial).bind fun _ _ _ => ?_
  refine ((loadBlock_reading hl.directoryBlock_lt).bind (B := fun _ _ => True)
    fun b b' hb => ?_).bind fun _ _ _ => .pure trivial
  obtain ⟨rfl, rfl⟩ := hb
  rw [hf₁.root_eq, hf₂.root_eq, Directory.decode_encode hr]
  exact .pure trivial

/-- **Twins at rest are loaded as twins,** with no file open. -/
theorem Resting.load (h : p.Resting v w₁ w₂) :
    Matched (p.Resting v)
      (fun v₁ v₂ => v₁ = { v with files := OpenFiles.empty } ∧ v₂ = v₁.moved p.right)
      (Volume.load p.left w₁) (Volume.load p.right w₂) := by
  obtain ⟨own, hi⟩ := h.left.intact
  have hload := load_reading h.left.carries h.right.carries h.flushed_left h.flushed_right
    h.inStep.fits.laidOut hi.storable w₁ w₂ ⟨h.abreast, rfl, rfl⟩
  refine hload.and_ends
    (Volume.load_of_flushed h.left.carries h.flushed_left hi.size_eq hi.storable)
    (Volume.load_of_flushed h.right.carries h.flushed_right hi.size_eq hi.storable) ?_ ?_
  · intro v₁ v₂ u₁ u₂ _ hu hv₁ hv₂
    refine ⟨⟨?_, ?_⟩, h.of_storage_eq hu.2.1 hu.2.2 hu.1⟩
    · rw [hv₁.1, ← h.left.device_eq]
    · rw [hv₂.1, hv₁.1]
      rfl
  · intro e u₁ u₂ hu _ _
    exact h.of_storage_eq hu.2.1 hu.2.2 hu.1

/-- **Mounting** gives twins, or leaves them at rest. -/
theorem mount_alike : Lockstep p.Alike (· = ·)
    (FileSystem.mount p.left : FileSystemM W₁ H₁ Unit)
    (FileSystem.mount p.right : FileSystemM W₂ H₂ Unit) := by
  intro fs₁ fs₂ hfs
  cases hfs with
  | mounted h => exact .error _ (.mounted h)
  | @resting v w₁ w₂ h =>
    have hload := h.load
    unfold FileSystem.mount ofWorld
    dsimp only
    generalize Volume.load p.left w₁ = r at hload ⊢
    generalize Volume.load p.right w₂ = r' at hload ⊢
    cases hload with
    | ok hv hu =>
      obtain ⟨rfl, rfl⟩ := hv
      exact .ok rfl (.mounted hu.closed)
    | error e hu => exact .error e (.resting hu)

/-- Closing the devices leaves what rests there. -/
theorem Resting.close (h : p.Resting v w₁ w₂) :
    Matched (p.Resting v) (· = ·) (closeDevice p.left w₁) (closeDevice p.right w₂) := by
  refine (closeDevice_lockstep w₁ w₂ h.abreast).and_ends (closeDevice_ends p.left w₁)
    (closeDevice_ends p.right w₂) ?_ ?_
  · intro _ _ u₁ u₂ _ hu h₁ h₂
    exact ⟨rfl, h.of_storage_eq h₁.storage_eq h₂.storage_eq hu⟩
  · intro e u₁ u₂ hu h₁ h₂
    exact h.of_storage_eq h₁.2.storage_eq h₂.2.storage_eq hu

/-- **Unmounting** leaves twins at rest, or mounted where the flush fails. -/
theorem unmount_alike : Lockstep p.Alike (· = ·)
    (FileSystem.unmount : FileSystemM W₁ H₁ Unit) (FileSystem.unmount : FileSystemM W₂ H₂ Unit) := by
  intro fs₁ fs₂ hfs
  cases hfs with
  | resting h => exact .error _ (.resting h)
  | @mounted v w₁ w₂ h =>
    have hflush := flush_lockstep h.inStep.fits w₁ w₂ h.abreast
    have hends₁ := h.left.flush_ends
    have hends₂ := h.right.flush_ends
    have hd := h.left.device_eq
    unfold Ends at hends₁ hends₂
    unfold FileSystem.unmount ofMounted
    dsimp only
    generalize v.flush w₁ = r at hflush hends₁ ⊢
    generalize (v.moved p.right).flush w₂ = r' at hflush hends₂ ⊢
    cases hflush with
    | error e hu => exact .error _ (.mounted (h.touched hends₁ hends₂ hu))
    | @ok _ _ u₁ u₂ _ hu =>
      have hclose := Resting.close ⟨h.touched hends₁.1 hends₂.1 hu, hends₁.2, hends₂.2⟩
      dsimp only
      rw [hd]
      have hmoved : (v.moved p.right).device = p.right := rfl
      rw [hmoved]
      generalize closeDevice p.left u₁ = q at hclose ⊢
      generalize closeDevice p.right u₂ = q' at hclose ⊢
      cases hclose with
      | ok _ hs => exact .ok rfl (.resting hs)
      | error e hs => exact .error e (.resting hs)

/-! ## 4. Calls -/

/-- Twins that answer a question alike stay as they are. -/
theorem query_alike {f : Volume H₁ → Except VolumeError α} {g : Volume H₂ → Except VolumeError α}
    (h : ∀ v, g (v.moved p.right) = f v) :
    Lockstep p.Alike (· = ·) (FileSystem.query f : FileSystemM W₁ H₁ α)
      (FileSystem.query g : FileSystemM W₂ H₂ α) := by
  intro fs₁ fs₂ hfs
  cases hfs with
  | resting ht => exact .error _ (.resting ht)
  | @mounted v w₁ w₂ ht =>
    rw [FileSystem.query_run, FileSystem.query_run, h v]
    cases f v with
    | ok a => exact .ok rfl (.mounted ht)
    | error e => exact .error e (.mounted ht)

/-- What a call puts into a file is a matter of what is in memory. -/
theorem put?_moved {H H' : Type} (call : FileCall) (v v' : Volume H) (d : H') :
    call.put? (v.moved d) (v'.moved d) = call.put? v v' := by
  cases call <;> rfl

/-- **A call in step leaves twins,** where it has put the same into both. -/
theorem Twins.called {call : FileCall} {own : Slot → List Link} {m₁ : Mounted W₁ H₁}
    {m₂ : Mounted W₂ H₂} (h : p.Twins v w₁ w₂) (hi : v.Intact own) (hm : p.InStep m₁ m₂)
    (h₁ : Effect call ⟨v, w₁⟩ own m₁) (h₂ : Effect call ⟨v.moved p.right, w₂⟩ own m₂) :
    p.Alike (ofMounted m₁) (ofMounted m₂) := by
  have hi₂ := hi.moved p.right
  obtain ⟨v₁, u₁⟩ := m₁
  obtain ⟨v₂, u₂⟩ := m₂
  obtain rfl : v₂ = v₁.moved p.right := hm.volume_eq
  have hput : Overlaid ⟨v.moved p.right, w₂⟩ ⟨v₁.moved p.right, u₂⟩ (call.put? v v₁) :=
    put?_moved call v v₁ p.right ▸ h₂.overlaid hi₂
  exact .mounted ⟨h.left.stepped (m := ⟨v, w₁⟩) hi (h₁.stepped hi),
    h.right.stepped (m := ⟨v.moved p.right, w₂⟩) hi₂ (h₂.stepped hi₂), hm.abreast,
    (h₁.overlaid hi).bytesOf_congr hput rfl h.bytes_eq⟩

end Pairing

open Pairing

/-- **Every call on the files answers alike** at two mount points that are alike, and leaves them so. -/
theorem FileCall.run_alike (call : FileCall) : Lockstep p.Alike (· = ·)
    (call.run : FileSystemM W₁ H₁ Answer) (call.run : FileSystemM W₂ H₂ Answer) := by
  intro fs₁ fs₂ hfs
  cases hfs with
  | @resting v w₁ w₂ h =>
    have h₁ : call.run (ofWorld w₁ : FileSystem W₁ H₁) = .error .notMounted (ofWorld w₁) := by
      cases call <;> rfl
    have h₂ : call.run (ofWorld w₂ : FileSystem W₂ H₂) = .error .notMounted (ofWorld w₂) := by
      cases call <;> rfl
    rw [h₁, h₂]
    exact .error _ (.resting h)
  | @mounted v w₁ w₂ h =>
    obtain ⟨own, hi⟩ := h.left.intact
    have hi₂ := hi.moved p.right
    have hstep : ∀ (fs₁ : FileSystem W₁ H₁) (fs₂ : FileSystem W₂ H₂), p.Side fs₁ fs₂ →
        (∃ m, fs₁ = ofMounted m ∧ Effect call ⟨v, w₁⟩ own m) →
        (∃ m, fs₂ = ofMounted m ∧ Effect call ⟨v.moved p.right, w₂⟩ own m) → p.Alike fs₁ fs₂ := by
      intro fs₁ fs₂ hside h₁ h₂
      obtain ⟨m₁, rfl, h₁⟩ := h₁
      obtain ⟨m₂, rfl, h₂⟩ := h₂
      exact h.called hi (inStep_of_side hside) h₁ h₂
    refine (call.run_lockstep _ _ (.mounted h.inStep)).and_ends
      ((call.run_effect (m := ⟨v, w₁⟩) hi).and (call.run_gives (m := ⟨v, w₁⟩) hi))
      ((call.run_effect (m := ⟨v.moved p.right, w₂⟩) hi₂).and
        (call.run_gives (m := ⟨v.moved p.right, w₂⟩) hi₂)) ?_ ?_
    · intro a b fs₁ fs₂ hab hside h₁ h₂
      refine ⟨?_, hstep fs₁ fs₂ hside h₁.1 h₂.1⟩
      rcases hab with heq | ⟨fd, count, rfl⟩
      · exact heq
      · obtain ⟨f, slot, hr, rfl⟩ := h₁.2 fd count rfl
        obtain ⟨f', slot', hr', rfl⟩ := h₂.2 fd count rfl
        cases (show v.resolve fd = _ from hr').symm.trans hr
        exact congrArg (fun bytes : ByteArray =>
          Answer.bytes (bytes.extract f.offset (f.offset + count))) (h.bytes_eq slot).symm
    · intro e fs₁ fs₂ hside h₁ h₂
      exact hstep fs₁ fs₂ hside h₁.1.1 h₂.1.1

/-- **Every request is answered alike** at two mount points that are alike, and leaves them so. -/
theorem Request.run_alike (request : Request) : Lockstep p.Alike (· = ·)
    (request.run p.left : FileSystemM W₁ H₁ Reply)
    (request.run p.right : FileSystemM W₂ H₂ Reply) := by
  cases request with
  | mount => exact mount_alike.map_eq _
  | unmount => exact unmount_alike.map_eq _
  | info => exact (query_alike (f := fun v => .ok v.info) fun _ => rfl).map_eq _
  | check => exact (query_alike (f := Volume.check) fun _ => rfl).map_eq _
  | list => exact (query_alike (f := fun v => .ok v.root.files) fun _ => rfl).map_eq _
  | file call => exact call.run_alike.map_eq _

/-! ## 5. From formatting on -/

/-- **Two formatted devices of one size are alike,** whatever they held before. -/
theorem Pairing.alike_of_format {u₁ u₁' w₁ : W₁} {u₂ u₂' w₂ : W₂} {sb₁ sb₂ : Superblock}
    (hw₁ : (storage p.left u₁).whole) (hw₂ : (storage p.right u₂).whole)
    (hf₁ : Volume.format p.left u₁ = .ok sb₁ u₁') (hf₂ : Volume.format p.right u₂ = .ok sb₂ u₂')
    (hs₁ : storage p.left w₁ = storage p.left u₁') (hs₂ : storage p.right w₂ = storage p.right u₂')
    (ha : p.Abreast w₁ w₂) : p.Alike (ofWorld w₁) (ofWorld w₂) := by
  obtain ⟨hc₁, hflushed₁, -⟩ := (ends_iff.mp (Volume.format_ends p.left hw₁)).1 _ _ hf₁
  obtain ⟨hc₂, hflushed₂, -⟩ := (ends_iff.mp (Volume.format_ends p.right hw₂)).1 _ _ hf₂
  obtain ⟨past, hrun₁, hrun₂⟩ := ha
  rw [← hs₁] at hc₁ hflushed₁
  rw [← hs₂] at hc₂ hflushed₂
  obtain rfl : sb₁ = sb₂ := by
    have hfits := hc₁.fits
    rw [hrun₁.blockCount_eq, ← hrun₂.blockCount_eq, hc₂.fits] at hfits
    exact (Option.some.inj hfits).symm
  have hi := Volume.intact_blank (d := p.left) hc₁.fits
  refine .resting (v := Volume.blank p.left sb₁) ⟨⟨⟨rfl, ⟨_, hi⟩, hc₁, hrun₁.whole⟩,
    ⟨rfl, ⟨_, hi.moved p.right⟩, hc₂, hrun₂.whole⟩, ⟨past, hrun₁, hrun₂⟩, fun s => ?_⟩, hflushed₁,
    hflushed₂⟩
  have hsize : ((Volume.blank p.left sb₁).root.get s).size = 0 := by
    rw [Volume.blank, Volume.get_empty]
    rfl
  rw [bytesOf_of_size_eq_zero _ hsize, bytesOf_of_size_eq_zero _ hsize]

/-- **Old contents never show.** Two devices of one size are formatted, whatever their blocks hold. Then
    any list of requests is answered alike on both, reply by reply and every byte of every read, as long
    as their calls fail alike: which one fails is decided by the calls before it, such as by how many
    there were, and by what it asks for. -/
theorem FileSystem.format_conceals {d₁ : H₁} {d₂ : H₂} {u₁ u₁' w₁ : W₁} {u₂ u₂' w₂ : W₂}
    {sb₁ sb₂ : Superblock} {fails : List Call → Call → Option DeviceError} {past : List Call}
    (hcount : (storage d₁ u₁).blockCount = (storage d₂ u₂).blockCount)
    (hw₁ : (storage d₁ u₁).whole) (hw₂ : (storage d₂ u₂).whole)
    (hf₁ : Volume.format d₁ u₁ = .ok sb₁ u₁') (hf₂ : Volume.format d₂ u₂ = .ok sb₂ u₂')
    (hs₁ : storage d₁ w₁ = storage d₁ u₁') (hs₂ : storage d₂ w₂ = storage d₂ u₂')
    (hn₁ : FailsBy fails d₁ past w₁) (hn₂ : FailsBy fails d₂ past w₂) (requests : List Request) :
    answers (Request.run d₁) requests (ofWorld w₁ : FileSystem W₁ H₁) =
      answers (Request.run d₂) requests (ofWorld w₂ : FileSystem W₂ H₂) := by
  have hshape₁ := ((ends_iff.mp (Volume.format_ends d₁ hw₁)).1 _ _ hf₁).2.2.1.shape
  have hshape₂ := ((ends_iff.mp (Volume.format_ends d₂ hw₂)).1 _ _ hf₂).2.2.1.shape
  let p : Pairing H₁ H₂ := ⟨d₁, d₂, (storage d₁ u₁).blockCount, fails⟩
  have ha : p.Abreast w₁ w₂ := by
    refine ⟨past, ⟨hn₁, ?_, ?_⟩, ⟨hn₂, ?_, ?_⟩⟩
    · rw [hs₁, hshape₁.whole_eq, hw₁]
    · rw [hs₁, hshape₁.blockCount_eq]
    · rw [hs₂, hshape₂.whole_eq, hw₂]
    · rw [hs₂, hshape₂.blockCount_eq, ← hcount]
  exact Lockstep.answers_eq (fun r => r.run_alike (p := p)) requests
    (alike_of_format hw₁ hw₂ hf₁ hf₂ hs₁ hs₂ ha)

/-- A device in memory of eight blocks can be formatted, and its first data block stays as it is. -/
theorem Memory.format_eight {m : Memory} (hn : m.blockCount = 8) (hb : m.blockBytes = blockSize)
    (hf : m.faults = {}) :
    ∃ m', Volume.format () m = .ok Superblock.eight m' ∧ m'.block 3 = m.block 3 := by
  have hfits : Superblock.forBlockCount? m.storage.blockCount = some Superblock.eight := by
    rw [show m.storage.blockCount = 8 from hn]
    decide
  obtain ⟨sb, m', hm'⟩ := Volume.exists_format m.whole_storage hb (hfits ▸ rfl) (Memory.neverFails hf)
  obtain ⟨hc, -, ht, -⟩ := (ends_iff.mp (Volume.format_ends () m.whole_storage)).1 sb m' hm'
  obtain rfl : sb = Superblock.eight := by
    have hfits' := hc.fits
    rw [ht.shape.blockCount_eq] at hfits'
    exact Option.some.inj (hfits'.symm.trans hfits)
  exact ⟨m', hm', ht.block_eq 3 (by decide)⟩

/-- A new device and one whose first data block was full of letters, formatted, with two more writes
    that succeed: the file is written, unmounting fails half way, and the file is read. Both answer
    alike, though the letters are still there. -/
theorem FileSystem.format_conceals_memory :
    ∃ m₁ m₂, Volume.format () ({ blockCount := 8 } : Memory) = .ok Superblock.eight m₁ ∧
      Volume.format () (Memory.eightWith 3 Block.letters) = .ok Superblock.eight m₂ ∧
      m₁.block 3 = Block.zero ∧ m₂.block 3 = Block.letters ∧
      answers (Request.run ()) [.mount, .file (.create "a"), .file (.openFile "a"),
          .file (.write 0 "abc".toUTF8), .unmount, .file (.seek 0 0), .file (.read 0 9)]
          (ofWorld { m₁ with faults := { writeBudget := some 2 } } : FileSystem Memory Unit) =
        answers (Request.run ()) [.mount, .file (.create "a"), .file (.openFile "a"),
          .file (.write 0 "abc".toUTF8), .unmount, .file (.seek 0 0), .file (.read 0 9)]
          (ofWorld { m₂ with faults := { writeBudget := some 2 } } : FileSystem Memory Unit) := by
  obtain ⟨m₁, hf₁, hb₁⟩ := Memory.format_eight (m := { blockCount := 8 }) rfl rfl rfl
  obtain ⟨m₂, hf₂, hb₂⟩ := Memory.format_eight (m := Memory.eightWith 3 Block.letters) rfl rfl rfl
  have hletters := Memory.block_eightWith 3 3 Block.letters
  rw [if_pos rfl] at hletters
  have hcount : (storage () ({ blockCount := 8 } : Memory)).blockCount =
      (storage () (Memory.eightWith 3 Block.letters)).blockCount := rfl
  have hfaults : ∀ m : Memory, storage () { m with faults := { writeBudget := some 2 } } =
      storage () m := fun _ => rfl
  refine ⟨m₁, m₂, hf₁, hf₂, hb₁, hb₂.trans hletters, ?_⟩
  exact format_conceals hcount (Memory.whole_storage _) (Memory.whole_storage _) hf₁ hf₂
    (hfaults m₁) (hfaults m₂) (Memory.failsBy rfl) (Memory.failsBy rfl) _

end FlatVolume
