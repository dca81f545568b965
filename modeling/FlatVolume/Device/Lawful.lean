import FlatVolume.Device.Memory
import FlatVolume.Image

/-!
# The contract of block devices

A device holds a `Storage`: so many blocks of such a size, with these contents.
`LawfulBlockDevice W H` is what every device keeps to: a read gives the block that is there, a
store changes that one block, and nothing else changes the storage, least of all a call that fails.
Nothing is said of *when* a call fails, so what holds of every lawful device holds under every
pattern of failures.

A device can be cut short from outside, as an image is when its file is made shorter. It still
answers, but a sync may lose what was stored past the cut; hence `Storage.whole`, which no call
changes and which every device has that is left alone.

Devices in memory keep to the contract, one by itself or several in a bank, and so do image files.
-/

namespace FlatVolume

/-! ## 1. The contract -/

/-- What a device holds. -/
structure Storage where
  blockCount : Nat
  blockBytes : Nat
  /-- All blocks are kept in full: a sync loses nothing. -/
  whole : Bool
  /-- The contents of the blocks, for every number. -/
  block : Nat → Block

/-- The storage with block `i` replaced. -/
def Storage.set (s : Storage) (i : Nat) (b : Block) : Storage :=
  { s with block := fun j => if j = i then b else s.block j }

/-- **The contract of a block device.** -/
class LawfulBlockDevice (W : Type) (H : outParam Type) [BlockDevice W H] where
  storage : H → W → Storage
  blockCount_eq : ∀ (d : H) (w : W), (storage d w).blockCount = BlockDevice.blockCount d w
  blockBytes_eq : ∀ (d : H) (w : W), (storage d w).blockBytes = BlockDevice.blockBytes d w
  /-- A read that succeeds gives the block that is there, and the block is in range. -/
  read_ok : ∀ {d : H} {i : Nat} {w w' : W} {b : Block},
    BlockDevice.readBlock d i w = .ok b w' →
      b = (storage d w).block i ∧ i < BlockDevice.blockCount d w ∧ storage d w' = storage d w
  /-- A read that fails changes nothing. -/
  read_error : ∀ {d : H} {i : Nat} {w w' : W} {e : DeviceError},
    BlockDevice.readBlock d i w = .error e w' → storage d w' = storage d w
  /-- A store that succeeds changes the block in question and nothing else. -/
  write_ok : ∀ {d : H} {i : Nat} {b : Block} {w w' : W},
    BlockDevice.writeBlock d i b w = .ok () w' →
      i < BlockDevice.blockCount d w ∧ storage d w' = (storage d w).set i b
  /-- A store that fails changes nothing. -/
  write_error : ∀ {d : H} {i : Nat} {b : Block} {w w' : W} {e : DeviceError},
    BlockDevice.writeBlock d i b w = .error e w' → storage d w' = storage d w
  /-- Syncing a device that is whole changes nothing, whether it succeeds or not. -/
  sync_ok : ∀ {d : H} {w w' : W}, (storage d w).whole →
    BlockDevice.sync d w = .ok () w' → storage d w' = storage d w
  sync_error : ∀ {d : H} {w w' : W} {e : DeviceError}, (storage d w).whole →
    BlockDevice.sync d w = .error e w' → storage d w' = storage d w
  /-- Closing changes nothing, whether it succeeds or not. -/
  close_ok : ∀ {d : H} {w w' : W},
    BlockDevice.close d w = .ok () w' → storage d w' = storage d w
  close_error : ∀ {d : H} {w w' : W} {e : DeviceError},
    BlockDevice.close d w = .error e w' → storage d w' = storage d w

/-! ## 2. Devices in memory -/

namespace Memory

/-- What a device in memory holds. -/
def storage (m : Memory) : Storage := ⟨m.blockCount, m.blockBytes, true, m.block⟩

theorem storage_record (m : Memory) (c : Call) : (m.record c).storage = m.storage := rfl

theorem storage_of_admitRead {m m' : Memory} {i : Nat} (h : m.admitRead? i = some m') :
    m'.storage = m.storage := by
  unfold admitRead? at h
  split at h
  · cases h
  · obtain ⟨_, _, rfl⟩ := Option.map_eq_some_iff.mp h
    rfl

theorem storage_of_admitWrite {m m' : Memory} {i : Nat} (h : m.admitWrite? i = some m') :
    m'.storage = m.storage := by
  unfold admitWrite? at h
  split at h
  · cases h
  · obtain ⟨_, _, rfl⟩ := Option.map_eq_some_iff.mp h
    rfl

theorem storage_setBlock (m : Memory) (i : Nat) (b : Block) :
    (m.setBlock i b).storage = m.storage.set i b := by
  have h : (m.setBlock i b).block = fun j => if j = i then b else m.block j :=
    funext fun j => block_setBlock m i j b
  simp only [storage, Storage.set, h]
  rfl

theorem readBlock_eq_ok {m m' : Memory} {i : Nat} {b : Block} (h : readBlock i m = .ok b m') :
    b = m.block i ∧ i < m.blockCount ∧ m'.storage = m.storage := by
  unfold readBlock at h
  split at h
  · cases h
  · rename_i n hn
    have hs : n.storage = m.storage := (storage_of_admitRead hn).trans (m.storage_record _)
    have hc : n.blockCount = m.blockCount := congrArg Storage.blockCount hs
    have hb : n.block = m.block := congrArg Storage.block hs
    split at h
    · rename_i hi
      cases h
      exact ⟨by rw [hb], hc ▸ hi, hs⟩
    · cases h

theorem readBlock_eq_error {m m' : Memory} {i : Nat} {e : DeviceError}
    (h : readBlock i m = .error e m') : m'.storage = m.storage := by
  unfold readBlock at h
  split at h
  · cases h; rfl
  · rename_i n hn
    split at h
    · cases h
    · cases h
      exact (storage_of_admitRead hn).trans (m.storage_record _)

theorem writeBlock_eq_ok {m m' : Memory} {i : Nat} {b : Block}
    (h : writeBlock i b m = .ok () m') :
    i < m.blockCount ∧ m'.storage = m.storage.set i b := by
  unfold writeBlock at h
  split at h
  · cases h
  · rename_i n hn
    have hs : n.storage = m.storage := (storage_of_admitWrite hn).trans (m.storage_record _)
    have hc : n.blockCount = m.blockCount := congrArg Storage.blockCount hs
    split at h
    · rename_i hi
      cases h
      exact ⟨hc ▸ hi, by rw [storage_setBlock, hs]⟩
    · cases h

theorem writeBlock_eq_error {m m' : Memory} {i : Nat} {b : Block} {e : DeviceError}
    (h : writeBlock i b m = .error e m') : m'.storage = m.storage := by
  unfold writeBlock at h
  split at h
  · cases h; rfl
  · rename_i n hn
    split at h
    · cases h
    · cases h
      exact (storage_of_admitWrite hn).trans (m.storage_record _)

theorem storage_of_sync {m m' : Memory} :
    (sync m = .ok () m' → m'.storage = m.storage) ∧
      ∀ e, sync m = .error e m' → m'.storage = m.storage := by
  unfold sync
  split <;> refine ⟨fun h => ?_, fun e h => ?_⟩ <;> cases h <;> rfl

theorem storage_of_close {m m' : Memory} :
    (close m = .ok () m' → m'.storage = m.storage) ∧
      ∀ e, close m = .error e m' → m'.storage = m.storage := by
  unfold close
  split <;> refine ⟨fun h => ?_, fun e h => ?_⟩ <;> cases h <;> rfl

end Memory

instance : LawfulBlockDevice Memory Unit where
  storage _ := Memory.storage
  blockCount_eq _ _ := rfl
  blockBytes_eq _ _ := rfl
  read_ok := Memory.readBlock_eq_ok
  read_error := Memory.readBlock_eq_error
  write_ok := Memory.writeBlock_eq_ok
  write_error := Memory.writeBlock_eq_error
  sync_ok _ := Memory.storage_of_sync.1
  sync_error _ h := Memory.storage_of_sync.2 _ h
  close_ok := Memory.storage_of_close.1
  close_error h := Memory.storage_of_close.2 _ h

/-! ## 3. Banks -/

namespace Bank

theorem device_modify (bank : Bank) (d : Nat) (m : Memory) :
    (bank.modify d fun _ => m).device d = if d < bank.devices.size then m else bank.device d := by
  by_cases h : d < bank.devices.size <;> simp [device, modify, Array.getElem_modify, h]

theorem call_eq_ok_iff {α : Type} {d : Nat} {act : EStateM DeviceError Memory α}
    {bank bank' : Bank} {a : α} : call d act bank = .ok a bank' ↔
      ∃ m, act (bank.device d) = .ok a m ∧ bank' = bank.modify d fun _ => m := by
  unfold call
  cases act (bank.device d) with
  | ok b m =>
    refine ⟨fun h => ?_, fun ⟨_, h, hb⟩ => ?_⟩
    · cases h; exact ⟨m, rfl, rfl⟩
    · cases h; rw [hb]
  | error e m => simp

theorem call_eq_error_iff {α : Type} {d : Nat} {act : EStateM DeviceError Memory α}
    {bank bank' : Bank} {e : DeviceError} : call d act bank = .error e bank' ↔
      ∃ m, act (bank.device d) = .error e m ∧ bank' = bank.modify d fun _ => m := by
  unfold call
  cases act (bank.device d) with
  | ok b m => simp
  | error e m =>
    refine ⟨fun h => ?_, fun ⟨_, h, hb⟩ => ?_⟩
    · cases h; exact ⟨m, rfl, rfl⟩
    · cases h; rw [hb]

/-- A call that changes nothing its device holds changes nothing as seen through the bank. -/
theorem storage_device_modify {bank : Bank} {d : Nat} {m : Memory}
    (h : m.storage = (bank.device d).storage) :
    ((bank.modify d fun _ => m).device d).storage = (bank.device d).storage := by
  rw [device_modify]
  split
  · exact h
  · rfl

theorem lt_size_of_lt_blockCount {bank : Bank} {d i : Nat}
    (h : i < (bank.device d).blockCount) : d < bank.devices.size := by
  refine Nat.lt_of_not_le fun hd => ?_
  have : (bank.device d).blockCount = 0 := by simp [device, hd]
  omega

end Bank

instance : LawfulBlockDevice Bank Nat where
  storage d bank := (bank.device d).storage
  blockCount_eq _ _ := rfl
  blockBytes_eq _ _ := rfl
  read_ok h := by
    obtain ⟨m, hm, rfl⟩ := Bank.call_eq_ok_iff.mp h
    obtain ⟨hb, hi, hs⟩ := Memory.readBlock_eq_ok hm
    exact ⟨hb, hi, Bank.storage_device_modify hs⟩
  read_error h := by
    obtain ⟨m, hm, rfl⟩ := Bank.call_eq_error_iff.mp h
    exact Bank.storage_device_modify (Memory.readBlock_eq_error hm)
  write_ok h := by
    obtain ⟨m, hm, rfl⟩ := Bank.call_eq_ok_iff.mp h
    obtain ⟨hi, hs⟩ := Memory.writeBlock_eq_ok hm
    refine ⟨hi, ?_⟩
    rw [Bank.device_modify, if_pos (Bank.lt_size_of_lt_blockCount hi), hs]
  write_error h := by
    obtain ⟨m, hm, rfl⟩ := Bank.call_eq_error_iff.mp h
    exact Bank.storage_device_modify (Memory.writeBlock_eq_error hm)
  sync_ok _ h := by
    obtain ⟨m, hm, rfl⟩ := Bank.call_eq_ok_iff.mp h
    exact Bank.storage_device_modify (Memory.storage_of_sync.1 hm)
  sync_error _ h := by
    obtain ⟨m, hm, rfl⟩ := Bank.call_eq_error_iff.mp h
    exact Bank.storage_device_modify (Memory.storage_of_sync.2 _ hm)
  close_ok h := by
    obtain ⟨m, hm, rfl⟩ := Bank.call_eq_ok_iff.mp h
    exact Bank.storage_device_modify (Memory.storage_of_close.1 hm)
  close_error h := by
    obtain ⟨m, hm, rfl⟩ := Bank.call_eq_error_iff.mp h
    exact Bank.storage_device_modify (Memory.storage_of_close.2 _ hm)

/-! ## 4. Images -/

namespace Image

/-- What block `b` of a file holds for an image of it; zero outside the image. -/
def blockOf (i : Image) (f : HostFile) (b : Nat) : Block :=
  if b < i.blockCount then f.piece b else Block.zero

/-- What an image of the file `f` holds. It is whole as long as the file is no shorter than it was
    when the image was opened. -/
def storageOf (i : Image) (f : HostFile) : Storage :=
  ⟨i.blockCount, blockSize, i.size ≤ f.size, i.blockOf f⟩

/-- What an image holds. -/
def storage (i : Image) (h : Host) : Storage :=
  match h.file? i.place with
  | some f => i.storageOf f
  | none => ⟨i.blockCount, blockSize, true, fun _ => Block.zero⟩

theorem storage_of_file? {i : Image} {h : Host} {f : HostFile} (hf : h.file? i.place = some f) :
    i.storage h = i.storageOf f := by
  simp only [storage, hf]

theorem file?_put_self (h : Host) (p : Place) (f : HostFile) :
    (h.put p (.file f)).file? p = some f := by
  simp only [Host.file?, Host.node?_put_self]

/-- An image that is opened is a file of its length. -/
theorem file?_of_open? {h : Host} {path : String} {i : Image} (hi : open? h path = .ok i) :
    ∃ f, h.file? i.place = some f ∧ f.size = i.size := by
  unfold open? at hi
  cases hp : h.resolve path with
  | error e =>
    rw [hp] at hi
    cases hi
  | ok place =>
    rw [hp] at hi
    dsimp only at hi
    cases hf : h.openPlace place with
    | error e =>
      rw [hf] at hi
      cases hi
    | ok f =>
      rw [hf] at hi
      dsimp only at hi
      split at hi
      · cases hi
      · split at hi <;> cases hi
        exact ⟨f, Host.file?_of_openPlace hf, rfl⟩

/-- **An image that was just opened is whole.** -/
theorem whole_of_open? {h : Host} {path : String} {i : Image} (hi : open? h path = .ok i) :
    (i.storage h).whole := by
  obtain ⟨f, hf, hs⟩ := file?_of_open? hi
  rw [storage_of_file? hf]
  exact decide_eq_true (Nat.le_of_eq hs.symm)

theorem storageOf_setPiece (i : Image) (f : HostFile) {b : Nat} (block : Block)
    (hb : b < i.blockCount) :
    i.storageOf (f.setPiece b block) = (i.storageOf f).set b block := by
  have h : i.blockOf (f.setPiece b block) = fun j => if j = b then block else i.blockOf f j := by
    funext j
    simp only [blockOf, HostFile.piece_setPiece]
    by_cases hj : j = b
    · subst hj
      simp [hb]
    · simp [hj]
  simp only [storageOf, Storage.set, h]
  rfl

/-- **Writing a file out loses nothing of an image that is whole.** -/
theorem storageOf_settle {i : Image} {f : HostFile} (h : i.size ≤ f.size) :
    i.storageOf f.settle = i.storageOf f := by
  have hb : i.blockOf f.settle = i.blockOf f := by
    funext b
    simp only [blockOf]
    split
    · rename_i hlt
      exact f.piece_settle_of_lt (Nat.lt_of_lt_of_le hlt (Nat.div_le_div_right h))
    · rfl
  simp only [storageOf, hb]
  rfl

theorem readBlock_eq_ok {i : Image} {b : Nat} {h h' : Host} {block : Block}
    (hr : i.readBlock b h = .ok block h') :
    block = (i.storage h).block b ∧ b < i.blockCount ∧ h' = h := by
  unfold readBlock checkRange at hr
  by_cases hb : b < i.blockCount
  · cases hf : h.file? i.place with
    | none => simp [hb, hf] at hr
    | some f =>
      simp only [hb, hf, if_true] at hr
      cases hr
      simp [storage_of_file? hf, storageOf, blockOf, hb]
  · simp [hb] at hr

theorem readBlock_eq_error {i : Image} {b : Nat} {h h' : Host} {e : DeviceError}
    (hr : i.readBlock b h = .error e h') : h' = h := by
  unfold readBlock at hr
  split at hr <;> cases hr <;> rfl

theorem writeBlock_eq_ok {i : Image} {b : Nat} {h h' : Host} {block : Block}
    (hr : i.writeBlock b block h = .ok () h') :
    b < i.blockCount ∧ i.storage h' = (i.storage h).set b block := by
  unfold writeBlock checkRange at hr
  by_cases hb : b < i.blockCount
  · cases hf : h.file? i.place with
    | none => simp [hb, hf] at hr
    | some f =>
      simp only [hb, hf, if_true] at hr
      cases hr
      exact ⟨hb, by rw [storage_of_file? (file?_put_self ..), storage_of_file? hf,
        storageOf_setPiece i f block hb]⟩
  · simp [hb] at hr

theorem writeBlock_eq_error {i : Image} {b : Nat} {h h' : Host} {block : Block}
    {e : DeviceError} (hr : i.writeBlock b block h = .error e h') : h' = h := by
  unfold writeBlock at hr
  split at hr <;> cases hr <;> rfl

theorem sync_eq_ok {i : Image} {h h' : Host} (hw : (i.storage h).whole)
    (hr : i.sync h = .ok () h') : i.storage h' = i.storage h := by
  unfold sync at hr
  cases hf : h.file? i.place with
  | none =>
    simp only [hf] at hr
    cases hr
    rfl
  | some f =>
    simp only [hf] at hr
    cases hr
    rw [storage_of_file? hf] at hw ⊢
    rw [storage_of_file? (file?_put_self ..), storageOf_settle (of_decide_eq_true hw)]

theorem sync_ne_error {i : Image} {h h' : Host} {e : DeviceError} :
    i.sync h ≠ .error e h' := by
  unfold sync
  split <;> simp

end Image

instance : LawfulBlockDevice Host Image where
  storage := Image.storage
  blockCount_eq i h := by
    unfold Image.storage
    split <;> rfl
  blockBytes_eq i h := by
    unfold Image.storage
    split <;> rfl
  read_ok hr := by
    obtain ⟨hb, hi, rfl⟩ := Image.readBlock_eq_ok hr
    exact ⟨hb, hi, rfl⟩
  read_error hr := by rw [Image.readBlock_eq_error hr]
  write_ok := Image.writeBlock_eq_ok
  write_error hr := by rw [Image.writeBlock_eq_error hr]
  sync_ok := Image.sync_eq_ok
  sync_error _ hr := absurd hr Image.sync_ne_error
  close_ok h := by cases h; rfl
  close_error h := by cases h

end FlatVolume
