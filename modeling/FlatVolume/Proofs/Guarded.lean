import FlatVolume.Proofs.Operations

/-!
# Operations with nothing taken for granted

A definition says something on every input: a lookup past the end is `none`, and a recursion comes
to an end. This file says the operations once more as a program goes through them, where neither is
given: every index and every slice is looked at before it is used, a number that is handed out has to
fit its word, and a loop is followed for as long as it goes on. It fixes

* `Crash` -- what brings a program down;
* `Guarded σ α` -- a computation that answers or fails as one of `VolumeM σ` does, and may also crash,
  or never end;
* `Guarded.loop` -- the one loop, which all others are made of;
* `Operation.guarded` -- the operations, made of these.

A slot of the directory is a number here, and a file buffer has the size its caller gave it. What only
looks something up, or calls the device, is taken over as it is.
-/

namespace FlatVolume

open Link (free endOfChain)

/-- What brings a program down. -/
inductive Crash where
  /-- An index that is not below the size. -/
  | index (i size : Nat)
  /-- A range of bytes that goes on behind the end. -/
  | slice (stop size : Nat)
  /-- A block was to be linked behind one that does not end its chain. -/
  | notAnEnd (last : Link)
  /-- An entry was to be handed out whose number is no block number. -/
  | badNumber (i : Nat)
  /-- What was done in vain could not be taken back. -/
  | notUndone (cause : VolumeError)
deriving Repr

/-- **A computation that may crash** (`some (.error _)`) **or never end** (`none`). Otherwise it ends as a
    computation does that can do neither. -/
def Guarded (σ α : Type) : Type := σ → Option (Except Crash (EStateM.Result VolumeError σ α))

namespace Bytes

variable {b p q : ByteArray} {i : Nat}

/-- `b` with `p` in place of as many bytes from `i` on. -/
def patch (b : ByteArray) (i : Nat) (p : ByteArray) : ByteArray :=
  b.extract 0 i ++ p ++ b.extract (i + p.size) b.size

theorem size_patch (h : i + p.size ≤ b.size) : (patch b i p).size = b.size := by
  simp only [patch, ByteArray.size_append, ByteArray.size_extract]
  omega

/-- Copying two pieces side by side is copying both at once. -/
theorem patch_patch (h : i ≤ b.size) : patch (patch b i p) (i + p.size) q = patch b i (p ++ q) := by
  have hi : (b.extract 0 i).size = i := by
    rw [ByteArray.size_extract]
    omega
  have hfront : (b.extract 0 i ++ p).size = i + p.size := by rw [ByteArray.size_append, hi]
  have hhead : (patch b i p).extract 0 (i + p.size) = b.extract 0 i ++ p := by
    rw [patch]
    exact ByteArray.extract_append_eq_left hfront.symm
  have htail : (patch b i p).extract (i + p.size + q.size) (patch b i p).size =
      b.extract (i + (p ++ q).size) b.size := by
    have hsize : (patch b i p).size = i + p.size + (b.size - (i + p.size)) := by
      simp only [patch, ByteArray.size_append, ByteArray.size_extract]
      omega
    rw [hsize, patch, ByteArray.extract_append_size_add' hfront.symm, ByteArray.extract_extract,
      ByteArray.size_append]
    congr 1 <;> omega
  rw [patch, hhead, htail, patch, ByteArray.append_assoc (a := b.extract 0 i)]

theorem extract_patch_zero : (patch b 0 p).extract 0 p.size = p := by
  rw [patch, ByteArray.extract_same, ByteArray.empty_append]
  exact ByteArray.extract_append_eq_left rfl

end Bytes

variable {W H σ α β γ : Type}

namespace Guarded

/-! ## 1. Steps -/

protected def pure (a : α) : Guarded σ α := fun s => some (.ok (.ok a s))

protected def bind (x : Guarded σ α) (f : α → Guarded σ β) : Guarded σ β := fun s =>
  match x s with
  | some (.ok (.ok a s)) => f a s
  | some (.ok (.error e s)) => some (.ok (.error e s))
  | some (.error c) => some (.error c)
  | none => none

instance : Monad (Guarded σ) where
  pure := Guarded.pure
  bind := Guarded.bind

/-- Goes down. -/
def crash (c : Crash) : Guarded σ α := fun _ => some (.error c)

/-- What can neither crash nor go on for ever. -/
def lift (x : VolumeM σ α) : Guarded σ α := fun s => some (.ok (x s))

/-- Fails with an error, as computations do. -/
def fail (e : VolumeError) : Guarded σ α := lift (throw e)

/-- The answer of a lookup. -/
def lookup (r : Except VolumeError α) : Guarded σ α := fun s =>
  match r with
  | .ok a => some (.ok (.ok a s))
  | .error e => some (.ok (.error e s))

/-- Goes on whether or not `x` fails, and tells which. -/
def attempt (x : Guarded σ α) : Guarded σ (Except VolumeError α) := fun s =>
  match x s with
  | some (.ok (.ok a s)) => some (.ok (.ok (.ok a) s))
  | some (.ok (.error e s)) => some (.ok (.ok (.error e) s))
  | some (.error c) => some (.error c)
  | none => none

/-- An attempt that is taken back when it fails. Taking it back must not fail. -/
def undoing (act : Guarded σ α) (undo : Guarded σ Unit) : Guarded σ α := do
  match ← attempt act with
  | .ok a => return a
  | .error e =>
    match ← attempt undo with
    | .ok () => fail e
    | .error e' => crash (.notUndone e')

/-- **A loop.** Each round says how the next one begins (`.inl`), or that the loop is done (`.inr`). A
    loop that is never done never ends. -/
def loop (round : β → Guarded σ (β ⊕ α)) (b : β) : Guarded σ α := fun s =>
  match round b s with
  -- by a tactic, since a call that is written out carries its place in the file into the term
  | some (.ok (.ok (.inl b) s)) => by apply loop; exacts [round, b, s]
  | some (.ok (.ok (.inr a) s)) => some (.ok (.ok a s))
  | some (.ok (.error e s)) => some (.ok (.error e s))
  | some (.error c) => some (.error c)
  | none => none
partial_fixpoint

/-- What comes after a round. -/
def afterRound (round : β → Guarded σ (β ⊕ α)) : β ⊕ α → Guarded σ α
  | .inl b => loop round b
  | .inr a => pure a

/-- One round of going over a list. -/
def eachRound (f : γ → β → Guarded σ γ) : γ × List β → Guarded σ (γ × List β ⊕ γ)
  | (acc, []) => return .inr acc
  | (acc, b :: rest) => do
    let acc ← f acc b
    return .inl (acc, rest)

/-- Goes over a list, from its beginning to its end. -/
def each (f : γ → β → Guarded σ γ) (acc : γ) (l : List β) : Guarded σ γ :=
  loop (eachRound f) (acc, l)

/-- What stands at index `i`. -/
def index (a : Array β) (i : Nat) : Guarded σ β :=
  if h : i < a.size then pure a[i] else crash (.index i a.size)

/-- The array with index `i` replaced. -/
def assign (a : Array β) (i : Nat) (b : β) : Guarded σ (Array β) :=
  if h : i < a.size then pure (a.set i b) else crash (.index i a.size)

/-- `n` bytes from `start` on. -/
def slice (b : ByteArray) (start n : Nat) : Guarded σ ByteArray :=
  if start + n ≤ b.size then pure (b.extract start (start + n)) else crash (.slice (start + n) b.size)

/-- The bytes with `src` copied over them from `start` on. -/
def copyInto (b : ByteArray) (start : Nat) (src : ByteArray) : Guarded σ ByteArray :=
  if start + src.size ≤ b.size then pure (Bytes.patch b start src)
  else crash (.slice (start + src.size) b.size)

/-- The block with `src` copied over it from `within` on. -/
def layOver (b : Block) (within : Nat) (src : ByteArray) : Guarded σ Block :=
  if within + src.size ≤ blockSize then pure (b.overlay within src)
  else crash (.slice (within + src.size) blockSize)

/-! ## 2. The table -/

/-- The block after `b`. -/
def next (t : AllocationTable) (b : Link) : Guarded σ Link :=
  if t.isDataBlock b then do
    let entry ← index t.entries b.toNat
    if entry = free then fail (.corruptChain b) else return entry
  else fail (.corruptChain b)

/-- One of `n` links, when so many were followed and led to the block `b`. -/
def nthRound (t : AllocationTable) (n : Nat) : Nat × Link → Guarded σ (Nat × Link ⊕ Link)
  | (followed, b) =>
    if followed = n then return .inr b
    else if b = endOfChain then fail (.corruptChain b)
    else do
      let following ← next t b
      return .inl (followed + 1, following)

/-- The block reached from `first` over `n` links. -/
def nthBlock (t : AllocationTable) (first : Link) (n : Nat) : Guarded σ Link :=
  loop (nthRound t n) (0, first)

/-- One block of a chain, when those before it were collected. -/
def chainRound (t : AllocationTable) :
    Array Link × Link → Guarded σ (Array Link × Link ⊕ Array Link)
  | (blocks, b) =>
    if b = endOfChain then return .inr blocks
    else if t.size ≤ blocks.size then fail (.corruptChain b)
    else do
      let following ← next t b
      return .inl (blocks.push b, following)

/-- The blocks from `first` to the end of its chain, as many as the table has entries at most. -/
def chain (t : AllocationTable) (first : Link) : Guarded σ (Array Link) :=
  loop (chainRound t) (#[], first)

/-- Replaces the entry with number `i`. -/
def setEntry (i : Nat) (b : Link) : Guarded AllocationTable Unit := do
  let t ← lift get
  let entries ← assign t.entries i b
  lift (set ({ entries } : AllocationTable))

/-- Takes the lowest free block. Its number has to be one of 16 bits that means neither a free entry
    nor an end. -/
def allocate : Guarded AllocationTable Link := do
  let t ← lift get
  match t.lowestFree? with
  | none => fail .diskFull
  | some i =>
    setEntry i endOfChain
    if i = 0 ∨ endOfChain.toNat ≤ i then crash (.badNumber i) else return UInt16.ofNat i

/-- Links `new` behind `last`. -/
def extend (last new : Link) : Guarded AllocationTable Unit := do
  let t ← lift get
  let entry ← index t.entries last.toNat
  if entry = endOfChain then setEntry last.toNat new else crash (.notAnEnd last)

/-- Ends the chain at `b` and gives what `b` led to. -/
def cutAfter (b : Link) : Guarded AllocationTable Link := do
  let t ← lift get
  let old ← index t.entries b.toNat
  setEntry b.toNat endOfChain
  return old

/-- One block of a chain that is freed. -/
def freeRound : Nat × Link → Guarded AllocationTable (Nat × Link ⊕ Nat)
  | (freed, b) =>
    if b = endOfChain then return .inr freed
    else do
      let t ← lift get
      let following ← next t b
      setEntry b.toNat free
      return .inl (freed + 1, following)

/-- Frees every block of the chain that starts at `first` and counts them. -/
def freeChain (first : Link) : Guarded AllocationTable Nat := loop freeRound (0, first)

/-! ## 3. Volumes -/

/-- Lets a computation change the allocation table and nothing else. -/
def onTable (x : Guarded AllocationTable α) : Guarded (Mounted W H) α := fun m =>
  match x m.volume.table with
  | some (.ok (.ok a table)) => some (.ok (.ok a { m with volume := { m.volume with table } }))
  | some (.ok (.error e table)) => some (.ok (.error e { m with volume := { m.volume with table } }))
  | some (.error c) => some (.error c)
  | none => none

/-- What descriptor `fd` is bound to, and the number of the slot of its file. -/
def resolve (v : Volume H) (fd : Nat) : Guarded σ (OpenFile × Nat) := do
  let (file, slot) ← lookup (v.resolve fd)
  return (file, slot.val)

/-- The entry in the slot with number `i`. -/
def entryAt (root : Directory) (i : Nat) : Guarded σ Entry :=
  if h : i < maxFiles then pure (root.get ⟨i, h⟩) else crash (.index i maxFiles)

/-- Replaces the entry in the slot with number `i`. -/
def updateEntry (i : Nat) (f : Entry → Entry) : Guarded (Mounted W H) Unit :=
  if h : i < maxFiles then lift (Mounted.updateEntry ⟨i, h⟩ f) else crash (.index i maxFiles)

/-- Cuts the chain of the file in `slot` down to `keep` blocks and gives the first of those that are
    no longer needed. -/
def cutChain (slot keep : Nat) : Guarded (Mounted W H) Link := do
  let v ← lift Mounted.getVolume
  let entry ← entryAt v.root slot
  match keep with
  | 0 =>
    updateEntry slot fun e => { e with firstBlock := endOfChain }
    return entry.firstBlock
  | k + 1 =>
    let last ← nthBlock v.table entry.firstBlock k
    if v.table.isDataBlock last then onTable (cutAfter last) else fail (.corruptChain last)

/-- Shortens the file of `fd` to `size` bytes. -/
def truncate (fd size : Nat) : Guarded (Mounted W H) Unit := do
  let v ← lift Mounted.getVolume
  let (file, slot) ← resolve v fd
  let entry ← entryAt v.root slot
  if entry.size < size then fail (.offsetOutOfRange size entry.size)
  else
    let released ← cutChain slot (ceilDiv size blockSize)
    updateEntry slot fun e => { e with size }
    lift (Mounted.modifyVolume fun v => { v with files := v.files.clamp file.name size })
    let _ ← onTable (freeChain released)
    return ()

/-- Marks the data blocks of a chain as owned. -/
def markOwned (owned : Array Bool) (b : Link) : Guarded σ (Array Bool) := do
  let seen ← index owned b.toNat
  let owned ← assign owned b.toNat true
  if seen then fail (.corruptChain b) else return owned

/-- Checks one file and marks its blocks. -/
def checkEntry (v : Volume H) (owned : Array Bool) (e : Entry) : Guarded σ (Array Bool) := do
  let blocks ← chain v.table e.firstBlock
  if Volume.chainFits blocks.size e.size then each markOwned owned blocks.toList
  else fail (.corruptChain e.firstBlock)

/-- Checks every file's chain against its size, and that no block is used twice. -/
def check (v : Volume H) : Guarded σ Unit := do
  let _ ← each (checkEntry v) (Array.replicate v.table.size false) v.root.files
  return ()

section Data

variable [BlockDevice W H]

/-- How far a read came. -/
structure Reading where
  block : Link
  /-- Where in the block the next byte is. -/
  within : Nat
  done : Nat
  buffer : ByteArray

/-- One round of a read of `count` bytes. -/
def readRound (v : Volume H) (count : Nat) (r : Reading) :
    Guarded (Mounted W H) (Reading ⊕ ByteArray) := do
  let staging ← lift (Mounted.onDevice (v.loadData r.block))
  let n := min (blockSize - r.within) (count - r.done)
  let piece ← slice staging.bytes r.within n
  let buffer ← copyInto r.buffer r.done piece
  if r.done + n = count then return .inr buffer
  else
    let block ← next v.table r.block
    return .inl ⟨block, 0, r.done + n, buffer⟩

/-- Reads into `buffer` at the offset of `fd`, and gives what was read. -/
def read (fd : Nat) (buffer : ByteArray) : Guarded (Mounted W H) ByteArray := do
  let v ← lift Mounted.getVolume
  let (file, slot) ← resolve v fd
  let entry ← entryAt v.root slot
  let count := min buffer.size (entry.size - file.offset)
  if count = 0 then return ByteArray.empty
  else
    let block ← nthBlock v.table entry.firstBlock (file.offset / blockSize)
    let filled ← loop (readRound v count) ⟨block, file.offset % blockSize, 0, buffer⟩
    lift (Mounted.moveTo fd (file.offset + count))
    slice filled 0 count

/-- How far a write came. -/
structure Storing where
  chain : Array Link
  /-- What the block to be stored is put together in; an earlier round may have left something. -/
  staging : Block
  written : Nat

/-- Links `new` behind `chain`. -/
def linkLast (slot : Nat) (chain : Array Link) (new : Link) : Guarded (Mounted W H) Unit :=
  match chain.back? with
  | some last => onTable (extend last new)
  | none => updateEntry slot fun e => { e with firstBlock := new }

/-- Takes the last block of `chain` off again and frees it. -/
def unlinkLast (slot : Nat) (chain : Array Link) : Guarded (Mounted W H) Unit := do
  match chain.back? with
  | none => return ()
  | some block =>
    match chain.pop.back? with
    | some last => let _ ← onTable (cutAfter last)
    | none => updateEntry slot fun e => { e with firstBlock := endOfChain }
    let _ ← onTable (freeChain block)
    return ()

/-- One round of a write of `data` from `offset` on. -/
def storeRound (slot offset : Nat) (data : ByteArray) (r : Storing) :
    Guarded (Mounted W H) Storing := do
  let pos := offset + r.written
  let n := headLength pos (data.size - r.written)
  if r.chain.size ≤ pos / blockSize then
    let block ← onTable allocate
    linkLast slot r.chain block
    let piece ← slice data r.written n
    let staging ← layOver Block.zero (pos % blockSize) piece
    undoing (lift (Mounted.storeData block staging)) (unlinkLast slot (r.chain.push block))
    return ⟨r.chain.push block, staging, r.written + n⟩
  else
    let block ← index r.chain (pos / blockSize)
    let v ← lift Mounted.getVolume
    let old ← if n < blockSize then lift (Mounted.onDevice (v.loadData block)) else pure r.staging
    let piece ← slice data r.written n
    let staging ← layOver old (pos % blockSize) piece
    lift (Mounted.storeData block staging)
    return ⟨r.chain, staging, r.written + n⟩

/-- The next round of a write, if something is left to be written and the one before did not fail. -/
def storeNext (slot offset : Nat) (data : ByteArray) (r : Storing) :
    Guarded (Mounted W H) (Storing ⊕ Mounted.Progress) :=
  if r.written < data.size then do
    match ← attempt (storeRound slot offset data r) with
    | .ok r => return .inl r
    | .error e => return .inr ⟨r.written, some e⟩
  else return .inr ⟨r.written, none⟩

/-- Writes `data` from `offset` on block by block, up to the first that fails. -/
def storeBlocks (slot offset : Nat) (data : ByteArray) (chain : Array Link) :
    Guarded (Mounted W H) Mounted.Progress :=
  loop (storeNext slot offset data) ⟨chain, Block.zero, 0⟩

/-- Writes `data` at the offset of `fd` and gives the number of bytes stored. -/
def write (fd : Nat) (data : ByteArray) : Guarded (Mounted W H) Nat := do
  let v ← lift Mounted.getVolume
  let (file, slot) ← resolve v fd
  if data.size = 0 then return 0
  else
    let entry ← entryAt v.root slot
    let blocks ← chain v.table entry.firstBlock
    let progress ← storeBlocks slot file.offset data blocks
    let reached := file.offset + progress.written
    if 0 < progress.written then
      updateEntry slot fun e => { e with size := max e.size reached }
      lift (Mounted.moveTo fd reached)
    match progress.stopped with
    | none => return progress.written
    | some .diskFull => if 0 < progress.written then return progress.written else fail .diskFull
    | some e => fail e

end Data

/-! ## 4. Operations -/

/-- Lets a computation run on the mounted volume. -/
def onVolume (x : Guarded (Mounted W H) α) : Guarded (FileSystem W H) α := fun fs =>
  match fs.mounted with
  | none => some (.ok (.error .notMounted fs))
  | some volume =>
    match x ⟨volume, fs.world⟩ with
    | some (.ok (.ok a m)) => some (.ok (.ok a ⟨some m.volume, m.world⟩))
    | some (.ok (.error e m)) => some (.ok (.error e ⟨some m.volume, m.world⟩))
    | some (.error c) => some (.error c)
    | none => none

/-- Enters an empty file. -/
def create (name : String) : Guarded (Mounted W H) Unit := do
  let v ← lift Mounted.getVolume
  let (slot, root) ← lookup (v.root.create name)
  let _ ← entryAt v.root slot.val
  lift (Mounted.modifyVolume fun v => { v with root })

/-- Removes a file that is not open and frees its blocks. -/
def delete (name : String) : Guarded (Mounted W H) Unit := do
  let v ← lift Mounted.getVolume
  lookup (checkName name)
  match v.root.find? name with
  | none => fail (.fileNotFound name)
  | some slot =>
    if v.files.isOpen name then fail (.fileOpen name)
    else
      let entry ← entryAt v.root slot.val
      updateEntry slot.val fun _ => Entry.free
      let _ ← onTable (freeChain entry.firstBlock)
      return ()

/-- The size of the file behind a descriptor. -/
def stat (fd : Nat) : Guarded (Mounted W H) Nat := do
  let v ← lift Mounted.getVolume
  let (_, slot) ← resolve v fd
  return (← entryAt v.root slot).size

/-- Moves a descriptor, at most to the end of its file. -/
def seek (fd offset : Nat) : Guarded (Mounted W H) Unit := do
  let v ← lift Mounted.getVolume
  let (_, slot) ← resolve v fd
  let entry ← entryAt v.root slot
  if entry.size < offset then fail (.offsetOutOfRange offset entry.size)
  else lift (Mounted.moveTo fd offset)

end Guarded

variable [BlockDevice W H]

/-- The calls on files with nothing taken for granted. A read fills a buffer of as many bytes as are
    asked for. -/
def FileCall.guarded : FileCall → Guarded (FileSystem W H) Answer
  | .create name => (fun _ => .done) <$> Guarded.onVolume (Guarded.create name)
  | .delete name => (fun _ => .done) <$> Guarded.onVolume (Guarded.delete name)
  | .stat fd => .number <$> Guarded.onVolume (Guarded.stat fd)
  | .seek fd offset => (fun _ => .done) <$> Guarded.onVolume (Guarded.seek fd offset)
  | .read fd count => .bytes <$> Guarded.onVolume (Guarded.read fd (Bytes.zeros count))
  | .write fd data => .number <$> Guarded.onVolume (Guarded.write fd data)
  | .truncate fd size => (fun _ => .done) <$> Guarded.onVolume (Guarded.truncate fd size)
  | call => Guarded.lift call.run

/-- The operations with nothing taken for granted. -/
def Operation.guarded : Operation → Guarded (FileSystem W H) Unit
  | .file call => (fun _ => ()) <$> call.guarded
  | .check => Guarded.onVolume do Guarded.check (← Guarded.lift Mounted.getVolume)
  | op => Guarded.lift op.run

end FlatVolume
