import FlatVolume.Volume.Read

/-!
# Writing a file

A write goes block by block, through to the device. Where the file has a block already, a piece
that covers it only in part is laid over what the device holds; behind the last block a new one is
taken, linked and stored with zeros around the piece.

A new block is linked before it is stored. If storing fails it is unlinked and freed again
(`Mounted.unlinkLast`), so the chain never holds a block that was not written. What was stored
before a failure counts: size and offset move on by that much. When the volume fills up after some
bytes were stored, that is an answer and no error.
-/

namespace FlatVolume

variable {W H : Type} [BlockDevice W H]

namespace Mounted

/-- Stores data block `b`. -/
def storeData (b : Link) (block : Block) : MountedM W H Unit := do
  let v ← getVolume
  let absolute ← lookup (v.locate b)
  onDevice (storeBlock v.device absolute block)

/-- Links `new` behind the chain of the file in `slot`, as its first block if it has none. -/
def linkLast (slot : Slot) (chain : Array Link) (new : Link) : MountedM W H Unit :=
  match chain.back? with
  | some last => onTable (AllocationTable.extend last new)
  | none => updateEntry slot fun e => { e with firstBlock := new }

/-- Takes the last block of the chain of the file in `slot` off again and frees it. -/
def unlinkLast (slot : Slot) (chain : Array Link) : MountedM W H Unit := do
  match chain.back? with
  | none => return ()
  | some block =>
    match chain.pop.back? with
    | some last => discard (onTable (AllocationTable.cutAfter last))
    | none => updateEntry slot fun e => { e with firstBlock := Link.endOfChain }
    discard (onTable (AllocationTable.freeChain block))

/-- Lays a piece over data block `block`, which is read first unless all of it is covered. -/
def overwrite (block : Link) (s : Segment) : MountedM W H Unit := do
  if s.bytes.size < blockSize then
    let v ← getVolume
    let old ← onDevice (v.loadData block)
    storeData block (old.overlay s.within s.bytes)
  else
    storeData block (Block.zero.overlay s.within s.bytes)

/-- Puts a piece into a new block behind the chain of the file in `slot`, and gives the chain
    after it. -/
def append (slot : Slot) (chain : Array Link) (s : Segment) : MountedM W H (Array Link) := do
  let block ← onTable AllocationTable.allocate
  linkLast slot chain block
  let grown := chain.push block
  Computation.undoing (storeData block (Block.zero.overlay s.within s.bytes))
    (unlinkLast slot grown)
  return grown

/-- **Stores one piece** of a write to the file in `slot`, whose chain is `chain`, and gives the
    chain after it. A piece beyond the chain gets a new block. -/
def storeSegment (slot : Slot) (chain : Array Link) (s : Segment) : MountedM W H (Array Link) :=
  match chain[s.index]? with
  | some block => do
    overwrite block s
    return chain
  | none => append slot chain s

/-- How far a write came: the bytes that were stored, and what stopped it, if anything did. -/
structure Progress where
  written : Nat
  stopped : Option VolumeError

/-- Stores the pieces of a write, one after the other, up to the first that fails. `written` bytes
    were stored before. -/
def storeSegments (slot : Slot) : Array Link → List Segment → (written : Nat) →
    MountedM W H Progress
  | _, [], written => return ⟨written, none⟩
  | chain, s :: rest, written => fun m =>
    match storeSegment slot chain s m with
    | .ok chain m => storeSegments slot chain rest (written + s.bytes.size) m
    | .error e m => .ok ⟨written, some e⟩ m

/-- **Writes `data`** at the offset of `fd`, growing the file as needed, and gives the number of
    bytes stored. -/
def write (fd : Nat) (data : ByteArray) : MountedM W H Nat := do
  let v ← getVolume
  let (file, slot) ← lookup (v.resolve fd)
  if data.size = 0 then
    return 0
  let chain ← lookup (v.table.chain (v.root.get slot).firstBlock)
  let progress ← storeSegments slot chain.toArray (segments file.offset data) 0
  let reached := file.offset + progress.written
  if 0 < progress.written then
    updateEntry slot fun e => { e with size := max e.size reached }
    moveTo fd reached
  match progress.stopped with
  | none => return progress.written
  | some .diskFull =>
    if 0 < progress.written then return progress.written else throw .diskFull
  | some e => throw e

end Mounted

end FlatVolume
