import FlatVolume.Volume

/-!
# Shortening a file

The chain is cut behind the last block that is still needed, the size is lowered, every descriptor
of the file is brought back to its new end, and only then the blocks that were cut off are freed.
A chain that turns out to be corrupt while it is freed is reported after the file has been
shortened; one that is corrupt before the cut is reported with nothing changed.
-/

namespace FlatVolume.Mounted

variable {W H : Type}

/-- Cuts the chain of the file in `slot` down to `keep` blocks and gives the first of those that
    are no longer needed. -/
def cutChain (slot : Slot) (keep : Nat) : MountedM W H Link := do
  let v ← getVolume
  let first := (v.root.get slot).firstBlock
  match keep with
  | 0 =>
    updateEntry slot fun e => { e with firstBlock := Link.endOfChain }
    return first
  | k + 1 =>
    let last ← lookup (v.table.nthBlock first k)
    if v.table.isDataBlock last then
      onTable (AllocationTable.cutAfter last)
    else throw (.corruptChain last)

/-- **Shortens the file of `fd` to `size` bytes.** -/
def truncate (fd size : Nat) : MountedM W H Unit := do
  let v ← getVolume
  let (file, slot) ← lookup (v.resolve fd)
  let old := (v.root.get slot).size
  if old < size then
    throw (.offsetOutOfRange size old)
  let released ← cutChain slot (ceilDiv size blockSize)
  updateEntry slot fun e => { e with size }
  modifyVolume fun v => { v with files := v.files.clamp file.name size }
  discard (onTable (AllocationTable.freeChain released))

end FlatVolume.Mounted
