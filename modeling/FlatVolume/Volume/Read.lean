import FlatVolume.Volume
import FlatVolume.Volume.Span

/-!
# Reading a file

A read takes the bytes from the descriptor's offset to the end of the file or of the request,
whichever comes first, one block after the other along the chain. The chain is followed only as
far as it is needed. If anything fails on the way the descriptor stays where it is.
-/

namespace FlatVolume

variable {W H : Type} [BlockDevice W H]

/-- Reads data block `b` from the device. -/
def Volume.loadData (v : Volume H) (b : Link) : VolumeM W Block :=
  match v.locate b with
  | .ok absolute => loadBlock v.device absolute
  | .error e => throw e

/-- Reads the pieces of a range, the first of which lies in data block `b` and each next one in the
    block that follows. -/
def Volume.loadSpans (v : Volume H) : Link → List Span → VolumeM W (List ByteArray)
  | _, [] => return []
  | b, [s] => do
    let block ← v.loadData b
    return [block.slice s.within s.length]
  | b, s :: rest => do
    let block ← v.loadData b
    match v.table.next b with
    | .ok following =>
      let more ← v.loadSpans following rest
      return block.slice s.within s.length :: more
    | .error e => throw e

/-- **Reads up to `count` bytes** at the offset of `fd` and moves it behind them. At the end of the
    file nothing is read, and the device is not asked. -/
def Mounted.read (fd count : Nat) : MountedM W H ByteArray := do
  let v ← getVolume
  let (file, slot) ← lookup (v.resolve fd)
  let entry := v.root.get slot
  let wanted := min count (entry.size - file.offset)
  if wanted = 0 then
    return ByteArray.empty
  let first ← lookup (v.table.nthBlock entry.firstBlock (file.offset / blockSize))
  let parts ← onDevice (v.loadSpans first (spans file.offset wanted))
  moveTo fd (file.offset + wanted)
  return Bytes.concat parts

end FlatVolume
