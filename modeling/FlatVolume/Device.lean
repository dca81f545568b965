import FlatVolume.Block
import FlatVolume.Computation

/-!
# Block devices

The file system talks to its volume through whole blocks and nothing else. A device is reached by
a handle of type `H` into a world of type `W` that holds its contents: several handles may reach
the same contents, and a device may change the world when it is only read (a call can be recorded,
a fault can wear off).

* `BlockDevice W H` -- the calls a device answers;
* `loadBlock`, `storeBlock`, `syncDevice`, `closeDevice` -- the same calls as the file system makes
  them, with a failure reported as the file system reports it.
-/

namespace FlatVolume

/-- A device reached by handles of type `H` in a world of type `W`. -/
class BlockDevice (W : Type) (H : outParam Type) where
  /-- How many blocks the device has. -/
  blockCount : H → W → Nat
  /-- The size of its blocks. Only devices with blocks of `blockSize` bytes can be mounted. -/
  blockBytes : H → W → Nat
  /-- Reads one block, numbered from 0. -/
  readBlock : H → Nat → EStateM DeviceError W Block
  /-- Writes one block. -/
  writeBlock : H → Nat → Block → EStateM DeviceError W Unit
  /-- Makes everything written durable. -/
  sync : H → EStateM DeviceError W Unit
  /-- Releases the device; the handle is not used again. -/
  close : H → EStateM DeviceError W Unit

section Calls

variable {W H : Type} [BlockDevice W H]

/-- Reads block `i`; a failure names the block. -/
def loadBlock (d : H) (i : Nat) : VolumeM W Block :=
  (BlockDevice.readBlock d i).adaptExcept (.io i)

/-- Writes block `i`; a failure names the block. -/
def storeBlock (d : H) (i : Nat) (b : Block) : VolumeM W Unit :=
  (BlockDevice.writeBlock d i b).adaptExcept (.io i)

/-- Syncs the device; a failure is a failed flush. -/
def syncDevice (d : H) : VolumeM W Unit :=
  (BlockDevice.sync d).adaptExcept fun e => .flushFailed (.device e)

/-- Closes the device; a failure is a failed flush. -/
def closeDevice (d : H) : VolumeM W Unit :=
  (BlockDevice.close d).adaptExcept fun e => .flushFailed (.device e)

end Calls

end FlatVolume
