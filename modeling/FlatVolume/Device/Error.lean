/-!
# What a device answers when a call fails

Three things can go wrong below the file system: the host refuses (with a text of its own), an
image has a size that is no whole number of blocks, or a block is asked for that the device does
not have. `DeviceError.message` is the one line shown for each.
-/

namespace FlatVolume

/-- A failed call to a block device, or a failed attempt to open one. -/
inductive DeviceError where
  /-- The host refused, and said why. -/
  | host (text : String)
  /-- An image of `size` bytes is not a positive number of whole blocks. -/
  | badSize (size : Nat)
  /-- The device has `count` blocks, and `block` is none of them. -/
  | outOfRange (block count : Nat)
deriving DecidableEq, Repr

/-- The line shown for a failed call. -/
def DeviceError.message : DeviceError → String
  | .host text => text
  | .badSize size => s!"Image size {size} is not a non-zero multiple of the 4096 byte block size"
  | .outOfRange block count => s!"Block {block} is out of range, the disk has {count} blocks"

end FlatVolume
