import FlatVolume.Device
import Std.Data.TreeMap

/-!
# Devices in memory

A device that keeps its blocks in memory, records every call, and can be told to fail.

* `Memory` -- the device. All blocks are zero until they are written; its block count can be
  changed without touching them.
* `Faults` -- which calls fail: all of a kind, those about certain blocks, or all after a number of
  calls that still succeed.
* `Bank` -- several such devices, reached by number. Every handle to a device reaches the same
  blocks, faults and record.
-/

namespace FlatVolume

/-! ## 1. Calls and faults -/

/-- A call as it is recorded, whether or not it then fails. -/
inductive Call where
  | read (block : Nat)
  | write (block : Nat)
  | sync
  | close
deriving DecidableEq, Repr

/-- Which calls fail. -/
structure Faults where
  failReads : Bool := false
  failWrites : Bool := false
  failSync : Bool := false
  failClose : Bool := false
  /-- How many more reads succeed, if that is limited. -/
  readBudget : Option Nat := none
  /-- How many more writes succeed, if that is limited. -/
  writeBudget : Option Nat := none
  /-- Blocks that can be neither read nor written. -/
  badBlocks : List Nat := []
deriving DecidableEq, Repr

/-- A device in memory. -/
structure Memory where
  blockCount : Nat
  /-- The block size the device reports. -/
  blockBytes : Nat := blockSize
  /-- The blocks that were written; all others are zero. -/
  blocks : Std.TreeMap Nat Block := {}
  faults : Faults := {}
  /-- The calls so far, the latest first. -/
  calls : List Call := []

namespace Memory

/-! ## 2. Blocks -/

/-- What block `i` holds. -/
def block (m : Memory) (i : Nat) : Block := m.blocks.getD i Block.zero

/-- The device with block `i` replaced, without a call. -/
def setBlock (m : Memory) (i : Nat) (b : Block) : Memory :=
  { m with blocks := m.blocks.insert i b }

/-- **The block that was set is there, and every other block is the old one.** -/
theorem block_setBlock (m : Memory) (i j : Nat) (b : Block) :
    (m.setBlock i b).block j = if j = i then b else m.block j := by
  simp only [block, setBlock, Std.TreeMap.getD_insert, Nat.compare_eq_eq]
  by_cases h : j = i
  · rw [if_pos h, if_pos h.symm]
  · rw [if_neg h, if_neg (Ne.symm h)]

/-- The blocks below the count that are not all zero, in ascending order. -/
def nonzero (m : Memory) : List (Nat × Block) :=
  m.blocks.toList.filter fun (i, b) => i < m.blockCount && b != Block.zero

/-! ## 3. Calls -/

/-- The device after a call was recorded. -/
def record (m : Memory) (c : Call) : Memory := { m with calls := c :: m.calls }

/-- How the failure of a call that was told to fail is worded. -/
def injected (what : String) : DeviceError := .host s!"injected {what} failure"

/-- A budget after one more call, if it allows that call. -/
def spend : Option Nat → Option (Option Nat)
  | none => some none
  | some 0 => none
  | some (n + 1) => some (some n)

/-- The device after a read of block `i` passed the faults, if it does. -/
def admitRead? (m : Memory) (i : Nat) : Option Memory :=
  if m.faults.failReads ∨ i ∈ m.faults.badBlocks then none
  else (spend m.faults.readBudget).map fun readBudget =>
    { m with faults := { m.faults with readBudget } }

/-- The device after a write of block `i` passed the faults, if it does. -/
def admitWrite? (m : Memory) (i : Nat) : Option Memory :=
  if m.faults.failWrites ∨ i ∈ m.faults.badBlocks then none
  else (spend m.faults.writeBudget).map fun writeBudget =>
    { m with faults := { m.faults with writeBudget } }

/-- Reads block `i`: recorded, then the faults, then the range. -/
def readBlock (i : Nat) : EStateM DeviceError Memory Block := fun m =>
  match (m.record (.read i)).admitRead? i with
  | none => .error (injected "read") (m.record (.read i))
  | some m =>
    if i < m.blockCount then .ok (m.block i) m else .error (.outOfRange i m.blockCount) m

/-- Writes block `i`: recorded, then the faults, then the range. -/
def writeBlock (i : Nat) (b : Block) : EStateM DeviceError Memory Unit := fun m =>
  match (m.record (.write i)).admitWrite? i with
  | none => .error (injected "write") (m.record (.write i))
  | some m =>
    if i < m.blockCount then .ok () (m.setBlock i b) else .error (.outOfRange i m.blockCount) m

/-- Syncs the device. -/
def sync : EStateM DeviceError Memory Unit := fun m =>
  if m.faults.failSync then .error (injected "sync") (m.record .sync) else .ok () (m.record .sync)

/-- Closes the device. -/
def close : EStateM DeviceError Memory Unit := fun m =>
  if m.faults.failClose then .error (injected "close") (m.record .close) else .ok () (m.record .close)

end Memory

/-- A single device in memory, with a handle that says nothing. -/
instance : BlockDevice Memory Unit where
  blockCount _ m := m.blockCount
  blockBytes _ m := m.blockBytes
  readBlock _ := Memory.readBlock
  writeBlock _ := Memory.writeBlock
  sync _ := Memory.sync
  close _ := Memory.close

/-! ## 4. Several devices -/

/-- Devices in memory, reached by number. A number without a device reaches one without blocks. -/
structure Bank where
  devices : Array Memory

namespace Bank

/-- The device with number `d`. -/
def device (bank : Bank) (d : Nat) : Memory := bank.devices[d]?.getD { blockCount := 0 }

/-- Changes the device with number `d`. -/
def modify (bank : Bank) (d : Nat) (f : Memory → Memory) : Bank :=
  ⟨bank.devices.modify d f⟩

/-- Lets one device answer a call. -/
def call {α : Type} (d : Nat) (act : EStateM DeviceError Memory α) : EStateM DeviceError Bank α :=
  fun bank =>
    match act (bank.device d) with
    | .ok a m => .ok a (bank.modify d fun _ => m)
    | .error e m => .error e (bank.modify d fun _ => m)

end Bank

instance : BlockDevice Bank Nat where
  blockCount d bank := (bank.device d).blockCount
  blockBytes d bank := (bank.device d).blockBytes
  readBlock d i := Bank.call d (Memory.readBlock i)
  writeBlock d i b := Bank.call d (Memory.writeBlock i b)
  sync d := Bank.call d Memory.sync
  close d := Bank.call d Memory.close

end FlatVolume
