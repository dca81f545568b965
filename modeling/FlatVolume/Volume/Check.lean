import FlatVolume.Volume

/-!
# Checking a volume

A volume is sound when every file has a chain of as many blocks as its size needs and no block is
in two places. `Volume.check` goes over the files in the order of their slots and marks the blocks
of each, so it reports the first chain that is no chain, has the wrong length, or runs into a
block that was seen before.
-/

namespace FlatVolume.Volume

variable {H : Type}

/-- Marks data block `b` as owned; reports it if it is owned already. -/
def markOwned (owned : Array Bool) (b : Link) : Except VolumeError (Array Bool) :=
  match owned[b.toNat]? with
  | some false => .ok (owned.setIfInBounds b.toNat true)
  | some true => .error (.corruptChain b)
  | none => .error (.misuse (.noEntry b))

/-- Whether a chain of `blocks` blocks is what a file of `size` bytes needs. -/
def chainFits (blocks size : Nat) : Bool :=
  size ≤ blocks * blockSize && blocks * blockSize < size + blockSize

/-- Checks one file and marks its blocks. -/
def checkEntry (v : Volume H) (owned : Array Bool) (e : Entry) :
    Except VolumeError (Array Bool) :=
  match v.table.chain e.firstBlock with
  | .error err => .error err
  | .ok chain =>
    if chainFits chain.length e.size then chain.foldlM markOwned owned
    else .error (.corruptChain e.firstBlock)

/-- **Checks every file's chain against its size,** and that no block is used twice. -/
def check (v : Volume H) : Except VolumeError Unit :=
  match v.root.files.foldlM v.checkEntry (Array.replicate v.table.size false) with
  | .ok _ => .ok ()
  | .error e => .error e

end FlatVolume.Volume
