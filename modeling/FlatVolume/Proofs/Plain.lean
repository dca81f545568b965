import FlatVolume.Proofs.Operations
import Mathlib.Algebra.BigOperators.Fin

/-!
# Plain files

What a volume is for whoever uses it: `maxFiles` slots, each empty or holding a name and a byte
string, and `maxOpenFiles` descriptors, each free or holding a name and an offset. There is no
device, no table and no chain, and nothing fails for any reason but the state of the slots and
descriptors. All that is left of the blocks is how many of them the files may take together.

`FileCall.runPlain` is what each call does to plain files; `Computation.answers` is what a list of
calls answers, one after the other.
-/

namespace FlatVolume

/-! ## 1. Slots and descriptors -/

/-- A name and a byte string. -/
structure PlainFile where
  name : String
  bytes : ByteArray

/-- Files and descriptors without a device. -/
@[ext]
structure Plain where
  files : Vector (Option PlainFile) maxFiles
  handles : Vector (Option OpenFile) maxOpenFiles
  /-- How many blocks the files may take together. -/
  capacity : Nat

namespace Plain

/-- No file, and room for `capacity` blocks. -/
def blank (capacity : Nat) : Plain :=
  ⟨Vector.replicate maxFiles none, Vector.replicate maxOpenFiles none, capacity⟩

/-- The bytes of the file in a slot; none if it is empty. -/
def bytes (p : Plain) (slot : Slot) : ByteArray :=
  match p.files.get slot with
  | some f => f.bytes
  | none => ByteArray.empty

/-- The lowest slot that holds a file called `name`. -/
def find? (p : Plain) (name : String) : Option Slot := lowest? (·.any (·.name == name)) p.files

/-- What descriptor `fd` holds. -/
def handle? (p : Plain) (fd : Nat) : Option OpenFile := p.handles[fd]?.join

/-- Whether some descriptor holds `name`. -/
def isOpen (p : Plain) (name : String) : Bool := p.handles.any (·.any (·.name == name))

/-- What descriptor `fd` holds, and the slot of its file. -/
def resolve (p : Plain) (fd : Nat) : Except VolumeError (OpenFile × Slot) :=
  match p.handle? fd with
  | none => .error (.badDescriptor fd)
  | some h =>
    match p.find? h.name with
    | none => .error (.fileNotFound h.name)
    | some slot => .ok (h, slot)

/-- How many blocks the files take, each as many as its size needs. -/
def used (p : Plain) : Nat := ∑ s, ceilDiv (p.bytes s).size blockSize

/-- How many blocks are left. -/
def free (p : Plain) : Nat := p.capacity - p.used

/-- How many of `count` bytes there is room for from `offset` on: in the blocks the file has, and in
    those that are left. -/
def room (p : Plain) (slot : Slot) (offset count : Nat) : Nat :=
  min count ((ceilDiv (p.bytes slot).size blockSize + p.free) * blockSize - offset)

/-- Replaces what a slot holds. -/
def setFile (p : Plain) (slot : Slot) (f : Option PlainFile) : Plain :=
  { p with files := p.files.set slot f slot.isLt }

/-- Moves descriptor `fd`, if it is open. -/
def moveTo (p : Plain) (fd offset : Nat) : Plain :=
  match p.handle? fd with
  | some h => { p with handles := p.handles.setIfInBounds fd (some { h with offset }) }
  | none => p

/-! ## 2. Names -/

def create (name : String) : VolumeM Plain Unit := fun p =>
  if validName name = false then .error (.invalidName name) p
  else if (p.find? name).isSome then .error (.nameExists name) p
  else match lowest? Option.isNone p.files with
    | none => .error .directoryFull p
    | some slot => .ok () (p.setFile slot (some ⟨name, ByteArray.empty⟩))

def delete (name : String) : VolumeM Plain Unit := fun p =>
  if validName name = false then .error (.invalidName name) p
  else match p.find? name with
    | none => .error (.fileNotFound name) p
    | some slot =>
      if p.isOpen name then .error (.fileOpen name) p else .ok () (p.setFile slot none)

/-- Name and size of each file, in the order of the slots. -/
def list : VolumeM Plain (List (String × Nat)) := fun p =>
  .ok (p.files.toList.filterMap fun f => f.map fun f => (f.name, f.bytes.size)) p

def openFile (name : String) : VolumeM Plain Nat := fun p =>
  if validName name = false then .error (.invalidName name) p
  else if p.find? name = none then .error (.fileNotFound name) p
  else match lowest? Option.isNone p.handles with
    | none => .error .tooManyOpenFiles p
    | some fd => .ok fd.val { p with handles := p.handles.set fd (some ⟨name, 0⟩) fd.isLt }

/-! ## 3. Descriptors -/

def close (fd : Nat) : VolumeM Plain Unit := fun p =>
  match p.handle? fd with
  | none => .error (.badDescriptor fd) p
  | some _ => .ok () { p with handles := p.handles.setIfInBounds fd none }

def stat (fd : Nat) : VolumeM Plain Nat := fun p =>
  match p.resolve fd with
  | .error e => .error e p
  | .ok (_, slot) => .ok (p.bytes slot).size p

def tell (fd : Nat) : VolumeM Plain Nat := fun p =>
  match p.handle? fd with
  | none => .error (.badDescriptor fd) p
  | some h => .ok h.offset p

def seek (fd offset : Nat) : VolumeM Plain Unit := fun p =>
  match p.resolve fd with
  | .error e => .error e p
  | .ok (_, slot) =>
    if (p.bytes slot).size < offset then
      .error (.offsetOutOfRange offset (p.bytes slot).size) p
    else .ok () (p.moveTo fd offset)

/-- The bytes from the offset to the end of the request or of the file. -/
def read (fd count : Nat) : VolumeM Plain ByteArray := fun p =>
  match p.resolve fd with
  | .error e => .error e p
  | .ok (h, slot) =>
    let bytes := (p.bytes slot).extract h.offset (min (h.offset + count) (p.bytes slot).size)
    .ok bytes (p.moveTo fd (h.offset + bytes.size))

/-- As many bytes as there is room for, laid over the file at the offset or put behind its end. The
    volume is full where bytes are to be written and there is no room for the first. -/
def write (fd : Nat) (data : ByteArray) : VolumeM Plain Nat := fun p =>
  match p.resolve fd with
  | .error e => .error e p
  | .ok (h, slot) =>
    let old := p.bytes slot
    let k := p.room slot h.offset data.size
    if 0 < data.size ∧ k = 0 then .error .diskFull p
    else
      let new := old.extract 0 h.offset ++ data.extract 0 k ++ old.extract (h.offset + k) old.size
      .ok k ((p.setFile slot (some ⟨h.name, new⟩)).moveTo fd (h.offset + k))

/-- The first `size` bytes are kept, and no descriptor of the file stays behind them. -/
def truncate (fd size : Nat) : VolumeM Plain Unit := fun p =>
  match p.resolve fd with
  | .error e => .error e p
  | .ok (h, slot) =>
    let old := p.bytes slot
    if old.size < size then .error (.offsetOutOfRange size old.size) p
    else .ok ()
      { p.setFile slot (some ⟨h.name, old.extract 0 size⟩) with
        handles := p.handles.map fun d => d.map fun d =>
          if d.name == h.name then { d with offset := min d.offset size } else d }

end Plain

/-! ## 4. Calls -/

/-- What a call does to plain files. -/
def FileCall.runPlain : FileCall → VolumeM Plain Answer
  | .create name => (fun _ => .done) <$> Plain.create name
  | .delete name => (fun _ => .done) <$> Plain.delete name
  | .list => .listing <$> Plain.list
  | .openFile name => .number <$> Plain.openFile name
  | .close fd => (fun _ => .done) <$> Plain.close fd
  | .stat fd => .number <$> Plain.stat fd
  | .tell fd => .number <$> Plain.tell fd
  | .seek fd offset => (fun _ => .done) <$> Plain.seek fd offset
  | .read fd count => .bytes <$> Plain.read fd count
  | .write fd data => .number <$> Plain.write fd data
  | .truncate fd size => (fun _ => .done) <$> Plain.truncate fd size

/-- What the calls of a list answer, one after the other. A call that fails leaves its state to the
    next one. -/
def Computation.answers {ε σ α γ : Type} (run : γ → EStateM ε σ α) : List γ → σ → List (Except ε α)
  | [], _ => []
  | call :: calls, s =>
    match run call s with
    | .ok a t => .ok a :: answers run calls t
    | .error e t => .error e :: answers run calls t

end FlatVolume
