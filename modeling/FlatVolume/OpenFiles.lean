import FlatVolume.Computation
import FlatVolume.Lowest

/-!
# Open files

A descriptor is a number below `maxOpenFiles`. An open file is bound to the directory by its name,
not by a slot: the name is looked up again on every use. Several descriptors may be bound to one
name, each with an offset of its own. Opening takes the lowest descriptor that is free.
-/

namespace FlatVolume

/-- How many descriptors there are. -/
def maxOpenFiles : Nat := 32

/-- What a descriptor is bound to. -/
structure OpenFile where
  name : String
  offset : Nat
deriving DecidableEq, Repr

/-- The descriptors, free or open. -/
structure OpenFiles where
  slots : Vector (Option OpenFile) maxOpenFiles
deriving DecidableEq, Repr

namespace OpenFiles

/-- No descriptor is open. -/
def empty : OpenFiles := ⟨Vector.replicate maxOpenFiles none⟩

/-- What descriptor `fd` is bound to, if it is open. -/
def get? (t : OpenFiles) (fd : Nat) : Option OpenFile := t.slots[fd]?.join

/-- What descriptor `fd` is bound to. -/
def get (t : OpenFiles) (fd : Nat) : Except VolumeError OpenFile :=
  match t.get? fd with
  | some f => .ok f
  | none => .error (.badDescriptor fd)

/-- Binds the lowest free descriptor to `name`, at the beginning of the file. -/
def bind (t : OpenFiles) (name : String) : Except VolumeError (Nat × OpenFiles) :=
  match lowest? Option.isNone t.slots with
  | some fd => .ok (fd.val, ⟨t.slots.set fd (some ⟨name, 0⟩)⟩)
  | none => .error .tooManyOpenFiles

/-- Frees descriptor `fd`. -/
def release (t : OpenFiles) (fd : Nat) : Except VolumeError OpenFiles :=
  match t.get? fd with
  | some _ => .ok ⟨t.slots.setIfInBounds fd none⟩
  | none => .error (.badDescriptor fd)

/-- Moves descriptor `fd` to `offset`; nothing happens if it is not open. -/
def moveTo (t : OpenFiles) (fd offset : Nat) : OpenFiles :=
  match t.get? fd with
  | some f => ⟨t.slots.setIfInBounds fd (some { f with offset })⟩
  | none => t

/-- The open files, in the order of their descriptors. -/
def toList (t : OpenFiles) : List OpenFile := t.slots.toList.filterMap id

/-- The open files bound to `name`, in the order of their descriptors. -/
def boundTo (t : OpenFiles) (name : String) : List OpenFile :=
  t.toList.filter (·.name == name)

/-- Whether some descriptor is bound to `name`. -/
def isOpen (t : OpenFiles) (name : String) : Bool := !(t.boundTo name).isEmpty

/-- How many descriptors are open. -/
def openCount (t : OpenFiles) : Nat := t.toList.length

/-- Lowers the offset of every descriptor bound to `name` to at most `limit`. -/
def clamp (t : OpenFiles) (name : String) (limit : Nat) : OpenFiles :=
  ⟨t.slots.map fun slot => slot.map fun f =>
    if f.name == name then { f with offset := min f.offset limit } else f⟩

/-! ## What each operation does to the descriptors -/

@[simp] theorem get?_empty (fd : Nat) : empty.get? fd = none := by
  by_cases h : fd < maxOpenFiles <;> simp [get?, empty, h]

theorem lt_of_get? {t : OpenFiles} {fd : Nat} {f : OpenFile} (h : t.get? fd = some f) :
    fd < maxOpenFiles := by
  refine Nat.lt_of_not_le fun hle => ?_
  simp [get?, hle] at h

/-- Tables that bind every descriptor alike are equal. -/
theorem ext_get? {t t' : OpenFiles} (h : ∀ fd, t.get? fd = t'.get? fd) : t = t' := by
  obtain ⟨slots⟩ := t
  obtain ⟨slots'⟩ := t'
  congr 1
  ext1 fd hfd
  have := h fd
  simpa [get?, hfd] using this

/-- What a descriptor is bound to after some descriptor's slot was replaced. -/
theorem get?_setIfInBounds (t : OpenFiles) (fd fd' : Nat) (slot : Option OpenFile) :
    get? ⟨t.slots.setIfInBounds fd slot⟩ fd' =
      if fd' = fd ∧ fd < maxOpenFiles then slot else t.get? fd' := by
  unfold get?
  rw [Vector.getElem?_setIfInBounds]
  by_cases h : fd' = fd
  · subst h
    by_cases hlt : fd' < maxOpenFiles <;> simp [hlt]
  · simp [h, Ne.symm h]

/-- **Opening takes a descriptor that was free,** binds it at the beginning of the file, and leaves
    the others as they are. -/
theorem get?_of_bind {t t' : OpenFiles} {name : String} {fd : Nat}
    (h : t.bind name = .ok (fd, t')) : t.get? fd = none ∧
      ∀ fd', t'.get? fd' = if fd' = fd then some ⟨name, 0⟩ else t.get? fd' := by
  unfold bind at h
  split at h
  · rename_i slot hs
    cases h
    have hfree := (lowest?_eq_some_iff.mp hs).1
    refine ⟨by simpa [get?] using hfree, fun fd' => ?_⟩
    by_cases hf : fd' = slot.val
    · subst hf
      simp [get?]
    · simp [get?, hf, Ne.symm hf]
  · cases h

/-- Where nothing is open, opening takes descriptor 0. -/
theorem exists_bind_empty (name : String) : ∃ files, empty.bind name = .ok (0, files) := by
  refine ⟨⟨empty.slots.set 0 (some ⟨name, 0⟩)⟩, ?_⟩
  have hl : lowest? Option.isNone empty.slots = some ⟨0, by decide⟩ :=
    lowest?_eq_some_iff.mpr ⟨by simp [empty], nofun⟩
  simp only [bind, hl]

/-- Closing frees the descriptor and leaves the others as they are. -/
theorem get?_of_release {t t' : OpenFiles} {fd : Nat} (h : t.release fd = .ok t') (fd' : Nat) :
    t'.get? fd' = if fd' = fd then none else t.get? fd' := by
  unfold release at h
  split at h
  · rename_i f hf
    cases h
    simp [get?_setIfInBounds, lt_of_get? hf]
  · cases h

/-- Moving a descriptor changes its offset and nothing else. -/
theorem get?_moveTo (t : OpenFiles) (fd offset fd' : Nat) :
    (t.moveTo fd offset).get? fd' =
      if fd' = fd then (t.get? fd).map fun f => { f with offset } else t.get? fd' := by
  unfold moveTo
  by_cases h : fd' = fd
  · subst h
    cases hf : t.get? fd' with
    | none => simp [hf]
    | some f => simp [get?_setIfInBounds, lt_of_get? hf]
  · cases hf : t.get? fd <;> simp [get?_setIfInBounds, h]

/-- Moving a descriptor to where it stands changes nothing. -/
theorem moveTo_self {t : OpenFiles} {fd : Nat} {f : OpenFile} (h : t.get? fd = some f) :
    t.moveTo fd f.offset = t := by
  refine ext_get? fun fd' => ?_
  rw [get?_moveTo]
  split
  · rename_i hfd
    rw [hfd, h]
    rfl
  · rfl

/-- Clamping looks at every descriptor by itself. -/
theorem get?_clamp (t : OpenFiles) (name : String) (limit fd : Nat) :
    (t.clamp name limit).get? fd = (t.get? fd).map fun f =>
      if f.name == name then { f with offset := min f.offset limit } else f := by
  by_cases h : fd < maxOpenFiles <;> simp [get?, clamp, h]

end OpenFiles

end FlatVolume
