import FlatVolume.Proofs.Refinement

/-!
# Where the bytes of a file come from

A file that gets a new block gets it with zeros around what was written, and a block that could not be
stored is taken off again. So a byte of a file is one that was written to it, or one that it had
before: `Mounted.Effect.overlaid` says so of every call, however it ends, and
`Mounted.Overlaid.bytesOf_congr` draws the conclusion, that nothing else of the device decides what a
file holds. A read gives the bytes of its file (`FileCall.run_gives`).
-/

namespace FlatVolume

open AllocationTable Bytes FlatVolume.Computation Mounted
open FileSystem (ofMounted)

variable {W H : Type} [BlockDevice W H] [LawfulBlockDevice W H]

/-- The byte that `call` puts at position `i` of the file in slot `s`, if it puts one there, on the way
    from `v` to `v'`. Only a write does: it puts its bytes from where its descriptor stood to where it
    stands now. -/
def FileCall.put? {H : Type} (call : FileCall) (v v' : Volume H) (s : Slot) (i : Nat) :
    Option UInt8 :=
  match call with
  | .write fd data =>
    match v.resolve fd, v'.files.get? fd with
    | .ok (f, slot), some f' =>
      if s = slot ∧ f.offset ≤ i ∧ i < f'.offset then some (byteAt data (i - f.offset)) else none
    | _, _ => none
  | _ => none

/-- Where nothing has changed, nothing was put. -/
theorem FileCall.put?_self {H : Type} (call : FileCall) (v : Volume H) (s : Slot) (i : Nat) :
    call.put? v v s i = none := by
  cases call with
  | write fd data =>
    cases hr : v.resolve fd with
    | error e => simp only [put?, hr]
    | ok q =>
      obtain ⟨f, slot⟩ := q
      have hf : v.files.get? fd = some f := (Volume.resolve_eq_ok_iff.mp hr).1
      simp only [put?, hr, hf]
      refine if_neg fun hq => ?_
      exact Nat.not_le_of_gt hq.2.2 hq.2.1
  | _ => rfl

/-- Only a write puts bytes into files. -/
theorem FileCall.put?_of_ne {H : Type} {call : FileCall} (h : ∀ fd data, call ≠ .write fd data)
    (v v' : Volume H) : call.put? v v' = fun _ _ => none := by
  cases call with
  | write fd data => exact absurd rfl (h fd data)
  | _ => rfl

namespace Mounted

variable {m m' : Mounted W H} {own : Slot → List Link} {slot : Slot} {new : List Link}
  {put? : Slot → Nat → Option UInt8}

/-- **What the files of `m'` hold was put there,** or it is what those of `m` held. -/
def Overlaid (m m' : Mounted W H) (put? : Slot → Nat → Option UInt8) : Prop :=
  ∀ s, ∀ i < (m'.volume.root.get s).size, byteAt (m'.bytesOf (m'.volume.root.get s)) i =
    (put? s i).getD (byteAt (m.bytesOf (m.volume.root.get s)) i)

/-- Where only descriptors changed, the files are what they were. -/
theorem Overlaid.of_files {files : OpenFiles} {w : W}
    (h : storage ⟨{ m.volume with files }, w⟩ = m.storage) :
    Overlaid m ⟨{ m.volume with files }, w⟩ fun _ _ => none := by
  intro s i _
  have hbytes : bytesOf ⟨{ m.volume with files }, w⟩ (m.volume.root.get s) =
      m.bytesOf (m.volume.root.get s) := bytesOf_congr rfl rfl fun b _ => by rw [h]
  exact congrArg (byteAt · i) hbytes

/-- Where one file was replaced, it is to be said of that file only. -/
theorem Overlaid.of_refiled (h : m.volume.Intact own) (ht : m'.volume.Tidy)
    (hr : Volume.Refiled m.volume m'.volume slot (own slot) new)
    (hst : ∀ s, s ≠ slot → ∀ b ∈ own s, m'.storage.block (m.volume.superblock.dataBlock b) =
      m.storage.block (m.volume.superblock.dataBlock b))
    (hput : ∀ s, s ≠ slot → ∀ i, put? s i = none)
    (hslot : ∀ i < (m'.volume.root.get slot).size,
      byteAt (m'.bytesOf (m'.volume.root.get slot)) i =
        (put? slot i).getD (byteAt (m.bytesOf (m.volume.root.get slot)) i)) :
    Overlaid m m' put? := by
  intro s i hi
  by_cases hs : s = slot
  · subst hs
    exact hslot i hi
  · rw [hput s hs, hr.get_eq s hs, bytesOf_of_refiled h ht hr hs (hst s hs)]
    rfl

/-- A file that was shortened keeps its first bytes. -/
theorem Overlaid.of_shortened (h : m.volume.Intact own) {v : Volume H} (ht : v.Tidy) {size : Nat}
    (hr : Volume.Refiled m.volume v slot (own slot) ((own slot).take (ceilDiv size blockSize)))
    (hsize : (v.root.get slot).size = size) (hle : size ≤ (m.volume.root.get slot).size) :
    Overlaid m ⟨v, m.world⟩ fun _ _ => none := by
  have hst : storage ⟨v, m.world⟩ = m.storage := by
    rw [storage, hr.device_eq]
    rfl
  subst hsize
  have hbytes : bytesOf ⟨v, m.world⟩ (v.root.get slot) =
      (m.bytesOf (m.volume.root.get slot)).extract 0 (v.root.get slot).size :=
    bytesOf_shortened h hr.superblock_eq hst (Volume.blocksOf_of_chain hr.chain) hle
  refine .of_refiled h ht hr (fun s _ b _ => by rw [hst]) (fun _ _ _ => rfl) fun i hi => ?_
  rw [hbytes, byteAt_extract hi, Nat.zero_add]
  rfl

/-- **What a write leaves** is what it has written, over the bytes that were there. -/
theorem Overlaid.of_written {fd k : Nat} {f : OpenFile} {data : ByteArray}
    (hw : Written m m' fd slot (own slot) new f.offset data k) (h : m.volume.Intact own)
    (hr : m.volume.resolve fd = .ok (f, slot)) (hk : k ≤ data.size) :
    Overlaid m m' ((FileCall.write fd data).put? m.volume m'.volume) := by
  obtain ⟨hf, hs⟩ := Volume.resolve_eq_ok_iff.mp hr
  have ht := hw.tidy h hf hs
  have ho := h.offset_le hr
  have hf' : m'.volume.files.get? fd = some { f with offset := f.offset + k } := by
    rw [hw.files_eq, OpenFiles.get?_moveTo, if_pos rfl, hf]
    rfl
  have hput : ∀ s i, (FileCall.write fd data).put? m.volume m'.volume s i =
      if s = slot ∧ f.offset ≤ i ∧ i < f.offset + k then some (byteAt data (i - f.offset))
      else none := by
    intro s i
    simp only [FileCall.put?, hr, hf']
  refine .of_refiled h ht (hw.refiled h) (fun s hne b hb => hw.block_eq h ht hne hb)
    (fun s hne i => ?_) fun i _ => ?_
  · rw [hput, if_neg fun hq => hne hq.1]
  · have hold : f.offset ≤ (m.bytesOf (m.volume.root.get slot)).size := by rwa [size_bytesOf]
    have hsplice := byteAt_splice hold hk i
    rw [size_bytesOf] at hsplice
    rw [hput, hw.bytesOf_eq h ho hk, hsplice]
    by_cases hin : f.offset ≤ i ∧ i < f.offset + k
    · rw [if_pos hin, if_pos ⟨rfl, hin⟩]
      rfl
    · rw [if_neg hin, if_neg fun hq => hin hq.2]
      rfl

/-- **Two files that held the same and had the same put into them hold the same,** wherever they are. -/
theorem Overlaid.bytesOf_congr {W' H' : Type} [BlockDevice W' H'] [LawfulBlockDevice W' H']
    {n n' : Mounted W' H'} (h : Overlaid m m' put?) (h' : Overlaid n n' put?)
    (hroot : n'.volume.root = m'.volume.root)
    (hold : ∀ s, n.bytesOf (n.volume.root.get s) = m.bytesOf (m.volume.root.get s)) (s : Slot) :
    n'.bytesOf (n'.volume.root.get s) = m'.bytesOf (m'.volume.root.get s) := by
  refine ext_byteAt (by rw [size_bytesOf, size_bytesOf, hroot]) fun i hi => ?_
  rw [size_bytesOf] at hi
  rw [h' s i hi, h s i (hroot ▸ hi), hold s]

/-- **Every call leaves in the files what it has put there,** over what they held. -/
theorem Effect.overlaid {call : FileCall} (h : m.volume.Intact own) (he : Effect call m own m') :
    Overlaid m m' (call.put? m.volume m'.volume) := by
  cases he with
  | none =>
    intro s i _
    rw [FileCall.put?_self]
    rfl
  | files hcall _ hst =>
    rw [FileCall.put?_of_ne hcall]
    exact .of_files hst
  | shortened hcall ht hr hsize hle =>
    rw [FileCall.put?_of_ne hcall]
    exact .of_shortened h ht hr hsize hle
  | written hcall hr hw hk =>
    subst hcall
    exact .of_written hw h hr hk

end Mounted

/-! ## Reading -/

variable {m : Mounted W H} {own : Slot → List Link}

/-- **A read gives bytes of its file,** from its offset to the end of the request or of the file. -/
theorem Mounted.read_gives (h : m.volume.Intact own) (fd count : Nat) :
    Ends (read fd count) m
      (fun bytes _ => ∃ f slot, m.volume.resolve fd = .ok (f, slot) ∧
        bytes = (m.bytesOf (m.volume.root.get slot)).extract f.offset (f.offset + count))
      (fun _ _ => True) := by
  refine (read_ends_of_intact h fd count).mono ?_ fun _ _ _ => trivial
  intro bytes m' hok
  rcases hok with ⟨f, slot, k, w, hr, hk, hbytes, -, -⟩
  have ho := h.offset_le hr
  refine ⟨f, slot, hr, ext_byteAt ?_ fun i hi => ?_⟩
  · rw [ByteArray.size_extract, size_bytesOf, hbytes.size_eq]
    omega
  · rw [hbytes.size_eq] at hi
    rw [hbytes.byteAt_eq i hi, byteAt_extract (by omega),
      byteAt_bytesOf _ _ (by omega), h.blocksOf_eq]

/-- What a call answers that reads. -/
theorem FileCall.run_gives (call : FileCall) (h : m.volume.Intact own) :
    Ends call.run (ofMounted m)
      (fun a _ => ∀ fd count, call = .read fd count → ∃ f slot,
        m.volume.resolve fd = .ok (f, slot) ∧
        a = .bytes ((m.bytesOf (m.volume.root.get slot)).extract f.offset (f.offset + count)))
      (fun _ _ => True) := by
  by_cases hread : ∃ fd count, call = .read fd count
  · obtain ⟨fd, count, rfl⟩ := hread
    refine Ends.map (FileSystem.onVolume_ends ((read_gives h fd count).mono ?_ fun _ _ _ => trivial))
    intro bytes m' hok fd' count' heq
    cases heq
    obtain ⟨f, slot, hr, hbytes⟩ := hok
    exact ⟨f, slot, hr, congrArg Answer.bytes hbytes⟩
  · exact ends_iff.mpr ⟨fun _ _ _ fd count heq => absurd ⟨fd, count, heq⟩ hread,
      fun _ _ _ => trivial⟩

end FlatVolume
