import FlatVolume.Proofs.Reading
import FlatVolume.Proofs.Shortening
import FlatVolume.Proofs.Writing

/-!
# File access on any volume

A table that was mounted may hold anything, and still no access to a file leaves a volume untidy.
`Keeps R x` says that `x` stays within the relation `R`, however it ends; it is kept by sequences
when `R` is. A write stays within `Regrown`: links and the first block of its file may change, and
nothing else, until size and offset are entered at the end (`write_tidy`). Reading and shortening
are tidy as well (`read_tidy`, `truncate_tidy`).
-/

namespace FlatVolume

open AllocationTable FlatVolume.Computation

variable {W H : Type}

/-! ## 1. Computations that stay within a relation -/

namespace Computation

variable {ε σ α β : Type} {R : σ → σ → Prop}

/-- However `x` ends, it has not left `R`. -/
def Keeps (R : σ → σ → Prop) (x : EStateM ε σ α) : Prop :=
  ∀ s, Ends x s (fun _ t => R s t) fun _ t => R s t

theorem Keeps.bind [IsTrans σ R] {x : EStateM ε σ α} {f : α → EStateM ε σ β} (h : Keeps R x)
    (hf : ∀ a, Keeps R (f a)) : Keeps R (x >>= f) := by
  intro s
  refine Ends.bind ((h s).mono (fun a t hst => ?_) fun _ _ hst => hst)
  exact (hf a t).mono (fun _ _ htu => IsTrans.trans _ _ _ hst htu)
    fun _ _ htu => IsTrans.trans _ _ _ hst htu

/-- Taking back is a second step. -/
theorem Keeps.undoing [IsTrans σ R] {x : EStateM ε σ α} {undo : EStateM ε σ Unit}
    (h : Keeps R x) (hu : Keeps R undo) : Keeps R (Computation.undoing x undo) := by
  intro s
  have hs := h s
  unfold Ends Computation.undoing at *
  cases hx : x s with
  | ok a t => simpa [hx] using hs
  | error e t =>
    simp only [hx] at hs
    have htu := hu t
    unfold Ends at htu
    cases hv : undo t with
    | ok b u =>
      simp only [hv] at htu ⊢
      exact IsTrans.trans _ _ _ hs htu
    | error e' u =>
      simp only [hv] at htu ⊢
      exact IsTrans.trans _ _ _ hs htu

theorem Keeps.discard {x : EStateM ε σ α} (h : Keeps R x) : Keeps R (discard x) := by
  intro s
  obtain ⟨ho, he⟩ := ends_iff.mp (h s)
  refine ends_iff.mpr ⟨fun u t hx => ?_, fun e t hx => he e t (discard_eq_error_iff.mp hx)⟩
  obtain ⟨a, hx⟩ := discard_eq_ok_iff.mp hx
  exact ho a t hx

end Computation

namespace AllocationTable

/-- Tables of one size. -/
def SameSize (t t' : AllocationTable) : Prop := t'.size = t.size

theorem allocate_keeps : Keeps SameSize allocate := by
  intro t
  unfold Ends allocate
  cases t.lowestFree? with
  | none => rfl
  | some i =>
    show (Array.setIfInBounds _ _ _).size = _
    rw [Array.size_setIfInBounds]
    rfl

theorem extend_keeps (last new : Link) : Keeps SameSize (extend last new) := by
  intro t
  unfold Ends extend
  cases t.entries[last.toNat]? with
  | none => rfl
  | some e =>
    by_cases he : e = Link.endOfChain
    · simp only [if_pos he]
      exact size_set _ _ _
    · simp only [if_neg he]
      rfl

theorem cutAfter_keeps (b : Link) : Keeps SameSize (cutAfter b) := by
  intro t
  unfold Ends cutAfter
  cases t.entries[b.toNat]? with
  | none => rfl
  | some e => exact size_set _ _ _

theorem freeChain_keeps (first : Link) : Keeps SameSize (freeChain first) :=
  freeChain_ends first

end AllocationTable

namespace Mounted

variable {slot : Slot} {m m' m'' : Mounted W H}

/-! ## 2. A write on any volume -/

/-- Links may have changed, and the first block of the file in `slot`. -/
structure Regrown (slot : Slot) (m m' : Mounted W H) : Prop where
  size_eq : m'.volume.table.size = m.volume.table.size
  volume_eq : ∃ first, m'.volume = { m.volume with
    table := m'.volume.table
    root := m.volume.root.set slot { m.volume.root.get slot with firstBlock := first } }

theorem Regrown.of_volume_eq (slot : Slot) (h : m'.volume = m.volume) : Regrown slot m m' where
  size_eq := by rw [h]
  volume_eq := ⟨(m.volume.root.get slot).firstBlock, by rw [Directory.set_eta, h]⟩

theorem Regrown.refl (slot : Slot) (m : Mounted W H) : Regrown slot m m := .of_volume_eq slot rfl

theorem Regrown.trans (h : Regrown slot m m') (h' : Regrown slot m' m'') :
    Regrown slot m m'' where
  size_eq := h'.size_eq.trans h.size_eq
  volume_eq := by
    obtain ⟨first, hv⟩ := h.volume_eq
    obtain ⟨first', hv'⟩ := h'.volume_eq
    refine ⟨first', ?_⟩
    rw [hv', hv]
    simp only [Directory.set_set, Directory.get_set_self]

instance (slot : Slot) : IsTrans (Mounted W H) (Regrown slot) := ⟨fun _ _ _ h h' => h.trans h'⟩

theorem onTable_keeps {α : Type} {act : VolumeM AllocationTable α} (h : Keeps SameSize act) :
    Keeps (Regrown slot) (onTable act : MountedM W H α) := by
  intro m
  have hm := h m.volume.table
  unfold Ends at *
  unfold onTable
  cases hact : act m.volume.table with
  | ok a t =>
    simp only [hact] at hm ⊢
    exact ⟨hm, _, by rw [Directory.set_eta]⟩
  | error e t =>
    simp only [hact] at hm ⊢
    exact ⟨hm, _, by rw [Directory.set_eta]⟩

theorem onDevice_keeps {α : Type} (act : VolumeM W α) :
    Keeps (Regrown slot) (onDevice act : MountedM W H α) := by
  intro m
  unfold Ends onDevice
  cases act m.world with
  | ok a w => exact .of_volume_eq slot rfl
  | error e w => exact .of_volume_eq slot rfl

theorem setFirstBlock_keeps (first : Link) :
    Keeps (Regrown slot) (updateEntry slot (fun e => { e with firstBlock := first }) :
      MountedM W H Unit) :=
  fun _ => ⟨rfl, first, rfl⟩

/-- A computation that begins by looking at the volume. -/
theorem getVolume_bind_keeps {α : Type} {f : Volume H → MountedM W H α}
    (h : ∀ v, Keeps (Regrown slot) (f v)) : Keeps (Regrown slot) (getVolume >>= f) :=
  fun m => Ends.bind_ok (getVolume_run m) (h m.volume m)

theorem lookup_keeps {α : Type} (a : Except VolumeError α) :
    Keeps (Regrown slot) (lookup a : MountedM W H α) := by
  intro m
  unfold Ends lookup
  cases a <;> exact .refl slot m

theorem pure_keeps {α : Type} (a : α) : Keeps (Regrown slot) (pure a : MountedM W H α) :=
  fun m => Regrown.refl slot m

theorem linkLast_keeps (chain : Array Link) (new : Link) :
    Keeps (Regrown slot) (linkLast slot chain new : MountedM W H Unit) := by
  unfold linkLast
  cases chain.back? with
  | some last => exact onTable_keeps (extend_keeps last new)
  | none => exact setFirstBlock_keeps new

theorem unlinkLast_keeps (chain : Array Link) :
    Keeps (Regrown slot) (unlinkLast slot chain : MountedM W H Unit) := by
  unfold unlinkLast
  cases chain.back? with
  | none => exact pure_keeps ()
  | some block =>
    have hfree : Keeps (Regrown slot) (discard (onTable (freeChain block)) : MountedM W H Unit) :=
      (onTable_keeps (freeChain_keeps block)).discard
    cases chain.pop.back? with
    | some last => exact (onTable_keeps (cutAfter_keeps last)).discard.bind fun _ => hfree
    | none => exact (setFirstBlock_keeps _).bind fun _ => hfree

section Device

variable [BlockDevice W H]

theorem storeData_keeps (b : Link) (blk : Block) :
    Keeps (Regrown slot) (storeData b blk : MountedM W H Unit) :=
  getVolume_bind_keeps fun v => (lookup_keeps (v.locate b)).bind
    fun _ => onDevice_keeps _

theorem overwrite_keeps (b : Link) (s : Segment) :
    Keeps (Regrown slot) (overwrite b s : MountedM W H Unit) := by
  unfold overwrite
  split
  · exact getVolume_bind_keeps fun v => (onDevice_keeps _).bind
      fun old => storeData_keeps b _
  · exact storeData_keeps b _

/-- **Storing a piece** changes links and the first block of its file, or nothing. -/
theorem storeSegment_keeps (slot : Slot) (chain : Array Link) (s : Segment) :
    Keeps (Regrown slot) (storeSegment slot chain s : MountedM W H (Array Link)) := by
  unfold storeSegment
  split
  · exact (overwrite_keeps _ s).bind fun _ => pure_keeps _
  · refine (onTable_keeps allocate_keeps).bind fun b => ?_
    refine (linkLast_keeps chain b).bind fun _ => ?_
    refine ((storeData_keeps b _).undoing (unlinkLast_keeps _)).bind ?_
    exact fun _ => pure_keeps _

theorem storeSegments_keeps (slot : Slot) (chain : Array Link) (segments : List Segment)
    (written : Nat) :
    Keeps (Regrown slot) (storeSegments slot chain segments written : MountedM W H Progress) := by
  induction segments generalizing chain written with
  | nil => exact pure_keeps _
  | cons s rest ih =>
    intro m
    have hs := storeSegment_keeps slot chain s m
    unfold Ends at *
    unfold storeSegments
    cases hx : storeSegment slot chain s m with
    | ok chain' m' =>
      simp only [hx] at hs ⊢
      exact (ih chain' _ m').mono (fun _ _ h => hs.trans h) fun _ _ h => hs.trans h
    | error e m' =>
      simp only [hx] at hs ⊢
      exact hs

/-! ## 3. Tidiness -/

omit [BlockDevice W H] in
theorem Regrown.tidy (h : Regrown slot m m') (ht : m.volume.Tidy)
    (hocc : (m.volume.root.get slot).isFree = false) : m'.volume.Tidy := by
  obtain ⟨first, hv⟩ := h.volume_eq
  have hroot : Volume.Tidy { m.volume with
      root := m.volume.root.set slot { m.volume.root.get slot with firstBlock := first } } := by
    refine ht.rewritten hocc rfl fun {fd f} hf => ?_
    obtain ⟨s, hs, ho⟩ := ht.bound hf
    refine ⟨s, hs, ?_⟩
    split
    · rename_i heq
      exact heq ▸ ho
    · exact ho
  rw [hv]
  exact hroot.withTable h.size_eq

omit [BlockDevice W H] in
/-- **Entering size and offset** keeps a volume tidy: where the descriptor now stands, the file
    reaches. -/
theorem commit_tidy {fd reached : Nat} {f : OpenFile} (ht : m.volume.Tidy)
    (hf : m.volume.files.get? fd = some f) (hs : m.volume.root.find? f.name = some slot) :
    (m.commit fd slot reached).volume.Tidy := by
  refine ht.rewritten (Directory.of_find? hs).1 rfl fun {fd' f'} hf' => ?_
  rw [OpenFiles.get?_moveTo, hf] at hf'
  split at hf'
  · cases hf'
    refine ⟨slot, hs, ?_⟩
    rw [if_pos rfl]
    exact Nat.le_max_right _ _
  · obtain ⟨s, hs', ho⟩ := ht.bound hf'
    refine ⟨s, hs', ?_⟩
    split
    · rename_i heq
      exact Nat.le_trans (heq ▸ ho) (Nat.le_max_left _ _)
    · exact ho

/-- **A write leaves a tidy volume tidy,** whatever its table holds and however it ends. -/
theorem write_tidy (ht : m.volume.Tidy) (fd : Nat) (data : ByteArray) :
    Ends (write fd data) m (fun _ m' => m'.volume.Tidy) fun _ m' => m'.volume.Tidy := by
  unfold write
  refine Ends.bind_ok (getVolume_run m) ?_
  cases hf : m.volume.files.get? fd with
  | none =>
    have hr := Volume.resolve_of_get?_none hf
    exact Ends.bind (Ends.of_error (lookup_eq_error_iff.mpr ⟨hr, rfl⟩) ht)
  | some f =>
    obtain ⟨slot, hr, hs, ho⟩ := ht.resolve_eq hf
    refine Ends.bind_ok (lookup_eq_ok_iff.mpr ⟨hr, rfl⟩) ?_
    dsimp only
    split
    · exact ht
    · cases hc : m.volume.table.chain (m.volume.root.get slot).firstBlock with
      | error e => exact Ends.bind (Ends.of_error (lookup_eq_error_iff.mpr ⟨rfl, rfl⟩) ht)
      | ok chain =>
        refine Ends.bind_ok (lookup_eq_ok_iff.mpr ⟨rfl, rfl⟩) (Ends.bind ?_)
        have hloop := storeSegments_keeps slot chain.toArray (segments f.offset data) 0 m
        have hocc := (Directory.of_find? hs).1
        refine hloop.mono (fun p n hn => ?_) fun e n hn => hn.tidy ht hocc
        -- the descriptor is still bound to the file, so size and offset can be entered
        have hn' := hn.tidy ht hocc
        obtain ⟨first, hv⟩ := hn.volume_eq
        have hfn : n.volume.files.get? fd = some f := by
          rw [hv]
          exact hf
        have hsn : n.volume.root.find? f.name = some slot := by
          rw [hv]
          exact (Directory.find?_set_of_name_eq (by rfl) _).trans hs
        refine commit_ends ?_
        generalize hq : (if 0 < p.written then n.commit fd slot (f.offset + p.written) else n) = q
        have hqt : q.volume.Tidy := by
          rw [← hq]
          split
          · exact commit_tidy hn' hfn hsn
          · exact hn'
        rcases p with ⟨k, _ | e⟩
        · exact hqt
        · cases e <;> try exact hqt
          dsimp only
          split <;> exact hqt

/-- **A read moves its descriptor,** not past the end of the file, and changes nothing else. -/
theorem read_tidy (ht : m.volume.Tidy) (fd count : Nat) :
    Ends (read fd count) m (fun _ m' => m'.volume.Tidy) fun _ m' => m'.volume.Tidy := by
  unfold read
  refine Ends.bind_ok (getVolume_run m) ?_
  cases hf : m.volume.files.get? fd with
  | none =>
    have hr := Volume.resolve_of_get?_none hf
    exact Ends.bind (Ends.of_error (lookup_eq_error_iff.mpr ⟨hr, rfl⟩) ht)
  | some f =>
    obtain ⟨slot, hr, hs, ho⟩ := ht.resolve_eq hf
    refine Ends.bind_ok (lookup_eq_ok_iff.mpr ⟨hr, rfl⟩) ?_
    dsimp only
    split
    · exact ht
    · cases hn : m.volume.table.nthBlock (m.volume.root.get slot).firstBlock
          (f.offset / blockSize) with
      | error e => exact Ends.bind (Ends.of_error (lookup_eq_error_iff.mpr ⟨rfl, rfl⟩) ht)
      | ok first =>
        refine Ends.bind_ok (lookup_eq_ok_iff.mpr ⟨rfl, rfl⟩) (Ends.bind ?_)
        refine ends_iff.mpr ⟨fun parts m' hm => ?_, fun e m' hm => ?_⟩
        · obtain ⟨w, -, rfl⟩ := onDevice_eq_ok_iff.mp hm
          exact ht.moved hf hs (by omega)
        · obtain ⟨w, -, rfl⟩ := onDevice_eq_error_iff.mp hm
          exact ht

omit [BlockDevice W H] in
theorem truncate_tidy (ht : m.volume.Tidy) (fd size : Nat) :
    Ends (truncate fd size) m (fun _ m' => m'.volume.Tidy) fun _ m' => m'.volume.Tidy := by
  have hcut : ∀ {m' : Mounted W H}, (m' = m ∨ ∃ f slot first t, m.volume.resolve fd = .ok (f, slot) ∧
      size ≤ (m.volume.root.get slot).size ∧ t.size = m.volume.table.size ∧
      m' = m.cutDown slot f.name size first t) → m'.volume.Tidy := by
    intro m' hq
    rcases hq with rfl | ⟨f, slot, first, t, hr, hle, hts, rfl⟩
    · exact ht
    · exact ht.shortened first (Volume.resolve_eq_ok_iff.mp hr).2 hle hts
  exact (truncate_cuts fd size m).mono (fun _ _ => hcut) fun _ _ => hcut

end Device

end Mounted

end FlatVolume
