import FlatVolume.Proofs.Footprints
import FlatVolume.Proofs.Guarded
import FlatVolume.Proofs.Prepared

/-!
# Nothing goes wrong

The operations with nothing taken for granted (`Operation.guarded`) neither crash nor go on for ever:
on every volume that can be mounted and in every state that is reached from there, they do what the
operations do (`FileSystem.guarded_eq_run`). What makes each index good is told where it is used:

* a link is looked up only where it names a data block, so `next`, `nthBlock` and `chain` are safe on
  any table (`next_eq`, `nthBlock_eq`, `chain_eq`), and freeing a chain has one entry fewer in use after
  each round (`freeChain_agrees`);
* the table of a volume has at most 65535 entries, so no block number is cut (`allocate_agrees`);
* a block is linked behind the last of a chain, which ends it, and what was linked in vain can be taken
  off again (`storeRound_agrees_of_le`);
* the pieces of a range lie in the block, in the buffer and in the data (`readLoop_agrees`,
  `storeLoop_agrees`).
-/

namespace FlatVolume

open AllocationTable FlatVolume.Computation Mounted
open FileSystem (ofMounted ofWorld)
open Link (free endOfChain)

variable {W H σ α β γ : Type}

namespace Guarded

/-! ## 1. Steps that go well -/

/-- **`g` neither crashes nor goes on for ever from `s`:** it ends as `x` does. -/
def Agrees (g : Guarded σ α) (x : VolumeM σ α) (s : σ) : Prop := g s = some (.ok (x s))

section Steps

variable {g : Guarded σ α} {x : VolumeM σ α} {s : σ}

theorem bind_of_ok {t : σ} {a : α} {f : α → Guarded σ β} (h : g s = some (.ok (.ok a t))) :
    (g >>= f) s = f a t := by
  show Guarded.bind g f s = f a t
  rw [Guarded.bind, h]

theorem bind_of_error {t : σ} {e : VolumeError} {f : α → Guarded σ β}
    (h : g s = some (.ok (.error e t))) : (g >>= f) s = some (.ok (.error e t)) := by
  show Guarded.bind g f s = _
  rw [Guarded.bind, h]

theorem bind_bind (g : Guarded σ α) (f : α → Guarded σ β) (k : β → Guarded σ γ) :
    (g >>= f) >>= k = g >>= fun a => f a >>= k := by
  funext s
  show Guarded.bind (Guarded.bind g f) k s = Guarded.bind g (fun a => Guarded.bind (f a) k) s
  simp only [Guarded.bind]
  cases g s with
  | none => rfl
  | some o =>
    cases o with
    | error c => rfl
    | ok r => cases r <;> rfl

theorem map_seq (F : β → γ) (g : Guarded σ α) (f : α → Guarded σ β) :
    F <$> (g >>= f) = g >>= fun a => F <$> f a := bind_bind g f _

/-- A sequence agrees with a sequence if its steps do. -/
theorem Agrees.bind (h : Agrees g x s) {f : α → Guarded σ β} {k : α → VolumeM σ β}
    (hf : ∀ a t, x s = .ok a t → Agrees (f a) (k a) t) : Agrees (g >>= f) (x >>= k) s := by
  unfold Agrees at h ⊢
  cases hx : x s with
  | ok a t => rw [bind_of_ok (h.trans (by rw [hx])), Computation.bind_of_ok hx, hf a t hx]
  | error e t => rw [bind_of_error (h.trans (by rw [hx])), Computation.bind_of_error hx]

/-- A step that only looks at the state. -/
theorem Agrees.look {a : α} (hg : g s = some (.ok (.ok a s))) {f : α → Guarded σ β}
    {k : VolumeM σ β} (hf : Agrees (f a) k s) : Agrees (g >>= f) k s := (bind_of_ok hg).trans hf

/-- A step that only looks whether something is in order. -/
theorem Agrees.check {a : α} (hg : g = pure a) {f : α → Guarded σ β} {k : VolumeM σ β}
    (hf : Agrees (f a) k s) : Agrees (g >>= f) k s := .look (hg ▸ rfl) hf

theorem Agrees.lift (x : VolumeM σ α) (s : σ) : Agrees (Guarded.lift x) x s := rfl

theorem Agrees.map (h : Agrees g x s) (f : α → β) : Agrees (f <$> g) (f <$> x) s := by
  refine (h.bind (k := fun a => pure (f a)) fun a t _ => ?_).trans ?_
  · rfl
  · rw [map_eq_pure_bind]

/-- A sequence whose first step answers something else, from which the rest makes the same. -/
theorem Agrees.bind_map {g : Guarded σ β} {F : α → β} (h : Agrees g (F <$> x) s)
    {f : β → Guarded σ γ} {k : α → VolumeM σ γ}
    (hf : ∀ a t, x s = .ok a t → Agrees (f (F a)) (k a) t) : Agrees (g >>= f) (x >>= k) s := by
  have hmap : (F <$> x) s = EStateM.map F x s := rfl
  unfold Agrees at h ⊢
  rw [hmap, EStateM.map] at h
  cases hx : x s with
  | ok a t =>
    rw [hx] at h
    rw [bind_of_ok h, Computation.bind_of_ok hx, hf a t hx]
  | error e t =>
    rw [hx] at h
    rw [bind_of_error h, Computation.bind_of_error hx]

theorem attempt_of_ok {a : α} {t : σ} (h : g s = some (.ok (.ok a t))) :
    attempt g s = some (.ok (.ok (.ok a) t)) := by
  rw [attempt, h]

theorem attempt_of_error {e : VolumeError} {t : σ} (h : g s = some (.ok (.error e t))) :
    attempt g s = some (.ok (.ok (.error e) t)) := by
  rw [attempt, h]

/-- What is known of a part of the answer tells how the computation ended. -/
theorem Agrees.ok_of_map {F : α → β} {y : VolumeM σ β} {b : β} {t : σ} (h : Agrees (F <$> g) y s)
    (hy : y s = .ok b t) : ∃ a, g s = some (.ok (.ok a t)) ∧ F a = b := by
  unfold Agrees at h
  rw [hy] at h
  change Guarded.bind g (Guarded.pure ∘ F) s = _ at h
  unfold Guarded.bind at h
  split at h
  · rename_i a u hg
    cases h
    exact ⟨a, hg, rfl⟩
  all_goals cases h

theorem Agrees.error_of_map {F : α → β} {y : VolumeM σ β} {e : VolumeError} {t : σ}
    (h : Agrees (F <$> g) y s) (hy : y s = .error e t) : g s = some (.ok (.error e t)) := by
  unfold Agrees at h
  rw [hy] at h
  change Guarded.bind g (Guarded.pure ∘ F) s = _ at h
  unfold Guarded.bind at h
  split at h
  · cases h
  · rename_i e' u hg
    cases h
    exact hg
  all_goals cases h

/-- **What is taken back can be taken back.** -/
theorem Agrees.undoing (h : Agrees g x s) {u : Guarded σ Unit} {y : VolumeM σ Unit}
    (hu : ∀ e t, x s = .error e t → Agrees u y t ∧ ∃ t', y t = .ok () t') :
    Agrees (Guarded.undoing g u) (Computation.undoing x y) s := by
  unfold Agrees at h ⊢
  unfold Guarded.undoing Computation.undoing
  cases hx : x s with
  | ok a t =>
    rw [hx] at h
    rw [bind_of_ok (attempt_of_ok h)]
    rfl
  | error e t =>
    rw [hx] at h
    obtain ⟨hagree, t', hy⟩ := hu e t hx
    have hundo : u t = some (.ok (.ok () t')) := hagree.trans (by rw [hy])
    rw [bind_of_ok (attempt_of_error h)]
    dsimp only
    rw [bind_of_ok (attempt_of_ok hundo), hy]
    rfl

theorem Agrees.discard (h : Agrees g x s) :
    Agrees (g >>= fun _ => pure ()) (Functor.discard x) s := h.map fun _ => ()

theorem Agrees.bind_discard (h : Agrees g x s) {f : α → Guarded σ β} {k : Unit → VolumeM σ β}
    (hf : ∀ a t, x s = .ok a t → Agrees (f a) (k ()) t) :
    Agrees (g >>= f) (Functor.discard x >>= k) s := by
  have hx : Functor.discard x >>= k = x >>= fun _ => k () := bind_map_left ..
  rw [hx]
  exact h.bind hf

theorem lookup_bind (r : Except VolumeError α) (f : α → Guarded σ β) :
    (lookup r >>= f) = match r with
      | .ok a => f a
      | .error e => fail e := by
  cases r <;> rfl

/-- **A loop is its first round,** and then the loop again unless it is done. -/
theorem loop_eq (round : β → Guarded σ (β ⊕ α)) (b : β) :
    loop round b = round b >>= afterRound round := by
  funext s
  show _ = Guarded.bind (round b) (afterRound round) s
  rw [loop, Guarded.bind]
  cases round b s with
  | none => rfl
  | some o =>
    cases o with
    | error c => rfl
    | ok r =>
      cases r with
      | error e t => rfl
      | ok a t => cases a <;> rfl

/-- **A loop that goes on from every state it can be in never ends.** -/
theorem loop_eq_none {round : β → Guarded σ (β ⊕ α)} (P : β → Prop)
    (h : ∀ b s, P b → ∃ b' t, P b' ∧ round b s = some (.ok (.ok (.inl b') t))) {b : β} (hb : P b)
    (s : σ) : loop round b s = none := by
  have hno : ∀ r, loop round b s = some r → ¬ P b := by
    refine loop.partial_correctness round (fun b _ _ => ¬ P b) (fun next ih b s r hr hb => ?_) b s
    obtain ⟨b', t, hb', hround⟩ := h b s hb
    rw [hround] at hr
    exact ih b' t r hr hb'
  cases hl : loop round b s with
  | none => rfl
  | some r => exact absurd hb (hno r hl)

/-- **Going over a list** is safe if every element is, as long as `P` holds of what was made of those
    before it. -/
theorem each_eq {f : γ → β → Guarded σ γ} {g : γ → β → Except VolumeError γ} (P : γ → Prop)
    {l : List β} (h : ∀ acc, P acc → ∀ b ∈ l, f acc b = lookup (g acc b) ∧
      ∀ acc', g acc b = .ok acc' → P acc') {acc : γ} (hacc : P acc) :
    each f acc l = lookup (l.foldlM g acc) ∧ ∀ acc', l.foldlM g acc = .ok acc' → P acc' := by
  induction l generalizing acc with
  | nil =>
    rw [each, loop_eq]
    refine ⟨rfl, fun acc' hok => ?_⟩
    cases hok
    exact hacc
  | cons b rest ih =>
    obtain ⟨hf, hg⟩ := h acc hacc b (List.mem_cons_self ..)
    rw [each, loop_eq, eachRound, hf, List.foldlM_cons]
    cases hacc' : g acc b with
    | error e => exact ⟨rfl, nofun⟩
    | ok acc' => exact ih (fun a ha b hb => h a ha b (List.mem_cons_of_mem _ hb)) (hg acc' hacc')

theorem index_of_lt {a : Array β} {i : Nat} (h : i < a.size) :
    (index a i : Guarded σ β) = pure a[i] := dif_pos h

theorem slice_of_le {b : ByteArray} {start n : Nat} (h : start + n ≤ b.size) :
    (slice b start n : Guarded σ ByteArray) = pure (b.extract start (start + n)) := if_pos h

theorem copyInto_of_le {b src : ByteArray} {start : Nat} (h : start + src.size ≤ b.size) :
    (copyInto b start src : Guarded σ ByteArray) = pure (Bytes.patch b start src) := if_pos h

theorem layOver_of_le {b : Block} {src : ByteArray} {within : Nat}
    (h : within + src.size ≤ blockSize) :
    (layOver b within src : Guarded σ Block) = pure (b.overlay within src) := if_pos h

theorem entryAt_slot (root : Directory) (slot : Slot) :
    (entryAt root slot.val : Guarded σ Entry) = pure (root.get slot) := dif_pos slot.isLt

theorem updateEntry_slot (slot : Slot) (f : Entry → Entry) :
    (updateEntry slot.val f : Guarded (Mounted W H) Unit) = lift (Mounted.updateEntry slot f) :=
  dif_pos slot.isLt

end Steps

/-! ## 2. The table -/

section Table

variable {t : AllocationTable} {first b : Link}

/-- **Following a link** looks at the table only where `b` is a data block of it. -/
theorem next_eq (t : AllocationTable) (b : Link) : (next t b : Guarded σ Link) = lookup (t.next b) := by
  unfold next AllocationTable.next
  by_cases hb : t.isDataBlock b
  · obtain ⟨h0, hlt⟩ := isDataBlock_iff.mp hb
    rw [if_pos hb, index_of_lt hlt]
    show (if t.entries[b.toNat] = free then _ else _) = _
    by_cases hfree : t.entries[b.toNat] = free
    · rw [if_pos hfree, link?_of_entry_free (Array.getElem?_eq_some_iff.mpr ⟨hlt, hfree⟩)]
      rfl
    · rw [if_neg hfree, link?_eq_some_iff.mpr ⟨h0, Array.getElem?_eq_getElem hlt, hfree⟩]
      rfl
  · have hnone : t.link? b = none := by
      cases hl : t.link? b with
      | none => rfl
      | some n => exact absurd (isDataBlock_of_link? hl) hb
    rw [if_neg hb, hnone]
    rfl

/-- Links that are followed without being counted need not come to an end. -/
theorem loop_next_looped (s : σ) :
    loop (fun b => Sum.inl (β := Unit) <$> next looped b) (1 : Link) s = none := by
  refine loop_eq_none (· = 1) (fun b s hb => ⟨1, s, rfl, ?_⟩) rfl s
  rw [hb, next_eq, next_eq_ok_iff.mpr link?_looped]
  rfl

/-- The loop that has followed `i` of `n` links already. -/
theorem loop_nthRound {n : Nat} (t : AllocationTable) {k i : Nat} (b : Link) (h : i + k = n) :
    (loop (nthRound t n) (i, b) : Guarded σ Link) = lookup (t.nthBlock b k) := by
  induction k generalizing i b with
  | zero =>
    rw [loop_eq, nthRound, if_pos (by omega)]
    rfl
  | succ k ih =>
    rw [loop_eq, nthRound, if_neg (by omega), AllocationTable.nthBlock]
    by_cases hend : b = endOfChain
    · rw [if_pos hend, if_pos hend]
      rfl
    · rw [if_neg hend, if_neg hend, next_eq]
      cases t.next b with
      | error e => rfl
      | ok b' => exact ih b' (by omega)

theorem nthBlock_eq (t : AllocationTable) (first : Link) (n : Nat) :
    (nthBlock t first n : Guarded σ Link) = lookup (t.nthBlock first n) :=
  loop_nthRound t first (Nat.zero_add n)

/-- The loop that has collected `blocks` already. -/
theorem loop_chainRound (t : AllocationTable) {steps : Nat} (blocks : Array Link) (b : Link)
    (h : blocks.size + steps = t.size) : (loop (chainRound t) (blocks, b) : Guarded σ (Array Link)) =
      lookup ((t.walk steps b).map fun rest => blocks ++ rest.toArray) := by
  induction steps generalizing blocks b with
  | zero =>
    rw [loop_eq, chainRound, walk]
    by_cases hend : b = endOfChain
    · rw [if_pos hend, if_pos hend]
      simp only [Except.map, Array.append_empty]
      rfl
    · rw [if_neg hend, if_neg hend, if_pos (by omega)]
      rfl
  | succ steps ih =>
    rw [loop_eq, chainRound, walk]
    by_cases hend : b = endOfChain
    · rw [if_pos hend, if_pos hend]
      simp only [Except.map, Array.append_empty]
      rfl
    · rw [if_neg hend, if_neg hend, if_neg (by omega), next_eq]
      cases t.next b with
      | error e => rfl
      | ok b' =>
        refine (ih (blocks.push b) b' (by rw [Array.size_push]; omega)).trans ?_
        dsimp only
        cases t.walk steps b' with
        | error e => rfl
        | ok rest =>
          have hpush : blocks.push b ++ rest.toArray = blocks ++ (b :: rest).toArray := by simp
          exact congrArg (fun a => lookup (.ok a)) hpush

theorem chain_eq (t : AllocationTable) (first : Link) :
    (chain t first : Guarded σ (Array Link)) = lookup ((t.chain first).map List.toArray) := by
  refine (loop_chainRound t #[] first (Nat.zero_add t.size)).trans ?_
  simp only [Array.empty_append]
  rfl

theorem setEntry_run {i : Nat} (hi : i < t.size) (b : Link) :
    setEntry i b t = some (.ok (.ok () ⟨t.entries.setIfInBounds i b⟩)) := by
  have hassign : (assign t.entries i b : Guarded AllocationTable (Array Link)) =
      pure (t.entries.setIfInBounds i b) := by
    have hlt : i < t.entries.size := hi
    rw [assign, dif_pos hlt, Array.setIfInBounds, dif_pos hlt]
  show (assign t.entries i b >>= _) t = _
  rw [hassign]
  rfl

/-- **The number of a block that is handed out is one of 16 bits,** and neither 0 nor 65535. -/
theorem allocate_agrees (hs : t.size ≤ 65535) : Agrees allocate AllocationTable.allocate t := by
  unfold Agrees allocate AllocationTable.allocate
  rw [bind_of_ok rfl]
  cases hl : t.lowestFree? with
  | none => rfl
  | some i =>
    obtain ⟨hpos, he, -⟩ := lowestFree?_eq_some_iff.mp hl
    have hlt : i < t.size := (Array.getElem?_eq_some_iff.mp he).1
    have hend : endOfChain.toNat = 65535 := rfl
    dsimp only
    rw [bind_of_ok (setEntry_run hlt _), if_neg (by omega)]
    rfl

/-- **Where linking is no misuse, it does not crash.** -/
theorem extend_agrees {last new : Link} {t' : AllocationTable}
    (h : AllocationTable.extend last new t = .ok () t') :
    Agrees (extend last new) (AllocationTable.extend last new) t := by
  unfold Agrees
  rw [h]
  unfold AllocationTable.extend at h
  cases he : t.entries[last.toNat]? with
  | none =>
    rw [he] at h
    cases h
  | some e =>
    obtain ⟨hlt, hval⟩ := Array.getElem?_eq_some_iff.mp he
    rw [he] at h
    dsimp only at h
    by_cases hend : e = endOfChain
    · rw [if_pos hend] at h
      rw [extend]
      refine (bind_of_ok rfl).trans ?_
      rw [index_of_lt hlt]
      refine (bind_of_ok rfl).trans ?_
      rw [if_pos (hval.trans hend), setEntry_run hlt, ← h]
      rfl
    · rw [if_neg hend] at h
      cases h

/-- Where cutting is no misuse, it does not crash. -/
theorem cutAfter_agrees {old : Link} {t' : AllocationTable}
    (h : AllocationTable.cutAfter b t = .ok old t') :
    Agrees (cutAfter b) (AllocationTable.cutAfter b) t := by
  unfold Agrees
  rw [h]
  unfold AllocationTable.cutAfter at h
  cases he : t.entries[b.toNat]? with
  | none =>
    rw [he] at h
    cases h
  | some e =>
    obtain ⟨hlt, hval⟩ := Array.getElem?_eq_some_iff.mp he
    rw [he] at h
    rw [cutAfter]
    refine (bind_of_ok rfl).trans ?_
    rw [index_of_lt hlt]
    refine (bind_of_ok rfl).trans ?_
    refine (bind_of_ok (setEntry_run hlt endOfChain)).trans ?_
    rw [hval, ← h]
    rfl

/-- Behind the last entry it does. -/
example : cutAfter 5 (AllocationTable.empty 3) = some (.error (.index 5 3)) := rfl

/-- The loop that has freed `k` blocks already. After each round one entry fewer is in use. -/
theorem loop_freeRound (k : Nat) (first : Link) (t : AllocationTable) :
    loop freeRound (k, first) t = some (.ok (((k + ·) <$> AllocationTable.freeChain first) t)) := by
  induction hn : t.usedCount using Nat.strongRecOn generalizing k first t with
  | ind n ih =>
    show _ = some (Except.ok (EStateM.map (k + ·) (AllocationTable.freeChain first) t))
    rw [loop_eq, freeRound, EStateM.map]
    by_cases hend : first = endOfChain
    · rw [if_pos hend, AllocationTable.freeChain, if_pos hend]
      rfl
    · rw [if_neg hend]
      cases hl : t.link? first with
      | none =>
        have hnext : t.next first = .error (.corruptChain first) := by rw [AllocationTable.next, hl]
        rw [freeChain_of_link?_eq_none hend hl]
        refine bind_of_error ((bind_of_ok rfl).trans ?_)
        rw [next_eq, hnext]
        rfl
      | some b =>
        have hround : freeRound (k, first) t = some (.ok (.ok (.inl (k + 1, b)) (t.set first free))) := by
          rw [freeRound, if_neg hend]
          refine (bind_of_ok rfl).trans ?_
          rw [next_eq, next_eq_ok_iff.mpr hl, lookup_bind]
          dsimp only
          rw [bind_of_ok (setEntry_run (lt_size_of_link? hl) free)]
          rfl
        rw [freeRound, if_neg hend] at hround
        rw [bind_of_ok hround, freeChain_of_link?_eq_some hend hl]
        refine (ih _ (hn ▸ usedCount_free_lt hl) (k + 1) b (t.set first free) rfl).trans ?_
        show some (Except.ok (EStateM.map (k + 1 + ·) (AllocationTable.freeChain b) _)) = _
        rw [EStateM.map]
        cases AllocationTable.freeChain b (t.set first free) with
        | error e t' => rfl
        | ok m t' => simp only [Nat.add_assoc, Nat.add_comm 1]

/-- **Freeing a chain ends on any table.** -/
theorem freeChain_agrees (first : Link) (t : AllocationTable) :
    Agrees (freeChain first) (AllocationTable.freeChain first) t := by
  refine (loop_freeRound 0 first t).trans ?_
  show some (Except.ok (EStateM.map (0 + ·) (AllocationTable.freeChain first) t)) = _
  rw [EStateM.map]
  cases AllocationTable.freeChain first t with
  | error e t' => rfl
  | ok n t' => simp only [Nat.zero_add]

end Table

/-! ## 3. Volumes -/

section Volumes

variable {m : Mounted W H} {slot : Slot}

theorem lookup_agrees (r : Except VolumeError α) (m : Mounted W H) :
    Agrees (lookup r) (Mounted.lookup r) m := by cases r <;> rfl

theorem onDevice_bind (x : VolumeM W α) (f : α → VolumeM W β) :
    (onDevice (x >>= f) : MountedM W H β) = onDevice x >>= fun a => onDevice (f a) := by
  funext m
  cases hx : x m.world with
  | ok a w =>
    rw [Computation.bind_of_ok (onDevice_eq_ok_iff.mpr ⟨w, hx, rfl⟩), onDevice, onDevice,
      Computation.bind_of_ok hx]
  | error e w =>
    rw [Computation.bind_of_error (onDevice_eq_error_iff.mpr ⟨w, hx, rfl⟩), onDevice,
      Computation.bind_of_error hx]

theorem onDevice_map (x : VolumeM W α) (f : α → β) :
    (onDevice (f <$> x) : MountedM W H β) = f <$> onDevice x := by
  rw [map_eq_pure_bind, onDevice_bind, map_eq_pure_bind]
  rfl

theorem onTable_agrees {x : Guarded AllocationTable α} {y : VolumeM AllocationTable α}
    (h : Agrees x y m.volume.table) : Agrees (onTable x) (Mounted.onTable y) m := by
  unfold Agrees at h ⊢
  unfold onTable Mounted.onTable
  rw [h]
  cases y m.volume.table <;> rfl

theorem updateEntry_agrees (slot : Slot) (f : Entry → Entry) (m : Mounted W H) :
    Agrees (updateEntry slot.val f) (Mounted.updateEntry slot f) m := by
  rw [updateEntry_slot]
  rfl

/-- A slot is a place of the directory, so its number is one. -/
theorem Agrees.resolve {v : Volume H} {fd : Nat} {f : OpenFile × Nat → Guarded (Mounted W H) β}
    {k : OpenFile × Slot → MountedM W H β}
    (h : ∀ file slot, v.resolve fd = .ok (file, slot) → Agrees (f (file, slot.val)) (k (file, slot)) m) :
    Agrees (resolve v fd >>= f) (Mounted.lookup (v.resolve fd) >>= k) m := by
  rw [Guarded.resolve]
  cases hr : v.resolve fd with
  | error e => rfl
  | ok p => exact h p.1 p.2 hr

/-- What is cut behind a data block is cut at an entry of the table. -/
theorem cutChain_agrees (slot : Slot) (keep : Nat) (m : Mounted W H) :
    Agrees (cutChain slot.val keep) (Mounted.cutChain slot keep) m := by
  refine (Agrees.lift Mounted.getVolume m).bind fun v t hv => ?_
  cases hv
  refine .check (entryAt_slot _ slot) ?_
  cases keep with
  | zero => exact (updateEntry_agrees slot _ m).bind fun _ t _ => rfl
  | succ k =>
    dsimp only
    rw [nthBlock_eq]
    refine (lookup_agrees _ m).bind fun last t hl => ?_
    obtain ⟨-, rfl⟩ := lookup_eq_ok_iff.mp hl
    by_cases hb : t.volume.table.isDataBlock last
    · obtain ⟨old, he⟩ := exists_entry_of_isDataBlock hb
      rw [if_pos hb, if_pos hb]
      exact onTable_agrees (cutAfter_agrees (cutAfter_of_entry he))
    · rw [if_neg hb, if_neg hb]
      rfl

theorem truncate_agrees (fd size : Nat) (m : Mounted W H) :
    Agrees (truncate fd size) (Mounted.truncate fd size) m := by
  refine (Agrees.lift Mounted.getVolume m).bind fun v t hv => ?_
  cases hv
  refine .resolve fun file slot _ => .check (entryAt_slot _ slot) ?_
  dsimp only
  by_cases hsize : (m.volume.root.get slot).size < size
  · rw [if_pos hsize, if_pos hsize]
    rfl
  · rw [if_neg hsize, if_neg hsize]
    refine (cutChain_agrees slot _ m).bind fun released t _ => ?_
    refine (updateEntry_agrees slot _ t).bind fun _ t _ => ?_
    refine (Agrees.lift (modifyVolume _) t).bind fun _ t _ => ?_
    exact (onTable_agrees (freeChain_agrees released _)).discard

/-- **Looking for blocks that are used twice:** a chain has blocks of the table only. -/
theorem checkEntry_eq (v : Volume H) {owned : Array Bool} (ho : owned.size = v.table.size)
    (e : Entry) : (checkEntry v owned e : Guarded σ (Array Bool)) = lookup (v.checkEntry owned e) ∧
      ∀ owned', v.checkEntry owned e = .ok owned' → owned'.size = v.table.size := by
  have hmark : ∀ acc : Array Bool, acc.size = v.table.size → ∀ b : Link, b.toNat < v.table.size →
      (markOwned acc b : Guarded σ (Array Bool)) = lookup (Volume.markOwned acc b) ∧
        ∀ acc', Volume.markOwned acc b = .ok acc' → acc'.size = v.table.size := by
    intro acc hacc b hb
    have hlt : b.toNat < acc.size := hacc ▸ hb
    have hassign : (assign acc b.toNat true : Guarded σ (Array Bool)) =
        pure (acc.setIfInBounds b.toNat true) := by
      rw [assign, dif_pos hlt, Array.setIfInBounds, dif_pos hlt]
    rw [markOwned, index_of_lt hlt, hassign, Volume.markOwned, Array.getElem?_eq_getElem hlt]
    cases acc[b.toNat] with
    | true =>
      refine ⟨rfl, fun acc' h => ?_⟩
      cases h
    | false =>
      refine ⟨rfl, fun acc' h => ?_⟩
      cases h
      rw [Array.size_setIfInBounds, hacc]
  unfold checkEntry Volume.checkEntry
  rw [chain_eq]
  cases hc : v.table.chain e.firstBlock with
  | error err =>
    refine ⟨rfl, fun owned' h => ?_⟩
    cases h
  | ok blocks =>
    have hblocks := chain_eq_ok_iff.mp hc
    show (if Volume.chainFits blocks.toArray.size e.size then _ else _) = _ ∧ _
    rw [List.size_toArray]
    dsimp only
    split
    · exact each_eq (fun acc => acc.size = v.table.size)
        (fun acc hacc b hb => hmark acc hacc b (hblocks.lt_size hb)) ho
    · refine ⟨rfl, fun owned' h => ?_⟩
      cases h

theorem check_agrees (v : Volume H) (m : Mounted W H) :
    Agrees (check v) (Mounted.lookup v.check) m := by
  have hsize : (Array.replicate v.table.size false).size = v.table.size := Array.size_replicate
  obtain ⟨heach, -⟩ := each_eq (σ := Mounted W H) (fun owned : Array Bool => owned.size = v.table.size)
    (fun owned ho e (_ : e ∈ v.root.files) => checkEntry_eq v ho e) hsize
  rw [check, heach, Volume.check]
  cases v.root.files.foldlM v.checkEntry (Array.replicate v.table.size false) <;> rfl

end Volumes

/-! ## 4. Reading -/

section Data

variable [BlockDevice W H] {m : Mounted W H} {v : Volume H} {slot : Slot}

/-- What is read has the length that was asked for. -/
theorem loadSpans_size (v : Volume H) {pieces : List Span}
    (hp : ∀ s ∈ pieces, s.within + s.length ≤ blockSize) (b : Link) (w : W) :
    Ends (v.loadSpans b pieces) w (fun parts _ => (Bytes.concat parts).size = totalLength pieces)
      fun _ _ => True := by
  induction pieces generalizing b w with
  | nil => exact rfl
  | cons s rest ih =>
    have hs := hp s (List.mem_cons_self ..)
    have hany : Ends (v.loadData b) w (fun _ _ => True) fun _ _ => True :=
      ends_iff.mpr ⟨fun _ _ _ => trivial, fun _ _ _ => trivial⟩
    cases rest with
    | nil =>
      refine Ends.bind (hany.mono (fun blk w' _ => ?_) fun _ _ _ => trivial)
      show (Bytes.concat [blk.slice s.within s.length]).size = _
      rw [Bytes.concat_cons, ByteArray.size_append, Block.size_slice blk hs]
      rfl
    | cons s' rest =>
      refine Ends.bind (hany.mono (fun blk w' _ => ?_) fun _ _ _ => trivial)
      cases v.table.next b with
      | error e => exact trivial
      | ok following =>
        have hrest := ih (fun s hs => hp s (List.mem_cons_of_mem _ hs)) following w'
        refine Ends.bind (hrest.mono (fun parts w'' hparts => ?_) fun _ _ _ => trivial)
        show (Bytes.concat (blk.slice s.within s.length :: parts)).size = _
        rw [Bytes.concat_cons, ByteArray.size_append, Block.size_slice blk hs, hparts]
        rfl

/-- One round of a read, and what comes after it: the piece lies in the block and in the buffer. -/
theorem readRound_agrees {count pos done n : Nat} {buffer : ByteArray} {b : Link}
    {k : Block → VolumeM W (List ByteArray)} (hn : n = headLength pos (count - done))
    (hle : done + n ≤ buffer.size) (hk : ∀ blk t, Agrees
      ((if done + n = count then
          pure (.inr (Bytes.patch buffer done (blk.slice (pos % blockSize) n)))
        else next v.table b >>= fun block => pure (.inl ⟨block, 0, done + n,
          Bytes.patch buffer done (blk.slice (pos % blockSize) n)⟩)) >>= afterRound (readRound v count))
      ((fun parts => Bytes.patch buffer done (Bytes.concat parts)) <$> onDevice (k blk)) t) :
    Agrees (loop (readRound v count) ⟨b, pos % blockSize, done, buffer⟩)
      ((fun parts => Bytes.patch buffer done (Bytes.concat parts)) <$>
        onDevice (v.loadData b >>= k)) m := by
  have hwithin : pos % blockSize + n ≤ blockSize := hn ▸ mod_add_headLength_le pos (count - done)
  have hmin : min (blockSize - pos % blockSize) (count - done) = n := hn.symm
  rw [loop_eq, readRound, bind_bind, onDevice_bind, map_bind]
  refine (Agrees.lift (onDevice (v.loadData b)) m).bind fun blk t _ => ?_
  dsimp only
  rw [hmin, bind_bind]
  refine .check (slice_of_le (by rw [Block.size_bytes]; exact hwithin)) ?_
  rw [bind_bind]
  have hcopy : done + (blk.slice (pos % blockSize) n).size ≤ buffer.size := by
    rw [Block.size_slice blk hwithin]
    exact hle
  exact .check (copyInto_of_le hcopy) (hk blk t)

/-- A piece that is not the last ends where its block ends. -/
theorem add_headLength_mod {pos n count : Nat} (hn : n = headLength pos count) (hlt : n < count) :
    (pos + n) % blockSize = 0 := by
  have hend : pos % blockSize + headLength pos count = blockSize := mod_add_headLength_eq (hn ▸ hlt)
  rw [← hn] at hend
  have hpos := Nat.div_add_mod pos blockSize
  rw [show pos + n = blockSize * (pos / blockSize) + blockSize by omega, Nat.add_mod_right,
    Nat.mul_mod_right]

omit [BlockDevice W H] in
/-- Filling in the rest after a piece is filling in the piece and the rest. -/
theorem map_patch_patch {buffer piece : ByteArray} {done n : Nat} (h : done ≤ buffer.size)
    (hsize : piece.size = n) (x : MountedM W H (List ByteArray)) :
    (fun parts => Bytes.patch (Bytes.patch buffer done piece) (done + n) (Bytes.concat parts)) <$> x =
      (fun parts => Bytes.patch buffer done (Bytes.concat parts)) <$> (piece :: ·) <$> x := by
  rw [Functor.map_map]
  congr 1
  funext parts
  rw [← hsize, Bytes.patch_patch h, Bytes.concat_cons]

/-- **The loop of a read** fills the buffer from `done` on. -/
theorem readLoop_agrees {count pos done : Nat} {buffer : ByteArray} (hlt : done < count)
    (hle : count ≤ buffer.size) (b : Link) :
    Agrees (loop (readRound v count) ⟨b, pos % blockSize, done, buffer⟩)
      ((fun parts => Bytes.patch buffer done (Bytes.concat parts)) <$>
        onDevice (v.loadSpans b (spans pos (count - done)))) m := by
  -- on what is left to be read: every round reads something
  induction hk : count - done using Nat.strongRecOn generalizing pos done buffer b m with
  | ind k ih =>
    subst hk
    obtain ⟨n, hn⟩ : ∃ n, n = headLength pos (count - done) := ⟨_, rfl⟩
    have hpos : 0 < n := hn ▸ headLength_pos pos (by omega)
    have hrange : n ≤ count - done := hn ▸ headLength_le pos (count - done)
    have hwithin : pos % blockSize + n ≤ blockSize := hn ▸ mod_add_headLength_le pos (count - done)
    rw [spans_of_pos (by omega) hn]
    by_cases hlast : done + n = count
    · rw [show count - done - n = 0 by omega, spans_zero]
      refine readRound_agrees hn (by omega) fun blk t => ?_
      rw [if_pos hlast]
      show some (Except.ok (EStateM.Result.ok _ t)) = some (Except.ok (EStateM.Result.ok _ t))
      dsimp only
      rw [Bytes.concat_cons, Bytes.concat_nil, ByteArray.append_empty]
    · obtain ⟨s', rest, hcons⟩ : ∃ s' rest, spans (pos + n) (count - done - n) = s' :: rest :=
        ⟨_, _, spans_of_pos (by omega) rfl⟩
      rw [hcons]
      refine readRound_agrees hn (by omega) fun blk t => ?_
      rw [if_neg hlast, next_eq, bind_bind]
      cases v.table.next b with
      | error e => rfl
      | ok following =>
        have hsize : (blk.slice (pos % blockSize) n).size = n := Block.size_slice blk hwithin
        have hbuffer : (Bytes.patch buffer done (blk.slice (pos % blockSize) n)).size = buffer.size :=
          Bytes.size_patch (by omega)
        have hrest := @ih (count - (done + n)) (by omega) t (pos + n) (done + n)
          (Bytes.patch buffer done (blk.slice (pos % blockSize) n)) (by omega) (by omega) following rfl
        rw [add_headLength_mod hn (by omega), Nat.sub_add_eq, hcons, map_patch_patch (by omega) hsize]
          at hrest
        refine hrest.trans (congrArg (fun x : MountedM W H ByteArray => some (Except.ok (x t))) ?_)
        dsimp only
        rw [← map_eq_pure_bind, onDevice_map]

/-- **A read fills a buffer of any contents,** and gives what it has filled in. -/
theorem read_agrees (fd : Nat) (buffer : ByteArray) :
    Agrees (read fd buffer) (Mounted.read fd buffer.size) m := by
  refine (Agrees.lift Mounted.getVolume m).bind fun v t hv => ?_
  cases hv
  refine .resolve fun file slot _ => .check (entryAt_slot _ slot) ?_
  dsimp only
  obtain ⟨count, hcount⟩ : ∃ count, count =
    min buffer.size ((m.volume.root.get slot).size - file.offset) := ⟨_, rfl⟩
  rw [← hcount]
  by_cases hzero : count = 0
  · rw [if_pos hzero, if_pos hzero]
    rfl
  · rw [if_neg hzero, if_neg hzero, nthBlock_eq]
    refine (lookup_agrees _ m).bind fun first t ht => ?_
    obtain ⟨-, rfl⟩ := lookup_eq_ok_iff.mp ht
    refine (readLoop_agrees (Nat.pos_of_ne_zero hzero) (by omega) first).bind_map fun parts t' hp => ?_
    refine (Agrees.lift (Mounted.moveTo fd _) t').bind fun _ t'' _ => ?_
    obtain ⟨w, hload, -⟩ := onDevice_eq_ok_iff.mp hp
    have hsize : (Bytes.concat parts).size = count := by
      have hends := loadSpans_size t.volume (fun s (hs : s ∈ spans file.offset count) => (mem_spans hs).2)
        first t.world
      rw [(ends_iff.mp hends).1 parts w hload, totalLength_spans]
    have hfilled : (Bytes.patch buffer 0 (Bytes.concat parts)).size = buffer.size :=
      Bytes.size_patch (by omega)
    have hslice : (slice (Bytes.patch buffer 0 (Bytes.concat parts)) 0 count :
        Guarded (Mounted W H) ByteArray) = pure (Bytes.concat parts) := by
      rw [slice_of_le (by omega), Nat.zero_add, ← hsize, Bytes.extract_patch_zero]
    rw [hslice]
    rfl

/-! ## 5. Writing -/

omit [BlockDevice W H] in
/-- Where linking succeeds, it does not crash. -/
theorem linkLast_agrees {chain : Array Link} {new : Link} {m' : Mounted W H}
    (h : Mounted.linkLast slot chain new m = .ok () m') :
    Agrees (linkLast slot.val chain new) (Mounted.linkLast slot chain new) m := by
  unfold linkLast
  unfold Mounted.linkLast at h ⊢
  cases hb : chain.back? with
  | none => exact updateEntry_agrees slot _ m
  | some last =>
    rw [hb] at h
    obtain ⟨t, ht, -⟩ := onTable_eq_ok_iff.mp h
    exact onTable_agrees (extend_agrees ht)

omit [BlockDevice W H] in
/-- Where taking a block off again succeeds, it does not crash. -/
theorem unlinkLast_agrees {chain : Array Link} {m' : Mounted W H}
    (h : Mounted.unlinkLast slot chain m = .ok () m') :
    Agrees (unlinkLast slot.val chain) (Mounted.unlinkLast slot chain) m := by
  unfold unlinkLast
  unfold Mounted.unlinkLast at h ⊢
  cases hb : chain.back? with
  | none => rfl
  | some block =>
    rw [hb] at h
    dsimp only at h ⊢
    cases hl : chain.pop.back? with
    | none =>
      refine (updateEntry_agrees slot _ m).bind fun _ t _ => ?_
      exact (onTable_agrees (freeChain_agrees block _)).discard
    | some last =>
      rw [hl] at h
      dsimp only at h
      obtain ⟨_, t, hcut, -⟩ := bind_eq_ok_iff.mp h
      obtain ⟨old, hold⟩ := discard_eq_ok_iff.mp hcut
      obtain ⟨table, htable, -⟩ := onTable_eq_ok_iff.mp hold
      refine (onTable_agrees (cutAfter_agrees htable)).bind_discard fun _ t _ => ?_
      exact (onTable_agrees (freeChain_agrees block _)).discard

/-- What a piece that was stored leaves: the chain, and a table of the same size. -/
theorem storeSegment_chain {blocks : List Link} (hv : m.volume.Sized)
    (hc : Chain m.volume.table (m.volume.root.get slot).firstBlock blocks) (s : Segment) :
    Ends (storeSegment slot blocks.toArray s) m
      (fun chain m' => m'.volume.Sized ∧ ∃ blocks', chain = blocks'.toArray ∧
        Chain m'.volume.table (m'.volume.root.get slot).firstBlock blocks')
      (fun _ _ => True) := by
  refine Mirrors.ends (p := unobserved) (storeSegment_mirrors slot _ s)
    (s := ⟨m.volume, ⟨m.world, []⟩⟩) (q := fun _ => ())
    (P := fun chain m' _ => m'.volume.Sized ∧ ∃ blocks', chain = blocks'.toArray ∧
      Chain m'.volume.table (m'.volume.root.get slot).firstBlock blocks')
    (Q := fun _ _ _ => True) ?_
  refine (storeSegment_footprint (m := ⟨m.volume, ⟨m.world, []⟩⟩) (.noted fun _ => True) hv
    (fun _ _ => ⟨trivial, trivial⟩) hc s).mono ?_ fun _ _ _ => trivial
  intro chain m' hok
  obtain ⟨hchain, hfoot⟩ := hok
  exact ⟨hfoot.sized hv, hchain⟩

omit [BlockDevice W H] in
/-- What is handed out was free. -/
theorem eq_of_allocate {b : Link} {t : Mounted W H} (hs : m.volume.table.size ≤ 65535)
    (h : Mounted.onTable AllocationTable.allocate m = .ok b t) : FreeBlock m.volume.table b ∧
      t = { m with volume := { m.volume with table := m.volume.table.set b endOfChain } } := by
  obtain ⟨table, ha, rfl⟩ := onTable_eq_ok_iff.mp h
  rcases allocate_cases hs with ⟨b', hlow, ha'⟩ | ⟨-, ha'⟩
  · cases ha.symm.trans ha'
    exact ⟨freeBlock_of_lowestFree? hs hlow, rfl⟩
  · cases ha.symm.trans ha'

section Round

variable {blocks : List Link} {offset k n : Nat} {data : ByteArray}
  (hk : k < data.size) (hn : n = headLength (offset + k) (data.size - k))
include hk hn

omit [BlockDevice W H] in
theorem size_piece : (data.extract k (k + n)).size = n := by
  have hrange : n ≤ data.size - k := hn ▸ headLength_le _ _
  rw [ByteArray.size_extract]
  omega

omit [BlockDevice W H] in
/-- The piece of a round lies in the data. -/
theorem slice_piece : (slice data k n : Guarded σ ByteArray) = pure (data.extract k (k + n)) := by
  have hrange : n ≤ data.size - k := hn ▸ headLength_le _ _
  exact slice_of_le (by omega)

omit [BlockDevice W H] in
/-- The piece of a round lies in its block. -/
theorem layOver_piece (b : Block) :
    (layOver b ((offset + k) % blockSize) (data.extract k (k + n)) : Guarded σ Block) =
      pure (b.overlay ((offset + k) % blockSize) (data.extract k (k + n))) := by
  refine layOver_of_le ?_
  rw [size_piece hk hn, hn]
  exact mod_add_headLength_le _ _

/-- **A round behind the chain:** a free block is linked behind the last. If it cannot be stored it is
    taken off again, which does not fail. -/
theorem storeRound_agrees_of_le (hv : m.volume.Sized)
    (hc : Chain m.volume.table (m.volume.root.get slot).firstBlock blocks) (staging : Block)
    (hfresh : blocks.toArray.size ≤ (offset + k) / blockSize) :
    Agrees ((fun r => (r.chain, r.written)) <$>
        storeRound slot.val offset data ⟨blocks.toArray, staging, k⟩)
      ((fun chain => (chain, k + n)) <$> append slot blocks.toArray
        ⟨(offset + k) / blockSize, (offset + k) % blockSize, data.extract k (k + n)⟩) m := by
  unfold storeRound append
  dsimp only
  rw [← hn]
  simp only [if_pos hfresh, map_seq, map_bind]
  refine (onTable_agrees (allocate_agrees hv.table_size_le)).bind fun b t ht => ?_
  obtain ⟨hb, rfl⟩ := eq_of_allocate hv.table_size_le ht
  have hlink := linkLast_run hc hb
  refine (linkLast_agrees hlink).bind fun _ t ht => ?_
  obtain rfl : _ = t := (EStateM.Result.ok.inj (hlink.symm.trans ht)).2
  refine .check (slice_piece hk hn) (.check (layOver_piece hk hn Block.zero) ?_)
  refine ((Agrees.lift _ _).undoing fun e t he => ?_).bind fun _ t _ => rfl
  -- the chain is as long as the array that was grown, so its last block is the new one
  obtain ⟨u, w⟩ := t
  obtain rfl : u = m.volume.grown slot blocks b := (ends_iff.mp (storeData_volume b _ _)).2 e _ he
  have hundo := unlinkLast_run (m := { m with world := w }) hc hb
  rw [← show blocks.toArray.push b = (blocks ++ [b]).toArray by simp] at hundo
  exact ⟨unlinkLast_agrees hundo, _, hundo⟩

/-- **A round within the chain** goes to one of its blocks. -/
theorem storeRound_agrees_of_lt (staging : Block)
    (hin : (offset + k) / blockSize < blocks.toArray.size) :
    Agrees ((fun r => (r.chain, r.written)) <$>
        storeRound slot.val offset data ⟨blocks.toArray, staging, k⟩)
      ((fun chain => (chain, k + n)) <$> (do
        overwrite blocks.toArray[(offset + k) / blockSize]
          ⟨(offset + k) / blockSize, (offset + k) % blockSize, data.extract k (k + n)⟩
        return blocks.toArray : MountedM W H (Array Link))) m := by
  have hsize := size_piece hk hn
  unfold storeRound
  dsimp only
  rw [← hn]
  simp only [if_neg (Nat.not_le_of_lt hin), map_seq, map_bind]
  refine .check (index_of_lt hin) ?_
  rw [overwrite, hsize]
  by_cases hfull : n < blockSize
  · simp only [if_pos hfull, map_seq, bind_assoc]
    refine (Agrees.lift getVolume m).bind fun v t hv => ?_
    cases hv
    refine (Agrees.lift _ m).bind fun old t _ => ?_
    refine .check (slice_piece hk hn) (.check (layOver_piece hk hn old) ?_)
    exact (Agrees.lift _ t).bind fun _ t _ => rfl
  · -- the piece covers the whole block, so what is left from an earlier round does not show
    have hwithin : (offset + k) % blockSize + n ≤ blockSize := hn ▸ mod_add_headLength_le _ _
    have hlay := layOver_piece hk hn (σ := Mounted W H) staging
    have hover : staging.overlay 0 (data.extract k (k + n)) =
        Block.zero.overlay 0 (data.extract k (k + n)) :=
      overlay_of_size_eq staging Block.zero (by omega)
    rw [show (offset + k) % blockSize = 0 by omega] at hlay ⊢
    simp only [if_neg hfull, map_seq]
    refine .look rfl (.check rfl (.check (slice_piece hk hn) (.check hlay ?_)))
    rw [hover]
    exact (Agrees.lift _ m).bind fun _ t _ => rfl

/-- **One round of a write** does what storing its piece does. -/
theorem storeRound_agrees (hv : m.volume.Sized)
    (hc : Chain m.volume.table (m.volume.root.get slot).firstBlock blocks) (staging : Block) :
    Agrees ((fun r => (r.chain, r.written)) <$>
        storeRound slot.val offset data ⟨blocks.toArray, staging, k⟩)
      ((fun chain => (chain, k + n)) <$> storeSegment slot blocks.toArray
        ⟨(offset + k) / blockSize, (offset + k) % blockSize, data.extract k (k + n)⟩) m := by
  unfold storeSegment
  dsimp only
  by_cases hfresh : blocks.toArray.size ≤ (offset + k) / blockSize
  · rw [Array.getElem?_eq_none hfresh]
    exact storeRound_agrees_of_le hk hn hv hc staging hfresh
  · have hin := Nat.lt_of_not_le hfresh
    rw [Array.getElem?_eq_getElem hin]
    exact storeRound_agrees_of_lt hk hn staging hin

end Round

/-- **The loop of a write** ends when all is written, or where a round fails. -/
theorem storeLoop_agrees {blocks : List Link} {offset k : Nat} {data : ByteArray}
    (hv : m.volume.Sized) (hc : Chain m.volume.table (m.volume.root.get slot).firstBlock blocks)
    (staging : Block) :
    Agrees (loop (storeNext slot.val offset data) ⟨blocks.toArray, staging, k⟩)
      (storeSegments slot blocks.toArray (segmentsFrom (offset + k) data k) k) m := by
  -- on what is left to be written; each round hands on a chain that the table still has
  induction hleft : data.size - k using Nat.strongRecOn generalizing m blocks k staging with
  | ind left ih =>
    rw [loop_eq]
    by_cases hk : k < data.size
    · obtain ⟨n, hn⟩ : ∃ n, n = headLength (offset + k) (data.size - k) := ⟨_, rfl⟩
      have hpos : 0 < n := hn ▸ headLength_pos _ (by omega)
      have hrange : n ≤ data.size - k := hn ▸ headLength_le _ _
      have hround := storeRound_agrees hk hn hv hc staging
      have hkeep := storeSegment_chain hv hc
        ⟨(offset + k) / blockSize, (offset + k) % blockSize, data.extract k (k + n)⟩
      have hsize := size_piece hk hn
      rw [segmentsFrom_of_lt hk hn, storeNext, if_pos hk]
      unfold Ends at hkeep
      unfold Agrees storeSegments
      cases hx : storeSegment slot blocks.toArray
          ⟨(offset + k) / blockSize, (offset + k) % blockSize, data.extract k (k + n)⟩ m with
      | error e t =>
        have hrun := hround.error_of_map (map_eq_error_iff.mpr hx)
        dsimp only
        rw [bind_bind, bind_of_ok (attempt_of_error hrun)]
        rfl
      | ok chain t =>
        rw [hx] at hkeep
        obtain ⟨hv', blocks', rfl, hc'⟩ := hkeep
        obtain ⟨⟨chain, staging', written⟩, hrun, heq⟩ :=
          hround.ok_of_map (map_eq_ok_iff.mpr ⟨_, hx, rfl⟩)
        cases heq
        dsimp only
        rw [bind_bind, bind_of_ok (attempt_of_ok hrun), hsize, Nat.add_assoc]
        exact ih (data.size - (k + n)) (by omega) hv' hc' staging' rfl
    · rw [storeNext, if_neg hk, segmentsFrom, dif_pos (Nat.le_of_not_lt hk)]
      rfl

theorem write_agrees (hv : m.volume.Sized) (fd : Nat) (data : ByteArray) :
    Agrees (write fd data) (Mounted.write fd data) m := by
  refine (Agrees.lift Mounted.getVolume m).bind fun v t ht => ?_
  cases ht
  refine .resolve fun file slot _ => ?_
  dsimp only
  by_cases hempty : data.size = 0
  · rw [if_pos hempty, if_pos hempty]
    rfl
  · rw [if_neg hempty, if_neg hempty]
    refine .check (entryAt_slot _ slot) ?_
    rw [chain_eq]
    cases hc : m.volume.table.chain (m.volume.root.get slot).firstBlock with
    | error e => rfl
    | ok blocks =>
      refine (storeLoop_agrees hv (chain_eq_ok_iff.mp hc) Block.zero).bind fun progress t _ => ?_
      obtain ⟨written, stopped⟩ := progress
      dsimp only
      by_cases hw : 0 < written
      · simp only [if_pos hw]
        refine (updateEntry_agrees slot _ t).bind fun _ t _ => ?_
        refine (Agrees.lift (Mounted.moveTo fd _) t).bind fun _ t _ => ?_
        cases stopped with
        | none => rfl
        | some e => cases e <;> rfl
      · simp only [if_neg hw]
        cases stopped with
        | none => rfl
        | some e => cases e <;> rfl

end Data

section Operations

variable {fs : FileSystem W H}

theorem onVolume_agrees {x : Guarded (Mounted W H) α} {y : MountedM W H α}
    (h : ∀ v, fs.mounted = some v → Agrees x y ⟨v, fs.world⟩) :
    Agrees (onVolume x) (FileSystem.onVolume y) fs := by
  obtain ⟨_ | v, w⟩ := fs
  · rfl
  · have hv := h v rfl
    unfold Agrees at hv ⊢
    unfold onVolume FileSystem.onVolume
    dsimp only
    rw [hv]
    cases y ⟨v, w⟩ <;> rfl

theorem create_agrees (name : String) (fs : FileSystem W H) :
    Agrees (onVolume (create name)) (FileSystem.create name) fs := by
  refine onVolume_agrees fun v _ => (Agrees.lift Mounted.getVolume _).bind fun v t _ => ?_
  refine (lookup_agrees _ t).bind fun p t _ => ?_
  exact .check (entryAt_slot _ p.1) rfl

theorem delete_agrees (name : String) (fs : FileSystem W H) :
    Agrees (onVolume (delete name)) (FileSystem.delete name) fs := by
  refine onVolume_agrees fun v _ => (Agrees.lift Mounted.getVolume _).bind fun v t hv => ?_
  cases hv
  refine (lookup_agrees _ _).bind fun _ t ht => ?_
  obtain ⟨-, rfl⟩ := lookup_eq_ok_iff.mp ht
  cases v.root.find? name with
  | none => rfl
  | some slot =>
    dsimp only
    by_cases ho : v.files.isOpen name
    · rw [if_pos ho, if_pos ho]
      rfl
    · rw [if_neg ho, if_neg ho]
      have hclear : Agrees (updateEntry slot.val fun _ => Entry.free)
          (modifyVolume fun v' => { v' with root := (v.root.remove slot).2 }) ⟨v, fs.world⟩ := by
        rw [updateEntry_slot]
        rfl
      refine .check (entryAt_slot _ slot) (hclear.bind fun _ t _ => ?_)
      exact (onTable_agrees (freeChain_agrees _ _)).discard

theorem stat_agrees (fd : Nat) (fs : FileSystem W H) :
    Agrees (onVolume (stat fd)) (FileSystem.stat fd) fs := by
  refine onVolume_agrees fun v _ => (Agrees.lift Mounted.getVolume _).bind fun v t hv => ?_
  dsimp only
  rw [resolve]
  cases v.resolve fd with
  | error e => rfl
  | ok p => exact .check (entryAt_slot _ p.2) rfl

theorem seek_agrees (fd offset : Nat) (fs : FileSystem W H) :
    Agrees (onVolume (seek fd offset)) (FileSystem.seek fd offset) fs := by
  refine onVolume_agrees fun v _ => (Agrees.lift Mounted.getVolume _).bind fun v t hv => ?_
  cases hv
  refine .resolve fun file slot _ => .check (entryAt_slot _ slot) ?_
  dsimp only
  by_cases hsize : (v.root.get slot).size < offset
  · rw [if_pos hsize, if_pos hsize]
    rfl
  · rw [if_neg hsize, if_neg hsize]
    rfl

end Operations

section Calls

variable [BlockDevice W H] {fs : FileSystem W H}

/-- **No call on the files goes wrong,** whatever the chains of the volume are. -/
theorem file_agrees (call : FileCall) (h : fs.Mounting Volume.Tidy) :
    Agrees call.guarded call.run fs := by
  cases call with
  | create name => exact (create_agrees name fs).map _
  | delete name => exact (delete_agrees name fs).map _
  | stat fd => exact (stat_agrees fd fs).map _
  | seek fd offset => exact (seek_agrees fd offset fs).map _
  | read fd count =>
    refine (onVolume_agrees fun v _ => ?_).map _
    have hread := read_agrees (m := ⟨v, fs.world⟩) fd (Bytes.zeros count)
    rwa [Bytes.size_zeros] at hread
  | write fd data => exact (onVolume_agrees fun v hv => write_agrees (h v hv).sized fd data).map _
  | truncate fd size => exact (onVolume_agrees fun v _ => truncate_agrees fd size _).map _
  | _ => rfl

/-- No operation goes wrong. -/
theorem operation_agrees (op : Operation) (h : fs.Mounting Volume.Tidy) :
    Agrees op.guarded op.run fs := by
  cases op with
  | file call => exact (file_agrees call h).map _
  | check =>
    refine onVolume_agrees fun v _ => (Agrees.lift Mounted.getVolume _).bind fun v' m hv => ?_
    exact check_agrees v' m
  | _ => rfl

end Calls

end Guarded

namespace FileSystem

variable [BlockDevice W H]

/-- **Nothing goes wrong on any volume that can be mounted,** whatever its table and its directory hold,
    whatever is done with it and whatever the device answers: with nothing taken for granted, the calls
    and the operations do what they do, and what they report of a device that fails is that failure. -/
theorem guarded_eq_run {d : H} {fs fs₀ fs₁ : FileSystem W H} (hm : mount d fs = .ok () fs₀)
    (hr : Driven fs₀ fs₁) :
    (∀ call : FileCall, call.guarded fs₁ = some (.ok (call.run fs₁))) ∧
    (∀ op : Operation, op.guarded fs₁ = some (.ok (op.run fs₁))) ∧
    ∀ op : Operation, ∀ ev ∈ op.events fs₁, ∀ c, ev.failure = some c →
      ∃ fs₂, op.run fs₁ = .error (op.reported ev.call c) fs₂ := by
  have ht := hr.tidy_of_mount hm
  refine ⟨fun call => Guarded.file_agrees call ht, fun op => Guarded.operation_agrees op ht,
    fun op ev hev c hc => ?_⟩
  rcases op.run_cases ht with ⟨-, hnone⟩ | ⟨v, -, htrace⟩
  · rw [hnone] at hev
    cases hev
  · cases hrun : op.run fs₁ with
    | ok _ fs₂ => exact nomatch ((ends_iff.mp htrace).1 _ fs₂ hrun).reported ev hev c hc
    | error e fs₂ =>
      obtain rfl := Option.some.inj (((ends_iff.mp htrace).2 e fs₂ hrun).reported ev hev c hc)
      exact ⟨fs₂, rfl⟩

/-- In memory, where the first block of the only file leads to itself and block 5 can be neither read
    nor written: whatever is done goes well, and a check comes to an end and reports the loop. -/
theorem guarded_eq_run_looped : ∃ fs fs₁,
    mount () (ofWorld (Memory.holding 16 (Volume.lone looped (Entry.twentyBlocks 1)))) = .ok () fs ∧
    Driven fs fs₁ ∧ fs₁.isMounted = true ∧ fs₁.world.faults.badBlocks = [5] ∧
    (∀ call : FileCall, call.guarded fs₁ = some (.ok (call.run fs₁))) ∧
    Operation.check.guarded fs₁ = some (.ok (.error (.corruptChain 1) fs₁)) := by
  obtain ⟨fs, files, w, hm, hr⟩ := exists_opened_looped
  have hfaulty := (hr.withFaults { badBlocks := [5] }).driven
  obtain ⟨hfile, hop, -⟩ := guarded_eq_run hm hfaulty
  exact ⟨fs, _, hm, hfaulty, rfl, rfl, hfile, (hop .check).trans rfl⟩

end FileSystem

end FlatVolume
