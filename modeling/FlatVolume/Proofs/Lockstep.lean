import FlatVolume.Proofs.Plain

/-!
# Two runs in lockstep

Two devices of one size may hold different blocks. What they have in common is which calls fail. This
file fixes

* `Lockstep R A x y` -- from states in `R`, `x` and `y` end alike, with answers in `A`, in states of
  `R` again;
* `FailsBy fails d past w` -- the calls `past` were made to `d`, and whether the next one fails is for
  `fails` to say;
* `Pairing` -- two such devices of one size with one schedule. Whatever is called on both ends alike
  (`Pairing.lockstep_of_scheduled`).

A device in memory fails on schedule, whatever faults are set on it (`Memory.failsBy`).
-/

namespace FlatVolume

open AllocationTable FlatVolume.Computation Mounted
open FileSystem (ofMounted ofWorld)
open LawfulBlockDevice (storage)

/-! ## 1. Two computations, one course -/

namespace Computation

variable {ε ε' σ τ α β γ δ : Type} {R R' : σ → τ → Prop} {A A' : α → β → Prop}

/-- **Two computations have ended alike:** both with an answer, and the answers are in `A`, or both
    for the same reason. The states they ended in are in `R`. -/
inductive Matched (R : σ → τ → Prop) (A : α → β → Prop) :
    EStateM.Result ε σ α → EStateM.Result ε τ β → Prop where
  | ok {a : α} {b : β} {s : σ} {t : τ} (ha : A a b) (hs : R s t) : Matched R A (.ok a s) (.ok b t)
  | error (e : ε) {s : σ} {t : τ} (hs : R s t) : Matched R A (.error e s) (.error e t)

/-- **From all states in `R`, `x` and `y` end alike.** -/
def Lockstep (R : σ → τ → Prop) (A : α → β → Prop) (x : EStateM ε σ α) (y : EStateM ε τ β) : Prop :=
  ∀ s t, R s t → Matched R A (x s) (y t)

variable {x : EStateM ε σ α} {y : EStateM ε τ β}

/-- What is known of each end by itself is known of matching ends. -/
theorem Matched.and_ends {s : σ} {t : τ} {P : α → σ → Prop} {Q : ε → σ → Prop} {P' : β → τ → Prop}
    {Q' : ε → τ → Prop} (h : Matched R A (x s) (y t)) (hx : Ends x s P Q) (hy : Ends y t P' Q')
    (ho : ∀ a b u v, A a b → R u v → P a u → P' b v → A' a b ∧ R' u v)
    (he : ∀ e u v, R u v → Q e u → Q' e v → R' u v) : Matched R' A' (x s) (y t) := by
  unfold Ends at hx hy
  generalize x s = r at h hx
  generalize y t = r' at h hy
  cases h with
  | ok ha hs =>
    obtain ⟨ha', hs'⟩ := ho _ _ _ _ ha hs hx hy
    exact .ok ha' hs'
  | error e hs => exact .error e (he e _ _ hs hx hy)

namespace Lockstep

theorem mono (h : Lockstep R A x y) (hA : ∀ a b, A a b → A' a b) : Lockstep R A' x y := by
  intro s t hst
  have hm := h s t hst
  generalize x s = r at hm
  generalize y t = r' at hm
  cases hm with
  | ok ha hs => exact .ok (hA _ _ ha) hs
  | error e hs => exact .error e hs

theorem pure {a : α} {b : β} (h : A a b) :
    Lockstep R A (Pure.pure a : EStateM ε σ α) (Pure.pure b : EStateM ε τ β) :=
  fun _ _ hst => .ok h hst

theorem throw (e : ε) : Lockstep R A (MonadExcept.throw e : EStateM ε σ α)
    (MonadExcept.throw e : EStateM ε τ β) :=
  fun _ _ hst => .error e hst

theorem bind {B : γ → δ → Prop} {f : α → EStateM ε σ γ} {g : β → EStateM ε τ δ}
    (h : Lockstep R A x y) (hf : ∀ a b, A a b → Lockstep R B (f a) (g b)) :
    Lockstep R B (x >>= f) (y >>= g) := by
  intro s t hst
  have hm := h s t hst
  generalize hx : x s = r at hm
  generalize hy : y t = r' at hm
  cases hm with
  | ok ha hs =>
    rw [bind_of_ok hx, bind_of_ok hy]
    exact hf _ _ ha _ _ hs
  | error e hs =>
    rw [bind_of_error hx, bind_of_error hy]
    exact .error e hs

/-- Steps with the same answer go on with that answer. -/
theorem bind_eq {B : γ → δ → Prop} {y : EStateM ε τ α} {f : α → EStateM ε σ γ}
    {g : α → EStateM ε τ δ} (h : Lockstep R (· = ·) x y) (hf : ∀ a, Lockstep R B (f a) (g a)) :
    Lockstep R B (x >>= f) (y >>= g) :=
  h.bind fun a _ hab => hab ▸ hf a

/-- Computations that begin by looking at the state. -/
theorem get_bind {f : σ → EStateM ε σ α} {g : τ → EStateM ε τ β}
    (h : ∀ s t, R s t → Lockstep R A (f s) (g t)) : Lockstep R A (get >>= f) (get >>= g) :=
  fun s t hst => h s t hst s t hst

theorem map {B : γ → δ → Prop} {f : α → γ} {g : β → δ} (h : Lockstep R A x y)
    (hB : ∀ a b, A a b → B (f a) (g b)) : Lockstep R B (f <$> x) (g <$> y) := by
  intro s t hst
  have hm := h s t hst
  show Matched R B (EStateM.map f x s) (EStateM.map g y t)
  unfold EStateM.map
  generalize x s = r at hm ⊢
  generalize y t = r' at hm ⊢
  cases hm with
  | ok ha hs => exact .ok (hB _ _ ha) hs
  | error e hs => exact .error e hs

theorem map_eq {y : EStateM ε τ α} (h : Lockstep R (· = ·) x y) (f : α → γ) :
    Lockstep R (· = ·) (f <$> x) (f <$> y) :=
  h.map fun _ _ hab => congrArg f hab

theorem discard (h : Lockstep R A x y) :
    Lockstep R (· = ·) (Functor.discard x) (Functor.discard y) :=
  h.map fun _ _ _ => rfl

theorem adaptExcept (h : Lockstep R A x y) (f : ε → ε') :
    Lockstep R A (x.adaptExcept f) (y.adaptExcept f) := by
  intro s t hst
  have hm := h s t hst
  unfold EStateM.adaptExcept
  generalize x s = r at hm ⊢
  generalize y t = r' at hm ⊢
  cases hm with
  | ok ha hs => exact .ok ha hs
  | error e hs => exact .error (f e) hs

theorem undoing {u : EStateM ε σ Unit} {v : EStateM ε τ Unit} (h : Lockstep R A x y)
    (hu : Lockstep R (· = ·) u v) :
    Lockstep R A (Computation.undoing x u) (Computation.undoing y v) := by
  intro s t hst
  have hm := h s t hst
  unfold Computation.undoing
  generalize x s = r at hm ⊢
  generalize y t = r' at hm ⊢
  cases hm with
  | ok ha hs => exact .ok ha hs
  | error e hs =>
    have hm' := hu _ _ hs
    dsimp only
    generalize u _ = q at hm' ⊢
    generalize v _ = q' at hm' ⊢
    cases hm' with
    | ok _ hs' => exact .error e hs'
    | error e' hs' => exact .error e' hs'

theorem ite {c : Prop} [Decidable c] {x' : EStateM ε σ α} {y' : EStateM ε τ β}
    (h : Lockstep R A x y) (h' : Lockstep R A x' y') :
    Lockstep R A (if c then x else x') (if c then y else y') := by
  split
  · exact h
  · exact h'

/-- **Calls in lockstep answer alike,** however long the list. -/
theorem answers_eq {run : γ → EStateM ε σ α} {run' : γ → EStateM ε τ α}
    (h : ∀ c, Lockstep R (· = ·) (run c) (run' c)) (calls : List γ) {s : σ} {t : τ} (hst : R s t) :
    answers run calls s = answers run' calls t := by
  induction calls generalizing s t with
  | nil => rfl
  | cons c calls ih =>
    have hm := h c s t hst
    unfold answers
    generalize run c s = r at hm ⊢
    generalize run' c t = r' at hm ⊢
    cases hm with
    | ok ha hs =>
      subst ha
      exact congrArg (_ :: ·) (ih hs)
    | error e hs => exact congrArg (_ :: ·) (ih hs)

end Lockstep

end Computation

/-! ## 2. Devices that fail on schedule -/

section Schedule

variable {W H : Type} {α : Type}

/-- **A call whose outcome is laid down:** it fails with `f`, or it succeeds where that is `none`, and
    leads to a world of `P` in both cases. -/
def Scheduled (f : Option DeviceError) (P : W → Prop) (act : EStateM DeviceError W α) (w : W) :
    Prop :=
  Ends act w (fun _ w' => f = none ∧ P w') fun e w' => f = some e ∧ P w'

theorem Scheduled.and {f : Option DeviceError} {P P' Q : W → Prop} {act : EStateM DeviceError W α}
    {w : W} (h : Scheduled f P act w) (h' : Ends act w (fun _ w' => P' w') fun _ w' => P' w')
    (hq : ∀ w', P w' → P' w' → Q w') : Scheduled f Q act w :=
  (Ends.and h h').mono (fun _ w' ⟨⟨hf, hp⟩, hp'⟩ => ⟨hf, hq w' hp hp'⟩)
    fun _ w' ⟨⟨hf, hp⟩, hp'⟩ => ⟨hf, hq w' hp hp'⟩

variable [BlockDevice W H]

/-- In the worlds of `after past` the device `d` has answered the calls `past`, and `fails past` says
    whether the next one fails, and how. Reads and writes have to be in range. -/
structure Paced (fails : List Call → Call → Option DeviceError) (d : H)
    (after : List Call → W → Prop) : Prop where
  read : ∀ {past : List Call} {w : W} {i : Nat}, after past w → i < BlockDevice.blockCount d w →
    Scheduled (fails past (.read i)) (after (.read i :: past)) (BlockDevice.readBlock d i) w
  write : ∀ {past : List Call} {w : W} {i : Nat} (b : Block), after past w →
    i < BlockDevice.blockCount d w →
    Scheduled (fails past (.write i)) (after (.write i :: past)) (BlockDevice.writeBlock d i b) w
  sync : ∀ {past : List Call} {w : W}, after past w →
    Scheduled (fails past .sync) (after (.sync :: past)) (BlockDevice.sync d) w
  close : ∀ {past : List Call} {w : W}, after past w →
    Scheduled (fails past .close) (after (.close :: past)) (BlockDevice.close d) w

/-- **The calls to `d` fail as `fails` says:** in world `w` it has answered the calls `past`, the latest
    first. Whether the next one fails is decided by those -- by how many there were, say -- and by what
    it asks for, never by what a block holds. -/
def FailsBy (fails : List Call → Call → Option DeviceError) (d : H) (past : List Call) (w : W) :
    Prop :=
  ∃ after : List Call → W → Prop, Paced fails d after ∧ after past w

theorem Scheduled.failsBy {fails : List Call → Call → Option DeviceError} {d : H} {past : List Call}
    {w : W} {f : Option DeviceError} {act : EStateM DeviceError W α} {after : List Call → W → Prop}
    (hp : Paced fails d after) (h : Scheduled f (after past) act w) :
    Scheduled f (FailsBy fails d past) act w :=
  Ends.mono h (fun _ _ ⟨hf, hw⟩ => ⟨hf, after, hp, hw⟩) fun _ _ ⟨hf, hw⟩ => ⟨hf, after, hp, hw⟩

variable [LawfulBlockDevice W H]

/-- A device of `count` blocks that loses nothing and fails as `fails` says. -/
structure Running (fails : List Call → Call → Option DeviceError) (d : H) (count : Nat)
    (past : List Call) (w : W) : Prop where
  failsBy : FailsBy fails d past w
  whole : (storage d w).whole
  blockCount_eq : (storage d w).blockCount = count

variable {fails : List Call → Call → Option DeviceError} {d : H} {count : Nat} {past : List Call}
  {w : W}

/-- A call that keeps the shape of the storage leaves the device as it has to be. -/
theorem Running.next {f : Option DeviceError} {act : EStateM DeviceError W α} {c : Call}
    (h : Running fails d count past w) (hs : Scheduled f (FailsBy fails d (c :: past)) act w)
    (hshape : Ends act w (fun _ w' => SameShape (storage d w) (storage d w'))
      fun _ w' => SameShape (storage d w) (storage d w')) :
    Scheduled f (Running fails d count (c :: past)) act w :=
  hs.and hshape fun _ hf hsh =>
    ⟨hf, hsh.whole_eq.trans h.whole, hsh.blockCount_eq.trans h.blockCount_eq⟩

theorem Running.read (h : Running fails d count past w) {i : Nat} (hi : i < count) :
    Scheduled (fails past (.read i)) (Running fails d count (.read i :: past))
      (BlockDevice.readBlock d i) w := by
  obtain ⟨after, hp, hw⟩ := h.failsBy
  rw [← h.blockCount_eq, LawfulBlockDevice.blockCount_eq] at hi
  refine h.next (.failsBy hp (hp.read hw hi)) (ends_iff.mpr ⟨fun b w' hr => ?_, fun e w' hr => ?_⟩)
  · rw [(LawfulBlockDevice.read_ok hr).2.2]
    exact .refl _
  · rw [LawfulBlockDevice.read_error hr]
    exact .refl _

theorem Running.write (h : Running fails d count past w) {i : Nat} (hi : i < count) (b : Block) :
    Scheduled (fails past (.write i)) (Running fails d count (.write i :: past))
      (BlockDevice.writeBlock d i b) w := by
  obtain ⟨after, hp, hw⟩ := h.failsBy
  rw [← h.blockCount_eq, LawfulBlockDevice.blockCount_eq] at hi
  refine h.next (.failsBy hp (hp.write b hw hi))
    (ends_iff.mpr ⟨fun _ w' hr => ?_, fun e w' hr => ?_⟩)
  · rw [(LawfulBlockDevice.write_ok hr).2]
    exact (SameShape.refl _).set _ _
  · rw [LawfulBlockDevice.write_error hr]
    exact .refl _

theorem Running.sync (h : Running fails d count past w) :
    Scheduled (fails past .sync) (Running fails d count (.sync :: past)) (BlockDevice.sync d) w := by
  obtain ⟨after, hp, hw⟩ := h.failsBy
  refine h.next (.failsBy hp (hp.sync hw)) (ends_iff.mpr ⟨fun _ w' hr => ?_, fun e w' hr => ?_⟩)
  · rw [LawfulBlockDevice.sync_ok h.whole hr]
    exact .refl _
  · rw [LawfulBlockDevice.sync_error h.whole hr]
    exact .refl _

theorem Running.close (h : Running fails d count past w) :
    Scheduled (fails past .close) (Running fails d count (.close :: past)) (BlockDevice.close d) w := by
  obtain ⟨after, hp, hw⟩ := h.failsBy
  refine h.next (.failsBy hp (hp.close hw)) (ends_iff.mpr ⟨fun _ w' hr => ?_, fun e w' hr => ?_⟩)
  · rw [LawfulBlockDevice.close_ok hr]
    exact .refl _
  · rw [LawfulBlockDevice.close_error hr]
    exact .refl _

end Schedule

/-! ## 3. Two devices, one schedule -/

/-- Two devices of one size and the schedule by which calls to them fail. -/
structure Pairing (H₁ H₂ : Type) where
  left : H₁
  right : H₂
  blockCount : Nat
  fails : List Call → Call → Option DeviceError

variable {W₁ H₁ W₂ H₂ α β : Type} [BlockDevice W₁ H₁] [LawfulBlockDevice W₁ H₁] [BlockDevice W₂ H₂]
  [LawfulBlockDevice W₂ H₂]

namespace Pairing

/-- **Both devices have answered the same calls.** -/
def Abreast (p : Pairing H₁ H₂) (w₁ : W₁) (w₂ : W₂) : Prop :=
  ∃ past, Running p.fails p.left p.blockCount past w₁ ∧
    Running p.fails p.right p.blockCount past w₂

variable (p : Pairing H₁ H₂)

/-- **Calls with one schedule end alike.** -/
theorem lockstep_of_scheduled {x : EStateM DeviceError W₁ α} {y : EStateM DeviceError W₂ β}
    {c : Call}
    (hx : ∀ past w, Running p.fails p.left p.blockCount past w →
      Scheduled (p.fails past c) (Running p.fails p.left p.blockCount (c :: past)) x w)
    (hy : ∀ past w, Running p.fails p.right p.blockCount past w →
      Scheduled (p.fails past c) (Running p.fails p.right p.blockCount (c :: past)) y w) :
    Lockstep p.Abreast (fun _ _ => True) x y := by
  intro w₁ w₂ hw
  obtain ⟨past, h₁, h₂⟩ := hw
  have hx := hx past w₁ h₁
  have hy := hy past w₂ h₂
  unfold Scheduled Ends at hx hy
  cases hx₁ : x w₁ with
  | ok a u =>
    rw [hx₁] at hx
    obtain ⟨hf, hu⟩ := hx
    cases hy₁ : y w₂ with
    | ok b v =>
      rw [hy₁] at hy
      exact .ok trivial ⟨c :: past, hu, hy.2⟩
    | error e v =>
      rw [hy₁] at hy
      cases hf.symm.trans hy.1
  | error e u =>
    rw [hx₁] at hx
    obtain ⟨hf, hu⟩ := hx
    cases hy₁ : y w₂ with
    | ok b v =>
      rw [hy₁] at hy
      cases hf.symm.trans hy.1
    | error e' v =>
      rw [hy₁] at hy
      obtain rfl : e = e' := Option.some.inj (hf.symm.trans hy.1)
      exact .error e ⟨c :: past, hu, hy.2⟩

variable {p}

/-- Blocks are read at the same time, whatever they hold. -/
theorem loadBlock_lockstep {i : Nat} (hi : i < p.blockCount) :
    Lockstep p.Abreast (fun _ _ => True) (loadBlock p.left i : VolumeM W₁ Block)
      (loadBlock p.right i : VolumeM W₂ Block) :=
  (p.lockstep_of_scheduled (fun _ _ h => h.read hi) fun _ _ h => h.read hi).adaptExcept _

theorem storeBlock_lockstep {i : Nat} (hi : i < p.blockCount) (b b' : Block) :
    Lockstep p.Abreast (· = ·) (storeBlock p.left i b : VolumeM W₁ Unit)
      (storeBlock p.right i b' : VolumeM W₂ Unit) :=
  ((p.lockstep_of_scheduled (fun _ _ h => h.write hi b) fun _ _ h =>
    h.write hi b').adaptExcept _).mono fun _ _ _ => rfl

theorem syncDevice_lockstep :
    Lockstep p.Abreast (· = ·) (syncDevice p.left : VolumeM W₁ Unit)
      (syncDevice p.right : VolumeM W₂ Unit) :=
  ((p.lockstep_of_scheduled (fun _ _ h => h.sync) fun _ _ h => h.sync).adaptExcept _).mono
    fun _ _ _ => rfl

theorem closeDevice_lockstep :
    Lockstep p.Abreast (· = ·) (closeDevice p.left : VolumeM W₁ Unit)
      (closeDevice p.right : VolumeM W₂ Unit) :=
  ((p.lockstep_of_scheduled (fun _ _ h => h.close) fun _ _ h => h.close).adaptExcept _).mono
    fun _ _ _ => rfl

end Pairing

/-! ## 4. In memory -/

namespace Faults

/-- **These faults make a call fail,** if it is in range. -/
def Stop (faults : Faults) : Call → Prop
  | .read i => faults.failReads ∨ i ∈ faults.badBlocks ∨ faults.readBudget = some 0
  | .write i => faults.failWrites ∨ i ∈ faults.badBlocks ∨ faults.writeBudget = some 0
  | .sync => faults.failSync
  | .close => faults.failClose

instance (faults : Faults) (c : Call) : Decidable (faults.Stop c) :=
  match c with
  | .read _ | .write _ => inferInstanceAs (Decidable (_ ∨ _ ∨ _))
  | .sync | .close => inferInstanceAs (Decidable (_ = true))

/-- The faults after one more call: a call that succeeds is taken off its budget. -/
def after (faults : Faults) (c : Call) : Faults :=
  if faults.Stop c then faults
  else match c with
    | .read _ => { faults with readBudget := faults.readBudget.map (· - 1) }
    | .write _ => { faults with writeBudget := faults.writeBudget.map (· - 1) }
    | .sync | .close => faults

/-- The faults after a list of calls, the latest first. -/
def along (faults : Faults) (past : List Call) : Faults :=
  past.foldr (fun c faults => faults.after c) faults

end Faults

namespace Memory

/-- How a call fails that is told to. -/
def failure : Call → DeviceError
  | .read _ => injected "read"
  | .write _ => injected "write"
  | .sync => injected "sync"
  | .close => injected "close"

/-- Which calls fail on a device in memory on which these faults were set before the calls `past`. -/
def schedule (faults : Faults) (past : List Call) (c : Call) : Option DeviceError :=
  if (faults.along past).Stop c then some (failure c) else none

theorem spend_eq (budget : Option Nat) :
    spend budget = if budget = some 0 then none else some (budget.map (· - 1)) := by
  rcases budget with - | - | n <;> rfl

theorem admitRead?_eq (m : Memory) (i : Nat) : m.admitRead? i =
    if m.faults.Stop (.read i) then none
    else some { m with faults := m.faults.after (.read i) } := by
  unfold admitRead? Faults.after
  rw [spend_eq]
  split_ifs <;> simp_all [Faults.Stop]

theorem admitWrite?_eq (m : Memory) (i : Nat) : m.admitWrite? i =
    if m.faults.Stop (.write i) then none
    else some { m with faults := m.faults.after (.write i) } := by
  unfold admitWrite? Faults.after
  rw [spend_eq]
  split_ifs <;> simp_all [Faults.Stop]

theorem readBlock_eq {m : Memory} {i : Nat} (hi : i < m.blockCount) : readBlock i m =
    if m.faults.Stop (.read i) then .error (failure (.read i)) (m.record (.read i))
    else .ok (m.block i) { m.record (.read i) with faults := m.faults.after (.read i) } := by
  unfold readBlock
  rw [admitRead?_eq]
  by_cases hs : m.faults.Stop (.read i)
  · rw [if_pos hs, if_pos (show (m.record (.read i)).faults.Stop (.read i) from hs)]
    rfl
  · rw [if_neg hs, if_neg (show ¬ (m.record (.read i)).faults.Stop (.read i) from hs)]
    exact if_pos hi

theorem writeBlock_eq {m : Memory} {i : Nat} (hi : i < m.blockCount) (b : Block) :
    writeBlock i b m =
      if m.faults.Stop (.write i) then .error (failure (.write i)) (m.record (.write i))
      else .ok () { (m.setBlock i b).record (.write i) with faults := m.faults.after (.write i) } := by
  unfold writeBlock
  rw [admitWrite?_eq]
  by_cases hs : m.faults.Stop (.write i)
  · rw [if_pos hs, if_pos (show (m.record (.write i)).faults.Stop (.write i) from hs)]
    rfl
  · rw [if_neg hs, if_neg (show ¬ (m.record (.write i)).faults.Stop (.write i) from hs)]
    exact if_pos hi

/-- A call that stops where the faults say, and is taken off its budget, keeps to the schedule. -/
theorem scheduled_of_eq {faults : Faults} {past : List Call} {c : Call} {a : α} {w w' : Memory}
    (act : EStateM DeviceError Memory α) (hw : w.faults = faults.along past)
    (h : act w = if w.faults.Stop c then .error (failure c) (w.record c) else .ok a w')
    (hw' : w'.faults = w.faults.after c) :
    Scheduled (schedule faults past c) (fun u => u.faults = faults.along (c :: past)) act w := by
  have hc : faults.along (c :: past) = w.faults.after c := congrArg (fun f => f.after c) hw.symm
  unfold Scheduled Ends schedule
  rw [h, hc, ← hw]
  by_cases hs : w.faults.Stop c
  · rw [if_pos hs, if_pos hs]
    exact ⟨rfl, (if_pos hs).symm⟩
  · rw [if_neg hs, if_neg hs]
    exact ⟨rfl, hw'⟩

/-- **A device in memory fails on schedule,** whatever faults are set on it. -/
theorem failsBy {m : Memory} {faults : Faults} (h : m.faults = faults) :
    FailsBy (schedule faults) () [] m := by
  refine ⟨fun past w => w.faults = faults.along past, ⟨?_, ?_, ?_, ?_⟩, h⟩
  · intro past w i hw hi
    exact scheduled_of_eq (readBlock i) hw (readBlock_eq hi) rfl
  · intro past w i b hw hi
    exact scheduled_of_eq (writeBlock i b) hw (writeBlock_eq hi b) rfl
  · intro past w hw
    exact scheduled_of_eq sync hw rfl (ite_self _).symm
  · intro past w hw
    exact scheduled_of_eq close hw rfl (ite_self _).symm

end Memory

end FlatVolume
