import FlatVolume.Device.Lawful

/-!
# However a computation ends

`Ends x s ok err` says what holds when `x` is run from `s`: `ok` of the answer and the state if it
succeeds, `err` of the error and the state if it fails. A device may fail at any call, so everything
said about an operation is said for both ends at once.

* `Ends.bind`, `Ends.mono`, `Ends.undoing` -- how the ends of a longer computation follow from those
  of its parts;
* `NeverFails d w` -- from world `w` on no call to device `d` fails that stays in range;
* `loadBlock_ends`, `storeBlock_ends`, `syncDevice_ends`, `closeDevice_ends` -- what each call does
  to the storage of a lawful device, and that it succeeds on one that never fails.
-/

namespace FlatVolume

/-! ## 1. Both ends of a computation -/

namespace Computation

variable {ε ε' σ α β : Type}

/-- What holds however `x` ends, run from `s`. -/
def Ends (x : EStateM ε σ α) (s : σ) (ok : α → σ → Prop) (err : ε → σ → Prop) : Prop :=
  match x s with
  | .ok a t => ok a t
  | .error e t => err e t

variable {x : EStateM ε σ α} {s t : σ} {a : α} {e : ε} {ok ok' : α → σ → Prop}
  {err err' : ε → σ → Prop}

theorem ends_iff : Ends x s ok err ↔
    (∀ a t, x s = .ok a t → ok a t) ∧ ∀ e t, x s = .error e t → err e t := by
  unfold Ends
  cases x s with
  | ok a t => simp
  | error e t => simp

/-- Where no failure is left, a computation succeeds. -/
theorem Ends.exists_ok (h : Ends x s ok err) (hno : ∀ e t, ¬ err e t) :
    ∃ a t, x s = .ok a t ∧ ok a t := by
  unfold Ends at h
  cases hx : x s with
  | ok a t =>
    rw [hx] at h
    exact ⟨a, t, rfl, h⟩
  | error e t =>
    rw [hx] at h
    exact absurd h (hno e t)

theorem Ends.of_ok (h : x s = .ok a t) (ho : ok a t) : Ends x s ok err := by
  rwa [Ends, h]

theorem Ends.of_error (h : x s = .error e t) (he : err e t) : Ends x s ok err := by
  rwa [Ends, h]

theorem Ends.of_eq {y : EStateM ε σ α} (h : x s = y s) (hy : Ends y s ok err) :
    Ends x s ok err := by
  rwa [Ends, h]

theorem Ends.mono (h : Ends x s ok err) (ho : ∀ a t, ok a t → ok' a t)
    (he : ∀ e t, err e t → err' e t) : Ends x s ok' err' := by
  obtain ⟨h1, h2⟩ := ends_iff.mp h
  exact ends_iff.mpr ⟨fun a t hx => ho a t (h1 a t hx), fun e t hx => he e t (h2 e t hx)⟩

/-- What is known of the ends in two ways. -/
theorem Ends.and (h : Ends x s ok err) (h' : Ends x s ok' err') :
    Ends x s (fun a t => ok a t ∧ ok' a t) fun e t => err e t ∧ err' e t := by
  obtain ⟨h1, h2⟩ := ends_iff.mp h
  obtain ⟨h1', h2'⟩ := ends_iff.mp h'
  exact ends_iff.mpr ⟨fun a t hx => ⟨h1 a t hx, h1' a t hx⟩, fun e t hx => ⟨h2 e t hx, h2' e t hx⟩⟩

/-- A sequence ends as its second step does where the first succeeds, and as the first where it
    fails. -/
theorem Ends.bind {f : α → EStateM ε σ β} {okb : β → σ → Prop}
    (h : Ends x s (fun a t => Ends (f a) t okb err) err) : Ends (x >>= f) s okb err := by
  cases hx : x s with
  | ok a t =>
    rw [Ends, hx] at h
    rwa [Ends, bind_of_ok hx]
  | error e t =>
    rw [Ends, hx] at h
    rwa [Ends, bind_of_error hx]

theorem Ends.bind_ok {f : α → EStateM ε σ β} {okb : β → σ → Prop} (hx : x s = .ok a t)
    (h : Ends (f a) t okb err) : Ends (x >>= f) s okb err :=
  Ends.bind (Ends.of_ok hx h)

theorem Ends.adaptExcept {g : ε → ε'} {erre : ε' → σ → Prop}
    (h : Ends x s ok fun e t => erre (g e) t) : Ends (x.adaptExcept g) s ok erre := by
  unfold Ends EStateM.adaptExcept at *
  cases hx : x s with
  | ok a t => simpa [hx] using h
  | error e t => simpa [hx] using h

/-- An attempt that is taken back ends well, or fails from where taking back has led. -/
theorem Ends.undoing {undo : EStateM ε σ Unit}
    (h : Ends x s ok fun e t => ∃ u, undo t = .ok () u ∧ err e u) :
    Ends (Computation.undoing x undo) s ok err := by
  cases hx : x s with
  | ok a t =>
    rw [Ends, hx] at h
    rwa [Ends, undoing_eq_ok_iff.mpr hx]
  | error e t =>
    rw [Ends, hx] at h
    obtain ⟨u, hu, he⟩ := h
    rwa [Ends, undoing_of_error hx hu]

end Computation

open FlatVolume.Computation

/-! ## 2. Devices that never fail -/

variable {W H : Type} [BlockDevice W H]

/-- In the worlds of `ok` no call to `d` fails, and each leads to a world of `ok` again. Reads and
    writes have to be in range. -/
structure Reliable (d : H) (ok : W → Prop) : Prop where
  read : ∀ {w : W} {i : Nat}, ok w → i < BlockDevice.blockCount d w →
    ∃ b w', BlockDevice.readBlock d i w = .ok b w' ∧ ok w'
  write : ∀ {w : W} {i : Nat} (b : Block), ok w → i < BlockDevice.blockCount d w →
    ∃ w', BlockDevice.writeBlock d i b w = .ok () w' ∧ ok w'
  sync : ∀ {w : W}, ok w → ∃ w', BlockDevice.sync d w = .ok () w' ∧ ok w'
  close : ∀ {w : W}, ok w → ∃ w', BlockDevice.close d w = .ok () w' ∧ ok w'

/-- **From world `w` on no call to `d` fails.** -/
def NeverFails (d : H) (w : W) : Prop := ∃ ok : W → Prop, Reliable d ok ∧ ok w

theorem NeverFails.read {d : H} {w : W} {i : Nat} (h : NeverFails d w)
    (hi : i < BlockDevice.blockCount d w) :
    ∃ b w', BlockDevice.readBlock d i w = .ok b w' ∧ NeverFails d w' := by
  obtain ⟨ok, hr, hw⟩ := h
  obtain ⟨b, w', he, hw'⟩ := hr.read hw hi
  exact ⟨b, w', he, ok, hr, hw'⟩

theorem NeverFails.write {d : H} {w : W} {i : Nat} (h : NeverFails d w) (b : Block)
    (hi : i < BlockDevice.blockCount d w) :
    ∃ w', BlockDevice.writeBlock d i b w = .ok () w' ∧ NeverFails d w' := by
  obtain ⟨ok, hr, hw⟩ := h
  obtain ⟨w', he, hw'⟩ := hr.write b hw hi
  exact ⟨w', he, ok, hr, hw'⟩

theorem NeverFails.sync {d : H} {w : W} (h : NeverFails d w) :
    ∃ w', BlockDevice.sync d w = .ok () w' ∧ NeverFails d w' := by
  obtain ⟨ok, hr, hw⟩ := h
  obtain ⟨w', he, hw'⟩ := hr.sync hw
  exact ⟨w', he, ok, hr, hw'⟩

theorem NeverFails.close {d : H} {w : W} (h : NeverFails d w) :
    ∃ w', BlockDevice.close d w = .ok () w' ∧ NeverFails d w' := by
  obtain ⟨ok, hr, hw⟩ := h
  obtain ⟨w', he, hw'⟩ := hr.close hw
  exact ⟨w', he, ok, hr, hw'⟩

/-! ## 3. The calls -/

open LawfulBlockDevice (storage)

variable [LawfulBlockDevice W H]

/-- A call led from `w` to `w'`, where the device holds `st`. If it never fails, it still does not.
    -/
structure Answered (d : H) (w w' : W) (st : Storage) : Prop where
  storage_eq : storage d w' = st
  neverFails : NeverFails d w → NeverFails d w'

theorem Answered.refl (d : H) (w : W) : Answered d w w (storage d w) := ⟨rfl, id⟩

theorem Answered.trans {d : H} {w w' w'' : W} {st st' : Storage} (h : Answered d w w' st)
    (h' : Answered d w' w'' st') : Answered d w w'' st' :=
  ⟨h'.storage_eq, fun hn => h'.neverFails (h.neverFails hn)⟩

/-- A call failed on the way from `w` to `w'`: it changed nothing, and where it was in range the
    device is not one that never fails. -/
structure Failed (d : H) (w w' : W) (inRange : Prop) : Prop where
  storage_eq : storage d w' = storage d w
  fails : inRange → ¬ NeverFails d w

theorem loadBlock_ends (d : H) (i : Nat) (w : W) : Ends (loadBlock d i) w
    (fun b w' => b = (storage d w).block i ∧ Answered d w w' (storage d w))
    (fun e w' => (∃ c, e = .io i c) ∧ Failed d w w' (i < (storage d w).blockCount)) := by
  refine Ends.adaptExcept (ends_iff.mpr ⟨fun b w' h => ?_, fun c w' h => ?_⟩)
  · obtain ⟨hb, hi, hs⟩ := LawfulBlockDevice.read_ok h
    refine ⟨hb, hs, fun hn => ?_⟩
    obtain ⟨b', w'', he, hn'⟩ := hn.read hi
    cases h.symm.trans he
    exact hn'
  · refine ⟨⟨c, rfl⟩, LawfulBlockDevice.read_error h, fun hi hn => ?_⟩
    rw [LawfulBlockDevice.blockCount_eq] at hi
    obtain ⟨b, w'', he, -⟩ := hn.read hi
    cases h.symm.trans he

theorem storeBlock_ends (d : H) (i : Nat) (b : Block) (w : W) : Ends (storeBlock d i b) w
    (fun _ w' => Answered d w w' ((storage d w).set i b))
    (fun e w' => (∃ c, e = .io i c) ∧ Failed d w w' (i < (storage d w).blockCount)) := by
  refine Ends.adaptExcept (ends_iff.mpr ⟨fun _ w' h => ?_, fun c w' h => ?_⟩)
  · obtain ⟨hi, hs⟩ := LawfulBlockDevice.write_ok h
    refine ⟨hs, fun hn => ?_⟩
    obtain ⟨w'', he, hn'⟩ := hn.write b hi
    cases h.symm.trans he
    exact hn'
  · refine ⟨⟨c, rfl⟩, LawfulBlockDevice.write_error h, fun hi hn => ?_⟩
    rw [LawfulBlockDevice.blockCount_eq] at hi
    obtain ⟨w'', he, -⟩ := hn.write b hi
    cases h.symm.trans he

theorem syncDevice_ends (d : H) {w : W} (hw : (storage d w).whole) : Ends (syncDevice d) w
    (fun _ w' => Answered d w w' (storage d w))
    (fun e w' => (∃ c, e = .flushFailed (.device c)) ∧ Failed d w w' True) := by
  refine Ends.adaptExcept (ends_iff.mpr ⟨fun _ w' h => ?_, fun c w' h => ?_⟩)
  · refine ⟨LawfulBlockDevice.sync_ok hw h, fun hn => ?_⟩
    obtain ⟨w'', he, hn'⟩ := hn.sync
    cases h.symm.trans he
    exact hn'
  · refine ⟨⟨c, rfl⟩, LawfulBlockDevice.sync_error hw h, fun _ hn => ?_⟩
    obtain ⟨w'', he, -⟩ := hn.sync
    cases h.symm.trans he

theorem closeDevice_ends (d : H) (w : W) : Ends (closeDevice d) w
    (fun _ w' => Answered d w w' (storage d w))
    (fun e w' => (∃ c, e = .flushFailed (.device c)) ∧ Failed d w w' True) := by
  refine Ends.adaptExcept (ends_iff.mpr ⟨fun _ w' h => ?_, fun c w' h => ?_⟩)
  · refine ⟨LawfulBlockDevice.close_ok h, fun hn => ?_⟩
    obtain ⟨w'', he, hn'⟩ := hn.close
    cases h.symm.trans he
    exact hn'
  · refine ⟨⟨c, rfl⟩, LawfulBlockDevice.close_error h, fun _ hn => ?_⟩
    obtain ⟨w'', he, -⟩ := hn.close
    cases h.symm.trans he

/-! ## 4. Devices in memory without faults -/

namespace Memory

theorem admitRead?_of_faults {m : Memory} (h : m.faults = {}) (i : Nat) :
    m.admitRead? i = some m := by
  cases m
  subst h
  rfl

theorem admitWrite?_of_faults {m : Memory} (h : m.faults = {}) (i : Nat) :
    m.admitWrite? i = some m := by
  cases m
  subst h
  rfl

/-- **A device in memory on which no fault is set never fails.** -/
theorem neverFails {m : Memory} (h : m.faults = {}) : NeverFails () m := by
  refine ⟨fun m => m.faults = {}, ⟨?_, ?_, ?_, ?_⟩, h⟩
  · intro w i hw hi
    have hr : (w.record (.read i)).faults = {} := hw
    have hi' : i < (w.record (.read i)).blockCount := hi
    refine ⟨w.block i, w.record (.read i), ?_, hr⟩
    show readBlock i w = _
    simp only [readBlock, admitRead?_of_faults hr, if_pos hi']
    rfl
  · intro w i b hw hi
    have hr : (w.record (.write i)).faults = {} := hw
    have hi' : i < (w.record (.write i)).blockCount := hi
    refine ⟨(w.record (.write i)).setBlock i b, ?_, hr⟩
    show writeBlock i b w = _
    simp only [writeBlock, admitWrite?_of_faults hr, if_pos hi']
  · intro w hw
    exact ⟨w.record .sync, by show sync w = _; simp [sync, hw], hw⟩
  · intro w hw
    exact ⟨w.record .close, by show close w = _; simp [close, hw], hw⟩

end Memory

end FlatVolume
