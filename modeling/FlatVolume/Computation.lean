import FlatVolume.Error

/-!
# Computations that can fail

Every operation here is a function of a state that gives an answer or an error, and the state after
it in both cases: what was changed before a failure stays changed. `VolumeM σ` are the operations
that fail as the file system does.

The lemmas below say when a sequence of two steps succeeds and when it fails, and the same for a
step whose answer or whose error is renamed. Everything about a longer operation follows from them.
`undoing` is an attempt that is taken back when it fails.
-/

namespace FlatVolume

/-- A computation on a state of type `σ` that may fail with a `VolumeError`. -/
abbrev VolumeM (σ : Type) := EStateM VolumeError σ

namespace Computation

variable {ε ε' σ α β : Type}

/-- **A sequence succeeds when both steps do.** -/
theorem bind_eq_ok_iff {x : EStateM ε σ α} {f : α → EStateM ε σ β} {s t : σ} {b : β} :
    (x >>= f) s = .ok b t ↔ ∃ a u, x s = .ok a u ∧ f a u = .ok b t := by
  show EStateM.bind x f s = .ok b t ↔ _
  unfold EStateM.bind
  cases x s with
  | ok a u => exact ⟨fun h => ⟨a, u, rfl, h⟩, fun ⟨_, _, h, hf⟩ => by cases h; exact hf⟩
  | error e u => simp

/-- **A sequence fails when the first step does,** or the first succeeds and the second fails. -/
theorem bind_eq_error_iff {x : EStateM ε σ α} {f : α → EStateM ε σ β} {s t : σ} {e : ε} :
    (x >>= f) s = .error e t ↔
      x s = .error e t ∨ ∃ a u, x s = .ok a u ∧ f a u = .error e t := by
  show EStateM.bind x f s = .error e t ↔ _
  unfold EStateM.bind
  cases x s with
  | ok a u =>
    refine ⟨fun h => .inr ⟨a, u, rfl, h⟩, fun h => ?_⟩
    rcases h with h | ⟨_, _, h, hf⟩
    · cases h
    · cases h; exact hf
  | error e u => simp

/-- A sequence whose first step succeeds goes on with the second. -/
theorem bind_of_ok {x : EStateM ε σ α} {f : α → EStateM ε σ β} {s u : σ} {a : α}
    (h : x s = .ok a u) : (x >>= f) s = f a u := by
  show EStateM.bind x f s = f a u
  rw [EStateM.bind, h]

/-- A sequence whose first step fails has failed. -/
theorem bind_of_error {x : EStateM ε σ α} {f : α → EStateM ε σ β} {s u : σ} {e : ε}
    (h : x s = .error e u) : (x >>= f) s = .error e u := by
  show EStateM.bind x f s = .error e u
  rw [EStateM.bind, h]

@[simp] theorem pure_run (a : α) (s : σ) : (pure a : EStateM ε σ α) s = .ok a s := rfl

@[simp] theorem throw_run (e : ε) (s : σ) : (throw e : EStateM ε σ α) s = .error e s := rfl

@[simp] theorem get_run (s : σ) : (get : EStateM ε σ σ) s = .ok s s := rfl

theorem map_eq_ok_iff {f : α → β} {x : EStateM ε σ α} {s t : σ} {b : β} :
    (f <$> x) s = .ok b t ↔ ∃ a, x s = .ok a t ∧ f a = b := by
  show EStateM.map f x s = .ok b t ↔ _
  unfold EStateM.map
  cases x s with
  | ok a u =>
    refine ⟨fun h => ?_, fun ⟨_, h, hf⟩ => ?_⟩
    · cases h; exact ⟨a, rfl, rfl⟩
    · cases h; cases hf; rfl
  | error e u => simp

theorem map_eq_error_iff {f : α → β} {x : EStateM ε σ α} {s t : σ} {e : ε} :
    (f <$> x) s = .error e t ↔ x s = .error e t := by
  show EStateM.map f x s = .error e t ↔ _
  unfold EStateM.map
  cases x s <;> simp

theorem discard_eq_ok_iff {x : EStateM ε σ α} {s t : σ} {u : Unit} :
    discard x s = .ok u t ↔ ∃ a, x s = .ok a t := by
  show ((fun _ => ()) <$> x) s = .ok u t ↔ _
  simp [map_eq_ok_iff]

theorem discard_eq_error_iff {x : EStateM ε σ α} {s t : σ} {e : ε} :
    discard x s = .error e t ↔ x s = .error e t :=
  map_eq_error_iff

/-- Renaming errors does not touch success. -/
@[simp] theorem adaptExcept_eq_ok_iff {g : ε → ε'} {x : EStateM ε σ α} {s t : σ} {a : α} :
    x.adaptExcept g s = .ok a t ↔ x s = .ok a t := by
  unfold EStateM.adaptExcept
  cases x s <;> simp

/-- A renamed error comes from an error. -/
theorem adaptExcept_eq_error_iff {g : ε → ε'} {x : EStateM ε σ α} {s t : σ} {e : ε'} :
    x.adaptExcept g s = .error e t ↔ ∃ c, x s = .error c t ∧ g c = e := by
  unfold EStateM.adaptExcept
  cases x s with
  | ok a u => simp
  | error c u =>
    refine ⟨fun h => ?_, fun ⟨_, h, hg⟩ => ?_⟩
    · cases h; exact ⟨c, rfl, rfl⟩
    · cases h; cases hg; rfl

/-- **An attempt that is taken back when it fails.** What is reported is the failure of the
    attempt, unless taking it back fails as well. -/
def undoing (act : EStateM ε σ α) (undo : EStateM ε σ Unit) : EStateM ε σ α := fun s =>
  match act s with
  | .ok a s => .ok a s
  | .error e s =>
    match undo s with
    | .ok () s => .error e s
    | .error e' s => .error e' s

theorem undoing_eq_ok_iff {act : EStateM ε σ α} {undo : EStateM ε σ Unit} {s t : σ} {a : α} :
    undoing act undo s = .ok a t ↔ act s = .ok a t := by
  unfold undoing
  cases act s with
  | ok b u => rfl
  | error e u => cases h : undo u <;> simp [h]

/-- If taking back cannot fail, the failure of the attempt is the one reported. -/
theorem undoing_of_error {act : EStateM ε σ α} {undo : EStateM ε σ Unit} {s t u : σ} {e : ε}
    (h : act s = .error e t) (hu : undo t = .ok () u) : undoing act undo s = .error e u := by
  simp only [undoing, h, hu]

end Computation

end FlatVolume
