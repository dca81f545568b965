/-!
# The lowest position

Wherever something is looked for or a free place is taken, the lowest position wins: names in the
directory, free directory slots, free descriptors. `lowest?` is that choice, and
`lowest?_eq_some_iff` says what it means: the condition holds there and nowhere below.
-/

namespace FlatVolume

variable {α : Type} {n : Nat}

/-- The lowest position of `v` at which `p` holds. -/
def lowest? (p : α → Bool) (v : Vector α n) : Option (Fin n) := v.findFinIdx? p

/-- **The condition holds at the lowest position and at none below it.** -/
theorem lowest?_eq_some_iff {p : α → Bool} {v : Vector α n} {i : Fin n} :
    lowest? p v = some i ↔ p v[i] = true ∧ ∀ j < i, p v[j] = false := by
  obtain ⟨a, rfl⟩ := v
  rw [lowest?, Vector.findFinIdx?_mk]
  show Option.map id _ = _ ↔ _
  rw [Option.map_id, id, Array.findFinIdx?_eq_some_iff]
  simp

/-- There is no lowest position exactly if the condition holds nowhere. -/
theorem lowest?_eq_none_iff {p : α → Bool} {v : Vector α n} :
    lowest? p v = none ↔ ∀ i : Fin n, p v[i] = false := by
  rw [lowest?, Vector.findFinIdx?_eq_none_iff]
  refine ⟨fun h i => by simpa using h v[i] (by simp), fun h a ha => ?_⟩
  obtain ⟨i, hi, rfl⟩ := Vector.mem_iff_getElem.mp ha
  simpa using h ⟨i, hi⟩

end FlatVolume
