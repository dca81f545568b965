import FlatVolume.Table

/-!
# Chains

`AllocationTable.Chain t first blocks` says, without walking, that `blocks` is what lies between
`first` and the end: each block is a data block in use and leads to the next one, and the last
leads to `Link.endOfChain`. There is at most one such list (`Chain.unique`), and a walk finds it
exactly if it is given enough steps (`walk_eq_ok_iff`).
-/

namespace FlatVolume.AllocationTable

open Link (endOfChain)

/-- The blocks from `first` to the end of its chain. -/
inductive Chain (t : AllocationTable) : (first : Link) → (blocks : List Link) → Prop where
  | done : Chain t endOfChain []
  | step {b n : Link} {rest : List Link} (hb : b ≠ endOfChain) (link : t.link? b = some n)
      (tail : Chain t n rest) : Chain t b (b :: rest)

namespace Chain

variable {t : AllocationTable} {first : Link} {blocks blocks' : List Link}

/-- A chain has no blocks exactly if it starts at its end. -/
theorem nil_iff : Chain t first [] ↔ first = endOfChain :=
  ⟨fun h => by cases h; rfl, fun h => h ▸ .done⟩

/-- **A block starts at most one chain.** -/
theorem unique (h : Chain t first blocks) (h' : Chain t first blocks') : blocks = blocks' := by
  induction h generalizing blocks' with
  | done =>
    cases h' with
    | done => rfl
    | step hb _ _ => exact absurd rfl hb
  | step hb link _ ih =>
    cases h' with
    | done => exact absurd rfl hb
    | step _ link' tail' =>
      obtain rfl : _ = _ := Option.some.inj (link.symm.trans link')
      rw [ih tail']

/-- **Every block of a chain is a data block in use.** -/
theorem link_of_mem (h : Chain t first blocks) {b : Link} (hb : b ∈ blocks) :
    ∃ n, t.link? b = some n := by
  induction h with
  | done => simp at hb
  | step _ link _ ih =>
    rcases List.mem_cons.mp hb with rfl | hb
    · exact ⟨_, link⟩
    · exact ih hb

end Chain

variable {t : AllocationTable} {first b : Link} {blocks : List Link}

theorem next_eq_ok_iff {n : Link} : t.next b = .ok n ↔ t.link? b = some n := by
  unfold next
  cases t.link? b <;> simp

/-- A block that leads nowhere is reported by its own number. -/
theorem next_eq_error_iff {e : VolumeError} :
    t.next b = .error e ↔ t.link? b = none ∧ e = .corruptChain b := by
  unfold next
  cases t.link? b <;> simp [eq_comm]

/-- **A walk of `steps` links finds exactly the chains of at most that many blocks.** -/
theorem walk_eq_ok_iff {steps : Nat} :
    t.walk steps first = .ok blocks ↔ Chain t first blocks ∧ blocks.length ≤ steps := by
  induction steps generalizing first blocks with
  | zero =>
    by_cases hf : first = endOfChain
    · subst hf
      simp only [walk, if_true, Except.ok.injEq]
      refine ⟨fun h => h ▸ ⟨.done, Nat.le_refl 0⟩, fun ⟨h, _⟩ => Chain.unique .done h⟩
    · simp only [walk, hf, if_false, reduceCtorEq, false_iff, not_and]
      intro h hl
      cases h with
      | done => exact hf rfl
      | step _ _ _ => simp at hl
  | succ steps ih =>
    by_cases hf : first = endOfChain
    · subst hf
      simp only [walk, if_true, Except.ok.injEq]
      refine ⟨fun h => h ▸ ⟨.done, Nat.zero_le _⟩, fun ⟨h, _⟩ => Chain.unique .done h⟩
    · simp only [walk, hf, if_false]
      cases hn : t.next first with
      | error e =>
        simp only [reduceCtorEq, false_iff, not_and]
        intro h
        cases h with
        | done => exact absurd rfl hf
        | step _ link _ => rw [next_eq_ok_iff.mpr link] at hn; cases hn
      | ok n =>
        have link := next_eq_ok_iff.mp hn
        cases hw : t.walk steps n with
        | error e =>
          simp only [hw, reduceCtorEq, false_iff, not_and]
          intro h hl
          cases h with
          | done => exact hf rfl
          | step _ link' tail =>
            obtain rfl : _ = _ := Option.some.inj (link.symm.trans link')
            have := ih.mpr ⟨tail, by simpa using hl⟩
            rw [hw] at this
            cases this
        | ok rest =>
          obtain ⟨tail, hl⟩ := ih.mp hw
          simp only [hw, Except.ok.injEq]
          refine ⟨fun h => h ▸ ⟨.step hf link tail, by simpa using hl⟩, fun ⟨h, _⟩ => ?_⟩
          exact Chain.unique (.step hf link tail) h

end FlatVolume.AllocationTable
