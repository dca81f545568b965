import FlatVolume.Proofs.Growth
import FlatVolume.Proofs.Intact

/-!
# What keeps a volume tidy

Names are looked up in the directory on every use, so what is open stays bound as long as the
lookup of its name stays. This file fixes which changes of a directory leave a lookup alone
(`Directory.find?_set_of_name_eq`, `Directory.find?_set_of_holds`), and with that which changes of a
volume keep it tidy:

* another table of the same size (`Tidy.withTable`);
* other descriptors, if each is bound and not past its end (`Tidy.withFiles`);
* a file entered or removed (`Tidy.created`, `Tidy.removed`);
* a file's size or first block replaced, its descriptors moved with it (`Tidy.rewritten`).
-/

namespace FlatVolume

/-! ## 1. Looking up a name -/

namespace Directory

variable {d d' : Directory} {slot : Slot} {name name' : String} {e : Entry}

theorem holds_iff : holds name e = true ↔ e.isFree = false ∧ e.name = name := by
  simp [holds]

/-- Whether a slot holds a name is said by the name it has. -/
theorem holds_congr {e' : Entry} (h : e.name = e'.name) : holds name e = holds name e' := by
  simp only [holds, Entry.isFree, h]

theorem find?_congr (h : ∀ s, holds name (d'.get s) = holds name (d.get s)) :
    d'.find? name = d.find? name := by
  ext slot
  simp only [find?_eq_some_iff, h]

/-- The slot that is found holds the name. -/
theorem of_find? (h : d.find? name = some slot) :
    (d.get slot).isFree = false ∧ (d.get slot).name = name :=
  holds_iff.mp (find?_eq_some_iff.mp h).1

/-- **A slot that keeps its name changes no lookup.** -/
theorem find?_set_of_name_eq (h : e.name = (d.get slot).name) (name : String) :
    (d.set slot e).find? name = d.find? name := by
  refine find?_congr fun s => ?_
  rw [get_set]
  split
  · rename_i hs
    exact hs ▸ holds_congr h
  · rfl

/-- **A slot that did not hold a name and does not hold it now** changes no lookup of that name. -/
theorem find?_set_of_holds (h : holds name e = false) (h' : holds name (d.get slot) = false) :
    (d.set slot e).find? name = d.find? name := by
  refine find?_congr fun s => ?_
  rw [get_set]
  split
  · rename_i hs
    rw [hs, h, h']
  · rfl

@[simp] theorem holds_free (name : String) : holds name Entry.free = false := rfl

theorem holds_of_isFree (h : e.isFree = true) : holds name e = false := by
  simp [holds, h]

theorem holds_of_ne (h : e.name ≠ name) : holds name e = false := by
  simp [holds, h]

end Directory

theorem isFree_of_validName {e : Entry} (h : validName e.name = true) : e.isFree = false := by
  simp only [validName, Bool.and_eq_true, Bool.not_eq_true'] at h
  exact h.1.1

/-! ## 2. Changes that keep a volume tidy -/

namespace Volume

variable {H : Type} {v : Volume H} {slot : Slot} {e : Entry}

theorem Tidy.withTable (h : v.Tidy) {t : AllocationTable} (ht : t.size = v.table.size) :
    Tidy { v with table := t } where
  layout := h.layout
  size_eq := ht.trans h.size_eq
  free_eq := h.free_eq
  validName := h.validName
  bound := h.bound

theorem Tidy.withFiles (h : v.Tidy) {files : OpenFiles}
    (hb : ∀ {fd : Nat} {f : OpenFile}, files.get? fd = some f →
      ∃ s, v.root.find? f.name = some s ∧ f.offset ≤ (v.root.get s).size) :
    Tidy { v with files := files } where
  layout := h.layout
  size_eq := h.size_eq
  free_eq := h.free_eq
  validName := h.validName
  bound := hb

/-- A file entered in a free slot. -/
theorem Tidy.created (h : v.Tidy) {name : String} (hv : FlatVolume.validName name = true)
    (hn : v.root.find? name = none) (hs : v.root.freeSlot? = some slot) :
    Tidy { v with root := v.root.set slot (Entry.ofName name) } where
  layout := h.layout
  size_eq := h.size_eq
  free_eq s hf := by
    simp only [Directory.get_set] at hf ⊢
    split at hf
    · rw [isFree_of_validName hv] at hf
      cases hf
    · rename_i hne
      rw [if_neg hne]
      exact h.free_eq s hf
  validName s hf := by
    simp only [Directory.get_set] at hf ⊢
    split at hf
    · rename_i heq
      rw [if_pos heq]
      exact hv
    · rename_i hne
      rw [if_neg hne]
      exact h.validName s hf
  bound {fd f} hf := by
    obtain ⟨s, hfind, ho⟩ := h.bound hf
    have hslot := (Directory.freeSlot?_eq_some_iff.mp hs).1
    have hname : name ≠ f.name := by
      intro heq
      subst heq
      rw [hn] at hfind
      cases hfind
    have hne : s ≠ slot := by
      intro heq
      subst heq
      rw [(Directory.of_find? hfind).1] at hslot
      cases hslot
    refine ⟨s, ?_, ?_⟩
    · show (v.root.set slot (Entry.ofName name)).find? f.name = some s
      rwa [Directory.find?_set_of_holds (Directory.holds_of_ne hname)
        (Directory.holds_of_isFree hslot)]
    · show f.offset ≤ ((v.root.set slot (Entry.ofName name)).get s).size
      rwa [Directory.get_set, if_neg hne]

/-- A file removed that no descriptor is bound to. -/
theorem Tidy.removed (h : v.Tidy) (slot : Slot) (hopen : ∀ {fd : Nat} {f : OpenFile},
    v.files.get? fd = some f → f.name ≠ (v.root.get slot).name) :
    Tidy { v with root := v.root.set slot Entry.free } where
  layout := h.layout
  size_eq := h.size_eq
  free_eq s hf := by
    simp only [Directory.get_set] at hf ⊢
    split
    · rfl
    · rename_i hne
      rw [if_neg hne] at hf
      exact h.free_eq s hf
  validName s hf := by
    simp only [Directory.get_set] at hf ⊢
    split at hf
    · cases hf
    · rename_i hne
      rw [if_neg hne]
      exact h.validName s hf
  bound {fd f} hf := by
    obtain ⟨s, hfind, ho⟩ := h.bound hf
    have hname := hopen hf
    have hne : s ≠ slot := by
      intro heq
      subst heq
      exact hname (Directory.of_find? hfind).2.symm
    refine ⟨s, ?_, ?_⟩
    · show (v.root.set slot Entry.free).find? f.name = some s
      rwa [Directory.find?_set_of_holds (Directory.holds_free _)
        (Directory.holds_of_ne (Ne.symm hname))]
    · show f.offset ≤ ((v.root.set slot Entry.free).get s).size
      rwa [Directory.get_set, if_neg hne]

/-- **A file whose entry keeps its name,** while no descriptor comes to stand past the end. -/
theorem Tidy.rewritten (h : v.Tidy) {files : OpenFiles} (hocc : (v.root.get slot).isFree = false)
    (hname : e.name = (v.root.get slot).name)
    (hb : ∀ {fd : Nat} {f : OpenFile}, files.get? fd = some f →
      ∃ s, v.root.find? f.name = some s ∧ f.offset ≤ if s = slot then e.size
        else (v.root.get s).size) :
    Tidy { v with root := v.root.set slot e, files := files } where
  layout := h.layout
  size_eq := h.size_eq
  free_eq s hf := by
    simp only [Directory.get_set] at hf ⊢
    split at hf
    · rw [Entry.isFree, hname] at hf
      exact absurd (hf.symm.trans hocc) (by decide)
    · rename_i hne
      rw [if_neg hne]
      exact h.free_eq s hf
  validName s hf := by
    simp only [Directory.get_set] at hf ⊢
    split at hf
    · rename_i heq
      rw [if_pos heq, hname]
      exact h.validName slot hocc
    · rename_i hne
      rw [if_neg hne]
      exact h.validName s hf
  bound {fd f} hf := by
    obtain ⟨s, hfind, ho⟩ := hb hf
    refine ⟨s, ?_, ?_⟩
    · show (v.root.set slot e).find? f.name = some s
      rwa [Directory.find?_set_of_name_eq hname]
    · show f.offset ≤ ((v.root.set slot e).get s).size
      rw [Directory.get_set]
      split
      · rename_i hs
        rwa [if_pos hs] at ho
      · rename_i hs
        rwa [if_neg hs] at ho

/-- A descriptor moved within its file. -/
theorem Tidy.moved (h : v.Tidy) {fd offset : Nat} {f : OpenFile} (hf : v.files.get? fd = some f)
    (hs : v.root.find? f.name = some slot) (ho : offset ≤ (v.root.get slot).size) :
    Tidy { v with files := v.files.moveTo fd offset } := by
  refine h.withFiles fun {fd' f'} hf' => ?_
  rw [OpenFiles.get?_moveTo, hf] at hf'
  split at hf'
  · cases hf'
    exact ⟨slot, hs, ho⟩
  · exact h.bound hf'

/-- **A file shortened,** its descriptors brought back to its new end. -/
theorem Tidy.shortened (h : v.Tidy) {name : String} {size : Nat} (first : Link)
    {t : AllocationTable} (hs : v.root.find? name = some slot)
    (hle : size ≤ (v.root.get slot).size) (ht : t.size = v.table.size) :
    Tidy { v with
      table := t
      root := v.root.set slot ⟨(v.root.get slot).name, size, first⟩
      files := v.files.clamp name size } := by
  refine Tidy.withTable (v := { v with
    root := v.root.set slot ⟨(v.root.get slot).name, size, first⟩
    files := v.files.clamp name size }) ?_ ht
  refine h.rewritten (Directory.of_find? hs).1 (by rfl) fun {fd f} hf => ?_
  rw [OpenFiles.get?_clamp] at hf
  obtain ⟨g, hg, hfg⟩ := Option.map_eq_some_iff.mp hf
  obtain ⟨s, hfind, ho⟩ := h.bound hg
  by_cases hname : g.name = name
  · rw [if_pos (beq_iff_eq.mpr hname)] at hfg
    subst hfg
    refine ⟨slot, by rw [← hs, ← hname], ?_⟩
    rw [if_pos rfl]
    exact Nat.min_le_right _ _
  · rw [if_neg fun e => hname (beq_iff_eq.mp e)] at hfg
    subst hfg
    refine ⟨s, hfind, ?_⟩
    have hne : s ≠ slot := by
      intro heq
      subst heq
      exact hname ((Directory.of_find? hfind).2.symm.trans (Directory.of_find? hs).2)
    rwa [if_neg hne]

end Volume

end FlatVolume
