import FlatVolume.Proofs.Allotment
import FlatVolume.Volume.Check

/-!
# What a mounted volume keeps

Two invariants of a mounted volume:

* `Volume.Tidy` -- what holds of every volume that was mounted, whatever its table says: one table
  entry per data block of its layout, free slots in their default form, names that a record can
  hold, descriptors bound to files and not past their end;
* `Volume.Intact v own` -- a tidy volume in which slot `s` owns the blocks `own s`, as many as the
  size of its file needs.

An intact volume is a tidy one that is `Consistent` (`Tidy.consistent_iff`), and consistency is what
`check` decides (`check_eq_ok_iff`). The orphans of an intact volume are its unowned blocks.
-/

namespace FlatVolume.Volume

open AllocationTable

variable {H : Type} {v : Volume H} {own : Slot → List Link}

/-! ## 1. The invariants -/

/-- What every mounted volume keeps, whatever its table holds. -/
structure Tidy (v : Volume H) : Prop where
  layout : ∃ n, Superblock.forBlockCount? n = some v.superblock
  size_eq : v.table.size = v.superblock.dataBlocks.toNat
  free_eq : ∀ s, (v.root.get s).isFree = true → v.root.get s = Entry.free
  validName : ∀ s, (v.root.get s).isFree = false → validName (v.root.get s).name = true
  bound : ∀ {fd : Nat} {f : OpenFile}, v.files.get? fd = some f →
    ∃ s, v.root.find? f.name = some s ∧ f.offset ≤ (v.root.get s).size

/-- **A tidy volume whose files are sound:** slot `s` owns the blocks `own s`. -/
structure Intact (v : Volume H) (own : Slot → List Link) : Prop extends Tidy v where
  allotment : Allotment v.table v.root own
  length_eq : ∀ s, (own s).length = ceilDiv (v.root.get s).size blockSize

theorem Tidy.table_size_le (h : v.Tidy) : v.table.size ≤ 65535 := by
  have := v.superblock.dataBlocks.toNat_lt
  rw [h.size_eq]
  omega

/-- **A descriptor of a tidy volume leads to a file,** and stands nowhere past its end. -/
theorem Tidy.resolve_eq (h : v.Tidy) {fd : Nat} {f : OpenFile} (hf : v.files.get? fd = some f) :
    ∃ slot, v.resolve fd = .ok (f, slot) ∧ v.root.find? f.name = some slot ∧
      f.offset ≤ (v.root.get slot).size := by
  obtain ⟨slot, hs, ho⟩ := h.bound hf
  exact ⟨slot, by simp only [resolve, OpenFiles.get, hf, hs], hs, ho⟩

theorem resolve_of_get?_none {fd : Nat} (hf : v.files.get? fd = none) :
    v.resolve fd = .error (.badDescriptor fd) := by
  simp only [resolve, OpenFiles.get, hf]

theorem resolve_eq_ok_iff {fd : Nat} {f : OpenFile} {slot : Slot} :
    v.resolve fd = .ok (f, slot) ↔
      v.files.get? fd = some f ∧ v.root.find? f.name = some slot := by
  constructor
  · intro h
    unfold resolve OpenFiles.get at h
    cases hf : v.files.get? fd with
    | none =>
      rw [hf] at h
      cases h
    | some g =>
      rw [hf] at h
      cases hs : v.root.find? g.name with
      | none => simp [hs] at h
      | some s =>
        simp only [hs] at h
        cases h
        exact ⟨rfl, hs⟩
  · intro hq
    rcases hq with ⟨hf, hs⟩
    simp only [resolve, OpenFiles.get, hf, hs]

theorem Tidy.offset_le (h : v.Tidy) {fd : Nat} {f : OpenFile} {slot : Slot}
    (hr : v.resolve fd = .ok (f, slot)) : f.offset ≤ (v.root.get slot).size := by
  obtain ⟨hf, hs⟩ := resolve_eq_ok_iff.mp hr
  obtain ⟨slot', hs', ho⟩ := h.bound hf
  obtain rfl : slot = slot' := Option.some.inj (hs.symm.trans hs')
  exact ho

theorem mem_files_iff {d : Directory} {e : Entry} :
    e ∈ d.files ↔ ∃ s, d.get s = e ∧ e.isFree = false := by
  simp only [Directory.files, List.mem_filter, Bool.not_eq_true', Vector.mem_toList_iff,
    Vector.mem_iff_getElem]
  constructor
  · intro hq
    rcases hq with ⟨⟨i, hi, he⟩, hf⟩
    exact ⟨⟨i, hi⟩, he, hf⟩
  · intro hq
    rcases hq with ⟨s, he, hf⟩
    exact ⟨⟨s.val, s.isLt, he⟩, hf⟩

theorem pairwise_files_iff {d : Directory} {R : Entry → Entry → Prop} :
    d.files.Pairwise R ↔ ∀ s s' : Slot, s < s' → (d.get s).isFree = false →
      (d.get s').isFree = false → R (d.get s) (d.get s') := by
  have hl : d.slots.toList.length = maxFiles := by simp
  rw [Directory.files, List.pairwise_filter, List.pairwise_iff_getElem]
  simp only [Bool.not_eq_true', Vector.getElem_toList]
  constructor
  · intro h s s' hlt hs hs'
    exact h s.val s'.val (by omega) (by omega) hlt hs hs'
  · intro h i j hi hj hij hfi hfj
    exact h ⟨i, by omega⟩ ⟨j, by omega⟩ hij hfi hfj

/-- A free slot owns nothing. -/
theorem Intact.own_of_isFree (h : v.Intact own) {s : Slot} (hs : (v.root.get s).isFree = true) :
    own s = [] := by
  have hl := h.length_eq s
  rw [h.free_eq s hs] at hl
  exact List.length_eq_zero_iff.mp hl

theorem Intact.hasBlocks (h : v.Intact own) (s : Slot) : v.HasBlocks (v.root.get s) (own s) :=
  ⟨h.allotment.chain s, h.length_eq s⟩

/-- **Soundness of the files, file by file or slot by slot.** -/
theorem Tidy.consistent_iff (h : v.Tidy) : v.Consistent ↔ ∃ own, v.Intact own := by
  constructor
  · intro hc
    have hex : ∀ s, ∃ blocks, v.HasBlocks (v.root.get s) blocks := by
      intro s
      cases hs : (v.root.get s).isFree with
      | true =>
        rw [h.free_eq s hs]
        exact ⟨[], .done, rfl⟩
      | false =>
        obtain ⟨blocks, hb, -⟩ := hc.hasBlocks _ (mem_files_iff.mpr ⟨s, rfl, hs⟩)
        exact ⟨blocks, hb⟩
    choose own hown using hex
    refine ⟨own, h, ⟨fun s => (hown s).chain, fun {s s' b} hb hb' => ?_⟩,
      fun s => (hown s).length_eq⟩
    -- a slot that owns a block is occupied
    have hocc : ∀ {r : Slot}, b ∈ own r → (v.root.get r).isFree = false := by
      intro r hr
      refine Bool.eq_false_iff.mpr fun hf => ?_
      have hl := (hown r).length_eq
      rw [h.free_eq r hf] at hl
      rw [List.length_eq_zero_iff.mp hl] at hr
      cases hr
    have hdis := pairwise_files_iff.mp hc.disjoint
    rcases lt_trichotomy s s' with hlt | heq | hgt
    · exact absurd hb' (hdis s s' hlt (hocc hb) (hocc hb') _ _ (hown s) (hown s') b hb)
    · exact heq
    · exact absurd hb (hdis s' s hgt (hocc hb') (hocc hb) _ _ (hown s') (hown s) b hb')
  · intro hq
    rcases hq with ⟨own, hi⟩
    refine ⟨fun e he => ?_,
      pairwise_files_iff.mpr fun s s' hlt _ _ blocks blocks' hb hb' b hm hm' =>
      ?_⟩
    · obtain ⟨s, rfl, -⟩ := mem_files_iff.mp he
      exact ⟨own s, hi.hasBlocks s, (hi.allotment.chain s).nodup⟩
    · rw [hb.unique (hi.hasBlocks s)] at hm
      rw [hb'.unique (hi.hasBlocks s')] at hm'
      exact absurd (hi.allotment.disjoint hm hm') (Fin.ne_of_lt hlt)

/-- **The orphans of an intact volume are its unowned blocks.** -/
theorem Intact.orphan_iff (h : v.Intact own) (b : Link) :
    v.Orphan b ↔ Unowned v.table own b := by
  refine and_congr_right fun _ => ⟨fun ho s hb => ?_, fun hn e he blocks hc => ?_⟩
  · cases hs : (v.root.get s).isFree with
    | true =>
      rw [h.own_of_isFree hs] at hb
      cases hb
    | false => exact ho _ (mem_files_iff.mpr ⟨s, rfl, hs⟩) _ (h.allotment.chain s) hb
  · obtain ⟨s, rfl, -⟩ := mem_files_iff.mp he
    rw [hc.unique (h.allotment.chain s)]
    exact hn s

/-! ## 2. What checking finds out -/

/-- The marks stand at the blocks that were seen. -/
structure Marked (owned : Array Bool) (n : Nat) (seen : List Link) : Prop where
  size_eq : owned.size = n
  getElem?_eq : ∀ b : Link, b.toNat < n → owned[b.toNat]? = some (decide (b ∈ seen))

variable {owned : Array Bool} {n : Nat} {seen blocks : List Link}

theorem marked_nil (n : Nat) : Marked (Array.replicate n false) n [] where
  size_eq := Array.size_replicate
  getElem?_eq b hb := by simp [hb]

/-- Marking a block finds out whether it was seen. -/
theorem markOwned_cases (h : Marked owned n seen) {b : Link} (hb : b.toNat < n) :
    (b ∉ seen ∧ ∃ owned', markOwned owned b = .ok owned' ∧ Marked owned' n (seen ++ [b])) ∨
      (b ∈ seen ∧ markOwned owned b = .error (.corruptChain b)) := by
  have hg := h.getElem?_eq b hb
  by_cases hs : b ∈ seen
  · rw [decide_eq_true hs] at hg
    exact .inr ⟨hs, by simp only [markOwned, hg]⟩
  · rw [decide_eq_false hs] at hg
    refine .inl ⟨hs, _, by simp only [markOwned, hg]; rfl, ?_, fun c hc => ?_⟩
    · rw [Array.size_setIfInBounds, h.size_eq]
    · rw [Array.getElem?_setIfInBounds]
      by_cases hcb : b.toNat = c.toNat
      · obtain rfl := UInt16.toNat_inj.mp hcb
        simp [h.size_eq, hb]
      · have hne : c ≠ b := fun e => hcb (by rw [e])
        rw [if_neg hcb, h.getElem?_eq c hc]
        simp [hne]

/-- **Marking a list of distinct blocks succeeds exactly if none of them was seen.** -/
theorem foldlM_markOwned (h : Marked owned n seen) (hnd : blocks.Nodup)
    (hb : ∀ b ∈ blocks, b.toNat < n) :
    ((∀ b ∈ blocks, b ∉ seen) ∧
      ∃ owned', blocks.foldlM markOwned owned = .ok owned' ∧ Marked owned' n (seen ++ blocks)) ∨
    ∃ b ∈ blocks, b ∈ seen ∧ blocks.foldlM markOwned owned = .error (.corruptChain b) := by
  induction blocks generalizing owned seen with
  | nil => exact .inl ⟨by simp, owned, rfl, by rwa [List.append_nil]⟩
  | cons b bs ih =>
    obtain ⟨hb1, hbs⟩ := List.forall_mem_cons.mp hb
    obtain ⟨hn1, hnd'⟩ := List.nodup_cons.mp hnd
    rcases markOwned_cases h hb1 with ⟨hs, owned', ho, hm⟩ | ⟨hs, ho⟩
    · rcases ih hm hnd' hbs with ⟨hall, o, hf, hm'⟩ | ⟨c, hc, hcs, hf⟩
      · refine .inl ⟨List.forall_mem_cons.mpr ⟨hs, fun c hc hcs => ?_⟩, o, ?_, ?_⟩
        · exact hall c hc (List.mem_append_left _ hcs)
        · rw [List.foldlM_cons, ho]
          exact hf
        · rwa [List.append_assoc] at hm'
      · refine .inr ⟨c, List.mem_cons_of_mem _ hc, ?_, ?_⟩
        · rcases List.mem_append.mp hcs with h' | h'
          · exact h'
          · exact absurd (List.mem_singleton.mp h' ▸ hc) hn1
        · rw [List.foldlM_cons, ho]
          exact hf
    · refine .inr ⟨b, List.mem_cons_self .., hs, ?_⟩
      rw [List.foldlM_cons, ho]
      rfl

theorem chainFits_iff {blocks size : Nat} :
    chainFits blocks size = true ↔ blocks = ceilDiv size blockSize := by
  rw [chainFits, Bool.and_eq_true, decide_eq_true_eq, decide_eq_true_eq]
  simp only [ceilDiv, blockSize]
  omega

/-- **Checking one file** succeeds exactly if it has its blocks and none of them was seen. -/
theorem checkEntry_cases (v : Volume H) (e : Entry) (h : Marked owned v.table.size seen) :
    (∃ blocks owned', v.HasBlocks e blocks ∧ (∀ b ∈ blocks, b ∉ seen) ∧
      v.checkEntry owned e = .ok owned' ∧ Marked owned' v.table.size (seen ++ blocks)) ∨
    ((∀ blocks, v.HasBlocks e blocks → ∃ b ∈ blocks, b ∈ seen) ∧
      ∃ b, v.checkEntry owned e = .error (.corruptChain b)) := by
  cases hc : v.table.chain e.firstBlock with
  | error err =>
    obtain ⟨b, rfl⟩ := walk_eq_error hc
    refine .inr ⟨fun blocks hb => ?_, b, by simp only [checkEntry, hc]⟩
    rw [chain_eq_ok_iff.mpr hb.chain] at hc
    cases hc
  | ok chain =>
    have hchain := chain_eq_ok_iff.mp hc
    cases hf : chainFits chain.length e.size with
    | false =>
      refine .inr ⟨fun blocks hb => ?_, e.firstBlock, by simp [checkEntry, hc, hf]⟩
      have := chainFits_iff.mpr hb.length_eq
      rw [hb.chain.unique hchain, hf] at this
      cases this
    | true =>
      have hb : v.HasBlocks e chain := ⟨hchain, chainFits_iff.mp hf⟩
      have he : v.checkEntry owned e = chain.foldlM markOwned owned := by
        simp [checkEntry, hc, hf]
      rw [he]
      rcases foldlM_markOwned h hchain.nodup fun b hb => hchain.lt_size hb with
        ⟨hall, o, ho, hm⟩ | ⟨b, hbm, hbs, ho⟩
      · exact .inl ⟨chain, o, hb, hall, ho, hm⟩
      · exact .inr ⟨fun blocks hb' => ⟨b, hb'.unique hb ▸ hbm, hbs⟩, b, ho⟩

/-- The files of a list are sound, and none uses a block of `seen`. -/
structure Sound (v : Volume H) (seen : List Link) (files : List Entry) : Prop where
  hasBlocks : ∀ e ∈ files, ∃ blocks, v.HasBlocks e blocks ∧ ∀ b ∈ blocks, b ∉ seen
  disjoint : files.Pairwise fun e e' => ∀ blocks blocks',
    v.HasBlocks e blocks → v.HasBlocks e' blocks' → ∀ b ∈ blocks, b ∉ blocks'

theorem sound_cons_iff {e : Entry} {es : List Entry} (hb : v.HasBlocks e blocks) :
    Sound v seen (e :: es) ↔ (∀ b ∈ blocks, b ∉ seen) ∧ Sound v (seen ++ blocks) es := by
  constructor
  · intro h
    obtain ⟨⟨bs, hbs, hnot⟩, hes⟩ := List.forall_mem_cons.mp h.hasBlocks
    obtain ⟨hfirst, hrest⟩ := List.pairwise_cons.mp h.disjoint
    refine ⟨hb.unique hbs ▸ hnot, fun e' he' => ?_, hrest⟩
    obtain ⟨bs', hbs', hnot'⟩ := hes e' he'
    refine ⟨bs', hbs', fun b hm hm' => ?_⟩
    rcases List.mem_append.mp hm' with h' | h'
    · exact hnot' b hm h'
    · exact hfirst e' he' _ _ hb hbs' b h' hm
  · intro hq
    rcases hq with ⟨hnot, h⟩
    refine ⟨List.forall_mem_cons.mpr ⟨⟨blocks, hb, hnot⟩, fun e' he' => ?_⟩,
      List.pairwise_cons.mpr ⟨fun e' he' bs bs' hbs hbs' b hm hm' => ?_, h.disjoint⟩⟩
    · obtain ⟨bs', hbs', hnot'⟩ := h.hasBlocks e' he'
      exact ⟨bs', hbs', fun b hm hs => hnot' b hm (List.mem_append_left _ hs)⟩
    · obtain ⟨bs'', hbs'', hnot''⟩ := h.hasBlocks e' he'
      rw [hbs'.unique hbs''] at hm'
      rw [hbs.unique hb] at hm
      exact hnot'' b hm' (List.mem_append_right _ hm)

/-- **Checking the files one after the other** succeeds exactly if they are sound, and reports a
    corrupt chain otherwise. -/
theorem foldlM_checkEntry (v : Volume H) (files : List Entry)
    (h : Marked owned v.table.size seen) :
    (Sound v seen files ∧ ∃ owned', files.foldlM v.checkEntry owned = .ok owned') ∨
      (¬ Sound v seen files ∧
        ∃ b, files.foldlM v.checkEntry owned = .error (.corruptChain b)) := by
  induction files generalizing owned seen with
  | nil => exact .inl ⟨⟨by simp, .nil⟩, owned, rfl⟩
  | cons e es ih =>
    rw [List.foldlM_cons]
    rcases checkEntry_cases v e h with ⟨blocks, o, hb, hnot, ho, hm⟩ | ⟨hno, b, ho⟩
    · rw [ho, sound_cons_iff hb]
      rcases ih hm with ⟨hs, hok⟩ | ⟨hs, hbad⟩
      · exact .inl ⟨⟨hnot, hs⟩, hok⟩
      · exact .inr ⟨fun hs' => hs hs'.2, hbad⟩
    · refine .inr ⟨fun hs => ?_, b, by rw [ho]; rfl⟩
      obtain ⟨bs, hbs, hnot⟩ := hs.hasBlocks e (List.mem_cons_self ..)
      obtain ⟨c, hc, hcs⟩ := hno bs hbs
      exact hnot c hc hcs

theorem consistent_iff_sound : v.Consistent ↔ Sound v [] v.root.files := by
  constructor
  · intro h
    refine ⟨fun e he => ?_, h.disjoint⟩
    obtain ⟨blocks, hb, -⟩ := h.hasBlocks e he
    exact ⟨blocks, hb, fun b _ => List.not_mem_nil⟩
  · intro h
    refine ⟨fun e he => ?_, h.disjoint⟩
    obtain ⟨blocks, hb, -⟩ := h.hasBlocks e he
    exact ⟨blocks, hb, hb.chain.nodup⟩

/-- **`check` finds a volume consistent, or reports a corrupt chain;** there is no third. -/
theorem check_cases (v : Volume H) : (v.Consistent ∧ v.check = .ok ()) ∨
    (¬ v.Consistent ∧ ∃ b, v.check = .error (.corruptChain b)) := by
  rw [consistent_iff_sound]
  rcases foldlM_checkEntry v v.root.files (marked_nil v.table.size) with
    ⟨hs, o, ho⟩ | ⟨hs, b, ho⟩
  · exact .inl ⟨hs, by simp only [check, ho]⟩
  · exact .inr ⟨hs, b, by simp only [check, ho]⟩

/-- **`check` accepts exactly the consistent volumes.** -/
theorem check_eq_ok_iff : v.check = .ok () ↔ v.Consistent := by
  rcases check_cases v with ⟨hc, hok⟩ | ⟨hc, b, herr⟩
  · exact iff_of_true hok hc
  · rw [herr]
    exact iff_of_false nofun hc

end FlatVolume.Volume
