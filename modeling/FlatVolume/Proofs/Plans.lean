import FlatVolume.Proofs.Observation

/-!
# The calls of mounting and unmounting

Mounting reads block 0, the blocks of the table and the directory block, and unmounting writes them,
syncs and closes; both make their calls one after the other and stop at the first that fails.

* `Since P o o'` -- what was written down on the way from `o` to `o'` satisfies `P`;
* `Executed plan failed events` -- the calls of a plan were made in order, up to the one that failed;
* `Executes plan x` -- that is what `x` does, and the failure it met is the one it reports;
* `Volume.load_observed`, `FileSystem.unmount_observed` -- the plans of mounting and unmounting.

What is mounted is tidy whatever the device answers (`Volume.load_tidy`).
-/

namespace FlatVolume

open FlatVolume.Computation Mounted
open FileSystem (ofMounted)

variable {W H α β : Type}

/-! ## 1. Calls made in order -/

/-- How the failure `c` of a call is reported. -/
def Call.reported (c : DeviceError) : Call → VolumeError
  | .read i => .io i c
  | .write i => .io i c
  | .sync => .flushFailed (.device c)
  | .close => .flushFailed (.device c)

/-- What was written down on the way from `o` to `o'` satisfies `P`. -/
def Since (P : List Event → Prop) (o o' : Observed W) : Prop :=
  ∃ new, o'.events = o.events ++ new ∧ P new

section Since

variable {P Q R : List Event → Prop} {o o' o'' : Observed W}

theorem Since.refl (o : Observed W) (h : P []) : Since P o o := ⟨[], (List.append_nil _).symm, h⟩

theorem Since.trans (h : Since P o o') (h' : Since Q o' o'')
    (hR : ∀ a b, P a → Q b → R (a ++ b)) : Since R o o'' := by
  obtain ⟨a, ha, hP⟩ := h
  obtain ⟨b, hb, hQ⟩ := h'
  exact ⟨a ++ b, by rw [hb, ha, List.append_assoc], hR a b hP hQ⟩

theorem Since.mono (h : Since P o o') (hQ : ∀ a, P a → Q a) : Since Q o o' := by
  obtain ⟨a, ha, hP⟩ := h
  exact ⟨a, ha, hQ a hP⟩

/-- From the beginning on, everything was written down since. -/
theorem Since.events {w : W} (h : Since P ⟨w, []⟩ o') : P o'.events := by
  obtain ⟨a, ha, hP⟩ := h
  rw [ha]
  exact hP

end Since

/-- **The calls of `plan` were made in order** until all were made, or until one of them failed. -/
inductive Executed : (plan : List Call) → (failed : Option (Call × DeviceError)) → List Event → Prop
  where
  | done : Executed [] none []
  | failed (call : Call) (rest : List Call) (c : DeviceError) :
      Executed (call :: rest) (some (call, c)) [⟨call, some c⟩]
  | next {plan : List Call} {r : Option (Call × DeviceError)} {events : List Event} (call : Call)
      (h : Executed plan r events) : Executed (call :: plan) r (⟨call, none⟩ :: events)

namespace Executed

variable {plan plan' : List Call} {r : Option (Call × DeviceError)} {events events' : List Event}

/-- One plan after the other. -/
theorem append (h : Executed plan none events) (h' : Executed plan' r events') :
    Executed (plan ++ plan') r (events ++ events') := by
  generalize hn : (none : Option (Call × DeviceError)) = n at h
  induction h with
  | done => exact h'
  | failed call rest c => cases hn
  | next call _ ih => exact .next call (ih hn)

/-- After a failure nothing more is done. -/
theorem append_plan {f : Call × DeviceError} (h : Executed plan (some f) events)
    (plan' : List Call) : Executed (plan ++ plan') (some f) events := by
  generalize hn : some f = n at h
  induction h with
  | done => cases hn
  | failed call rest c => exact .failed call _ c
  | next call _ ih => exact .next call (ih hn)

/-- A failure was met in the first plan, or in the second when the first was done. -/
theorem append_cases {f : Call × DeviceError} (h : Executed (plan ++ plan') (some f) events) :
    Executed plan (some f) events ∨ ∃ a b, events = a ++ b ∧ Executed plan none a ∧
      Executed plan' (some f) b := by
  induction plan generalizing events with
  | nil => exact .inr ⟨[], events, rfl, .done, h⟩
  | cons call plan ih =>
    cases h with
    | failed _ _ c => exact .inl (.failed call plan c)
    | next _ h =>
      rcases ih h with h | ⟨a, b, rfl, ha, hb⟩
      · exact .inl (.next call h)
      · exact .inr ⟨_ :: a, b, rfl, .next call ha, hb⟩

/-- No call is made that is not next in the plan. -/
theorem isPrefix_calls (h : Executed plan r events) : events.map Event.call <+: plan := by
  induction h with
  | done => exact List.prefix_refl _
  | failed call rest c => exact ⟨rest, rfl⟩
  | next call _ ih => exact List.cons_prefix_cons.mpr ⟨rfl, ih⟩

/-- Where nothing failed, all of the plan was done. -/
theorem eq_of_none (h : Executed plan none events) : events = plan.map (Event.mk · none) := by
  generalize hn : (none : Option (Call × DeviceError)) = n at h
  induction h with
  | done => rfl
  | failed call rest c => cases hn
  | next call _ ih => rw [ih hn, List.map_cons]

/-- The failure that is reported was the last call, and the only one that failed. -/
theorem eq_of_some {call : Call} {c : DeviceError} (h : Executed plan (some (call, c)) events) :
    ∃ made rest, plan = made ++ call :: rest ∧
      events = made.map (Event.mk · none) ++ [⟨call, some c⟩] := by
  generalize hn : some (call, c) = n at h
  induction h with
  | done => cases hn
  | failed call' rest c' =>
    cases hn
    exact ⟨[], rest, rfl, rfl⟩
  | next call' _ ih =>
    obtain ⟨made, rest, hplan, hevents⟩ := ih hn
    exact ⟨call' :: made, rest, by rw [hplan, List.cons_append], by rw [hevents]; rfl⟩

theorem mem_of_some {call : Call} {c : DeviceError} (h : Executed plan (some (call, c)) events) :
    call ∈ plan := by
  obtain ⟨made, rest, hplan, -⟩ := h.eq_of_some
  rw [hplan]
  exact List.mem_append_right _ (List.mem_cons_self ..)

end Executed

/-- **`x` makes the calls of `plan` in order** and stops at the first that fails, which is what it
    then reports. -/
def Executes (plan : List Call) (x : VolumeM (Observed W) α) : Prop :=
  ∀ o, Ends x o (fun _ o' => Since (Executed plan none) o o')
    fun e o' => ∃ call c, e = call.reported c ∧ Since (Executed plan (some (call, c))) o o'

namespace Executes

variable {plan plan' : List Call}

theorem pure (a : α) : Executes [] (Pure.pure a : VolumeM (Observed W) α) :=
  fun o => Since.refl o .done

theorem bind {x : VolumeM (Observed W) α} {f : α → VolumeM (Observed W) β} (h : Executes plan x)
    (hf : ∀ a, Executes plan' (f a)) : Executes (plan ++ plan') (x >>= f) := by
  intro o
  refine Ends.bind ((h o).mono (fun a o' hok => ?_) fun e o' herr => ?_)
  · refine (hf a o').mono (fun _ _ h' => hok.trans h' fun _ _ => .append) fun e o'' herr => ?_
    obtain ⟨call, c, he, h'⟩ := herr
    exact ⟨call, c, he, hok.trans h' fun _ _ => .append⟩
  · obtain ⟨call, c, he, h'⟩ := herr
    exact ⟨call, c, he, h'.mono fun _ h => h.append_plan plan'⟩

/-- A call that is written down and whose failure is reported as such. -/
theorem note {act : EStateM DeviceError W α} {call : Call} {f : DeviceError → VolumeError}
    (hf : ∀ c, f c = call.reported c) :
    Executes [call] ((Observed.note call act).adaptExcept f) := by
  intro o
  refine Ends.adaptExcept ?_
  unfold Ends Observed.note
  cases act o.world with
  | ok a w => exact ⟨_, rfl, .next call .done⟩
  | error c w => exact ⟨call, c, hf c, _, rfl, .failed call [] c⟩

end Executes

section OnDevice

variable [BlockDevice W H]

theorem loadBlock_executes (d : H) (i : Nat) :
    Executes [.read i] (loadBlock d i : VolumeM (Observed W) Block) := Executes.note fun _ => rfl

theorem storeBlock_executes (d : H) (i : Nat) (b : Block) :
    Executes [.write i] (storeBlock d i b : VolumeM (Observed W) Unit) := Executes.note fun _ => rfl

theorem syncDevice_executes (d : H) :
    Executes [.sync] (syncDevice d : VolumeM (Observed W) Unit) := Executes.note fun _ => rfl

theorem closeDevice_executes (d : H) :
    Executes [.close] (closeDevice d : VolumeM (Observed W) Unit) := Executes.note fun _ => rfl

theorem mapM_loadBlock_executes (d : H) (pos : Nat → Nat) (l : List Nat) :
    Executes (l.map fun i => .read (pos i))
      (l.mapM fun i => (loadBlock d (pos i) : VolumeM (Observed W) Block)) := by
  induction l with
  | nil => exact .pure _
  | cons i l ih =>
    rw [List.mapM_cons, List.map_cons, ← List.singleton_append]
    refine (loadBlock_executes d _).bind fun b => ?_
    rw [← List.append_nil (l.map _)]
    exact ih.bind fun bs => .pure _

theorem forM_storeBlock_executes (d : H) (pos : Nat → Nat) (blk : Nat → Block) (l : List Nat) :
    Executes (l.map fun i => .write (pos i))
      (l.forM fun i => (storeBlock d (pos i) (blk i) : VolumeM (Observed W) Unit)) := by
  induction l with
  | nil => exact .pure _
  | cons i l ih => exact (storeBlock_executes d _ _).bind fun _ => ih

/-! ## 2. Unmounting -/

/-- The calls of a flush: the blocks of the table in ascending order, the directory block, a sync. -/
def Superblock.flushCalls (sb : Superblock) : List Call :=
  ((List.range sb.tableBlocks.toNat).map fun i => .write (sb.tableStart + i)) ++
    [.write sb.directoryBlock.toNat, .sync]

theorem Volume.flush_executes (v : Volume H) :
    Executes v.superblock.flushCalls (v.flush : VolumeM (Observed W) Unit) := by
  unfold flush Superblock.flushCalls
  exact (forM_storeBlock_executes v.device _ _ _).bind fun _ =>
    (storeBlock_executes v.device _ _).bind fun _ => syncDevice_executes v.device

/-- **Unmounting makes the calls of a flush, and then closes the device.** It stops at the first call
    that fails, and reports that one; the volume is let go of once the flush is done. -/
theorem FileSystem.unmount_observed (m : Mounted (Observed W) H) : Ends unmount (ofMounted m)
    (fun _ fs => fs.mounted = none ∧
      Since (Executed (m.volume.superblock.flushCalls ++ [.close]) none) m.world fs.world)
    (fun e fs => ∃ call c, e = (call.reported c).asFlushFailure ∧
      Since (Executed (m.volume.superblock.flushCalls ++ [.close]) (some (call, c)))
        m.world fs.world ∧
      fs.mounted = if call = .close then none else some m.volume) := by
  obtain ⟨hok, herr⟩ := ends_iff.mp (m.volume.flush_executes m.world)
  refine (unmount_ends m).mono ?_ ?_
  · intro _ fs hq
    rcases hq with ⟨o₁, o₂, hf, hc, rfl⟩
    have hclosed := (ends_iff.mp (closeDevice_executes m.volume.device o₁)).1 _ _ hc
    exact ⟨rfl, (hok _ _ hf).trans hclosed fun _ _ => .append⟩
  · intro e fs hq
    rcases hq with ⟨o₁, e', hf, rfl, rfl⟩ | ⟨o₁, o₂, hf, hc, rfl⟩
    · obtain ⟨call, c, rfl, hs⟩ := herr _ _ hf
      refine ⟨call, c, rfl, hs.mono fun _ h => h.append_plan _, ?_⟩
      -- no call of a flush closes the device
      obtain ⟨events, -, hex⟩ := hs
      have hmem := hex.mem_of_some
      have hne : call ≠ .close := by
        rintro rfl
        simp [Superblock.flushCalls] at hmem
      rw [if_neg hne]
      rfl
    · obtain ⟨call, c, rfl, hs⟩ := (ends_iff.mp (closeDevice_executes m.volume.device o₁)).2 _ _ hc
      have hsince := (hok _ _ hf).trans hs fun _ _ => Executed.append
      obtain ⟨events, -, hex⟩ := hs
      obtain rfl := List.mem_singleton.mp hex.mem_of_some
      exact ⟨.close, c, rfl, hsince, rfl⟩

/-- Unmounting a volume makes the calls of its layout, up to the one that fails. -/
theorem FileSystem.unmount_calls {fs : FileSystem W H} {v : Volume H} (hv : fs.mounted = some v) :
    Ends unmount fs
      (fun _ fs' => fs'.mounted = none ∧
        Executed (v.superblock.flushCalls ++ [.close]) none (Operation.unmount.events fs))
      (fun e fs' => ∃ call c, e = (call.reported c).asFlushFailure ∧
        Executed (v.superblock.flushCalls ++ [.close]) (some (call, c))
          (Operation.unmount.events fs) ∧
        fs'.mounted = if call = .close then none else some v) := by
  obtain ⟨_, w⟩ := fs
  cases hv
  refine Operation.run_observed (W := W) .unmount (P := fun _ fs' events => fs'.mounted = none ∧
      Executed (v.superblock.flushCalls ++ [.close]) none events)
    (Q := fun e fs' events => ∃ call c, e = (call.reported c).asFlushFailure ∧
      Executed (v.superblock.flushCalls ++ [.close]) (some (call, c)) events ∧
      fs'.mounted = if call = .close then none else some v) ?_
  refine (unmount_observed (⟨v, ⟨w, []⟩⟩ : Mounted (Observed W) H)).mono
    (fun _ _ h => ⟨h.1, h.2.events⟩) fun e fs' herr => ?_
  obtain ⟨call, c, he, hs, hm⟩ := herr
  exact ⟨call, c, he, hs.events, hm⟩

/-! ## 3. Mounting -/

/-- The calls of mounting: block 0, the blocks of the table in ascending order, the directory
    block. -/
def Superblock.loadCalls (sb : Superblock) : List Call :=
  .read 0 :: ((List.range sb.tableBlocks.toNat).map fun i => .read (sb.tableStart + i)) ++
    [.read sb.directoryBlock.toNat]

/-- The layout that was found in block 0 is that of the device. -/
def Found (d : H) (w : W) (sb : Superblock) : Prop :=
  ∃ b w', BlockDevice.readBlock d 0 w = .ok b w' ∧
    Superblock.forBlockCount? (BlockDevice.blockCount d w') = some sb

theorem Superblock.load_observed (d : H) (o : Observed W) : Ends (load d) o
    (fun sb o' => Found d o.world sb ∧ Since (Executed [.read 0] none) o o')
    (fun _ o' => Since (fun new => new.map Event.call <+: [.read 0]) o o') := by
  unfold load
  refine Ends.bind_ok (get_run o) ?_
  split
  · exact Since.refl o List.nil_prefix
  · have hread := loadBlock_executes d 0 o
    refine Ends.bind (ends_iff.mpr ⟨fun block o' hb => ?_, fun e o' hb => ?_⟩)
    · have hs := (ends_iff.mp hread).1 _ _ hb
      have hstop : Since (fun new => new.map Event.call <+: [.read 0]) o o' :=
        hs.mono fun _ h => h.isPrefix_calls
      dsimp only
      split
      · exact hstop
      · refine Ends.bind_ok (get_run o') ?_
        split
        · exact hstop
        · rename_i hfit
          refine ⟨?_, hs⟩
          -- the block that was read is what the device answered
          have hobs : BlockDevice.readBlock d 0 o = .ok block o' := adaptExcept_eq_ok_iff.mp hb
          have hplain : BlockDevice.readBlock d 0 o.world = mapState Observed.world
            (BlockDevice.readBlock d 0 o) := Observed.note_mirrors _ _ o
          rw [hobs] at hplain
          exact ⟨block, _, hplain, (Decidable.not_not.mp hfit).symm⟩
    · obtain ⟨call, c, -, hs⟩ := (ends_iff.mp hread).2 _ _ hb
      exact hs.mono fun _ h => h.isPrefix_calls

theorem AllocationTable.load_executes (d : H) (sb : Superblock) :
    Executes ((List.range sb.tableBlocks.toNat).map fun i => .read (sb.tableStart + i))
      (load d sb : VolumeM (Observed W) AllocationTable) := by
  unfold load
  rw [← List.append_nil (List.map _ _)]
  exact (mapM_loadBlock_executes d _ _).bind fun _ => .pure _

theorem Directory.load_observed (d : H) (sb : Superblock) (o : Observed W) : Ends (load d sb) o
    (fun _ o' => Since (Executed [.read sb.directoryBlock.toNat] none) o o')
    (fun _ o' => Since (fun new => new.map Event.call <+: [.read sb.directoryBlock.toNat]) o o') := by
  refine Ends.bind ((loadBlock_executes d _ o).mono (fun block o' hs => ?_) fun e o' herr => ?_)
  · cases decode block with
    | ok root => exact hs
    | error e => exact hs.mono fun _ h => h.isPrefix_calls
  · obtain ⟨call, c, -, hs⟩ := herr
    exact hs.mono fun _ h => h.isPrefix_calls

/-- Calls that begin a plan, made after those of the plan before it. -/
theorem Executed.isPrefix_append {plan plan' : List Call} {events events' : List Event}
    (h : Executed plan none events) (h' : events'.map Event.call <+: plan') :
    (events ++ events').map Event.call <+: plan ++ plan' := by
  have hcalls : events.map Event.call = plan := by
    rw [h.eq_of_none, List.map_map]
    exact List.map_id plan
  rw [List.map_append, hcalls]
  exact (List.prefix_append_right_inj plan).mpr h'

/-- Calls that mounting begins with: where block 0 told no layout, at most the read of it. -/
def LoadBegun (d : H) (w : W) (events : List Event) : Prop :=
  events.map Event.call <+: [.read 0] ∨
    ∃ sb, Found d w sb ∧ events.map Event.call <+: sb.loadCalls

/-- **Loading a volume makes the calls of its layout.** If it fails it has made the first of them. -/
theorem Volume.load_observed (d : H) (o : Observed W) : Ends (load d) o
    (fun v o' => v.device = d ∧ Found d o.world v.superblock ∧
      Since (Executed v.superblock.loadCalls none) o o')
    (fun _ o' => Since (LoadBegun d o.world) o o') := by
  refine Ends.bind ((Superblock.load_observed d o).mono (fun sb o₁ hok => ?_)
    fun _ _ h => h.mono fun _ => .inl)
  obtain ⟨hfound, h₁⟩ := hok
  refine Ends.bind ((AllocationTable.load_executes d sb o₁).mono (fun t o₂ h₂ => ?_)
    fun e o₂ herr => ?_)
  · have h₁₂ := h₁.trans h₂ fun _ _ => Executed.append
    refine Ends.bind ((Directory.load_observed d sb o₂).mono (fun root o₃ h₃ => ?_)
      fun e o₃ h₃ => ?_)
    · exact ⟨rfl, hfound, h₁₂.trans h₃ fun _ _ => Executed.append⟩
    · exact h₁₂.trans h₃ fun _ _ ha hb => .inr ⟨sb, hfound, ha.isPrefix_append hb⟩
  · obtain ⟨call, c, -, h₂⟩ := herr
    refine h₁.trans h₂ fun a b ha hb => .inr ⟨sb, hfound, ?_⟩
    have hb' := (hb.append_plan [.read sb.directoryBlock.toNat]).isPrefix_calls
    exact ha.isPrefix_append hb'

/-! ## 4. What is mounted -/

theorem mapM_loadBlock_length (d : H) (pos : Nat → Nat) (l : List Nat) (w : W) :
    Ends (l.mapM fun i => loadBlock d (pos i)) w (fun bs _ => bs.length = l.length)
      fun _ _ => True := by
  induction l generalizing w with
  | nil => exact rfl
  | cons i l ih =>
    rw [List.mapM_cons]
    refine Ends.bind (ends_iff.mpr ⟨fun b w' _ => ?_, fun _ _ _ => trivial⟩)
    refine Ends.bind ((ih w').mono (fun bs w'' hl => ?_) fun _ _ _ => trivial)
    show (b :: bs).length = _
    rw [List.length_cons, hl, List.length_cons]

/-- **A table has the size of its layout,** whatever stands in its blocks. -/
theorem AllocationTable.load_size {sb : Superblock} {n : Nat} (hl : Superblock.LaidOut sb n) (d : H)
    (w : W) : Ends (load d sb) w (fun t _ => t.size = sb.dataBlocks.toNat) fun _ _ => True := by
  refine Ends.bind ((mapM_loadBlock_length d _ _ w).mono (fun bs w' hbs => ?_) fun _ _ _ => trivial)
  have hlen : ∀ b : Block, b.links.size = linksPerBlock := fun b => Array.size_ofFn
  have hruns : (bs.toArray.flatMap Block.links).size = bs.length * linksPerBlock := by
    rw [List.flatMap_toArray, List.size_toArray, List.length_flatMap]
    simp only [Array.length_toList, hlen, List.map_const', List.sum_replicate_nat]
  show ((bs.toArray.flatMap Block.links).extract 0 sb.dataBlocks.toNat).size = _
  have ht := hl.geometry.table_eq
  rw [Array.size_extract, hruns, hbs, List.length_range, ht]
  simp only [ceilDiv, linksPerBlock, blockSize]
  omega

theorem Superblock.load_found (d : H) (w : W) : Ends (load d) w (fun sb _ => Found d w sb)
    fun _ _ => True :=
  Mirrors.ends (p := Observed.world) (load_mirrors d) (s := ⟨w, []⟩) (q := fun _ => ())
    (P := fun sb _ _ => Found d w sb) (Q := fun _ _ _ => True)
    ((load_observed d _).mono (fun _ _ h => h.1) fun _ _ _ => trivial)

/-- **What is mounted is tidy,** whatever the device answers. -/
theorem Volume.load_tidy (d : H) (w : W) :
    Ends (load d) w (fun v _ => v.Tidy) fun _ _ => True := by
  refine ends_iff.mpr ⟨fun v w' h => ?_, fun _ _ _ => trivial⟩
  unfold load at h
  obtain ⟨sb, w₁, hsb, h⟩ := bind_eq_ok_iff.mp h
  obtain ⟨t, w₂, ht, h⟩ := bind_eq_ok_iff.mp h
  obtain ⟨root, w₃, hr, h⟩ := bind_eq_ok_iff.mp h
  cases h
  obtain ⟨b, w'', -, hfit⟩ := (ends_iff.mp (Superblock.load_found d w)).1 sb w₁ hsb
  have hsize := (ends_iff.mp (AllocationTable.load_size
    (Superblock.laidOut_of_forBlockCount? hfit) d w₁)).1 t w₂ ht
  obtain ⟨block, hdecode⟩ : ∃ block, Directory.decode block = .ok root := by
    obtain ⟨block, w₃, -, hd⟩ := bind_eq_ok_iff.mp hr
    refine ⟨block, ?_⟩
    cases hdec : Directory.decode block with
    | ok root' =>
      rw [hdec] at hd
      cases hd
      rfl
    | error e =>
      rw [hdec] at hd
      cases hd
  refine ⟨⟨_, hfit⟩, hsize, fun s hs => ?_, fun s hs => ?_, fun {fd f} hf => ?_⟩
  · rcases Directory.valid_of_decode hdecode s with he | hv
    · exact he
    · rw [isFree_of_validName hv] at hs
      cases hs
  · rcases Directory.valid_of_decode hdecode s with he | hv
    · rw [he] at hs
      cases hs
    · exact hv
  · rw [OpenFiles.get?_empty] at hf
    cases hf

/-- What a mount of `d` from the world `w` has found, and the calls it has made, none of which
    failed. -/
structure MountedFrom (d : H) (w : W) (v : Volume H) (events : List Event) : Prop where
  device_eq : v.device = d
  tidy : v.Tidy
  found : Found d w v.superblock
  events_eq : events = v.superblock.loadCalls.map (Event.mk · none)

/-- **A mount that succeeds has made the calls of the layout of its volume.** One that fails changes
    nothing in memory and has made the first of them; where a volume is mounted already, it makes no
    call at all. -/
theorem FileSystem.mount_calls (d : H) (fs : FileSystem W H) : Ends (mount d) fs
    (fun _ fs' => fs.mounted = none ∧
      ∃ v, fs'.mounted = some v ∧ MountedFrom d fs.world v (mountEvents d fs))
    (fun _ fs' => fs'.mounted = fs.mounted ∧ (fs.isMounted → mountEvents d fs = []) ∧
      LoadBegun d fs.world (mountEvents d fs)) := by
  refine mount_observed (P := fun _ fs' events => fs.mounted = none ∧
      ∃ v, fs'.mounted = some v ∧ MountedFrom d fs.world v events)
    (Q := fun _ fs' events => fs'.mounted = fs.mounted ∧ (fs.isMounted → events = []) ∧
      LoadBegun d fs.world events) ?_
  obtain ⟨_ | v, w⟩ := fs
  · have hload := (Volume.load_observed d (⟨w, []⟩ : Observed W)).and (Volume.load_tidy d _)
    unfold Ends at hload ⊢
    unfold mount observed
    dsimp only
    cases hl : Volume.load d (⟨w, []⟩ : Observed W) with
    | ok v o =>
      rw [hl] at hload
      obtain ⟨⟨hd, hfound, hs⟩, ht⟩ := hload
      exact ⟨rfl, v, rfl, hd, ht, hfound, hs.events.eq_of_none⟩
    | error e o =>
      rw [hl] at hload
      exact ⟨rfl, nofun, hload.1.events⟩
  · exact ⟨rfl, fun _ => rfl, .inl List.nil_prefix⟩

/-- What was mounted, and the calls that mounting it took. -/
theorem FileSystem.mountedFrom_of_mount {d : H} {fs fs₀ : FileSystem W H}
    (hm : mount d fs = .ok () fs₀) :
    ∃ v, fs₀.mounted = some v ∧ MountedFrom d fs.world v (mountEvents d fs) :=
  ((ends_iff.mp (mount_calls d fs)).1 _ _ hm).2

end OnDevice

end FlatVolume
