import FlatVolume.Proofs.Operations

/-!
# The calls an operation makes

What an operation asks of its device is said by letting every call write itself down. `Observed W` is
a world of type `W` and the calls made in it so far, each with its outcome. It is a device wherever
`W` is one, so every operation runs on it; and it takes the course it takes in `W` itself, answer for
answer and error for error (`Operation.run_observed`, `FileSystem.mount_observed`). This file fixes

* `Mirrors p x y` -- `y` does what `x` does, as seen through `p`;
* `WorldView q` -- the calls of devices are mirrored through `q`, as `Observed.world` does it; then so
  is every operation;
* `Operation.events`, `FileSystem.mountEvents` -- the calls of an operation and of a mount, in order.

Nothing is asked of the device: it may answer whatever it likes, and fail whenever it likes.
-/

namespace FlatVolume

open FlatVolume.Computation Mounted

/-! ## 1. Observed worlds -/

/-- A call and its outcome. -/
structure Event where
  call : Call
  /-- Why the call failed, if it did. -/
  failure : Option DeviceError
deriving DecidableEq, Repr

/-- A world and the calls made in it, the first one first. -/
structure Observed (W : Type) where
  world : W
  events : List Event

variable {W W' H α : Type}

/-- A call to a device, written down with its outcome. -/
def Observed.note (c : Call) (act : EStateM DeviceError W α) :
    EStateM DeviceError (Observed W) α := fun o =>
  match act o.world with
  | .ok a w => .ok a ⟨w, o.events ++ [⟨c, none⟩]⟩
  | .error e w => .error e ⟨w, o.events ++ [⟨c, some e⟩]⟩

instance [BlockDevice W H] : BlockDevice (Observed W) H where
  blockCount d o := BlockDevice.blockCount d o.world
  blockBytes d o := BlockDevice.blockBytes d o.world
  readBlock d i := Observed.note (.read i) (BlockDevice.readBlock d i)
  writeBlock d i b := Observed.note (.write i) (BlockDevice.writeBlock d i b)
  sync d := Observed.note .sync (BlockDevice.sync d)
  close d := Observed.note .close (BlockDevice.close d)

/-- The same volume, its world seen through `q`. -/
def Mounted.via (q : W' → W) (m : Mounted W' H) : Mounted W H := ⟨m.volume, q m.world⟩

/-- The same mount point, its world seen through `q`. -/
def FileSystem.via (q : W' → W) (fs : FileSystem W' H) : FileSystem W H := ⟨fs.mounted, q fs.world⟩

/-- The same volume, unobserved. -/
abbrev Mounted.unobserved : Mounted (Observed W) H → Mounted W H := via Observed.world

/-- The same mount point, unobserved. -/
abbrev FileSystem.unobserved : FileSystem (Observed W) H → FileSystem W H := via Observed.world

/-- The same mount point, observed from now on. -/
def FileSystem.observed (fs : FileSystem W H) : FileSystem (Observed W) H :=
  ⟨fs.mounted, ⟨fs.world, []⟩⟩

/-! ## 2. The same course -/

namespace Computation

variable {ε ε' σ τ β : Type} {p : σ → τ}

/-- The end of a computation, its state seen through `p`. -/
def mapState (p : σ → τ) : EStateM.Result ε σ α → EStateM.Result ε τ α
  | .ok a s => .ok a (p s)
  | .error e s => .error e (p s)

/-- **`y` does what `x` does,** as seen through `p`. -/
def Mirrors (p : σ → τ) (x : EStateM ε σ α) (y : EStateM ε τ α) : Prop :=
  ∀ s, y (p s) = mapState p (x s)

namespace Mirrors

variable {x : EStateM ε σ α} {y : EStateM ε τ α}

theorem pure (a : α) : Mirrors p (Pure.pure a : EStateM ε σ α) (Pure.pure a) := fun _ => rfl

theorem throw (e : ε) : Mirrors p (MonadExcept.throw e : EStateM ε σ α) (MonadExcept.throw e) :=
  fun _ => rfl

theorem bind (h : Mirrors p x y) {f : α → EStateM ε σ β} {g : α → EStateM ε τ β}
    (hf : ∀ a, Mirrors p (f a) (g a)) : Mirrors p (x >>= f) (y >>= g) := by
  intro s
  have hs := h s
  cases hx : x s with
  | ok a t =>
    rw [hx] at hs
    rw [bind_of_ok hx, bind_of_ok hs]
    exact hf a t
  | error e t =>
    rw [hx] at hs
    rw [bind_of_error hx, bind_of_error hs]
    rfl

/-- A computation that begins by looking at the state. -/
theorem get_bind {f : σ → EStateM ε σ β} {g : τ → EStateM ε τ β}
    (h : ∀ s, Mirrors p (f s) (g (p s))) : Mirrors p (get >>= f) (get >>= g) :=
  fun s => h s s

theorem map (h : Mirrors p x y) (f : α → β) : Mirrors p (f <$> x) (f <$> y) := by
  intro s
  show EStateM.map f y (p s) = mapState p (EStateM.map f x s)
  unfold EStateM.map
  rw [h s]
  cases x s <;> rfl

theorem discard (h : Mirrors p x y) : Mirrors p (Functor.discard x) (Functor.discard y) := h.map _

theorem adaptExcept (h : Mirrors p x y) (f : ε → ε') :
    Mirrors p (x.adaptExcept f) (y.adaptExcept f) := by
  intro s
  unfold EStateM.adaptExcept
  rw [h s]
  cases x s <;> rfl

theorem undoing (h : Mirrors p x y) {u : EStateM ε σ Unit} {v : EStateM ε τ Unit}
    (hu : Mirrors p u v) : Mirrors p (Computation.undoing x u) (Computation.undoing y v) := by
  intro s
  have hs := h s
  unfold Computation.undoing
  cases hx : x s with
  | ok a t =>
    rw [hx] at hs
    rw [hs]
    rfl
  | error e t =>
    rw [hx] at hs
    rw [hs]
    simp only [mapState, hu t]
    cases u t <;> rfl

theorem ite {c : Prop} [Decidable c] {x' : EStateM ε σ α} {y' : EStateM ε τ α} (h : Mirrors p x y)
    (h' : Mirrors p x' y') : Mirrors p (if c then x else x') (if c then y else y') := by
  split
  · exact h
  · exact h'

/-- What holds however `x` ends holds of the end of `y`, together with what only `x` shows. -/
theorem ends (h : Mirrors p x y) {s : σ} {γ : Type} {q : σ → γ} {P : α → τ → γ → Prop}
    {Q : ε → τ → γ → Prop}
    (hx : Ends x s (fun a t => P a (p t) (q t)) fun e t => Q e (p t) (q t)) :
    Ends y (p s) (fun a t => P a t (q (stateAfter x s))) fun e t => Q e t (q (stateAfter x s)) := by
  unfold Ends stateAfter at *
  rw [h s]
  cases hs : x s with
  | ok a t =>
    rw [hs] at hx
    exact hx
  | error e t =>
    rw [hs] at hx
    exact hx

end Mirrors

end Computation

/-! ## 3. The course that is seen -/

/-- **A view of worlds:** what a device does in a world, it does in what `q` shows of the world. -/
class WorldView [BlockDevice W' H] [BlockDevice W H] (q : W' → W) : Prop where
  blockCount_eq : ∀ (d : H) (w : W'), BlockDevice.blockCount d (q w) = BlockDevice.blockCount d w
  blockBytes_eq : ∀ (d : H) (w : W'), BlockDevice.blockBytes d (q w) = BlockDevice.blockBytes d w
  read : ∀ (d : H) (i : Nat), Mirrors q (BlockDevice.readBlock d i : EStateM DeviceError W' Block)
    (BlockDevice.readBlock d i)
  write : ∀ (d : H) (i : Nat) (b : Block),
    Mirrors q (BlockDevice.writeBlock d i b : EStateM DeviceError W' Unit)
      (BlockDevice.writeBlock d i b)
  sync : ∀ d : H, Mirrors q (BlockDevice.sync d : EStateM DeviceError W' Unit) (BlockDevice.sync d)
  close : ∀ d : H,
    Mirrors q (BlockDevice.close d : EStateM DeviceError W' Unit) (BlockDevice.close d)

theorem Observed.note_mirrors (c : Call) (act : EStateM DeviceError W α) :
    Mirrors Observed.world (note c act) act := by
  intro o
  unfold note
  cases act o.world <;> rfl

/-- What is observed shows the world in which it is. -/
instance [BlockDevice W H] : WorldView (Observed.world : Observed W → W) where
  blockCount_eq _ _ := rfl
  blockBytes_eq _ _ := rfl
  read _ _ := Observed.note_mirrors _ _
  write _ _ _ := Observed.note_mirrors _ _
  sync _ := Observed.note_mirrors _ _
  close _ := Observed.note_mirrors _ _

section Devices

variable [BlockDevice W' H] [BlockDevice W H] {q : W' → W} [WorldView q]

theorem loadBlock_mirrors (d : H) (i : Nat) :
    Mirrors q (loadBlock d i : VolumeM W' Block) (loadBlock d i) := (WorldView.read d i).adaptExcept _

theorem storeBlock_mirrors (d : H) (i : Nat) (b : Block) :
    Mirrors q (storeBlock d i b : VolumeM W' Unit) (storeBlock d i b) :=
  (WorldView.write d i b).adaptExcept _

theorem syncDevice_mirrors (d : H) :
    Mirrors q (syncDevice d : VolumeM W' Unit) (syncDevice d) := (WorldView.sync d).adaptExcept _

theorem closeDevice_mirrors (d : H) :
    Mirrors q (closeDevice d : VolumeM W' Unit) (closeDevice d) := (WorldView.close d).adaptExcept _

/-! ### Whole volumes -/

theorem Superblock.load_mirrors (d : H) :
    Mirrors q (load d : VolumeM W' Superblock) (load d) := by
  unfold load
  refine Mirrors.get_bind fun w => ?_
  rw [WorldView.blockBytes_eq]
  refine Mirrors.ite (.throw _) ((loadBlock_mirrors d 0).bind fun block => Mirrors.ite (.throw _) ?_)
  refine Mirrors.get_bind fun w' => ?_
  rw [WorldView.blockCount_eq]
  exact Mirrors.ite (.throw _) (.pure _)

theorem mapM_loadBlock_mirrors (d : H) (pos : Nat → Nat) (l : List Nat) :
    Mirrors q (l.mapM fun i => (loadBlock d (pos i) : VolumeM W' Block))
      (l.mapM fun i => loadBlock d (pos i)) := by
  induction l with
  | nil => exact .pure _
  | cons i l ih =>
    rw [List.mapM_cons, List.mapM_cons]
    exact (loadBlock_mirrors d _).bind fun b => ih.bind fun bs => .pure _

theorem AllocationTable.load_mirrors (d : H) (sb : Superblock) :
    Mirrors q (load d sb : VolumeM W' AllocationTable) (load d sb) :=
  (mapM_loadBlock_mirrors d _ _).bind fun _ => .pure _

theorem Directory.load_mirrors (d : H) (sb : Superblock) :
    Mirrors q (load d sb : VolumeM W' Directory) (load d sb) := by
  refine (loadBlock_mirrors d _).bind fun block => ?_
  cases decode block with
  | ok root => exact .pure root
  | error e => exact .throw e

theorem Volume.load_mirrors (d : H) :
    Mirrors q (load d : VolumeM W' (Volume H)) (load d) :=
  (Superblock.load_mirrors d).bind fun sb => (AllocationTable.load_mirrors d sb).bind fun _ =>
    (Directory.load_mirrors d sb).bind fun _ => .pure _

theorem forM_storeBlock_mirrors (d : H) (pos : Nat → Nat) (blk : Nat → Block) (l : List Nat) :
    Mirrors q
      (l.forM fun i => (storeBlock d (pos i) (blk i) : VolumeM W' Unit))
      (l.forM fun i => storeBlock d (pos i) (blk i)) := by
  induction l with
  | nil => exact .pure _
  | cons i l ih => exact (storeBlock_mirrors d _ _).bind fun _ => ih

theorem Volume.flush_mirrors (v : Volume H) :
    Mirrors q (v.flush : VolumeM W' Unit) v.flush :=
  (forM_storeBlock_mirrors v.device _ _ _).bind fun _ =>
    (storeBlock_mirrors v.device _ _).bind fun _ => syncDevice_mirrors v.device

/-! ### Data blocks -/

theorem Volume.loadData_mirrors (v : Volume H) (b : Link) :
    Mirrors q (v.loadData b : VolumeM W' Block) (v.loadData b) := by
  unfold loadData
  cases v.locate b with
  | ok i => exact loadBlock_mirrors v.device i
  | error e => exact .throw e

theorem Volume.loadSpans_mirrors (v : Volume H) (b : Link) (pieces : List Span) :
    Mirrors q (v.loadSpans b pieces : VolumeM W' (List ByteArray))
      (v.loadSpans b pieces) := by
  induction pieces generalizing b with
  | nil => exact .pure _
  | cons s rest ih =>
    cases rest with
    | nil => exact (v.loadData_mirrors b).bind fun _ => .pure _
    | cons s' rest =>
      refine (v.loadData_mirrors b).bind fun block => ?_
      cases v.table.next b with
      | ok following => exact (ih following).bind fun _ => .pure _
      | error e => exact .throw e

end Devices

namespace Mounted

variable {q : W' → W}

theorem getVolume_bind_mirrors {f : Volume H → MountedM W' H α}
    {g : Volume H → MountedM W H α} (h : ∀ v, Mirrors (via q) (f v) (g v)) :
    Mirrors (via q) (getVolume >>= f) (getVolume >>= g) := fun m => h m.volume m

theorem modifyVolume_mirrors (f : Volume H → Volume H) :
    Mirrors (via q) (modifyVolume f : MountedM W' H Unit) (modifyVolume f) :=
  fun _ => rfl

theorem lookup_mirrors (a : Except VolumeError α) :
    Mirrors (via q) (lookup a : MountedM W' H α) (lookup a) := by
  intro m
  unfold lookup
  cases a <;> rfl

theorem onTable_mirrors (act : VolumeM AllocationTable α) :
    Mirrors (via q) (onTable act : MountedM W' H α) (onTable act) := by
  intro m
  have hvolume : (via q m).volume = m.volume := rfl
  show onTable act (via q m) = mapState (via q) (onTable act m)
  unfold onTable
  rw [hvolume]
  cases act m.volume.table <;> rfl

theorem onDevice_mirrors {x : VolumeM W' α} {y : VolumeM W α}
    (h : Mirrors q x y) :
    Mirrors (via q) (onDevice x : MountedM W' H α) (onDevice y) := by
  intro m
  have hworld : (via q m).world = q m.world := rfl
  unfold onDevice
  rw [hworld, h m.world]
  cases x m.world <;> rfl

theorem linkLast_mirrors (slot : Slot) (chain : Array Link) (b : Link) :
    Mirrors (via q) (linkLast slot chain b : MountedM W' H Unit)
      (linkLast slot chain b) := by
  unfold linkLast
  cases chain.back? with
  | some last => exact onTable_mirrors _
  | none => exact modifyVolume_mirrors _

theorem unlinkLast_mirrors (slot : Slot) (chain : Array Link) :
    Mirrors (via q) (unlinkLast slot chain : MountedM W' H Unit)
      (unlinkLast slot chain) := by
  unfold unlinkLast
  cases chain.back? with
  | none => exact .pure _
  | some block =>
    cases chain.pop.back? with
    | some last => exact (onTable_mirrors _).discard.bind fun _ => (onTable_mirrors _).discard
    | none => exact (modifyVolume_mirrors _).bind fun _ => (onTable_mirrors _).discard

theorem truncate_mirrors (fd size : Nat) :
    Mirrors (via q) (truncate fd size : MountedM W' H Unit) (truncate fd size) := by
  refine getVolume_bind_mirrors fun v => (lookup_mirrors _).bind fun p => ?_
  obtain ⟨file, slot⟩ := p
  refine Mirrors.ite (.throw _) (Mirrors.bind ?_ fun released => (modifyVolume_mirrors _).bind
    fun _ => (modifyVolume_mirrors _).bind fun _ => (onTable_mirrors _).discard)
  unfold cutChain
  refine getVolume_bind_mirrors fun v => ?_
  cases ceilDiv size blockSize with
  | zero => exact (modifyVolume_mirrors _).bind fun _ => .pure _
  | succ k => exact (lookup_mirrors _).bind fun last => Mirrors.ite (onTable_mirrors _) (.throw _)

variable [BlockDevice W' H] [BlockDevice W H] [WorldView q]

theorem storeData_mirrors (b : Link) (blk : Block) :
    Mirrors (via q) (storeData b blk : MountedM W' H Unit) (storeData b blk) :=
  getVolume_bind_mirrors fun v => (lookup_mirrors _).bind fun i =>
    onDevice_mirrors (storeBlock_mirrors v.device i blk)

theorem overwrite_mirrors (b : Link) (s : Segment) :
    Mirrors (via q) (overwrite b s : MountedM W' H Unit) (overwrite b s) := by
  refine Mirrors.ite (getVolume_bind_mirrors fun v => ?_) (storeData_mirrors _ _)
  exact (onDevice_mirrors (v.loadData_mirrors b)).bind fun old => storeData_mirrors _ _

theorem storeSegment_mirrors (slot : Slot) (chain : Array Link) (s : Segment) :
    Mirrors (via q) (storeSegment slot chain s : MountedM W' H (Array Link))
      (storeSegment slot chain s) := by
  unfold storeSegment
  cases chain[s.index]? with
  | some b => exact (overwrite_mirrors b s).bind fun _ => .pure _
  | none =>
    refine (onTable_mirrors _).bind fun b => (linkLast_mirrors slot chain b).bind fun _ => ?_
    exact ((storeData_mirrors _ _).undoing (unlinkLast_mirrors _ _)).bind fun _ => .pure _

theorem storeSegments_mirrors (slot : Slot) (chain : Array Link) (segments : List Segment)
    (written : Nat) :
    Mirrors (via q)
      (storeSegments slot chain segments written : MountedM W' H Progress)
      (storeSegments slot chain segments written) := by
  induction segments generalizing chain written with
  | nil => exact .pure _
  | cons s rest ih =>
    intro m
    have hs : storeSegment slot chain s (via q m) = _ := storeSegment_mirrors slot chain s m
    unfold storeSegments
    rw [hs]
    cases storeSegment slot chain s m with
    | ok chain' m' => exact ih chain' _ m'
    | error e m' => rfl

theorem write_mirrors (fd : Nat) (data : ByteArray) :
    Mirrors (via q) (write fd data : MountedM W' H Nat) (write fd data) := by
  refine getVolume_bind_mirrors fun v => (lookup_mirrors _).bind fun p => ?_
  obtain ⟨file, slot⟩ := p
  refine Mirrors.ite (.pure _) ((lookup_mirrors _).bind fun chain => ?_)
  refine (storeSegments_mirrors _ _ _ _).bind fun progress => ?_
  obtain ⟨written, stopped⟩ := progress
  -- the answer is the same whether size and offset are entered before it or not
  refine Mirrors.ite ((modifyVolume_mirrors _).bind fun _ => (modifyVolume_mirrors _).bind
    fun _ => ?_) ?_
  all_goals
    cases stopped with
    | none => exact .pure _
    | some e => cases e <;> first | exact .throw _ | exact Mirrors.ite (.pure _) (.throw _)

theorem read_mirrors (fd count : Nat) :
    Mirrors (via q) (read fd count : MountedM W' H ByteArray) (read fd count) := by
  refine getVolume_bind_mirrors fun v => (lookup_mirrors _).bind fun p => ?_
  obtain ⟨file, slot⟩ := p
  refine Mirrors.ite (.pure _) ((lookup_mirrors _).bind fun first => ?_)
  refine (onDevice_mirrors (v.loadSpans_mirrors _ _)).bind fun parts => ?_
  exact (modifyVolume_mirrors _).bind fun _ => .pure _

end Mounted

namespace FileSystem

variable {q : W' → W}

theorem onVolume_mirrors {x : MountedM W' H α} {y : MountedM W H α}
    (h : Mirrors (Mounted.via q) x y) : Mirrors (via q) (onVolume x) (onVolume y) := by
  intro fs
  obtain ⟨_ | v, w⟩ := fs
  · rfl
  · have hv : y ⟨v, q w⟩ = mapState (Mounted.via q) (x ⟨v, w⟩) := h ⟨v, w⟩
    unfold onVolume via
    dsimp only
    rw [hv]
    cases x ⟨v, w⟩ <;> rfl

theorem query_mirrors (f : Volume H → Except VolumeError α) :
    Mirrors (via q) (query f : FileSystemM W' H α) (query f) :=
  onVolume_mirrors (getVolume_bind_mirrors fun _ => lookup_mirrors _)

theorem create_mirrors (name : String) :
    Mirrors (via q) (create name : FileSystemM W' H Unit) (create name) :=
  onVolume_mirrors (getVolume_bind_mirrors fun _ => (lookup_mirrors _).bind fun _ =>
    modifyVolume_mirrors _)

theorem delete_mirrors (name : String) :
    Mirrors (via q) (delete name : FileSystemM W' H Unit) (delete name) := by
  refine onVolume_mirrors (getVolume_bind_mirrors fun v => (lookup_mirrors _).bind fun _ => ?_)
  cases v.root.find? name with
  | none => exact .throw _
  | some slot =>
    exact Mirrors.ite (.throw _) ((modifyVolume_mirrors _).bind fun _ => (onTable_mirrors _).discard)

theorem openFile_mirrors (name : String) :
    Mirrors (via q) (openFile name : FileSystemM W' H Nat) (openFile name) := by
  refine onVolume_mirrors (getVolume_bind_mirrors fun v => (lookup_mirrors _).bind fun _ => ?_)
  exact Mirrors.ite (.throw _) ((lookup_mirrors _).bind fun _ => (modifyVolume_mirrors _).bind
    fun _ => .pure _)

theorem close_mirrors (fd : Nat) :
    Mirrors (via q) (close fd : FileSystemM W' H Unit) (close fd) :=
  onVolume_mirrors (getVolume_bind_mirrors fun _ => (lookup_mirrors _).bind fun _ =>
    modifyVolume_mirrors _)

theorem seek_mirrors (fd offset : Nat) :
    Mirrors (via q) (seek fd offset : FileSystemM W' H Unit) (seek fd offset) :=
  onVolume_mirrors (getVolume_bind_mirrors fun _ => (lookup_mirrors _).bind fun _ =>
    Mirrors.ite (.throw _) (modifyVolume_mirrors _))

variable [BlockDevice W' H] [BlockDevice W H] [WorldView q]

theorem mount_mirrors (d : H) :
    Mirrors (via q) (mount d : FileSystemM W' H Unit) (mount d) := by
  intro fs
  obtain ⟨_ | v, w⟩ := fs
  · have hl : Volume.load d (q w) = _ := Volume.load_mirrors d w
    unfold mount via
    dsimp only
    rw [hl]
    cases Volume.load d w <;> rfl
  · rfl

theorem unmount_mirrors :
    Mirrors (via q) (unmount : FileSystemM W' H Unit) unmount := by
  intro fs
  obtain ⟨_ | v, w⟩ := fs
  · rfl
  · have hf : v.flush (q w) = _ := v.flush_mirrors w
    unfold unmount via
    dsimp only
    rw [hf]
    cases v.flush w with
    | error e w' => rfl
    | ok u w' =>
      have hc : closeDevice v.device (q w') = _ := closeDevice_mirrors v.device w'
      dsimp only [mapState]
      rw [hc]
      cases closeDevice v.device w' <;> rfl

end FileSystem

section Runs

variable [BlockDevice W' H] [BlockDevice W H] {q : W' → W} [WorldView q]

theorem FileCall.run_mirrors (call : FileCall) :
    Mirrors (FileSystem.via q) (call.run : FileSystemM W' H Answer) call.run := by
  cases call with
  | create name => exact (FileSystem.create_mirrors name).map _
  | delete name => exact (FileSystem.delete_mirrors name).map _
  | list => exact (FileSystem.query_mirrors _).map _
  | openFile name => exact (FileSystem.openFile_mirrors name).map _
  | close fd => exact (FileSystem.close_mirrors fd).map _
  | stat fd => exact (FileSystem.query_mirrors _).map _
  | tell fd => exact (FileSystem.query_mirrors _).map _
  | seek fd offset => exact (FileSystem.seek_mirrors fd offset).map _
  | read fd count => exact (FileSystem.onVolume_mirrors (read_mirrors fd count)).map _
  | write fd data => exact (FileSystem.onVolume_mirrors (write_mirrors fd data)).map _
  | truncate fd size => exact (FileSystem.onVolume_mirrors (truncate_mirrors fd size)).map _

/-- **An operation takes the same course** whether its calls are written down or not. -/
theorem Operation.run_mirrors (op : Operation) :
    Mirrors (FileSystem.via q) (op.run : FileSystemM W' H Unit) op.run := by
  cases op with
  | file call => exact call.run_mirrors.discard
  | info => exact (FileSystem.query_mirrors _).discard
  | check => exact FileSystem.query_mirrors _
  | unmount => exact FileSystem.unmount_mirrors

/-! ## 4. The calls of an operation -/

/-- The calls that `op` makes on `fs`, in order. -/
def Operation.events (op : Operation) (fs : FileSystem W H) : List Event :=
  (stateAfter op.run fs.observed).world.events

/-- The calls that mounting `d` makes on `fs`, in order. -/
def FileSystem.mountEvents (d : H) (fs : FileSystem W H) : List Event :=
  (stateAfter (mount d) fs.observed).world.events

/-- What holds however an operation ends that is observed, holds of the operation itself and of the
    calls it makes. -/
theorem Operation.run_observed (op : Operation) {fs : FileSystem W H}
    {P : Unit → FileSystem W H → List Event → Prop}
    {Q : VolumeError → FileSystem W H → List Event → Prop}
    (h : Ends op.run fs.observed (fun a fs' => P a fs'.unobserved fs'.world.events)
      fun e fs' => Q e fs'.unobserved fs'.world.events) :
    Ends op.run fs (fun a fs' => P a fs' (op.events fs)) fun e fs' => Q e fs' (op.events fs) :=
  op.run_mirrors.ends h

theorem FileSystem.mount_observed {d : H} {fs : FileSystem W H}
    {P : Unit → FileSystem W H → List Event → Prop}
    {Q : VolumeError → FileSystem W H → List Event → Prop}
    (h : Ends (mount d) fs.observed (fun a fs' => P a fs'.unobserved fs'.world.events)
      fun e fs' => Q e fs'.unobserved fs'.world.events) :
    Ends (mount d) fs (fun a fs' => P a fs' (mountEvents d fs))
      fun e fs' => Q e fs' (mountEvents d fs) :=
  (mount_mirrors d).ends h

end Runs

end FlatVolume
