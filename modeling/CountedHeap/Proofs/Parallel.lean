/-
Two runs side by side

The same work is done twice, around two hosts that differ in ways that should not matter. A
`Likeness` says how far two states may differ: what the runtime itself reads and writes is the same
in both, the installed primitives and the hosts are related in some way. Two computations are alike
if they lead from such states to such states with the same value, or end both by the same fault.

What is alike may be put together, so two hosts have to be compared only call by call. Every
operation of the runtime is then alike around both of them.

* `Likeness`, `Likeness.Worlds`: how far two states may differ;
* `Likeness.Alike`: two computations, and how they are put together;
* `Likeness.Hosts`: two hosts, compared call by call;
* `Hosts.make`, `Hosts.release`: the operations around two such hosts.
-/
import Mathlib.Tactic.Lemma
import CountedHeap.Surface.Request
import CountedHeap.Settings

namespace CountedHeap

variable {σ τ α β : Type}

/-- How far two states may differ. -/
structure Likeness (σ τ : Type) where
  /-- what may be installed for counting -/
  incDec : IncDec → IncDec → Prop
  /-- what may be installed for comparing and swapping -/
  cas : CompareSwap → CompareSwap → Prop
  /-- the two hosts, each with the flag that says whether it is told what happens -/
  host : Bool → σ → Bool → τ → Prop
  /-- whether a panic may end the two runs -/
  panics : Prop

namespace Likeness

variable (T : Likeness σ τ)

/-- Two states that differ no further than that. -/
structure Worlds (w : World σ) (v : World τ) : Prop where
  memory : w.memory = v.memory
  heap : w.bindings.heap = v.bindings.heap
  shuttingDown : w.shuttingDown = v.shuttingDown
  stats : w.stats = v.stats
  interned : w.interned = v.interned
  boxes : w.boxes = v.boxes
  incDec : T.incDec w.bindings.incDec v.bindings.incDec
  cas : T.cas w.bindings.cas v.bindings.cas
  host : T.host w.tracing w.host v.tracing v.host

/-- The same value in two such states, or the same fault. -/
inductive Results : EStateM.Result Fault (World σ) α → EStateM.Result Fault (World τ) α → Prop
  | ok (a : α) {w : World σ} {v : World τ} : T.Worlds w v → Results (.ok a w) (.ok a v)
  | error (e : Fault) {w : World σ} {v : World τ} : (∀ p, e = .panic p → T.panics) →
      T.Worlds w v → Results (.error e w) (.error e v)

/-- Two computations that lead from such states to such states. -/
def Alike (x : Machine σ α) (y : Machine τ α) : Prop :=
  ∀ w v, T.Worlds w v → T.Results (x w) (y v)

variable {T}

/-! ### Putting computations together -/

namespace Alike

lemma pure (a : α) : T.Alike (pure a) (pure a) := fun _ _ h => .ok a h

lemma throw {e : Fault} (he : ∀ p, e = .panic p → T.panics) :
    T.Alike (throw e : Machine σ α) (throw e) := fun _ _ h => .error e he h

/-- Both states are changed, and differ no further. -/
lemma modify {f : World σ → World σ} {g : World τ → World τ}
    (h : ∀ w v, T.Worlds w v → T.Worlds (f w) (g v)) :
    T.Alike (modify f : Machine σ Unit) (modify g) := fun w v hw => .ok () (h w v hw)

lemma modifyGet {f : World σ → α × World σ} {g : World τ → α × World τ}
    (h : ∀ w v, T.Worlds w v → (f w).1 = (g v).1 ∧ T.Worlds (f w).2 (g v).2) :
    T.Alike (modifyGet f : Machine σ α) (modifyGet g) := by
  intro w v hw
  obtain ⟨hvalue, hworld⟩ := h w v hw
  show T.Results (.ok (f w).1 (f w).2) (.ok (g v).1 (g v).2)
  rw [hvalue]
  exact .ok _ hworld

/-- One after the other. -/
lemma bind {x : Machine σ α} {y : Machine τ α} {f : α → Machine σ β} {g : α → Machine τ β}
    (hx : T.Alike x y) (hf : ∀ a, T.Alike (f a) (g a)) : T.Alike (x >>= f) (y >>= g) := by
  intro w v hw
  have hend := hx w v hw
  rw [Machine.bind_apply, Machine.bind_apply]
  generalize x w = r at hend
  generalize y v = s at hend
  cases hend with
  | ok a h => exact hf a _ _ h
  | error e he h => exact .error e he h

/-- What is done depends on the state, in the same way on both sides. -/
lemma get_bind {f : World σ → Machine σ α} {g : World τ → Machine τ α}
    (h : ∀ w v, T.Worlds w v → T.Alike (f w) (g v)) :
    T.Alike (get >>= f : Machine σ α) (get >>= g) := by
  intro w v hw
  rw [Machine.bind_apply, Machine.bind_apply, Machine.get_apply, Machine.get_apply]
  exact h w v hw w v hw

/-- With a handler for faults. It need not expect panics where there are none. -/
lemma tryCatch {x : Machine σ α} {y : Machine τ α} {f : Fault → Machine σ α}
    {g : Fault → Machine τ α} (hx : T.Alike x y)
    (hf : ∀ e, (∀ p, e = .panic p → T.panics) → T.Alike (f e) (g e)) :
    T.Alike (tryCatch x f) (tryCatch y g) := by
  intro w v hw
  have hend := hx w v hw
  rw [Machine.tryCatch_apply, Machine.tryCatch_apply]
  generalize x w = r at hend
  generalize y v = s at hend
  cases hend with
  | ok a h => exact .ok a h
  | error e he h => exact hf e he _ _ h

/-- No panic gets out of a C function. -/
lemma withoutUnwinding {x : Machine σ α} {y : Machine τ α} (hx : T.Alike x y) :
    T.Alike (Machine.withoutUnwinding x) (Machine.withoutUnwinding y) := by
  refine hx.tryCatch fun e he => throw fun p hp => ?_
  cases e <;> cases hp

lemma ite {c : Prop} [Decidable c] {x x' : Machine σ α} {y y' : Machine τ α} (hx : T.Alike x y)
    (hx' : T.Alike x' y') : T.Alike (if c then x else x') (if c then y else y') := by
  split
  · exact hx
  · exact hx'

/-- Within attempts that may fail. -/
lemma lift {x : Machine σ α} {y : Machine τ α} (hx : T.Alike x y) :
    T.Alike (liftM x : Attempt σ α).run (liftM y : Attempt τ α).run :=
  hx.bind fun a => pure (Except.ok a)

/-- One attempt after the other, the second one only if the first succeeds. -/
lemma attempt_bind {x : Attempt σ α} {y : Attempt τ α} {f : α → Attempt σ β}
    {g : α → Attempt τ β} (hx : T.Alike x.run y.run) (hf : ∀ a, T.Alike (f a).run (g a).run) :
    T.Alike (x >>= f).run (y >>= g).run := by
  rw [ExceptT.run_bind, ExceptT.run_bind]
  refine hx.bind fun r => ?_
  cases r with
  | ok a => exact hf a
  | error e => exact pure _

lemma lift_bind {x : Machine σ α} {y : Machine τ α} {f : α → Attempt σ β} {g : α → Attempt τ β}
    (hx : T.Alike x y) (hf : ∀ a, T.Alike (f a).run (g a).run) :
    T.Alike ((liftM x : Attempt σ α) >>= f).run ((liftM y : Attempt τ α) >>= g).run :=
  hx.lift.attempt_bind hf

/-- An attempt that is made good for when it fails. -/
lemma attempt_catch {x : Attempt σ α} {y : Attempt τ α} {f : AllocError → Attempt σ α}
    {g : AllocError → Attempt τ α} (hx : T.Alike x.run y.run)
    (hf : ∀ e, T.Alike (f e).run (g e).run) :
    T.Alike (MonadExcept.tryCatch x f).run (MonadExcept.tryCatch y g).run := by
  rw [ExceptT.run_tryCatch, ExceptT.run_tryCatch]
  refine hx.bind fun r => ?_
  cases r with
  | ok a => exact pure _
  | error e => exact hf e

end Alike

/-! ### Words and bytes -/

/-- The same is written to both memories. -/
lemma Worlds.withMemory {w : World σ} {v : World τ} (h : T.Worlds w v) (f : Memory → Memory) :
    T.Worlds { w with memory := f w.memory } { v with memory := f v.memory } :=
  { h with memory := congrArg f h.memory }

/-- The same is done to the boxes of both. -/
lemma Worlds.withBoxes {w : World σ} {v : World τ} (h : T.Worlds w v) (f : Boxes → Boxes) :
    T.Worlds { w with boxes := f w.boxes } { v with boxes := f v.boxes } :=
  { h with boxes := congrArg f h.boxes }

namespace Alike

/-- Words and counters are the same in both states. -/
lemma read (c : Cell) : T.Alike (Machine.read c) (Machine.read c) := by
  refine get_bind fun w v h => ?_
  cases c with
  | word a =>
    show T.Alike (Pure.pure (w.memory.word a)) (Pure.pure (v.memory.word a))
    rw [h.memory]
    exact pure _
  | counter k =>
    show T.Alike (Pure.pure (w.stats.get k)) (Pure.pure (v.stats.get k))
    rw [h.stats]
    exact pure _

/-- They are set to the same. -/
lemma write (c : Cell) (x : Word) : T.Alike (Machine.write c x) (Machine.write c x) := by
  refine modify fun w v h => ?_
  cases c with
  | word a => exact h.withMemory fun m => m.setWord a x
  | counter k => exact { h with stats := congrArg (fun s => s.set x k) h.stats }

lemma load (a : Addr) : T.Alike (Machine.load a) (Machine.load a) := by
  refine get_bind fun w v h => ?_
  rw [h.memory]
  exact pure _

lemma store (a : Addr) (x : Word) : T.Alike (Machine.store a x) (Machine.store a x) :=
  modify fun _ _ h => h.withMemory fun m => m.setWord a x

lemma fill (a : Addr) (n : Word) (b : UInt8) : T.Alike (Machine.fill a n b) (Machine.fill a n b) :=
  modify fun _ _ h => h.withMemory fun m => m.fill a n.toNat b

/-- Both break the contract, which is no panic. -/
lemma violate (x : Violation) :
    T.Alike (Machine.violate x : Machine σ α) (Machine.violate x) := throw nofun

/-- What the primitives of one thread do, if nobody comes between. -/
lemma addTo (c : Cell) (n : Word) : T.Alike (addTo c n) (addTo c n) :=
  (read c).bind fun _ => (write c _).bind fun _ => pure _

/-- The same for comparing and swapping. -/
lemma swapIfEqual (slot : Addr) (expected new : Word) :
    T.Alike (swapIfEqual slot expected new) (swapIfEqual slot expected new) :=
  (load slot).bind fun _ => ite ((store slot new).bind fun _ => pure _) (pure _)

/-- A closure gets the same box in both states. -/
lemma boxClosure (closure : Nat) :
    T.Alike (Handle.boxClosure closure) (Handle.boxClosure closure) :=
  modifyGet fun _ _ h => ⟨congrArg (fun b => (b.make closure).1) h.boxes,
    h.withBoxes fun b => (b.make closure).2⟩

/-- The same closure is found in it. -/
lemma unboxClosure (box : Addr) : T.Alike (Handle.unboxClosure box) (Handle.unboxClosure box) :=
  modifyGet fun _ _ h => ⟨congrArg (fun b => b.find? box) h.boxes, h.withBoxes fun b => b.erase box⟩

/-- The kind of a handle is the same in both memories. -/
lemma kind (b : Handle) : T.Alike (Handle.kind b) (Handle.kind b) := by
  refine get_bind fun w v h => ?_
  rw [h.memory]
  exact pure _

/-- A count of zero stops both. -/
lemma checkLive (operation : String) (b : Handle) :
    T.Alike (Handle.checkLive operation b) (Handle.checkLive operation b) :=
  (read _).bind fun _ => ite (violate _) (pure _)

/-- So does a handle that cannot be resized. -/
lemma requireResizable (operation : String) (b : Handle) :
    T.Alike (Handle.requireResizable operation b) (Handle.requireResizable operation b) :=
  (kind b).bind fun _ => ite (violate _) (pure _)

/-- A handle gets the same payload in both. -/
lemma setPayload (b : Handle) (data : Addr) (size : Word) :
    T.Alike (Handle.setPayload b data size) (Handle.setPayload b data size) :=
  (store _ _).bind fun _ => store _ _

lemma refcount (b : Handle) : T.Alike (Handle.refcount b) (Handle.refcount b) :=
  ite (pure _) ((load _).bind fun _ => ite (pure _) (load _))

/-- A triple of functions becomes the same heap in both. -/
lemma internFunctions (f : HeapFunctions) :
    T.Alike (internFunctions f) (internFunctions f) :=
  modifyGet fun _ _ h => ⟨congrArg (fun r => (r.intern f).1) h.interned,
    { h with interned := congrArg (fun r => (r.intern f).2) h.interned }⟩

end Alike

/-! ### Two hosts -/

/-- Two allocators that serve alike. -/
structure Allocators (T : Likeness σ τ) (a : Allocator σ) (b : Allocator τ) : Prop where
  allocate : ∀ n, T.Alike (a.allocate n) (b.allocate n)
  reallocate : ∀ p n, T.Alike (a.reallocate p n) (b.reallocate p n)
  free : ∀ p, T.Alike (a.free p) (b.free p)

/-- Whoever serves alike does so for requests of at least one byte. -/
lemma Allocators.atLeastOne {a : Allocator σ} {b : Allocator τ} (hab : T.Allocators a b) :
    T.Allocators a.atLeastOne b.atLeastOne :=
  ⟨fun _ => hab.allocate _, fun _ _ => hab.reallocate _ _, hab.free⟩

/-- Two hosts whose answers to every call that the runtime makes are alike, under any two primitives
that may be installed. Triples of functions are asked for at least one byte. -/
structure Hosts (T : Likeness σ τ) (h : Host σ) (k : Host τ) : Prop where
  functions : ∀ f, T.Allocators (h.functions f).atLeastOne (k.functions f).atLeastOne
  object : ∀ a, T.Allocators (h.object a) (k.object a)
  external : ∀ a, h.external a = k.external a
  externalFunctions : ∀ e, T.Allocators (h.externalFunctions e) (k.externalFunctions e)
  destructor : ∀ fn data size info,
    T.Alike (h.destructor fn data size info) (k.destructor fn data size info)
  finalizer : ∀ fn data, T.Alike (h.finalizer fn data) (k.finalizer fn data)
  closure : ∀ c data size, T.Alike (h.closure c data size) (k.closure c data size)
  dropClosure : ∀ c, T.Alike (h.dropClosure c) (k.dropClosure c)
  increment : ∀ p q, T.incDec p q → ∀ c, T.Alike (p.increment h c) (q.increment k c)
  decrement : ∀ p q, T.incDec p q → ∀ c, T.Alike (p.decrement h c) (q.decrement k c)
  swap : ∀ p q, T.cas p q → ∀ slot expected new,
    T.Alike (p.run h slot expected new) (q.run k slot expected new)
  trace : ∀ t, T.Alike (h.trace t) (k.trace t)
  stub : T.incDec .stub .stub
  swapStub : T.cas .stub .stub

namespace Hosts

variable {h : Host σ} {k : Host τ} (H : T.Hosts h k)
include H

/-! ### Counting, comparing and swapping -/

/-- Counts go up by whatever is installed on each side. -/
lemma incremented (c : Cell) : T.Alike (CountedHeap.increment h c) (CountedHeap.increment k c) :=
  Alike.get_bind fun _ _ hw => H.increment _ _ hw.incDec c

/-- Counts go down by whatever is installed on each side. -/
lemma decremented (c : Cell) : T.Alike (CountedHeap.decrement h c) (CountedHeap.decrement k c) :=
  Alike.get_bind fun _ _ hw => H.decrement _ _ hw.incDec c

lemma count (x : Counter) : T.Alike (count h x) (count k x) :=
  (H.incremented _).bind fun _ => Alike.pure _

/-- Words are swapped by whatever is installed on each side. -/
lemma compareAndSwap (slot : Addr) (expected new : Word) :
    T.Alike (compareAndSwap h slot expected new) (compareAndSwap k slot expected new) :=
  Alike.get_bind fun _ _ hw => H.swap _ _ hw.cas slot expected new

/-! ### Storage -/

/-- Heaps of every kind serve alike. -/
lemma heapObject (o : HeapObject) : T.Allocators (o.allocator h) (o.allocator k) := by
  unfold HeapObject.allocator
  cases o.kind with
  | system => exact H.functions .libc
  | functions f => exact H.functions f
  | custom => exact H.object _

/-- The heap that is installed is the same in both states. -/
lemma defaultHeap : T.Allocators (defaultHeap h) (defaultHeap k) where
  allocate n := Alike.get_bind fun w v hw => by
    rw [hw.heap]
    exact (H.heapObject _).allocate n
  reallocate p n := Alike.get_bind fun w v hw => by
    rw [hw.heap]
    exact (H.heapObject _).reallocate p n
  free p := Alike.get_bind fun w v hw => by
    rw [hw.heap]
    exact (H.heapObject _).free p

/-- The sample allocator passes on what it is asked. -/
lemma sampleAllocator (token : Addr) :
    T.Allocators (ExternalAllocator.sampleAllocator h token)
      (ExternalAllocator.sampleAllocator k token) where
  allocate n := (Alike.ite (H.defaultHeap.allocate n) (Alike.pure _)).withoutUnwinding
  reallocate p n := (Alike.ite (H.defaultHeap.reallocate p n) (Alike.pure _)).withoutUnwinding
  free p := (H.defaultHeap.free p).withoutUnwinding

lemma externalAllocator (e : ExternalAllocator) :
    T.Allocators (e.allocator h) (e.allocator k) where
  allocate n :=
    Alike.ite ((H.sampleAllocator _).allocate n) ((H.externalFunctions e).allocate n)
  reallocate p n :=
    Alike.ite ((H.sampleAllocator _).reallocate p n) ((H.externalFunctions e).reallocate p n)
  free p := Alike.ite ((H.sampleAllocator _).free p) ((H.externalFunctions e).free p)

/-- The same allocator is meant by an address. -/
lemma lookup (ext : Addr) : ExternalAllocator.lookup h ext = ExternalAllocator.lookup k ext := by
  rw [ExternalAllocator.lookup, ExternalAllocator.lookup, H.external]

/-- So whoever a header names serves alike. -/
lemma allocatorAt (ext : Addr) : T.Allocators (allocatorAt h ext) (allocatorAt k ext) := by
  unfold CountedHeap.allocatorAt
  split
  · exact H.defaultHeap
  · rw [H.lookup]
    exact H.externalAllocator _

/-- A request for storage is granted in both, and counted, or in none. -/
lemma allocateFrom (ext : Addr) (n : Word) :
    T.Alike (Storage.allocateFrom h ext n).run (Storage.allocateFrom k ext n).run := by
  refine ((H.allocatorAt ext).allocate n).lift_bind fun p => ?_
  split
  · exact Alike.pure _
  · exact (H.count _).lift_bind fun _ => (H.trace _).lift_bind fun _ => Alike.pure _

lemma allocate (n : Word) : T.Alike (Storage.allocate h n).run (Storage.allocate k n).run :=
  H.allocateFrom 0 n

lemma reallocate (p : Addr) (n : Word) :
    T.Alike (Storage.reallocate h p n).run (Storage.reallocate k p n).run := by
  refine (H.defaultHeap.reallocate p n).lift_bind fun q => ?_
  split
  · exact Alike.pure _
  · exact Alike.pure _

/-- Storage goes back and is counted. -/
lemma free (p : Addr) : T.Alike (Storage.free h p) (Storage.free k p) := by
  refine Alike.ite ?_ (Alike.pure _)
  exact (H.trace _).bind fun _ => (H.defaultHeap.free p).bind fun _ => H.count _

/-- A block for a header and a payload behind it. -/
lemma allocateCombined (size : Word) (ext : Addr) :
    T.Alike (allocateCombined h size ext).run (allocateCombined k size ext).run := by
  unfold CountedHeap.allocateCombined
  split
  · exact Alike.pure _
  · exact (H.allocateFrom _ _).attempt_bind fun _ => Alike.pure _

/-- The same with the payload aligned. -/
lemma allocateCombinedAligned (size align : Word) (ext : Addr) :
    T.Alike (allocateCombinedAligned h size align ext).run
      (allocateCombinedAligned k size align ext).run := by
  unfold CountedHeap.allocateCombinedAligned
  simp only
  split
  · exact Alike.pure _
  · exact (H.allocateCombined _ _).attempt_bind fun _ => Alike.pure _

/-! ### Making handles -/

/-- A header is written and counted. -/
lemma initWith (b : Handle) (data : Addr) (size : Word) (destructor info ext : Addr) (kd : Kind) :
    T.Alike (Handle.initWith h b data size destructor info ext kd)
      (Handle.initWith k b data size destructor info ext kd) :=
  (Alike.modify fun _ _ hw => hw.withMemory fun m =>
    m.write b (Header.bytes ⟨1, destructor, info, data, size, ext, kd⟩)).bind fun _ =>
      (H.trace _).bind fun _ => H.count _

lemma new (data : Addr) (size : Word) (destructor info : Addr) :
    T.Alike (Handle.new h data size destructor info).run
      (Handle.new k data size destructor info).run :=
  (H.allocate _).attempt_bind fun _ => (H.trace _).lift_bind fun _ =>
    (H.initWith _ _ _ _ _ _ _).lift_bind fun _ => Alike.pure _

lemma ofCombined (c : Combined) (size : Word) (destructor info ext : Addr) :
    T.Alike (Handle.ofCombined h c size destructor info ext)
      (Handle.ofCombined k c size destructor info ext) :=
  (H.initWith _ _ _ _ _ _ _).bind fun _ => Alike.pure _

/-- Header and payload in one block. -/
lemma combined {x : Attempt σ Combined} {y : Attempt τ Combined} (hx : T.Alike x.run y.run)
    (t : Combined → Trace) (size : Word) (destructor info ext : Addr) :
    T.Alike
      (do let c ← x
          h.trace (t c)
          Handle.ofCombined h c size destructor info ext : Attempt σ Handle).run
      (do let c ← y
          k.trace (t c)
          Handle.ofCombined k c size destructor info ext : Attempt τ Handle).run :=
  hx.attempt_bind fun _ => (H.trace _).lift_bind fun _ => (H.ofCombined _ _ _ _ _).lift

/-- Header and payload in one block, with the payload poisoned. -/
lemma combined_poisoned {x : Attempt σ Combined} {y : Attempt τ Combined}
    (hx : T.Alike x.run y.run) (t : Combined → Trace) (size : Word) (destructor info ext : Addr) :
    T.Alike
      (do let c ← x
          (Machine.fill c.payload size Poison.fresh : Machine σ Unit)
          h.trace (t c)
          Handle.ofCombined h c size destructor info ext : Attempt σ Handle).run
      (do let c ← y
          (Machine.fill c.payload size Poison.fresh : Machine τ Unit)
          k.trace (t c)
          Handle.ofCombined k c size destructor info ext : Attempt τ Handle).run :=
  hx.attempt_bind fun _ => (Alike.fill _ _ _).lift_bind fun _ => (H.trace _).lift_bind fun _ =>
    (H.ofCombined _ _ _ _ _).lift

/-- Two requests, where the first block goes back if there is no second one. -/
lemma newResizableWith (size : Word) (finalizer : Addr) :
    T.Alike (Handle.newResizableWith h size finalizer).run
      (Handle.newResizableWith k size finalizer).run := by
  refine (H.allocate _).attempt_bind fun data => ?_
  refine ((H.allocate _).attempt_catch fun e => ?_).attempt_bind fun b => ?_
  · exact (H.free _).lift_bind fun _ => Alike.pure _
  · exact (H.initWith _ _ _ _ _ _ _).lift_bind fun _ => (H.trace _).lift_bind fun _ =>
      Alike.pure _

/-- A closure is boxed first, and unboxed and dropped if there is no block. -/
lemma allocClosure (size : Word) (closure : Nat) :
    T.Alike (Handle.allocClosure h size closure).run
      (Handle.allocClosure k size closure).run := by
  have halloc : T.Alike (Handle.alloc h size).run (Handle.alloc k size).run :=
    H.combined (H.allocateCombined _ _) (fun c => .payloadAllocated "alloc" c.payload) _ _ _ _
  refine (Alike.boxClosure closure).lift_bind fun box => ?_
  refine (halloc.attempt_catch fun e => ?_).attempt_bind fun b => ?_
  · refine (Alike.unboxClosure box).lift_bind fun c? => ?_
    cases c? with
    | none => exact Alike.pure _
    | some c => exact (H.dropClosure c).lift_bind fun _ => Alike.pure _
  · exact ((Alike.store _ _).bind fun _ => Alike.store _ _).lift_bind fun _ => Alike.pure _

/-- Every way to make a handle. -/
lemma make (r : Request) : T.Alike (r.make h).run (r.make k).run := by
  cases r with
  | new data size destructor info => exact H.new data size destructor info
  | alloc size =>
    exact H.combined (H.allocateCombined _ _) (fun c => .payloadAllocated "alloc" c.payload)
      _ _ _ _
  | allocExternal size ext =>
    exact H.combined (H.allocateCombined _ _)
      (fun c => .payloadAllocated "alloc_external" c.payload) _ _ _ _
  | allocSafe size =>
    exact H.combined_poisoned (H.allocateCombined _ _)
      (fun c => .payloadSized "alloc_dtor_safe" c.payload size) _ _ _ _
  | allocDestructor size destructor =>
    exact H.combined (H.allocateCombined _ _)
      (fun c => .payloadSized "alloc_dtor" c.payload size) _ _ _ _
  | allocDestructorSafe size destructor =>
    exact H.combined_poisoned (H.allocateCombined _ _)
      (fun c => .payloadSized "alloc_dtor_safe" c.payload size) _ _ _ _
  | allocAligned size align =>
    exact H.combined (H.allocateCombinedAligned _ _ _)
      (fun c => .payloadAllocated "alloc_aligned" c.payload) _ _ _ _
  | allocSafeAligned size align =>
    exact H.combined_poisoned (H.allocateCombinedAligned _ _ _)
      (fun c => .payloadSized "alloc_safe_aligned" c.payload size) _ _ _ _
  | allocSafeAlignedExternal size align ext =>
    exact H.combined_poisoned (H.allocateCombinedAligned _ _ _)
      (fun c => .payloadSized "alloc_safe_aligned" c.payload size) _ _ _ _
  | allocClosure size closure => exact H.allocClosure size closure
  | manage data finalizer => exact H.new _ _ _ _
  | newResizable size => exact H.newResizableWith size 0
  | newResizableWith size finalizer => exact H.newResizableWith size finalizer

/-! ### Using and ending handles -/

/-- A destructor of the caller's. -/
lemma runCustom (data : Addr) (size : Word) (info : Addr) :
    T.Alike (Adapter.runCustom h data size info) (Adapter.runCustom k data size info) :=
  (H.trace _).bind fun _ => Alike.ite (H.destructor _ _ _ _) (Alike.pure _)

/-- Every destructor that the runtime brings itself. -/
lemma adapter (a : Adapter) (data : Addr) (size : Word) (info : Addr) :
    T.Alike (a.run h data size info) (a.run k data size info) := by
  cases a with
  | custom => exact H.runCustom data size info
  | customSafe =>
    exact (H.trace _).bind fun _ => (H.runCustom data size info).bind fun _ => Alike.fill _ _ _
  | safe => exact (H.trace _).bind fun _ => Alike.fill _ _ _
  | managed => exact Alike.ite (H.finalizer _ _) (Alike.pure _)
  | boxed =>
    refine (Alike.unboxClosure info).bind fun c? => ?_
    cases c? with
    | none => exact Alike.pure _
    | some c => exact (H.closure _ _ _).bind fun _ => H.dropClosure _
  | resizable =>
    refine (H.trace _).bind fun _ => Alike.ite ?_ (Alike.pure _)
    exact Alike.ite ((H.finalizer _ _).bind fun _ => H.free _) (H.free _)

/-- A destructor, by its address. No panic gets out of it. -/
lemma callDestructorAt (fn data : Addr) (size : Word) (info : Addr) :
    T.Alike (callDestructorAt h fn data size info) (callDestructorAt k fn data size info) := by
  refine Alike.withoutUnwinding ?_
  cases Adapter.ofAddr? fn with
  | some a => exact H.adapter a data size info
  | none => exact H.destructor fn data size info

/-- The block of a handle goes back where it came from. -/
lemma dealloc (b : Handle) : T.Alike (Handle.dealloc h b) (Handle.dealloc k b) := by
  refine (Alike.load _).bind fun ext => (H.trace _).bind fun _ => ?_
  rw [H.lookup]
  exact Alike.ite (((H.externalAllocator _).free b).bind fun _ => H.count _) (H.free b)

lemma destroy (b : Handle) : T.Alike (Handle.destroy h b) (Handle.destroy k b) :=
  (H.dealloc b).bind fun _ => H.count _

/-- A handle ends. Both states know whether the runtime is shutting down. -/
lemma callDestructor (b : Handle) :
    T.Alike (Handle.callDestructor h b) (Handle.callDestructor k b) := by
  refine (H.trace _).bind fun _ => (Alike.load _).bind fun _ => (Alike.load _).bind fun _ =>
    (Alike.load _).bind fun _ => (Alike.load _).bind fun _ => Alike.ite ?_ (H.destroy b)
  refine Alike.get_bind fun w v hw => ?_
  rw [hw.shuttingDown]
  exact Alike.ite ((H.callDestructorAt _ _ _ _).bind fun _ => H.destroy b) (H.destroy b)

lemma acquire (b : Handle) : T.Alike (Handle.acquire h b) (Handle.acquire k b) :=
  (Alike.read _).bind fun _ => (H.trace _).bind fun _ => (Alike.checkLive _ b).bind fun _ =>
    (H.incremented _).bind fun _ => Alike.pure _

/-- A reference is given up, and with the last one the handle ends. -/
lemma release (b : Handle) : T.Alike (Handle.release h b) (Handle.release k b) :=
  (Alike.read _).bind fun _ => (H.trace _).bind fun _ => (Alike.checkLive _ b).bind fun _ =>
    (H.decremented _).bind fun _ => Alike.ite (H.callDestructor b) (Alike.pure _)

/-! ### Exchanging payloads -/

/-- A new payload is put in place. -/
lemma payloadReplaced (operation : String) (b : Handle) (size : Word) (data : Addr) :
    T.Alike
      (do (Handle.setPayload b data size : Machine σ Unit)
          h.trace (.payloadReplaced operation b size data)
          return data : Attempt σ Addr).run
      (do (Handle.setPayload b data size : Machine τ Unit)
          k.trace (.payloadReplaced operation b size data)
          return data : Attempt τ Addr).run :=
  (Alike.setPayload _ _ _).lift_bind fun _ => (H.trace _).lift_bind fun _ => Alike.pure _

lemma resizableAlloc (b : Handle) (size : Word) :
    T.Alike (Handle.resizableAlloc h b size).run (Handle.resizableAlloc k b size).run :=
  (Alike.requireResizable _ b).lift_bind fun _ => (H.allocate _).attempt_bind fun _ =>
    H.payloadReplaced _ _ _ _

/-- A payload is exchanged for one of another size. -/
lemma resizableRealloc (b : Handle) (size : Word) :
    T.Alike (Handle.resizableRealloc h b size).run (Handle.resizableRealloc k b size).run := by
  refine ((Alike.requireResizable _ b).bind fun _ => Alike.load _).lift_bind fun old => ?_
  show T.Alike (if old = 0 then _ else _ : Attempt σ Addr).run
    (if old = 0 then _ else _ : Attempt τ Addr).run
  split
  · exact (H.allocate _).attempt_bind fun _ => H.payloadReplaced _ _ _ _
  · exact (H.reallocate _ _).attempt_bind fun _ => H.payloadReplaced _ _ _ _

/-- A block is freed, and the handle has no payload any more if it was that. -/
lemma resizableFree (b : Handle) (p : Addr) :
    T.Alike (Handle.resizableFree h b p) (Handle.resizableFree k b p) :=
  (H.free p).bind fun _ => (Alike.load _).bind fun _ => Alike.ite (Alike.store _ _) (Alike.pure _)

/-! ### Configuration -/

/-- A heap is installed in both, or refused in both while something is out. -/
lemma setAllocator (o : HeapObject) : T.Alike (setAllocator h o) (setAllocator k o) := by
  have hset : T.Alike
      (do modify fun w => { w with bindings := { w.bindings with heap := o } }
          h.trace .allocatorSet)
      (do modify fun w => { w with bindings := { w.bindings with heap := o } }
          k.trace .allocatorSet) := by
    refine Alike.bind (Alike.modify fun w v hw => ?_) fun _ => H.trace _
    exact { hw with heap := rfl }
  refine Alike.get_bind fun w v hw => ?_
  rw [hw.heap, hw.stats]
  exact Alike.ite ((Alike.violate _).bind fun _ => hset) hset

omit H in
/-- Primitives are installed that may stand for each other. -/
lemma setIncDec {p q : IncDec} (hpq : T.incDec p q) :
    T.Alike (setIncDec p : Machine σ Unit) (setIncDec q) := by
  refine Alike.modify fun w v hw => ?_
  exact { hw with incDec := hpq }

omit H in
lemma setCompareSwap {p q : CompareSwap} (hpq : T.cas p q) :
    T.Alike (setCompareSwap p : Machine σ Unit) (setCompareSwap q) := by
  refine Alike.modify fun w v hw => ?_
  exact { hw with cas := hpq }

/-- The flag goes up, and the primitives of one thread are installed in both. -/
lemma shutDown : T.Alike (shutDown h) (shutDown k) := by
  refine Alike.bind (Alike.modify fun w v hw => ?_) fun _ => ?_
  · exact { hw with shuttingDown := rfl }
  · exact (setIncDec H.stub).bind fun _ => (setCompareSwap H.swapStub).bind fun _ => H.trace _

/-- Whatever was different before, both are as they were at first. -/
lemma start : T.Alike (start h) (start k) := by
  refine Alike.bind (Alike.modify fun w v hw => ?_) fun _ => H.trace _
  exact { hw with
    heap := rfl, shuttingDown := rfl, stats := rfl, incDec := H.stub, cas := H.swapStub }

end Hosts

end Likeness

end CountedHeap
