/-
What lasts

Some things a run only ever adds to, such as the registry of interned triples, and some stay as they
are until the runtime is started afresh, such as the fact that it is shutting down. A property of
this kind looks at the history, the registry and the flag, and at nothing else. Whoever wants it of
a whole run has to look at the few steps that touch these; every other computation maintains it,
whatever the allocators answer, however it ends, and however deep it calls back.

* `Maintains`: a computation that maintains a property, whatever way it ends;
* `Lasting`: a property with all that has to be said about those few steps;
* `Lasting.make`, `Lasting.release`: so do the operations on handles;
* `Lasting.run`, `Lasting.session`: programs do, at every depth of nesting.
-/
import CountedHeap.Proofs.Requests

namespace CountedHeap

/-! ### Computations that maintain a property -/

/-- The state in which a computation ends, by a value or by a fault. -/
def Machine.after {σ α : Type} (x : Machine σ α) (w : World σ) : World σ :=
  match x w with
  | .ok _ w' => w'
  | .error _ w' => w'

/-- A panic that does not get past a C function leaves the same state behind. -/
lemma Machine.after_withoutUnwinding {σ α : Type} (x : Machine σ α) (w : World σ) :
    (withoutUnwinding x).after w = x.after w := by
  rw [after, after, withoutUnwinding_apply]
  cases x w <;> rfl

/-- The computation maintains the property `P`, whatever way it ends. -/
def Maintains {α : Type} (P : World History → Prop) (x : Machine History α) : Prop :=
  ∀ w, P w → P (Machine.after x w)

namespace Maintains

variable {α β : Type} {P : World History → Prop}

lemma pure (a : α) : Maintains P (pure a) := fun _ h => h

lemma get : Maintains P (get : Machine History (World History)) := fun _ h => h

lemma throw (e : Fault) : Maintains P (throw e : Machine History α) := fun _ h => h

lemma modify {f : World History → World History} (hf : ∀ w, P w → P (f w)) :
    Maintains P (modify f : Machine History Unit) := hf

lemma modifyGet {f : World History → α × World History} (hf : ∀ w, P w → P (f w).2) :
    Maintains P (modifyGet f : Machine History α) := hf

/-- One after the other. -/
lemma bind {x : Machine History α} {f : α → Machine History β} (hx : Maintains P x)
    (hf : ∀ a, Maintains P (f a)) : Maintains P (x >>= f) := by
  intro w hw
  have hend := hx w hw
  unfold Machine.after at hend ⊢
  rw [Machine.bind_apply]
  cases hrun : x w with
  | ok a w' =>
    rw [hrun] at hend
    exact hf a w' hend
  | error e w' =>
    rw [hrun] at hend
    exact hend

/-- So does a C function, through which a panic cannot unwind. -/
lemma withoutUnwinding {x : Machine History α} (hx : Maintains P x) :
    Maintains P (Machine.withoutUnwinding x) := fun w hw => by
  rw [Machine.after_withoutUnwinding]
  exact hx w hw

/-- Whatever is decided. -/
lemma ite {c : Prop} [Decidable c] {x y : Machine History α} (hx : Maintains P x)
    (hy : Maintains P y) : Maintains P (if c then x else y) := by
  split
  · exact hx
  · exact hy

/-- Within attempts that may fail. -/
lemma lift {x : Machine History α} (hx : Maintains P x) :
    Maintains P (liftM x : Attempt History α).run :=
  hx.bind fun a => pure (Except.ok a)

/-- One attempt after the other, the second one only if the first succeeds. -/
lemma attempt_bind {x : Attempt History α} {f : α → Attempt History β} (hx : Maintains P x.run)
    (hf : ∀ a, Maintains P (f a).run) : Maintains P (x >>= f).run := by
  rw [ExceptT.run_bind]
  refine hx.bind fun r => ?_
  cases r with
  | ok a => exact hf a
  | error e => exact pure _

lemma lift_bind {x : Machine History α} {f : α → Attempt History β} (hx : Maintains P x)
    (hf : ∀ a, Maintains P (f a).run) : Maintains P ((liftM x : Attempt History α) >>= f).run :=
  hx.lift.attempt_bind hf

/-- An attempt that is made good for when it fails. -/
lemma attempt_catch {x : Attempt History α} {f : AllocError → Attempt History α}
    (hx : Maintains P x.run) (hf : ∀ e, Maintains P (f e).run) :
    Maintains P (MonadExcept.tryCatch x f).run := by
  rw [ExceptT.run_tryCatch]
  refine hx.bind fun r => ?_
  cases r with
  | ok a => exact pure _
  | error e => exact hf e

end Maintains

/-- The allocator maintains the property, whatever it is asked for. -/
structure Allocator.Maintaining (P : World History → Prop) (a : Allocator History) : Prop where
  allocate : ∀ n, Maintains P (a.allocate n)
  reallocate : ∀ p n, Maintains P (a.reallocate p n)
  free : ∀ p, Maintains P (a.free p)

/-! ### Properties that last -/

/-- Events that tell neither of a fresh start nor of a state between two steps. -/
def Event.Inner : Event → Prop
  | .started | .boundary _ => False
  | _ => True

/-- A property of the history, the registry and the flag of shutting down, and what the steps that
touch them do to it. Between the two halves of a fresh start it may be lost for a moment. -/
structure Lasting (P : World History → Prop) : Prop where
  aside : ∀ (w : World History) (m : Memory) (β : Bindings) (st : Stats) (boxes : Boxes), P w →
    P { w with memory := m, bindings := β, stats := st, boxes := boxes }
  noted : ∀ (w : World History) (e : Event), e.Inner → P w → P (w.noted e)
  marked : ∀ w : World History, P w → P w.marked
  interned : ∀ (w : World History) (f : HeapFunctions), P w →
    P { w with interned := (w.interned.intern f).2 }
  down : ∀ w : World History, P w → P { w with shuttingDown := true }
  started : ∀ w : World History, P w → P (World.noted { w with shuttingDown := false } .started)

namespace Lasting

variable {P : World History → Prop} {E : Environment}
  {play : (World History → Program) → Machine History Unit}

/-! ### Words, counts and the trace -/

section Words

/-- Nothing that is written to memory matters. -/
lemma memory (hP : Lasting P) {w : World History} (m : Memory) (h : P w) :
    P { w with memory := m } := hP.aside w m w.bindings w.stats w.boxes h

/-- Nor does it matter what is installed. -/
lemma rebound (hP : Lasting P) {w : World History} (β : Bindings) (h : P w) :
    P { w with bindings := β } := hP.aside w w.memory β w.stats w.boxes h

/-- Nor do the boxes of closures. -/
lemma reboxed (hP : Lasting P) {w : World History} (boxes : Boxes) (h : P w) :
    P { w with boxes := boxes } := hP.aside w w.memory w.bindings w.stats boxes h

lemma read (c : Cell) : Maintains P (Machine.read c) :=
  Maintains.get.bind fun _ => by cases c <;> exact Maintains.pure _

lemma load (a : Addr) : Maintains P (Machine.load a) := fun _ h => h

/-- Lines of a trace are no events. -/
lemma trace (t : Trace) : Maintains P ((E.hostOver play).trace t) := by
  refine Maintains.modify fun w h => ?_
  split
  · exact h
  · exact h

/-- Words are written and counters set. -/
lemma write (hP : Lasting P) (c : Cell) (v : Word) : Maintains P (Machine.write c v) := by
  refine Maintains.modify fun w h => ?_
  cases c with
  | word a => exact hP.memory _ h
  | counter k => exact hP.aside w w.memory w.bindings _ w.boxes h

lemma store (hP : Lasting P) (a : Addr) (v : Word) : Maintains P (Machine.store a v) :=
  fun _ h => hP.memory _ h

lemma fill (hP : Lasting P) (a : Addr) (n : Word) (b : UInt8) :
    Maintains P (Machine.fill a n b) := fun _ h => hP.memory _ h

/-- A line of the history, of an event within a step. -/
lemma record (hP : Lasting P) {e : Event} (he : e.Inner) : Maintains P (record e) :=
  fun w h => hP.noted w e he h

lemma addTo (hP : Lasting P) (c : Cell) (n : Word) : Maintains P (addTo c n) :=
  (read c).bind fun _ => (hP.write c _).bind fun _ => Maintains.pure _

/-- Counts go up by whatever is installed. -/
lemma increment (hP : Lasting P) (c : Cell) : Maintains P (increment (E.hostOver play) c) := by
  refine Maintains.get.bind fun w => ?_
  cases hp : w.bindings.incDec with
  | stub => exact hP.addTo c _
  | native => exact hP.addTo c _
  | functions f => exact hP.addTo c _

/-- Counts go down by whatever is installed. -/
lemma decrement (hP : Lasting P) (c : Cell) : Maintains P (decrement (E.hostOver play) c) := by
  refine Maintains.get.bind fun w => ?_
  cases hp : w.bindings.incDec with
  | stub => exact hP.addTo c _
  | native => exact hP.addTo c _
  | functions f => exact hP.addTo c _

lemma count (hP : Lasting P) (k : Counter) : Maintains P (count (E.hostOver play) k) :=
  (hP.increment _).bind fun _ => Maintains.pure _

end Words

/-! ### Storage -/

section Storage

variable (hP : Lasting P)
include hP

/-- An allocator answers, and its answer is recorded. -/
lemma serve (s : World History → Source) : (E.serve s).Maintaining P where
  allocate _ := Maintains.modifyGet fun w h => hP.memory _ (hP.noted w _ (by trivial) h)
  reallocate _ _ := Maintains.modifyGet fun w h => hP.memory _ (hP.noted w _ (by trivial) h)
  free _ := Maintains.modify fun w h => hP.memory _ (hP.noted w _ (by trivial) h)

/-- So whatever is installed as default heap maintains the property. -/
lemma heapObject (o : HeapObject) : (o.allocator (E.hostOver play)).Maintaining P := by
  have hserve := hP.serve (E := E)
  unfold HeapObject.allocator
  cases o.kind with
  | system => exact ⟨fun n => (hserve _).allocate _, fun p n => (hserve _).reallocate p _,
      fun p => (hserve _).free p⟩
  | functions f => exact ⟨fun n => (hserve _).allocate _, fun p n => (hserve _).reallocate p _,
      fun p => (hserve _).free p⟩
  | custom => exact hserve _

lemma defaultHeap : (defaultHeap (E.hostOver play)).Maintaining P where
  allocate n := Maintains.get.bind fun w => (hP.heapObject w.bindings.heap).allocate n
  reallocate p n := Maintains.get.bind fun w => (hP.heapObject w.bindings.heap).reallocate p n
  free p := Maintains.get.bind fun w => (hP.heapObject w.bindings.heap).free p

/-- The sample allocator passes on what it is asked. -/
lemma sampleAllocator (token : Addr) :
    (ExternalAllocator.sampleAllocator (E.hostOver play) token).Maintaining P where
  allocate n := (Maintains.ite (hP.defaultHeap.allocate n) (Maintains.pure _)).withoutUnwinding
  reallocate p n :=
    (Maintains.ite (hP.defaultHeap.reallocate p n) (Maintains.pure _)).withoutUnwinding
  free p := (hP.defaultHeap.free p).withoutUnwinding

lemma externalAllocator (e : ExternalAllocator) :
    (e.allocator (E.hostOver play)).Maintaining P where
  allocate n := Maintains.ite ((hP.sampleAllocator _).allocate n) ((hP.serve _).allocate n)
  reallocate p n :=
    Maintains.ite ((hP.sampleAllocator _).reallocate p n) ((hP.serve _).reallocate p n)
  free p := Maintains.ite ((hP.sampleAllocator _).free p) ((hP.serve _).free p)

/-- So does whoever a header names. -/
lemma allocatorAt (ext : Addr) : (allocatorAt (E.hostOver play) ext).Maintaining P := by
  unfold CountedHeap.allocatorAt
  split
  · exact hP.defaultHeap
  · exact hP.externalAllocator _

/-- A request for storage is counted if it is granted. -/
lemma allocateFrom (ext : Addr) (n : Word) :
    Maintains P (Storage.allocateFrom (E.hostOver play) ext n).run := by
  refine ((hP.allocatorAt ext).allocate n).lift_bind fun p => ?_
  split
  · exact Maintains.pure _
  · exact (hP.count _).lift_bind fun _ => (trace _).lift_bind fun _ => Maintains.pure _

lemma allocate (n : Word) : Maintains P (Storage.allocate (E.hostOver play) n).run :=
  hP.allocateFrom 0 n

lemma reallocate (p : Addr) (n : Word) :
    Maintains P (Storage.reallocate (E.hostOver play) p n).run := by
  refine (hP.defaultHeap.reallocate p n).lift_bind fun q => ?_
  split
  · exact Maintains.pure _
  · exact Maintains.pure _

/-- Storage goes back and is counted. -/
lemma free (p : Addr) : Maintains P (Storage.free (E.hostOver play) p) := by
  refine Maintains.ite ?_ (Maintains.pure _)
  exact (trace _).bind fun _ => (hP.defaultHeap.free p).bind fun _ => hP.count _

/-- A block for a header and a payload behind it. -/
lemma allocateCombined (size ext : Word) :
    Maintains P (allocateCombined (E.hostOver play) size ext).run := by
  unfold CountedHeap.allocateCombined
  split
  · exact Maintains.pure _
  · exact (hP.allocateFrom _ _).attempt_bind fun _ => Maintains.pure _

/-- The same with the payload aligned. -/
lemma allocateCombinedAligned (size align ext : Word) :
    Maintains P (allocateCombinedAligned (E.hostOver play) size align ext).run := by
  unfold CountedHeap.allocateCombinedAligned
  simp only
  split
  · exact Maintains.pure _
  · exact (hP.allocateCombined _ _).attempt_bind fun _ => Maintains.pure _

end Storage

/-! ### Making handles -/

section Making

variable (hP : Lasting P)
include hP

/-- A header is written and counted. -/
lemma initWith (b : Handle) (data : Addr) (size : Word) (destructor info ext : Addr)
    (kind : Kind) :
    Maintains P (Handle.initWith (E.hostOver play) b data size destructor info ext kind) :=
  (Maintains.modify fun _ h => hP.memory _ h).bind fun _ => (trace _).bind fun _ => hP.count _

lemma new (data : Addr) (size : Word) (destructor info : Addr) :
    Maintains P (Handle.new (E.hostOver play) data size destructor info).run :=
  (hP.allocate _).attempt_bind fun _ => (trace _).lift_bind fun _ =>
    (hP.initWith _ _ _ _ _ _ _).lift_bind fun _ => Maintains.pure _

lemma ofCombined (c : Combined) (size : Word) (destructor info ext : Addr) :
    Maintains P (Handle.ofCombined (E.hostOver play) c size destructor info ext) :=
  (hP.initWith _ _ _ _ _ _ _).bind fun _ => Maintains.pure _

/-- Header and payload in one block. -/
lemma combined {x : Attempt History Combined} (hx : Maintains P x.run) (t : Combined → Trace)
    (size : Word) (destructor info ext : Addr) :
    Maintains P (do
      let c ← x
      (E.hostOver play).trace (t c)
      Handle.ofCombined (E.hostOver play) c size destructor info ext :
      Attempt History Handle).run :=
  hx.attempt_bind fun _ => (trace _).lift_bind fun _ => (hP.ofCombined _ _ _ _ _).lift

/-- Header and payload in one block, with the payload poisoned. -/
lemma combined_poisoned {x : Attempt History Combined} (hx : Maintains P x.run)
    (t : Combined → Trace) (size : Word) (destructor info ext : Addr) :
    Maintains P (do
      let c ← x
      (Machine.fill c.payload size Poison.fresh : Machine History Unit)
      (E.hostOver play).trace (t c)
      Handle.ofCombined (E.hostOver play) c size destructor info ext :
      Attempt History Handle).run :=
  hx.attempt_bind fun _ => (hP.fill _ _ _).lift_bind fun _ => (trace _).lift_bind fun _ =>
    (hP.ofCombined _ _ _ _ _).lift

/-- Two requests, where the first block goes back if there is no second one. -/
lemma newResizableWith (size : Word) (finalizer : Addr) :
    Maintains P (Handle.newResizableWith (E.hostOver play) size finalizer).run := by
  refine (hP.allocate _).attempt_bind fun data => ?_
  refine ((hP.allocate _).attempt_catch fun e => ?_).attempt_bind fun b => ?_
  · exact (hP.free _).lift_bind fun _ => Maintains.pure _
  · exact (hP.initWith _ _ _ _ _ _ _).lift_bind fun _ => (trace _).lift_bind fun _ =>
      Maintains.pure _

end Making

/-! ### Calling back -/

section Calling

variable (hP : Lasting P) (hplay : ∀ p, Maintains P (play p))
include hP hplay

/-- A program that is called from inside, after a line in the history. -/
lemma callback {e : Event} (he : e.Inner) (p : World History → Program) :
    Maintains P (do CountedHeap.record e; play p) := (hP.record he).bind fun _ => hplay p

/-- A closure is boxed first, and unboxed and dropped if there is no block. -/
lemma allocClosure (size : Word) (closure : Nat) :
    Maintains P (Handle.allocClosure (E.hostOver play) size closure).run := by
  have hbox : Maintains P (Handle.boxClosure closure) := fun w h =>
    hP.reboxed (w.boxes.make closure).2 h
  refine hbox.lift_bind fun box => ?_
  have halloc : Maintains P (Handle.alloc (E.hostOver play) size).run :=
    hP.combined (hP.allocateCombined _ _) (fun c => .payloadAllocated "alloc" c.payload) _ _ _ _
  refine (halloc.attempt_catch fun e => ?_).attempt_bind fun b => ?_
  · have hunbox : Maintains P (Handle.unboxClosure box) := fun w h =>
      hP.reboxed (w.boxes.erase box) h
    refine hunbox.lift_bind fun c? => ?_
    cases c? with
    | none => exact Maintains.pure _
    | some c => exact (hP.callback hplay (by trivial) _).lift_bind fun _ => Maintains.pure _
  · exact ((hP.store _ _).bind fun _ => hP.store _ _).lift_bind fun _ => Maintains.pure _

/-- Every way to make a handle. -/
lemma make (r : Request) : Maintains P (r.make (E.hostOver play)).run := by
  cases r with
  | new data size destructor info => exact hP.new data size destructor info
  | alloc size =>
    exact hP.combined (hP.allocateCombined _ _) (fun c => .payloadAllocated "alloc" c.payload)
      _ _ _ _
  | allocExternal size ext =>
    exact hP.combined (hP.allocateCombined _ _)
      (fun c => .payloadAllocated "alloc_external" c.payload) _ _ _ _
  | allocSafe size =>
    exact hP.combined_poisoned (hP.allocateCombined _ _)
      (fun c => .payloadSized "alloc_dtor_safe" c.payload size) _ _ _ _
  | allocDestructor size destructor =>
    exact hP.combined (hP.allocateCombined _ _)
      (fun c => .payloadSized "alloc_dtor" c.payload size) _ _ _ _
  | allocDestructorSafe size destructor =>
    exact hP.combined_poisoned (hP.allocateCombined _ _)
      (fun c => .payloadSized "alloc_dtor_safe" c.payload size) _ _ _ _
  | allocAligned size align =>
    exact hP.combined (hP.allocateCombinedAligned _ _ _)
      (fun c => .payloadAllocated "alloc_aligned" c.payload) _ _ _ _
  | allocSafeAligned size align =>
    exact hP.combined_poisoned (hP.allocateCombinedAligned _ _ _)
      (fun c => .payloadSized "alloc_safe_aligned" c.payload size) _ _ _ _
  | allocSafeAlignedExternal size align ext =>
    exact hP.combined_poisoned (hP.allocateCombinedAligned _ _ _)
      (fun c => .payloadSized "alloc_safe_aligned" c.payload size) _ _ _ _
  | allocClosure size closure => exact hP.allocClosure hplay size closure
  | manage data finalizer => exact hP.new _ _ _ _
  | newResizable size => exact hP.newResizableWith size 0
  | newResizableWith size finalizer => exact hP.newResizableWith size finalizer

/-- A destructor of the caller's. -/
lemma runCustom (data : Addr) (size : Word) (info : Addr) :
    Maintains P (Adapter.runCustom (E.hostOver play) data size info) := by
  refine (trace _).bind fun _ => Maintains.ite ?_ (Maintains.pure _)
  exact hP.callback hplay (by trivial) _

/-- Every destructor that the runtime brings itself. -/
lemma adapter (a : Adapter) (data : Addr) (size : Word) (info : Addr) :
    Maintains P (a.run (E.hostOver play) data size info) := by
  have hfinalizer : Maintains P ((E.hostOver play).finalizer info data) :=
    hP.callback hplay (by trivial) _
  cases a with
  | custom => exact hP.runCustom hplay data size info
  | customSafe =>
    exact (trace _).bind fun _ => (hP.runCustom hplay data size info).bind fun _ => hP.fill _ _ _
  | safe => exact (trace _).bind fun _ => hP.fill _ _ _
  | managed => exact Maintains.ite hfinalizer (Maintains.pure _)
  | boxed =>
    have hunbox : Maintains P (Handle.unboxClosure info) := fun w h =>
      hP.reboxed (w.boxes.erase info) h
    refine hunbox.bind fun c? => ?_
    cases c? with
    | none => exact Maintains.pure _
    | some c =>
      exact (hP.callback hplay (by trivial) _).bind fun _ => hP.callback hplay (by trivial) _
  | resizable =>
    refine (trace _).bind fun _ => Maintains.ite ?_ (Maintains.pure _)
    show Maintains P (if info ≠ 0 then _ else _)
    exact Maintains.ite (hfinalizer.bind fun _ => hP.free _) (hP.free _)

/-- A destructor, by its address. No panic gets out of it. -/
lemma callDestructorAt (fn data : Addr) (size : Word) (info : Addr) :
    Maintains P (callDestructorAt (E.hostOver play) fn data size info) := by
  refine Maintains.withoutUnwinding ?_
  cases Adapter.ofAddr? fn with
  | some a => exact hP.adapter hplay a data size info
  | none => exact hP.callback hplay (by trivial) _

omit hplay in
/-- The block of a handle goes back where it came from. -/
lemma dealloc (b : Handle) : Maintains P (Handle.dealloc (E.hostOver play) b) := by
  refine (load _).bind fun ext => (trace _).bind fun _ => Maintains.ite ?_ (hP.free _)
  exact ((hP.externalAllocator _).free b).bind fun _ => hP.count _

omit hplay in
lemma destroy (b : Handle) : Maintains P (Handle.destroy (E.hostOver play) b) :=
  (hP.dealloc b).bind fun _ => hP.count _

/-- A handle ends. -/
lemma callDestructor (b : Handle) : Maintains P (Handle.callDestructor (E.hostOver play) b) := by
  refine (trace _).bind fun _ => (load _).bind fun _ => (load _).bind fun _ =>
    (load _).bind fun _ => (load _).bind fun _ => Maintains.ite ?_ (hP.destroy b)
  refine Maintains.get.bind fun _ => Maintains.ite ?_ (hP.destroy b)
  exact (hP.callDestructorAt hplay _ _ _ _).bind fun _ => hP.destroy b

omit hP hplay in
lemma checkLive (operation : String) (b : Handle) : Maintains P (Handle.checkLive operation b) :=
  (read _).bind fun _ => Maintains.ite (Maintains.throw _) (Maintains.pure _)

omit hplay in
lemma acquire (b : Handle) : Maintains P (Handle.acquire (E.hostOver play) b) :=
  (read _).bind fun _ => (trace _).bind fun _ => (checkLive _ b).bind fun _ =>
    (hP.increment _).bind fun _ => Maintains.pure _

/-- A reference is given up, and with the last one the handle ends. -/
lemma release (b : Handle) : Maintains P (Handle.release (E.hostOver play) b) := by
  refine (read _).bind fun _ => (trace _).bind fun _ => (checkLive _ b).bind fun _ =>
    (hP.decrement _).bind fun _ => Maintains.ite ?_ (Maintains.pure _)
  exact hP.callDestructor hplay b

end Calling

/-! ### Payloads and configuration -/

section Configuration

variable (hP : Lasting P)

lemma requireResizable (operation : String) (b : Handle) :
    Maintains P (Handle.requireResizable operation b) := by
  have hkind : Maintains P (Handle.kind b) := fun _ h => h
  exact hkind.bind fun _ => Maintains.ite (Maintains.throw _) (Maintains.pure _)

include hP

/-- A handle gets another payload. -/
lemma setPayload (b : Handle) (data : Addr) (size : Word) :
    Maintains P (Handle.setPayload b data size) := (hP.store _ _).bind fun _ => hP.store _ _

lemma resizableAlloc (b : Handle) (size : Word) :
    Maintains P (Handle.resizableAlloc (E.hostOver play) b size).run :=
  (requireResizable _ b).lift_bind fun _ => (hP.allocate _).attempt_bind fun _ =>
    (hP.setPayload _ _ _).lift_bind fun _ => (trace _).lift_bind fun _ => Maintains.pure _

/-- A payload is exchanged for one of another size. -/
lemma resizableRealloc (b : Handle) (size : Word) :
    Maintains P (Handle.resizableRealloc (E.hostOver play) b size).run := by
  have hset : ∀ data, Maintains P (do
      (Handle.setPayload b data size : Machine History Unit)
      (E.hostOver play).trace (.payloadReplaced "varsize_realloc" b size data)
      return data : Attempt History Addr).run := fun _ =>
    (hP.setPayload _ _ _).lift_bind fun _ => (trace _).lift_bind fun _ => Maintains.pure _
  refine ((requireResizable _ b).bind fun _ => load _).lift_bind fun old => ?_
  show Maintains P (if old = 0 then _ else _ : Attempt History Addr).run
  split
  · exact (hP.allocate _).attempt_bind hset
  · exact (hP.reallocate _ _).attempt_bind hset

lemma resizableFree (b : Handle) (p : Addr) :
    Maintains P (Handle.resizableFree (E.hostOver play) b p) :=
  (hP.free p).bind fun _ => (load _).bind fun _ =>
    Maintains.ite (hP.store _ _) (Maintains.pure _)

/-- A heap is installed, or refused while something is out. -/
lemma setAllocator (o : HeapObject) : Maintains P (setAllocator (E.hostOver play) o) := by
  have hset : Maintains P (do
      modify fun w => { w with bindings := { w.bindings with heap := o } }
      (E.hostOver play).trace .allocatorSet) :=
    (Maintains.modify fun _ h => hP.rebound _ h).bind fun _ => trace _
  refine Maintains.get.bind fun w => Maintains.ite ?_ hset
  exact (Maintains.throw _).bind fun _ => hset

/-- A triple that is interned stays in the registry. -/
lemma internFunctions (f : HeapFunctions) : Maintains P (internFunctions f) :=
  Maintains.modifyGet fun w h => hP.interned w f h

/-- The flag goes up, and the primitives of one thread are installed. -/
lemma shutDown : Maintains P (shutDown (E.hostOver play)) :=
  (Maintains.modify fun w h => hP.down w h).bind fun _ =>
    (Maintains.modify fun _ h => hP.rebound _ h).bind fun _ =>
      (Maintains.modify fun _ h => hP.rebound _ h).bind fun _ => trace _

/-- A fresh start, with the line in the history that belongs to it. -/
lemma start :
    Maintains P (do CountedHeap.start (E.hostOver play); CountedHeap.record .started) := by
  intro w h
  have hrun : (do CountedHeap.start (E.hostOver play); CountedHeap.record .started) w =
      .ok () { World.noted { w with shuttingDown := false } .started with
        bindings := {}, stats := {} } := by
    rw [CountedHeap.start, Machine.bind_apply, Machine.bind_apply, Machine.modify_apply]
    simp only [Environment.trace_run]
    rfl
  rw [Machine.after, hrun]
  exact hP.aside _ w.memory {} {} w.boxes (hP.started w h)

end Configuration

/-! ### Steps and programs -/

section Runs

variable (hP : Lasting P)
include hP

omit hP in
/-- A step without an answer. -/
lemma silently {x : Machine History Unit} (hx : Maintains P x) :
    Maintains P (Call.silently x).run := hx.lift_bind fun _ => Maintains.pure _

/-- The line for a handle that was made. -/
lemma recordMade (b : Handle) (own : Bool) : Maintains P (Call.recordMade b own) :=
  (load _).bind fun _ => (load _).bind fun _ => hP.record (by trivial)

/-- Every step that a caller can take, whether the contract allows it or not. -/
lemma perform (hplay : ∀ p, Maintains P (play p)) (c : Call) :
    Maintains P (c.perform (E.hostOver play)).run := by
  cases c with
  | allocateFrom ext size => exact hP.allocateFrom ext size
  | reallocate p size => exact hP.reallocate p size
  | free p => exact silently (hP.free p)
  | make r =>
    exact (hP.make hplay r).attempt_bind fun b => (hP.recordMade b _).lift_bind fun _ =>
      Maintains.pure _
  | init b data size destructor info ext =>
    exact silently ((hP.initWith _ _ _ _ _ _ _).bind fun _ => hP.recordMade b _)
  | acquire b => exact silently ((hP.acquire b).bind fun _ => hP.record (by trivial))
  | release b => exact silently ((hP.record (by trivial)).bind fun _ => hP.release hplay b)
  | callDestructor b =>
    exact silently ((hP.record (by trivial)).bind fun _ => hP.callDestructor hplay b)
  | destroy b => exact silently ((hP.record (by trivial)).bind fun _ => hP.destroy b)
  | dealloc b => exact silently ((hP.record (by trivial)).bind fun _ => hP.dealloc b)
  | clone r =>
    exact silently (((hP.acquire r.handle).bind fun _ => Maintains.pure _).bind fun _ =>
      hP.record (by trivial))
  | drop r => exact silently ((hP.record (by trivial)).bind fun _ => hP.release hplay r.handle)
  | resizableAlloc b size =>
    exact (hP.resizableAlloc b size).attempt_bind fun _ =>
      (hP.record (by trivial)).lift_bind fun _ => Maintains.pure _
  | resizableRealloc b size =>
    exact (hP.resizableRealloc b size).attempt_bind fun _ =>
      (hP.record (by trivial)).lift_bind fun _ => Maintains.pure _
  | resizableFree b p =>
    exact silently ((hP.resizableFree b p).bind fun _ => hP.record (by trivial))
  | setAllocator o => exact silently (hP.setAllocator o)
  | installFunctions f =>
    exact silently ((hP.internFunctions f).bind fun _ => hP.setAllocator _)
  | setIncDec p => exact silently (Maintains.modify fun _ h => hP.rebound _ h)
  | setCompareSwap p => exact silently (Maintains.modify fun _ h => hP.rebound _ h)
  | shutDown => exact silently hP.shutDown
  | start => exact silently hP.start
  | poke a bytes =>
    exact silently ((Maintains.modify fun _ h => hP.memory _ h).bind fun _ =>
      hP.record (by trivial))

/-- Programs maintain what every step maintains. -/
lemma run (hplay : ∀ p, Maintains P (play p)) (p : Program) :
    Maintains P (p.run E (E.hostOver play)) := by
  have hmark : Maintains P Program.mark := fun w h => hP.marked w h
  induction p with
  | done => exact hmark
  | panic message => exact hmark.bind fun _ => Maintains.throw _
  | step c next ih =>
    refine hmark.bind fun _ => Maintains.get.bind fun w => Maintains.ite ?_ (Maintains.pure _)
    exact (hP.perform hplay c).bind fun a => Maintains.get.bind fun w' => ih a w'

/-- So do the programs that are called from inside, however deep they are nested. -/
lemma host (depth : Nat) :
    ∃ play, E.host depth = E.hostOver play ∧ ∀ p, Maintains P (play p) := by
  induction depth with
  | zero => exact ⟨_, rfl, fun _ => Maintains.throw _⟩
  | succ depth ih =>
    obtain ⟨play, hhost, hplay⟩ := ih
    refine ⟨_, rfl, fun p => Maintains.get.bind fun w => ?_⟩
    rw [hhost]
    exact hP.run hplay (p w)

/-- What holds before a run holds after it, whatever way the run ends. -/
theorem session (E : Environment) (depth : Nat) (p : Program) :
    Maintains P (E.session depth p) := by
  obtain ⟨play, hhost, hplay⟩ := hP.host (E := E) depth
  rw [Environment.session, hhost, ← bind_assoc]
  exact hP.start.bind fun _ => hP.run hplay p

end Runs

end Lasting

/-- The history of a run is the one in the state in which the run ends. -/
lemma Environment.host_after (E : Environment) (depth : Nat) (p : Program) (w : World History) :
    (Machine.after (E.session depth p) { w with host := [] }).host = E.history depth p w := by
  rw [Machine.after, Environment.history]
  cases E.session depth p { w with host := [] } <;> rfl

end CountedHeap
