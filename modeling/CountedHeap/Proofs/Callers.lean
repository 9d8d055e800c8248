/-
Callers that keep the contract

Everything around the runtime at once: default heaps, external allocators, counting functions,
destructors, finalizers and closures, and the program that calls the runtime. Each of them may look
at the whole state and at the whole history when it decides what to do, so an allocator can fail
whenever it likes, and a destructor is a program of its own.

* `Environment`: what the host does when it is called, and what allocators promise;
* `Call`, `Call.perform`: the steps that a caller can take;
* `Call.Permitted`: the steps that the contract lets him take;
* `Environment.host`: the host as the runtime sees it, for every depth of nesting;
* `Environment.session`, `Environment.history`: a run from a fresh start, and what is seen of it.
-/
import CountedHeap.Proofs.Headers
import CountedHeap.Proofs.History
import CountedHeap.Ref

namespace CountedHeap

/-! ### What callers do -/

/-- A step that a caller can take. -/
inductive Call where
  | allocateFrom (ext : Addr) (size : Word)
  | reallocate (p : Addr) (size : Word)
  | free (p : Addr)
  | make (r : Request)
  | init (b : Handle) (data : Addr) (size : Word) (destructor info ext : Addr)
  | acquire (b : Handle)
  | release (b : Handle)
  | callDestructor (b : Handle)
  | destroy (b : Handle)
  | dealloc (b : Handle)
  | clone (r : Ref)
  | drop (r : Ref)
  | resizableAlloc (b : Handle) (size : Word)
  | resizableRealloc (b : Handle) (size : Word)
  | resizableFree (b : Handle) (p : Addr)
  | setAllocator (o : HeapObject)
  /-- Installs a triple of functions as the default heap. -/
  | installFunctions (f : HeapFunctions)
  | setIncDec (p : IncDec)
  | setCompareSwap (p : CompareSwap)
  | shutDown
  | start
  /-- Writes to memory. -/
  | poke (a : Addr) (bytes : List UInt8)

/-- What a caller is told after a step; null where there is nothing to tell. -/
abbrev Answer := Except AllocError Addr

/-- A caller: what he does next, given the answers he got and all that he can see. -/
inductive Program where
  | done
  /-- He panics. -/
  | panic (message : Option String)
  | step (c : Call) (next : Answer → World History → Program)

/-! ### What the host does -/

/-- An allocator's answer, and the memory it leaves behind. -/
structure Reply where
  addr : Addr
  memory : Memory

/-- Everything that the runtime is surrounded by. A block that an allocator gives out has the room
that was asked for, at least one byte of it, and shares none with a block that is out; the bytes of
blocks that are out are left alone. Where a block is resized or taken back, this is promised only
if the allocator itself gave the block out. -/
structure Environment where
  /-- The external allocator at an address. -/
  external : Addr → ExternalAllocator
  /-- What a counting function adds to a word. -/
  change : Addr → Word
  allocate : Source → Word → World History → Reply
  reallocate : Source → Addr → Word → World History → Reply
  free : Source → Addr → World History → Memory
  destructor : Addr → Addr → Word → Addr → World History → Program
  finalizer : Addr → Addr → World History → Program
  closure : Nat → Addr → Word → World History → Program
  dropClosure : Nat → World History → Program
  /-- An allocator that takes its blocks from the default heap gives them back there. -/
  paired : ∀ a, (external a).malloc = ExternalAllocator.sample.malloc ↔
    (external a).free = ExternalAllocator.sample.free
  allocate_fresh : ∀ s n (w : World History), (allocate s n w).addr ≠ 0 →
    (ledger w.host).Fresh (allocate s n w).addr (max n.toNat 1)
  allocate_frame : ∀ s n (w : World History), ∀ q ∈ (ledger w.host).blocks,
    w.memory.AgreeOn (allocate s n w).memory q ((ledger w.host).room q)
  reallocate_fresh : ∀ s p n (w : World History), (ledger w.host).Holds s p →
    (reallocate s p n w).addr ≠ 0 →
    ((ledger w.host).without p).Fresh (reallocate s p n w).addr (max n.toNat 1)
  reallocate_frame : ∀ s p n (w : World History), (ledger w.host).Holds s p →
    ∀ q ∈ (ledger w.host).blocks, q ≠ p ∨ (reallocate s p n w).addr = 0 →
    w.memory.AgreeOn (reallocate s p n w).memory q ((ledger w.host).room q)
  free_frame : ∀ s p (w : World History), (ledger w.host).Holds s p →
    ∀ q ∈ (ledger w.host).blocks, q ≠ p →
    w.memory.AgreeOn (free s p w) q ((ledger w.host).room q)

/-- Writes an event down. -/
def record (e : Event) : Machine History Unit := modify fun w => { w with host := e :: w.host }

namespace Environment

variable (E : Environment)

/-- The state after a request for a block. -/
def granted (s : Source) (n : Word) (w : World History) : World History :=
  { w with
    memory := (E.allocate s n w).memory
    host := .given s n (E.allocate s n w).addr :: w.host }

/-- The state after a request for another size. -/
def regranted (s : Source) (p : Addr) (n : Word) (w : World History) : World History :=
  { w with
    memory := (E.reallocate s p n w).memory
    host := .resized s p n (E.reallocate s p n w).addr :: w.host }

/-- The state after a block was given back. -/
def freed (s : Source) (p : Addr) (w : World History) : World History :=
  { w with memory := E.free s p w, host := .takenBack s p :: w.host }

/-- The allocator of a source, which may be known only at the moment of the request. -/
def serve (s : World History → Source) : Allocator History where
  allocate n := modifyGet fun w => ((E.allocate (s w) n w).addr, E.granted (s w) n w)
  reallocate p n :=
    modifyGet fun w => ((E.reallocate (s w) p n w).addr, E.regranted (s w) p n w)
  free p := modify fun w => E.freed (s w) p w

/-- The host as the runtime sees it, for a given way of running the programs that are called from
inside. The functions of a default heap stand for the object that is bound. -/
def hostOver (play : (World History → Program) → Machine History Unit) : Host History where
  functions _ := E.serve fun w => .heap w.bindings.heap.addr
  object a := E.serve fun _ => .heap a
  external := E.external
  externalFunctions e := E.serve fun _ => .external e
  destructor fn data size info := do
    record (.destructor fn data size info)
    play (E.destructor fn data size info)
  finalizer fn data := do
    record (.finalizer fn data)
    play (E.finalizer fn data)
  closure c data size := do
    record (.closure c data size)
    play (E.closure c data size)
  dropClosure c := do
    record (.closureDropped c)
    play (E.dropClosure c)
  step fn c := addTo c (E.change fn)
  compareSwap _ _ _ _ := return (none, 0)
  note _ past := past

/-- A primitive that adds and subtracts exactly one. -/
def Correct : IncDec → Prop
  | .stub => True
  | .native => True
  | .functions f => E.change f.inc = 1 ∧ E.change f.dec = -1

/-- The external allocator at an address, where the sample allocator has its own. -/
def externalAt (ext : Addr) : ExternalAllocator :=
  if ext = ExternalAllocator.sampleAddr then .sample else E.external ext

/-- The allocator that serves the requests of handles whose external allocator is at `ext`, while
the heap `o` is bound. -/
def sourceAt (o ext : Addr) : Source :=
  if ext = 0 ∨ (E.externalAt ext).malloc = ExternalAllocator.sample.malloc then .heap o
  else .external (E.externalAt ext)

end Environment

/-! ### The contract -/

/-- A block that its caller may do with as he likes: neither a handle nor the payload of one. -/
def Ledger.Owned (L : Ledger) (m : Memory) (p : Addr) : Prop :=
  p ∈ L.blocks ∧ p ∉ L.handles ∧
    ∀ b ∈ L.handles, (m.header b).kind = .resizable → (m.header b).payload ≠ p

instance (L : Ledger) (m : Memory) (p : Addr) : Decidable (L.Owned m p) :=
  -- Handles are looked through one by one, and never all addresses.
  haveI : Decidable (∀ b ∈ L.handles, (m.header b).kind = .resizable → (m.header b).payload ≠ p) :=
    Finset.decidableDforallFinset
  inferInstanceAs (Decidable (_ ∧ _ ∧ _))

/-- A destructor of the caller's own. -/
def IsForeign (destructor : Addr) : Prop := Adapter.ofAddr? destructor = none

instance (destructor : Addr) : Decidable (IsForeign destructor) :=
  inferInstanceAs (Decidable (_ = _))

/-- The adapters are not for callers to install. -/
def Request.Plain : Request → Prop
  | .new _ _ destructor _ => IsForeign destructor
  | _ => True

/-- Whether the payload of the handle lies in the block of its header. -/
def Request.combined : Request → Bool
  | .new .. | .manage .. | .newResizable .. | .newResizableWith .. => false
  | _ => true

instance (E : Environment) (p : IncDec) : Decidable (E.Correct p) := by
  cases p <;> unfold Environment.Correct <;> infer_instance

instance (r : Request) : Decidable r.Plain := by
  cases r <;> unfold Request.Plain <;> infer_instance

namespace Call

/-- The steps that the contract lets a caller take, in the order of its rules: storage of the
default heap is freed and resized by its owner; operations are called on live handles, and those
that end one by the holder of the only reference; what is freed through a handle is its own payload,
if the handle is resizable, or storage of the caller's; primitives count by one; the runtime starts
afresh only when nothing is out; and nobody writes to headers. -/
def Permitted (E : Environment) (w : World History) : Call → Prop
  | allocateFrom .. | setAllocator _ | installFunctions _ | setCompareSwap _ | shutDown => True
  | reallocate p _ =>
    (ledger w.host).Owned w.memory p ∧ (ledger w.host).source p = .heap w.bindings.heap.addr
  | free p =>
    p = 0 ∨
      (ledger w.host).Owned w.memory p ∧ (ledger w.host).source p = .heap w.bindings.heap.addr
  | make r => r.Plain
  | init b _ _ destructor _ ext =>
    (ledger w.host).Owned w.memory b ∧ 56 ≤ (ledger w.host).room b ∧
      (ledger w.host).source b = E.sourceAt w.bindings.heap.addr ext ∧ IsForeign destructor
  | acquire b | release b => (ledger w.host).Live b
  | clone r | drop r => (ledger w.host).Live r.handle
  | callDestructor b | destroy b | dealloc b => (ledger w.host).Sole b
  | resizableAlloc b _ | resizableRealloc b _ => (ledger w.host).Live b
  | resizableFree b p =>
    (ledger w.host).Live b ∧
      (p = 0 ∨ (w.memory.header b).kind = .resizable ∧ p = (w.memory.header b).payload ∨
        (ledger w.host).Owned w.memory p ∧
          (ledger w.host).source p = .heap w.bindings.heap.addr)
  | setIncDec p => E.Correct p
  | start => (ledger w.host).blocks = ∅
  | poke a bytes =>
    a.toNat + bytes.length ≤ UInt64.size ∧
      ∀ b ∈ (ledger w.host).handles, Memory.Apart a bytes.length b 56

instance (E : Environment) (w : World History) (c : Call) : Decidable (c.Permitted E w) := by
  haveI handles (p : Addr → Prop) [DecidablePred p] :
      Decidable (∀ b ∈ (ledger w.host).handles, p b) := Finset.decidableDforallFinset
  cases c <;> unfold Permitted <;> infer_instance

variable (h : Host History)

/-- A step that tells its caller nothing. -/
def silently (x : Machine History Unit) : Attempt History Addr := do
  x
  return 0

/-- Writes down that a caller was handed a new handle, and what it reports. -/
def recordMade (b : Handle) (own : Bool) : Machine History Unit := do
  let data ← Handle.payload b
  let size ← Handle.size b
  record (.made b own data size)

/-- Takes a step, and writes down what it means to its caller. A reference counts as taken once
the operation that takes it is over, and as given up before the operation that gives it up. -/
def perform : Call → Attempt History Addr
  | allocateFrom ext size => Storage.allocateFrom h ext size
  | reallocate p size => Storage.reallocate h p size
  | free p => silently (Storage.free h p)
  | make r => do
    let b ← r.make h
    recordMade b r.combined
    return b
  | init b data size destructor info ext => silently do
    Handle.init h b data size destructor info ext
    recordMade b false
  | acquire b => silently do
    Handle.acquire h b
    record (.acquired b)
  | release b => silently do
    record (.released b)
    Handle.release h b
  | callDestructor b => silently do
    record (.ending b)
    Handle.callDestructor h b
  | destroy b => silently do
    record (.ending b)
    Handle.destroy h b
  | dealloc b => silently do
    record (.abandoned b)
    Handle.dealloc h b
  | clone r => silently do
    let r' ← Ref.clone h r
    record (.acquired r'.handle)
  | drop r => silently do
    record (.released r.handle)
    Ref.drop h r
  | resizableAlloc b size => do
    let p ← Handle.resizableAlloc h b size
    record (.refilled b p size)
    return p
  | resizableRealloc b size => do
    let p ← Handle.resizableRealloc h b size
    record (.refilled b p size)
    return p
  | resizableFree b p => silently do
    Handle.resizableFree h b p
    record (.discarded b p)
  | setAllocator o => silently (CountedHeap.setAllocator h o)
  | installFunctions f => silently do CountedHeap.setAllocator h (← internFunctions f)
  | setIncDec p => silently (CountedHeap.setIncDec p)
  | setCompareSwap p => silently (CountedHeap.setCompareSwap p)
  | shutDown => silently (CountedHeap.shutDown h)
  | start => silently do
    CountedHeap.start h
    record .started
  | poke a bytes => silently do
    modify fun w => { w with memory := w.memory.write a bytes }
    record (.poked a bytes)

end Call

/-! ### Runs -/

/-- The state of the runtime alone. -/
def World.snapshot {σ : Type} (w : World σ) : Snapshot := { w with host := () }

namespace Program

variable (E : Environment) (h : Host History)

/-- Writes down that the program is between two steps. -/
def mark : Machine History Unit := do record (.boundary (← get).snapshot)

/-- Runs a program. One that is about to break the contract is stopped instead. -/
def run : Program → Machine History Unit
  | done => mark
  | panic message => do
    mark
    throw (.panic message)
  | step c next => do
    mark
    if c.Permitted E (← get) then
      let a ← (c.perform h).run
      (next a (← get)).run

end Program

namespace Environment

variable (E : Environment)

/-- The host when programs may be called from inside programs to a given depth. A program that is
nested deeper ends the run, as a stack that overflows does. -/
def host : Nat → Host History
  | 0 => E.hostOver fun _ => throw .tooDeep
  | depth + 1 => E.hostOver fun p => do (p (← get)).run E (host depth)

/-- A run: the runtime starts afresh, and a program calls it. -/
def session (depth : Nat) (p : Program) : Machine History Unit := do
  start (E.host depth)
  record .started
  p.run E (E.host depth)

/-- What is seen of a run that starts in a given state, whatever way it ends. -/
def history (depth : Nat) (p : Program) (w : World History) : History :=
  match E.session depth p { w with host := [] } with
  | .ok _ w' => w'.host
  | .error _ w' => w'.host

end Environment

end CountedHeap
