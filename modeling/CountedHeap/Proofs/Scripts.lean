/-
Programs over every surface

An operation can be called in up to three ways: directly, through an entry point of the C surface,
or through the table that is handed out. A `Script` is a program that chooses one of them for every
step, and may exchange the atomic primitives between two steps. Destructors, finalizers and closures
are scripts too. What each step answered, and the memory before and after it, is written into a
`Journal`, to whatever depth the calls are nested.

* `Operation`, `Route`, `Response`: what can be called, in which way, and what is answered;
* `Script`, `Surroundings`: programs, and hosts that call back into the runtime by programs;
* `Likeness.Hosts.perform`: every operation, on every route, is alike around two such hosts;
* `Script.Alike`, `Surroundings.run_alike`: so are whole runs of two programs that differ only in
  what they install.
-/
import Mathlib.Logic.Basic
import CountedHeap.Proofs.Parallel
import CountedHeap.Surface.Entry

namespace CountedHeap

/-! ### Operations -/

/-- The ways to call an operation. -/
inductive Route where
  | direct
  | entry
  | table
  deriving DecidableEq

/-- What can be called on more than one surface, and what a caller does by himself. A null external
allocator stands for the default heap. -/
inductive Operation where
  | allocate (size : Word)
  | allocateFrom (size : Word) (ext : Addr)
  | reallocate (p : Addr) (size : Word)
  | free (p : Addr)
  | make (r : Request)
  | init (b : Handle) (data : Addr) (size : Word) (destructor info ext : Addr)
  | acquire (b : Handle)
  | release (b : Handle)
  | callDestructor (b : Handle)
  | destroy (b : Handle)
  | dealloc (b : Handle)
  | payload (b : Handle)
  | size (b : Handle)
  | external (b : Handle)
  | info (b : Handle)
  | refcount (b : Handle)
  | dump (showAddr : Addr → String) (b : Handle)
  | resizableAlloc (b : Handle) (size : Word)
  | resizableRealloc (b : Handle) (size : Word)
  | resizableFree (b : Handle) (p : Addr)
  /-- Compares and swaps; `cell` is what the caller's cell for the old word holds, if he has one. -/
  | compareAndSwap (slot : Addr) (expected new : Word) (cell : Option Word)
  | counter (k : Counter)
  | setAllocator (o : HeapObject)
  /-- Installs a triple of functions as the default heap. -/
  | installFunctions (f : HeapFunctions)
  | shutDown
  | start
  /-- Writes to memory. -/
  | poke (a : Addr) (bytes : List UInt8)

/-- What a caller is told, in the same form on every route. -/
inductive Response where
  | nothing
  /-- a pointer to storage, or none where it could not be had -/
  | storage (p : Option Addr)
  | word (w : Word)
  | text (s : String)
  /-- whether the new word was stored, and what the caller's cell holds -/
  | swap (stored : Bool) (cell : Option Word)
  deriving DecidableEq

namespace Response

/-- Direct calls answer a failure as such. -/
def ofAttempt : Except AllocError Addr → Response
  | .ok p => .storage (some p)
  | .error _ => .storage none

/-- Entry points answer a failure by null. -/
def ofPointer (p : Addr) : Response := .storage (if p = 0 then none else some p)

/-- A swap tells the old word through the caller's cell, if there is one. -/
def ofSwap (cell : Option Word) : Except Word Word → Response
  | .ok old => .swap true (cell.map fun _ => old)
  | .error old => .swap false (cell.map fun _ => old)

end Response

variable {σ : Type}

namespace Machine

/-- The answer of a computation, as a response. -/
def answering {α : Type} (f : α → Response) (x : Machine σ α) : Machine σ Response := do
  return f (← x)

/-- A computation that tells its caller nothing. -/
def silent (x : Machine σ Unit) : Machine σ Response := answering (fun _ => .nothing) x

end Machine

open Machine (answering silent)

/-- The request that a direct caller makes, who has operations of their own for the default heap. -/
def Request.resolved : Request → Request
  | .allocExternal size ext => if ext = 0 then .alloc size else .allocExternal size ext
  | .allocSafeAlignedExternal size align ext =>
    if ext = 0 then .allocSafeAligned size align else .allocSafeAlignedExternal size align ext
  | r => r

/-- Whether the C surface has the request: its alignments have 32 bits, and it has no closures. -/
def Request.onEntry : Request → Bool
  | .allocAligned _ align | .allocSafeAligned _ align | .allocSafeAlignedExternal _ align _ =>
    align < 0x100000000
  | .allocClosure .. => false
  | _ => true

/-- Makes the handle through an entry point. -/
def Request.entry (h : Host σ) : Request → Machine σ Addr
  | .new data size destructor info => Entry.handleNew h data size destructor info
  | .alloc size => Entry.handleAlloc h size
  | .allocExternal size ext => Entry.handleAllocExternal h size ext
  | .allocSafe size => Entry.handleAllocSafe h size
  | .allocDestructor size destructor => Entry.handleAllocDestructor h size destructor
  | .allocDestructorSafe size destructor => Entry.handleAllocDestructorSafe h size destructor
  | .allocAligned size align => Entry.handleAllocAligned h size align.toUInt32
  | .allocSafeAligned size align => Entry.handleAllocSafeAligned h size align.toUInt32
  | .allocSafeAlignedExternal size align ext =>
    Entry.handleAllocSafeAlignedExternal h size align.toUInt32 ext
  | .allocClosure .. => return 0
  | .manage data finalizer => Entry.manage h data finalizer
  | .newResizable size => Entry.handleNewResizable h size
  | .newResizableWith size finalizer => Entry.handleNewResizableWith h size finalizer

namespace Operation

/-- The handle that an operation is called with. -/
def handle? : Operation → Option Handle
  | init b .. | acquire b | release b | callDestructor b | destroy b | dealloc b | payload b
  | size b | external b | info b | refcount b | dump _ b | resizableAlloc b _
  | resizableRealloc b _ | resizableFree b _ => some b
  | _ => none

/-- A write of the caller's own. -/
def runPoke (a : Addr) (bytes : List UInt8) : Machine σ Unit :=
  modify fun w => { w with memory := w.memory.write a bytes }

/-- The operation, called directly. -/
def direct (h : Host σ) : Operation → Machine σ Response
  | allocate n => answering .ofAttempt (Storage.allocate h n).run
  | allocateFrom n ext => answering .ofAttempt (Storage.allocateFrom h ext n).run
  | reallocate p n => answering .ofAttempt (Storage.reallocate h p n).run
  | free p => silent (Storage.free h p)
  | make r => answering .ofAttempt (r.resolved.make h).run
  | init b data n destructor tag ext => silent (Handle.init h b data n destructor tag ext)
  | acquire b => silent (Handle.acquire h b)
  | release b => silent (Handle.release h b)
  | callDestructor b => silent (Handle.callDestructor h b)
  | destroy b => silent (Handle.destroy h b)
  | dealloc b => silent (Handle.dealloc h b)
  | payload b => answering .word (Handle.payload b)
  | size b => answering .word (Handle.size b)
  | external b => answering .word (Handle.external b)
  | info b => answering .word (Handle.info b)
  | refcount b => answering .word (Handle.refcount b)
  | dump showAddr b => answering .text (Handle.dump showAddr b)
  | resizableAlloc b n => answering .ofAttempt (Handle.resizableAlloc h b n).run
  | resizableRealloc b n => answering .ofAttempt (Handle.resizableRealloc h b n).run
  | resizableFree b p => silent (Handle.resizableFree h b p)
  | compareAndSwap slot expected new cell =>
    answering (.ofSwap cell) (CountedHeap.compareAndSwap h slot expected new)
  | counter k => answering .word (do return (← get).stats.get k)
  | setAllocator o => silent (CountedHeap.setAllocator h o)
  | installFunctions _ => return .nothing
  | shutDown => silent (CountedHeap.shutDown h)
  | start => silent (CountedHeap.start h)
  | poke a bytes => silent (runPoke a bytes)

/-- The operation, called through an entry point. -/
def entry (h : Host σ) : Operation → Machine σ Response
  | allocate n => answering .ofPointer (Entry.allocate h n)
  | allocateFrom n ext => answering .ofPointer (Entry.allocateExternal h n ext)
  | reallocate p n => answering .ofPointer (Entry.reallocate h p n)
  | free p => silent (Entry.free h p)
  | make r => answering .ofPointer (r.entry h)
  | init b data n destructor tag ext =>
    silent (Entry.handleInit h b data n destructor tag ext)
  | acquire b => silent (Entry.acquire h b)
  | release b => silent (Entry.release h b)
  | callDestructor b => silent (Entry.callDestructor h b)
  | destroy b => silent (Entry.destroy h b)
  | dealloc b => silent (Entry.dealloc h b)
  | payload b => answering .word (Entry.payload b)
  | size b => answering .word (Entry.size b)
  | external b => answering .word (Entry.external b)
  | info b => answering .word (Entry.info b)
  | refcount b => answering .word (Entry.refcount b)
  | dump showAddr b => answering .text (Entry.dump showAddr b)
  | resizableAlloc b n => answering .ofPointer (Entry.resizableAlloc h b n)
  | resizableRealloc b n => answering .ofPointer (Entry.resizableRealloc h b n)
  | resizableFree b p => silent (Entry.resizableFree h b p)
  | compareAndSwap slot expected new cell =>
    answering (fun r => .swap r.1 r.2) (Entry.compareAndSwap h slot expected new cell)
  | counter k => answering .word (Entry.counter k)
  | setAllocator _ => return .nothing
  | installFunctions f => silent (Entry.setAllocator h f)
  | shutDown => silent (Entry.shutDown h)
  | start => silent (Entry.start h)
  | poke a bytes => silent (runPoke a bytes)

/-- The operation, called through the table. -/
def tabled (h : Host σ) : Operation → Machine σ Response
  | make (.alloc n) => answering .ofPointer ((table h).allocate n)
  | make (.allocExternal n ext) => answering .ofPointer ((table h).allocateExternal n ext)
  | make (.manage data finalizer) => answering .ofPointer ((table h).manage data finalizer)
  | acquire b => silent ((table h).acquire b)
  | release b => silent ((table h).release b)
  | payload b => answering .word ((table h).payload b)
  | _ => return .nothing

/-- The operation on a given route. -/
def perform (h : Host σ) : Route → Operation → Machine σ Response
  | .direct, o => o.direct h
  | .entry, o => o.entry h
  | .table, o => o.tabled h

end Operation

/-- Whether an operation can be called on a route. A direct caller has no null handles and no null
slots, except that he may ask for the count of a null handle. -/
def Route.offers : Route → Operation → Bool
  | .direct, .refcount _ => true
  | .direct, .compareAndSwap slot .. => slot != 0
  | .direct, .installFunctions _ => false
  | .direct, o => o.handle? != some 0
  | .entry, .make r => r.onEntry
  | .entry, .setAllocator _ => false
  | .entry, _ => true
  | .table, .make (.alloc _) | .table, .make (.allocExternal ..) => true
  | .table, .make (.manage ..) => true
  | .table, .acquire _ | .table, .release _ | .table, .payload _ => true
  | .table, _ => false

/-- The table holds entry points. -/
lemma Operation.tabled_eq_entry (h : Host σ) {o : Operation}
    (ho : Route.table.offers o = true) : o.tabled h = o.entry h := by
  cases o with
  | make r => cases r with
    | alloc size => rfl
    | allocExternal size ext => rfl
    | manage data finalizer => rfl
    | _ => cases ho
  | acquire b => rfl
  | release b => rfl
  | payload b => rfl
  | _ => cases ho

/-- An atomic primitive. -/
inductive Primitive where
  | incDec (p : IncDec)
  | cas (p : CompareSwap)
  deriving DecidableEq

/-- Whether a primitive can be installed on a route: in C there are the stubs and functions. -/
def Route.installs : Route → Primitive → Bool
  | .direct, _ => true
  | .entry, .incDec .native | .entry, .cas .native => false
  | .entry, _ => true
  | .table, _ => false

/-- Installs a primitive. -/
def Primitive.install : Route → Primitive → Machine σ Unit
  | .direct, .incDec p => setIncDec p
  | .direct, .cas p => setCompareSwap p
  | .entry, .incDec .stub => Entry.setIncDecStub
  | .entry, .incDec (.functions f) => Entry.setIncDec f
  | .entry, .cas .stub => Entry.setCompareSwapStub
  | .entry, .cas (.function fn) => Entry.setCompareSwap fn
  | _, _ => return ()

/-- The state after a primitive was installed. -/
def Primitive.put (w : World σ) : Primitive → World σ
  | incDec p => { w with bindings := { w.bindings with incDec := p } }
  | cas p => { w with bindings := { w.bindings with cas := p } }

/-- On every route that has it, a primitive is installed in the same way. -/
lemma Primitive.install_apply {via : Route} {p : Primitive} (hp : via.installs p = true)
    (w : World σ) : p.install via w = .ok () (p.put w) := by
  cases via with
  | direct => cases p <;> rfl
  | entry =>
    cases p with
    | incDec q => cases q with
      | stub => rfl
      | native => cases hp
      | functions f => rfl
    | cas q => cases q with
      | stub => rfl
      | native => cases hp
      | function fn => rfl
  | table => cases hp

/-! ### Journals -/

/-- A step of a program, as it is seen from outside. -/
structure Line where
  operation : Operation
  response : Response
  before : Memory
  after : Memory

/-- What the steps of a run were, newest first, beside the state of the host. -/
structure Journal (σ : Type) where
  lines : List Line
  rest : σ

namespace World

variable {τ : Type}

/-- The same state of the runtime around another host. -/
def withHost (w : World σ) (s : τ) : World τ := { w with host := s }

/-- A state without its primitives, which no program can ask for. -/
def veiled (w : World σ) : World σ :=
  { w with bindings := { w.bindings with incDec := .stub, cas := .stub } }

end World

/-- A computation of the host's, which does not touch the journal. -/
def Machine.beside {α : Type} (x : Machine σ α) : Machine (Journal σ) α := fun w =>
  match x (w.withHost w.host.rest) with
  | .ok a v => .ok a (v.withHost ⟨w.host.lines, v.host⟩)
  | .error e v => .error e (v.withHost ⟨w.host.lines, v.host⟩)

/-- An allocator that does not touch the journal. -/
def Allocator.beside (a : Allocator σ) : Allocator (Journal σ) where
  allocate n := (a.allocate n).beside
  reallocate p n := (a.reallocate p n).beside
  free p := (a.free p).beside

/-- A host that does not touch the journal. -/
def Host.beside (h : Host σ) : Host (Journal σ) where
  functions f := (h.functions f).beside
  object a := (h.object a).beside
  external := h.external
  externalFunctions e := (h.externalFunctions e).beside
  destructor fn data size info := (h.destructor fn data size info).beside
  finalizer fn data := (h.finalizer fn data).beside
  closure c data size := (h.closure c data size).beside
  dropClosure c := (h.dropClosure c).beside
  step fn c := (h.step fn c).beside
  compareSwap fn slot expected new := (h.compareSwap fn slot expected new).beside
  note t j := { j with rest := h.note t j.rest }

/-! ### Scripts -/

/-- A program: what it does next, given the response to its last step and all that it can see. -/
inductive Script (σ : Type) where
  | done
  | install (via : Route) (p : Primitive) (next : Script σ)
  | step (via : Route) (o : Operation) (next : Response → World (Journal σ) → Script σ)

/-- The state after a step was written down. -/
def World.journaled (w : World (Journal σ)) (l : Line) : World (Journal σ) :=
  { w with host := ⟨l :: w.host.lines, w.host.rest⟩ }

/-- Takes a step and writes it into the journal. -/
def Operation.take (h : Host (Journal σ)) (via : Route) (o : Operation) :
    Machine (Journal σ) Response := do
  let before := (← get).memory
  let r ← o.perform h via
  modify fun w => w.journaled ⟨o, r, before, w.memory⟩
  return r

/-- Runs a program. One that calls what a route does not have ends there. -/
def Script.run (h : Host (Journal σ)) : Script σ → Machine (Journal σ) Unit
  | done => return ()
  | install via p next => do
    if via.installs p then
      p.install via
      next.run h
  | step via o next => do
    if via.offers o then
      let r ← o.take h via
      (next r (← get).veiled).run h

/-- A host, and the programs by which it calls back into the runtime. -/
structure Surroundings (σ : Type) where
  base : Host σ
  destructor : Addr → Addr → Word → Addr → World (Journal σ) → Script σ
  finalizer : Addr → Addr → World (Journal σ) → Script σ
  closure : Nat → Addr → Word → World (Journal σ) → Script σ
  dropClosure : Nat → World (Journal σ) → Script σ

namespace Surroundings

variable (S : Surroundings σ)

/-- The host as the runtime sees it, for a given way of running the programs that are called from
inside. -/
def hostOver (play : (World (Journal σ) → Script σ) → Machine (Journal σ) Unit) :
    Host (Journal σ) :=
  { S.base.beside with
    destructor := fun fn data size info => do
      (S.base.destructor fn data size info).beside
      play (S.destructor fn data size info)
    finalizer := fun fn data => do
      (S.base.finalizer fn data).beside
      play (S.finalizer fn data)
    closure := fun c data size => do
      (S.base.closure c data size).beside
      play (S.closure c data size)
    dropClosure := fun c => do
      (S.base.dropClosure c).beside
      play (S.dropClosure c) }

/-- The host when programs may be called from inside programs to a given depth. -/
def host : Nat → Host (Journal σ)
  | 0 => S.hostOver fun _ => throw .tooDeep
  | depth + 1 => S.hostOver fun p => do (p (← get).veiled).run (host depth)

end Surroundings

/-! ### Alike on every route -/

namespace Likeness

variable {τ α : Type} {T : Likeness σ τ}

namespace Alike

lemma answering {x : Machine σ α} {y : Machine τ α} (hx : T.Alike x y) (f : α → Response) :
    T.Alike (answering f x) (answering f y) := hx.bind fun _ => pure _

lemma silent {x : Machine σ Unit} {y : Machine τ Unit} (hx : T.Alike x y) :
    T.Alike (silent x) (silent y) := hx.answering _

/-- A panic that may end two runs ends them alike at the boundary too. -/
lemma guarded {x : Machine σ α} {y : Machine τ α} (hx : T.Alike x y) :
    T.Alike (Entry.guarded x) (Entry.guarded y) := by
  refine hx.tryCatch fun e he => ?_
  cases e with
  | panic p => exact throw nofun
  | violation v => exact throw he
  | boundary p => exact throw he
  | noUnwind => exact throw he
  | tooDeep => exact throw he

lemma orNull {x : Attempt σ Addr} {y : Attempt τ Addr} (hx : T.Alike x.run y.run) :
    T.Alike (Entry.orNull x) (Entry.orNull y) := by
  refine hx.bind fun r => ?_
  cases r with
  | ok p => exact pure _
  | error e => exact pure _

lemma unlessNull {x : Machine σ α} {y : Machine τ α} (hx : T.Alike x y) (b : Handle) (other : α) :
    T.Alike (Entry.unlessNull b other x) (Entry.unlessNull b other y) :=
  (ite (pure _) hx).guarded

lemma counter (k : Counter) :
    T.Alike (do return (← get).stats.get k : Machine σ Word) (do return (← get).stats.get k) := by
  refine get_bind fun w v hw => ?_
  rw [hw.stats]
  exact pure _

lemma dump (showAddr : Addr → String) (b : Handle) :
    T.Alike (Handle.dump showAddr b) (Handle.dump showAddr b) := (load _).bind fun _ => pure _

lemma runPoke (a : Addr) (bytes : List UInt8) :
    T.Alike (Operation.runPoke a bytes) (Operation.runPoke a bytes) :=
  modify fun _ _ hw => hw.withMemory fun m => m.write a bytes

end Alike

namespace Hosts

variable {h : Host σ} {k : Host τ} (H : T.Hosts h k)
include H

lemma directly (o : Operation) : T.Alike (o.direct h) (o.direct k) := by
  cases o with
  | allocate size => exact (H.allocate size).answering _
  | allocateFrom size ext => exact (H.allocateFrom ext size).answering _
  | reallocate p size => exact (H.reallocate p size).answering _
  | free p => exact (H.free p).silent
  | make r => exact (H.make _).answering _
  | init b data size destructor info ext => exact (H.initWith _ _ _ _ _ _ _).silent
  | acquire b => exact (H.acquire b).silent
  | release b => exact (H.release b).silent
  | callDestructor b => exact (H.callDestructor b).silent
  | destroy b => exact (H.destroy b).silent
  | dealloc b => exact (H.dealloc b).silent
  | payload b => exact (Alike.load _).answering _
  | size b => exact (Alike.load _).answering _
  | external b => exact (Alike.load _).answering _
  | info b => exact (Alike.load _).answering _
  | refcount b => exact (Alike.refcount b).answering _
  | dump showAddr b => exact (Alike.dump showAddr b).answering _
  | resizableAlloc b size => exact (H.resizableAlloc b size).answering _
  | resizableRealloc b size => exact (H.resizableRealloc b size).answering _
  | resizableFree b p => exact (H.resizableFree b p).silent
  | compareAndSwap slot expected new cell =>
    exact (H.compareAndSwap slot expected new).answering _
  | counter k => exact (Alike.counter k).answering _
  | setAllocator o => exact (H.setAllocator o).silent
  | installFunctions f => exact Alike.pure _
  | shutDown => exact H.shutDown.silent
  | start => exact H.start.silent
  | poke a bytes => exact (Alike.runPoke a bytes).silent

lemma requested (r : Request) : T.Alike (r.entry h) (r.entry k) := by
  cases r with
  | allocExternal size ext =>
    refine Alike.guarded (Alike.orNull ?_)
    split
    · exact H.make (.alloc size)
    · exact H.make (.allocExternal size ext)
  | allocSafeAlignedExternal size align ext =>
    refine Alike.guarded (Alike.orNull ?_)
    split
    · exact H.make (.allocSafeAligned size _)
    · exact H.make (.allocSafeAlignedExternal size _ ext)
  | allocAligned size align => exact (H.make (.allocAligned size _)).orNull.guarded
  | allocSafeAligned size align => exact (H.make (.allocSafeAligned size _)).orNull.guarded
  | allocClosure size closure => exact Alike.pure _
  | new data size destructor info => exact (H.make (.new data size destructor info)).orNull.guarded
  | alloc size => exact (H.make (.alloc size)).orNull.guarded
  | allocSafe size => exact (H.make (.allocSafe size)).orNull.guarded
  | allocDestructor size destructor =>
    exact (H.make (.allocDestructor size destructor)).orNull.guarded
  | allocDestructorSafe size destructor =>
    exact (H.make (.allocDestructorSafe size destructor)).orNull.guarded
  | manage data finalizer => exact (H.make (.manage data finalizer)).orNull.guarded
  | newResizable size => exact (H.make (.newResizable size)).orNull.guarded
  | newResizableWith size finalizer =>
    exact (H.make (.newResizableWith size finalizer)).orNull.guarded

lemma swapped (slot : Addr) (expected new : Word) (cell : Option Word) :
    T.Alike (Entry.compareAndSwap h slot expected new cell)
      (Entry.compareAndSwap k slot expected new cell) := by
  refine Alike.guarded (Alike.ite (Alike.pure _) ((H.compareAndSwap _ _ _).bind fun r => ?_))
  cases r with
  | ok old => exact Alike.pure _
  | error old => exact Alike.pure _

lemma enter (o : Operation) : T.Alike (o.entry h) (o.entry k) := by
  cases o with
  | allocate size => exact (H.allocate size).orNull.guarded.answering _
  | allocateFrom size ext => exact (H.allocateFrom ext size).orNull.guarded.answering _
  | reallocate p size => exact (H.reallocate p size).orNull.guarded.answering _
  | free p => exact (H.free p).guarded.silent
  | make r => exact (H.requested r).answering _
  | init b data size destructor info ext =>
    exact ((H.initWith _ _ _ _ _ _ _).unlessNull b ()).silent
  | acquire b => exact ((H.acquire b).unlessNull b ()).silent
  | release b => exact ((H.release b).unlessNull b ()).silent
  | callDestructor b => exact ((H.callDestructor b).unlessNull b ()).silent
  | destroy b => exact ((H.destroy b).unlessNull b ()).silent
  | dealloc b => exact ((H.dealloc b).unlessNull b ()).silent
  | payload b => exact ((Alike.load _).unlessNull b 0).answering _
  | size b => exact ((Alike.load _).unlessNull b 0).answering _
  | external b => exact ((Alike.load _).unlessNull b 0).answering _
  | info b => exact ((Alike.load _).unlessNull b 0).answering _
  | refcount b => exact (Alike.refcount b).guarded.answering _
  | dump showAddr b => exact ((Alike.dump showAddr b).unlessNull b "").answering _
  | resizableAlloc b size => exact ((H.resizableAlloc b size).orNull.unlessNull b 0).answering _
  | resizableRealloc b size =>
    exact ((H.resizableRealloc b size).orNull.unlessNull b 0).answering _
  | resizableFree b p => exact ((H.resizableFree b p).unlessNull b ()).silent
  | compareAndSwap slot expected new cell => exact (H.swapped slot expected new cell).answering _
  | counter k => exact (Alike.counter k).guarded.answering _
  | setAllocator o => exact Alike.pure _
  | installFunctions f =>
    exact ((Alike.internFunctions f).bind fun _ => H.setAllocator _).guarded.silent
  | shutDown => exact H.shutDown.guarded.silent
  | start => exact H.start.guarded.silent
  | poke a bytes => exact (Alike.runPoke a bytes).silent

/-- Every operation, on every route. -/
lemma perform {via : Route} {o : Operation} (ho : via.offers o = true) :
    T.Alike (o.perform h via) (o.perform k via) := by
  cases via with
  | direct => exact H.directly o
  | entry => exact H.enter o
  | table =>
    rw [Operation.perform, Operation.perform, Operation.tabled_eq_entry h ho,
      Operation.tabled_eq_entry k ho]
    exact H.enter o

end Hosts

/-! ### Beside a journal -/

/-- What is alike without journals is alike with two journals that have the same lines, each of
which is as `A` says. -/
def withJournal (T : Likeness σ τ) (A : Line → Prop) : Likeness (Journal σ) (Journal τ) where
  incDec := T.incDec
  cas := T.cas
  host t j t' j' := j.lines = j'.lines ∧ (∀ l ∈ j.lines, A l) ∧ T.host t j.rest t' j'.rest
  panics := T.panics

variable {A : Line → Prop}

lemma Alike.beside {x : Machine σ α} {y : Machine τ α} (hx : T.Alike x y) :
    (T.withJournal A).Alike x.beside y.beside := by
  intro w v hw
  have hinner : T.Worlds (w.withHost w.host.rest) (v.withHost v.host.rest) :=
    ⟨hw.memory, hw.heap, hw.shuttingDown, hw.stats, hw.interned, hw.boxes, hw.incDec, hw.cas,
      hw.host.2.2⟩
  have hend := hx _ _ hinner
  have houter : ∀ {w' : World σ} {v' : World τ}, T.Worlds w' v' →
      (T.withJournal A).Worlds (w'.withHost ⟨w.host.lines, w'.host⟩)
        (v'.withHost ⟨v.host.lines, v'.host⟩) := fun h =>
    ⟨h.memory, h.heap, h.shuttingDown, h.stats, h.interned, h.boxes, h.incDec, h.cas,
      hw.host.1, hw.host.2.1, h.host⟩
  unfold Machine.beside
  generalize x (w.withHost w.host.rest) = r at hend
  generalize y (v.withHost v.host.rest) = s at hend
  cases hend with
  | ok a h => exact .ok a (houter h)
  | error e he h => exact .error e he (houter h)

lemma Allocators.beside {a : Allocator σ} {b : Allocator τ} (hab : T.Allocators a b) :
    (T.withJournal A).Allocators a.beside b.beside :=
  ⟨fun n => (hab.allocate n).beside, fun p n => (hab.reallocate p n).beside,
    fun p => (hab.free p).beside⟩

end Likeness

namespace Machine

variable {α β : Type}

lemma beside_bind (x : Machine σ α) (f : α → Machine σ β) :
    (x >>= f).beside = x.beside >>= fun a => (f a).beside := by
  funext w
  rw [bind_apply, beside, beside, bind_apply]
  cases x (w.withHost w.host.rest) <;> rfl

lemma beside_addTo (c : Cell) (n : Word) : (addTo c n : Machine σ Word).beside = addTo c n := by
  funext w
  cases c <;> rfl

lemma beside_swapIfEqual (slot : Addr) (expected new : Word) :
    (swapIfEqual slot expected new : Machine σ (Except Word Word)).beside =
      swapIfEqual slot expected new := by
  have hload : (load slot : Machine σ Word).beside = load slot := rfl
  rw [swapIfEqual, beside_bind, hload]
  refine bind_congr fun old => ?_
  by_cases he : old = expected
  · rw [if_pos he, if_pos he]
    rfl
  · rw [if_neg he, if_neg he]
    rfl

end Machine

/-! ### Primitives beside a journal -/

lemma IncDec.increment_beside (h : Host σ) (p : IncDec) (c : Cell) :
    p.increment h.beside c = (p.increment h c).beside := by
  cases p with
  | stub => exact (Machine.beside_addTo c 1).symm
  | native => exact (Machine.beside_addTo c 1).symm
  | functions f => rfl

lemma IncDec.decrement_beside (h : Host σ) (p : IncDec) (c : Cell) :
    p.decrement h.beside c = (p.decrement h c).beside := by
  cases p with
  | stub => exact (Machine.beside_addTo c (-1)).symm
  | native => exact (Machine.beside_addTo c (-1)).symm
  | functions f => rfl

lemma CompareSwap.run_beside (h : Host σ) (p : CompareSwap) (slot : Addr) (expected new : Word) :
    p.run h.beside slot expected new = (p.run h slot expected new).beside := by
  cases p with
  | stub => exact (Machine.beside_swapIfEqual slot expected new).symm
  | native => exact (Machine.beside_swapIfEqual slot expected new).symm
  | function f =>
    rw [run, run, Machine.beside_bind]
    exact bind_congr fun _ => rfl

lemma Host.trace_beside (h : Host σ) (t : Trace) : h.beside.trace t = (h.trace t).beside := by
  funext w
  obtain ⟨_, _, _, _, _, _, tracing, _⟩ := w
  cases tracing <;> rfl

namespace Likeness

variable {τ : Type} {T : Likeness σ τ} {A : Line → Prop}

/-- Two hosts that are alike are so beside a journal. -/
lemma Hosts.beside {h : Host σ} {k : Host τ} (H : T.Hosts h k) :
    (T.withJournal A).Hosts h.beside k.beside where
  functions f := (H.functions f).beside
  object a := (H.object a).beside
  external := H.external
  externalFunctions e := (H.externalFunctions e).beside
  destructor fn data size info := (H.destructor fn data size info).beside
  finalizer fn data := (H.finalizer fn data).beside
  closure c data size := (H.closure c data size).beside
  dropClosure c := (H.dropClosure c).beside
  increment p q hpq c := by
    rw [IncDec.increment_beside, IncDec.increment_beside]
    exact (H.increment p q hpq c).beside
  decrement p q hpq c := by
    rw [IncDec.decrement_beside, IncDec.decrement_beside]
    exact (H.decrement p q hpq c).beside
  swap p q hpq slot expected new := by
    rw [CompareSwap.run_beside, CompareSwap.run_beside]
    exact (H.swap p q hpq slot expected new).beside
  trace t := by
    rw [Host.trace_beside, Host.trace_beside]
    exact (H.trace t).beside
  stub := H.stub
  swapStub := H.swapStub

/-- The primitive may be installed in both of two runs. -/
def Fits (T : Likeness σ σ) : Primitive → Prop
  | .incDec p => T.incDec p p
  | .cas p => T.cas p p

/-- The primitive may be installed in one of two runs alone. -/
def Ignores (T : Likeness σ σ) : Primitive → Prop
  | .incDec p => ∀ q r, T.incDec q r → T.incDec p r ∧ T.incDec q p
  | .cas p => ∀ q r, T.cas q r → T.cas p r ∧ T.cas q p

/-- The two hosts are the same, and know alike what happens. -/
def Clear (T : Likeness σ σ) : Prop := ∀ t s t' s', T.host t s t' s' → t = t' ∧ s = s'

variable {T : Likeness σ σ} {w v : World (Journal σ)}

lemma Fits.put {p : Primitive} (hp : T.Fits p) (hw : (T.withJournal A).Worlds w v) :
    (T.withJournal A).Worlds (p.put w) (p.put v) := by
  cases p with
  | incDec q => exact { hw with incDec := hp }
  | cas q => exact { hw with cas := hp }

lemma Ignores.put_left {p : Primitive} (hp : T.Ignores p) (hw : (T.withJournal A).Worlds w v) :
    (T.withJournal A).Worlds (p.put w) v := by
  cases p with
  | incDec q => exact { hw with incDec := (hp _ _ hw.incDec).1 }
  | cas q => exact { hw with cas := (hp _ _ hw.cas).1 }

lemma Ignores.put_right {p : Primitive} (hp : T.Ignores p) (hw : (T.withJournal A).Worlds w v) :
    (T.withJournal A).Worlds w (p.put v) := by
  cases p with
  | incDec q => exact { hw with incDec := (hp _ _ hw.incDec).2 }
  | cas q => exact { hw with cas := (hp _ _ hw.cas).2 }

/-- Programs cannot tell two such states apart. -/
lemma Worlds.veiled_eq (hT : T.Clear) (hw : (T.withJournal A).Worlds w v) :
    w.veiled = v.veiled := by
  obtain ⟨htracing, hrest⟩ := hT _ _ _ _ hw.host.2.2
  have hhost : w.host = v.host := by
    have hlines := hw.host.1
    cases hwj : w.host
    cases hvj : v.host
    rw [hwj, hvj] at hlines hrest
    exact congrArg₂ Journal.mk hlines hrest
  simp only [World.veiled, hw.memory, hw.heap, hw.shuttingDown, hw.stats, hw.interned, hw.boxes,
    htracing, hhost]

end Likeness

lemma Operation.take_apply (h : Host (Journal σ)) (via : Route) (o : Operation)
    (w : World (Journal σ)) :
    o.take h via w = match o.perform h via w with
      | .ok r w' => .ok r (w'.journaled ⟨o, r, w.memory, w'.memory⟩)
      | .error e w' => .error e w' := by
  rw [take, Machine.bind_apply, Machine.get_apply]
  simp only [Machine.bind_apply, Machine.modify_apply]
  cases o.perform h via w <;> rfl

/-- Two programs that take the same steps, and differ at most in what they install between them. -/
inductive Script.Alike (T : Likeness σ σ) : Script σ → Script σ → Prop
  | done : Alike T .done .done
  | step (via : Route) (o : Operation) {next next' : Response → World (Journal σ) → Script σ} :
      (∀ r w, Alike T (next r w) (next' r w)) → Alike T (.step via o next) (.step via o next')
  | install (via : Route) {p : Primitive} {s t : Script σ} : T.Fits p → Alike T s t →
      Alike T (.install via p s) (.install via p t)
  | left {via : Route} {p : Primitive} {s t : Script σ} : via.installs p = true → T.Ignores p →
      Alike T s t → Alike T (.install via p s) t
  | right {via : Route} {p : Primitive} {s t : Script σ} : via.installs p = true → T.Ignores p →
      Alike T s t → Alike T s (.install via p t)

/-- What a step around the host writes into the journal is as `A` says. -/
def Likeness.Admits (T : Likeness σ σ) (A : Line → Prop) (h : Host (Journal σ)) : Prop :=
  ∀ via o w v r w', via.offers o = true → (T.withJournal A).Worlds w v →
    o.perform h via w = .ok r w' → A ⟨o, r, w.memory, w'.memory⟩

section Runs

variable {T : Likeness σ σ} {A : Line → Prop} {h k : Host (Journal σ)}

lemma Likeness.Hosts.take (H : (T.withJournal A).Hosts h k) (hA : T.Admits A h) {via : Route}
    {o : Operation} (ho : via.offers o = true) :
    (T.withJournal A).Alike (o.take h via) (o.take k via) := by
  intro w v hw
  have hend := H.perform ho w v hw
  rw [Operation.take_apply, Operation.take_apply]
  cases hr : o.perform h via w with
  | ok r w' =>
    rw [hr] at hend
    generalize o.perform k via v = s at hend ⊢
    cases hend with
    | ok _ hw' =>
      have hline := hA via o w v r w' ho hw hr
      refine .ok r ⟨hw'.memory, hw'.heap, hw'.shuttingDown, hw'.stats, hw'.interned, hw'.boxes,
        hw'.incDec, hw'.cas, ?_, ?_, hw'.host.2.2⟩
      · exact congrArg₂ List.cons (by rw [hw.memory, hw'.memory]) hw'.host.1
      · exact List.forall_mem_cons.2 ⟨hline, hw'.host.2.1⟩
  | error e w' =>
    rw [hr] at hend
    generalize o.perform k via v = s at hend ⊢
    cases hend with
    | error _ he hw' => exact .error e he hw'

lemma Script.run_install (h : Host (Journal σ)) {via : Route} {p : Primitive} (s : Script σ)
    (hp : via.installs p = true) (w : World (Journal σ)) :
    (Script.install via p s).run h w = s.run h (p.put w) := by
  rw [run, if_pos hp, Machine.bind_apply, p.install_apply hp]

/-- Whole programs are alike. -/
theorem Script.Alike.run (hT : T.Clear) (H : (T.withJournal A).Hosts h k) (hA : T.Admits A h)
    {s t : Script σ} (hst : s.Alike T t) : (T.withJournal A).Alike (s.run h) (t.run k) := by
  induction hst with
  | done => exact Likeness.Alike.pure ()
  | @step via o next next' hnext ih =>
    by_cases ho : via.offers o = true
    · rw [Script.run, Script.run, if_pos ho, if_pos ho]
      refine (H.take hA ho).bind fun r => Likeness.Alike.get_bind fun w v hw => ?_
      rw [hw.veiled_eq hT]
      exact ih r _
    · rw [Script.run, Script.run, if_neg ho, if_neg ho]
      exact Likeness.Alike.pure ()
  | @install via p s t hp hst ih =>
    intro w v hw
    by_cases hvia : via.installs p = true
    · rw [run_install h s hvia, run_install k t hvia]
      exact ih _ _ (hp.put hw)
    · rw [Script.run, Script.run, if_neg hvia, if_neg hvia]
      exact .ok () hw
  | left hvia hp hst ih =>
    intro w v hw
    rw [run_install h _ hvia]
    exact ih _ _ (hp.put_left hw)
  | right hvia hp hst ih =>
    intro w v hw
    rw [run_install k _ hvia]
    exact ih _ _ (hp.put_right hw)

namespace Surroundings

/-- Two hosts that call back by programs that differ at most in what they install. -/
structure Alike (T : Likeness σ σ) (S S' : Surroundings σ) : Prop where
  base : T.Hosts S.base S'.base
  destructor : ∀ fn data size info w,
    (S.destructor fn data size info w).Alike T (S'.destructor fn data size info w)
  finalizer : ∀ fn data w, (S.finalizer fn data w).Alike T (S'.finalizer fn data w)
  closure : ∀ c data size w, (S.closure c data size w).Alike T (S'.closure c data size w)
  dropClosure : ∀ c w, (S.dropClosure c w).Alike T (S'.dropClosure c w)

variable {S S' : Surroundings σ}

/-- Such hosts are alike, if the programs that are called from inside are. -/
lemma Alike.hostOver (hS : S.Alike T S')
    {play play' : (World (Journal σ) → Script σ) → Machine (Journal σ) Unit}
    (hplay : ∀ p q, (∀ w, (p w).Alike T (q w)) → (T.withJournal A).Alike (play p) (play' q)) :
    (T.withJournal A).Hosts (S.hostOver play) (S'.hostOver play') := by
  have hbase : (T.withJournal A).Hosts S.base.beside S'.base.beside := hS.base.beside
  exact
    { hbase with
      destructor := fun fn data size info => (hbase.destructor fn data size info).bind fun _ =>
        hplay _ _ (hS.destructor fn data size info)
      finalizer := fun fn data => (hbase.finalizer fn data).bind fun _ =>
        hplay _ _ (hS.finalizer fn data)
      closure := fun c data size => (hbase.closure c data size).bind fun _ =>
        hplay _ _ (hS.closure c data size)
      dropClosure := fun c => (hbase.dropClosure c).bind fun _ => hplay _ _ (hS.dropClosure c) }

/-- So they are at every depth of nesting. -/
theorem Alike.host (hT : T.Clear) (hS : S.Alike T S') (hA : ∀ depth, T.Admits A (S.host depth))
    (depth : Nat) : (T.withJournal A).Hosts (S.host depth) (S'.host depth) := by
  induction depth with
  | zero => exact hS.hostOver fun _ _ _ => Likeness.Alike.throw nofun
  | succ depth ih =>
    refine hS.hostOver fun p q hpq => Likeness.Alike.get_bind fun w v hw => ?_
    rw [hw.veiled_eq hT]
    exact (hpq _).run hT ih (hA depth)

/-- Two runs around such hosts are alike. -/
theorem Alike.run (hT : T.Clear) (hS : S.Alike T S') (hA : ∀ depth, T.Admits A (S.host depth))
    (depth : Nat) {s t : Script σ} (hst : s.Alike T t) :
    (T.withJournal A).Alike (s.run (S.host depth)) (t.run (S'.host depth)) :=
  hst.run hT (hS.host hT hA depth) (hA depth)

end Surroundings

end Runs

/-! ### A host that can be run -/

/-- A host with a single block, which it gives out again and again. Its function 1 counts up, every
other one counts down, and all of them compare and swap. -/
def Host.single : Host Unit :=
  let block : Allocator Unit := ⟨fun _ => return 4096, fun _ _ => return 0, fun _ => return ()⟩
  { functions := fun _ => block
    object := fun _ => block
    external := fun _ => ⟨0, 0, 0, 0⟩
    externalFunctions := fun _ => block
    destructor := fun _ _ _ _ => return ()
    finalizer := fun _ _ => return ()
    closure := fun _ _ _ => return ()
    dropClosure := fun _ => return ()
    step := fun fn c => addTo c (if fn = 1 then 1 else -1)
    compareSwap := fun _ slot expected new => do
      match ← swapIfEqual slot expected new with
      | .ok old => return (some old, 7)
      | .error old => return (some old, 0)
    note := fun _ s => s }

end CountedHeap
