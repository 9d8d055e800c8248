/-
Allocators at work

How the installed default heap and the external allocators serve a request. A heap behind C
functions is never asked for zero bytes, because what C allocators do then differs; an external
allocator and an allocator object of the host are given the size as it is.

The sample external allocator forwards to the default heap that is bound at the moment of the call.
Its functions are C functions, so a panic of that heap does not get past them.
-/
import CountedHeap.Machine

namespace CountedHeap

variable {σ : Type} (h : Host σ)

/-- An allocator that asks for at least one byte. -/
def Allocator.atLeastOne (a : Allocator σ) : Allocator σ where
  allocate n := a.allocate (max n 1)
  reallocate p n := a.reallocate p (max n 1)
  free := a.free

/-- What such an allocator asks for is never nothing. -/
theorem Word.max_one_ne_zero (n : Word) : max n 1 ≠ 0 := by
  show (if n ≤ 1 then 1 else n) ≠ 0
  split
  · decide
  · next hn => exact fun h => hn (h ▸ by decide)

/-- How an allocator object serves its requests. -/
def HeapObject.allocator (o : HeapObject) : Allocator σ :=
  match o.kind with
  | .system => (h.functions .libc).atLeastOne
  | .functions f => (h.functions f).atLeastOne
  | .custom => h.object o.addr

/-- The default heap: each request goes to the object that is bound when it is made. -/
def defaultHeap : Allocator σ where
  allocate n := do ((← get).bindings.heap.allocator h).allocate n
  reallocate p n := do ((← get).bindings.heap.allocator h).reallocate p n
  free p := do ((← get).bindings.heap.allocator h).free p

namespace ExternalAllocator

/-- How the functions of the sample allocator serve a request. Only free works without the right
token. -/
def sampleAllocator (token : Addr) : Allocator σ where
  allocate n := Machine.withoutUnwinding do
    if token = sampleToken then (defaultHeap h).allocate n else return 0
  reallocate p n := Machine.withoutUnwinding do
    if token = sampleToken then (defaultHeap h).reallocate p n else return 0
  free p := Machine.withoutUnwinding ((defaultHeap h).free p)

/-- The external allocator at an address. -/
def lookup (a : Addr) : ExternalAllocator := if a = sampleAddr then sample else h.external a

/-- How an external allocator serves its requests: each of its functions is the sample
allocator's or one of the host's. -/
def allocator (e : ExternalAllocator) : Allocator σ where
  allocate n :=
    if e.malloc = sample.malloc then (sampleAllocator h e.token).allocate n
    else (h.externalFunctions e).allocate n
  reallocate p n :=
    if e.realloc = sample.realloc then (sampleAllocator h e.token).reallocate p n
    else (h.externalFunctions e).reallocate p n
  free p :=
    if e.free = sample.free then (sampleAllocator h e.token).free p
    else (h.externalFunctions e).free p

end ExternalAllocator

/-- The allocator at an address, where null stands for the default heap. -/
def allocatorAt (ext : Addr) : Allocator σ :=
  if ext = 0 then defaultHeap h else (ExternalAllocator.lookup h ext).allocator h

end CountedHeap
