/-
Making handles

Every handle starts with one reference. Its payload is allocated together with the header, or is
memory that the caller owns. A safe handle has its payload poisoned before the caller sees it.

If storage cannot be had, nothing is left behind: no handle is counted, and a closure that was
meant for the handle is dropped.
-/
import CountedHeap.Handle.Header
import CountedHeap.Poison

namespace CountedHeap

variable {σ : Type} (h : Host σ)

namespace Handle

/-- Writes a header with one reference. -/
def initWith (b : Handle) (data : Addr) (size : Word) (destructor info ext : Addr) (kind : Kind) :
    Machine σ Unit := do
  let header : Header := ⟨1, destructor, info, data, size, ext, kind⟩
  modify fun w => { w with memory := w.memory.write b header.bytes }
  h.trace (.headerWritten b ext)
  count h .handleAlloc

/-- Makes a handle of storage that the caller provides. -/
def init (b : Handle) (data : Addr) (size : Word) (destructor info ext : Addr) : Machine σ Unit :=
  initWith h b data size destructor info ext .fixed

/-- A handle on memory of the caller's. -/
def new (data : Addr) (size : Word) (destructor info : Addr) : Attempt σ Handle := do
  let b ← Storage.allocate h headerSize
  h.trace (.headerAllocated b)
  init h b data size destructor info 0
  return b

/-- Makes a handle in a block that holds header and payload. -/
def ofCombined (c : Combined) (size : Word) (destructor info ext : Addr) : Machine σ Handle := do
  init h c.header c.payload size destructor info ext
  return c.header

/-- A handle with a payload of the given size. -/
def alloc (size : Word) : Attempt σ Handle := do
  let c ← allocateCombined h size 0
  h.trace (.payloadAllocated "alloc" c.payload)
  ofCombined h c size 0 0 0

/-- The same, from an external allocator. -/
def allocExternal (size : Word) (ext : Addr) : Attempt σ Handle := do
  let c ← allocateCombined h size ext
  h.trace (.payloadAllocated "alloc_external" c.payload)
  ofCombined h c size 0 0 ext

/-- A handle whose destructor is given payload and size. -/
def allocDestructor (size : Word) (destructor : Addr) : Attempt σ Handle := do
  let c ← allocateCombined h size 0
  h.trace (.payloadSized "alloc_dtor" c.payload size)
  ofCombined h c size Adapter.custom.addr destructor 0

/-- A handle with a destructor whose payload is poisoned at both ends of its life. -/
def allocDestructorSafe (size : Word) (destructor : Addr) : Attempt σ Handle := do
  let c ← allocateCombined h size 0
  (Machine.fill c.payload size Poison.fresh : Machine σ Unit)
  h.trace (.payloadSized "alloc_dtor_safe" c.payload size)
  ofCombined h c size Adapter.customSafe.addr destructor 0

/-- A handle whose payload is poisoned at both ends of its life. -/
def allocSafe (size : Word) : Attempt σ Handle := allocDestructorSafe h size 0

/-- A handle with an aligned payload. -/
def allocAligned (size align : Word) : Attempt σ Handle := do
  let c ← allocateCombinedAligned h size align 0
  h.trace (.payloadAllocated "alloc_aligned" c.payload)
  ofCombined h c size 0 0 0

/-- A handle with an aligned payload that is poisoned at both ends of its life, from an external
allocator or, when `ext` is null, from the default heap. The info word keeps the size. -/
def allocSafeAlignedFrom (size align : Word) (ext : Addr) : Attempt σ Handle := do
  let c ← allocateCombinedAligned h size align ext
  (Machine.fill c.payload size Poison.fresh : Machine σ Unit)
  h.trace (.payloadSized "alloc_safe_aligned" c.payload size)
  ofCombined h c size Adapter.safe.addr size ext

/-- A handle with an aligned payload that is poisoned at both ends of its life. -/
def allocSafeAligned (size align : Word) : Attempt σ Handle := allocSafeAlignedFrom h size align 0

/-- The same, from an external allocator. -/
def allocSafeAlignedExternal (size align : Word) (ext : Addr) : Attempt σ Handle :=
  allocSafeAlignedFrom h size align ext

/-- A handle on memory of the caller's, with a finalizer for that memory. -/
def manage (data finalizer : Addr) : Attempt σ Handle :=
  new h data 0 Adapter.managed.addr finalizer

/-- Replaces the destructor and the word that it is given. -/
def setDestructor (b : Handle) (destructor info : Addr) : Machine σ Unit := do
  setField b .destructor destructor
  setField b .info info

/-- Puts a closure into a box. -/
def boxClosure (closure : Nat) : Machine σ Addr :=
  modifyGet fun w =>
    let (a, b) := w.boxes.make closure
    (a, { w with boxes := b })

/-- Takes a closure out of its box; the box is gone. -/
def unboxClosure (box : Addr) : Machine σ (Option Nat) :=
  modifyGet fun w => (w.boxes.find? box, { w with boxes := w.boxes.erase box })

/-- A handle with a closure that runs when the last reference goes. The closure's box is the info
word. -/
def allocClosure (size : Word) (closure : Nat) : Attempt σ Handle := do
  let box ← (boxClosure closure : Machine σ Addr)
  let b ← tryCatch (alloc h size) fun e => do
    if let some c ← (unboxClosure box : Machine σ (Option Nat)) then h.dropClosure c
    throw e
  (setDestructor b Adapter.boxed.addr box : Machine σ Unit)
  return b

end Handle

end CountedHeap
