/-
The C surface

The entry points for callers in C. Failure is null, a null handle is accepted everywhere and means
that nothing is done, and a null external allocator means the default heap. A panic cannot unwind
through C, so one that reaches an entry point stops the program.

`Table` is the part of the surface that is handed out as a table of functions.
-/
import CountedHeap.Handle.Resizable
import CountedHeap.Settings

namespace CountedHeap.Entry

variable {σ : Type} (h : Host σ)

/-- Stops the program if a panic reaches the boundary. -/
def guarded {α : Type} (x : Machine σ α) : Machine σ α :=
  tryCatch x fun
    | .panic p => throw (.boundary p)
    | f => throw f

/-- The pointer that an attempt yields, null for a failure. -/
def orNull (x : Attempt σ Addr) : Machine σ Addr := do
  match ← x.run with
  | .ok p => return p
  | .error _ => return 0

/-- Does something with a handle, and nothing with a null one. -/
def unlessNull {α : Type} (b : Handle) (other : α) (x : Machine σ α) : Machine σ α :=
  guarded (if b = 0 then return other else x)

/-! ### Configuration -/

/-- Starts the runtime afresh, with its first heap and primitives and all counters at zero. -/
def start : Machine σ Unit := guarded (CountedHeap.start h)

/-- From now on handles end without a call of their destructors. -/
def shutDown : Machine σ Unit := guarded (CountedHeap.shutDown h)

/-- Installs a triple of functions. Equal triples are one and the same heap. -/
def setAllocator (f : HeapFunctions) : Machine σ Unit :=
  guarded do CountedHeap.setAllocator h (← internFunctions f)

/-- Installs a pair of functions for counting up and down. -/
def setIncDec (f : IncDecFunctions) : Machine σ Unit :=
  guarded (CountedHeap.setIncDec (.functions f))

/-- Installs a function for comparing and swapping. -/
def setCompareSwap (fn : Addr) : Machine σ Unit :=
  guarded (CountedHeap.setCompareSwap (.function fn))

/-- Counts by the runtime's own two functions, which no thread may share. -/
def setIncDecStub : Machine σ Unit := guarded (CountedHeap.setIncDec .stub)

/-- Compares and swaps by the runtime's own function, which no thread may share. -/
def setCompareSwapStub : Machine σ Unit := guarded (CountedHeap.setCompareSwap .stub)

/-- One of the four counters. -/
def counter (k : Counter) : Machine σ Word := guarded do return (← get).stats.get k

/-- Compares and swaps; answers whether the new word was stored, and what is left in the caller's
cell for the old word. A null slot is never stored to, and its cell stays as it is. -/
def compareAndSwap (slot : Addr) (expected new : Word) (oldCell : Option Word) :
    Machine σ (Bool × Option Word) :=
  guarded do
    if slot = 0 then return (false, oldCell)
    let (swapped, old) ← do
      match ← CountedHeap.compareAndSwap h slot expected new with
      | .ok old => pure (true, old)
      | .error old => pure (false, old)
    return (swapped, oldCell.map fun _ => old)

/-! ### Raw storage -/

/-- A block of the default heap. -/
def allocate (size : Word) : Machine σ Addr := guarded (orNull (Storage.allocate h size))

/-- A block of an external allocator, or of the default heap for a null one. -/
def allocateExternal (size : Word) (ext : Addr) : Machine σ Addr :=
  guarded (orNull (Storage.allocateFrom h ext size))

/-- A block with another size and the same contents, from the default heap. -/
def reallocate (p : Addr) (size : Word) : Machine σ Addr :=
  guarded (orNull (Storage.reallocate h p size))

/-- Gives a block back to the default heap. -/
def free (p : Addr) : Machine σ Unit := guarded (Storage.free h p)

/-! ### Making handles -/

/-- Makes a handle of a block that the caller brings. -/
def handleInit (b : Handle) (data : Addr) (size : Word) (destructor info ext : Addr) :
    Machine σ Unit :=
  unlessNull b () (Handle.init h b data size destructor info ext)

/-- A handle for a payload that lies elsewhere. -/
def handleNew (data : Addr) (size : Word) (destructor info : Addr) : Machine σ Addr :=
  guarded (orNull (Handle.new h data size destructor info))

/-- A handle with its payload in the same block. -/
def handleAlloc (size : Word) : Machine σ Addr := guarded (orNull (Handle.alloc h size))

/-- The same, in a block of an external allocator. -/
def handleAllocExternal (size : Word) (ext : Addr) : Machine σ Addr :=
  guarded (orNull (if ext = 0 then Handle.alloc h size else Handle.allocExternal h size ext))

/-- A handle whose payload is poisoned at first and in the end. -/
def handleAllocSafe (size : Word) : Machine σ Addr := guarded (orNull (Handle.allocSafe h size))

/-- A handle with its payload in the same block, and a destructor of the caller's. -/
def handleAllocDestructor (size : Word) (destructor : Addr) : Machine σ Addr :=
  guarded (orNull (Handle.allocDestructor h size destructor))

/-- The same, with a payload that is poisoned at first and in the end. -/
def handleAllocDestructorSafe (size : Word) (destructor : Addr) : Machine σ Addr :=
  guarded (orNull (Handle.allocDestructorSafe h size destructor))

/-- Alignments of the C surface have 32 bits. -/
def handleAllocAligned (size : Word) (align : UInt32) : Machine σ Addr :=
  guarded (orNull (Handle.allocAligned h size align.toUInt64))

/-- The same, with a payload that is poisoned at first and in the end. -/
def handleAllocSafeAligned (size : Word) (align : UInt32) : Machine σ Addr :=
  guarded (orNull (Handle.allocSafeAligned h size align.toUInt64))

/-- The same, in a block of an external allocator. -/
def handleAllocSafeAlignedExternal (size : Word) (align : UInt32) (ext : Addr) : Machine σ Addr :=
  guarded (orNull
    (if ext = 0 then Handle.allocSafeAligned h size align.toUInt64
     else Handle.allocSafeAlignedExternal h size align.toUInt64 ext))

/-- A handle for a payload of the caller's, which a finalizer takes care of in the end. -/
def manage (data finalizer : Addr) : Machine σ Addr :=
  guarded (orNull (Handle.manage h data finalizer))

/-- A handle whose payload may get another size. -/
def handleNewResizable (size : Word) : Machine σ Addr :=
  guarded (orNull (Handle.newResizable h size))

/-- The same, with a finalizer that sees the payload before it is freed. -/
def handleNewResizableWith (size : Word) (finalizer : Addr) : Machine σ Addr :=
  guarded (orNull (Handle.newResizableWith h size finalizer))

/-! ### Using handles -/

/-- Takes a reference. -/
def acquire (b : Handle) : Machine σ Unit := unlessNull b () (Handle.acquire h b)

/-- Gives up a reference, and ends the handle if it was the last one. -/
def release (b : Handle) : Machine σ Unit := unlessNull b () (Handle.release h b)

/-- Ends a handle by hand. -/
def callDestructor (b : Handle) : Machine σ Unit := unlessNull b () (Handle.callDestructor h b)

/-- Gives up the storage of a handle without a call of its destructor, and counts it as ended. -/
def destroy (b : Handle) : Machine σ Unit := unlessNull b () (Handle.destroy h b)

/-- Gives up the storage of a handle, and counts no handle as ended. -/
def dealloc (b : Handle) : Machine σ Unit := unlessNull b () (Handle.dealloc h b)

/-- Where the payload lies; null for a null handle. -/
def payload (b : Handle) : Machine σ Addr := unlessNull b 0 (Handle.payload b)

/-- How many bytes the payload has; none for a null handle. -/
def size (b : Handle) : Machine σ Word := unlessNull b 0 (Handle.size b)

/-- The allocator that the header names; null for a null handle. -/
def external (b : Handle) : Machine σ Addr := unlessNull b 0 (Handle.external b)

/-- The word that the destructor is called with; zero for a null handle. -/
def info (b : Handle) : Machine σ Word := unlessNull b 0 (Handle.info b)

/-- How many references there are. The runtime itself answers zero for a null handle. -/
def refcount (b : Handle) : Machine σ Word := guarded (Handle.refcount b)

/-- What a dump writes; nothing for a null handle. -/
def dump (showAddr : Addr → String) (b : Handle) : Machine σ String :=
  unlessNull b "" (Handle.dump showAddr b)

/-- Another payload of this size, while the old one is the caller's. -/
def resizableAlloc (b : Handle) (size : Word) : Machine σ Addr :=
  unlessNull b 0 (orNull (Handle.resizableAlloc h b size))

/-- The payload with another size. -/
def resizableRealloc (b : Handle) (size : Word) : Machine σ Addr :=
  unlessNull b 0 (orNull (Handle.resizableRealloc h b size))

/-- Frees a block, and leaves the handle without a payload if it was that. -/
def resizableFree (b : Handle) (p : Addr) : Machine σ Unit :=
  unlessNull b () (Handle.resizableFree h b p)

end CountedHeap.Entry

namespace CountedHeap

/-- The functions that a caller is handed in one table. -/
structure Table (σ : Type) where
  allocate : Word → Machine σ Addr
  allocateExternal : Word → Addr → Machine σ Addr
  manage : Addr → Addr → Machine σ Addr
  acquire : Handle → Machine σ Unit
  release : Handle → Machine σ Unit
  payload : Handle → Machine σ Addr

/-- The table. Its functions are entry points of the C surface. -/
def table {σ : Type} (h : Host σ) : Table σ where
  allocate := Entry.handleAlloc h
  allocateExternal := Entry.handleAllocExternal h
  manage := Entry.manage h
  acquire := Entry.acquire h
  release := Entry.release h
  payload := Entry.payload

end CountedHeap
