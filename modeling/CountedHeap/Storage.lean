/-
Raw storage

Counted blocks without a handle. A block is counted when it is handed out and when it is given
back; a change of size is not counted, since the number of blocks stays the same.
-/
import CountedHeap.Atomic
import CountedHeap.Heap

namespace CountedHeap.Storage

variable {σ : Type} (h : Host σ)

/-- A block of the given size from an external allocator, or from the default heap when `ext` is
null. -/
def allocateFrom (ext : Addr) (size : Word) : Attempt σ Addr := do
  let p ← (allocatorAt h ext).allocate size
  if p = 0 then throw (.outOfMemory size)
  count h .alloc
  h.trace (.allocated p size)
  return p

/-- A block of the given size from the default heap. -/
def allocate (size : Word) : Attempt σ Addr := allocateFrom h 0 size

/-- Changes the size of a block of the default heap. -/
def reallocate (p : Addr) (size : Word) : Attempt σ Addr := do
  let q ← (defaultHeap h).reallocate p size
  if q = 0 then throw (.outOfMemory size)
  return q

/-- Gives a block back to the default heap; null is ignored. -/
def free (p : Addr) : Machine σ Unit := do
  if p ≠ 0 then
    h.trace (.freed p)
    (defaultHeap h).free p
    count h .free

end CountedHeap.Storage
