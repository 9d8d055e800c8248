/-
Configuring the runtime

Starting and shutting down, and installing the default heap and the atomic primitives. The default
heap can be replaced only while nothing is outstanding, so that no block is ever given back to a
heap it did not come from; installing the heap that is bound already is always allowed.
-/
import CountedHeap.Machine

namespace CountedHeap

variable {σ : Type} (h : Host σ)

/-- Starts afresh: default bindings, all counters zero, not shutting down. -/
def start : Machine σ Unit := do
  modify fun w => { w with bindings := {}, shuttingDown := false, stats := {} }
  h.trace .started

/-- Installs an increment and a decrement. -/
def setIncDec (p : IncDec) : Machine σ Unit :=
  modify fun w => { w with bindings := { w.bindings with incDec := p } }

/-- Installs a compare and swap. -/
def setCompareSwap (p : CompareSwap) : Machine σ Unit :=
  modify fun w => { w with bindings := { w.bindings with cas := p } }

/-- From now on no destructor is started; the primitives fall back to the stubs. -/
def shutDown : Machine σ Unit := do
  modify fun w => { w with shuttingDown := true }
  setIncDec .stub
  setCompareSwap .stub
  h.trace .shutDown

/-- Installs a default heap. -/
def setAllocator (o : HeapObject) : Machine σ Unit := do
  let w ← get
  if w.bindings.heap.addr ≠ o.addr ∧ ¬ w.stats.isBalanced then
    Machine.violate (.allocatorSwap w.stats.outstandingBlocks w.stats.outstandingHandles)
  modify fun w => { w with bindings := { w.bindings with heap := o } }
  h.trace .allocatorSet

/-- The object that stands for a triple of functions. -/
def internFunctions (f : HeapFunctions) : Machine σ HeapObject :=
  modifyGet fun w =>
    let (o, r) := w.interned.intern f
    (o, { w with interned := r })

end CountedHeap
