/-
Atomic primitives

Counting a word up and down, and comparing and swapping one, by the primitive that is installed.
The statistics are counted by the same primitive as reference counts.
-/
import CountedHeap.Machine

namespace CountedHeap

variable {σ : Type} (h : Host σ)

/-- Adds to a word and answers its new value. -/
def addTo (c : Cell) (n : Word) : Machine σ Word := do
  let v := (← Machine.read c) + n
  Machine.write c v
  return v

/-- Counts a word up by a given primitive and answers the new value that it claims. -/
def IncDec.increment (p : IncDec) (c : Cell) : Machine σ Word :=
  match p with
  | .stub => addTo c 1
  | .native => addTo c 1
  | .functions f => h.step f.inc c

/-- Counts a word down by a given primitive and answers the new value that it claims. -/
def IncDec.decrement (p : IncDec) (c : Cell) : Machine σ Word :=
  match p with
  | .stub => addTo c (-1)
  | .native => addTo c (-1)
  | .functions f => h.step f.dec c

/-- Stores a word if the old one is as expected: the old word, as a success or a failure. -/
def swapIfEqual (slot : Addr) (expected new : Word) : Machine σ (Except Word Word) := do
  let old ← Machine.load slot
  if old = expected then
    Machine.store slot new
    return .ok old
  else
    return .error old

/-- Compares and swaps by a given primitive. A host function reports the old word through a cell,
which holds null if the function does not write it. -/
def CompareSwap.run (p : CompareSwap) (slot : Addr) (expected new : Word) :
    Machine σ (Except Word Word) :=
  match p with
  | .stub => swapIfEqual slot expected new
  | .native => swapIfEqual slot expected new
  | .function f => do
    let (old?, answer) ← h.compareSwap f slot expected new
    let old := old?.getD 0
    return if answer ≠ 0 then .ok old else .error old

/-- Counts a word up by the installed primitive. -/
def increment (c : Cell) : Machine σ Word := do
  (← get).bindings.incDec.increment h c

/-- Counts a word down by the installed primitive. -/
def decrement (c : Cell) : Machine σ Word := do
  (← get).bindings.incDec.decrement h c

/-- Counts one more event in the statistics. -/
def count (k : Counter) : Machine σ Unit := do
  let _ ← increment h (.counter k)

/-- Compares and swaps by the installed primitive. -/
def compareAndSwap (slot : Addr) (expected new : Word) : Machine σ (Except Word Word) := do
  (← get).bindings.cas.run h slot expected new

end CountedHeap
