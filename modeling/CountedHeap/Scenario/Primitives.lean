/-
The atomic primitives of a scenario

Counting functions that are right, that report, that count by two or lie about the new value, and
compare-and-swap functions that keep or break the rules in one way each.
-/
import CountedHeap.Atomic
import CountedHeap.Scenario.Stage

namespace CountedHeap.Scenario

/-- The address under which a counted word is reported. A statistic is reported without one. -/
def reportedWord : Cell → Option Addr
  | .word a => some a
  | .counter _ => none

namespace Counting

/-- Whether the function counts up. -/
def up : Counting → Bool
  | plainInc | logInc | by2Inc => true
  | plainDec | logDec | by2Dec | ret0Dec | neverDec => false

/-- What the function adds to the word. -/
def change : Counting → Word
  | plainInc | logInc => 1
  | by2Inc => 2
  | plainDec | logDec | ret0Dec | neverDec => -1
  | by2Dec => -2

/-- What the function answers when the word has a new value. -/
def claim (c : Counting) (new : Word) : Word :=
  match c with
  | ret0Dec => 0
  | neverDec => 1
  | _ => new

/-- Counts a word. -/
def run (c : Counting) (cell : Cell) : Play Word := do
  let new ← addTo cell c.change
  if c = logInc ∨ c = logDec then emit (.counted c.up (reportedWord cell) new)
  return c.claim new

end Counting

namespace Swap

/-- Whether the new word is stored. -/
def stores (s : Swap) (equal : Bool) : Bool :=
  match s with
  | deny => false
  | force => true
  | _ => equal

/-- The function's answer. -/
def answer (s : Swap) (stored : Bool) : Int :=
  if stored then (if s = weird then -7 else 1) else 0

/-- Compares and swaps: what is left in the cell for the old word, and the answer. -/
def run (s : Swap) (slot : Addr) (expected new : Word) : Play (Option Word × Int) := do
  let old ← Machine.load slot
  let stored := s.stores (old == expected)
  if stored then Machine.store slot new
  if s = log then emit (.swap expected new (s.answer stored))
  return (if s = noold then none else some old, s.answer stored)

end Swap

/-- The counting function at an address. -/
def countAt (fn : Addr) (cell : Cell) : Play Word :=
  match Function.ofAddr? fn with
  | some (.counting c) => c.run cell
  | _ => Machine.read cell

/-- The compare-and-swap function at an address. -/
def swapAt (fn slot : Addr) (expected new : Word) : Play (Option Word × Int) :=
  match Function.ofAddr? fn with
  | some (.swap s) => s.run slot expected new
  | _ => return (none, 0)

end CountedHeap.Scenario
