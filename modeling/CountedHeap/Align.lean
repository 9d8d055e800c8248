/-
Distance to the next aligned address

* `alignOffset`: how far an address is from the next multiple of an alignment.

A power of two is served by a mask and any other alignment by a division; `isPowerOfTwo` says which
of the two applies.
-/
import CountedHeap.Memory.Basic

namespace CountedHeap

/-- Whether a word has exactly one bit set. -/
def isPowerOfTwo (w : Word) : Bool := w != 0 && w &&& (w - 1) == 0

/-- An alignment of zero asks for nothing and counts as one. -/
def effectiveAlign (align : Word) : Word := max align 1

/-- The remainder of an address by an alignment that is not zero. -/
def alignRemainder (addr align : Word) : Word :=
  if isPowerOfTwo align then addr &&& (align - 1) else addr % align

/-- The least number of bytes to add to an address to reach a multiple of the alignment. -/
def alignOffset (addr align : Word) : Word :=
  let a := effectiveAlign align
  let r := alignRemainder addr a
  if r = 0 then 0 else a - r

end CountedHeap
