/-
Header and payload in one block

One request serves the header of a handle and its payload. The payload follows the header, or
starts at the first aligned address after it; the request for an aligned payload has room for twice
the alignment, so that the payload fits wherever the block comes to lie.
-/
import CountedHeap.Align
import CountedHeap.Checked
import CountedHeap.Storage

namespace CountedHeap

/-- The size of a header. -/
def headerSize : Word := 56

/-- The alignment that every allocator gives to its blocks. -/
def minAlign : Word := 8

/-- A block that holds a header and a payload. -/
structure Combined where
  header : Addr
  payload : Addr
  deriving DecidableEq, Repr

/-- How far the payload lies behind the start of the block. -/
def Combined.offset (c : Combined) : Word := c.payload - c.header

variable {σ : Type} (h : Host σ)

/-- One block for a header and `size` bytes of payload right behind it. -/
def allocateCombined (size : Word) (ext : Addr) : Attempt σ Combined := do
  match Word.add? size headerSize with
  | none => throw (.sizeOverflow size headerSize)
  | some total =>
    let base ← Storage.allocateFrom h ext total
    return ⟨base, base + headerSize⟩

/-- The size of the payload's part of a block, with room for alignment. -/
def paddedSize? (size align : Word) : Option Word := do
  Word.add? size (← Word.mul? align 2)

/-- One block for a header and an aligned payload. -/
def allocateCombinedAligned (size align : Word) (ext : Addr) : Attempt σ Combined := do
  let align := effectiveAlign align
  match paddedSize? size align with
  | none => throw (.sizeOverflow size (Word.addClamp headerSize (Word.mulClamp align 2)))
  | some padded =>
    let c ← allocateCombined h padded ext
    return { c with payload := c.payload + alignOffset c.payload align }

end CountedHeap
