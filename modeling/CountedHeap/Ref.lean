/-
Owned references

A `Ref` owns one reference: cloning it takes another, and dropping it gives its own up. It can be
turned into a bare handle, whose reference is then the holder's to give up, and back.
-/
import CountedHeap.Handle.Resizable

namespace CountedHeap

/-- A value that owns one reference to a handle. -/
structure Ref where
  handle : Handle
  deriving DecidableEq, Repr

namespace Ref

variable {σ : Type} (h : Host σ)

/-- Owns the first reference of a new handle. -/
def ofNew (x : Attempt σ Handle) : Attempt σ Ref := Ref.mk <$> x

/-- A second owner of the same handle. -/
def clone (r : Ref) : Machine σ Ref := do
  Handle.acquire h r.handle
  return r

/-- Ends an owner, and the handle with the last one. -/
def drop (r : Ref) : Machine σ Unit := Handle.release h r.handle

/-- The handle whose reference the owner held. -/
def intoHandle (r : Ref) : Handle := r.handle

/-- An owner of a reference that was held by hand. -/
def ofHandle (b : Handle) : Ref := ⟨b⟩

/-- The reference as a record. -/
def debug (showAddr : Addr → String) (r : Ref) : Machine σ String := do
  let size ← r.handle.size
  let kind ← r.handle.kind
  let kindName := match kind with
    | .fixed => "Fixed"
    | .resizable => "Resizable"
  return labelled "BlockRef"
    [("ptr", showAddr r.handle), ("size", toString size.toNat), ("kind", kindName)]

end Ref

end CountedHeap
