/-
Ways to make a handle

Every way to make a handle as one value, so that a program over handles can be given as data.
-/
import CountedHeap.Handle.Resizable

namespace CountedHeap

/-- A way to make a handle. -/
inductive Request where
  | new (data : Addr) (size : Word) (destructor info : Addr)
  | alloc (size : Word)
  | allocExternal (size : Word) (ext : Addr)
  | allocSafe (size : Word)
  | allocDestructor (size : Word) (destructor : Addr)
  | allocDestructorSafe (size : Word) (destructor : Addr)
  | allocAligned (size align : Word)
  | allocSafeAligned (size align : Word)
  | allocSafeAlignedExternal (size align : Word) (ext : Addr)
  | allocClosure (size : Word) (closure : Nat)
  | manage (data finalizer : Addr)
  | newResizable (size : Word)
  | newResizableWith (size : Word) (finalizer : Addr)
  deriving DecidableEq, Repr

/-- Makes the handle. -/
def Request.make {σ : Type} (h : Host σ) : Request → Attempt σ Handle
  | new data size destructor info => Handle.new h data size destructor info
  | alloc size => Handle.alloc h size
  | allocExternal size ext => Handle.allocExternal h size ext
  | allocSafe size => Handle.allocSafe h size
  | allocDestructor size destructor => Handle.allocDestructor h size destructor
  | allocDestructorSafe size destructor => Handle.allocDestructorSafe h size destructor
  | allocAligned size align => Handle.allocAligned h size align
  | allocSafeAligned size align => Handle.allocSafeAligned h size align
  | allocSafeAlignedExternal size align ext => Handle.allocSafeAlignedExternal h size align ext
  | allocClosure size closure => Handle.allocClosure h size closure
  | manage data finalizer => Handle.manage h data finalizer
  | newResizable size => Handle.newResizable h size
  | newResizableWith size finalizer => Handle.newResizableWith h size finalizer

end CountedHeap
