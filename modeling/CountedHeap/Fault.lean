/-
What can go wrong

Three kinds of trouble, told apart by who has to deal with it:

* an `AllocError` is returned to the caller, who may carry on;
* a `Violation` is a broken contract, and the program is stopped;
* a `Fault` is anything that ends the running operation: a violation, a panic that unwinds, or a
  panic that reached C code, through which it cannot unwind.

`AllocError.message`, `Violation.message` and `Fault.stopLine?` hold the wording.
-/
import CountedHeap.Memory.Basic
import CountedHeap.Text.Quoted

namespace CountedHeap

/-- Why storage could not be had. -/
inductive AllocError where
  /-- The allocator answered a request of this size with null. -/
  | outOfMemory (requested : Word)
  /-- The size asked for and its overhead together do not fit into a word. -/
  | sizeOverflow (requested overhead : Word)
  deriving DecidableEq, Repr

namespace AllocError

def message : AllocError → String
  | .outOfMemory n => s!"allocator returned null for {n.toNat} bytes"
  | .sizeOverflow n o =>
    s!"allocation size overflow: {n.toNat} bytes plus {o.toNat} bytes of overhead"

/-- The error as a record. -/
def debug : AllocError → String
  | .outOfMemory n => labelled "OutOfMemory" [("requested", toString n.toNat)]
  | .sizeOverflow n o =>
    labelled "SizeOverflow" [("requested", toString n.toNat), ("overhead", toString o.toNat)]

end AllocError

/-- A broken contract. -/
inductive Violation where
  /-- The allocator was to be replaced while this many blocks and handles were out. -/
  | allocatorSwap (blocks handles : Word)
  /-- An operation of resizable handles was called on a handle of fixed size. -/
  | notResizable (operation : String)
  /-- An operation was called on a handle whose reference count is zero. -/
  | refcountUnderflow (operation : String)
  deriving DecidableEq, Repr

namespace Violation

def message : Violation → String
  | .allocatorSwap b h =>
    "cannot change allocator while blocks are allocated " ++
      s!"({b.toNat} raw, {h.toNat} handles outstanding)"
  | .notResizable op => s!"{op} called with a non-resizable handle"
  | .refcountUnderflow op => s!"{op} called on a handle with refcount 0"

/-- The violation as a record. -/
def debug : Violation → String
  | .allocatorSwap b h =>
    labelled "AllocatorSwapWithOutstanding"
      [("outstanding_bytes", toString b.toNat), ("outstanding_handles", toString h.toNat)]
  | .notResizable op => labelled "NotResizable" [("operation", Quoted.quote op)]
  | .refcountUnderflow op => labelled "RefcountUnderflow" [("operation", Quoted.quote op)]

end Violation

/-- What ends a running operation. -/
inductive Fault where
  /-- A contract was broken, and the program stops. -/
  | violation (v : Violation)
  /-- A host function panicked. The payload is a text or something else. -/
  | panic (payload : Option String)
  /-- A panic reached an entry point of the C surface, and the program stops. -/
  | boundary (payload : Option String)
  /-- A panic reached a function with the C calling convention that is not an entry point, and the
  program stops. -/
  | noUnwind
  /-- Destructors were nested deeper than the machine allows. -/
  | tooDeep
  deriving DecidableEq, Repr

namespace Fault

/-- The last line that a stopped program prints, and nothing for a fault that can be caught. -/
def stopLine? : Fault → Option String
  | .violation v => some ("kiln: fatal error: " ++ v.message)
  | .boundary p => some ("kiln: panic at FFI boundary: " ++ p.getD "unknown panic payload")
  | .panic _ => none
  | .noUnwind => some "thread caused non-unwinding panic. aborting."
  | .tooDeep => some "stack overflow"

/-- What a fault becomes where a panic cannot unwind. -/
def barred : Fault → Fault
  | .panic _ => .noUnwind
  | f => f

end Fault

end CountedHeap
