/-
Steps

A scenario as data. Names stand for what earlier steps made; a step that names something unknown is
answered as bad input when it is run.

* `Pointer.parse?`: the textual forms of an address.
-/
import CountedHeap.Scenario.Place
import CountedHeap.Handle.Header

namespace CountedHeap.Scenario

/-- The surface through which a step calls the runtime. -/
inductive Surface where
  | direct
  | c
  | table
  deriving DecidableEq, Repr

/-- An address as a scenario writes it. -/
inductive Pointer where
  | literal (a : Addr)
  /-- the storage under a name -/
  | storage (name : String)
  /-- the header of a handle -/
  | header (name : String)
  /-- the payload of a handle now -/
  | payload (name : String)
  /-- the payload of a handle when it was last noted -/
  | saved (name : String)
  deriving DecidableEq, Repr

namespace Pointer

/-- A number in decimal digits. -/
def digits? (cs : List Char) : Option Nat :=
  if cs.isEmpty then none
  else cs.foldl (fun n c => n.bind fun n =>
    if c.isDigit then some (10 * n + (c.toNat - '0'.toNat)) else none) (some 0)

/-- A number that may be written with a plus sign. -/
def number? : List Char → Option Nat
  | '+' :: cs => digits? cs
  | cs => digits? cs

/-- An offset into a region. -/
def offset? (base : Addr) (size : Nat) (cs : List Char) : Option Pointer :=
  (number? cs).bind fun n => if n < size then some (.literal (base + UInt64.ofNat n)) else none

/-- The address that a text stands for. -/
def parse? (s : String) : Option Pointer :=
  match s.toList with
  | 'A' :: '+' :: cs => offset? arenaBase arenaSize cs
  | 'F' :: '+' :: cs => offset? foreignBase foreignSize cs
  | 'p' :: ':' :: cs => some (.storage (String.ofList cs))
  | 'h' :: ':' :: cs => some (.header (String.ofList cs))
  | 'd' :: ':' :: cs => some (.payload (String.ofList cs))
  | 's' :: ':' :: cs => some (.saved (String.ofList cs))
  | _ => none

/-- The name in an address that is written with one. -/
def name? : Pointer → Option String
  | literal _ => none
  | storage x | header x | payload x | saved x => some x

end Pointer

/-- A handle as a scenario writes it. -/
inductive HandleName where
  | null
  | named (name : String)
  deriving DecidableEq, Repr

/-- The default heap that a step names. -/
inductive HeapChoice where
  | installed
  | named (n : HeapName)
  deriving DecidableEq, Repr

/-- A direct request to an allocator; a block that it yields goes under a name. -/
inductive AllocatorCall where
  | allocate (size : Word) (name : String)
  | reallocate (p : Pointer) (size : Word) (name : String)
  | free (p : Pointer)
  deriving DecidableEq, Repr

/-- A use of a handle that reports nothing. -/
inductive Use where
  | acquire
  | release
  | callDestructor
  | destroy
  | dealloc
  deriving DecidableEq, Repr

mutual

/-- A way to make a handle. -/
inductive Making where
  | new (data : Pointer) (size : Word) (destructor : Option Destructor) (info : Pointer)
  | alloc (size : Word)
  | allocExternal (size : Word) (ext : Option ExternalName)
  | allocSafe (size : Word)
  | allocDestructor (size : Word) (destructor : Option Destructor)
  | allocDestructorSafe (size : Word) (destructor : Option Destructor)
  | allocAligned (size align : Word)
  | allocSafeAligned (size align : Word)
  | allocSafeAlignedExternal (size align : Word) (ext : Option ExternalName)
  | allocClosure (size : Word) (name : String) (steps : List Step)
  | manage (data : Pointer) (finalizer : Finalizer)
  | newResizable (size : Word)
  | newResizableWith (size : Word) (finalizer : Finalizer)

/-- One step of a scenario. -/
inductive Step where
  /-- a step that could not be read -/
  | malformed
  -- configuration
  | start (via : Surface)
  | shutDown (via : Surface)
  | setIncDecStub (via : Surface)
  | setCompareSwapStub (via : Surface)
  | setAllocator (via : Surface) (heap : HeapChoice)
  | setIncDec (via : Surface) (p : IncDecName)
  | setCompareSwap (via : Surface) (p : CompareSwapName)
  | isShuttingDown
  | stats (via : Surface)
  | heapIs (heap : HeapChoice)
  | slotSet (slot : Nat) (value : Word)
  | slotGet (slot : Nat)
  | compareSwap (via : Surface) (slot : Option Nat) (expected new : Word) (reportOld : Bool)
  -- the host
  | arena (limit skip failIn : Option Word)
  | script (name : String) (steps : List Step)
  | poke (start : Pointer) (offset : Word) (bytes : Runs)
  | peek (start : Pointer) (offset length : Word)
  | counts
  | resetCounts
  | held
  | isHeld (h : String)
  | drain
  | heapCall (heap : HeapChoice) (call : AllocatorCall)
  | externalCall (ext : ExternalName) (call : AllocatorCall)
  -- raw storage
  | rawAllocate (via : Surface) (size : Word) (name : String)
  | rawAllocateExternal (via : Surface) (size : Word) (ext : Option ExternalName) (name : String)
  | rawReallocate (via : Surface) (p : Pointer) (size : Word) (name : String)
  | rawFree (via : Surface) (p : Pointer)
  | combined (size : Word) (align : Option Word) (ext : Option ExternalName) (name : String)
  -- handles
  | init (via : Surface) (h : String) (header data : Pointer) (size : Word)
      (destructor : Option Destructor) (info : Pointer) (ext : Option ExternalName)
  | make (via : Surface) (h : String) (making : Making)
  | use (via : Surface) (h : HandleName) (use : Use)
  | info (via : Surface) (h : HandleName)
  | payload (via : Surface) (h : HandleName)
  | dump (via : Surface) (h : HandleName)
  | resizableAlloc (via : Surface) (h : HandleName) (size : Word)
  | resizableRealloc (via : Surface) (h : HandleName) (size : Word)
  | resizableFree (via : Surface) (h : HandleName) (p : Pointer)
  | words (h : HandleName)
  | setWord (h : HandleName) (field : Field) (value : Pointer)
  -- owned references
  | makeRef (r : String) (making : Making)
  | cloneRef (r new : String)
  | dropRef (r : String)
  | refIntoHandle (r h : String)
  | refOfHandle (h r : String)
  | refInfo (r : String)
  | refEq (a b : String)
  | threads (n rounds : Nat) (size : Word)

end

instance : Inhabited Step := ⟨.malformed⟩

end CountedHeap.Scenario
