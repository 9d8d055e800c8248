/-
What a scenario reports

An `Answer` is the result of one step, and an `Event` is something that the host saw while the step
ran.
-/
import CountedHeap.Handle.Header
import CountedHeap.Fault
import CountedHeap.Trace

namespace CountedHeap.Scenario

/-- What a step that shows a handle tells about it. -/
structure Snapshot where
  header : Addr
  payload : Addr
  size : Word
  refcount : Word
  info : Word
  external : Addr
  /-- not available through C -/
  kind : Option Kind
  /-- for an owned reference: whether there is a payload, and the reference as a record -/
  owned : Option (Bool × String) := none
  deriving Repr

/-- The result of a step. -/
inductive Answer where
  | done
  | badInput
  | null
  | error (e : AllocError)
  | panic (payload : Option String)
  | flag (b : Bool)
  | number (w : Word)
  | pointer (a : Addr)
  | text (s : String)
  | runs (r : Runs)
  | stats (s : Stats)
  | counters (s : Stats)
  | swapped (old : Except Word Word)
  | swapCode (stored : Bool) (old : Word)
  | counts (calls bytes element managed : Word)
  /-- a pointer, wrapped as a success -/
  | block (p : Addr)
  | combined (header payload offset : Addr)
  | combinedOnSystem (header payload : Addr) (aligned : Bool)
  /-- a new handle, with whether its payload is aligned if that was asked for -/
  | made (s : Snapshot) (aligned : Option Bool)
  | snapshot (s : Snapshot)
  | nullRefcount (n : Word)
  | resized (p : Addr) (info : Snapshot)
  | notResized (e : AllocError) (info : Snapshot)
  | infoOnly (info : Snapshot)
  | words (refcount destructor info payload size external : Word)
  | threads (total refcount calls bytes : Word) (invalid : Bool)

/-- Something that the host saw. -/
inductive Event where
  | malloc (tag : String) (size : Word) (p : Addr)
  | realloc (tag : String) (p : Addr) (size : Word) (q : Addr)
  | reallocBad (tag : String) (p : Addr) (size : Word)
  | free (tag : String) (p : Addr)
  | freeBad (tag : String) (p : Addr)
  | destructor (name : String) (data : Addr) (size : Word) (info : Addr)
  | finalizer (name : String) (data : Addr)
  | bytes (r : Runs)
  | closure (name : String) (data : Addr) (size : Word)
  | closureDropped (name : String)
  /-- A word was counted; a statistic has no address. -/
  | counted (up : Bool) (word : Option Addr) (new : Word)
  | swap (expected new : Word) (answer : Int)
  | step (a : Answer) (s : Stats)
  | scriptEnded (name : String)
  | trace (t : Trace)

/-- The answer of a step, the events while it ran, and the counters after it. -/
structure Report where
  answer : Answer
  events : List Event
  stats : Stats

end CountedHeap.Scenario
