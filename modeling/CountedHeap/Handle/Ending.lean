/-
References, and the end of a handle

The release that brings the count to zero runs the destructor, unless the runtime is shutting down,
and then gives the storage back. The destructor, the payload, its size and the info word are the
ones that the header holds at that moment. Taking or giving up a reference when the count is zero
is a broken contract.
-/
import CountedHeap.Handle.Creation

namespace CountedHeap

variable {σ : Type} (h : Host σ)

namespace Adapter

/-- Calls the destructor in the info word, if there is one. -/
def runCustom (data : Addr) (size : Word) (info : Addr) : Machine σ Unit := do
  h.trace (.adapter "custom_dtor" data info)
  if info ≠ 0 then h.destructor info data size 0

/-- What an adapter does when it is called as a destructor. -/
def run (a : Adapter) (data : Addr) (size : Word) (info : Addr) : Machine σ Unit := do
  match a with
  | .custom => runCustom h data size info
  | .customSafe =>
    h.trace (.adapter "custom_dtor_safe" data info)
    runCustom h data size info
    Machine.fill data size Poison.freed
  | .safe =>
    h.trace (.adapter "dtor_safe" data info)
    Machine.fill data info Poison.freed
  | .managed => if info ≠ 0 then h.finalizer info data
  | .boxed =>
    if let some c ← Handle.unboxClosure info then
      h.closure c data size
      h.dropClosure c
  | .resizable =>
    h.trace (.payloadDue data)
    if data ≠ 0 then
      if info ≠ 0 then h.finalizer info data
      Storage.free h data

end Adapter

/-- Calls the destructor at an address: an adapter, or a function of the host. Destructors are C
functions, so no panic of theirs, or of what they call, gets past one. -/
def callDestructorAt (fn data : Addr) (size : Word) (info : Addr) : Machine σ Unit :=
  Machine.withoutUnwinding <|
    match Adapter.ofAddr? fn with
    | some a => a.run h data size info
    | none => h.destructor fn data size info

namespace Handle

/-- Stops the program if the count is zero. -/
def checkLive (operation : String) (b : Handle) : Machine σ Unit := do
  if (← Machine.read b.cell) = 0 then Machine.violate (.refcountUnderflow operation)

/-- Takes one more reference. -/
def acquire (b : Handle) : Machine σ Unit := do
  h.trace (.acquire b (← Machine.read b.cell))
  checkLive "acquire" b
  let _ ← increment h b.cell

/-- Gives the storage of a handle back to the allocator that it came from. -/
def dealloc (b : Handle) : Machine σ Unit := do
  let ext ← external b
  h.trace (.dealloc b ext)
  if ext ≠ 0 then
    ((ExternalAllocator.lookup h ext).allocator h).free b
    count h .free
  else
    Storage.free h b

/-- Gives the storage of a handle back and counts the handle as ended. -/
def destroy (b : Handle) : Machine σ Unit := do
  dealloc h b
  count h .handleFree

/-- Runs the destructor, unless the runtime is shutting down, and destroys the handle. -/
def callDestructor (b : Handle) : Machine σ Unit := do
  h.trace (.destructorDue b)
  let destructor ← field b .destructor
  let data ← payload b
  let size ← size b
  let info ← info b
  if destructor ≠ 0 then
    if ¬ (← get).shuttingDown then callDestructorAt h destructor data size info
  destroy h b

/-- Gives up one reference; the last one ends the handle. -/
def release (b : Handle) : Machine σ Unit := do
  h.trace (.release b (← Machine.read b.cell))
  checkLive "release" b
  if (← decrement h b.cell) = 0 then callDestructor h b

end Handle

end CountedHeap
