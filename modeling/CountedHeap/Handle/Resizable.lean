/-
Resizable handles

The payload of a resizable handle is a block of its own, always from the default heap. It can be
replaced, resized and freed while the handle lives; the size that the handle reports is the one
last asked for with success.
-/
import CountedHeap.Handle.Ending

namespace CountedHeap.Handle

variable {σ : Type} (h : Host σ)

/-- A resizable handle whose payload is given to a finalizer, if there is one, when the handle
ends. The payload is allocated first and given back if there is no room for the header. -/
def newResizableWith (size : Word) (finalizer : Addr) : Attempt σ Handle := do
  let data ← Storage.allocate h size
  let b ← tryCatch (Storage.allocate h headerSize) fun e => do
    Storage.free h data
    throw e
  initWith h b data size Adapter.resizable.addr finalizer 0 .resizable
  h.trace (.resizableMade size b data)
  return b

/-- A resizable handle. -/
def newResizable (size : Word) : Attempt σ Handle := newResizableWith h size 0

/-- Stops the program if the payload of the handle cannot be exchanged. -/
def requireResizable (operation : String) (b : Handle) : Machine σ Unit := do
  if (← kind b) ≠ .resizable then Machine.violate (.notResizable operation)

/-- Exchanges payload and size. -/
def setPayload (b : Handle) (data : Addr) (size : Word) : Machine σ Unit := do
  setField b .payload data
  setField b .size size

/-- Gives a resizable handle a new payload. The old one is left to the caller. -/
def resizableAlloc (b : Handle) (size : Word) : Attempt σ Addr := do
  (requireResizable "varsize_alloc" b : Machine σ Unit)
  let data ← Storage.allocate h size
  (setPayload b data size : Machine σ Unit)
  h.trace (.payloadReplaced "varsize_alloc" b size data)
  return data

/-- Changes the size of a resizable handle's payload, or gives it one if it has none. -/
def resizableRealloc (b : Handle) (size : Word) : Attempt σ Addr := do
  let old ← (do requireResizable "varsize_realloc" b; payload b : Machine σ Addr)
  let data ←
    if old = 0 then Storage.allocate h size else Storage.reallocate h old size
  (setPayload b data size : Machine σ Unit)
  h.trace (.payloadReplaced "varsize_realloc" b size data)
  return data

/-- Frees a block; if it is the handle's payload, the handle has none afterwards. -/
def resizableFree (b : Handle) (p : Addr) : Machine σ Unit := do
  Storage.free h p
  if p = (← payload b) then setField b .payload 0

end CountedHeap.Handle
