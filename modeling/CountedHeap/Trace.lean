/-
The debug trace

The runtime can tell its host what it does, one line for each event. An event is kept as data;
`Trace.text` is its line, for a given way of writing addresses.
-/
import CountedHeap.Memory.Basic

namespace CountedHeap

/-- An event of the debug trace. -/
inductive Trace where
  | started
  | shutDown
  | allocatorSet
  /-- Storage was handed out. -/
  | allocated (p : Addr) (size : Word)
  /-- Storage is about to be taken back. -/
  | freed (p : Addr)
  /-- A header was written. -/
  | headerWritten (b ext : Addr)
  /-- A header without payload was allocated. -/
  | headerAllocated (b : Addr)
  /-- Header and payload were allocated together, by the operation of this name. -/
  | payloadAllocated (operation : String) (payload : Addr)
  /-- The same, where the operation reports the size too. -/
  | payloadSized (operation : String) (payload : Addr) (size : Word)
  /-- A resizable handle was made. -/
  | resizableMade (size : Word) (b data : Addr)
  /-- A resizable handle got a new payload from the operation of this name. -/
  | payloadReplaced (operation : String) (b : Addr) (size : Word) (data : Addr)
  | acquire (b : Addr) (count : Word)
  | release (b : Addr) (count : Word)
  /-- The destructor of a handle is due. -/
  | destructorDue (b : Addr)
  /-- The storage of a handle is about to be given back. -/
  | dealloc (b ext : Addr)
  /-- An adapter with this name was entered. -/
  | adapter (name : String) (data info : Addr)
  /-- The payload of a resizable handle is about to be finalized. -/
  | payloadDue (data : Addr)
  deriving DecidableEq, Repr

/-- The line for an event; `showAddr` writes an address. -/
def Trace.text (showAddr : Addr → String) : Trace → String
  | started => "memsys init"
  | shutDown => "memsys shutdown"
  | allocatorSet => "memsys set_allocator"
  | allocated p n => "allocate " ++ showAddr p ++ " size " ++ toString n.toNat
  | freed p => "free " ++ showAddr p
  | headerWritten b ext => "init " ++ showAddr b ++ " external_allocator=" ++ showAddr ext
  | headerAllocated b => "new " ++ showAddr b
  | payloadAllocated op p => op ++ " " ++ showAddr p
  | payloadSized op p n => op ++ " " ++ showAddr p ++ " " ++ toString n.toNat
  | resizableMade n b d =>
    "new_varsize size=" ++ toString n.toNat ++ " -> " ++ showAddr b ++ ", data=" ++ showAddr d
  | payloadReplaced op b n d =>
    op ++ " " ++ showAddr b ++ " size=" ++ toString n.toNat ++ " -> data=" ++ showAddr d
  | acquire b c => "acquire " ++ showAddr b ++ " refct=" ++ toString c.toNat
  | release b c => "release " ++ showAddr b ++ " refct=" ++ toString c.toNat
  | destructorDue b => "call_dtor " ++ showAddr b
  | dealloc b ext => "dealloc " ++ showAddr b ++ " external_allocator=" ++ showAddr ext
  | adapter name d i => name ++ " " ++ showAddr d ++ ", " ++ showAddr i
  | payloadDue d => "varsize_dtor " ++ showAddr d

end CountedHeap
