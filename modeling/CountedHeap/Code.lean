/-
Addresses of functions and fixed objects

A destructor is kept in a handle as a word, so the functions of the runtime need addresses, as do
the objects that are compared by address. They lie in a part of the address space that no machine
maps, so that no address a program can hold is one of them by accident.

* `Adapter`: the destructors that the runtime itself installs, and their addresses;
* `Adapter.ofAddr?_addr`: an adapter is found again at its address.
-/
import CountedHeap.Memory.Basic

namespace CountedHeap

/-- The start of the range that holds the runtime's functions. -/
def codeBase : Addr := 0x5C0DE9B3A6510000

/-- The start of the range that holds the runtime's fixed objects. -/
def staticBase : Addr := 0x5DA7A9B3A6510000

/-- The destructors that the runtime installs in the handles it makes. -/
inductive Adapter where
  /-- Calls the destructor in the info word. -/
  | custom
  /-- The same, and poisons the payload afterwards. -/
  | customSafe
  /-- Poisons as many bytes as the info word says. -/
  | safe
  /-- Calls the finalizer in the info word on memory that the caller owns. -/
  | managed
  /-- Calls the closure whose box is the info word. -/
  | boxed
  /-- Finalizes and frees the payload of a resizable handle. -/
  | resizable
  deriving DecidableEq, Repr

namespace Adapter

/-- Where an adapter's code starts. -/
def addr : Adapter → Addr
  | .custom => codeBase
  | .customSafe => codeBase + 0x10
  | .safe => codeBase + 0x20
  | .managed => codeBase + 0x30
  | .boxed => codeBase + 0x40
  | .resizable => codeBase + 0x50

/-- The adapters, by increasing address. -/
def all : List Adapter := [.custom, .customSafe, .safe, .managed, .boxed, .resizable]

/-- The adapter at an address. -/
def ofAddr? (a : Addr) : Option Adapter := all.find? fun d => d.addr = a

theorem ofAddr?_addr (d : Adapter) : ofAddr? d.addr = some d := by
  cases d <;> rfl

theorem addr_ne_zero (d : Adapter) : d.addr ≠ 0 := by
  cases d <;> decide

end Adapter

end CountedHeap
