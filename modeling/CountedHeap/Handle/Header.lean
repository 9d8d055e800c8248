/-
Handles and their headers

A handle is the address of a header: six words, whose order is known to callers who read them
directly, and a byte for the kind. The payload may lie behind the header, elsewhere, or nowhere.

* `Header.bytes`: the header as it lies in memory;
* `Handle.refcount`: the reference count, as callers see it.
-/
import CountedHeap.Layout

namespace CountedHeap

/-- Whether the payload of a handle can be exchanged. -/
inductive Kind where
  | fixed
  | resizable
  deriving DecidableEq, Repr

namespace Kind

/-- The byte that stands for a kind. -/
def toByte : Kind → UInt8
  | fixed => 0
  | resizable => 1

/-- The kind for which a byte stands. -/
def ofByte (b : UInt8) : Kind := if b = 1 then .resizable else .fixed

theorem ofByte_toByte (k : Kind) : ofByte k.toByte = k := by cases k <;> rfl

end Kind

/-- The contents of a header. -/
structure Header where
  refcount : Word
  /-- the function that runs when the last reference goes, or null -/
  destructor : Addr
  /-- a word that the destructor is given -/
  info : Word
  payload : Addr
  size : Word
  /-- the allocator of the block, or null for the default heap -/
  external : Addr
  kind : Kind
  deriving DecidableEq, Repr

/-- The bytes of a header: its six words, then the kind. -/
def Header.bytes (d : Header) : List UInt8 :=
  [d.refcount, d.destructor, d.info, d.payload, d.size, d.external].flatMap
    (fun w => littleEndian 8 w.toNat) ++ [d.kind.toByte]

/-- A handle is the address of its header. -/
abbrev Handle := Addr

/-- The words of a header. -/
inductive Field where
  | refcount
  | destructor
  | info
  | payload
  | size
  | external
  deriving DecidableEq, Repr

/-- How far a field lies behind the start of the header. -/
def Field.offset : Field → Word
  | refcount => 0
  | destructor => 8
  | info => 16
  | payload => 24
  | size => 32
  | external => 40

namespace Handle

variable {σ : Type}

/-- What `refcount` answers for a handle without a payload. -/
def invalidRefcount : Word := Word.largest

/-- A word of the header. -/
def field (b : Handle) (f : Field) : Machine σ Word := Machine.load (b + f.offset)

/-- Replaces a word of the header. -/
def setField (b : Handle) (f : Field) (w : Word) : Machine σ Unit := Machine.store (b + f.offset) w

/-- The payload's address. -/
def payload (b : Handle) : Machine σ Addr := field b .payload

/-- The payload's size. -/
def size (b : Handle) : Machine σ Word := field b .size

/-- The word that the destructor is given. -/
def info (b : Handle) : Machine σ Word := field b .info

/-- The allocator of the block, or null. -/
def external (b : Handle) : Machine σ Addr := field b .external

/-- Whether the payload can be exchanged. -/
def kind (b : Handle) : Machine σ Kind :=
  return .ofByte ((← get).memory.byte (b + 48).toNat)

/-- The cell that counts references. -/
def cell (b : Handle) : Cell := .word (b + Field.refcount.offset)

/-- The reference count of a handle that has a payload; a null handle and one without a payload
have an invalid count. -/
def refcount (b : Handle) : Machine σ Word := do
  if b = 0 then return invalidRefcount
  if (← payload b) = 0 then return invalidRefcount
  field b .refcount

/-- A line that names the handle and its count. -/
def dump (showAddr : Addr → String) (b : Handle) : Machine σ String := do
  let n ← field b .refcount
  return "Block " ++ showAddr b ++ " refcount " ++ toString n.toNat ++ "\n"

end Handle

end CountedHeap
