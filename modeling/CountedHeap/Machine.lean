/-
Running against a host

The runtime calls out to its host for storage, for destructors and closures, and for its atomic
primitives. A `Host` holds what happens in each of those calls; a `Machine` is a computation that
changes the world and ends with a value or a `Fault`, and an `Attempt` may also end with an
`AllocError` for its caller.

A fault keeps the world as it was when the fault arose, so a host that catches one goes on from
there.
-/
import CountedHeap.World
import CountedHeap.Fault
import CountedHeap.Trace

namespace CountedHeap

/-- A computation of the runtime or of its host. -/
abbrev Machine (σ : Type) := EStateM Fault (World σ)

/-- A computation that may fail to get storage. -/
abbrev Attempt (σ : Type) := ExceptT AllocError (Machine σ)

/-- A word that is counted up and down: one in memory, or one of the statistics. -/
inductive Cell where
  | word (a : Addr)
  | counter (c : Counter)
  deriving DecidableEq, Repr

/-- What an allocator does with its three kinds of requests. -/
structure Allocator (σ : Type) where
  /-- Storage of the given size, or null. -/
  allocate : Word → Machine σ Addr
  /-- A block with the contents of an old one and a new size, or null. -/
  reallocate : Addr → Word → Machine σ Addr
  /-- Takes a block back. -/
  free : Addr → Machine σ Unit

/-- What the host does when it is called. Functions are known by address. -/
structure Host (σ : Type) where
  /-- The allocator made of a triple of functions. -/
  functions : HeapFunctions → Allocator σ
  /-- The allocator object at an address, where the host wrote its code. -/
  object : Addr → Allocator σ
  /-- The external allocator at an address. -/
  external : Addr → ExternalAllocator
  /-- The functions of an external allocator, called with its token. -/
  externalFunctions : ExternalAllocator → Allocator σ
  /-- A destructor, called with payload, size and info word. -/
  destructor : Addr → Addr → Word → Addr → Machine σ Unit
  /-- A finalizer, called with the payload. -/
  finalizer : Addr → Addr → Machine σ Unit
  /-- A closure, called with payload and size. -/
  closure : Nat → Addr → Word → Machine σ Unit
  /-- A closure is given up. -/
  dropClosure : Nat → Machine σ Unit
  /-- A counting function, which returns the new value it claims. -/
  step : Addr → Cell → Machine σ Word
  /-- A compare-and-swap function, called with slot, expected and new word: what it leaves in the
  cell for the old value, if anything, and its answer. -/
  compareSwap : Addr → Addr → Word → Word → Machine σ (Option Word × Int)
  /-- The host takes note of a line of the debug trace. -/
  note : Trace → σ → σ

namespace Machine

variable {σ : Type}

/-- The value of a counted word. -/
def read (c : Cell) : Machine σ Word := do
  let w ← get
  match c with
  | .word a => return w.memory.word a
  | .counter k => return w.stats.get k

/-- Replaces a counted word. -/
def write (c : Cell) (v : Word) : Machine σ Unit :=
  modify fun w =>
    match c with
    | .word a => { w with memory := w.memory.setWord a v }
    | .counter k => { w with stats := w.stats.set v k }

/-- The word at an address. -/
def load (a : Addr) : Machine σ Word := return (← get).memory.word a

/-- Replaces the word at an address. -/
def store (a : Addr) (v : Word) : Machine σ Unit :=
  modify fun w => { w with memory := w.memory.setWord a v }

/-- Replaces `n` bytes from an address on by one byte. -/
def fill (a : Addr) (n : Word) (b : UInt8) : Machine σ Unit :=
  modify fun w => { w with memory := w.memory.fill a n.toNat b }

/-- Ends the program for a broken contract. -/
def violate {α : Type} (v : Violation) : Machine σ α := throw (.violation v)

/-- Runs a function with the C calling convention, through which a panic cannot unwind. -/
def withoutUnwinding {α : Type} (x : Machine σ α) : Machine σ α :=
  tryCatch x fun f => throw f.barred

/-! ### What a computation does to a world -/

variable {α β : Type} (w : World σ)

theorem pure_apply (a : α) : (pure a : Machine σ α) w = .ok a w := rfl

theorem bind_apply (x : Machine σ α) (f : α → Machine σ β) :
    (x >>= f) w = match x w with
      | .ok a w' => f a w'
      | .error e w' => .error e w' := by
  show EStateM.bind x f w = _
  unfold EStateM.bind
  cases x w <;> rfl

/-- A sequence that comes to its end has both of its parts come to theirs. -/
theorem exists_of_bind {x : Machine σ α} {f : α → Machine σ β} {w w' : World σ} {b : β}
    (e : (x >>= f) w = .ok b w') :
    ∃ a w₁, x w = .ok a w₁ ∧ f a w₁ = .ok b w' := by
  rw [bind_apply] at e
  cases hx : x w with
  | ok a w₁ => exact ⟨a, w₁, rfl, by rwa [hx] at e⟩
  | error e' w₁ =>
    rw [hx] at e
    cases e

theorem get_apply : (get : Machine σ (World σ)) w = .ok w w := rfl

theorem modify_apply (f : World σ → World σ) : (modify f : Machine σ Unit) w = .ok () (f w) := rfl

theorem throw_apply (e : Fault) : (throw e : Machine σ α) w = .error e w := rfl

/-- A caught fault leaves the world as it was when the fault arose. -/
theorem tryCatch_apply (x : Machine σ α) (f : Fault → Machine σ α) :
    (tryCatch x f) w = match x w with
      | .ok a w' => .ok a w'
      | .error e w' => f e w' := by
  show EStateM.tryCatch x f w = _
  unfold EStateM.tryCatch
  cases x w <;> rfl

theorem withoutUnwinding_apply (x : Machine σ α) :
    withoutUnwinding x w = match x w with
      | .ok a w' => .ok a w'
      | .error e w' => .error e.barred w' := tryCatch_apply w x _

theorem withoutUnwinding_pure (a : α) : withoutUnwinding (pure a : Machine σ α) = pure a := rfl

section CFunctions

variable {w}
variable {v : World σ} {x y : Machine σ α}

/-- A function that comes to its end is none the worse for it. -/
theorem withoutUnwinding_eq_ok {a : α} {w' : World σ} :
    withoutUnwinding x w = .ok a w' ↔ x w = .ok a w' := by
  rw [withoutUnwinding_apply]
  cases x w <;> simp

theorem withoutUnwinding_of_error {e : Fault} {w' : World σ} (h : x w = .error e w') :
    withoutUnwinding x w = .error e.barred w' := by
  rw [withoutUnwinding_apply, h]

theorem withoutUnwinding_congr (h : x w = y v) : withoutUnwinding x w = withoutUnwinding y v := by
  rw [withoutUnwinding_apply, withoutUnwinding_apply, h]

end CFunctions

/-- A panic gets past neither of two parts if it does not get past both. -/
theorem withoutUnwinding_bind (x : Machine σ α) (f : α → Machine σ β) :
    withoutUnwinding (x >>= f) = withoutUnwinding x >>= fun a => withoutUnwinding (f a) := by
  funext w
  simp only [withoutUnwinding_apply, bind_apply]
  cases x w <;> rfl

theorem read_apply (c : Cell) :
    (read c : Machine σ Word) w = .ok (match c with
      | .word a => w.memory.word a
      | .counter k => w.stats.get k) w := by
  cases c <;> rfl

theorem load_apply (a : Addr) : (load a : Machine σ Word) w = .ok (w.memory.word a) w := rfl

theorem store_apply (a : Addr) (v : Word) :
    (store a v : Machine σ Unit) w = .ok () { w with memory := w.memory.setWord a v } := rfl

end Machine

/-- Tells the host about an event, if it listens. -/
def Host.trace {σ : Type} (h : Host σ) (t : Trace) : Machine σ Unit :=
  modify fun w => if w.tracing then { w with host := h.note t w.host } else w

/-- Without a listener, tracing does nothing. -/
theorem Host.trace_apply_of_not_tracing {σ : Type} (h : Host σ) (t : Trace) {w : World σ}
    (hw : w.tracing = false) : h.trace t w = .ok () w := by
  simp [Host.trace, Machine.modify_apply, hw]

end CountedHeap
