/-
The state of the runtime

What the runtime is bound to (its default heap and its atomic primitives), what it counts, the
memory it works on, and the state of the host around it.

* `Bindings`: the installed default heap, increment and decrement, compare and swap;
* `Interned.find?_intern`, `Interned.find?_intern_of_find?`: a triple has the object that it got
  first, whatever was interned since;
* `Boxes`: closures that wait in a handle's info word; a box is emptied once;
* `World`: all of it.
-/
import CountedHeap.Code
import CountedHeap.Stats

namespace CountedHeap

/-! ### Default heaps -/

/-- The three functions of an allocator, by address. -/
structure HeapFunctions where
  malloc : Addr
  realloc : Addr
  free : Addr
  deriving DecidableEq, Repr

/-- The C library's allocator. -/
def HeapFunctions.libc : HeapFunctions := ⟨codeBase + 0x100, codeBase + 0x110, codeBase + 0x120⟩

/-- How an allocator object serves its requests. -/
inductive HeapKind where
  /-- through the C library -/
  | system
  /-- through a triple of functions -/
  | functions (fns : HeapFunctions)
  /-- by the host's own code for this object -/
  | custom
  deriving DecidableEq, Repr

/-- An allocator object. Two objects are the same when they have the same address, even if they
serve requests in the same way. -/
structure HeapObject where
  addr : Addr
  kind : HeapKind
  deriving DecidableEq, Repr

/-- The heap that a fresh runtime is bound to. -/
def HeapObject.system : HeapObject := ⟨staticBase, .system⟩

/-! ### Allocators of single handles -/

/-- An allocator chosen for one handle: three functions and a token that each of them is given. -/
structure ExternalAllocator where
  malloc : Addr
  realloc : Addr
  free : Addr
  token : Addr
  deriving DecidableEq, Repr

namespace ExternalAllocator

/-- The token that the sample allocator's functions ask for. It is compared by address. -/
def sampleToken : Addr := staticBase + 0x40

/-- An allocator that passes every request on to the default heap. -/
def sample : ExternalAllocator :=
  ⟨codeBase + 0x130, codeBase + 0x140, codeBase + 0x150, sampleToken⟩

/-- The value behind that token. Nothing reads it. -/
def sampleTokenValue : Word := 0xABACAD

/-- Where the sample allocator lies. -/
def sampleAddr : Addr := staticBase + 0x80

end ExternalAllocator

/-! ### Atomic primitives -/

/-- A pair of functions that count a word up and down. -/
structure IncDecFunctions where
  inc : Addr
  dec : Addr
  deriving DecidableEq, Repr

/-- How counts are changed. -/
inductive IncDec where
  /-- by a load and a store -/
  | stub
  /-- by the machine's atomic instructions -/
  | native
  /-- by functions of the host -/
  | functions (fns : IncDecFunctions)
  deriving DecidableEq, Repr

/-- How words are compared and swapped. -/
inductive CompareSwap where
  /-- by a load and a store -/
  | stub
  /-- by the machine's atomic instruction -/
  | native
  /-- by a function of the host -/
  | function (fn : Addr)
  deriving DecidableEq, Repr

/-- What the runtime is bound to. -/
structure Bindings where
  heap : HeapObject := .system
  incDec : IncDec := .stub
  cas : CompareSwap := .stub
  deriving DecidableEq, Repr, Inhabited

/-! ### Interned function triples -/

/-- The triples that were installed as functions, in the order of their first use, each with the
object that stands for it. -/
abbrev Interned := List (HeapFunctions × Addr)

namespace Interned

/-- Where the objects of interned triples lie. -/
def base : Addr := 0x51D7E9B3A6510000

/-- The object of a triple, if it has one. -/
def find? (r : Interned) (f : HeapFunctions) : Option Addr := r.lookup f

/-- The object of a triple, made at a new address when the triple is new. -/
def intern (r : Interned) (f : HeapFunctions) : HeapObject × Interned :=
  match r.find? f with
  | some a => (⟨a, .functions f⟩, r)
  | none =>
    let a := base + 32 * UInt64.ofNat r.length
    (⟨a, .functions f⟩, r ++ [(f, a)])

theorem intern_of_find? {r : Interned} {f : HeapFunctions} {a : Addr} (e : r.find? f = some a) :
    r.intern f = (⟨a, .functions f⟩, r) := by
  simp [intern, e]

/-- A triple that was just interned has the object that was answered. -/
theorem find?_intern (r : Interned) (f : HeapFunctions) :
    (r.intern f).2.find? f = some (r.intern f).1.addr := by
  unfold intern
  cases e : r.find? f with
  | some a => exact e
  | none =>
    have e' : List.lookup f r = none := e
    simp [find?, List.lookup_append, e']

/-- What was interned stays: a triple keeps its object. -/
theorem find?_intern_of_find? {r : Interned} {f g : HeapFunctions} {a : Addr}
    (e : r.find? g = some a) : (r.intern f).2.find? g = some a := by
  have e' : List.lookup g r = some a := e
  unfold intern
  cases r.find? f with
  | some b => exact e
  | none => simp [find?, List.lookup_append, e']

end Interned

/-! ### Boxed closures -/

/-- Closures on their way to a destructor. The host knows a closure by number; the runtime keeps
it at an address of its own until it is called or dropped. -/
structure Boxes where
  /-- how many boxes were ever made -/
  made : Nat := 0
  live : List (Addr × Nat) := []
  deriving Repr, Inhabited

namespace Boxes

/-- Where boxes lie. -/
def base : Addr := 0x5B0CE9B3A6510000

/-- The closure in a box. -/
def find? (b : Boxes) (a : Addr) : Option Nat := b.live.lookup a

/-- Where a new box lies: each box has the place behind the one before, unless a box that is still
there lies in it. -/
def next (b : Boxes) : Addr :=
  let places := (List.range (b.live.length + 1)).map fun i =>
    base + 16 * UInt64.ofNat (b.made + i)
  (places.find? fun a => (b.find? a).isNone).getD base

/-- Puts a closure into a new box. -/
def make (b : Boxes) (closure : Nat) : Addr × Boxes :=
  (b.next, ⟨b.made + 1, (b.next, closure) :: b.live⟩)

/-- Takes a box away. -/
def erase (b : Boxes) (a : Addr) : Boxes := { b with live := b.live.filter fun e => e.1 != a }

/-- A new box holds its closure. -/
theorem find?_make (b : Boxes) (closure : Nat) :
    (b.make closure).2.find? (b.make closure).1 = some closure := by
  simp [find?, make]

/-- A box that was taken away holds nothing. -/
theorem find?_erase (b : Boxes) (a : Addr) : (b.erase a).find? a = none := by
  rw [find?, erase, List.lookup_eq_none_iff]
  intro e he
  have hne : e.1 ≠ a := by simpa using (List.mem_filter.1 he).2
  simpa using hne.symm

/-- Where there is no box, none is taken away. -/
theorem erase_of_find?_eq_none {b : Boxes} {a : Addr} (h : b.find? a = none) : b.erase a = b := by
  have hkept : b.live.filter (fun e => e.1 != a) = b.live := by
    rw [List.filter_eq_self]
    intro e he
    have hne : a ≠ e.1 := by simpa using List.lookup_eq_none_iff.1 h e he
    simpa using hne.symm
  rw [erase, hkept]

/-- Other boxes stay as they are. -/
theorem find?_erase_of_ne (b : Boxes) {a a' : Addr} (h : a' ≠ a) :
    (b.erase a).find? a' = b.find? a' := by
  unfold find? erase
  induction b.live with
  | nil => rfl
  | cons e live ih =>
    by_cases he : e.1 = a
    · have hne : (a' == e.1) = false := by simpa [he] using h
      rw [List.filter_cons_of_neg (by simpa using he), ih, List.lookup_cons, hne]
    · rw [List.filter_cons_of_pos (by simpa using he), List.lookup_cons, List.lookup_cons, ih]

end Boxes

/-! ### The whole state -/

/-- The runtime and its surroundings; `σ` is the state of the host. -/
structure World (σ : Type) where
  memory : Memory := .zero
  bindings : Bindings := {}
  shuttingDown : Bool := false
  stats : Stats := {}
  interned : Interned := []
  boxes : Boxes := {}
  /-- Whether the host is told what the runtime does. -/
  tracing : Bool := false
  host : σ

end CountedHeap
