/-
The allocators of a scenario

Storage from the arena, where every request is reported, and from the C library's memory, where
none is. New blocks of the arena are filled with one byte, so that a reader can tell them apart
from memory that was written.
-/
import CountedHeap.Heap
import CountedHeap.Scenario.Stage

namespace CountedHeap.Scenario

/-- The fill of a new block of the arena. -/
def arenaFill : UInt8 := 0xA5

/-- The arena, reporting under a tag. -/
def arenaAllocator (tag : Tag) : Allocator Stage where
  allocate n := do
    match ← withArena (·.malloc n) with
    | some p =>
      Machine.fill p n arenaFill
      emit (.malloc tag.name n p)
      return p
    | none =>
      emit (.malloc tag.name n 0)
      return 0
  reallocate p n := do
    match ← withArena (·.realloc p n) with
    | .unknown =>
      emit (.reallocBad tag.name p n)
      return 0
    | .refused =>
      emit (.realloc tag.name p n 0)
      return 0
    | .inPlace =>
      emit (.realloc tag.name p n p)
      return p
    | .moved q old =>
      Machine.fill q n arenaFill
      modify fun w => { w with memory := w.memory.copy p q old.toNat }
      emit (.realloc tag.name p n q)
      return q
  free p := do
    if ← withArena (·.free p) then emit (.free tag.name p) else emit (.freeBad tag.name p)

/-- An allocator that reports requests for new blocks and refuses them. -/
def refusingAllocator (tag : Tag) : Allocator Stage :=
  { arenaAllocator tag with
    allocate n := do
      emit (.malloc tag.name n 0)
      return 0 }

/-- The size from which on the C library refuses requests. -/
def systemLimit : Word := 0x1000000000000000

/-- The C library's memory. Resizing null makes a new block. -/
def systemAllocator : Allocator Stage where
  allocate := allocate
  reallocate p n := do
    if p = 0 then allocate n
    else if systemLimit ≤ n then return 0
    else
      match ← withSystem (·.realloc p n) with
      | .unknown | .refused => return 0
      | .inPlace => return p
      | .moved q old =>
        modify fun w => { w with memory := w.memory.copy p q old.toNat }
        return q
  free p := discard (withSystem (·.free p))
where
  allocate (n : Word) : Play Addr := do
    if systemLimit ≤ n then return 0
    return (← withSystem (·.malloc n)).getD 0

/-- The allocator made of a triple of functions: each request goes to its own function. -/
def functionsAllocator (f : HeapFunctions) : Allocator Stage where
  allocate n := (behind f.malloc HeapFunctions.libc.malloc).allocate n
  reallocate p n := (behind f.realloc HeapFunctions.libc.realloc).reallocate p n
  free p := (behind f.free HeapFunctions.libc.free).free p
where
  /-- The allocator to which a function belongs. -/
  behind (fn library : Addr) : Allocator Stage :=
    if fn = library then systemAllocator
    else
      match Function.ofAddr? fn with
      | some (.heap tag _) => arenaAllocator tag
      | _ => ⟨fun _ => return 0, fun _ _ => return 0, fun _ => return⟩

/-- Blocks of the C library that are kept when they are given back. -/
def quarantineAllocator : Allocator Stage :=
  { systemAllocator.atLeastOne with
    free p := modifyStage fun s => { s with held := s.held ++ [p] } }

/-- An allocator that refuses every request. -/
def failingAllocator : Allocator Stage := ⟨fun _ => return 0, fun _ _ => return 0, fun _ => return⟩

/-- An allocator that panics when it is asked for storage. -/
def panickingAllocator (payload : Word → Option String) : Allocator Stage where
  allocate n := throw (.panic (payload n))
  reallocate _ n := throw (.panic (payload n))
  free _ := return

/-- The allocator object at an address. -/
def objectAllocator (a : Addr) : Allocator Stage :=
  match HeapName.ofAddr? a with
  | some .arena => arenaAllocator .arena
  | some .quarantine => quarantineAllocator
  | some .panicStr => panickingAllocator fun _ => some "heap down"
  | some .panicString => panickingAllocator fun n => some ("heap down at " ++ toString n.toNat)
  | some .panicAny => panickingAllocator fun _ => none
  | _ => failingAllocator

/-- The functions of an external allocator: its token says under which tag it reports. -/
def externalAllocator (e : ExternalAllocator) : Allocator Stage :=
  match (ExternalName.ofToken? e.token).bind ExternalName.tag? with
  | some .extFail => refusingAllocator .extFail
  | some tag => arenaAllocator tag
  | none => failingAllocator

/-- The external allocator at an address. -/
def externalAt (a : Addr) : ExternalAllocator :=
  ((ExternalName.ofAddr? a).map ExternalName.allocator).getD ⟨0, 0, 0, 0⟩

end CountedHeap.Scenario
