/-
The host's state while a scenario runs

The two regions that hand out storage, what the fixtures have seen, the names that the steps have
given, and the events that were noted since the step began.
-/
import CountedHeap.Machine
import CountedHeap.Ref
import CountedHeap.Scenario.Answer
import CountedHeap.Scenario.Region
import CountedHeap.Scenario.Step

namespace CountedHeap.Scenario

/-- Things under names; a name that is used again stands for the new thing. -/
abbrev Names (α : Type) := List (String × α)

namespace Names

variable {α : Type}

/-- The thing under a name. -/
def get? (ns : Names α) (x : String) : Option α := ns.lookup x

/-- Takes a name away. -/
def erase (ns : Names α) (x : String) : Names α := ns.filter fun e => e.1 != x

/-- Gives a name to a thing. -/
def insert (ns : Names α) (x : String) (a : α) : Names α := (x, a) :: ns.erase x

theorem get?_insert_self (ns : Names α) (x : String) (a : α) : (ns.insert x a).get? x = some a := by
  simp [get?, insert]

theorem get?_erase_self (ns : Names α) (x : String) : (ns.erase x).get? x = none := by
  rw [get?, List.lookup_eq_none_iff]
  intro e he
  have hne : e.1 ≠ x := by simpa using (List.mem_filter.1 he).2
  simpa using hne.symm

end Names

/-- How often the counting fixtures were called. -/
structure Fixtures where
  destructorCalls : Word := 0
  destructorBytes : Word := 0
  elementCalls : Word := 0
  managedCalls : Word := 0
  deriving Repr, Inhabited

/-- The state of the host. -/
structure Stage where
  arena : Region := { base := arenaBase, limit := arenaSize }
  /-- the memory of the C library -/
  system : Region := { base := 0x60C4E9B3A6510000, limit := 0x4000000000000000 }
  /-- the blocks that the quarantine keeps -/
  held : List Addr := []
  fixtures : Fixtures := {}
  /-- the events since the step began, the last one first -/
  log : List Event := []
  handles : Names Handle := []
  /-- payload and size of each handle when they were last noted -/
  saved : Names (Addr × Word) := []
  storage : Names Addr := []
  refs : Names Ref := []
  scripts : Names (List Step) := []
  closures : Array (String × List Step) := #[]

/-- A computation of a scenario's host. -/
abbrev Play := Machine Stage

/-- Notes an event. -/
def emit (e : Event) : Play Unit :=
  modify fun w => { w with host := { w.host with log := e :: w.host.log } }

/-- Changes the host's state. -/
def modifyStage (f : Stage → Stage) : Play Unit := modify fun w => { w with host := f w.host }

/-- Changes the arena and answers what the change yields. -/
def withArena {α : Type} (f : Region → α × Region) : Play α :=
  modifyGet fun w =>
    let (a, r) := f w.host.arena
    (a, { w with host := { w.host with arena := r } })

/-- Changes the C library's memory and answers what the change yields. -/
def withSystem {α : Type} (f : Region → α × Region) : Play α :=
  modifyGet fun w =>
    let (a, r) := f w.host.system
    (a, { w with host := { w.host with system := r } })

/-- The bytes from an address on. -/
def bytesAt (a : Addr) (n : Word) : Play Runs :=
  return Runs.ofBytes ((← get).memory.bytes a n.toNat)

/-- The four slots for words that are compared and swapped. -/
def slotAddr (i : Nat) : Addr := staticBase + 0x3000 + 8 * UInt64.ofNat i

/-- A word for trying out primitives. -/
def scratchAddr : Addr := staticBase + 0x4000

end CountedHeap.Scenario
