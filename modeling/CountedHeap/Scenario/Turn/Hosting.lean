/-
Steps on storage and on the host

* `answerStorage`, `playCombined`: raw storage, and storage for a header with
  its payload.
* `playCall`: a direct request to an allocator.
* `range`: the bytes that a step may read and write.
* `playCompareSwap`: a slot, through either surface.
-/
import CountedHeap.Layout
import CountedHeap.Scenario.Storage
import CountedHeap.Scenario.Turn.Basic

namespace CountedHeap.Scenario

variable (h : Host Stage)

/-! ### Raw storage -/

/-- Answers an attempt to get storage, and gives the storage a name. -/
def answerStorage (x : String) (r : Except AllocError Addr) : Turn Answer := do
  match r with
  | .ok p =>
    nameStorage x p
    return .block p
  | .error e => return .error e

/-- Answers a pointer from C, and gives the storage a name. -/
def answerPointer (x : String) (p : Addr) : Turn Answer := do
  if p = 0 then return .null
  nameStorage x p
  return .block p

/-- Storage for a header and a payload. -/
def playCombined (size : Word) (align : Option Word) (e : Option ExternalName) (x : String) :
    Turn Answer := do
  let attempt :=
    match align with
    | none => allocateCombined h size (externalAddr e)
    | some a => allocateCombinedAligned h size a (externalAddr e)
  match ← lift attempt.run with
  | .ok c =>
    nameStorage x c.header
    if Place.of c.header = .system then
      let a := effectiveAlign (align.getD 1)
      return .combinedOnSystem c.header c.payload (c.payload % a == 0)
    return .combined c.header c.payload c.offset
  | .error e => return .error e

/-! ### The host's own steps -/

/-- A direct request to an allocator. -/
def playCall (a : Allocator Stage) : AllocatorCall → Turn Answer
  | .allocate n x => do answerPointer x (← lift (a.allocate n))
  | .reallocate p n x => do
    let p ← p.resolve
    answerPointer x (← lift (a.reallocate p n))
  | .free p => do
    let p ← p.resolve
    lift (a.free p)
    return .done

/-- Changes the arena. -/
def playArena (limit skip failIn : Option Word) : Turn Answer := do
  lift (withArena fun r =>
    let r := match limit with
      | some n => { r with limit := min n.toNat arenaSize }
      | none => r
    let r := match skip with
      | some n => r.skip n.toNat
      | none => r
    let r := match failIn with
      | some n => { r with failIn := some n.toNat }
      | none => r
    ((), r))
  return .done

/-- The longest range of bytes that a step may touch. -/
def rangeLimit : Nat := 65536

/-- A range of bytes that a step may touch: it lies in one of the two regions, or in the payload
of a handle as it was last noted. -/
def range (p : Pointer) (offset : Word) (length : Nat) : Turn Addr := do
  let a ← p.resolve
  if rangeLimit < length then badInput
  if UInt64.size ≤ a.toNat + offset.toNat then badInput
  let start := a + offset
  if within arenaBase arenaSize start length || within foreignBase foreignSize start length then
    return start
  let x ← require p.name?
  let (payload, size) ← require ((← stage).saved.get? x)
  if a = payload && offset.toNat + length ≤ size.toNat then return start else badInput

/-- Slots are numbered from zero to three. -/
def slot (i : Nat) : Turn Addr := if i < 4 then return slotAddr i else badInput

/-- What a caller's cell for the old word holds beforehand. -/
def oldCellBefore : Word := 57005

/-- Compares and swaps a slot; only C takes a null slot. -/
def playCompareSwap (via : Surface) (i : Option Nat) (expected new : Word) (reportOld : Bool) :
    Turn Answer := do
  match via, i with
  | .direct, some i =>
    let a ← slot i
    return .swapped (← lift (compareAndSwap h a expected new))
  | .c, i =>
    let a ← match i with
      | some i => slot i
      | none => pure 0
    let cell := if reportOld then some oldCellBefore else none
    let (stored, old) ← lift (Entry.compareAndSwap h a expected new cell)
    return .swapCode stored (old.getD oldCellBefore)
  | _, _ => badInput

/-- The fixtures' counters, as an answer. -/
def playCounts : Turn Answer := do
  let f := (← stage).fixtures
  return .counts f.destructorCalls f.destructorBytes f.elementCalls f.managedCalls

/-- Gives up the blocks in quarantine. -/
def drain : Play Unit := do
  let held := (← get).host.held
  modifyStage fun s => { s with held := [] }
  held.forM fun p => (HeapObject.system.allocator h).free p

end CountedHeap.Scenario
