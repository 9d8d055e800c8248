/-
Steps that make handles

A way of making handles is turned into a request, which is then served
through the surface that the step asks for.

* `Making.offered`: which surface offers which way.
* `playMake`, `playMakeRef`, `playInit`: a handle under a name, one that is
  owned by a reference, and one in storage of the scenario's.
-/
import CountedHeap.Surface.Request
import CountedHeap.Scenario.Turn.Basic

namespace CountedHeap.Scenario

variable (h : Host Stage)

/-- The alignment that a way of making handles asks for. -/
def Making.align? : Making → Option Word
  | allocAligned _ a | allocSafeAligned _ a | allocSafeAlignedExternal _ a _ => some a
  | _ => none

/-- Whether the payload of a handle lies as asked for. -/
def Making.isAligned? (m : Making) (s : Snapshot) : Option Bool :=
  m.align?.map fun a => s.payload % effectiveAlign a == 0

/-- Whether a surface offers a way of making handles. Through C an alignment has 32 bits; without
C an external allocator has to be given. -/
def Making.offered : Making → Surface → Bool
  | alloc _, _ => true
  | manage _ _, _ => true
  | allocExternal _ e, .direct => e.isSome
  | allocExternal _ _, _ => true
  | allocSafeAlignedExternal _ _ e, .direct => e.isSome
  | allocSafeAlignedExternal _ a _, .c => a.toNat < UInt32.size
  | allocAligned _ a, .c => a.toNat < UInt32.size
  | allocSafeAligned _ a, .c => a.toNat < UInt32.size
  | allocClosure _ _ _, s => s = .direct
  | _, s => s ≠ .table

/-- The request for a handle. A closure is handed to the host here. -/
def Making.request : Making → Turn Request
  | new data size d info => do
    return .new (← data.resolve) size (destructorAddr d) (← info.resolve)
  | alloc size => return .alloc size
  | allocExternal size e => return .allocExternal size (externalAddr e)
  | allocSafe size => return .allocSafe size
  | allocDestructor size d => return .allocDestructor size (destructorAddr d)
  | allocDestructorSafe size d => return .allocDestructorSafe size (destructorAddr d)
  | allocAligned size a => return .allocAligned size a
  | allocSafeAligned size a => return .allocSafeAligned size a
  | allocSafeAlignedExternal size a e => return .allocSafeAlignedExternal size a (externalAddr e)
  | allocClosure size x steps => do
    let n := (← stage).closures.size
    lift (modifyStage fun s => { s with closures := s.closures.push (x, steps) })
    return .allocClosure size n
  | manage data f => do return .manage (← data.resolve) f.addr
  | newResizable size => return .newResizable size
  | newResizableWith size f => return .newResizableWith size f.addr

/-- Makes a handle through the C surface. -/
def makeC : Request → Play Addr
  | .new data size d info => Entry.handleNew h data size d info
  | .alloc size => Entry.handleAlloc h size
  | .allocExternal size e => Entry.handleAllocExternal h size e
  | .allocSafe size => Entry.handleAllocSafe h size
  | .allocDestructor size d => Entry.handleAllocDestructor h size d
  | .allocDestructorSafe size d => Entry.handleAllocDestructorSafe h size d
  | .allocAligned size a => Entry.handleAllocAligned h size a.toUInt32
  | .allocSafeAligned size a => Entry.handleAllocSafeAligned h size a.toUInt32
  | .allocSafeAlignedExternal size a e =>
    Entry.handleAllocSafeAlignedExternal h size a.toUInt32 e
  | .allocClosure _ _ => return 0
  | .manage data f => Entry.manage h data f
  | .newResizable size => Entry.handleNewResizable h size
  | .newResizableWith size f => Entry.handleNewResizableWith h size f

/-- Makes a handle through the table of functions. -/
def makeTable : Request → Play Addr
  | .alloc size => (table h).allocate size
  | .allocExternal size e => (table h).allocateExternal size e
  | .manage data f => (table h).manage data f
  | _ => return 0

/-- Makes a handle and gives it a name. -/
def playMake (via : Surface) (x : String) (m : Making) : Turn Answer := do
  unless m.offered via do badInput
  let request ← m.request
  let finish (b : Handle) : Turn Answer := do
    nameHandle x b
    let s ← lift (snapshotVia via b)
    return .made s (m.isAligned? s)
  match via with
  | .direct =>
    match ← lift (request.make h).run with
    | .ok b => finish b
    | .error e => return .error e
  | _ =>
    let b ← lift (if via = .c then makeC h request else makeTable h request)
    if b = 0 then return .null else finish b

/-- Makes a handle that is owned by a reference. -/
def playMakeRef (x : String) (m : Making) : Turn Answer := do
  unless m.offered .direct do badInput
  let request ← m.request
  match ← lift (Ref.ofNew (request.make h)).run with
  | .ok r =>
    nameRef x r
    let s ← lift (snapshotRef r)
    return .made s (m.isAligned? s)
  | .error e => return .error e

/-- Makes a handle of storage that the scenario provides. -/
def playInit (via : Surface) (x : String) (header data : Pointer) (size : Word)
    (d : Option Destructor) (info : Pointer) (e : Option ExternalName) : Turn Answer := do
  let b ← header.resolve
  let data ← data.resolve
  let info ← info.resolve
  let finish : Turn Answer := do
    nameHandle x b
    return .made (← lift (snapshotVia via b)) none
  match via with
  | .direct =>
    if b = 0 then badInput
    lift (Handle.init h b data size (destructorAddr d) info (externalAddr e))
    finish
  | .c =>
    lift (Entry.handleInit h b data size (destructorAddr d) info (externalAddr e))
    if b = 0 then return .done else finish
  | .table => badInput

end CountedHeap.Scenario
