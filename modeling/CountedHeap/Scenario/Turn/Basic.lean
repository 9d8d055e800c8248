/-
Finding, naming and showing

What all steps share: finding the things that a step names, giving names to
what it makes, and showing a handle.

* `Turn`: a computation that may find its input bad; everything that a step
  names is found before anything happens.
* `Pointer.resolve`: the address that a step writes.
* `nameHandle`, `nameRef`: a handle or a reference gets a name, and its
  payload is noted.
* `snapshot`, `snapshotC`: a handle as the runtime's accessors and those of
  the C surface see it.
-/
import CountedHeap.Surface.Entry
import CountedHeap.Scenario.Stage

namespace CountedHeap.Scenario

/-- A computation that may find its input bad. -/
abbrev Turn := OptionT Play

/-- The input is bad. -/
def badInput {α : Type} : Turn α := failure

/-- A value that may be missing. -/
def require {α : Type} : Option α → Turn α
  | some a => return a
  | none => badInput

/-- The host's state. -/
def stage : Turn Stage := return (← get).host

/-- Runs a computation of the host. -/
def lift {α : Type} (x : Play α) : Turn α := OptionT.lift x

/-! ### Finding what a step names -/

/-- The handle under a name; a null handle has none. -/
def findHandle : HandleName → Turn Handle
  | .null => badInput
  | .named x => do require ((← stage).handles.get? x)

/-- The handle under a name, or null. -/
def findHandleOrNull : HandleName → Turn Handle
  | .null => return 0
  | .named x => do require ((← stage).handles.get? x)

/-- The reference under a name. -/
def findRef (x : String) : Turn Ref := do require ((← stage).refs.get? x)

/-- The address that a step writes. -/
def Pointer.resolve : Pointer → Turn Addr
  | literal a => return a
  | storage x => do require ((← stage).storage.get? x)
  | header x => do require ((← stage).handles.get? x)
  | payload x => do
    let b ← require ((← stage).handles.get? x)
    lift (Handle.payload b)
  | saved x => do return (← require ((← stage).saved.get? x)).1

/-- The heap that a step names. -/
def HeapChoice.resolve : HeapChoice → Turn HeapObject
  | installed => do return (← get).bindings.heap
  | named n => return n.object

/-- The address of an optional destructor. -/
def destructorAddr (d : Option Destructor) : Addr := (d.map Destructor.addr).getD 0

/-- The address of an optional external allocator. -/
def externalAddr (e : Option ExternalName) : Addr := (e.map ExternalName.addr).getD 0

/-! ### Remembering names -/

/-- Notes the payload and the size of the handle under a name. -/
def saveAs (x : String) (b : Handle) : Turn Unit := lift do
  let p ← Handle.payload b
  let n ← Handle.size b
  modifyStage fun s => { s with saved := s.saved.insert x (p, n) }

/-- Gives a name to a handle. -/
def nameHandle (x : String) (b : Handle) : Turn Unit := do
  lift (modifyStage fun s => { s with handles := s.handles.insert x b })
  saveAs x b

/-- Gives a name to a reference and to its handle. -/
def nameRef (x : String) (r : Ref) : Turn Unit := do
  lift (modifyStage fun s => { s with refs := s.refs.insert x r })
  nameHandle x r.handle

/-- Gives a name to a block of storage. -/
def nameStorage (x : String) (p : Addr) : Turn Unit :=
  lift (modifyStage fun s => { s with storage := s.storage.insert x p })

/-! ### What is shown of a handle -/

/-- A handle as the runtime's own accessors see it. -/
def snapshot (b : Handle) : Play Snapshot := do
  return {
    header := b
    payload := ← Handle.payload b
    size := ← Handle.size b
    refcount := ← Handle.refcount b
    info := ← Handle.info b
    external := ← Handle.external b
    kind := some (← Handle.kind b) }

/-- A handle as the accessors of the C surface see it. -/
def snapshotC (b : Handle) : Play Snapshot := do
  return {
    header := b
    payload := ← Entry.payload b
    size := ← Entry.size b
    refcount := ← Entry.refcount b
    info := ← Entry.info b
    external := ← Entry.external b
    kind := none }

/-- A handle as seen through a surface. -/
def snapshotVia : Surface → Handle → Play Snapshot
  | .direct, b => snapshot b
  | _, b => snapshotC b

/-- A reference. -/
def snapshotRef (r : Ref) : Play Snapshot := do
  let s ← snapshot r.handle
  let text ← r.debug showAddr
  return { s with owned := some (s.payload != 0, text) }

end CountedHeap.Scenario
