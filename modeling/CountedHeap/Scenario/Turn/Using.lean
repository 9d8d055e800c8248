/-
Steps that use handles and references

* `playUse`: acquiring, releasing and ending a handle through each surface.
* `playResize`, `playResizableFree`: exchanging the payload of a resizable
  handle.
* `playDropRef`, `playThreads`: owned references, and many owners of one
  handle.
-/
import CountedHeap.Scenario.Turn.Basic

namespace CountedHeap.Scenario

variable (h : Host Stage)

/-! ### Using handles -/

/-- Finds a handle for a surface: only C and the table take a null handle. -/
def handleVia (via : Surface) (x : HandleName) : Turn Handle :=
  if via = .direct then findHandle x else findHandleOrNull x

/-- A use of a handle that reports nothing. -/
def playUse (via : Surface) (x : HandleName) (u : Use) : Turn Answer := do
  let b ← handleVia via x
  match via, u with
  | .direct, .acquire => lift (Handle.acquire h b)
  | .direct, .release => lift (Handle.release h b)
  | .direct, .callDestructor => lift (Handle.callDestructor h b)
  | .direct, .destroy => lift (Handle.destroy h b)
  | .direct, .dealloc => lift (Handle.dealloc h b)
  | .c, .acquire => lift (Entry.acquire h b)
  | .c, .release => lift (Entry.release h b)
  | .c, .callDestructor => lift (Entry.callDestructor h b)
  | .c, .destroy => lift (Entry.destroy h b)
  | .c, .dealloc => lift (Entry.dealloc h b)
  | .table, .acquire => lift ((table h).acquire b)
  | .table, .release => lift ((table h).release b)
  | .table, _ => badInput
  return .done

/-- Shows a handle. A null handle has only a count. -/
def playInfo (via : Surface) (x : HandleName) : Turn Answer := do
  match via, x with
  | .direct, .null => return .nullRefcount (← lift (Handle.refcount 0))
  | .table, _ => badInput
  | via, x =>
    let b ← handleVia via x
    return .snapshot (← lift (snapshotVia via b))

/-- Shows a handle's payload address. -/
def playPayload (via : Surface) (x : HandleName) : Turn Answer := do
  let b ← handleVia via x
  match via with
  | .direct => return .pointer (← lift (Handle.payload b))
  | .c => return .pointer (← lift (Entry.payload b))
  | .table => return .pointer (← lift ((table h).payload b))

/-- Shows a handle's dump. -/
def playDump (via : Surface) (x : HandleName) : Turn Answer := do
  let b ← handleVia via x
  match via with
  | .direct => return .text (← lift (Handle.dump showAddr b))
  | .c => return .text (← lift (Entry.dump showAddr b))
  | .table => badInput

/-- Notes the payload of the handle under a name. -/
def resave (x : HandleName) (b : Handle) : Turn Unit :=
  match x with
  | .null => return
  | .named x => saveAs x b

/-- Exchanges the payload of a resizable handle. -/
def playResize (via : Surface) (x : HandleName) (direct : Handle → Attempt Stage Addr)
    (entry : Handle → Play Addr) : Turn Answer := do
  let b ← handleVia via x
  match via with
  | .direct =>
    let r ← lift (direct b).run
    resave x b
    let s ← lift (snapshot b)
    match r with
    | .ok p => return .resized p s
    | .error e => return .notResized e s
  | .c =>
    let p ← lift (entry b)
    resave x b
    return .resized p (← lift (snapshotC b))
  | .table => badInput

/-- Frees a block through a resizable handle. -/
def playResizableFree (via : Surface) (x : HandleName) (p : Pointer) : Turn Answer := do
  let b ← handleVia via x
  let p ← p.resolve
  match via with
  | .direct => lift (Handle.resizableFree h b p)
  | .c => lift (Entry.resizableFree h b p)
  | .table => badInput
  return .infoOnly (← lift (snapshotVia via b))

/-- Shows the words of a header. -/
def playWords (x : HandleName) : Turn Answer := do
  let b ← findHandle x
  lift do
    return .words (← Handle.field b .refcount) (← Handle.field b .destructor)
      (← Handle.field b .info) (← Handle.field b .payload) (← Handle.field b .size)
      (← Handle.field b .external)

/-! ### Owned references -/

/-- Ends a reference; its name is gone before. -/
def playDropRef (x : String) : Turn Answer := do
  let r ← findRef x
  lift (modifyStage fun s => { s with refs := s.refs.erase x })
  lift (r.drop h)
  return .done

/-- Clones and drops a reference many times. -/
def cloneAndDrop (r : Ref) : Nat → Play Unit
  | 0 => return
  | n + 1 => do
    let r' ← r.clone h
    r'.drop h
    cloneAndDrop r n

/-- Owners that work one after the other; with native primitives any other order ends alike. -/
def playOwners (r : Ref) (rounds : Nat) : Nat → Play Unit
  | 0 => return
  | n + 1 => do
    cloneAndDrop h r rounds
    playOwners r rounds n
    r.drop h

/-- Shares one handle between a number of owners, each of which clones and drops it. -/
def playThreads (n rounds : Nat) (size : Word) : Turn Answer := do
  if 16 < n || 2000 < rounds then badInput
  match ← lift (Ref.ofNew (Handle.allocDestructor h size Destructor.counting.addr)).run with
  | .error e => return .error e
  | .ok r =>
    lift (n.forM fun _ _ => discard (r.clone h))
    lift (playOwners h r rounds n)
    let count ← lift (Handle.refcount r.handle)
    lift (r.drop h)
    let f := (← stage).fixtures
    return .threads (UInt64.ofNat (n * rounds) * size) count f.destructorCalls f.destructorBytes
      (count == Handle.invalidRefcount)

end CountedHeap.Scenario
