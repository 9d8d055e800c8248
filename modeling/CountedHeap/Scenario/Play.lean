/-
Playing a step

A step first finds everything that it names; if something is missing it is
answered as bad input and nothing happens. A panic that unwinds out of a step
is its answer, and the scenario goes on; any other fault ends the scenario.

* `Step.play`, `Step.answer`: one step, and its answer.
* `Step.playAll`: a script, each step of which is noted as an event.
-/
import CountedHeap.Settings
import CountedHeap.Scenario.Turn.Making
import CountedHeap.Scenario.Turn.Using
import CountedHeap.Scenario.Turn.Hosting

namespace CountedHeap.Scenario

variable (h : Host Stage)

/-- Runs one of two computations, for the surfaces that offer them. -/
def either (via : Surface) (direct entry : Play Unit) : Turn Answer :=
  match via with
  | .direct => do
    lift direct
    return .done
  | .c => do
    lift entry
    return .done
  | .table => badInput

/-- What a step does. -/
def Step.play : Step → Turn Answer
  | malformed => badInput
  | start via => either via (CountedHeap.start h) (Entry.start h)
  | shutDown via => either via (CountedHeap.shutDown h) (Entry.shutDown h)
  | setIncDecStub via => either via (CountedHeap.setIncDec .stub) Entry.setIncDecStub
  | setCompareSwapStub via =>
    either via (CountedHeap.setCompareSwap .stub) Entry.setCompareSwapStub
  | setAllocator .direct heap => do
    let o ← heap.resolve
    lift (CountedHeap.setAllocator h o)
    return .done
  | setAllocator .c (.named n) => do
    let f ← require n.functions?
    lift (Entry.setAllocator h f)
    return .done
  | setAllocator _ _ => badInput
  | setIncDec .direct p => do
    lift (CountedHeap.setIncDec p.primitive)
    return .done
  | setIncDec .c p => do
    let f ← require p.functions?
    lift (Entry.setIncDec f)
    return .done
  | setIncDec .table _ => badInput
  | setCompareSwap .direct p => do
    lift (CountedHeap.setCompareSwap p.primitive)
    return .done
  | setCompareSwap .c p => do
    let f ← require p.function?
    lift (Entry.setCompareSwap f)
    return .done
  | setCompareSwap .table _ => badInput
  | isShuttingDown => return .flag (← get).shuttingDown
  | stats .direct => return .stats (← get).stats
  | stats .c => lift do
    return .counters {
      alloc := ← Entry.counter .alloc
      free := ← Entry.counter .free
      handleAlloc := ← Entry.counter .handleAlloc
      handleFree := ← Entry.counter .handleFree }
  | stats .table => badInput
  | heapIs heap => do
    let o ← heap.resolve
    return .flag ((← get).bindings.heap.addr == o.addr)
  | slotSet i v => do
    let a ← slot i
    lift (Machine.store a v)
    return .done
  | slotGet i => do
    let a ← slot i
    return .number (← lift (Machine.load a))
  | compareSwap via i expected new reportOld => playCompareSwap h via i expected new reportOld
  | arena limit skip failIn => playArena limit skip failIn
  | script x steps => do
    lift (modifyStage fun s => { s with scripts := s.scripts.insert x steps })
    return .done
  | poke p offset r => do
    let a ← range p offset (r.size)
    modify fun w => { w with memory := w.memory.writeRuns a r }
    return .done
  | peek p offset n => do
    let a ← range p offset n.toNat
    return .runs (← lift (bytesAt a n))
  | counts => playCounts
  | resetCounts => do
    lift (modifyStage fun s => { s with fixtures := {} })
    return .done
  | held => do return .number (UInt64.ofNat (← stage).held.length)
  | isHeld x => do
    let b ← findHandle (.named x)
    return .flag ((← stage).held.contains b)
  | drain => do
    lift (Scenario.drain h)
    return .done
  | heapCall heap call => do
    let o ← heap.resolve
    playCall (o.allocator h) call
  | externalCall e call => playCall ((ExternalAllocator.lookup h e.addr).allocator h) call
  | rawAllocate .direct n x => do answerStorage x (← lift (Storage.allocate h n).run)
  | rawAllocate .c n x => do answerPointer x (← lift (Entry.allocate h n))
  | rawAllocate .table _ _ => badInput
  | rawAllocateExternal .direct n e x => do
    answerStorage x (← lift (Storage.allocateFrom h (externalAddr e) n).run)
  | rawAllocateExternal .c n e x => do
    answerPointer x (← lift (Entry.allocateExternal h n (externalAddr e)))
  | rawAllocateExternal .table _ _ _ => badInput
  | rawReallocate .direct p n x => do
    let p ← p.resolve
    answerStorage x (← lift (Storage.reallocate h p n).run)
  | rawReallocate .c p n x => do
    let p ← p.resolve
    answerPointer x (← lift (Entry.reallocate h p n))
  | rawReallocate .table _ _ _ => badInput
  | rawFree via p => do
    let p ← p.resolve
    either via (Storage.free h p) (Entry.free h p)
  | combined n align e x => playCombined h n align e x
  | init via x header data n d word e => playInit h via x header data n d word e
  | make via x m => playMake h via x m
  | use via x u => playUse h via x u
  | info via x => playInfo via x
  | payload via x => playPayload h via x
  | dump via x => playDump via x
  | resizableAlloc via x n =>
    playResize via x (fun b => Handle.resizableAlloc h b n) (fun b => Entry.resizableAlloc h b n)
  | resizableRealloc via x n =>
    playResize via x (fun b => Handle.resizableRealloc h b n)
      (fun b => Entry.resizableRealloc h b n)
  | resizableFree via x p => playResizableFree h via x p
  | words x => playWords x
  | setWord x f p => do
    let b ← findHandle x
    let v ← p.resolve
    lift (Handle.setField b f v)
    return .done
  | makeRef x m => playMakeRef h x m
  | cloneRef x y => do
    let r ← findRef x
    let r' ← lift (r.clone h)
    nameRef y r'
    return .snapshot (← lift (snapshotRef r'))
  | dropRef x => playDropRef h x
  | refIntoHandle x y => do
    let r ← findRef x
    lift (modifyStage fun s => { s with refs := s.refs.erase x })
    nameHandle y r.intoHandle
    return .snapshot (← lift (snapshot r.handle))
  | refOfHandle x y => do
    let b ← findHandle (.named x)
    nameRef y (.ofHandle b)
    return .snapshot (← lift (snapshotRef (.ofHandle b)))
  | refInfo x => do
    let r ← findRef x
    return .snapshot (← lift (snapshotRef r))
  | refEq x y => do
    let r ← findRef x
    let r' ← findRef y
    return .flag (r.handle == r'.handle)
  | threads n rounds size => playThreads h n rounds size

/-- Runs a step to its answer. A panic that can be caught is an answer. -/
def Step.answer (s : Step) : Play Answer :=
  tryCatch (do return (← (s.play h).run).getD .badInput) fun
    | .panic p => return .panic p
    | f => throw f

/-- Runs a script; each step is noted after the events that it caused. -/
def Step.playAll : List Step → Play Unit
  | [] => return
  | s :: ss => do
    let a ← s.answer h
    emit (.step a (← get).stats)
    playAll ss

end CountedHeap.Scenario
