/-
The host of a scenario

What happens when the runtime calls out. A destructor, finalizer or closure may itself run steps,
and those may end further handles; `hostAt` gives each level of such calls a host whose calls are
served by the next, and no level more than `deepest`.

* `hostOver`: the host whose nested steps run on a given host;
* `playHost`: the host of a scenario.
-/
import CountedHeap.Scenario.Play
import CountedHeap.Scenario.Primitives

namespace CountedHeap.Scenario

/-- The byte with which a destructor overwrites a payload. -/
def scribbled : UInt8 := 0x77

/-- Runs the script under a name; one that was never set has no steps. -/
def runScript (inner : Host Stage) (x : String) : Play Unit := do
  Step.playAll inner (((← get).host.scripts.get? x).getD [])
  emit (.scriptEnded x)

/-- A destructor. -/
def Destructor.run (inner : Host Stage) (d : Destructor) (data : Addr) (size : Word)
    (info : Addr) : Play Unit := do
  unless d = counting do emit (.destructor d.name data size info)
  match d with
  | log | log2 => return
  | peek => emit (.bytes (← bytesAt data size))
  | scribble => Machine.fill data size scribbled
  | relinfo => if info ≠ 0 then Handle.release inner info
  | s0 | s1 | s2 => runScript inner d.name
  | counting =>
    modifyStage fun s =>
      { s with fixtures := { s.fixtures with
          destructorCalls := s.fixtures.destructorCalls + 1
          destructorBytes := s.fixtures.destructorBytes + size } }

/-- A finalizer. -/
def Finalizer.run (inner : Host Stage) (f : Finalizer) (data : Addr) : Play Unit := do
  unless f = countingElement ∨ f = countingManaged do emit (.finalizer f.name data)
  match f with
  | flog | flog2 => return
  | fpeek => emit (.bytes (← bytesAt data 8))
  | f0 | f1 | f2 => runScript inner f.name
  | countingElement =>
    modifyStage fun s =>
      { s with fixtures := { s.fixtures with elementCalls := s.fixtures.elementCalls + 1 } }
  | countingManaged =>
    modifyStage fun s =>
      { s with fixtures := { s.fixtures with managedCalls := s.fixtures.managedCalls + 1 } }

/-- Calls a closure: its steps run. -/
def callClosure (inner : Host Stage) (n : Nat) (data : Addr) (size : Word) : Play Unit := do
  if let some (x, steps) := (← get).host.closures[n]? then
    emit (.closure x data size)
    Step.playAll inner steps

/-- A closure is given up. -/
def dropClosure (n : Nat) : Play Unit := do
  if let some (x, _) := (← get).host.closures[n]? then emit (.closureDropped x)

/-- The host whose nested steps run on another host, which is made when a step needs it. -/
def hostOver (inner : Unit → Host Stage) : Host Stage where
  functions := functionsAllocator
  object := objectAllocator
  external := externalAt
  externalFunctions := externalAllocator
  destructor fn data size info :=
    match Function.ofAddr? fn with
    | some (.destructor d) => d.run (inner ()) data size info
    | _ => return
  finalizer fn data :=
    match Function.ofAddr? fn with
    | some (.finalizer f) => f.run (inner ()) data
    | _ => return
  closure n data size := callClosure (inner ()) n data size
  dropClosure := dropClosure
  step := countAt
  compareSwap := swapAt
  note t s := { s with log := .trace t :: s.log }

/-- A host that has no room for another call. -/
def fullHost : Host Stage :=
  let never : Allocator Stage := ⟨fun _ => throw .tooDeep, fun _ _ => throw .tooDeep,
    fun _ => throw .tooDeep⟩
  { functions := fun _ => never
    object := fun _ => never
    external := externalAt
    externalFunctions := fun _ => never
    destructor := fun _ _ _ _ => throw .tooDeep
    finalizer := fun _ _ => throw .tooDeep
    closure := fun _ _ _ => throw .tooDeep
    dropClosure := fun _ => throw .tooDeep
    step := fun _ _ => throw .tooDeep
    compareSwap := fun _ _ _ _ => throw .tooDeep
    note := fun _ s => s }

/-- The host that serves `n` levels of nested calls. -/
def hostAt : Nat → Host Stage
  | 0 => fullHost
  | n + 1 => hostOver fun _ => hostAt n

/-- How deeply destructors may be nested. -/
def deepest : Nat := 1000000

/-- The host of a scenario. -/
def playHost : Host Stage := hostAt deepest

end CountedHeap.Scenario
