/-
Scenarios from start to end

A scenario starts on a fresh runtime and runs step after step, until it ends or a fault stops the
program.

* `run`: a whole scenario;
* `tryWord`, `trySlot`: a primitive on its own;
* `runChurn`: the workload.
-/
import CountedHeap.Churn
import CountedHeap.Scenario.Host

namespace CountedHeap.Scenario

/-- The state in which a scenario starts. -/
def fresh (tracing : Bool) : World Stage := { tracing := tracing, host := {} }

/-- One step from a given state: its report and the state after it, or the fault that ends the
scenario. -/
def report (s : Step) (w : World Stage) : Except Fault (Report × World Stage) :=
  match s.answer playHost { w with host := { w.host with log := [] } } with
  | .ok a w => .ok (⟨a, w.host.log.reverse, w.stats⟩, w)
  | .error f _ => .error f

/-- The reports of a list of steps, and the fault that ended it, if one did. -/
def reports : List Step → World Stage → List Report → List Report × Option Fault
  | [], _, done => (done.reverse, none)
  | s :: ss, w, done =>
    match report s w with
    | .ok (r, w) => reports ss w (r :: done)
    | .error f => (done.reverse, some f)

/-- A whole scenario. -/
def run (steps : List Step) (tracing : Bool) : List Report × Option Fault :=
  reports steps (fresh tracing) []

/-- Counts a word up and down by a primitive: what it answers each time, and the last value of the
word. -/
def tryWord (p : IncDec) (start : Word) (ups : List Bool) : List Word × Word :=
  let count (up : Bool) : Play Word :=
    if up then p.increment playHost (.word scratchAddr)
    else p.decrement playHost (.word scratchAddr)
  let all : Play (List Word × Word) := do
    Machine.store scratchAddr start
    let answers ← ups.mapM count
    return (answers, ← Machine.load scratchAddr)
  match all (fresh false) with
  | .ok r _ => r
  | .error _ _ => ([], start)

/-- Compares and swaps a slot by a primitive: each result, and the slot after it. -/
def trySlot (p : CompareSwap) (start : Word) (calls : List (Word × Word)) :
    List (Except Word Word × Word) :=
  let all : Play (List (Except Word Word × Word)) := do
    Machine.store scratchAddr start
    calls.mapM fun c => do
      let r ← p.run playHost scratchAddr c.1 c.2
      return (r, ← Machine.load scratchAddr)
  match all (fresh false) with
  | .ok r _ => r
  | .error _ _ => []

/-- Runs the workload on the primitives of a profile: its result and the counters after it. -/
def runChurn (p : Profile) (count : Nat) (size : Word) (shares : Nat) : Answer × Stats :=
  let all : Play Answer := do
    p.install playHost
    match ← (churn playHost count size shares).run with
    | .ok n => return .number n
    | .error e => return .error e
  match all (fresh false) with
  | .ok a w => (a, w.stats)
  | .error (.panic p) w => (.panic p, w.stats)
  | .error _ w => (.done, w.stats)

/-! ### Records of functions -/

/-- A heap's functions as a record. -/
def debugHeapFunctions (f : HeapFunctions) : String :=
  labelled "HeapFns"
    [("malloc", showAddr f.malloc), ("realloc", showAddr f.realloc), ("free", showAddr f.free)]

/-- A pair of counting functions as a record. -/
def debugIncDecFunctions (f : IncDecFunctions) : String :=
  labelled "ExternAtomics" [("inc", showAddr f.inc), ("dec", showAddr f.dec)]

/-- A compare-and-swap function as a record. -/
def debugCompareSwapFn (fn : Addr) : String := labelled "ExternCas" [("cas", showAddr fn)]

/-- An external allocator as a record. -/
def debugExternal (e : ExternalAllocator) : String :=
  labelled "ExternalAllocator"
    [("malloc", showAddr e.malloc), ("realloc", showAddr e.realloc), ("free", showAddr e.free),
      ("opaque_data", showAddr e.token)]

end CountedHeap.Scenario
