/-
A workload

Many owned references, made in batches and dropped together: `count` handles of the same size, each
with a number of further owners. If an allocation fails, the references that exist are dropped and
the error is returned.
-/
import CountedHeap.Ref
import CountedHeap.Settings

namespace CountedHeap

variable {σ : Type} (h : Host σ)

/-- Which primitives a measurement runs on. -/
inductive Profile where
  | stub
  | host
  deriving DecidableEq, Repr

/-- The label of a profile in reports. -/
def Profile.name : Profile → String
  | stub => "stub"
  | host => "host"

/-- The profile with a label. -/
def Profile.ofName? (s : String) : Option Profile :=
  [Profile.stub, .host].find? fun p => p.name == s

theorem Profile.ofName?_name (p : Profile) : ofName? p.name = some p := by
  cases p <;> decide

/-- The sizes of payloads that measurements use. -/
def payloadSizes : List Word := [8, 64, 512, 4096]

/-- Starts the runtime on the primitives of a profile. -/
def Profile.install (p : Profile) : Machine σ Unit := do
  start h
  match p with
  | .stub => pure ()
  | .host =>
    setIncDec .native
    setCompareSwap .native

namespace Churn

/-- `shares` more owners of a handle. -/
def share (r : Ref) : Nat → List Ref → Machine σ (List Ref)
  | 0, owners => return owners
  | n + 1, owners => do share r n ((← r.clone h) :: owners)

/-- Drops owner after owner. -/
def dropAll : List Ref → Machine σ Unit
  | [] => return
  | r :: rs => do
    r.drop h
    dropAll rs

/-- Makes handles and their owners, and puts them before the owners so far. On failure all owners
are dropped, the first ones first. -/
def fillUp (size : Word) (shares : Nat) : Nat → List Ref → Attempt σ (List Ref)
  | 0, owners => return owners
  | n + 1, owners => do
    let r ← tryCatch (Ref.ofNew (Handle.alloc h size)) fun e => do
      dropAll h owners.reverse
      throw e
    let shared ← share h r shares owners
    fillUp size shares n (r :: shared)

/-- The sum of the sizes of all owners' payloads. -/
def totalSize : List Ref → Machine σ Word
  | [] => return 0
  | r :: rs => return (← r.handle.size) + (← totalSize rs)

end Churn

/-- How many owners there can be at a time. -/
def Churn.capacity : Nat := 0xFFFFFFFFFFFFFFF

/-- For how many owners room is made beforehand. The number is a word, so it wraps. -/
def Churn.room (count shares : Nat) : Word := UInt64.ofNat count * (UInt64.ofNat shares + 1)

/-- Makes `count` handles with `shares` further owners each, drops them all, and answers how many
bytes the owners saw in total. -/
def churn (count : Nat) (size : Word) (shares : Nat) : Attempt σ Word := do
  if Churn.capacity < (Churn.room count shares).toNat then
    (throw (.panic (some "capacity overflow")) : Machine σ Unit)
  let owners := (← Churn.fillUp h size shares count []).reverse
  let bytes ← (Churn.totalSize owners : Machine σ Word)
  Churn.dropAll h owners
  return bytes

end CountedHeap
