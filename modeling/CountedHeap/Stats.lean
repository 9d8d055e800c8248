/-
Statistics

The four counters that a runtime keeps: storage blocks handed out and taken back, and handles made
and ended. All arithmetic on them is modulo `2 ^ 64`, so a snapshot taken across a wrap of the
counters is still right.

* `Stats.get_set`: setting one counter leaves the other three alone;
* `Stats.isBalanced_iff`: a snapshot is balanced exactly when nothing is outstanding.
-/
import CountedHeap.Memory.Basic
import CountedHeap.Text.Quoted

namespace CountedHeap

/-- The name of one counter. -/
inductive Counter where
  /-- storage blocks handed out -/
  | alloc
  /-- storage blocks taken back -/
  | free
  /-- handles made -/
  | handleAlloc
  /-- handles ended -/
  | handleFree
  deriving DecidableEq, Repr

/-- A snapshot of the four counters. -/
structure Stats where
  alloc : Word := 0
  free : Word := 0
  handleAlloc : Word := 0
  handleFree : Word := 0
  deriving DecidableEq, Repr, Inhabited

namespace Stats

/-- The value of a counter. -/
def get (s : Stats) : Counter → Word
  | .alloc => s.alloc
  | .free => s.free
  | .handleAlloc => s.handleAlloc
  | .handleFree => s.handleFree

/-- A snapshot with one counter replaced. -/
def set (s : Stats) (w : Word) : Counter → Stats
  | .alloc => { s with alloc := w }
  | .free => { s with free := w }
  | .handleAlloc => { s with handleAlloc := w }
  | .handleFree => { s with handleFree := w }

/-- A counter that was just set has the value it was set to, and the others are as before. -/
theorem get_set (s : Stats) (w : Word) (c c' : Counter) :
    (s.set w c).get c' = if c = c' then w else s.get c' := by
  cases c <;> cases c' <;> rfl

/-- Storage blocks out at the moment. -/
def outstandingBlocks (s : Stats) : Word := s.alloc - s.free

/-- Handles alive at the moment. -/
def outstandingHandles (s : Stats) : Word := s.handleAlloc - s.handleFree

/-- Everything handed out was taken back and every handle made was ended. -/
def isBalanced (s : Stats) : Bool := s.alloc == s.free && s.handleAlloc == s.handleFree

/-- How far each counter moved from an earlier snapshot. -/
def since (s earlier : Stats) : Stats where
  alloc := s.alloc - earlier.alloc
  free := s.free - earlier.free
  handleAlloc := s.handleAlloc - earlier.handleAlloc
  handleFree := s.handleFree - earlier.handleFree

/-- The counters in the order alloc, free, handle alloc, handle free. -/
def toList (s : Stats) : List Word := [s.alloc, s.free, s.handleAlloc, s.handleFree]

/-- The line that reports the counters. -/
def message (s : Stats) : String :=
  s!"alloc={s.alloc.toNat} free={s.free.toNat} " ++
    s!"handle_alloc={s.handleAlloc.toNat} handle_free={s.handleFree.toNat}"

/-- The counters as a record. -/
def debug (s : Stats) : String :=
  labelled "MemStats"
    [("alloc", toString s.alloc.toNat), ("free", toString s.free.toNat),
      ("handle_alloc", toString s.handleAlloc.toNat),
      ("handle_free", toString s.handleFree.toNat)]

/-- A snapshot is balanced exactly when nothing is outstanding. -/
theorem isBalanced_iff (s : Stats) :
    s.isBalanced ↔ s.outstandingBlocks = 0 ∧ s.outstandingHandles = 0 := by
  simp [isBalanced, outstandingBlocks, outstandingHandles, UInt64.sub_eq_iff_eq_add]

end Stats

end CountedHeap
