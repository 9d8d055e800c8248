/-
Runs of equal bytes

The run-length form of a byte string, in which long fills stay short.

* `Runs.bytes_ofBytes`: nothing is lost in the run-length form;
* `Runs.length_bytes`: how many bytes it stands for.
-/

namespace CountedHeap

/-- A byte string as maximal runs: each byte with the number of times it is repeated. -/
abbrev Runs := List (UInt8 × Nat)

namespace Runs

/-- One byte put before a run-length form, joined to the first run when they agree. -/
def push (b : UInt8) : Runs → Runs
  | [] => [(b, 1)]
  | (c, n) :: rs => if b = c then (c, n + 1) :: rs else (b, 1) :: (c, n) :: rs

/-- The run-length form of a byte string. -/
def ofBytes (bs : List UInt8) : Runs := bs.foldr push []

/-- The byte string that a run-length form stands for. -/
def bytes (rs : Runs) : List UInt8 := rs.flatMap fun r => List.replicate r.2 r.1

/-- The number of bytes in a run-length form. -/
def size : Runs → Nat
  | [] => 0
  | r :: rs => r.2 + size rs

theorem length_bytes (rs : Runs) : (bytes rs).length = size rs := by
  induction rs with
  | nil => rfl
  | cons r rs ih =>
    have e : bytes (r :: rs) = List.replicate r.2 r.1 ++ bytes rs := rfl
    rw [e, List.length_append, List.length_replicate, ih, size]

theorem bytes_push (b : UInt8) (rs : Runs) : bytes (push b rs) = b :: bytes rs := by
  match rs with
  | [] => rfl
  | (c, n) :: rs =>
    by_cases h : b = c
    · subst h; simp [push, bytes, List.replicate_succ]
    · simp [push, bytes, h]

/-- Nothing is lost in the run-length form. -/
theorem bytes_ofBytes (bs : List UInt8) : bytes (ofBytes bs) = bs := by
  induction bs with
  | nil => rfl
  | cons b bs ih =>
    show bytes (push b (ofBytes bs)) = b :: bs
    rw [bytes_push, ih]

end Runs

end CountedHeap
