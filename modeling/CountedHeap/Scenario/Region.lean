/-
A region that hands out blocks in order

Blocks are cut off one after the other and never reused, so a block that was given back can still
be read. A region may be told to refuse a request some time ahead.

* `Region.malloc`, `Region.realloc`, `Region.free`: its three requests.
-/
import Std.Data.TreeMap
import CountedHeap.Scenario.Place

namespace CountedHeap.Scenario

/-- A region with the blocks that are live in it. -/
structure Region where
  base : Addr
  /-- how much was cut off -/
  cursor : Nat := 0
  limit : Nat
  /-- how many more requests are served before one is refused -/
  failIn : Option Nat := none
  live : Std.TreeMap Addr Word := {}

namespace Region

/-- The next multiple of eight. -/
def roundUp (n : Nat) : Nat := (n + 7) / 8 * 8

/-- Takes a request into account: whether it is to be refused. -/
def tick (r : Region) : Bool × Region :=
  match r.failIn with
  | none => (false, r)
  | some 0 => (true, { r with failIn := none })
  | some (n + 1) => (false, { r with failIn := some n })

/-- Cuts off a block, of at least one byte. -/
def cut (r : Region) (size : Word) : Option Addr × Region :=
  let n := max size.toNat 1
  if r.limit - r.cursor < n then (none, r)
  else
    let a := r.base + UInt64.ofNat r.cursor
    (some a, { r with cursor := roundUp (r.cursor + n), live := r.live.insert a size })

/-- A new block, unless the request is refused. -/
def malloc (r : Region) (size : Word) : Option Addr × Region :=
  match r.tick with
  | (true, r) => (none, r)
  | (false, r) => r.cut size

/-- What became of a request to resize a block. -/
inductive Resized where
  /-- The address is not that of a live block. -/
  | unknown
  /-- The request was refused. -/
  | refused
  /-- The block has its new size where it is. -/
  | inPlace
  /-- The contents, of this many bytes, move to a new block. -/
  | moved (new : Addr) (size : Word)
  deriving DecidableEq, Repr

/-- Changes the size of a live block. A block that shrinks stays where it is. -/
def realloc (r : Region) (p : Addr) (size : Word) : Resized × Region :=
  match r.live[p]? with
  | none => (.unknown, r)
  | some old =>
    match r.tick with
    | (true, r) => (.refused, r)
    | (false, r) =>
      if size ≤ old then (.inPlace, { r with live := r.live.insert p size })
      else
        match r.cut size with
        | (none, r) => (.refused, r)
        | (some a, r) => (.moved a old, { r with live := r.live.erase p })

/-- Ends a live block; answers whether there was one. -/
def free (r : Region) (p : Addr) : Bool × Region :=
  (r.live.contains p, { r with live := r.live.erase p })

/-- Leaves some room out. -/
def skip (r : Region) (n : Nat) : Region :=
  { r with cursor := roundUp (min (r.cursor + n) arenaSize) }

end Region

end CountedHeap.Scenario
