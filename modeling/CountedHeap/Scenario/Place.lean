/-
How addresses are shown

An answer never shows an address of the real machine. An address in one of the host's two regions
is shown by its offset, a small number by itself, a function or an external allocator that the
scenario can name by its name, and anything else as being the system's.

* `Place.of_eq_null_iff`: only the null address is shown as null.
-/
import CountedHeap.Scenario.Objects

namespace CountedHeap.Scenario

/-- Where the arena starts. -/
def arenaBase : Addr := 0x100000000000

/-- The size of the arena. -/
def arenaSize : Nat := 0x100000

/-- Where the region of memory that no allocator owns starts. -/
def foreignBase : Addr := 0x200000000000

/-- The size of that region. -/
def foreignSize : Nat := 0x10000

/-- Whether a range of bytes lies in a region. -/
def within (base : Addr) (size : Nat) (a : Addr) (n : Nat) : Bool :=
  base.toNat ≤ a.toNat && a.toNat + n ≤ base.toNat + size

/-- What is shown for an address. -/
inductive Place where
  | null
  | number (n : Nat)
  | arena (offset : Nat)
  | foreign (offset : Nat)
  | function (name : String)
  | external (name : String)
  | system
  deriving DecidableEq, Repr

namespace Place

/-- The place of an address that is not null. -/
def ofNonzero (a : Addr) : Place :=
  if a.toNat < UInt32.size then number a.toNat
  else if within arenaBase arenaSize a 1 then arena (a - arenaBase).toNat
  else if within foreignBase foreignSize a 1 then foreign (a - foreignBase).toNat
  else
    match (Function.ofAddr? a).bind Function.shownName? with
    | some f => function f
    | none =>
      match ExternalName.ofAddr? a with
      | some e => external e.name
      | none => system

/-- The place of an address. -/
def of (a : Addr) : Place := if a = 0 then null else ofNonzero a

/-- A place as text. -/
def text : Place → String
  | null => "null"
  | number n => toString n
  | arena n => "A+" ++ toString n
  | foreign n => "F+" ++ toString n
  | function f => "fn:" ++ f
  | external e => "ext:" ++ e
  | system => "sys"

/-- Only the null address is shown as null. -/
theorem of_eq_null_iff (a : Addr) : of a = null ↔ a = 0 := by
  unfold of
  split
  · simp_all
  · simp only [*, iff_false]
    unfold ofNonzero
    repeat' split
    all_goals simp

end Place

/-- The text for an address. -/
def showAddr (a : Addr) : String := (Place.of a).text

end CountedHeap.Scenario
