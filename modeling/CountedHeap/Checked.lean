/-
Arithmetic that notices overflow

Sums and products of words, either refused or held at the largest word when they do not fit.
-/
import CountedHeap.Memory.Basic

namespace CountedHeap.Word

/-- The largest word. -/
def largest : Word := 0xFFFFFFFFFFFFFFFF

/-- A number as a word, if it fits. -/
def ofNat? (n : Nat) : Option Word := if n < UInt64.size then some (UInt64.ofNat n) else none

/-- A number as a word, held at the largest word. -/
def clamp (n : Nat) : Word := (ofNat? n).getD largest

/-- The sum of two words, if it fits. -/
def add? (a b : Word) : Option Word := ofNat? (a.toNat + b.toNat)

/-- The product of two words, if it fits. -/
def mul? (a b : Word) : Option Word := ofNat? (a.toNat * b.toNat)

/-- The sum of two words, held at the largest word. -/
def addClamp (a b : Word) : Word := clamp (a.toNat + b.toNat)

/-- The product of two words, held at the largest word. -/
def mulClamp (a b : Word) : Word := clamp (a.toNat * b.toNat)

theorem ofNat?_eq_some_iff {n : Nat} {w : Word} : ofNat? n = some w ↔ w.toNat = n := by
  unfold ofNat?
  split
  · next h =>
    simp only [Option.some.injEq]
    constructor
    · rintro rfl; exact UInt64.toNat_ofNat_of_lt' h
    · rintro rfl; simp
  · next h =>
    simp only [reduceCtorEq, false_iff]
    intro e
    have := w.toNat_lt_size
    omega

theorem ofNat?_eq_none_iff {n : Nat} : ofNat? n = none ↔ UInt64.size ≤ n := by
  unfold ofNat?
  split <;> simp <;> omega

end CountedHeap.Word
