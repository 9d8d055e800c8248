/-
Memory

The whole address space of a machine with 64-bit addresses: one byte for every address, zero
until it is written. Words take eight bytes, lowest byte first.

* `Memory.byte_set`, `Memory.byte_fill`: what a write and a fill leave at each address;
* `Memory.byte_write`: a written byte string is what is read back, and nothing else changes;
* `Memory.word_setWord`, `Memory.word_setWord_of_disjoint`: the same for words.
-/
import CountedHeap.Memory.Tree
import CountedHeap.Memory.LittleEndian
import CountedHeap.Memory.Runs

namespace CountedHeap

/-- A machine word. -/
abbrev Word := UInt64

/-- An address; zero is the null address. -/
abbrev Addr := UInt64

/-- A byte for every 64-bit address. -/
structure Memory where
  tree : Tree

namespace Memory

/-- Memory in which every byte is zero. -/
def zero : Memory := ⟨.uniform 0⟩

instance : Inhabited Memory := ⟨zero⟩

/-- The byte at an address. -/
def byte (m : Memory) (a : Nat) : UInt8 := m.tree.get 64 a

/-- Memory with one byte replaced. -/
def set (m : Memory) (a : Nat) (b : UInt8) : Memory := ⟨m.tree.set 64 a b⟩

/-- Memory with the `n` bytes from `a` on replaced by `b`. -/
def fill (m : Memory) (a : Addr) (n : Nat) (b : UInt8) : Memory :=
  ⟨m.tree.fill 64 a.toNat (a.toNat + n) b⟩

/-- The `n` bytes from `a` on. -/
def bytes (m : Memory) (a : Addr) (n : Nat) : List UInt8 :=
  (List.range n).map fun i => m.byte (a.toNat + i)

/-- Memory with a byte string written from an address on. -/
def writeFrom (m : Memory) (a : Nat) : List UInt8 → Memory
  | [] => m
  | b :: bs => (m.set a b).writeFrom (a + 1) bs

/-- Memory with a byte string written at `a`. -/
def write (m : Memory) (a : Addr) (bs : List UInt8) : Memory := m.writeFrom a.toNat bs

/-- The word at an address. -/
def word (m : Memory) (a : Addr) : Word := UInt64.ofNat (ofLittleEndian (m.bytes a 8))

/-- Memory with the word at an address replaced. -/
def setWord (m : Memory) (a : Addr) (w : Word) : Memory := m.write a (littleEndian 8 w.toNat)

/-- Memory with run after run written from an address on. -/
def writeRuns (m : Memory) (a : Addr) : Runs → Memory
  | [] => m
  | (b, n) :: rs => (m.fill a n b).writeRuns (a + UInt64.ofNat n) rs

/-- Memory with the `n` bytes at `src` copied to `dst`. -/
def copy (m : Memory) (src dst : Addr) (n : Nat) : Memory :=
  m.writeRuns dst (Runs.ofBytes (m.bytes src n))

/-! ### What is read back -/

@[simp] theorem byte_zero (a : Nat) : zero.byte a = 0 := Tree.get_uniform 64 0 a

theorem byte_set (m : Memory) {a a' : Nat} (b : UInt8) (ha : a < UInt64.size)
    (ha' : a' < UInt64.size) :
    (m.set a b).byte a' = if a = a' then b else m.byte a' :=
  Tree.get_set m.tree b ha ha'

theorem byte_fill (m : Memory) (a : Addr) (n : Nat) (b : UInt8) {a' : Nat}
    (ha' : a' < UInt64.size) :
    (m.fill a n b).byte a' = if a.toNat ≤ a' ∧ a' < a.toNat + n then b else m.byte a' :=
  Tree.get_fill m.tree _ _ b ha'

theorem byte_writeFrom (m : Memory) (a : Nat) (bs : List UInt8) (h : a + bs.length ≤ UInt64.size)
    {a' : Nat} (ha' : a' < UInt64.size) :
    (m.writeFrom a bs).byte a' =
      if a ≤ a' then bs[a' - a]?.getD (m.byte a') else m.byte a' := by
  induction bs generalizing m a with
  | nil => simp [writeFrom]
  | cons b bs ih =>
    simp only [List.length_cons] at h
    rw [writeFrom, ih _ _ (by omega), byte_set m b (by omega) ha']
    by_cases hlt : a + 1 ≤ a'
    · have hne : a ≠ a' := by omega
      have hle : a ≤ a' := by omega
      have hsub : a' - a = (a' - (a + 1)) + 1 := by omega
      rw [if_pos hlt, if_neg hne, if_pos hle, hsub, List.getElem?_cons_succ]
    · rw [if_neg hlt]
      by_cases he : a = a'
      · subst he; simp
      · rw [if_neg he, if_neg (by omega)]

/-- A written byte string is what is read back, and nothing else changes. -/
theorem byte_write (m : Memory) (a : Addr) (bs : List UInt8) (h : a.toNat + bs.length ≤ UInt64.size)
    {a' : Nat} (ha' : a' < UInt64.size) :
    (m.write a bs).byte a' =
      if a.toNat ≤ a' then bs[a' - a.toNat]?.getD (m.byte a') else m.byte a' :=
  byte_writeFrom m _ bs h ha'

@[simp] theorem length_bytes (m : Memory) (a : Addr) (n : Nat) : (m.bytes a n).length = n := by
  simp [bytes]

/-- Bytes that were copied are what they were at their old place. -/
theorem byte_write_bytes (m m' : Memory) {a p : Addr} {n a' : Nat} (h : a.toNat + n ≤ UInt64.size)
    (hlow : a.toNat ≤ a') (hhigh : a' < a.toNat + n) :
    (m.write a (m'.bytes p n)).byte a' = m'.byte (p.toNat + (a' - a.toNat)) := by
  have hlt : a' - a.toNat < (m'.bytes p n).length := by
    rw [length_bytes]
    omega
  rw [byte_write _ _ _ (by rwa [length_bytes]) (by omega), if_pos hlow,
    List.getElem?_eq_getElem hlt, Option.getD_some]
  simp [bytes]

/-- A word that was just written is what is read back. -/
theorem word_setWord (m : Memory) (a : Addr) (w : Word) (h : a.toNat + 8 ≤ UInt64.size) :
    (m.setWord a w).word a = w := by
  have hb : (m.setWord a w).bytes a 8 = littleEndian 8 w.toNat := by
    apply List.ext_getElem
    · simp [bytes]
    · intro i hi hi'
      simp only [length_littleEndian] at hi'
      simp only [bytes, List.getElem_map, List.getElem_range, setWord]
      rw [byte_write _ _ _ (by simpa using h) (by omega), if_pos (by omega)]
      simp [hi']
  have hw : w.toNat < capacity 8 := w.toNat_lt
  rw [word, hb, ofLittleEndian_littleEndian, Nat.mod_eq_of_lt hw, UInt64.ofNat_toNat]

/-- A word is made of the eight bytes from its address on, and of nothing else. -/
theorem word_congr {m m' : Memory} {a : Addr}
    (h : ∀ i < 8, m.byte (a.toNat + i) = m'.byte (a.toNat + i)) : m.word a = m'.word a := by
  have hb : m.bytes a 8 = m'.bytes a 8 :=
    List.map_congr_left fun i hi => h i (List.mem_range.1 hi)
  rw [word, word, hb]

/-- A write leaves the words beside it alone. -/
theorem word_setWord_of_disjoint (m : Memory) {a a' : Addr} (w : Word)
    (h : a.toNat + 8 ≤ UInt64.size) (h' : a'.toNat + 8 ≤ UInt64.size)
    (hd : a.toNat + 8 ≤ a'.toNat ∨ a'.toNat + 8 ≤ a.toNat) :
    (m.setWord a w).word a' = m.word a' := by
  refine word_congr fun i hi => ?_
  rw [setWord, byte_write _ _ _ (by simpa using h) (by omega)]
  split
  · rw [List.getElem?_eq_none (by simp; omega), Option.getD_none]
  · rfl

end Memory

end CountedHeap
