/-
Numbers as bytes, lowest byte first

* `capacity`: how many numbers a row of bytes can tell apart;
* `ofLittleEndian_littleEndian`: reading back the bytes of a number gives its remainder modulo
  that capacity.
-/

namespace CountedHeap

/-- The lowest `k` bytes of a number, lowest first. -/
def littleEndian : Nat → Nat → List UInt8
  | 0, _ => []
  | k + 1, n => UInt8.ofNat n :: littleEndian k (n / 256)

/-- The number that a list of bytes spells, lowest byte first. -/
def ofLittleEndian : List UInt8 → Nat
  | [] => 0
  | b :: bs => b.toNat + 256 * ofLittleEndian bs

/-- How many numbers `k` bytes can tell apart. -/
def capacity : Nat → Nat
  | 0 => 1
  | k + 1 => 256 * capacity k

@[simp] theorem length_littleEndian (k n : Nat) : (littleEndian k n).length = k := by
  induction k generalizing n with
  | zero => rfl
  | succ k ih => simp [littleEndian, ih]

/-- Reading back the bytes of a number gives its remainder modulo what `k` bytes can hold. -/
theorem ofLittleEndian_littleEndian (k n : Nat) :
    ofLittleEndian (littleEndian k n) = n % capacity k := by
  induction k generalizing n with
  | zero => simp [littleEndian, ofLittleEndian, capacity, Nat.mod_one]
  | succ k ih =>
    have hb : (UInt8.ofNat n).toNat = n % 256 := by simp
    rw [littleEndian, ofLittleEndian, ih, hb, capacity, Nat.mod_mul]

end CountedHeap
