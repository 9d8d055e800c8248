/-
Byte trees

A byte for every address below the span of the tree's height, kept as a binary tree on the bits of
the address. A range of equal bytes is one leaf, so filling a range costs a number of nodes
proportional to the height and not to the length of the range.

* `Tree.span`: how many addresses there are;
* `Tree.get_set`: a write changes the byte it names and no other;
* `Tree.get_fill`: a fill changes exactly the bytes of its range.
-/

namespace CountedHeap

/-- A binary tree over a range of addresses. A leaf gives every address of its range one byte. -/
inductive Tree where
  | uniform (byte : UInt8)
  | split (low high : Tree)

namespace Tree

/-- The byte at address `a` of a tree of the given height: the bits of `a`, highest first, say
which half to enter. -/
def get : Nat → Tree → Nat → UInt8
  | _, .uniform b, _ => b
  | 0, .split l _, a => get 0 l a
  | h + 1, .split l r, a => if a.testBit h then get h r a else get h l a

/-- The two halves of a tree. -/
def halves : Tree → Tree × Tree
  | .uniform b => (.uniform b, .uniform b)
  | .split l r => (l, r)

@[simp] theorem halves_split (l r : Tree) : (split l r).halves = (l, r) := rfl

/-- The tree with the byte at address `a` replaced. -/
def set : Nat → Tree → Nat → UInt8 → Tree
  | 0, _, _, b => .uniform b
  | h + 1, t, a, b =>
    if a.testBit h then .split t.halves.1 (set h t.halves.2 a b)
    else .split (set h t.halves.1 a b) t.halves.2

/-- How many addresses a tree of the given height has a byte for. -/
def span (h : Nat) : Nat := 1 <<< h

/-- The tree with every byte from `lo` up to, but not including, `hi` replaced. -/
def fill : Nat → Tree → Nat → Nat → UInt8 → Tree
  | 0, t, lo, hi, b => if lo = 0 ∧ 0 < hi then .uniform b else t
  | h + 1, t, lo, hi, b =>
    if hi ≤ lo ∨ span (h + 1) ≤ lo then t
    else if lo = 0 ∧ span (h + 1) ≤ hi then .uniform b
    else
      .split (fill h t.halves.1 lo hi b) (fill h t.halves.2 (lo - span h) (hi - span h) b)

/-! ### Addresses and their bits -/

theorem span_zero : span 0 = 1 := rfl

theorem span_succ (h : Nat) : span (h + 1) = span h + span h := by
  rw [span, span, Nat.shiftLeft_succ, Nat.two_mul]

theorem span_le_span {h h' : Nat} (e : h ≤ h') : span h ≤ span h' := by
  induction e with
  | refl => exact Nat.le_refl _
  | step _ ih => rw [span_succ]; omega

/-- Only addresses from the middle on have the highest bit. -/
theorem testBit_of_lt_span {h a : Nat} (ha : a < span h) : a.testBit h = false := by
  rw [span, Nat.one_shiftLeft] at ha
  exact Nat.testBit_lt_two_pow ha

theorem testBit_span_add {h c : Nat} (hc : c < span h) : (span h + c).testBit h = true := by
  have hbit := testBit_of_lt_span hc
  rw [span, Nat.one_shiftLeft, Nat.testBit_two_pow_add_eq, hbit]
  rfl

theorem testBit_mod_span {h i : Nat} (a : Nat) (hi : i < h) :
    (a % span h).testBit i = a.testBit i := by
  rw [span, Nat.one_shiftLeft, Nat.testBit_mod_two_pow]
  simp [hi]

/-! ### What a read sees -/

@[simp] theorem get_uniform (h : Nat) (b : UInt8) (a : Nat) : get h (.uniform b) a = b := by
  cases h <;> rfl

/-- A read enters the half that the highest bit of the address names. -/
theorem get_succ (h : Nat) (t : Tree) (a : Nat) :
    get (h + 1) t a = if a.testBit h then get h t.halves.2 a else get h t.halves.1 a := by
  cases t <;> simp [get, halves]

/-- Only the bits below the height count. -/
theorem get_congr {h : Nat} (t : Tree) {a a' : Nat}
    (e : ∀ i < h, a.testBit i = a'.testBit i) : get h t a = get h t a' := by
  induction h generalizing t with
  | zero =>
    induction t with
    | uniform b => rfl
    | split l r ihl _ => simpa [get] using ihl
  | succ h ih =>
    rw [get_succ, get_succ, e h (Nat.lt_succ_self h),
      ih t.halves.1 fun i hi => e i (Nat.lt_succ_of_lt hi),
      ih t.halves.2 fun i hi => e i (Nat.lt_succ_of_lt hi)]

/-- A read reduces its address modulo the size of the tree. -/
theorem get_mod (h : Nat) (t : Tree) (a : Nat) : get h t (a % span h) = get h t a :=
  get_congr t fun _ hi => testBit_mod_span a hi

/-- A write is seen at the addresses that agree with it on the bits below the height, and
nowhere else. -/
theorem get_set_of_bits (h : Nat) (t : Tree) (a a' : Nat) (b : UInt8) :
    get h (set h t a b) a' = if ∀ i < h, a.testBit i = a'.testBit i then b else get h t a' := by
  induction h generalizing t with
  | zero => simp [set]
  | succ h ih =>
    rw [get_succ h t]
    simp only [Nat.forall_lt_succ_right]
    by_cases ha : a.testBit h <;> by_cases ha' : a'.testBit h <;> simp [set, get, ha, ha', ih]

/-- A write changes the byte it names and no other. -/
theorem get_set {h : Nat} (t : Tree) {a a' : Nat} (b : UInt8) (ha : a < span h)
    (ha' : a' < span h) :
    get h (set h t a b) a' = if a = a' then b else get h t a' := by
  rw [get_set_of_bits]
  have : (∀ i < h, a.testBit i = a'.testBit i) ↔ a = a' := by
    refine ⟨fun e => Nat.eq_of_testBit_eq fun i => ?_, fun e _ _ => e ▸ rfl⟩
    by_cases hi : i < h
    · exact e i hi
    · have hle := span_le_span (Nat.le_of_not_lt hi)
      rw [testBit_of_lt_span (Nat.lt_of_lt_of_le ha hle),
        testBit_of_lt_span (Nat.lt_of_lt_of_le ha' hle)]
  simp [this]

/-- A fill changes exactly the bytes of its range. -/
theorem get_fill {h : Nat} (t : Tree) (lo hi : Nat) (b : UInt8) {a : Nat} (ha : a < span h) :
    get h (fill h t lo hi b) a = if lo ≤ a ∧ a < hi then b else get h t a := by
  induction h generalizing t lo hi a with
  | zero =>
    rw [span_zero] at ha
    obtain rfl : a = 0 := by omega
    by_cases hc : lo = 0 ∧ 0 < hi
    · simp [fill, hc]
    · rw [fill, if_neg hc, if_neg (by omega)]
  | succ h ih =>
    have hp := span_succ h
    rw [fill]
    split
    · next hlt => rw [if_neg (by omega)]
    · split
      · next hc => rw [get_uniform, if_pos (by omega)]
      · rw [get_succ h t]
        by_cases hb : a < span h
        · rw [get_succ, testBit_of_lt_span hb]
          simp [ih _ _ _ hb]
        · obtain ⟨c, rfl⟩ : ∃ c, a = span h + c := ⟨a - span h, by omega⟩
          have hc : c < span h := by omega
          have hmod : (span h + c) % span h = c := by
            rw [Nat.add_mod_left, Nat.mod_eq_of_lt hc]
          rw [get_succ, testBit_span_add hc]
          simp only [halves_split, if_true]
          rw [← get_mod, hmod, ih _ _ _ hc, ← get_mod h t.halves.2 (span h + c), hmod]
          congr 1
          simp only [eq_iff_iff]
          omega

end Tree

end CountedHeap
