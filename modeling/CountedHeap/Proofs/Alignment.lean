/-
The next aligned address

The distance to the next multiple of an alignment is reckoned in words, by a mask or by a division.
As numbers the two come to the same remainder, so the distance is the least that reaches a multiple,
whatever the alignment is; and where the block has the room that was asked for, the payload of a
handle starts at that multiple.

* `toNat_alignRemainder`: mask and division;
* `alignOffset_isLeast`: the distance, among all numbers;
* `alignOffset_exact`: the same distance by mask and by division;
* `Order.Placed`: an aligned payload in its block;
* `Order.placed`: so it is in every block that lies in memory.
-/
import CountedHeap.Proofs.Lifetimes
import Mathlib.Order.Bounds.Basic

namespace CountedHeap

/-! ### Remainders -/

lemma isPowerOfTwo_iff (w : Word) : isPowerOfTwo w = true ↔ w.toNat.isPowerOfTwo := by
  have hzero : w = 0 ↔ w.toNat = 0 := UInt64.toNat_inj.symm
  rw [← Nat.ne_zero_and_sub_one_eq_zero_iff_isPowerOfTwo, isPowerOfTwo, Bool.and_eq_true,
    bne_iff_ne, beq_iff_eq, ← UInt64.toNat_inj, UInt64.toNat_and, Ne, hzero]
  refine and_congr_right fun h0 => ?_
  have hone : (1 : Word).toNat = 1 := rfl
  have hle : (1 : Word) ≤ w := UInt64.le_iff_toNat_le.2 (Nat.one_le_iff_ne_zero.2 h0)
  rw [UInt64.toNat_sub_of_le _ _ hle, hone]
  rfl

/-- The mask of a power of two leaves the remainder. -/
lemma toNat_and_pred (addr : Addr) {align : Word} (h : align.toNat.isPowerOfTwo) :
    (addr &&& (align - 1)).toNat = addr.toNat % align.toNat := by
  have hone : (1 : Word).toNat = 1 := rfl
  have hle : (1 : Word) ≤ align := UInt64.le_iff_toNat_le.2 (Nat.pos_of_isPowerOfTwo h)
  obtain ⟨k, hk⟩ := h
  rw [UInt64.toNat_and, UInt64.toNat_sub_of_le _ _ hle, hone, hk, Nat.and_two_pow_sub_one_eq_mod]

/-- Mask and division come to the same. -/
lemma toNat_alignRemainder (addr : Addr) (align : Word) :
    (alignRemainder addr align).toNat = addr.toNat % align.toNat := by
  unfold alignRemainder
  split
  · next h => exact toNat_and_pred addr ((isPowerOfTwo_iff align).1 h)
  · exact UInt64.toNat_mod _ _

/-! ### Distances -/

lemma dvd_add_iff_dvd_mod_add (a n k : Nat) : a ∣ n + k ↔ a ∣ n % a + k := by
  rw [Nat.dvd_iff_mod_eq_zero, Nat.dvd_iff_mod_eq_zero, Nat.mod_add_mod]

/-- The distance reaches a multiple, and no lesser one does. -/
lemma alignOffset_isLeast (addr align : Word) :
    IsLeast {k | max align.toNat 1 ∣ addr.toNat + k} (alignOffset addr align).toNat := by
  have hrem := toNat_alignRemainder addr (effectiveAlign align)
  have hlt := alignRemainder_lt addr (one_le_effectiveAlign align)
  rw [← toNat_effectiveAlign]
  unfold alignOffset
  simp only
  by_cases h0 : alignRemainder addr (effectiveAlign align) = 0
  · rw [if_pos h0]
    rw [h0] at hrem
    exact ⟨Nat.dvd_of_mod_eq_zero hrem.symm, fun _ _ => Nat.zero_le _⟩
  · have hpos : (alignRemainder addr (effectiveAlign align)).toNat ≠ 0 :=
      fun h => h0 (UInt64.toNat_inj.1 h)
    rw [if_neg h0, UInt64.toNat_sub_of_le _ _ (UInt64.le_iff_toNat_le.2 hlt.le)]
    refine ⟨(dvd_add_iff_dvd_mod_add _ _ _).2 ?_, fun k hk => ?_⟩
    · rw [← hrem, Nat.add_sub_cancel' hlt.le]
    · have hle := Nat.le_of_dvd (by omega) ((dvd_add_iff_dvd_mod_add _ _ _).1 hk)
      omega

lemma alignOffset_effectiveAlign (addr align : Word) :
    alignOffset addr (effectiveAlign align) = alignOffset addr align := by
  unfold alignOffset
  rw [effectiveAlign_effectiveAlign]

/-- What is missing to the next multiple of an alignment where `r` bytes are left over. -/
def missing (a r : Word) : Word := if r = 0 then 0 else a - r

/-- `r` is the distance from an address to the next multiple of `a`, however it is reckoned. -/
structure NextMultiple (addr a r : Word) : Prop where
  lt : r < a
  least : IsLeast {k | a.toNat ∣ addr.toNat + k} r.toNat
  divided : r = missing a (addr % a)
  masked : a.toNat.isPowerOfTwo → addr &&& (a - 1) = addr % a ∧ r = missing a (addr &&& (a - 1))
  /-- What is left over is taken from the alignment, and never exceeds it. -/
  covered : alignRemainder addr a < a ∧
    (a - alignRemainder addr a).toNat = a.toNat - (alignRemainder addr a).toNat

/-- **Mask and division agree.** For every address and every alignment, zero counting as one, the
distance is the least that reaches a multiple, be it reckoned by a division or, where the alignment
is a power of two, by a mask. -/
theorem alignOffset_exact (addr align : Word) :
    (effectiveAlign align).toNat = max align.toNat 1 ∧
      NextMultiple addr (effectiveAlign align) (alignOffset addr align) := by
  have hrem : alignRemainder addr (effectiveAlign align) = addr % effectiveAlign align :=
    UInt64.toNat_inj.1 ((toNat_alignRemainder _ _).trans (UInt64.toNat_mod _ _).symm)
  have hlt := alignRemainder_lt addr (one_le_effectiveAlign align)
  have hleast := alignOffset_isLeast addr align
  rw [← toNat_effectiveAlign] at hleast
  have hdivided : alignOffset addr align =
      missing (effectiveAlign align) (addr % effectiveAlign align) := by
    rw [← hrem]
    rfl
  refine ⟨toNat_effectiveAlign align, alignOffset_lt addr align, hleast, hdivided, fun hpow => ?_,
    hlt, UInt64.toNat_sub_of_le _ _ (UInt64.le_iff_toNat_le.2 (Nat.le_of_lt hlt))⟩
  have hmask : addr &&& (effectiveAlign align - 1) = addr % effectiveAlign align :=
    UInt64.toNat_inj.1 ((toNat_and_pred addr hpow).trans (UInt64.toNat_mod _ _).symm)
  exact ⟨hmask, hmask ▸ hdivided⟩

/-! ### Payloads in their blocks -/

namespace Order

/-- The payload of an order for the alignment `align`, in the block at `p`: it starts `k` bytes
behind the start of the block, which is the first place behind the header that is aligned, and no
sum on the way there exceeds a word. -/
structure Placed (d : Order) (align : Word) (p : Addr) (k : Nat) : Prop where
  least : IsLeast {k | headerSize.toNat ≤ k ∧ max align.toNat 1 ∣ p.toNat + k} k
  near : k < headerSize.toNat + max align.toNat 1
  inside : k + d.size.toNat ≤ d.total
  place : d.place p = ⟨p, p + UInt64.ofNat k⟩
  behind : (p + headerSize).toNat = p.toNat + headerSize.toNat
  payload : (p + UInt64.ofNat k).toNat = p.toNat + k

variable {d : Order} {align : Word} {p : Addr}

lemma total_of_align (ha : d.align? = some align) :
    d.total = d.size.toNat + (56 + 2 * max align.toNat 1) := by
  rw [total, overhead, ha]
  rfl

lemma place_of_align (ha : d.align? = some align) :
    d.place p = ⟨p, p + headerSize + alignOffset (p + headerSize) align⟩ := by
  rw [place, ha]
  simp only [alignOffset_effectiveAlign]

/-- Wherever the block lies in memory, it has room for moving the payload. -/
lemma placed (ha : d.align? = some align) (hfit : p.toNat + d.total ≤ UInt64.size) :
    ∃ k, d.Placed align p k := by
  have hheader : headerSize.toNat = 56 := rfl
  have hsize : UInt64.size = 2 ^ 64 := rfl
  have htotal := total_of_align ha
  have hlt := alignOffset_lt (p + headerSize) align
  obtain ⟨hdvd, hleast⟩ := alignOffset_isLeast (p + headerSize) align
  have hplace := place_of_align (p := p) ha
  rw [toNat_effectiveAlign] at hlt
  have hplus : (p + headerSize).toNat = p.toNat + 56 := by
    rw [UInt64.toNat_add, hheader, Nat.mod_eq_of_lt (by omega)]
  set off := alignOffset (p + headerSize) align
  have hk : (UInt64.ofNat (56 + off.toNat)).toNat = 56 + off.toNat :=
    UInt64.toNat_ofNat_of_lt' (by omega)
  refine ⟨56 + off.toNat, ⟨⟨by omega, ?_⟩, fun k hk => ?_⟩, by omega, by omega, ?_, hplus, ?_⟩
  · rw [← Nat.add_assoc, ← hplus]
    exact hdvd
  · obtain ⟨h56, hk⟩ := hk
    have hrest : max align.toNat 1 ∣ (p + headerSize).toNat + (k - 56) := by
      rw [hheader] at h56
      rwa [hplus, Nat.add_assoc, Nat.add_sub_cancel' h56]
    have hle := hleast hrest
    omega
  · rw [hplace, UInt64.ofNat_add, UInt64.ofNat_toNat, UInt64.add_assoc]
    rfl
  · rw [UInt64.toNat_add, hk, Nat.mod_eq_of_lt (by omega)]

/-- What becomes of an allocator's answer: the block is counted, and the payload moved. -/
lemma allocate_of_answer {σ : Type} {h : Host σ} {w w' : World σ} (ha : d.align? = some align)
    (hgiven : (allocatorAt h d.ext).allocate (UInt64.ofNat d.total) w = .ok p w') (h0 : p ≠ 0)
    (hd : d.total < UInt64.size) :
    (allocateCombinedAligned h d.size align d.ext).run w = (do
      count h .alloc
      h.trace (.allocated p (UInt64.ofNat d.total))
      return .ok (d.place p) : Machine σ (Except AllocError Combined)) w' := by
  have hsame : allocateCombinedAligned h d.size align d.ext = d.allocate h := by
    rw [allocate, ha]
  rw [hsame, d.allocate_of_fits h hd, Storage.allocateFrom]
  simp only [bind_assoc, Attempt.lift_bind_apply, hgiven, if_neg h0, pure_bind, Machine.bind_apply]
  rfl

end Order

lemma total_lt_of_fits {d : Order} {p : Addr} (h0 : p ≠ 0)
    (hfit : p.toNat + d.total ≤ UInt64.size) : d.total < UInt64.size := by
  have hpos : p.toNat ≠ 0 := fun h => h0 (UInt64.toNat_inj.1 h)
  omega

/-- A request for an aligned payload is met wherever its block comes to lie. -/
lemma Environment.made_aligned {E : Environment} {w w' : World History} {r : Request} {d : Order}
    {align : Word} {p : Addr} {play : (World History → Program) → Machine History Unit}
    (hc : E.Correct w.bindings.incDec) (hr : r.order? = some d) (ha : d.align? = some align)
    (hgiven : (allocatorAt (E.hostOver play) d.ext).allocate (UInt64.ofNat d.total) w = .ok p w')
    (h0 : p ≠ 0) (hfit : p.toNat + d.total ≤ UInt64.size) :
    ∃ k v, d.Placed align p k ∧ (r.make (E.hostOver play)).run w = .ok (.ok p) v ∧
      Handle.payload p v = .ok (p + UInt64.ofNat k) v ∧ Handle.size p v = .ok d.size v ∧
      d.Stands p ((Call.make r).result (E.hostOver play) w).marked.host := by
  obtain ⟨k, hk⟩ := Order.placed ha hfit
  have hnone := Request.closure?_eq_none hr (.inl (ha ▸ rfl))
  have hroom : p.toNat + 56 ≤ UInt64.size := by
    have htotal := Order.total_of_align ha
    omega
  have hrun := (make_ok_iff hc hr hnone).2 ⟨total_lt_of_fits h0 hfit, h0, w', hgiven, rfl⟩
  have hheader : (d.made p w').memory.header p = d.header p := d.header_written hroom _
  refine ⟨k, d.made p w', hk, hrun, ?_, ?_, made_stands hr hroom hrun⟩
  · show EStateM.Result.ok ((d.made p w').memory.header p).payload _ = _
    rw [hheader, Order.header, hk.place]
  · show EStateM.Result.ok ((d.made p w').memory.header p).size _ = _
    rw [hheader, Order.header]

/-- **Aligned layout.** An aligned payload starts at the first multiple of its alignment behind the
header, wherever the block lies that the allocator gives out, if only it lies in memory; no sum
exceeds a word on the way, and the payload ends within the block. A handle that is made there
reports this place and the size that was asked for, and goes on to; and however it ends, what goes
back is the block, to the allocator that gave it out. -/
theorem aligned_layout {d : Order} {align : Word} (ha : d.align? = some align) :
    (∀ {σ : Type} (h : Host σ) (w w' : World σ) (p : Addr),
      (allocatorAt h d.ext).allocate (UInt64.ofNat d.total) w = .ok p w' → p ≠ 0 →
      p.toNat + d.total ≤ UInt64.size → ∃ k, d.Placed align p k ∧
        (allocateCombinedAligned h d.size align d.ext).run w = (do
          count h .alloc
          h.trace (.allocated p (UInt64.ofNat d.total))
          return .ok ⟨p, p + UInt64.ofNat k⟩ : Machine σ (Except AllocError Combined)) w') ∧
    ∀ (E : Environment) (depth : Nat) (q : Program) (w : World History),
      Throughout (fun e past => ∀ s, e = .boundary s → ∀ r, r.order? = some d → ∀ depth',
        (∀ p w', (allocatorAt (E.host depth') d.ext).allocate (UInt64.ofNat d.total)
            (s.resume past) = .ok p w' → p ≠ 0 → p.toNat + d.total ≤ UInt64.size →
          ∃ k v, d.Placed align p k ∧
            (r.make (E.host depth')).run (s.resume past) = .ok (.ok p) v ∧
            Handle.payload p v = .ok (p + UInt64.ofNat k) v ∧ Handle.size p v = .ok d.size v ∧
            d.Stands p ((Call.make r).result (E.host depth') (s.resume past)).marked.host) ∧
        ∀ b, d.Stands b past → (s.memory.header b).size = d.size ∧
          ((s.memory.header b).payload = (d.place b).payload ∨
            d.size = 0 ∧ (s.memory.header b).payload = 0) ∧
          ((ledger past).Sole b → d.Settles r.caller (E.host depth') (s.resume past) b))
        (E.history depth q w) := by
  refine ⟨fun h w w' p hgiven h0 hfit => ?_, fun E depth q w e past hsuffix s he r hr depth' => ?_⟩
  · obtain ⟨k, hk⟩ := Order.placed ha hfit
    refine ⟨k, hk, ?_⟩
    rw [Order.allocate_of_answer ha hgiven h0 (total_lt_of_fits h0 hfit), hk.place]
  · subst he
    obtain ⟨hw, hm⟩ := Environment.steady_of_boundary ((E.lawful_history depth q w).suffix hsuffix)
    obtain ⟨play, hhost, hplay⟩ := E.obeys_host depth'
    have hnone := Request.closure?_eq_none hr (.inl (ha ▸ rfl))
    rw [hhost]
    refine ⟨fun p w' => Environment.made_aligned hw.sound.correct hr ha, fun b hb => ?_⟩
    obtain ⟨hkept, hpayload⟩ := hw.header_of_stands (hb.resume s)
    exact ⟨hkept.size nofun, hpayload, fun hsole =>
      hw.settles hplay hm hsole hr hnone (hb.resume s)⟩

/-- In a block at 4096, the first multiple of 48 behind the header is 80 bytes from the start. -/
theorem aligned_layout_at_a_page : ∃ d, (Request.allocSafeAligned 100 48).order? = some d ∧
    d.Placed 48 4096 80 ∧ (allocateCombinedAligned Host.single 100 48 0).run { host := () } =
      (do
        count Host.single .alloc
        Host.single.trace (.allocated 4096 252)
        return .ok ⟨4096, 4176⟩ : Machine Unit (Except AllocError Combined)) { host := () } := by
  let d : Order := ⟨100, some 48, 0, true, Adapter.safe.addr, 100,
    fun c => .payloadSized "alloc_safe_aligned" c.payload 100⟩
  obtain ⟨k, hk, hrun⟩ := (aligned_layout (show d.align? = some 48 from rfl)).1 Host.single
    { host := () } { host := () } 4096 rfl (by decide) (by decide)
  have hplace : (⟨4096, 4096 + UInt64.ofNat k⟩ : Combined) = ⟨4096, 4176⟩ := hk.place.symm
  have hk80 : k = 80 := by
    have hpayload := hk.payload
    rw [(Combined.mk.inj hplace).2] at hpayload
    exact (Nat.add_left_cancel hpayload).symm
  rw [hplace] at hrun
  exact ⟨d, rfl, hk80 ▸ hk, hrun⟩

end CountedHeap
