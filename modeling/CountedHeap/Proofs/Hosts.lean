/-
Hosts that can be run

Hosts whose allocators take storage from the top of memory, so that runs against them can be
followed by evaluation. Their destructors, finalizers and closures do nothing.

* `Environment.unbounded`: new blocks lie above all that are out;
* `Environment.recycling`: the same, and what was in a block is copied when it gets another size;
* `Environment.quarantine`: new blocks lie above all that ever were.
-/
import CountedHeap.Proofs.Session
import Mathlib.Data.Finset.Lattice.Fold
import Mathlib.Order.Lattice.Nat

namespace CountedHeap

open Memory (AgreeOn Apart)

/-! ### Above all blocks that are out -/

/-- An address that no block reaches. -/
def Ledger.top (L : Ledger) : Nat := max 4096 (L.blocks.sup fun p => p.toNat + L.room p)

/-- What lies above all blocks is fresh. -/
lemma Ledger.fresh_above (L : Ledger) {k n : Nat} (hk : L.top ≤ k) (h : k + n ≤ UInt64.size)
    (hn : 1 ≤ n) : L.Fresh (UInt64.ofNat k) n := by
  have htop : (UInt64.ofNat k).toNat = k := UInt64.toNat_ofNat_of_lt' (by omega)
  have hpos : 4096 ≤ L.top := le_max_left _ _
  refine ⟨fun h0 => ?_, by omega, fun q hq => .inr ?_⟩
  · rw [h0] at htop
    have hz : (0 : UInt64).toNat = 0 := rfl
    omega
  · rw [htop]
    exact ((Finset.le_sup (f := fun p => p.toNat + L.room p) hq).trans (le_max_right _ _)).trans hk

/-- A block above all others, until memory is used up. -/
def Ledger.next (L : Ledger) (n : Word) : Addr :=
  if L.top + max n.toNat 1 ≤ UInt64.size then UInt64.ofNat L.top else 0

/-- It is fresh, if there is one. -/
lemma Ledger.fresh_next (L : Ledger) {n : Word} (h : L.next n ≠ 0) :
    L.Fresh (L.next n) (max n.toNat 1) := by
  unfold next at *
  split at h
  · next hfit =>
    rw [if_pos hfit]
    exact L.fresh_above le_rfl hfit (le_max_right _ _)
  · exact absurd rfl h

/-- What is fresh stays so when a block goes. -/
lemma Ledger.Fresh.without {L : Ledger} {p : Addr} {n : Nat} (h : L.Fresh p n) (q : Addr) :
    (L.without q).Fresh p n :=
  ⟨h.1, h.2.1, fun r hr => h.2.2 r (Finset.mem_of_mem_erase hr)⟩

/-- A host whose allocators use memory above all that is out, and whose destructors do nothing. -/
def Environment.unbounded : Environment where
  external _ := ⟨0, 0, 0, 0⟩
  change fn := if fn = 0 then 1 else -1
  allocate _ n w := ⟨(ledger w.host).next n, w.memory⟩
  reallocate _ _ n w := ⟨(ledger w.host).next n, w.memory⟩
  free _ _ w := w.memory
  destructor _ _ _ _ _ := .done
  finalizer _ _ _ := .done
  closure _ _ _ _ := .done
  dropClosure _ _ := .done
  paired _ := by decide
  allocate_fresh _ _ _ h := Ledger.fresh_next _ h
  allocate_frame _ _ _ _ _ := AgreeOn.refl
  reallocate_fresh _ _ _ _ _ h := (Ledger.fresh_next _ h).without _
  reallocate_frame _ _ _ _ _ _ _ _ := AgreeOn.refl
  free_frame _ _ _ _ _ _ _ := AgreeOn.refl

instance : Inhabited Environment := ⟨.unbounded⟩

/-- While there is room for another block, those that are out lie inside memory. -/
lemma Ledger.fits_of_next {L : Ledger} {n : Word} (h : L.next n ≠ 0) {q : Addr}
    (hq : q ∈ L.blocks) : q.toNat + L.room q ≤ UInt64.size := by
  unfold next at h
  split at h
  · next hfit =>
    have hsup : q.toNat + L.room q ≤ L.top :=
      (Finset.le_sup (f := fun p => p.toNat + L.room p) hq).trans (le_max_right _ _)
    omega
  · exact absurd rfl h

/-- How many bytes are copied when the block at `p` gets another size. -/
def Ledger.shared (L : Ledger) (p : Addr) (n : Word) : Nat := min (L.room p) (max n.toNat 1)

/-- A host whose allocators use memory again that was given back, with what was left there, and copy
what is in a block that gets another size. -/
def Environment.recycling : Environment :=
  { Environment.unbounded with
    reallocate := fun _ p n w =>
      if (ledger w.host).next n = 0 then ⟨0, w.memory⟩
      else ⟨(ledger w.host).next n, w.memory.write ((ledger w.host).next n)
        (w.memory.bytes p ((ledger w.host).shared p n))⟩
    reallocate_fresh := fun s p n w hp h => by
      split at h
      · exact absurd rfl h
      · next h0 =>
        rw [if_neg h0]
        exact (Ledger.fresh_next _ h0).without p
    reallocate_frame := fun s p n w hp q hq _ => by
      split
      · exact AgreeOn.refl
      · next h0 =>
        obtain ⟨-, hfit, hapart⟩ := Ledger.fresh_next _ h0
        have hlen : (w.memory.bytes p ((ledger w.host).shared p n)).length ≤ max n.toNat 1 := by
          rw [Memory.length_bytes]
          exact min_le_right _ _
        refine Memory.agreeOn_write _ _ (by omega) (Ledger.fits_of_next h0 hq) ?_
        exact (hapart q hq).mono_left hlen }

/-! ### Above all blocks that ever were out -/

/-- An address that no block reaches, neither one that is out nor one that was given back. -/
def summit (H : History) : Nat :=
  (retired H).foldr (fun r k => max (r.1.toNat + r.2) k) (ledger H).top

lemma top_le_summit (H : History) : (ledger H).top ≤ summit H := by
  unfold summit
  induction retired H with
  | nil => exact le_rfl
  | cons r rs ih => exact ih.trans (le_max_right _ _)

/-- No block that was given back reaches it either. -/
lemma le_summit {H : History} {r : Addr × Nat} (hr : r ∈ retired H) :
    r.1.toNat + r.2 ≤ summit H := by
  unfold summit
  generalize retired H = rs at hr
  induction rs with
  | nil => exact absurd hr List.not_mem_nil
  | cons r' rs ih =>
    rcases List.mem_cons.1 hr with rfl | hr
    · exact le_max_left _ _
    · exact (ih hr).trans (le_max_right _ _)

/-- A block above all that were ever out, until memory is used up. -/
def unusedAddr (H : History) (n : Word) : Addr :=
  if summit H + max n.toNat 1 ≤ UInt64.size then UInt64.ofNat (summit H) else 0

/-- It is fresh, and lies apart from all that was given back. -/
lemma fresh_unusedAddr {H : History} {n : Word} (h : unusedAddr H n ≠ 0) :
    (ledger H).Fresh (unusedAddr H n) (max n.toNat 1) ∧
      ∀ r ∈ retired H, Apart r.1 r.2 (unusedAddr H n) (max n.toNat 1) := by
  unfold unusedAddr at *
  split at h
  · next hfit =>
    rw [if_pos hfit]
    refine ⟨(ledger H).fresh_above (top_le_summit H) hfit (le_max_right _ _), fun r hr => .inl ?_⟩
    rw [UInt64.toNat_ofNat_of_lt' (by omega)]
    exact le_summit hr
  · exact absurd rfl h

/-- A host whose allocators hold back what they are given, and whose destructors do nothing. -/
def Environment.quarantine : Environment :=
  { Environment.unbounded with
    allocate := fun _ n w => ⟨unusedAddr w.host n, w.memory⟩
    reallocate := fun _ _ n w => ⟨unusedAddr w.host n, w.memory⟩
    allocate_fresh := fun _ _ _ h => (fresh_unusedAddr h).1
    allocate_frame := fun _ _ _ _ _ => AgreeOn.refl
    reallocate_fresh := fun _ _ _ _ _ h => (fresh_unusedAddr h).1.without _
    reallocate_frame := fun _ _ _ _ _ _ _ _ => AgreeOn.refl }

/-- Nothing is handed out twice there, and nothing is overwritten. -/
lemma Environment.quarantine_retires : Environment.quarantine.Retires where
  allocate_unused _ _ _ h := (fresh_unusedAddr h).2
  allocate_kept _ _ _ _ _ := AgreeOn.refl
  reallocate_unused _ _ _ _ _ h := (fresh_unusedAddr h).2
  reallocate_kept _ _ _ _ _ _ _ := AgreeOn.refl
  free_kept _ _ _ _ _ _ := AgreeOn.refl

end CountedHeap
