/-
Nothing is lost, and nothing goes to the wrong place

Two consequences of the invariant for whole runs, whatever the allocators answer, whatever the
destructors do, and however deep they are nested.

* `outstanding_exact`: at every boundary between two steps the counters say exactly how many blocks
  and how many handles are out, modulo what a word can hold;
* `returned_to_giver`: a block is given back to, or resized by, only the allocator that gave it
  out, and only while it is out.
-/
import CountedHeap.Proofs.Session

namespace CountedHeap

/-! ### Counters -/

/-- **Exact accounting.** At every boundary of every run, those inside destructors included, the
difference of the block counters is the number of blocks that are out, and the difference of the
handle counters is the number of handles that were made and not ended. A handle whose storage was
given back without ending it stays counted. -/
theorem outstanding_exact (E : Environment) (depth : Nat) (p : Program) (w : World History) :
    Throughout (fun e past => ∀ s, e = .boundary s →
      s.stats.outstandingBlocks = UInt64.ofNat (ledger past).blocks.card ∧
      s.stats.outstandingHandles =
        UInt64.ofNat ((ledger past).handles.card + (ledger past).abandoned))
      (E.history depth p w) := by
  refine (E.lawful_history depth p w).mono fun e past hlaw s he => ?_
  subst he
  have hsound : E.Sound (ledger past) s := hlaw.1
  exact ⟨hsound.tallied.blocks, hsound.tallied.handles⟩

/-! ### Allocators -/

/-- **No heap mixing.** Whenever an allocator is asked to take a block back or to change its size,
this allocator gave out a block at just that address, and since then the block was neither taken
back nor moved. The functions of the sample allocator ask the default heap that is bound. -/
theorem returned_to_giver (E : Environment) (depth : Nat) (p : Program) (w : World History) :
    Throughout (fun e past => ∀ s q, (e = .takenBack s q ∨ ∃ n r, e = .resized s q n r) →
      Out s q past) (E.history depth p w) := by
  refine (E.lawful_history depth p w).mono fun e past hlaw s q he => ?_
  rcases he with rfl | ⟨n, r, rfl⟩
  · have hheld : (ledger past).Holds s q := hlaw.1
    exact hheld.out
  · have hheld : (ledger past).Holds s q := hlaw
    exact hheld.out

end CountedHeap
