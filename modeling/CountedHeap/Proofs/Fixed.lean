/-
Handles of fixed size

The payload of a handle of fixed size is not for exchange. The operations that would give it another
one look at the kind first and stop the program before they ask anybody for anything. The operation
that frees a block through a handle does not look at the kind: it gives the block to the default
heap, and if the block was the payload, the handle loses sight of it, fixed or not. So the kind, the
size and the allocator of a fixed handle are the same for as long as it is there, and its payload is
the same or null.

* `Unyielding`: what the three operations do on a handle of fixed size;
* `fixed_unyielding`: so they do throughout every run;
* `fixed_payload_lost`: a run in which a handle of fixed size loses its payload.
-/
import CountedHeap.Proofs.Finality

namespace CountedHeap

/-- What the operations on resizable payloads do on the handle `b` of fixed size: two of them stop
the program in the state it is in, and the third goes ahead. -/
structure Unyielding (E : Environment) (w : World History) (b : Handle) : Prop where
  alloc : ∀ depth n, (Handle.resizableAlloc (E.host depth) b n).run w =
    .error (.violation (.notResizable "varsize_alloc")) w
  realloc : ∀ depth n, (Handle.resizableRealloc (E.host depth) b n).run w =
    .error (.violation (.notResizable "varsize_realloc")) w
  entryAlloc : ∀ depth n, Entry.resizableAlloc (E.host depth) b n w =
    .error (.violation (.notResizable "varsize_alloc")) w
  entryRealloc : ∀ depth n, Entry.resizableRealloc (E.host depth) b n w =
    .error (.violation (.notResizable "varsize_realloc")) w
  /-- Whatever is to be freed goes to the default heap. If the contract allows it, all that becomes
  of the handle is that it forgets a payload that was freed. -/
  free : ∀ depth p, ∃ w', Handle.resizableFree (E.host depth) b p w = .ok () w' ∧
    Entry.resizableFree (E.host depth) b p w = .ok () w' ∧
    w'.host = (if p = 0 then w.host else .takenBack (.heap w.bindings.heap.addr) p :: w.host) ∧
    ((Call.resizableFree b p).Permitted E w → w'.memory.header b = { w.memory.header b with
      payload := if p = (w.memory.header b).payload then 0 else (w.memory.header b).payload })

namespace Environment

variable {E : Environment} {w : World History} {b : Handle} {p : Addr}

/-- The kind stops an attempt at another payload before it begins. -/
lemma resizableAlloc_fixed (hk : (w.memory.header b).kind ≠ .resizable) (h : Host History)
    (n : Word) : (Handle.resizableAlloc h b n).run w =
      .error (.violation (.notResizable "varsize_alloc")) w := by
  rw [Handle.resizableAlloc, Attempt.lift_bind_apply, requireResizable_fixed hk]

lemma resizableRealloc_fixed (hk : (w.memory.header b).kind ≠ .resizable) (h : Host History)
    (n : Word) : (Handle.resizableRealloc h b n).run w =
      .error (.violation (.notResizable "varsize_realloc")) w := by
  rw [Handle.resizableRealloc, Attempt.lift_bind_apply, Machine.bind_apply,
    requireResizable_fixed hk]

/-- The pointer of an attempt that stops the program is never seen. -/
lemma orNull_violation {x : Attempt History Addr} {v : Violation}
    (hx : x.run w = .error (.violation v) w) : Entry.orNull x w = .error (.violation v) w := by
  rw [Entry.orNull, Machine.bind_apply, hx]

/-- What is freed through a handle of fixed size is nothing, or a block of the caller's. -/
lemma Steady.header_freed_fixed (hw : E.Steady w) (hk : (w.memory.header b).kind ≠ .resizable)
    (hp : (Call.resizableFree b p).Permitted E w) (h0 : p ≠ 0) :
    (E.handedBack (.heap w.bindings.heap.addr) p w).memory.header b = w.memory.header b := by
  obtain ⟨howned, hs⟩ := (hp.2.resolve_left h0).resolve_left fun h => hk h.1
  exact hw.header_freed ⟨howned.1, hs⟩ (.inl hp.1.1) fun he => howned.2.1 (he ▸ hp.1.1)

/-- The operation that frees goes ahead, and the handle forgets what was its payload. -/
lemma Steady.resizableFree_fixed (hw : E.Steady w) (hk : (w.memory.header b).kind ≠ .resizable)
    (play : (World History → Program) → Machine History Unit) (p : Addr) :
    ∃ w', Handle.resizableFree (E.hostOver play) b p w = .ok () w' ∧
      w'.host = (if p = 0 then w.host else .takenBack (.heap w.bindings.heap.addr) p :: w.host) ∧
      ((Call.resizableFree b p).Permitted E w → w'.memory.header b = { w.memory.header b with
        payload :=
          if p = (w.memory.header b).payload then 0 else (w.memory.header b).payload }) := by
  have hrun := resizableFree_run play (b := b) hw.sound.correct p
  set v := if p = 0 then w else E.handedBack (.heap w.bindings.heap.addr) p w with hv
  have hheader : (Call.resizableFree b p).Permitted E w →
      v.memory.header b = w.memory.header b := by
    intro hp
    by_cases h0 : p = 0
    · rw [hv, if_pos h0]
    · rw [hv, if_neg h0]
      exact hw.header_freed_fixed hk hp h0
  have hhost : v.host =
      if p = 0 then w.host else .takenBack (.heap w.bindings.heap.addr) p :: w.host := by
    by_cases h0 : p = 0
    · rw [hv, if_pos h0, if_pos h0]
    · rw [hv, if_neg h0, if_neg h0]
      rfl
  refine ⟨_, hrun, ?_, fun hp => ?_⟩
  · by_cases he : p = (v.memory.header b).payload
    · rw [if_pos he]
      exact hhost
    · rw [if_neg he]
      exact hhost
  · rw [hheader hp]
    by_cases he : p = (w.memory.header b).payload
    · rw [if_pos he, if_pos he, Memory.header_setField v.memory .payload 0 (hw.room_le hp.1.1).2,
        hheader hp]
      rfl
    · rw [if_neg he, if_neg he, hheader hp]

/-- A handle of fixed size does not yield. -/
lemma Steady.unyielding (hw : E.Steady w) (hb : (ledger w.host).Live b)
    (hk : (w.memory.header b).kind ≠ .resizable) : Unyielding E w b := by
  have h0 := hw.ne_zero hb.1
  refine ⟨fun depth n => resizableAlloc_fixed hk _ n, fun depth n => resizableRealloc_fixed hk _ n,
    fun depth n => unlessNull_violation h0 (orNull_violation (resizableAlloc_fixed hk _ n)),
    fun depth n => unlessNull_violation h0 (orNull_violation (resizableRealloc_fixed hk _ n)),
    fun depth p => ?_⟩
  obtain ⟨play, hhost, -⟩ := E.obeys_host depth
  obtain ⟨w', hrun, hafter⟩ := hw.resizableFree_fixed hk play p
  rw [hhost]
  refine ⟨w', hrun, ?_, hafter⟩
  rw [Entry.resizableFree, Entry.unlessNull, Entry.guarded, if_neg h0, Machine.tryCatch_apply, hrun]

end Environment

/-- **Fixed handles.** At every boundary of every run, a handle of fixed size that somebody has a
reference to does not yield, and it has been of this kind and of this size, with this allocator, at
every boundary since it was made; its payload is the same as then, or null. -/
theorem fixed_unyielding (E : Environment) (depth : Nat) (p : Program) (w : World History) :
    Throughout (fun e past => ∀ s, e = .boundary s → ∀ b, (ledger past).Live b →
      (s.memory.header b).kind = .fixed →
      Unyielding E (s.resume past) b ∧ ∀ d, Seen b d past → d.kind = .fixed ∧
        (s.memory.header b).size = d.size ∧ (s.memory.header b).external = d.external ∧
        ((s.memory.header b).payload = d.payload ∨ (s.memory.header b).payload = 0))
      (E.history depth p w) := by
  rintro e past hsuffix s rfl b hb hk
  obtain ⟨hw, -⟩ := Environment.steady_of_boundary ((E.lawful_history depth p w).suffix hsuffix)
  have hfixed : (s.memory.header b).kind ≠ .resizable := by
    rw [hk]
    exact nofun
  refine ⟨hw.unyielding hb hfixed, fun d hd => ?_⟩
  have hkept : d.Endures (s.memory.header b) := hw.recalled.seen b d (.inr ⟨not_false, hd⟩)
  have hdk : d.kind = .fixed := hkept.kind.symm.trans hk
  have hd' : d.kind ≠ .resizable := by
    rw [hdk]
    exact nofun
  exact ⟨hdk, hkept.size hd', hkept.external, hkept.payload hd'⟩

/-- A caller who makes a handle on a block of his own, and frees the block through the handle. -/
def Program.forgetful : Program :=
  .step (.allocateFrom 0 16) fun a _ =>
    .step (.make (.new (a.toOption.getD 0) 16 0 0)) fun b _ =>
      .step (.resizableFree (b.toOption.getD 0) (a.toOption.getD 0)) fun _ _ => .done

/-- The history ends with a block `p` that was freed through the handle `b`. It was the payload of
the handle, which was of fixed size, still is, and has none any more. -/
def forgets : History → Bool
  | .boundary s :: .discarded b p :: .takenBack (.heap o) q :: .boundary s' :: before =>
    decide (q = p ∧ o = HeapObject.system.addr ∧ (ledger before).Live b ∧
      (s'.memory.header b).kind = .fixed ∧ (s'.memory.header b).payload = p ∧ p ≠ 0 ∧
      (s.memory.header b).kind = .fixed ∧ (s.memory.header b).payload = 0)
  | _ => false

/-- A handle of fixed size loses its payload: the operation goes ahead, the default heap is given
the block, and nobody stops. -/
theorem fixed_payload_lost : ∃ s s' before b p,
    Environment.unbounded.history 0 .forgetful { host := [] } =
      .boundary s :: .discarded b p :: .takenBack (.heap HeapObject.system.addr) p ::
        .boundary s' :: before ∧
    (ledger before).Live b ∧ (s'.memory.header b).kind = .fixed ∧
    (s'.memory.header b).payload = p ∧ p ≠ 0 ∧ (s.memory.header b).kind = .fixed ∧
    (s.memory.header b).payload = 0 := by
  have hlast : forgets (Environment.unbounded.history 0 .forgetful { host := [] }) = true := by
    decide +kernel
  unfold forgets at hlast
  split at hlast
  · next s b p o q s' before hhistory =>
    obtain ⟨rfl, rfl, hrest⟩ := of_decide_eq_true hlast
    exact ⟨s, s', before, b, q, hhistory, hrest⟩
  · cases hlast

end CountedHeap
