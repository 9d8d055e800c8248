/-
Requests for no bytes

The standard leaves it to the C library what `malloc` and `realloc` do when they are asked for no
bytes: they may answer null, or a block that nobody may touch, and `realloc` may free the old one or
not. So no triple of functions is ever asked for no bytes; where none are wanted, one is asked for.
Nobody can tell two triples from each other then that differ only in this.

* `Likeness.sparing`: two runs that are the same in everything, and in which no triple was asked for
  no bytes;
* `ShrinksToNothing`: what it comes to when a payload is resized to nothing;
* `zero_unobserved`: hosts that differ in nothing but what they do about no bytes.
-/
import CountedHeap.Proofs.Custody
import CountedHeap.Proofs.Observation

namespace CountedHeap

variable {σ α : Type}

/-! ### Hosts that are never asked -/

namespace Likeness

/-- Two runs that do not differ at all, and in which no triple was asked for no bytes. -/
def sparing (σ : Type) : Likeness (Watched σ) (Watched σ) where
  incDec p q := p = q
  cas p q := p = q
  host l s l' t := l = l' ∧ s = t ∧ ∀ r ∈ s.log, ¬ r.Empty
  panics := True

/-- Routines only see what is the same. -/
lemma sparing_hidden (σ : Type) : (sparing σ).Hidden where
  incDec _ _ := Iff.rfl
  cas _ _ := Iff.rfl
  panics := trivial
  rest hs := congrArg Watched.rest hs.2.1
  exchange hs x := by
    obtain ⟨rfl, rfl, hnone⟩ := hs
    exact ⟨rfl, rfl, hnone⟩
  write hs r _ hr := by
    obtain ⟨rfl, rfl, hnone⟩ := hs
    exact ⟨rfl, rfl, List.forall_mem_cons.2 ⟨hr, hnone⟩⟩
  trace {l s _ _} hs x := by
    obtain ⟨rfl, rfl, hnone⟩ := hs
    refine ⟨rfl, rfl, ?_⟩
    split
    · exact List.forall_mem_cons.2 ⟨not_false, hnone⟩
    · exact hnone

/-- Two such runs are reported alike. -/
lemma Results.sparing_report {r s : EStateM.Result Fault (World (Watched σ)) α}
    (h : (sparing σ).Results r s) :
    Report.of r = Report.of s ∧ ∀ e ∈ (Report.of r).log, ¬ e.Empty := by
  cases h with
  | ok a hw =>
    obtain ⟨-, hhost, hnone⟩ := hw.host
    refine ⟨?_, hnone⟩
    simp only [Report.of, (sparing_hidden σ).view_eq hw, hhost]
  | error e _ hw =>
    obtain ⟨-, hhost, hnone⟩ := hw.host
    refine ⟨?_, hnone⟩
    simp only [Report.of, (sparing_hidden σ).view_eq hw, hhost]

end Likeness

/-! ### Payloads of no bytes -/

/-- The payload of the handle `b` may be resized to nothing as well as to one byte. Either way the
heap is asked for one byte. If it has none, both fail. If it has one, both succeed, and the handle
has the block that the heap gave out, and reports the size that was wanted. -/
def ShrinksToNothing (E : Environment) (depth : Nat) (b : Handle) (w : World History) : Prop :=
  ∃ q, ∀ n, n = 0 ∨ n = 1 → ∃ v e,
    ((e = .given (.heap w.bindings.heap.addr) 1 q) ∨
      ∃ p, e = .resized (.heap w.bindings.heap.addr) p 1 q) ∧
    (ledger v.host).Live b ∧
    (q = 0 → ((Call.resizableRealloc b n).perform (E.host depth)).run w =
        .ok (.error (.outOfMemory n)) v ∧
      v.host = e :: w.host ∧ v.memory.header b = w.memory.header b) ∧
    (q ≠ 0 → ((Call.resizableRealloc b n).perform (E.host depth)).run w = .ok (.ok q) v ∧
      v.host = .refilled b q n :: e :: w.host ∧
      v.memory.header b = { w.memory.header b with payload := q, size := n } ∧
      (ledger v.host).Holds (.heap v.bindings.heap.addr) q)

/-- Every triple of functions is asked for one byte at least, and so is the C library. -/
lemma HeapObject.asked_of_le_one {o : HeapObject} (ho : o.kind ≠ .custom) {n : Word}
    (hn : n = 0 ∨ n = 1) : o.asked n = 1 := by
  have hmax : o.asked n = max n 1 := by
    unfold HeapObject.asked
    split
    · next h => exact absurd h ho
    · rfl
  rcases hn with rfl | rfl <;> exact hmax

namespace Environment

variable {E : Environment} {w : World History} {b : Handle}

section Shrinking

variable {B : Buffer} {q : Addr} {n : Word} {v : World History} {t : Turn}
  (hw : E.Steady w) (hb : (ledger w.host).Live b) (hB : (ledger w.host).buffer b = B)
include hw hb hB

/-- A heap that makes a byte of nothing is asked for one byte, and the handle stays. -/
lemma Steady.asked_for_one (hk : (w.memory.header b).kind = .resizable)
    (ho : w.bindings.heap.kind ≠ .custom) (hn : n = 0 ∨ n = 1) (q : Addr) :
    ∃ e k, B.turn w.bindings.heap b q (.realloc n) = Buffer.asking b n q e k ∧
      (e = .given (.heap w.bindings.heap.addr) 1 q ∨
        ∃ p, e = .resized (.heap w.bindings.heap.addr) p 1 q) ∧ ¬ e.Disposes b := by
  have hone := HeapObject.asked_of_le_one ho hn
  by_cases h0 : B.data = 0
  · refine ⟨_, [.alloc], ?_, .inl rfl, not_false⟩
    rw [Buffer.turn, if_pos h0, hone]
  · have hdata : (w.memory.header b).payload = B.data := by
      rw [← hB]
      exact (hw.sound.reported b hb).1
    refine ⟨_, [], ?_, .inr ⟨B.data, rfl⟩, fun h => ?_⟩
    · rw [Buffer.turn, if_neg h0, hone]
    · obtain ⟨hbe, -⟩ : B.data = b ∧ q ≠ 0 := h
      have hnot := (hw.payload hb.1 hk (by rw [hdata]; exact h0)).2.1
      rw [hdata, hbe] at hnot
      exact hnot hb.1

/-- What a handle reports whose payload was resized, or was not. -/
lemma Steady.becomes_resized (hbecomes : Becomes b (B.after q (.realloc n)) t w v) :
    (ledger v.host).refs b = (ledger w.host).refs b ∧
      v.memory.header b =
        if q = 0 then w.memory.header b
        else { w.memory.header b with payload := q, size := n } := by
  have hself := hw.header_buffer hb
  have hrefs : (ledger v.host).refs b = (B.after q (.realloc n)).refs :=
    congrArg Buffer.refs hbecomes.buffer
  rw [hB] at hself
  rw [hbecomes.header, hrefs, show (ledger w.host).refs b = B.refs from congrArg Buffer.refs hB]
  by_cases h0 : q = 0
  · rw [Buffer.after, if_pos h0, if_pos h0]
    exact ⟨rfl, hself.symm⟩
  · rw [Buffer.after, if_neg h0, if_neg h0]
    refine ⟨rfl, ?_⟩
    rw [hself]

end Shrinking

lemma Steady.shrinksToNothing (hw : E.Steady w) (hm : Marked w) (hb : (ledger w.host).Live b)
    (hk : (w.memory.header b).kind = .resizable) (ho : w.bindings.heap.kind ≠ .custom)
    (depth : Nat) : ShrinksToNothing E depth b w := by
  obtain ⟨play, hhost, hplay⟩ := E.obeys_host depth
  obtain ⟨answer, hanswer⟩ := realloc_turns play hw hb hk
  rw [ShrinksToNothing, hhost]
  refine ⟨answer 1, fun n hn => ?_⟩
  obtain ⟨v, hrun, hbecomes⟩ := hanswer n
  rw [HeapObject.asked_of_le_one ho hn] at hrun hbecomes
  generalize answer 1 = q at hrun hbecomes ⊢
  obtain ⟨B, hB⟩ : ∃ B, (ledger w.host).buffer b = B := ⟨_, rfl⟩
  rw [hB] at hrun hbecomes
  obtain ⟨hrefs, hheader⟩ := hw.becomes_resized hb hB hbecomes
  obtain ⟨e, k, hturn, he, hkeeps⟩ := hw.asked_for_one hb hB hk ho hn q
  rw [hturn] at hrun hbecomes
  obtain ⟨hv, -⟩ := (perform_ends hplay hw hm (c := .resizableRealloc b n) hb).post hrun
  have hmem : b ∈ (ledger v.host).handles := by
    rw [hbecomes.events, Buffer.asking]
    split
    · exact mem_handles_cons hkeeps hb.1
    · exact mem_handles_cons not_false (mem_handles_cons hkeeps hb.1)
  refine ⟨v, e, he, ⟨hmem, hrefs ▸ hb.2⟩, fun h0 => ?_, fun h0 => ?_⟩
  · rw [if_pos h0] at hheader
    have hend : Buffer.asking b n q e k = ⟨.error (.outOfMemory n), [e], []⟩ := if_pos h0
    rw [hend] at hrun hbecomes
    exact ⟨hrun, hbecomes.events, hheader⟩
  · rw [if_neg h0] at hheader
    have hend : Buffer.asking b n q e k = ⟨.ok q, [.refilled b q n, e], k⟩ := if_neg h0
    rw [hend] at hrun hbecomes
    have hk' : (v.memory.header b).kind = .resizable := by rw [hheader]; exact hk
    have hpay : (v.memory.header b).payload = q := by rw [hheader]
    have hholds : (ledger v.host).Holds (.heap v.bindings.heap.addr) (v.memory.header b).payload :=
      (hv.payload hmem hk' (by rw [← hpay] at h0; exact h0)).1
    rw [hpay] at hholds
    exact ⟨hrun, hbecomes.events, hheader, hholds⟩

end Environment

/-- **Nobody can tell what a host does about no bytes.** Two hosts answer every call by the same
routine, but when a triple of functions is asked for no bytes, they may do different things. A
program that runs around the one runs around the other in the same way: it ends in the same way and
leaves the same state behind, and the same steps were taken with the same outcomes, and the same
calls of the host were made and answered, each in the same state of the runtime. No triple was asked
for no bytes.

And where the heap is such a triple, or the C library, at every boundary of every run that keeps
the contract, a payload may be resized to nothing whenever it may be resized to one byte, and is
not null then; and payloads, those of no bytes like the others, are in custody until they are given
back, once. -/
theorem zero_unobserved {C D : Company σ} (hCD : C.SameAboveZero D) (depth : Nat) (p : Routine σ α)
    (listened : Bool) (w : World σ) :
    C.report depth p listened w = D.report depth p listened w ∧
      (∀ r ∈ (C.report depth p listened w).log, ¬ r.Empty) ∧
      ∀ (E : Environment) (depth : Nat) (p : Program) (w : World History),
        Throughout (fun e past => ∀ s, e = .boundary s → ∀ b, (ledger past).Live b →
          (s.memory.header b).kind = .resizable →
            (s.bindings.heap.kind ≠ .custom → ∀ depth',
              ShrinksToNothing E depth' b (s.resume past)) ∧
            ((s.memory.header b).payload ≠ 0 →
              InCustody E b (s.memory.header b).payload (s.resume past) (E.history depth p w)))
          (E.history depth p w) := by
  have hstart : (Likeness.sparing σ).Worlds { w with tracing := listened, host := ⟨[], w.host⟩ }
      { w with tracing := listened, host := ⟨[], w.host⟩ } :=
    ⟨rfl, rfl, rfl, rfl, rfl, rfl, rfl, rfl, rfl, rfl, fun _ h => absurd h List.not_mem_nil⟩
  have hhidden := Likeness.sparing_hidden σ
  have hreport := (hhidden.routine (hhidden.host hCD depth) p _ _ hstart).sparing_report
  refine ⟨hreport.1, hreport.2, ?_⟩
  rintro E depth p w e past hsuffix s rfl b hb hk
  obtain ⟨hw, hm⟩ := Environment.steady_of_boundary ((E.lawful_history depth p w).suffix hsuffix)
  exact ⟨fun ho depth' => hw.shrinksToNothing hm hb hk ho depth',
    payloads_in_custody E depth p w _ past hsuffix s rfl b hb hk⟩

/-- A host that gives out one block of 64 bytes after another, and does as it is told here when it
is asked for none. -/
def Company.sixtyFour (noBytes : Routine Word Addr) : Company Word where
  external _ := .sample
  answer
    | .allocate (.functions _) n =>
      if n = 0 then noBytes
      else .look fun w => .change (fun v => { v with host := v.host + 64 }) (.done w.host)
    | .reallocate (.functions _) a n => if n = 0 then noBytes else .done a
    | .allocate .. | .reallocate .. => .done 0
    | .step .. => .done 0
    | .compareSwap .. => .done (none, 0)
    | .free .. | .destructor .. | .finalizer .. | .closure .. | .dropClosure _ => .done ()

lemma Company.sixtyFour_sameAboveZero (x y : Routine Word Addr) :
    (sixtyFour x).SameAboveZero (sixtyFour y) := by
  refine ⟨rfl, fun i hi => ?_⟩
  cases i with
  | allocate p n =>
    cases p with
    | functions f => exact (if_neg hi).trans (if_neg hi).symm
    | _ => rfl
  | reallocate p a n =>
    cases p with
    | functions f => exact (if_neg hi).trans (if_neg hi).symm
    | _ => rfl
  | _ => rfl

/-- Makes a payload of no bytes, resizes it to some and to none again, and releases the handle. -/
def Routine.resizing : Routine Word Outcome :=
  .act (.make (.newResizable 0)) fun
    | .storage (.ok b) =>
      .act (.resizableRealloc b 8) fun _ => .act (.resizableRealloc b 0) fun r =>
        .act (.call .direct (.release b)) fun _ => .done r
    | r => .done r

/-- One host answers null when it is asked for no bytes, and the other panics. -/
theorem zero_unobserved_resizing :
    (Company.sixtyFour (.done 0)).SameAboveZero (Company.sixtyFour (.panic none)) ∧
    (Company.sixtyFour (.done 0)).report 1 .resizing true { host := 4096 } =
      (Company.sixtyFour (.panic none)).report 1 .resizing true { host := 4096 } ∧
    ∀ r ∈ ((Company.sixtyFour (.done 0)).report 1 .resizing true { host := 4096 }).log,
      ¬ r.Empty := by
  have hsame := Company.sixtyFour_sameAboveZero (.done 0) (.panic none)
  obtain ⟨hreport, hnone, -⟩ := zero_unobserved hsame 1 .resizing true { host := 4096 }
  exact ⟨hsame, hreport, hnone⟩

end CountedHeap
