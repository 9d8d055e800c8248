/-
Payloads and their finalizers

When the last reference to a resizable handle goes, its payload is shown to the finalizer and
freed. Which payload that is was read from the header before the finalizer is called. If the
finalizer keeps the contract, it leaves the handle alone, whose end has begun, and the payload that
it was shown is the payload still. But nothing holds it back from giving the handle another one:
the operations on payloads look at the kind of a handle and not at its count. Then what is freed is
still the payload that was shown, even if it was freed or moved meanwhile, and the one that the
handle has by now stays out when the handle is gone.

* `Parts`: how a resizable handle ends, whatever its finalizer does;
* `payload_captured`: so it ends throughout every run;
* `enlarged_payload_lost`: a finalizer that resizes the payload, and what is left of it.
-/
import CountedHeap.Proofs.Courses
import CountedHeap.Proofs.Hosts

namespace CountedHeap

namespace Environment

/-! ### Counting by any primitive -/

section Counting

variable (E : Environment) (play : (World History → Program) → Machine History Unit)
  {w : World History} {b : Handle} {p : Addr}

/-- Whatever primitive is installed, it only changes the counter. -/
lemma count_total (k : Counter) (w : World History) :
    ∃ s, count (E.hostOver play) k w = .ok () { w with stats := s } := by
  have hincrement : ∃ n, increment (E.hostOver play) (.counter k) w = addTo (.counter k) n w := by
    show ∃ n, IncDec.increment (E.hostOver play) w.bindings.incDec (.counter k) w = _
    cases w.bindings.incDec with
    | stub => exact ⟨1, rfl⟩
    | native => exact ⟨1, rfl⟩
    | functions f => exact ⟨E.change f.inc, rfl⟩
  obtain ⟨n, hn⟩ := hincrement
  refine ⟨w.stats.set (w.stats.get k + n) k, ?_⟩
  rw [count, Machine.bind_apply, hn]
  rfl

lemma free_total (hp : p ≠ 0) (w : World History) : ∃ s, Storage.free (E.hostOver play) p w =
    .ok () { E.freed (.heap w.bindings.heap.addr) p w with stats := s } := by
  obtain ⟨s, hs⟩ := E.count_total play .free (E.freed (.heap w.bindings.heap.addr) p w)
  refine ⟨s, ?_⟩
  rw [Storage.free, if_pos hp]
  simp only [Machine.bind_apply, trace_run, heap_free_run, hs]

/-- The storage of a handle goes back to the allocator that its header names by then. -/
lemma destroy_total (hb : b ≠ 0) (w : World History) : ∃ s, Handle.destroy (E.hostOver play) b w =
    .ok () { E.freed (E.sourceAt w.bindings.heap.addr (w.memory.header b).external) b w with
      stats := s } := by
  have hdealloc : ∃ s, Handle.dealloc (E.hostOver play) b w =
      .ok () { E.freed (E.sourceAt w.bindings.heap.addr (w.memory.header b).external) b w with
        stats := s } := by
    have hext : Handle.external b w = .ok (w.memory.header b).external w := rfl
    by_cases h0 : (w.memory.header b).external = 0
    · obtain ⟨s, hs⟩ := E.free_total play hb w
      refine ⟨s, ?_⟩
      have hsource : E.sourceAt w.bindings.heap.addr 0 = .heap w.bindings.heap.addr :=
        if_pos (.inl rfl)
      rw [Handle.dealloc, Machine.bind_apply, hext]
      simp only [Machine.bind_apply, trace_run, h0, ne_eq, not_true_eq_false, if_false, hs, hsource]
    · have hfree := E.free_at_run play w (w.memory.header b).external b
      rw [allocatorAt, if_neg h0] at hfree
      obtain ⟨s, hs⟩ := E.count_total play .free
        (E.freed (E.sourceAt w.bindings.heap.addr (w.memory.header b).external) b w)
      refine ⟨s, ?_⟩
      rw [Handle.dealloc, Machine.bind_apply, hext]
      simp only [Machine.bind_apply, trace_run, h0, ne_eq, not_false_eq_true, if_true, hfree, hs]
  obtain ⟨s, hs⟩ := hdealloc
  obtain ⟨s', hs'⟩ := E.count_total play .handleFree
    { E.freed (E.sourceAt w.bindings.heap.addr (w.memory.header b).external) b w with stats := s }
  refine ⟨s', ?_⟩
  rw [Handle.destroy, Machine.bind_apply, hs]
  exact hs'

end Counting

end Environment

/-! ### The end of a resizable handle -/

/-- How the resizable handle `b` ends whose header was `d`, from the state `w` in which its end has
begun, for any finalizer whatever it does. The payload in `d` is shown to the finalizer once and
freed once, whatever the header says by then; a finalizer that does not come to its end stops
everything, and a panic of its own gets no further. If the finalizer keeps the contract, the header
says the same, the payload is out still, and neither it nor the storage of the handle is left. -/
structure Parts (E : Environment) (b : Handle) (d : Header) (w : World History) : Prop where
  empty : d.payload = 0 → ∀ play, ∃ v,
    Handle.callDestructor (E.hostOver play) b w = .ok () v ∧
    v.host = .takenBack (.heap w.bindings.heap.addr) b :: w.host
  freed : d.payload ≠ 0 → d.info = 0 → ∀ play, ∃ v,
    Handle.callDestructor (E.hostOver play) b w = .ok () v ∧
    v.host = .takenBack (.heap w.bindings.heap.addr) b ::
      .takenBack (.heap w.bindings.heap.addr) d.payload :: w.host
  stopped : d.payload ≠ 0 → d.info ≠ 0 → ∀ play e u,
    (E.hostOver play).finalizer d.info d.payload w = .error e u →
    Handle.callDestructor (E.hostOver play) b w = .error e.barred u
  finalized : d.payload ≠ 0 → d.info ≠ 0 → ∀ play u,
    (E.hostOver play).finalizer d.info d.payload w = .ok () u → ∃ s v,
      Handle.callDestructor (E.hostOver play) b w = .ok () v ∧
      v.host = .takenBack s b :: .takenBack (.heap u.bindings.heap.addr) d.payload :: u.host ∧
      ∀ q ∈ (ledger u.host).blocks, q ≠ b → q ≠ d.payload → q ∈ (ledger v.host).blocks
  kept : d.payload ≠ 0 → d.info ≠ 0 → ∀ depth u,
    (E.host depth).finalizer d.info d.payload w = .ok () u →
      (u.memory.header b).payload = d.payload ∧
      (ledger u.host).Holds (.heap u.bindings.heap.addr) d.payload ∧ ∃ v,
        Handle.callDestructor (E.host depth) b w = .ok () v ∧
        v.host = .takenBack (.heap u.bindings.heap.addr) b ::
          .takenBack (.heap u.bindings.heap.addr) d.payload :: u.host ∧
        d.payload ∉ (ledger v.host).blocks ∧ b ∉ (ledger v.host).blocks

namespace Environment

variable {E : Environment} {w w' : World History} {b : Handle}
  {play : (World History → Program) → Machine History Unit}

/-- A resizable handle has its own destructor, and its storage comes from the default heap. -/
lemma Steady.resizable (hw : E.Steady w) (hb : b ∈ (ledger w.host).handles)
    (hk : (w.memory.header b).kind = .resizable) :
    (w.memory.header b).destructor = Adapter.resizable.addr ∧ (w.memory.header b).external = 0 :=
  ⟨(hw.sound.headed.header b hb).adapter.2 hk, ((hw.sound.headed.header b hb).exchange hk).2.1⟩

variable (E play) in
/-- The end of a resizable handle with a payload is the end of the payload, and then its own. -/
lemma callDestructor_resizable {d : Header} (hup : w.shuttingDown = false)
    (hd : d.destructor = Adapter.resizable.addr)
    (hheader : ∃ n, w.memory.header b = { d with refcount := n }) :
    Handle.callDestructor (E.hostOver play) b w = (do
      Machine.withoutUnwinding
        (Adapter.run (E.hostOver play) .resizable d.payload d.size d.info)
      Handle.destroy (E.hostOver play) b) w := by
  obtain ⟨n, hn⟩ := hheader
  have hcall : d.destructor ≠ 0 ∧ ¬ w.shuttingDown := by
    rw [hd]
    exact ⟨Adapter.addr_ne_zero _, by simp [hup]⟩
  rw [callDestructor_run, hn, if_pos hcall, callDestructorAt, hd, Adapter.ofAddr?_addr]

variable (E play) in
/-- No allocator panics when it takes a payload back. -/
lemma free_barred {p : Addr} (hp : p ≠ 0) :
    Machine.withoutUnwinding (Storage.free (E.hostOver play) p) =
      Storage.free (E.hostOver play) p := by
  funext u
  obtain ⟨n, hfree⟩ := E.free_total play hp u
  rw [hfree, Machine.withoutUnwinding_eq_ok.2 hfree]

variable (E play) in
/-- The payload goes, and then the storage, by whatever primitive they are counted. -/
lemma free_destroy {p : Addr} (hp : p ≠ 0) (hb : b ≠ 0) (u : World History) : ∃ s v,
    (do Storage.free (E.hostOver play) p; Handle.destroy (E.hostOver play) b) u = .ok () v ∧
      v.host = .takenBack s b :: .takenBack (.heap u.bindings.heap.addr) p :: u.host := by
  obtain ⟨n, hfree⟩ := E.free_total play hp u
  obtain ⟨n', hdestroy⟩ := E.destroy_total play hb
    { E.freed (.heap u.bindings.heap.addr) p u with stats := n }
  rw [Machine.bind_apply, hfree]
  exact ⟨_, _, hdestroy, rfl⟩

variable (play) in
/-- The storage of a resizable handle goes back to the default heap. -/
lemma Steady.destroy_resizable (hw : E.Steady w) (hb : b ∈ (ledger w.host).handles)
    (hk : (w.memory.header b).kind = .resizable) {v : World History}
    (hheader : v.memory.header b = w.memory.header b) (hbindings : v.bindings = w.bindings) :
    Handle.destroy (E.hostOver play) b v =
      .ok () (E.destroyed (.heap w.bindings.heap.addr) b v) := by
  have hsource : (ledger w.host).source b = .heap w.bindings.heap.addr := by
    rw [(hw.sound.headed.header b hb).source, (hw.resizable hb hk).2]
    exact if_pos (.inl rfl)
  rw [← hsource]
  exact hw.destroy_of hb hheader hbindings

variable (play) in
/-- In a steady state both go back to the default heap. -/
lemma Steady.free_destroy (hw : E.Steady w) (hb : b ∈ (ledger w.host).handles)
    (hk : (w.memory.header b).kind = .resizable) {p : Addr} (hp : (w.memory.header b).payload = p)
    (h0 : p ≠ 0) :
    (do Storage.free (E.hostOver play) p; Handle.destroy (E.hostOver play) b) w = .ok ()
      (E.destroyed (.heap w.bindings.heap.addr) b
        (E.handedBack (.heap w.bindings.heap.addr) p w)) := by
  have hcleared := hw.completed_cleared hb
  rw [completed, (hw.resizable hb hk).1, Adapter.ofAddr?_addr, hp] at hcleared
  simp only [if_neg h0] at hcleared
  rw [Machine.bind_apply, free_run play hw.sound.correct, if_neg h0]
  exact hw.destroy_resizable play hb hk (hcleared.headers b hb) hcleared.bindings

lemma Steady.parts (hw : E.Steady w) (hm : Marked w) (hb : (ledger w.host).Sole b)
    (hk : (w.memory.header b).kind = .resizable) (hup : w.shuttingDown = false)
    (hbegins : Begins w b w') : Parts E b (w.memory.header b) w' := by
  obtain ⟨⟨hw', -⟩, hdying, -⟩ := hbegins.steady hw hb
  obtain ⟨n, hheader⟩ := hbegins.header hw hb.1
  obtain ⟨-, hdown, -⟩ := hbegins.kept
  obtain ⟨hd, hext⟩ := hw.resizable hb.1 hk
  have hne := hw.ne_zero hb.1
  set d := w.memory.header b
  have hk' : (w'.memory.header b).kind = .resizable := by rw [hheader]; exact hk
  have hpay' : (w'.memory.header b).payload = d.payload := by rw [hheader]
  have hend := fun play => E.callDestructor_resizable play (hdown.trans hup) hd ⟨n, hheader⟩
  have hcalled : ∀ play, d.payload ≠ 0 → d.info ≠ 0 →
      Handle.callDestructor (E.hostOver play) b w' = (do
        Machine.withoutUnwinding ((E.hostOver play).finalizer d.info d.payload)
        Storage.free (E.hostOver play) d.payload
        Handle.destroy (E.hostOver play) b) w' := by
    intro play h0 hf
    rw [hend]
    simp only [Adapter.run, if_pos h0, if_pos hf, Machine.withoutUnwinding_bind,
      E.free_barred play h0, bind_assoc]
    rw [Machine.bind_apply, Machine.withoutUnwinding_eq_ok.2 (trace_run E play w' _)]
  refine ⟨fun h0 play => ?_, fun h0 hf play => ?_, fun h0 hf play e u hrun => ?_,
    fun h0 hf play u hrun => ?_, fun h0 hf depth u hrun => ?_⟩
  · refine ⟨E.destroyed (.heap w'.bindings.heap.addr) b w', ?_, rfl⟩
    rw [hend, ← hw'.destroy_resizable play hdying.1 hk' rfl rfl]
    simp only [Adapter.run, if_neg (not_not.2 h0), Machine.bind_apply,
      Machine.withoutUnwinding_apply, trace_run, Machine.pure_apply]
  · refine ⟨E.destroyed (.heap w'.bindings.heap.addr) b
      (E.handedBack (.heap w'.bindings.heap.addr) d.payload w'), ?_, rfl⟩
    rw [hend, ← hw'.free_destroy play hdying.1 hk' hpay' h0]
    simp only [Adapter.run, if_pos h0, if_neg (not_not.2 hf), Machine.withoutUnwinding_bind,
      E.free_barred play h0, Machine.bind_apply, Machine.withoutUnwinding_apply, trace_run]
  · rw [hcalled play h0 hf, Machine.bind_apply, Machine.withoutUnwinding_of_error hrun]
  · obtain ⟨s, v, hfree, hhost⟩ := E.free_destroy play h0 hne u
    refine ⟨s, v, ?_, hhost, fun q hq hqb hqp => ?_⟩
    · rw [hcalled play h0 hf, Machine.bind_apply, Machine.withoutUnwinding_eq_ok.2 hrun]
      exact hfree
    · rw [hhost]
      exact Finset.mem_erase.2 ⟨hqb, Finset.mem_erase.2 ⟨hqp, hq⟩⟩
  · obtain ⟨play, hhost, hplay⟩ := E.obeys_host depth
    rw [hhost] at hrun ⊢
    have hbegun := hbegins.begun hw hm hb hup
    have hlaw : E.Lawful (.finalizer d.info d.payload) w'.host :=
      lawful_of_begun hbegun (by rw [hheader]; exact ⟨.inr hd, rfl, rfl⟩)
    obtain ⟨hu, hspares⟩ := (finalizer_ends hplay hw' hlaw).post hrun
    obtain ⟨hdyingu, hsame⟩ := hspares b hdying
    have hpayu : (u.memory.header b).payload = d.payload := by rw [hsame, hpay']
    have hku : (u.memory.header b).kind = .resizable := by rw [hsame]; exact hk'
    have hholds := (hu.payload hdyingu.1 hku (by rw [hpayu]; exact h0)).1
    rw [hpayu] at hholds
    refine ⟨hpayu, hholds, E.destroyed (.heap u.bindings.heap.addr) b
      (E.handedBack (.heap u.bindings.heap.addr) d.payload u), ?_, rfl, fun h => ?_,
      Finset.notMem_erase b _⟩
    · rw [hcalled play h0 hf, Machine.bind_apply, Machine.withoutUnwinding_eq_ok.2 hrun]
      exact hu.free_destroy play hdyingu.1 hku hpayu h0
    · exact Finset.notMem_erase _ _ (Finset.mem_of_mem_erase h)

end Environment

/-- **The payload that a finalizer is shown is the one that is freed.** At every boundary of every
run before shutdown, the last release of a resizable handle with a payload calls its finalizer
once, if it has one, and then frees once the payload that the handle had before; the storage of the
handle goes last. So it is for every finalizer, whether it keeps the contract or not, and for
everything that it does. A handle without a payload has nothing to be finalized. -/
theorem payload_captured (E : Environment) (depth : Nat) (p : Program) (w : World History) :
    Throughout (fun e past => ∀ s, e = .boundary s → s.shuttingDown = false →
      ∀ b, (ledger past).Sole b → (s.memory.header b).kind = .resizable →
        (∀ play, Handle.release (E.hostOver play) b ((s.resume past).noted (.released b)) =
          Handle.callDestructor (E.hostOver play) b
            (((s.resume past).noted (.released b)).withCount b 0)) ∧
        ∀ w', Begins (s.resume past) b w' → Parts E b (s.memory.header b) w')
      (E.history depth p w) := by
  rintro e past hsuffix s rfl hup b hb hk
  obtain ⟨hw, hm⟩ := Environment.steady_of_boundary ((E.lawful_history depth p w).suffix hsuffix)
  exact ⟨fun play => hw.release_last hb, fun w' hbegins => hw.parts hm hb hk hup hbegins⟩

/-! ### A finalizer that resizes the payload -/

/-- Runs a program that nobody holds to the contract. -/
def Program.dare (h : Host History) : Program → Machine History Unit
  | done => return ()
  | panic message => throw (.panic message)
  | step c next => do
    let a ← (c.perform h).run
    (next a (← get)).dare h

/-- A host whose finalizers enlarge the payload of the handle that is ending. -/
def Environment.enlarging : Environment :=
  { Environment.unbounded with
    finalizer := fun _ _ w =>
      match w.host with
      | _ :: .released b :: _ => .step (.resizableRealloc b 64) fun _ _ => .done
      | _ => .done }

/-- The same host, where finalizers do as they like. -/
def Environment.enlargingHost : Host History :=
  Environment.enlarging.hostOver fun p => do
    (p (← get)).dare (Environment.enlarging.hostOver fun _ => return ())

/-- A caller who makes a resizable handle with a finalizer. -/
def Program.finalizable : Program := .step (.make (.newResizableWith 16 1)) fun _ _ => .done

/-- The storage of the handle `b` went last, before it the block `p`, and before that `p` was shown
to a finalizer, which had it moved to `q`. -/
structure Loses (b p q : Addr) (H : History) : Prop where
  course : ∃ o past, H = .takenBack (.heap o) b :: .takenBack (.heap o) p :: .refilled b q 64 ::
    .resized (.heap o) p 64 q :: .finalizer 1 p :: past
  out : q ∈ (ledger H).blocks
  moved : q ≠ p

/-- The block to which the payload of `b` was moved, where a history is of this kind. -/
def moved? (b p : Addr) : History → Option Addr
  | .takenBack (.heap o₁) b₁ :: .takenBack (.heap o₂) p₁ :: .refilled b₂ q₁ n₁ ::
      .resized (.heap o₃) p₂ n₂ q₂ :: .finalizer f p₃ :: past =>
    if b₁ = b ∧ b₂ = b ∧ p₁ = p ∧ p₂ = p ∧ p₃ = p ∧ q₁ = q₂ ∧ o₂ = o₁ ∧ o₃ = o₁ ∧ n₁ = 64 ∧
        n₂ = 64 ∧ f = 1 ∧ q₂ ≠ p ∧
        q₂ ∈ (ledger (.takenBack (.heap o₁) b :: .takenBack (.heap o₁) p :: .refilled b q₂ 64 ::
          .resized (.heap o₁) p 64 q₂ :: .finalizer 1 p :: past)).blocks then
      some q₂
    else none
  | _ => none

lemma loses_of_moved? {b p : Addr} {H : History} (h : (moved? b p H).isSome = true) :
    ∃ q, Loses b p q H := by
  unfold moved? at h
  split at h
  · next o₁ b₁ o₂ p₁ b₂ q₁ n₁ o₃ p₂ n₂ q₂ f p₃ past =>
    split at h
    · next hall =>
      obtain ⟨rfl, rfl, rfl, rfl, rfl, rfl, rfl, rfl, rfl, rfl, rfl, hne, hout⟩ := hall
      exact ⟨_, ⟨_, _, rfl⟩, hout, hne⟩
    · cases h
  · cases h

/-- The finalizer moves the payload. What is freed after it is the block that the payload was moved
from, which is not out any more, and the block that it was moved to is out when the handle is
gone. -/
theorem enlarged_payload_lost : ∃ s past b p q v,
    Environment.enlarging.history 0 .finalizable { host := [] } = .boundary s :: past ∧
    s.shuttingDown = false ∧ (ledger past).Sole b ∧ (s.memory.header b).kind = .resizable ∧
    (s.memory.header b).payload = p ∧
    Handle.release Environment.enlargingHost b ((s.resume past).noted (.released b)) = .ok () v ∧
    Loses b p q v.host := by
  have hlast : (lastBoundary (Environment.enlarging.history 0 .finalizable { host := [] })).any
      (fun r => decide (r.1.shuttingDown = false ∧ (ledger r.2).Sole 4112 ∧
        (r.1.memory.header 4112).kind = .resizable ∧
        (r.1.memory.header 4112).payload = (4096 : Addr)) &&
        match Handle.release Environment.enlargingHost 4112
          ((World.resume r.1 r.2).noted (.released 4112)) with
        | .ok () v => (moved? 4112 4096 v.host).isSome
        | .error _ _ => false) = true := by
    decide +kernel
  obtain ⟨s, past, hhistory, hholds⟩ := exists_lastBoundary hlast
  obtain ⟨hstate, hrun⟩ := Bool.and_eq_true_iff.1 hholds
  obtain ⟨hup, hsole, hk, hp⟩ := of_decide_eq_true hstate
  split at hrun
  · next v hv =>
    obtain ⟨q, hloses⟩ := loses_of_moved? hrun
    exact ⟨s, past, 4112, 4096, q, v, hhistory, hup, hsole, hk, hp, hv, hloses⟩
  · cases hrun

end CountedHeap
