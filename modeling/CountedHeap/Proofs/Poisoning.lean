/-
Poisoned payloads

The payload of a safe handle is poisoned twice, and byte for byte nothing else is: when the handle
is made, before anyone sees it, and when its last reference goes, after its caller's destructor has
seen it for the last time. In between the runtime counts, and leaves the payload to its callers.

* `Order.PoisonedAtFirst`: what is in memory when the handle is made;
* `OnlyCounts`, `Order.Undisturbed`: references that are taken and given up meanwhile;
* `Order.PoisonedAtLast`: what the end of the handle sees and leaves behind;
* `poison_life_cycle`: so it is in every run.
-/
import CountedHeap.Proofs.Alignment
import CountedHeap.Proofs.Hosts

namespace CountedHeap

open Memory (AgreeOn range mem_range)

/-- A safe handle is ordered with its payload poisoned. -/
lemma Request.Safe.order {r : Request} (h : r.Safe) :
    ∃ d, r.order? = some d ∧ d.poisoned = true := by
  cases r with
  | allocSafe | allocDestructorSafe | allocSafeAligned | allocSafeAlignedExternal =>
    exact ⟨_, rfl, rfl⟩
  | _ => exact h.elim

/-! ### At first -/

namespace Order

variable (d : Order) {p : Addr}

/-- A payload lies in its block, behind the header. -/
lemma place_inside (hfit : p.toNat + d.total ≤ UInt64.size) : ∃ k, 56 ≤ k ∧
    k + d.size.toNat ≤ d.total ∧ (d.place p).payload = p + UInt64.ofNat k := by
  cases ha : d.align? with
  | none =>
    refine ⟨56, le_rfl, ?_, ?_⟩
    · rw [total, overhead, ha]
      exact (Nat.add_comm _ _).le
    · rw [place, ha]
      rfl
  | some align =>
    obtain ⟨k, hk⟩ := placed ha hfit
    exact ⟨k, hk.least.1.1, hk.inside, by rw [hk.place]⟩

lemma mem_span (hfit : p.toNat + d.total ≤ UInt64.size) {i : Nat} (hi : i ∈ (d.header p).span) :
    i ∈ range p d.total ∧ i ∉ range p 56 := by
  obtain ⟨k, hk, hroom, hpay⟩ := d.place_inside hfit
  have hcases := Memory.toNat_contained hroom hfit hpay
  have hi' : (d.place p).payload.toNat ≤ i ∧ i < (d.place p).payload.toNat + d.size.toNat := hi
  rw [mem_range, mem_range]
  omega

/-- The handle `b` was just made, and the state is `v`. Its payload is poisoned, its header is
written, and all of memory beside them is as the allocator left it. -/
structure PoisonedAtFirst (h : Host History) (w : World History) (b : Handle) (v : World History) :
    Prop where
  inside : ∀ i ∈ (d.header b).span, i ∈ range b d.total ∧ i ∉ range b 56
  payload : ∀ i ∈ (d.header b).span, v.memory.byte i = Poison.fresh
  header : v.memory.header b = d.header b
  beside : ∃ w', (allocatorAt h d.ext).allocate (UInt64.ofNat d.total) w = .ok b w' ∧
    ∀ i < UInt64.size, i ∉ range b 56 → i ∉ (d.header b).span →
      v.memory.byte i = w'.memory.byte i

variable {d} {i : Nat}

/-- Whether a payload is filled or not, the memory beside header and payload stays. -/
lemma byte_written_beside (hfit : p.toNat + 56 ≤ UInt64.size) (m : Memory) (hi : i < UInt64.size)
    (hheader : i ∉ range p 56) (hspan : i ∉ (d.header p).span) :
    (d.written p m).byte i = m.byte i := by
  have hlen := (d.header p).length_bytes
  rw [written, Memory.byte_write_of_not_mem _ (by omega) hi
    fun hin => hheader (Memory.range_mono (by omega) hin)]
  split
  · exact (Memory.byte_fill _ _ _ _ hi).trans (if_neg hspan)
  · rfl

/-- The header that is written last is not written over the payload. -/
lemma byte_written_span (hd : d.poisoned = true) (hfit : p.toNat + d.total ≤ UInt64.size)
    (m : Memory) (hi : i ∈ (d.header p).span) : (d.written p m).byte i = Poison.fresh := by
  have hlen := (d.header p).length_bytes
  obtain ⟨hblock, hheader⟩ := d.mem_span hfit hi
  have hlt : i < UInt64.size := by
    rw [mem_range] at hblock
    omega
  have htotal : 56 ≤ d.total := by
    obtain ⟨k, hk, hroom, -⟩ := d.place_inside hfit
    omega
  rw [written, if_pos hd, Memory.byte_write_of_not_mem _ (by omega) hlt
    fun hin => hheader (Memory.range_mono (by omega) hin)]
  exact (Memory.byte_fill _ _ _ _ hlt).trans (if_pos hi)

end Order

namespace Environment

variable {E : Environment} {w w' v : World History} {r : Request} {d : Order} {b : Handle}
  {play : (World History → Program) → Machine History Unit}

/-- A safe handle is poisoned when its caller is handed it. -/
lemma made_poisoned (hc : E.Correct w.bindings.incDec) (hr : r.order? = some d)
    (hd : d.poisoned = true) (hrun : (r.make (E.hostOver play)).run w = .ok (.ok b) v) :
    d.PoisonedAtFirst (E.hostOver play) w b v ∧
      d.Stands b ((Call.make r).result (E.hostOver play) w).marked.host := by
  have hnone := Request.closure?_eq_none hr (.inr hd)
  obtain ⟨hlt, h0, w', hgiven, rfl⟩ := (make_ok_iff hc hr hnone).1 hrun
  obtain ⟨-, hfit, -⟩ := (answer_at hgiven).2 h0
  rw [UInt64.toNat_ofNat_of_lt' hlt] at hfit
  have hroom : b.toNat + 56 ≤ UInt64.size := by
    obtain ⟨k, hk, hin, -⟩ := d.place_inside hfit
    omega
  exact ⟨⟨fun _ => d.mem_span hfit, fun _ => Order.byte_written_span hd hfit _,
    d.header_written hroom _, w', hgiven, fun _ => Order.byte_written_beside hroom _⟩,
    made_stands hr hroom hrun⟩

end Environment

/-! ### Meanwhile -/

/-- References are taken, and references are given up that are not the last, on whatever handles. -/
inductive OnlyCounts (E : Environment) (h : Host History) (w : World History) :
    World History → Prop where
  | refl : OnlyCounts E h w w
  | step {v v' : World History} {c : Call} {b : Handle} {a : Addr} (hv : OnlyCounts E h w v)
      (hc : c.Permitted E v) (hcounts : c.Counts v b)
      (hrun : (c.perform h).run v = .ok (.ok a) v') : OnlyCounts E h w v'.marked

lemma Call.Counts.subject {w : World History} {c : Call} {b : Handle} (h : c.Counts w b) :
    c.subject = some b := by
  cases c with
  | acquire | clone =>
    obtain rfl := h
    rfl
  | release | drop =>
    obtain ⟨rfl, -⟩ := h
    rfl
  | _ => exact h.elim

/-- The handle `b` stands in the state `w'` as it did in the state `w`, and in its block nothing was
written but the count. -/
structure Order.Undisturbed (d : Order) (b : Handle) (w w' : World History) : Prop where
  stands : d.Stands b w'.host
  room : (ledger w'.host).room b = (ledger w.host).room b
  block : ∀ i ∈ range b ((ledger w.host).room b), i ∉ Field.refcount.bytes b →
    w'.memory.byte i = w.memory.byte i

namespace Environment

variable {E : Environment} {w v v' : World History} {d : Order} {b b' : Handle} {c : Call}
  {a : Addr} {play : (World History → Program) → Machine History Unit}

lemma silently_inv {x : Machine History Unit} (h : (Call.silently x).run w = .ok (.ok a) v) :
    x w = .ok () v := by
  rw [Call.silently, Attempt.lift_bind_apply] at h
  cases hx : x w with
  | ok u w' =>
    rw [hx] at h
    obtain ⟨-, rfl⟩ := EStateM.Result.ok.inj h
    rfl
  | error f w' =>
    rw [hx] at h
    cases h

lemma acquire_noted (hc : E.Correct v.bindings.incDec)
    (hrun : (do Handle.acquire (E.hostOver play) b; record (.acquired b)) v = .ok () v') :
    ∃ n, v' = (v.withCount b n).noted (.acquired b) := by
  rw [Machine.bind_apply, acquire_run play hc] at hrun
  split at hrun
  · next hacquire =>
    split at hacquire
    · cases hacquire
    · obtain ⟨-, rfl⟩ := EStateM.Result.ok.inj hacquire
      exact ⟨_, (EStateM.Result.ok.inj hrun).2.symm⟩
  · cases hrun

lemma release_noted (hw : E.Steady v) (hb : (ledger v.host).Live b)
    (h2 : 2 ≤ (ledger v.host).refs b)
    (hrun : (do record (.released b); Handle.release (E.hostOver play) b) v = .ok () v') :
    ∃ n, v' = (v.withCount b n).noted (.released b) := by
  rw [record_bind_run, hw.release_shared play hb (by omega)] at hrun
  split at hrun
  · cases hrun
  · exact ⟨_, (EStateM.Result.ok.inj hrun).2.symm⟩

/-- A reference that is taken, or given up but for the last, is one count and one line in the
history. -/
lemma Steady.counts_noted (hw : E.Steady v) (hc : c.Permitted E v) (hcounts : c.Counts v b)
    (hrun : (c.perform (E.hostOver play)).run v = .ok (.ok a) v') :
    ∃ n e, (e = .acquired b ∨ e = .released b) ∧ v' = (v.withCount b n).noted e := by
  obtain ⟨hdoes | ⟨h2, hdoes⟩, hb⟩ := counts_cases (E.hostOver play) hc hcounts
  · rw [hdoes] at hrun
    obtain ⟨n, hn⟩ := acquire_noted hw.sound.correct (silently_inv hrun)
    exact ⟨n, _, .inl rfl, hn⟩
  · rw [hdoes] at hrun
    obtain ⟨n, hn⟩ := release_noted hw hb h2 (silently_inv hrun)
    exact ⟨n, _, .inr rfl, hn⟩

/-- The count of a handle lies in no block but its own. -/
lemma Steady.undisturbed_step (hw : E.Steady v) (hb : d.Stands b v.host) (hc : c.Permitted E v)
    (hcounts : c.Counts v b') (hrun : (c.perform (E.hostOver play)).run v = .ok (.ok a) v') :
    d.Undisturbed b v v'.marked := by
  have hb' := mem_handles_of_subject hc hcounts.subject
  obtain ⟨n, e, he, rfl⟩ := hw.counts_noted hc hcounts hrun
  have hseen : ¬ e.Disposes b := by rcases he with rfl | rfl <;> exact not_false
  have hlines : d.Stands b (e :: v.host) := by
    refine ⟨?_, .inr ⟨hseen, hb.2⟩⟩
    rcases he with rfl | rfl <;> exact hb.1
  refine ⟨⟨hlines.1, .inr ⟨not_false, hlines.2⟩⟩, ?_, fun i hi hcount => ?_⟩
  · rcases he with rfl | rfl <;> rfl
  · have hout := hw.mem_blocks hb.2.mem_handles
    have hfit := (hw.sound.laid.fits b hout).2.2
    obtain ⟨hroom', hfit'⟩ := hw.room_le hb'
    have hlt : i < UInt64.size := by
      rw [mem_range] at hi
      omega
    refine Memory.byte_setField_of_not_mem v.memory .refcount n hfit' hlt fun hin => ?_
    by_cases hbb : b' = b
    · exact hcount (hbb ▸ hin)
    · have hapart := hw.sound.laid.apart b' (hw.mem_blocks hb') b hout hbb
      exact hapart.not_mem (Memory.range_mono hroom' (Memory.range_field_subset _ hfit' hin)) hi

/-- However many references are taken and given up, the block of a handle is left to its callers. -/
lemma Steady.undisturbed (hplay : Obeys E play) (hw : E.Steady w) (hm : Marked w)
    (hb : d.Stands b w.host) (honly : OnlyCounts E (E.hostOver play) w v) :
    E.Steady v ∧ Marked v ∧ d.Undisturbed b w v := by
  induction honly with
  | refl => exact ⟨hw, hm, hb, rfl, fun _ _ _ => rfl⟩
  | @step v v' c b' a hv hc hcounts hrun ih =>
    obtain ⟨hsteady, hmarked, hsame⟩ := ih
    have hnext := hsteady.undisturbed_step hsame.stands hc hcounts hrun
    have hreach := (perform_ends hplay hsteady hmarked hc).post hrun
    refine ⟨hreach.1, ⟨v'.host, rfl⟩, hnext.stands, hnext.room.trans hsame.room,
      fun i hi hnot => ?_⟩
    rw [← hsame.block i hi hnot]
    exact hnext.block i (hsame.room ▸ hi) hnot

end Environment

/-! ### At last -/

/-- The state in which the last reference to `b` was given up, and nothing has come of it yet. -/
def World.bereaved (w : World History) (b : Handle) : World History :=
  (w.noted (.released b)).withCount b 0

/-- The last reference to the handle `b` is given up in the state `w`. -/
structure Order.PoisonedAtLast (d : Order) (h : Host History) (caller : Addr) (w : World History)
    (b : Handle) : Prop where
  /-- The payload is where it was when the handle was made, unless it is empty and was freed like a
  block. -/
  place : (w.memory.header b).payload = (d.place b).payload ∨
    d.size = 0 ∧ (w.memory.header b).payload = 0
  /-- Until somebody is called, only the count is written. -/
  counted : ∀ i < UInt64.size, i ∉ Field.refcount.bytes b →
    (w.bereaved b).memory.byte i = w.memory.byte i
  /-- The payload is handed over once, and whatever becomes of it, it is poisoned in the end, and
  then the block goes. -/
  poisoned : w.shuttingDown = false → ∀ v,
    d.handOver h caller (w.memory.header b).payload (w.bereaved b) = .ok () v →
    ∃ m, Handle.release h b (w.noted (.released b)) = d.giveBack h b { v with memory := m } ∧
      (∀ i ∈ (w.memory.header b).span, m.byte i = Poison.freed) ∧
      ∀ i < UInt64.size, i ∉ (w.memory.header b).span → m.byte i = v.memory.byte i
  /-- A fault of the destructor is passed on. -/
  fault : w.shuttingDown = false → ∀ f v,
    d.handOver h caller (w.memory.header b).payload (w.bereaved b) = .error f v →
    Handle.release h b (w.noted (.released b)) = .error f v
  /-- After shutdown, nobody is called, and the payload stays as it is. -/
  spared : w.shuttingDown = true →
    Handle.release h b (w.noted (.released b)) = d.giveBack h b (w.bereaved b)

namespace Environment

variable {E : Environment} {w : World History} {r : Request} {d : Order} {b : Handle}
  {play : (World History → Program) → Machine History Unit}

/-- No byte of a payload is one of a header. -/
lemma Steady.span_of_stands (hw : E.Steady w) (hb : d.Stands b w.host) {i : Nat}
    (hi : i ∈ (w.memory.header b).span) :
    i ∈ range b ((ledger w.host).room b) ∧ i ∉ range b 56 := by
  rw [Header.span, mem_range] at hi
  have hsize : (w.memory.header b).size ≠ 0 := fun h0 => by
    rw [h0, UInt64.toNat_zero] at hi
    omega
  obtain ⟨k, hk, hroom, hplace⟩ := hw.payload_of_stands hb hsize
  rw [mem_range, mem_range]
  omega

/-- Whatever a payload was handed over for, it is poisoned before its block goes. -/
lemma settle_of_handOver {caller data : Addr} {v : World History} (hd : d.poisoned = true)
    (hv : d.handOver (E.hostOver play) caller data w = .ok () v) :
    d.settle (E.hostOver play) caller b data false w = d.giveBack (E.hostOver play) b
      { v with memory := v.memory.fill data d.size.toNat Poison.freed } := by
  rw [Order.settle, Order.dismiss, hd]
  simp only [Bool.false_eq_true, not_false_eq_true, if_true, Machine.bind_apply, hv]
  rfl

/-- A fault goes past everything that would have come after it. -/
lemma settle_of_fault {caller data : Addr} {v : World History} {f : Fault}
    (hv : d.handOver (E.hostOver play) caller data w = .error f v) :
    d.settle (E.hostOver play) caller b data false w = .error f v := by
  rw [Order.settle, Order.dismiss]
  simp only [Bool.false_eq_true, not_false_eq_true, if_true, Machine.bind_apply, hv]

lemma Steady.poisoned_at_last (hplay : Obeys E play) (hw : E.Steady w) (hm : Marked w)
    (hsole : (ledger w.host).Sole b) (hr : r.order? = some d) (hd : d.poisoned = true)
    (hb : d.Stands b w.host) : d.PoisonedAtLast (E.hostOver play) r.caller w b := by
  have hrelease := (hw.settles hplay hm hsole hr (Request.closure?_eq_none hr (.inr hd)) hb).release
  obtain ⟨he, hplace⟩ := hw.header_of_stands hb
  have hsize : (w.memory.header b).size = d.size := he.size nofun
  obtain ⟨hroom, hfit⟩ := hw.room_le hsole.1
  have hlt : ∀ i ∈ (w.memory.header b).span, i < UInt64.size := fun i hi => by
    have hblock := (hw.span_of_stands hb hi).1
    have hend := (hw.sound.laid.fits b (hw.mem_blocks hsole.1)).2.2
    rw [mem_range] at hblock
    omega
  refine ⟨hplace, fun i hi hnot => ?_, fun hup v hv => ⟨v.memory.fill
    (w.memory.header b).payload (w.memory.header b).size.toNat Poison.freed, ?_, fun i hi => ?_,
    fun i hi hnot => ?_⟩, fun hup f v hv => ?_, fun hdown => ?_⟩
  · exact Memory.byte_setField_of_not_mem w.memory .refcount 0 hfit hi hnot
  · rw [hrelease, hup, hsize]
    exact settle_of_handOver hd hv
  · exact (Memory.byte_fill _ _ _ _ (hlt i hi)).trans (if_pos hi)
  · exact (Memory.byte_fill _ _ _ _ hi).trans (if_neg hnot)
  · rw [hrelease, hup]
    exact settle_of_fault hv
  · rw [hrelease, hdown]
    rfl

end Environment

/-- **Poison.** In every run, a safe handle begins with its payload poisoned, to the byte; as long
as references are taken and given up, the runtime leaves its block alone but for the count; and when
the last one is given up, the payload is handed to its caller's destructor as it was written last,
once, and is poisoned again before the block goes. If the runtime is shutting down, the payload
stays as it is. -/
theorem poison_life_cycle (E : Environment) (depth : Nat) (q : Program) (w : World History) :
    Throughout (fun e past => ∀ s, e = .boundary s → ∀ r : Request, r.Safe →
      ∃ d, r.order? = some d ∧ ∀ depth',
        (∀ b v, (r.make (E.host depth')).run (s.resume past) = .ok (.ok b) v →
          d.PoisonedAtFirst (E.host depth') (s.resume past) b v ∧
          d.Stands b ((Call.make r).result (E.host depth') (s.resume past)).marked.host) ∧
        ∀ b, d.Stands b past →
          (∀ v, OnlyCounts E (E.host depth') (s.resume past) v →
            d.Undisturbed b (s.resume past) v ∧ ∀ i ∈ (s.memory.header b).span,
              v.memory.byte i = s.memory.byte i) ∧
          ((ledger past).Sole b → d.PoisonedAtLast (E.host depth') r.caller (s.resume past) b))
      (E.history depth q w) := by
  rintro e past hsuffix s rfl r hsafe
  obtain ⟨d, hr, hd⟩ := hsafe.order
  obtain ⟨hw, hm⟩ := Environment.steady_of_boundary ((E.lawful_history depth q w).suffix hsuffix)
  refine ⟨d, hr, fun depth' => ?_⟩
  obtain ⟨play, hhost, hplay⟩ := E.obeys_host depth'
  rw [hhost]
  refine ⟨fun b v => Environment.made_poisoned hw.sound.correct hr hd, fun b hb => ⟨fun v hv => ?_,
    fun hsole => hw.poisoned_at_last hplay hm hsole hr hd (hb.resume s)⟩⟩
  obtain ⟨-, -, hsame⟩ := hw.undisturbed hplay hm (hb.resume s) hv
  refine ⟨hsame, fun i hi => ?_⟩
  obtain ⟨hblock, hheader⟩ := hw.span_of_stands (hb.resume s) hi
  exact hsame.block i hblock fun hin =>
    hheader (Memory.range_field_subset .refcount (hw.room_le hb.2.mem_handles).2 hin)

/-- Four bytes of payload, and one on either side, in a run that makes a safe handle and gives it
up: before, in between and after, the last of them first. -/
example :
    (Environment.unbounded.history 0 (.step (.make (.allocSafe 4)) fun b _ =>
      .step (.release (b.toOption.getD 0)) fun _ _ => .done) { host := [] }).filterMap (fun
        | .boundary s => some (s.memory.bytes (4096 + 55) 6)
        | _ => none) =
      [[0, 0xDE, 0xDE, 0xDE, 0xDE, 0], [0, 0xCB, 0xCB, 0xCB, 0xCB, 0], [0, 0, 0, 0, 0, 0]] := by
  decide +kernel

end CountedHeap
