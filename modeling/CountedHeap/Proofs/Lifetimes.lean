/-
From the order to the end

A handle that shares its block with its payload owes everything to its order: where the payload is,
what the header says, who gets the payload in the end, and which allocator gets the block. Making
such a handle is one request to the allocator and one change of memory; and as the header keeps what
its end depends on, the end can be told from the order as well, whenever it comes.

* `Order.header`, `Order.made`: the handle in its block;
* `Environment.make_ok_iff`: a request that is met;
* `Order.Stands`: a handle that was ordered, and is there still;
* `Order.dismiss`, `Order.settle`: what is left to do in the end;
* `Order.Settles`, `Environment.Steady.settles`: every way to end a handle comes to that.
-/
import CountedHeap.Proofs.Frame
import CountedHeap.Proofs.Orders
import CountedHeap.Proofs.References

namespace CountedHeap

variable {σ : Type}

/-! ### Making -/

namespace Order

variable (d : Order) (p : Addr)

/-- The header of a handle that was ordered, in the block at `p`. -/
def header : Header :=
  ⟨1, d.destructor, d.info, (d.place p).payload, d.size, d.ext, .fixed⟩

/-- Memory in which the handle was made in the block at `p`. -/
def written (m : Memory) : Memory :=
  (if d.poisoned then m.fill (d.place p).payload d.size.toNat Poison.fresh else m).write p
    (d.header p).bytes

/-- The state in which the handle was made in the block at `p`, and counted. -/
def made (w : World σ) : World σ :=
  { w with memory := d.written p w.memory, stats := (w.stats.bump .alloc).bump .handleAlloc }

lemma place_header : (d.place p).header = p := by
  unfold place
  split <;> rfl

variable {p}

lemma header_written (hp : p.toNat + 56 ≤ UInt64.size) (m : Memory) :
    (d.written p m).header p = d.header p := Memory.header_write _ _ hp

/-- The handle `b` is one that was ordered: its payload lies in its own block, its header was seen
as it was ordered, and it has not been disposed of since. -/
def Stands (b : Handle) (past : History) : Prop :=
  (ledger past).own b = true ∧ Seen b (d.header b) past

lemma Stands.resume {d : Order} {b : Handle} {past : History} (h : d.Stands b past)
    (s : Snapshot) : d.Stands b (s.resume past).host := ⟨h.1, .inr ⟨not_false, h.2⟩⟩

end Order

/-- Requests with an alignment or with poison have no closure. -/
lemma Request.closure?_eq_none {r : Request} {d : Order} (hr : r.order? = some d)
    (hd : d.align?.isSome ∨ d.poisoned = true) : r.closure? = none := by
  cases r with
  | allocClosure size c =>
    obtain rfl := Option.some.inj hr
    rcases hd with hd | hd <;> cases hd
  | _ => rfl

namespace Environment

variable {E : Environment} {w w' v : World History} {r : Request} {d : Order} {b p : Addr}
  {play : (World History → Program) → Machine History Unit}

lemma lay_run (hc : E.Correct w.bindings.incDec) (p : Addr) :
    d.lay (E.hostOver play) p w = .ok p (d.made p w) := by
  have hinit : ∀ m, Handle.init (E.hostOver play) p (d.place p).payload d.size d.destructor d.info
      d.ext { w with memory := m, stats := w.stats.bump .alloc } =
      .ok () { w with
        memory := m.write p (d.header p).bytes
        stats := (w.stats.bump .alloc).bump .handleAlloc } := fun m =>
    initWith_run play (w := { w with memory := m, stats := w.stats.bump .alloc }) hc _ _ _ _ _ _ _
  rw [Order.made, Order.written]
  simp only [Order.lay, Handle.ofCombined, Order.place_header, Machine.bind_apply,
    count_run play hc, trace_run]
  by_cases hd : d.poisoned
  · simp only [if_pos hd, Machine.bind_apply, Machine.fill, Machine.modify_apply, trace_run, hinit,
      Machine.pure_apply]
  · simp only [if_neg hd, Machine.bind_apply, trace_run, hinit, Machine.pure_apply]

/-- Whatever an allocator answers, it leaves the primitives as they are, and what it gives out was
nobody's. -/
lemma answer_at {ext n : Word}
    (h : (allocatorAt (E.hostOver play) ext).allocate n w = .ok p w') :
    w'.bindings = w.bindings ∧ (p ≠ 0 → (ledger w.host).Fresh p n.toNat) := by
  rcases E.allocate_at_cases play w ext n with hnull | ⟨n', hn, hrun⟩
  · obtain ⟨rfl, rfl⟩ := EStateM.Result.ok.inj (hnull.symm.trans h)
    exact ⟨rfl, fun h0 => absurd rfl h0⟩
  · obtain ⟨rfl, rfl⟩ := EStateM.Result.ok.inj (hrun.symm.trans h)
    refine ⟨rfl, fun h0 => ?_⟩
    obtain ⟨-, hfit, hapart⟩ := E.allocate_fresh _ n' w h0
    exact ⟨h0, by omega, fun q hq => (hapart q hq).mono_left (by omega)⟩

/-- A request is met if and only if its allocator has a block for it. -/
lemma make_ok_iff (hc : E.Correct w.bindings.incDec) (hr : r.order? = some d)
    (hnone : r.closure? = none) :
    (r.make (E.hostOver play)).run w = .ok (.ok b) v ↔ d.total < UInt64.size ∧ b ≠ 0 ∧ ∃ w',
      (allocatorAt (E.hostOver play) d.ext).allocate (UInt64.ofNat d.total) w = .ok b w' ∧
        v = d.made b w' := by
  rw [Request.make_eq _ hr hnone]
  by_cases hd : d.total < UInt64.size
  · rw [d.make_of_fits _ hd, Attempt.lift_bind_apply]
    cases hrun : (allocatorAt (E.hostOver play) d.ext).allocate (UInt64.ofNat d.total) w with
    | error f w' => exact ⟨nofun, fun h => absurd h.2.2.choose_spec.1 nofun⟩
    | ok p w' =>
      by_cases h0 : p = 0
      · simp only [if_pos h0]
        refine ⟨nofun, fun h => ?_⟩
        obtain ⟨-, hb, w'', hrun', -⟩ := h
        exact absurd ((EStateM.Result.ok.inj hrun').1.symm.trans h0) hb
      · have hlay : d.lay (E.hostOver play) p w' = .ok p (d.made p w') :=
          lay_run (by rwa [(answer_at hrun).1]) p
        simp only [if_neg h0, Attempt.lift_apply, hlay]
        constructor
        · intro h
          obtain ⟨hb, rfl⟩ := EStateM.Result.ok.inj h
          obtain rfl := Except.ok.inj hb
          exact ⟨hd, h0, w', rfl, rfl⟩
        · rintro ⟨-, -, w'', hrun', rfl⟩
          obtain ⟨rfl, rfl⟩ := EStateM.Result.ok.inj hrun'
          rfl
  · rw [d.make_of_overflow _ (Nat.le_of_not_lt hd)]
    exact ⟨nofun, fun h => absurd h.1 hd⟩

/-- The first thing that is seen of a new handle is what was ordered. -/
lemma made_stands (hr : r.order? = some d) (hp : p.toNat + 56 ≤ UInt64.size)
    (hrun : (r.make (E.hostOver play)).run w = .ok (.ok p) (d.made p w')) :
    d.Stands p ((Call.make r).result (E.hostOver play) w).marked.host := by
  have hown : r.combined = true := by rw [← r.order?_isSome, hr, Option.isSome_some]
  rw [result_make hrun, hown]
  exact ⟨Function.update_self _ _ _, .inl ⟨Finset.mem_insert_self _ _, d.header_written hp _⟩⟩

/-- A payload that is not empty is left in its place. -/
lemma Steady.payload_of_stands (hw : E.Steady w) (hb : d.Stands b w.host)
    (hsize : (w.memory.header b).size ≠ 0) : ∃ k, 56 ≤ k ∧
      k + (w.memory.header b).size.toNat ≤ (ledger w.host).room b ∧
      (w.memory.header b).payload.toNat = b.toNat + k := by
  have hs := hw.sound.headed.header b hb.2.mem_handles
  have hfit := (hw.sound.laid.fits b hs.out).2.2
  obtain ⟨k, hk, hroom, hpay⟩ := hs.contained hb.1 (.inl hsize)
  have hne : (w.memory.header b).size.toNat ≠ 0 := fun h => hsize (UInt64.toNat_inj.1 h)
  exact ⟨k, hk, hroom, (Memory.toNat_contained hroom hfit hpay).resolve_right fun h => hne h.2⟩

/-- A handle keeps what was ordered, but for an empty payload that is freed like a block. -/
lemma Steady.header_of_stands (hw : E.Steady w) (hb : d.Stands b w.host) :
    (d.header b).Endures (w.memory.header b) ∧
      ((w.memory.header b).payload = (d.place b).payload ∨
        d.size = 0 ∧ (w.memory.header b).payload = 0) := by
  have he : (d.header b).Endures (w.memory.header b) := hw.recalled.seen b _ hb.2
  refine ⟨he, (he.payload nofun).imp_right fun h0 => ⟨?_, h0⟩⟩
  by_contra hsize
  rw [← show (w.memory.header b).size = d.size from he.size nofun] at hsize
  obtain ⟨k, hk, -, hplace⟩ := hw.payload_of_stands hb hsize
  rw [h0, UInt64.toNat_zero] at hplace
  omega

end Environment

/-! ### Ending -/

/-- The destructor that comes with a request, null if there is none. -/
def Request.caller : Request → Addr
  | allocDestructor _ fn | allocDestructorSafe _ fn => fn
  | _ => 0

/-- Payloads are left to an adapter that gets by with the info word, or to nobody. -/
lemma Request.destructor_cases {r : Request} {d : Order} (hr : r.order? = some d)
    (hnone : r.closure? = none) :
    d.destructor = 0 ∧ r.caller = 0 ∧ d.poisoned = false ∨
    d.destructor = Adapter.custom.addr ∧ d.info = r.caller ∧ d.poisoned = false ∨
    d.destructor = Adapter.customSafe.addr ∧ d.info = r.caller ∧ d.poisoned = true ∨
    d.destructor = Adapter.safe.addr ∧ d.info = d.size ∧ r.caller = 0 ∧ d.poisoned = true := by
  cases r with
  | new | manage | newResizable | newResizableWith => cases hr
  | allocClosure => cases hnone
  | alloc | allocExternal | allocAligned =>
    obtain rfl := Option.some.inj hr
    exact .inl ⟨rfl, rfl, rfl⟩
  | allocDestructor =>
    obtain rfl := Option.some.inj hr
    exact .inr (.inl ⟨rfl, rfl, rfl⟩)
  | allocSafe | allocDestructorSafe =>
    obtain rfl := Option.some.inj hr
    exact .inr (.inr (.inl ⟨rfl, rfl, rfl⟩))
  | allocSafeAligned | allocSafeAlignedExternal =>
    obtain rfl := Option.some.inj hr
    exact .inr (.inr (.inr ⟨rfl, rfl, rfl, rfl⟩))

namespace Order

variable (d : Order) (h : Host σ) (caller : Addr)

/-- A payload is handed to its caller's destructor, if there is one. No panic gets out of that. -/
def handOver (data : Addr) : Machine σ Unit :=
  if caller ≠ 0 then Machine.withoutUnwinding (h.destructor caller data d.size 0) else return ()

/-- Takes leave of a payload: it is handed over, and then it is poisoned. -/
def dismiss (data : Addr) : Machine σ Unit := do
  d.handOver h caller data
  if d.poisoned then Machine.fill data d.size Poison.freed

/-- The block of the handle `b` goes, and a block and a handle are counted as ended. -/
def giveBack (b : Handle) : Machine σ Unit := do
  (allocatorAt h d.ext).free b
  count h .free
  count h .handleFree

/-- What is left to do for the handle `b` in the end, whose payload is at `data`. -/
def settle (b : Handle) (data : Addr) (shuttingDown : Bool) : Machine σ Unit := do
  if ¬ shuttingDown then d.dismiss h caller data
  d.giveBack h b

/-- Every way to end the handle `b` settles what was ordered: the block that goes is the one that
starts at `b`, and it goes to the allocator that gave it out. -/
structure Settles (h : Host History) (w : World History) (b : Handle) : Prop where
  release : Handle.release h b (w.noted (.released b)) =
    d.settle h caller b (w.memory.header b).payload w.shuttingDown
      ((w.noted (.released b)).withCount b 0)
  callDestructor : Handle.callDestructor h b (w.noted (.ending b)) =
    d.settle h caller b (w.memory.header b).payload w.shuttingDown (w.noted (.ending b))
  /-- No destructor is called, as if the runtime were shutting down. -/
  destroy : Handle.destroy h b (w.noted (.ending b)) =
    d.settle h caller b (w.memory.header b).payload true (w.noted (.ending b))
  dealloc : Handle.dealloc h b (w.noted (.abandoned b)) = (do
    (allocatorAt h d.ext).free b
    count h .free) (w.noted (.abandoned b))

end Order

namespace Environment

variable {E : Environment} {w : World History} {r : Request} {d : Order} {b : Handle} {e : Header}
  {play : (World History → Program) → Machine History Unit}

/-- Between the host and its own state there is nothing to trace. -/
lemma trace_eq_pure (t : Trace) : (E.hostOver play).trace t = pure () :=
  funext fun w => E.trace_run play w t

/-- The destructor of a handle that was ordered takes leave of its payload. -/
lemma callDestructorAt_eq_dismiss (hr : r.order? = some d) (hnone : r.closure? = none)
    (he : (d.header b).Endures e) : (if e.destructor ≠ 0 then
      callDestructorAt (E.hostOver play) e.destructor e.payload e.size e.info else pure ()) =
      d.dismiss (E.hostOver play) r.caller e.payload := by
  have hdestructor : e.destructor = d.destructor := he.destructor
  have hinfo : e.info = d.info := he.info
  have hsize : e.size = d.size := he.size nofun
  have hcustom : Machine.withoutUnwinding
      (Adapter.runCustom (E.hostOver play) e.payload d.size r.caller) =
      d.handOver (E.hostOver play) r.caller e.payload := by
    rw [Adapter.runCustom, trace_eq_pure, pure_bind, Order.handOver, apply_ite
      Machine.withoutUnwinding]
    rfl
  rw [hdestructor, hinfo, hsize, Order.dismiss]
  rcases Request.destructor_cases hr hnone with ⟨h0, hcaller, hp⟩ | ⟨ha, hi, hp⟩ | ⟨ha, hi, hp⟩ |
    ⟨ha, hi, hcaller, hp⟩
  · rw [if_neg (not_not.2 h0), hcaller, hp]
    rfl
  all_goals rw [ha, if_pos (Adapter.addr_ne_zero _), callDestructorAt, Adapter.ofAddr?_addr, hi, hp]
  · exact hcustom.trans (bind_pure _).symm
  · show Machine.withoutUnwinding (do
      (E.hostOver play).trace _
      Adapter.runCustom _ _ _ _
      Machine.fill _ _ _) = _
    rw [trace_eq_pure, pure_bind, Machine.withoutUnwinding_bind, hcustom]
    rfl
  · show Machine.withoutUnwinding (do
      (E.hostOver play).trace _
      Machine.fill _ _ _) = _
    rw [hcaller, trace_eq_pure, pure_bind]
    rfl

/-- The end of a handle that was ordered is to settle the order. -/
lemma finish_eq_settle (hr : r.order? = some d) (hnone : r.closure? = none)
    (he : (d.header b).Endures e) (shuttingDown : Bool) :
    finish (E.hostOver play) b e shuttingDown =
      d.settle (E.hostOver play) r.caller b e.payload shuttingDown := by
  have hexternal : e.external = d.ext := he.external
  rw [finish, Order.settle, Order.giveBack, hexternal,
    ← callDestructorAt_eq_dismiss hr hnone he]
  by_cases hcall : e.destructor ≠ 0 ∧ ¬ shuttingDown
  · rw [if_pos hcall, if_pos hcall.2, if_pos hcall.1]
  · rw [if_neg hcall]
    by_cases hs : shuttingDown
    · simp [hs]
    · have h0 : ¬ e.destructor ≠ 0 := fun h0 => hcall ⟨h0, hs⟩
      simp [hs, h0]

/-- A handle ends as was ordered. -/
lemma Steady.settles (hplay : Obeys E play) (hw : E.Steady w) (hm : Marked w)
    (hb : (ledger w.host).Sole b) (hr : r.order? = some d) (hnone : r.closure? = none)
    (hstands : d.Stands b w.host) : d.Settles r.caller (E.hostOver play) w b := by
  have he := (hw.header_of_stands hstands).1
  have hexternal : (w.memory.header b).external = d.ext := he.external
  have hb0 := hw.ne_zero hb.1
  have hending := (hw.ending hb).1
  have hdying : (ledger (w.noted (.ending b)).host).Dying b :=
    ⟨hb.1, by simp [World.noted, Ledger.after, Ledger.setRefs]⟩
  have hbegun : w.shuttingDown = false → Begun b (w.noted (.ending b)) := fun hs =>
    begun_of_marked hm hb hs (.inr rfl) rfl rfl (v := (w.memory.header b).refcount) rfl
  refine ⟨?_, ?_, ?_, ?_⟩
  · rw [release_eq_finish hplay hw hm hb, finish_eq_settle hr hnone he]
  · rw [callDestructor_eq_finish hplay hending hdying hbegun, World.noted_memory,
      finish_eq_settle hr hnone he]
    rfl
  · rw [destroy_eq hending.sound.correct hb0 rfl, World.noted_memory, hexternal, Order.settle]
    rfl
  · have hc : E.Correct (w.noted (.abandoned b)).bindings.incDec := hw.sound.correct
    have hc' : E.Correct (E.freed (E.sourceAt w.bindings.heap.addr d.ext) b
      (w.noted (.abandoned b))).bindings.incDec := hw.sound.correct
    rw [dealloc_run play hc hb0, World.noted_memory, hexternal, Machine.bind_apply, free_at_run]
    exact (count_run play hc' .free).symm

end Environment

end CountedHeap
