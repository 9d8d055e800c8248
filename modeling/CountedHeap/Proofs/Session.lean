/-
Whole runs

Every step that the contract allows leads from a steady state to a steady state, or ends the run by
a fault after a lawful history. Programs are runs of such steps, and the programs that destructors
and closures are, are run by the same rule one level further in; so the invariant holds for every
program by induction on its steps, and for every host by induction on the depth of nesting.

* `Environment.perform_ends`: one step, once it is written down;
* `Environment.run_ends`: a program;
* `Environment.obeys_host`: the programs that are called from inside;
* `Environment.lawful_history`: everything that is seen of a run is lawful;
* `Environment.steady_of_boundary`: the states between two steps, in terms of the history alone.
-/
import CountedHeap.Proofs.Ending

namespace CountedHeap

open Memory (AgreeOn Apart)

namespace Environment

variable {E : Environment} {w : World History} {b : Handle}
  {play : (World History → Program) → Machine History Unit}

/-! ### Configuration -/

/-- A state where no block is out has no handle either. -/
lemma Steady.handles_eq_empty (hw : E.Steady w) (h : (ledger w.host).blocks = ∅) :
    (ledger w.host).handles = ∅ := by
  refine Finset.eq_empty_of_forall_notMem fun b hb => ?_
  have hout := hw.mem_blocks hb
  rw [h] at hout
  exact absurd hout (Finset.notMem_empty b)

/-- Other primitives, as long as they are correct, and shutting down. -/
lemma Steady.withPrimitives (hw : E.Steady w) {p : IncDec} (hp : E.Correct p) (c : CompareSwap)
    (shuttingDown : Bool) :
    E.Reaches w { w with
      bindings := { w.bindings with incDec := p, cas := c }
      shuttingDown := shuttingDown } :=
  ⟨⟨⟨hw.sound.laid, hw.sound.headed, hw.sound.reported, hw.sound.tallied, hp⟩, hw.recorded,
    hw.recalled⟩, fun _ hb => ⟨hb, rfl⟩⟩

/-- Interned triples are of no account to handles and blocks. -/
lemma Steady.withInterned (hw : E.Steady w) (r : Interned) :
    E.Reaches w { w with interned := r } :=
  ⟨⟨⟨hw.sound.laid, hw.sound.headed, hw.sound.reported, hw.sound.tallied, hw.sound.correct⟩,
    hw.recorded, hw.recalled⟩, fun _ hb => ⟨hb, rfl⟩⟩

/-- Another default heap, while nothing is out that came from the one before. -/
lemma Steady.withHeap (hw : E.Steady w) {o : HeapObject}
    (h : w.bindings.heap.addr = o.addr ∨ w.stats.isBalanced = true) :
    E.Reaches w { w with bindings := { w.bindings with heap := o } } := by
  rcases h with h | h
  · have hlaid := hw.sound.laid
    have hheaded := hw.sound.headed
    rw [h] at hlaid hheaded
    exact ⟨⟨⟨hlaid, hheaded, hw.sound.reported, hw.sound.tallied, hw.sound.correct⟩,
      hw.recorded, hw.recalled⟩, fun _ hb => ⟨hb, rfl⟩⟩
  · have hempty := hw.sound.tallied.blocks_eq_empty hw.sound.laid h
    exact ⟨⟨⟨hw.sound.laid.rebind hempty _, Headed.of_empty (hw.handles_eq_empty hempty),
      hw.sound.reported, hw.sound.tallied, hw.sound.correct⟩, hw.recorded, hw.recalled⟩,
      fun _ hb => ⟨hb, rfl⟩⟩

/-- The heap is exchanged, or the program stops. -/
lemma setAllocator_ends (hw : E.Steady w) (o : HeapObject) :
    E.Ends (setAllocator (E.hostOver play) o) w fun _ w' => E.Reaches w w' := by
  refine Ends.bind_run (Machine.get_apply w) ?_
  by_cases h : w.bindings.heap.addr ≠ o.addr ∧ ¬ w.stats.isBalanced
  · rw [if_pos h]
    exact Ends.of_error (Machine.throw_apply w _) hw.recorded
  · rw [if_neg h]
    refine Ends.bind_run (Machine.modify_apply w _) ?_
    refine Ends.of_ok (E.trace_run play _ _) (hw.withHeap ?_)
    by_cases ha : w.bindings.heap.addr = o.addr
    · exact .inl ha
    · exact .inr (by simpa [ha] using h)

lemma shutDown_ends (hw : E.Steady w) :
    E.Ends (shutDown (E.hostOver play)) w fun _ w' => E.Reaches w w' := by
  have hdown : E.Reaches w { w with
      bindings := { w.bindings with incDec := .stub, cas := .stub }
      shuttingDown := true } := hw.withPrimitives (p := .stub) trivial .stub true
  refine Ends.bind_run (Machine.modify_apply w _) ?_
  refine Ends.bind_run (Machine.modify_apply _ _) ?_
  refine Ends.bind_run (Machine.modify_apply _ _) ?_
  exact Ends.of_ok (E.trace_run play _ _) hdown

/-- After a fresh start nothing is out, and nothing is counted. -/
lemma started_ends (hrecorded : Throughout E.Lawful w.host) (hrecalled : E.Recalled w.host w.memory)
    (hempty : (ledger w.host).handles = ∅) :
    E.Ends (do start (E.hostOver play); record .started) w fun _ w' =>
      E.Steady w' ∧ w'.host = .started :: w.host := by
  have hstart : start (E.hostOver play) w =
      .ok () { w with bindings := {}, shuttingDown := false, stats := {} } := by
    rw [start, Machine.bind_apply, Machine.modify_apply]
    exact E.trace_run play _ _
  refine Ends.bind_run hstart (Ends.of_ok (record_run _ _) ⟨⟨⟨?_, ?_, ?_, ?_, trivial⟩, ?_,
    hrecalled.started hempty⟩, rfl⟩)
  · exact ⟨by simp [World.noted, Ledger.after], by simp [World.noted, Ledger.after],
      by simp [World.noted, Ledger.after]⟩
  · exact Headed.of_empty rfl
  · exact fun b hb => absurd hb.1 (Finset.notMem_empty b)
  · exact ⟨by simp [World.noted, Ledger.after, Stats.outstandingBlocks],
      by simp [World.noted, Ledger.after, Stats.outstandingHandles]⟩
  · exact Throughout.cons_iff.2 ⟨trivial, hrecorded⟩

/-! ### Steps -/

lemma silently_ends {x : Machine History Unit} (hx : E.Ends x w fun _ w' => E.Reaches w w') :
    E.Ends (Call.silently x).run w fun _ w' => E.Reaches w w' :=
  Ends.lift_bind hx fun _ _ h => Ends.of_ok rfl h

/-- A block of the caller's becomes a handle on memory of his. -/
lemma init_ends (hw : E.Steady w) {data : Addr} {size : Word} {destructor info ext : Addr}
    (hb : (ledger w.host).Owned w.memory b) (hroom : 56 ≤ (ledger w.host).room b)
    (hs : (ledger w.host).source b = E.sourceAt w.bindings.heap.addr ext)
    (hd : IsForeign destructor) :
    E.Ends (do Handle.init (E.hostOver play) b data size destructor info ext
               Call.recordMade b false) w fun _ w' => E.Reaches w w' := by
  have hsuits : Suits E w b false ⟨1, destructor, info, data, size, ext, .fixed⟩ :=
    ⟨hb, hroom, rfl, hs, ⟨fun h => absurd h (IsForeign.ne_addr hd _), nofun⟩, nofun, fun h => by
      rcases h with h | h
      · exact absurd h (IsForeign.ne_addr hd _)
      · exact absurd h (IsForeign.ne_addr hd _), fun h => absurd h (IsForeign.ne_addr hd _), nofun⟩
  exact (initWith_ends play hw hsuits).bind fun _ w' h => Ends.of_ok (recordMade_run w' b _) h

/-- A new payload is written down when its caller is handed it. -/
lemma refilled_ends {x : Attempt History Addr} {n : Word} (hx : E.Ends x.run w (Refills E b n w)) :
    E.Ends (do let p ← x
               record (.refilled b p n)
               return p : Attempt History Addr).run w fun _ w' => E.Reaches w w' := by
  refine hx.attempt_bind (fun p w' h => ?_) fun e w' h => h
  exact Ends.lift_run (record_run w' _) (Ends.of_ok rfl h)

lemma clone_ends (hw : E.Steady w) {r : Ref} (hb : (ledger w.host).Live r.handle) :
    E.Ends (do let r' ← Ref.clone (E.hostOver play) r
               record (.acquired r'.handle)) w fun _ w' => E.Reaches w w' := by
  rw [clone_recorded]
  exact (acquire_ends hw hb).bind fun _ w' h => Ends.of_ok (record_run w' _) h

/-- Every operation that the contract allows leads from a steady state to a steady state. -/
lemma operation_ends (hplay : Obeys E play) (hw : E.Steady w) (hm : Marked w) {c : Call}
    (hc : c.Permitted E w) (hpoke : ∀ a bytes, c ≠ .poke a bytes) :
    E.Ends (c.perform (E.hostOver play)).run w fun _ w' => E.Reaches w w' := by
  cases c with
  | allocateFrom ext size => exact (allocateFrom_ends play hw ext size).mono fun _ _ h => h.1
  | reallocate p size =>
    exact Ends.of_ok (reallocate_run play p size)
      (hw.regranted hc.1 hc.2 fun a ha => (Source.heap.inj ha).symm)
  | free p =>
    refine silently_ends (Ends.of_ok (free_run play hw.sound.correct p) ?_)
    rcases hc with rfl | hc
    · rw [if_pos rfl]
      exact hw.refl
    · rw [if_neg (hw.sound.laid.fits p hc.1.1).1]
      exact hw.handedBack hc.1 hc.2
  | make r =>
    refine (make_ends play hplay hw r hc).attempt_bind (fun b w' h => ?_) fun e w' h => h
    exact Ends.lift_run (recordMade_run w' b _) (Ends.of_ok rfl h)
  | init b data size destructor info ext =>
    exact silently_ends (init_ends hw hc.1 hc.2.1 hc.2.2.1 hc.2.2.2)
  | acquire b =>
    exact silently_ends ((acquire_ends hw hc).bind fun _ w' h => Ends.of_ok (record_run w' _) h)
  | release b => exact silently_ends (release_ends hplay hw hm hc)
  | callDestructor b => exact silently_ends (ending_callDestructor_ends hplay hw hm hc)
  | destroy b => exact silently_ends (ending_destroy_ends hw hc)
  | dealloc b => exact silently_ends (abandoned_dealloc_ends hw hc)
  | clone r => exact silently_ends (clone_ends hw hc)
  | drop r => exact silently_ends (release_ends hplay hw hm hc)
  | resizableAlloc b size => exact refilled_ends (resizableAlloc_ends play hw hc size)
  | resizableRealloc b size => exact refilled_ends (resizableRealloc_ends play hw hc size)
  | resizableFree b p =>
    refine silently_ends ((resizableFree_ends play hw hc.1 hc.2).bind fun _ w' h => ?_)
    exact Ends.of_ok (record_run w' _) h
  | setAllocator o => exact silently_ends (setAllocator_ends hw o)
  | installFunctions f =>
    have hintern := hw.withInterned (w.interned.intern f).2
    refine silently_ends (Ends.bind_run (Machine.modifyGet_apply w _) ?_)
    exact (setAllocator_ends hintern.1 _).mono fun _ _ h => hintern.trans h
  | setIncDec p =>
    exact silently_ends (Ends.of_ok (Machine.modify_apply w _)
      (hw.withPrimitives hc w.bindings.cas w.shuttingDown))
  | setCompareSwap p =>
    exact silently_ends (Ends.of_ok (Machine.modify_apply w _)
      (hw.withPrimitives hw.sound.correct p w.shuttingDown))
  | shutDown => exact silently_ends (shutDown_ends hw)
  | start =>
    have hempty := hw.handles_eq_empty hc
    refine silently_ends ((started_ends hw.recorded hw.recalled hempty).mono fun _ w' h =>
      ⟨h.1, fun b hb => ?_⟩)
    have hmem := hb.1
    rw [hempty] at hmem
    exact absurd hmem (Finset.notMem_empty b)
  | poke a bytes => exact absurd rfl (hpoke a bytes)

/-- The state is written down between two steps. -/
lemma Steady.marked (hw : E.Steady w) : E.Reaches w w.marked := by
  have hsound : E.Sound (ledger w.host) w.snapshot :=
    ⟨hw.sound.laid, hw.sound.headed, hw.sound.reported, hw.sound.tallied, hw.sound.correct⟩
  have hrecalled : E.Recalled w.marked.host w.memory :=
    hw.recalled.marked rfl (fun _ _ => rfl) fun _ _ _ => rfl
  exact ⟨⟨⟨hw.sound.laid, hw.sound.headed, hw.sound.reported, hw.sound.tallied, hw.sound.correct⟩,
    Throughout.cons_iff.2 ⟨⟨hsound, hrecalled⟩, hw.recorded⟩, hrecalled⟩, fun _ hb => ⟨hb, rfl⟩⟩

/-- What a caller may write to is no handle's header. -/
lemma Steady.header_poked (hw : E.Steady w) {a : Addr} {bytes : List UInt8}
    (hc : (Call.poke a bytes).Permitted E w) {b : Handle} (hb : b ∈ (ledger w.host).handles) :
    (w.memory.write a bytes).header b = w.memory.header b :=
  Memory.header_write_of_apart _ _ hc.1 (hw.room_le hb).2 (hc.2 b hb)

/-- A caller may write to a header that is gone, and only the state that is written down after it
tells that he did. -/
lemma poke_ends (hw : E.Steady w) (hm : Marked w) {a : Addr} {bytes : List UInt8}
    (hc : (Call.poke a bytes).Permitted E w) :
    E.Ends ((Call.poke a bytes).perform (E.hostOver play)).run w fun _ w' =>
      E.Reaches w w'.marked := by
  set m := w.memory.write a bytes
  set w' : World History := World.noted { w with memory := m } (.poked a bytes)
  have hrun : ((Call.poke a bytes).perform (E.hostOver play)).run w = .ok (.ok 0) w' := rfl
  have hnoted := hw.noted (e := .poked a bytes) rfl trivial trivial
  have hheader : ∀ b ∈ (ledger w.host).handles, m.header b = w.memory.header b :=
    fun _ => hw.header_poked hc
  have hsound : E.Sound (ledger w'.host) w'.snapshot :=
    ⟨hw.sound.laid, hw.sound.headed.congr hheader, hw.sound.reported.congr hheader,
      hw.sound.tallied, hw.sound.correct⟩
  have hspent : ∀ b, Spent b w'.host → LeftAlone b (.boundary w'.snapshot :: w'.host) →
      m.header b = w.memory.header b := by
    intro b hs halone
    obtain ⟨before, hbefore⟩ := hm
    have hs' := (hs.resolve_left not_false).2
    have halone' := halone.1
    rw [hbefore] at hs'
    rw [show w'.host = .poked a bytes :: w.host from rfl, hbefore] at halone'
    exact halone' (hs'.resolve_left not_false).2
  have hrecalled : E.Recalled w'.marked.host m :=
    hnoted.1.recalled.marked rfl hheader hspent
  refine Ends.of_ok hrun ⟨⟨?_,
    Throughout.cons_iff.2 ⟨⟨hsound, hrecalled⟩, hnoted.1.recorded⟩, hrecalled⟩,
    fun b hb => ⟨hb, hheader b hb.1⟩⟩
  exact ⟨hsound.laid, hsound.headed, hsound.reported, hsound.tallied, hsound.correct⟩

/-- Every step that the contract allows leads from a steady state to a steady state, once the state
is written down. -/
theorem perform_ends (hplay : Obeys E play) (hw : E.Steady w) (hm : Marked w) {c : Call}
    (hc : c.Permitted E w) :
    E.Ends (c.perform (E.hostOver play)).run w fun _ w' => E.Reaches w w'.marked := by
  by_cases hpoke : ∃ a bytes, c = .poke a bytes
  · obtain ⟨a, bytes, rfl⟩ := hpoke
    exact poke_ends hw hm hc
  · have hnot : ∀ a bytes, c ≠ .poke a bytes := fun a bytes he => hpoke ⟨a, bytes, he⟩
    exact (operation_ends hplay hw hm hc hnot).mono fun _ _ h => h.trans h.1.marked

/-! ### Programs -/

/-- A program goes on from a state that is steady once it is written down. -/
lemma marked_run_ends (hplay : Obeys E play) (p : Program) (hw : E.Steady w.marked) :
    E.Ends (p.run E (E.hostOver play)) w fun _ w' => E.Reaches w.marked w' := by
  induction p generalizing w with
  | done => exact Ends.of_ok rfl hw.refl
  | panic message =>
    have hmark : Program.mark w = .ok () w.marked := rfl
    exact Ends.bind_run hmark (Ends.of_error (Machine.throw_apply _ _) hw.recorded)
  | step c next ih =>
    have hmark : Program.mark w = .ok () w.marked := rfl
    rw [Program.run]
    refine Ends.bind_run hmark (Ends.bind_run (Machine.get_apply _) ?_)
    by_cases hc : c.Permitted E w.marked
    · rw [if_pos hc]
      refine (perform_ends hplay hw ⟨w.host, rfl⟩ hc).bind fun a w' h => ?_
      refine Ends.bind_run (Machine.get_apply w') ?_
      exact (ih a w' h.1).mono fun _ _ h' => h.trans h'
    · rw [if_neg hc]
      exact Ends.of_ok rfl hw.refl

/-- Every program keeps steady states steady, whatever it does. -/
theorem run_ends (hplay : Obeys E play) (p : Program) (hw : E.Steady w) :
    E.Ends (p.run E (E.hostOver play)) w fun _ w' => E.Reaches w w' :=
  (marked_run_ends hplay p hw.marked.1).mono fun _ _ h => hw.marked.trans h

/-- Programs that are called from inside and run as such keep states steady. -/
lemma obeys_run (hplay : Obeys E play) :
    Obeys E (fun p => do (p (← get)).run E (E.hostOver play)) := fun p w hw =>
  Ends.bind_run (Machine.get_apply w) (run_ends hplay (p w) hw)

/-- So do those that are not run because they are nested too deep. -/
lemma obeys_tooDeep : Obeys E fun _ => throw .tooDeep := fun _ w hw =>
  Ends.of_error (Machine.throw_apply w _) hw.recorded

/-- What is called from inside keeps states steady, however deep the calls are nested. -/
theorem obeys_host (depth : Nat) : ∃ play, E.host depth = E.hostOver play ∧ Obeys E play := by
  induction depth with
  | zero => exact ⟨_, rfl, obeys_tooDeep⟩
  | succ depth ih =>
    obtain ⟨play, hhost, hplay⟩ := ih
    refine ⟨_, rfl, ?_⟩
    rw [hhost]
    exact obeys_run hplay

/-! ### Sessions -/

/-- A run from a fresh start ends in a steady state, or by a fault. -/
theorem session_ends (depth : Nat) (p : Program) (w : World History) :
    E.Ends (E.session depth p) { w with host := [] } fun _ w' => E.Steady w' := by
  obtain ⟨play, hhost, hplay⟩ := E.obeys_host depth
  rw [session, hhost, ← bind_assoc]
  refine (started_ends Throughout.nil Recalled.nil rfl).bind fun _ w' h => ?_
  exact (run_ends hplay p h.1).mono fun _ _ h' => h'.1

/-- Everything that is seen of a run is lawful. -/
theorem lawful_history (E : Environment) (depth : Nat) (p : Program) (w : World History) :
    Throughout E.Lawful (E.history depth p w) := by
  have hends := E.session_ends depth p w
  rw [history]
  cases hends with
  | of_ok hrun hw =>
    rw [hrun]
    exact hw.recorded
  | of_error hrun hlaw =>
    rw [hrun]
    exact hlaw

end Environment

/-! ### Boundaries -/

/-- A state that was written down between two steps, as the next step finds it. -/
def World.resume (s : Snapshot) (past : History) : World History :=
  { s with host := .boundary s :: past }

/-- The state that was written down last, and what was seen before. -/
def lastBoundary : History → Option (Snapshot × History)
  | .boundary s :: past => some (s, past)
  | _ => none

lemma exists_lastBoundary {H : History} {P : Snapshot × History → Bool}
    (h : (lastBoundary H).any P = true) :
    ∃ s past, H = .boundary s :: past ∧ P (s, past) = true := by
  unfold lastBoundary at h
  split at h
  · next s past => exact ⟨s, past, rfl, h⟩
  · cases h

namespace Environment

variable {E : Environment}

/-- Wherever a run is between two steps, its state is steady. -/
theorem steady_of_boundary {s : Snapshot} {past : History}
    (h : Throughout E.Lawful (.boundary s :: past)) :
    E.Steady (s.resume past) ∧ Marked (s.resume past) := by
  obtain ⟨⟨hsound, hrecalled⟩, -⟩ := Throughout.cons_iff.1 h
  exact ⟨⟨⟨hsound.laid, hsound.headed, hsound.reported, hsound.tallied, hsound.correct⟩, h,
    hrecalled⟩, past, rfl⟩

end Environment

end CountedHeap
