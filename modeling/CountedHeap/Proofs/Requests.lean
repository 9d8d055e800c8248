/-
What the operations do to a state

Against the host of an `Environment` every request for storage, every count and every access to a
header is a function of the state, and these are its equations. Only what calls back into a program
has none; it is followed step by step where it occurs.

* `Environment.handed`, `Environment.handedBack`: a counted block comes and goes;
* `Environment.allocateFrom_cases`: the three ways in which a request for storage can go;
* `Environment.free_run`, `Environment.destroy_run`: how storage is given back.
-/
import CountedHeap.Proofs.Sound

namespace CountedHeap

/-! ### Attempts -/

namespace Machine

variable {σ α : Type} (w : World σ)

theorem modifyGet_apply (f : World σ → α × World σ) :
    (modifyGet f : Machine σ α) w = .ok (f w).1 (f w).2 := rfl

end Machine

namespace Attempt

variable {σ α β : Type} (w : World σ)

theorem bind_apply (x : Attempt σ α) (f : α → Attempt σ β) :
    (x >>= f).run w = match x.run w with
      | .ok (.ok a) w' => (f a).run w'
      | .ok (.error e) w' => .ok (.error e) w'
      | .error e w' => .error e w' := by
  rw [ExceptT.run_bind, Machine.bind_apply]
  cases x.run w with
  | ok a w' => cases a <;> rfl
  | error e w' => rfl

theorem lift_apply (x : Machine σ α) :
    (liftM x : Attempt σ α).run w = match x w with
      | .ok a w' => .ok (.ok a) w'
      | .error e w' => .error e w' := by
  rw [ExceptT.run_liftM]
  show EStateM.map Except.ok x w = _
  unfold EStateM.map
  cases x w <;> rfl

/-- A computation that cannot fail to get storage. -/
theorem lift_bind_apply (x : Machine σ α) (f : α → Attempt σ β) :
    ((liftM x : Attempt σ α) >>= f).run w = match x w with
      | .ok a w' => (f a).run w'
      | .error e w' => .error e w' := by
  rw [bind_apply, lift_apply]
  cases x w <;> rfl

theorem pure_apply (a : α) : (pure a : Attempt σ α).run w = .ok (.ok a) w := rfl

theorem throw_apply (e : AllocError) : (throw e : Attempt σ α).run w = .ok (.error e) w := rfl

theorem tryCatch_apply (x : Attempt σ α) (f : AllocError → Attempt σ α) :
    (tryCatch x f).run w = match x.run w with
      | .ok (.ok a) w' => .ok (.ok a) w'
      | .ok (.error e) w' => (f e).run w'
      | .error e w' => .error e w' := by
  rw [ExceptT.run_tryCatch, Machine.bind_apply]
  cases x.run w with
  | ok a w' => cases a <;> rfl
  | error e w' => rfl

end Attempt

/-! ### Counting and requests -/

/-- One more event was seen. -/
def World.noted (w : World History) (e : Event) : World History := { w with host := e :: w.host }

/-- The state, written down as it is between two steps. -/
def World.marked (w : World History) : World History := w.noted (.boundary w.snapshot)

/-- The state with another count in a header. -/
def World.withCount (w : World History) (b : Handle) (v : Word) : World History :=
  { w with memory := w.memory.setWord (b + Field.refcount.offset) v }

@[simp] lemma World.noted_memory (w : World History) (e : Event) :
    (w.noted e).memory = w.memory := rfl

lemma World.noted_withCount (w : World History) (e : Event) (b : Handle) (v : Word) :
    (w.noted e).withCount b v = (w.withCount b v).noted e := rfl

/-- An event is taken down, and nothing else happens. -/
lemma record_run (w : World History) (e : Event) : record e w = .ok () (w.noted e) := rfl

lemma record_bind_run (e : Event) (x : Machine History Unit) (w : World History) :
    (do record e; x) w = x (w.noted e) := rfl

/-- A step that tells its caller nothing, once it is over. -/
lemma Call.silently_run {x : Machine History Unit} {w w' : World History} (h : x w = .ok () w') :
    (Call.silently x).run w = .ok (.ok 0) w' := by
  rw [Call.silently, Attempt.lift_bind_apply, h]
  rfl

lemma Call.silently_run_error {x : Machine History Unit} {w w' : World History} {e : Fault}
    (h : x w = .error e w') : (Call.silently x).run w = .error e w' := by
  rw [Call.silently, Attempt.lift_bind_apply, h]

/-- What is written down of a new handle: what its header reports. -/
def Event.madeIn (m : Memory) (b : Handle) (own : Bool) : Event :=
  .made b own (m.header b).payload (m.header b).size

/-- The event for a new handle tells what its header says. -/
lemma recordMade_run (w : World History) (b : Handle) (own : Bool) :
    Call.recordMade b own w = .ok () (w.noted (.madeIn w.memory b own)) := rfl

/-- The size that a default heap is asked for. -/
def HeapObject.asked (o : HeapObject) (n : Word) : Word :=
  match o.kind with
  | .custom => n
  | _ => max n 1

lemma HeapObject.le_asked (o : HeapObject) (n : Word) : n.toNat ≤ (o.asked n).toNat := by
  unfold asked
  split
  · exact le_rfl
  · show n.toNat ≤ (if n ≤ 1 then 1 else n).toNat
    split
    · next h => exact UInt64.le_iff_toNat_le.1 h
    · exact le_rfl

namespace Environment

open Machine

variable (E : Environment)

/-- The state after a block was given out and counted. -/
def handed (s : Source) (n : Word) (w : World History) : World History :=
  { E.granted s n w with stats := w.stats.bump .alloc }

/-- The state after a block was given back and counted. -/
def handedBack (s : Source) (p : Addr) (w : World History) : World History :=
  { E.freed s p w with stats := w.stats.bump .free }

/-- The state after a block was given back, and counted, and the handle in it counted as ended. -/
def destroyed (s : Source) (b : Handle) (w : World History) : World History :=
  { E.freed s b w with stats := (w.stats.bump .free).bump .handleFree }

variable (play : (World History → Program) → Machine History Unit) (w : World History)

/-- Telling the host what the runtime does changes nothing that it sees already. -/
lemma trace_run (t : Trace) : (E.hostOver play).trace t w = .ok () w := by
  simp [Host.trace, modify_apply, hostOver]

variable {E} {w} in
/-- A correct primitive counts a word up by one and answers the new value. -/
lemma increment_run (hc : E.Correct w.bindings.incDec) (c : Cell) :
    increment (E.hostOver play) c w = addTo c 1 w := by
  show IncDec.increment (E.hostOver play) w.bindings.incDec c w = _
  cases he : w.bindings.incDec with
  | stub => rfl
  | native => rfl
  | functions f =>
    rw [he] at hc
    show addTo c (E.change f.inc) w = _
    rw [hc.1]

variable {E} {w} in
/-- A correct primitive counts a word down by one and answers the new value. -/
lemma decrement_run (hc : E.Correct w.bindings.incDec) (c : Cell) :
    decrement (E.hostOver play) c w = addTo c (-1) w := by
  show IncDec.decrement (E.hostOver play) w.bindings.incDec c w = _
  cases he : w.bindings.incDec with
  | stub => rfl
  | native => rfl
  | functions f =>
    rw [he] at hc
    show addTo c (E.change f.dec) w = _
    rw [hc.2]

variable {E} {w} in
/-- Counters go up by one where primitives count as they should. -/
lemma count_run (hc : E.Correct w.bindings.incDec) (k : Counter) :
    count (E.hostOver play) k w = .ok () { w with stats := w.stats.bump k } := by
  rw [count, bind_apply, increment_run play hc]
  rfl

/-- The default heap answers as its allocator does, and is asked for no less. -/
lemma heap_allocate_run (n : Word) :
    (defaultHeap (E.hostOver play)).allocate n w =
      .ok (E.allocate (.heap w.bindings.heap.addr) (w.bindings.heap.asked n) w).addr
        (E.granted (.heap w.bindings.heap.addr) (w.bindings.heap.asked n) w) := by
  simp only [defaultHeap, bind_apply, get_apply, HeapObject.allocator, HeapObject.asked]
  cases w.bindings.heap.kind <;> rfl

lemma heap_reallocate_run (p : Addr) (n : Word) :
    (defaultHeap (E.hostOver play)).reallocate p n w =
      .ok (E.reallocate (.heap w.bindings.heap.addr) p (w.bindings.heap.asked n) w).addr
        (E.regranted (.heap w.bindings.heap.addr) p (w.bindings.heap.asked n) w) := by
  simp only [defaultHeap, bind_apply, get_apply, HeapObject.allocator, HeapObject.asked]
  cases w.bindings.heap.kind <;> rfl

lemma heap_free_run (p : Addr) :
    (defaultHeap (E.hostOver play)).free p w =
      .ok () (E.freed (.heap w.bindings.heap.addr) p w) := by
  simp only [defaultHeap, bind_apply, get_apply, HeapObject.allocator]
  cases w.bindings.heap.kind <;> rfl

/-- The sample allocator allocates from the default heap and gives back there, and so does every
allocator that the host pairs in the same way. -/
lemma externalAt_paired (ext : Addr) :
    (E.externalAt ext).malloc = ExternalAllocator.sample.malloc ↔
      (E.externalAt ext).free = ExternalAllocator.sample.free := by
  unfold externalAt
  split
  · exact ⟨fun _ => rfl, fun _ => rfl⟩
  · exact E.paired ext

lemma allocatorAt_of_ne_zero {ext : Addr} (h0 : ext ≠ 0) :
    allocatorAt (E.hostOver play) ext = (E.externalAt ext).allocator (E.hostOver play) := by
  rw [allocatorAt, if_neg h0]
  rfl

/-- A block goes back to where the blocks of its allocator come from. -/
lemma free_at_run (ext p : Addr) :
    (allocatorAt (E.hostOver play) ext).free p w =
      .ok () (E.freed (E.sourceAt w.bindings.heap.addr ext) p w) := by
  by_cases h0 : ext = 0
  · subst h0
    rw [sourceAt, if_pos (.inl rfl)]
    exact E.heap_free_run play w p
  rw [E.allocatorAt_of_ne_zero play h0]
  by_cases hf : (E.externalAt ext).free = ExternalAllocator.sample.free
  · have hfree : ((E.externalAt ext).allocator (E.hostOver play)).free p =
        Machine.withoutUnwinding ((defaultHeap (E.hostOver play)).free p) := if_pos hf
    rw [sourceAt, if_pos (.inr ((E.externalAt_paired ext).2 hf)), hfree,
      withoutUnwinding_apply, heap_free_run]
  · have hm : ¬ (ext = 0 ∨ (E.externalAt ext).malloc = ExternalAllocator.sample.malloc) := by
      rintro (h | h)
      · exact h0 h
      · exact hf ((E.externalAt_paired ext).1 h)
    have hfree : ((E.externalAt ext).allocator (E.hostOver play)).free p =
        ((E.hostOver play).externalFunctions (E.externalAt ext)).free p := if_neg hf
    rw [sourceAt, if_neg hm, hfree]
    rfl

/-- The size that the allocator of handles with the external allocator at `ext` is asked for, while
the heap `o` is bound. The sample allocator asks nobody on behalf of a stranger. -/
def asks (o : HeapObject) (ext : Addr) (n : Word) : Option Word :=
  if ext = 0 then some (o.asked n)
  else if (E.externalAt ext).malloc = ExternalAllocator.sample.malloc then
    if (E.externalAt ext).token = ExternalAllocator.sampleToken then some (o.asked n) else none
  else some n

/-- Nobody is asked for less than what was wanted. -/
lemma le_asks {o : HeapObject} {ext : Addr} {n n' : Word} (h : E.asks o ext n = some n') :
    n.toNat ≤ n'.toNat := by
  have hheap := HeapObject.le_asked o n
  unfold asks at h
  split_ifs at h <;> obtain rfl := Option.some.inj h <;> first | exact hheap | exact le_rfl

/-- The request is made where the blocks of this allocator come from, if it is made at all. -/
lemma allocate_at_run (ext : Addr) (n : Word) :
    (allocatorAt (E.hostOver play) ext).allocate n w = match E.asks w.bindings.heap ext n with
      | none => .ok 0 w
      | some n' => .ok (E.allocate (E.sourceAt w.bindings.heap.addr ext) n' w).addr
          (E.granted (E.sourceAt w.bindings.heap.addr ext) n' w) := by
  by_cases h0 : ext = 0
  · subst h0
    rw [sourceAt, if_pos (.inl rfl), asks, if_pos rfl]
    exact E.heap_allocate_run play w n
  rw [E.allocatorAt_of_ne_zero play h0]
  by_cases hm : (E.externalAt ext).malloc = ExternalAllocator.sample.malloc
  · have hall : ((E.externalAt ext).allocator (E.hostOver play)).allocate n =
        Machine.withoutUnwinding
          (if (E.externalAt ext).token = ExternalAllocator.sampleToken then
            (defaultHeap (E.hostOver play)).allocate n else return 0) := if_pos hm
    have hasks : E.asks w.bindings.heap ext n =
        if (E.externalAt ext).token = ExternalAllocator.sampleToken then
          some (w.bindings.heap.asked n) else none := by
      rw [asks, if_neg h0, if_pos hm]
    rw [sourceAt, if_pos (.inr hm), hall, hasks, withoutUnwinding_apply]
    by_cases ht : (E.externalAt ext).token = ExternalAllocator.sampleToken
    · rw [if_pos ht, if_pos ht, heap_allocate_run]
    · rw [if_neg ht, if_neg ht]
      rfl
  · have hall : ((E.externalAt ext).allocator (E.hostOver play)).allocate n =
        ((E.hostOver play).externalFunctions (E.externalAt ext)).allocate n := if_neg hm
    have hasks : E.asks w.bindings.heap ext n = some n := by
      rw [asks, if_neg h0, if_neg hm]
    rw [sourceAt, if_neg (by rintro (h | h) <;> contradiction), hall, hasks]
    rfl

/-- A request at any allocator is refused before anyone is asked, or it is made for no less. -/
lemma allocate_at_cases (ext : Addr) (n : Word) :
    (allocatorAt (E.hostOver play) ext).allocate n w = .ok 0 w ∨
      ∃ n', n.toNat ≤ n'.toNat ∧ (allocatorAt (E.hostOver play) ext).allocate n w =
        .ok (E.allocate (E.sourceAt w.bindings.heap.addr ext) n' w).addr
          (E.granted (E.sourceAt w.bindings.heap.addr ext) n' w) := by
  rw [allocate_at_run]
  cases hasks : E.asks w.bindings.heap ext n with
  | none => exact .inl rfl
  | some n' => exact .inr ⟨n', E.le_asks hasks, rfl⟩

/-! ### Raw storage -/

variable {E} {w}

/-- What becomes of an allocator's answer. -/
lemma allocateFrom_of_answer {w' : World History} {ext n : Word} {p : Addr}
    (h : (allocatorAt (E.hostOver play) ext).allocate n w = .ok p w')
    (hc : E.Correct w'.bindings.incDec) :
    (Storage.allocateFrom (E.hostOver play) ext n).run w =
      if p = 0 then .ok (.error (.outOfMemory n)) w'
      else .ok (.ok p) { w' with stats := w'.stats.bump .alloc } := by
  rw [Storage.allocateFrom, Attempt.lift_bind_apply, h]
  by_cases h0 : p = 0
  · simp only [if_pos h0]
    rfl
  · simp only [if_neg h0, Attempt.lift_bind_apply, count_run play hc, trace_run,
      Attempt.pure_apply]

/-- A request for storage is refused before anyone is asked, or the allocator fails, or a block is
given out and counted. -/
lemma allocateFrom_cases (hc : E.Correct w.bindings.incDec) (ext : Addr) (n : Word) :
    (Storage.allocateFrom (E.hostOver play) ext n).run w = .ok (.error (.outOfMemory n)) w ∨
      ∃ n', n.toNat ≤ n'.toNat ∧
        ((E.allocate (E.sourceAt w.bindings.heap.addr ext) n' w).addr = 0 ∧
          (Storage.allocateFrom (E.hostOver play) ext n).run w =
            .ok (.error (.outOfMemory n)) (E.granted (E.sourceAt w.bindings.heap.addr ext) n' w) ∨
        (E.allocate (E.sourceAt w.bindings.heap.addr ext) n' w).addr ≠ 0 ∧
          (Storage.allocateFrom (E.hostOver play) ext n).run w =
            .ok (.ok (E.allocate (E.sourceAt w.bindings.heap.addr ext) n' w).addr)
              (E.handed (E.sourceAt w.bindings.heap.addr ext) n' w)) := by
  rcases E.allocate_at_cases play w ext n with h | ⟨n', hn, h⟩
  · refine .inl ?_
    rw [allocateFrom_of_answer play h hc, if_pos rfl]
  · refine .inr ⟨n', hn, ?_⟩
    rw [allocateFrom_of_answer play h hc]
    by_cases h0 : (E.allocate (E.sourceAt w.bindings.heap.addr ext) n' w).addr = 0
    · exact .inl ⟨h0, if_pos h0⟩
    · exact .inr ⟨h0, if_neg h0⟩

/-- The default heap is asked in any case. -/
lemma allocate_run (hc : E.Correct w.bindings.incDec) (n : Word) :
    (Storage.allocate (E.hostOver play) n).run w =
      if (E.allocate (.heap w.bindings.heap.addr) (w.bindings.heap.asked n) w).addr = 0 then
        .ok (.error (.outOfMemory n))
          (E.granted (.heap w.bindings.heap.addr) (w.bindings.heap.asked n) w)
      else
        .ok (.ok (E.allocate (.heap w.bindings.heap.addr) (w.bindings.heap.asked n) w).addr)
          (E.handed (.heap w.bindings.heap.addr) (w.bindings.heap.asked n) w) := by
  have h : (allocatorAt (E.hostOver play) 0).allocate n w = _ := E.heap_allocate_run play w n
  exact allocateFrom_of_answer play h hc

/-- A change of size is not counted. -/
lemma reallocate_run (p : Addr) (n : Word) :
    (Storage.reallocate (E.hostOver play) p n).run w =
      .ok (if (E.reallocate (.heap w.bindings.heap.addr) p (w.bindings.heap.asked n) w).addr = 0
          then .error (.outOfMemory n)
          else .ok (E.reallocate (.heap w.bindings.heap.addr) p (w.bindings.heap.asked n) w).addr)
        (E.regranted (.heap w.bindings.heap.addr) p (w.bindings.heap.asked n) w) := by
  rw [Storage.reallocate, Attempt.lift_bind_apply, heap_reallocate_run]
  by_cases h0 : (E.reallocate (.heap w.bindings.heap.addr) p (w.bindings.heap.asked n) w).addr = 0
  · simp only [if_pos h0]
    rfl
  · simp only [if_neg h0]
    rfl

/-- Null is ignored; everything else goes to the heap that is bound. -/
lemma free_run (hc : E.Correct w.bindings.incDec) (p : Addr) :
    Storage.free (E.hostOver play) p w =
      .ok () (if p = 0 then w else E.handedBack (.heap w.bindings.heap.addr) p w) := by
  rw [Storage.free]
  by_cases h0 : p = 0
  · simp only [h0, ne_eq, not_true_eq_false, if_false, if_true]
    rfl
  · have hc' : E.Correct (E.freed (.heap w.bindings.heap.addr) p w).bindings.incDec := hc
    simp only [h0, ne_eq, not_false_eq_true, if_true, if_false, bind_apply, trace_run,
      heap_free_run, count_run play hc']
    rfl

/-! ### Handles -/

/-- The fields of a header, as the runtime reads them. -/
lemma field_run (b : Handle) (f : Field) :
    Handle.field b f w = .ok ((w.memory.header b).get f) w := by
  rw [Memory.get_header]
  rfl

lemma kind_run (b : Handle) : Handle.kind b w = .ok (w.memory.header b).kind w := rfl

/-- The storage of a handle goes back to the allocator in its header. -/
lemma dealloc_run (hc : E.Correct w.bindings.incDec) {b : Handle} (hb : b ≠ 0) :
    Handle.dealloc (E.hostOver play) b w =
      .ok () (E.handedBack (E.sourceAt w.bindings.heap.addr (w.memory.header b).external) b w) := by
  have hext : Handle.external b w = .ok (w.memory.header b).external w := rfl
  rw [Handle.dealloc, bind_apply, hext]
  simp only [bind_apply, trace_run]
  by_cases h0 : (w.memory.header b).external = 0
  · simp only [h0, ne_eq, not_true_eq_false, if_false, free_run play hc, if_neg hb]
    rfl
  · have hfree := E.free_at_run play w (w.memory.header b).external b
    have hc' : E.Correct (E.freed (E.sourceAt w.bindings.heap.addr (w.memory.header b).external)
      b w).bindings.incDec := hc
    rw [allocatorAt, if_neg h0] at hfree
    simp only [h0, ne_eq, not_false_eq_true, if_true, bind_apply, hfree, count_run play hc']
    rfl

lemma destroy_run (hc : E.Correct w.bindings.incDec) {b : Handle} (hb : b ≠ 0) :
    Handle.destroy (E.hostOver play) b w =
      .ok () (E.destroyed (E.sourceAt w.bindings.heap.addr (w.memory.header b).external) b w) := by
  have hc' : E.Correct (E.handedBack (E.sourceAt w.bindings.heap.addr (w.memory.header b).external)
    b w).bindings.incDec := hc
  rw [Handle.destroy, bind_apply, dealloc_run play hc hb]
  simp only [count_run play hc']
  rfl

/-- The end of a handle: its destructor, unless there is none or the runtime is shutting down, and
then its storage. -/
lemma callDestructor_run (b : Handle) :
    Handle.callDestructor (E.hostOver play) b w =
      (do
        if (w.memory.header b).destructor ≠ 0 ∧ ¬ w.shuttingDown then
          callDestructorAt (E.hostOver play) (w.memory.header b).destructor
            (w.memory.header b).payload (w.memory.header b).size (w.memory.header b).info
        Handle.destroy (E.hostOver play) b) w := by
  simp only [Handle.callDestructor, Handle.payload, Handle.size, Handle.info, bind_apply, trace_run,
    field_run, Header.get]
  by_cases h0 : (w.memory.header b).destructor = 0
  · simp [h0]
  · by_cases hs : w.shuttingDown
    · simp [h0, hs, bind_apply, get_apply]
    · simp [h0, hs, bind_apply, get_apply]

/-- The count in a header is counted up or down in place. -/
lemma addTo_cell_run (b : Handle) (n : Word) :
    addTo (Handle.cell b) n w =
      .ok ((w.memory.header b).refcount + n) (w.withCount b ((w.memory.header b).refcount + n)) :=
  rfl

/-- Taking a reference. -/
lemma acquire_run (hc : E.Correct w.bindings.incDec) (b : Handle) :
    Handle.acquire (E.hostOver play) b w =
      if (w.memory.header b).refcount = 0 then
        .error (.violation (.refcountUnderflow "acquire")) w
      else .ok () (w.withCount b ((w.memory.header b).refcount + 1)) := by
  have hread : Machine.read (Handle.cell b) w = .ok (w.memory.header b).refcount w := rfl
  simp only [Handle.acquire, Handle.checkLive, bind_apply, hread, trace_run]
  by_cases h0 : (w.memory.header b).refcount = 0
  · simp only [if_pos h0, violate, throw_apply]
  · simp only [if_neg h0, pure_apply, increment_run play hc, addTo_cell_run]

/-- Giving up a reference. -/
lemma release_run (hc : E.Correct w.bindings.incDec) (b : Handle) :
    Handle.release (E.hostOver play) b w =
      if (w.memory.header b).refcount = 0 then
        .error (.violation (.refcountUnderflow "release")) w
      else if (w.memory.header b).refcount = 1 then
        Handle.callDestructor (E.hostOver play) b (w.withCount b 0)
      else .ok () (w.withCount b ((w.memory.header b).refcount - 1)) := by
  have hread : Machine.read (Handle.cell b) w = .ok (w.memory.header b).refcount w := rfl
  have hdec := decrement_run play hc (Handle.cell b)
  rw [addTo_cell_run, ← UInt64.sub_eq_add_neg] at hdec
  simp only [Handle.release, Handle.checkLive, bind_apply, hread, trace_run]
  by_cases h0 : (w.memory.header b).refcount = 0
  · simp only [if_pos h0, violate, throw_apply]
  · simp only [if_neg h0, pure_apply, hdec]
    by_cases h1 : (w.memory.header b).refcount = 1
    · rw [h1, if_pos rfl, if_pos (UInt64.sub_self 1), UInt64.sub_self]
    · rw [if_neg h1, if_neg fun h => h1 ((UInt64.sub_eq_iff_eq_add.1 h).trans (UInt64.zero_add 1))]
      rfl

/-- A clone is one reference more. -/
lemma clone_recorded (h : Host History) (r : Ref) :
    (do
      let r' ← Ref.clone h r
      record (.acquired r'.handle)) = (do
      Handle.acquire h r.handle
      record (.acquired r.handle)) := by
  rw [Ref.clone, bind_assoc]
  rfl

end Environment

end CountedHeap
