/-
Resizable buffers

To its callers a resizable handle is a buffer: a payload or none, a size, and a number of
references. This module says what each operation does to a buffer, what the heap is asked for it,
what is counted and what is answered, for every answer that the heap may give; and it shows that
the handles of a run are such buffers at every boundary between two steps, whatever happened
before, and that every operation takes its turn as the buffer says.

* `Buffer`, `BufferOp`, `Buffer.after`, `Buffer.turn`: the model;
* `Ledger.buffer`: the buffer that a handle is, read off the history;
* `Refines`: a handle is its buffer, and stays it with every operation;
* `creation`, `closing`: how a buffer comes into being, or fails to, and how it ends;
* `buffer_refines`: in every run handles are buffers.
-/
import CountedHeap.Proofs.References

namespace CountedHeap

open Memory (AgreeOn Apart)

/-! ### The model -/

/-- What a resizable handle is to its callers: a payload, null if there is none; the size that was
last asked for with success; and how many references there are. -/
structure Buffer where
  data : Addr
  size : Word
  refs : Nat

/-- What callers do with a buffer. -/
inductive BufferOp where
  | alloc (n : Word)
  | realloc (n : Word)
  | free (p : Addr)
  | acquire
  | release

/-- The step that a caller takes. -/
def BufferOp.call (b : Handle) : BufferOp → Call
  | .alloc n => .resizableAlloc b n
  | .realloc n => .resizableRealloc b n
  | .free p => .resizableFree b p
  | .acquire => .acquire b
  | .release => .release b

/-- What can be seen of a step: the answer that the caller gets, everything that is written down,
newest first, and what is counted. -/
structure Turn where
  answer : Answer
  events : List Event
  counted : List Counter

namespace Buffer

/-- The number of references can be counted in a word, and the buffer does not end. -/
def Lasts (B : Buffer) : BufferOp → Prop
  | .acquire => B.refs < 2 ^ 64
  | .release => 1 < B.refs ∧ B.refs < 2 ^ 64
  | _ => True

/-- The buffer after an operation, where `q` is the heap's answer if it was asked for a block. -/
def after (B : Buffer) (q : Addr) : BufferOp → Buffer
  | .alloc n | .realloc n => if q = 0 then B else { B with data := q, size := n }
  | .free p => if p = B.data then { B with data := 0 } else B
  | .acquire => { B with refs := B.refs + 1 }
  | .release => { B with refs := B.refs - 1 }

/-- The heap was asked for a payload, as the event `e` says. -/
def asking (b : Handle) (n : Word) (q : Addr) (e : Event) (counted : List Counter) : Turn :=
  if q = 0 then ⟨.error (.outOfMemory n), [e], []⟩ else ⟨.ok q, [.refilled b q n, e], counted⟩

/-- What is seen of an operation on the buffer of the handle `b` while the heap `o` is bound. A
first payload is a block that is counted; a change of size is not; and a free gives back what it
was told to, and nothing else ever goes. -/
def turn (B : Buffer) (o : HeapObject) (b : Handle) (q : Addr) : BufferOp → Turn
  | .alloc n => asking b n q (.given (.heap o.addr) (o.asked n) q) [.alloc]
  | .realloc n =>
    if B.data = 0 then asking b n q (.given (.heap o.addr) (o.asked n) q) [.alloc]
    else asking b n q (.resized (.heap o.addr) B.data (o.asked n) q) []
  | .free p =>
    if p = 0 then ⟨.ok 0, [.discarded b p], []⟩
    else ⟨.ok 0, [.discarded b p, .takenBack (.heap o.addr) p], [.free]⟩
  | .acquire => ⟨.ok 0, [.acquired b], []⟩
  | .release => ⟨.ok 0, [.released b], []⟩

end Buffer

/-- The buffer that a handle is, as far as it can be seen from outside. -/
def Ledger.buffer (L : Ledger) (b : Handle) : Buffer := ⟨L.data b, L.size b, L.refs b⟩

namespace Ledger

variable (L : Ledger) (b : Handle)

lemma buffer_refill (p : Addr) (n : Word) :
    (L.refill b p n).buffer b = { L.buffer b with data := p, size := n } := by
  simp [buffer, refill]

lemma buffer_discard (q p : Addr) : (L.discard b p).buffer b = (L.buffer b).after q (.free p) := by
  by_cases he : p = L.data b
  · simp [discard, buffer, refill, Buffer.after, he]
  · simp [discard, buffer, refill, Buffer.after, he]

lemma buffer_setRefs (k : Nat) : (L.setRefs b k).buffer b = { L.buffer b with refs := k } := by
  simp [buffer, setRefs]

end Ledger

/-- What is seen of a request for a buffer of `n` bytes, where `q` and `q'` are the heap's answers
to the requests for the payload and the header. A payload without a header goes back. -/
def creation (o : HeapObject) (n : Word) (q q' : Addr) : Turn :=
  if q = 0 then ⟨.error (.outOfMemory n), [.given (.heap o.addr) (o.asked n) q], []⟩
  else if q' = 0 then
    ⟨.error (.outOfMemory headerSize),
      [.takenBack (.heap o.addr) q, .given (.heap o.addr) (o.asked headerSize) q',
        .given (.heap o.addr) (o.asked n) q],
      [.alloc, .free]⟩
  else
    ⟨.ok q',
      [.made q' false q n, .given (.heap o.addr) (o.asked headerSize) q',
        .given (.heap o.addr) (o.asked n) q],
      [.alloc, .alloc, .handleAlloc]⟩

/-- The end of a buffer with the finalizer `f`: unless the runtime is shutting down, the payload is
shown to the finalizer once and given back once, and no panic gets past this; then the header
goes. -/
def closing {σ : Type} (h : Host σ) (b : Handle) (data f : Addr) (shuttingDown : Bool) :
    Machine σ Unit := do
  if data ≠ 0 ∧ ¬ shuttingDown then
    Machine.withoutUnwinding do
      if f ≠ 0 then h.finalizer f data
      Storage.free h data
  (defaultHeap h).free b
  count h .free
  count h .handleFree

/-! ### Turns of a run -/

/-- A step that can be seen as `t` led from one state to another. -/
structure Turn.Seen (t : Turn) (w w' : World History) : Prop where
  events : w'.host = t.events ++ w.host
  stats : w'.stats = t.counted.foldl Stats.bump w.stats
  kept : w'.bindings = w.bindings ∧ w'.shuttingDown = w.shuttingDown ∧
    w'.interned = w.interned ∧ w'.boxes = w.boxes ∧ w'.tracing = w.tracing

/-- The handle `b` became the buffer `B` by a step that can be seen as `t`. Nothing but payload,
size and count is different in its header, and nothing at all in the headers of others. -/
structure Becomes (b : Handle) (B : Buffer) (t : Turn) (w w' : World History) : Prop extends
    t.Seen w w' where
  buffer : (ledger w'.host).buffer b = B
  header : w'.memory.header b =
    { w.memory.header b with refcount := .ofNat B.refs, payload := B.data, size := B.size }
  beside : ∀ c ∈ (ledger w.host).handles, c ≠ b → w'.memory.header c = w.memory.header c

/-- An operation takes its turn as the buffer says, for some answer `q` of the heap. A payload that
is replaced is left to the caller, who may free it. -/
def TakesTurn (h : Host History) (w : World History) (b : Handle) (B : Buffer) (op : BufferOp) :
    Prop :=
  ∃ q w', ((op.call b).perform h).run w = .ok (B.turn w.bindings.heap b q op).answer w' ∧
    Becomes b (B.after q op) (B.turn w.bindings.heap b q op) w w' ∧
    ∀ n, op = .alloc n → q ≠ 0 → B.data ≠ 0 →
      (ledger w'.host).Owned w'.memory B.data ∧
        (ledger w'.host).source B.data = .heap w.bindings.heap.addr

/-- The handle `b` reports what its buffer holds, every operation that the buffer survives takes its
turn, and the release of the only reference ends it. -/
structure Refines (E : Environment) (w : World History) (b : Handle) (B : Buffer) : Prop where
  data : (w.memory.header b).payload = B.data
  size : (w.memory.header b).size = B.size
  step : ∀ depth op, B.Lasts op → (op.call b).Permitted E w → TakesTurn (E.host depth) w b B op
  last : ∀ depth, B.refs = 1 →
    ((BufferOp.release.call b).perform (E.host depth)).run w =
      (Call.silently (closing (E.host depth) b B.data (w.memory.header b).info
        w.shuttingDown)).run ((w.noted (.released b)).withCount b 0)

/-- A request `r` for a buffer of `n` bytes with the finalizer `f` makes one, or fails and leaves
nothing behind, for some answers of the heap. -/
def Creates (h : Host History) (w : World History) (r : Request) (n : Word) (f : Addr) : Prop :=
  ∃ q q' w', ((Call.make r).perform h).run w =
      .ok (creation w.bindings.heap n q q').answer w' ∧
    (creation w.bindings.heap n q q').Seen w w' ∧
    (∀ c ∈ (ledger w.host).handles, w'.memory.header c = w.memory.header c) ∧
    (q ≠ 0 → q' ≠ 0 → (ledger w'.host).buffer q' = ⟨q, n, 1⟩ ∧
      w'.memory.header q' = ⟨1, Adapter.resizable.addr, f, q, n, 0, .resizable⟩)

namespace Environment

variable {E : Environment} {w w' : World History} {b : Handle} {n : Word} {p : Addr}
  (play : (World History → Program) → Machine History Unit)

/-- The header of a live handle is as its buffer says. -/
lemma Steady.header_buffer (hw : E.Steady w) (hb : (ledger w.host).Live b) :
    w.memory.header b =
      { w.memory.header b with
        refcount := .ofNat ((ledger w.host).buffer b).refs
        payload := ((ledger w.host).buffer b).data
        size := ((ledger w.host).buffer b).size } := by
  obtain ⟨hdata, hsize⟩ := hw.sound.reported b hb
  obtain ⟨-, hcount⟩ := hw.refcount hb
  simp only [Ledger.buffer]
  rw [← hdata, ← hsize, ← hcount]

lemma refilled_run_ok {x : Attempt History Addr} (h : x.run w = .ok (.ok p) w') :
    (do let p ← x
        record (.refilled b p n)
        return p : Attempt History Addr).run w = .ok (.ok p) (w'.noted (.refilled b p n)) := by
  rw [Attempt.bind_apply, h]
  rfl

lemma refilled_run_error {x : Attempt History Addr} {e : AllocError}
    (h : x.run w = .ok (.error e) w') :
    (do let p ← x
        record (.refilled b p n)
        return p : Attempt History Addr).run w = .ok (.error e) w' := by
  rw [Attempt.bind_apply, h]

lemma silently_congr {x y : Machine History Unit} (h : x w = y w') :
    (Call.silently x).run w = (Call.silently y).run w' := by
  rw [Call.silently, Call.silently, Attempt.lift_bind_apply, Attempt.lift_bind_apply, h]

/-! ### Requests for a payload -/

section Requests

variable {s : Source} {n' : Word}

/-- A request that the heap refuses changes nothing. -/
lemma granted_becomes (hw : E.Steady w) (hb : (ledger w.host).Live b)
    (h0 : (E.allocate s n' w).addr = 0) (k : List Counter) :
    Becomes b ((ledger w.host).buffer b)
      (Buffer.asking b n (E.allocate s n' w).addr (.given s n' (E.allocate s n' w).addr) k)
      w (E.granted s n' w) := by
  have hheader : ∀ c ∈ (ledger w.host).handles,
      (E.granted s n' w).memory.header c = w.memory.header c := fun c hc =>
    hw.header_granted (.inl hc) s n'
  rw [Buffer.asking, if_pos h0]
  refine ⟨⟨rfl, rfl, rfl, rfl, rfl, rfl, rfl⟩, ?_, ?_, fun c hc _ => hheader c hc⟩
  · simp [granted, Ledger.after, h0]
  · rw [hheader b hb.1]
    exact hw.header_buffer hb

/-- A request that the heap serves makes the new block the payload. -/
lemma handed_becomes (hw : E.Steady w) (hb : (ledger w.host).Live b)
    (h0 : (E.allocate s n' w).addr ≠ 0) :
    Becomes b { (ledger w.host).buffer b with data := (E.allocate s n' w).addr, size := n }
      (Buffer.asking b n (E.allocate s n' w).addr (.given s n' (E.allocate s n' w).addr) [.alloc])
      w (World.noted { E.handed s n' w with
        memory := (E.handed s n' w).memory.withPayload b (E.allocate s n' w).addr n }
        (.refilled b (E.allocate s n' w).addr n)) := by
  have hheader : ∀ c ∈ (ledger w.host).handles,
      (E.handed s n' w).memory.header c = w.memory.header c := fun c hc =>
    hw.header_granted (.inl hc) s n'
  rw [Buffer.asking, if_neg h0]
  refine ⟨⟨rfl, rfl, rfl, rfl, rfl, rfl, rfl⟩, ?_, ?_, fun c hc hne => ?_⟩
  · show ((ledger (E.handed s n' w).host).refill b _ n).buffer b = _
    rw [Steady.ledger_handed h0, Ledger.buffer_refill]
    rfl
  · show ((E.handed s n' w).memory.withPayload b _ n).header b = _
    rw [Memory.header_withPayload _ _ _ (hw.room_le hb.1).2, hheader b hb.1]
    conv_lhs => rw [hw.header_buffer hb]
  · exact (hw.header_withPayload _ hb.1 (.inl hc) hne _ n).trans (hheader c hc)

/-- A change of size that the heap refuses changes nothing. -/
lemma regranted_refused_becomes (hw : E.Steady w) (hb : (ledger w.host).Live b)
    (hp : (ledger w.host).Holds s p) (h0 : (E.reallocate s p n' w).addr = 0) :
    Becomes b ((ledger w.host).buffer b)
      (Buffer.asking b n (E.reallocate s p n' w).addr
        (.resized s p n' (E.reallocate s p n' w).addr) [])
      w (E.regranted s p n' w) := by
  have hheader : ∀ c ∈ (ledger w.host).handles,
      (E.regranted s p n' w).memory.header c = w.memory.header c := fun c hc =>
    hw.header_regranted hp n' (.inr h0) (.inl hc)
  rw [Buffer.asking, if_pos h0]
  refine ⟨⟨rfl, rfl, rfl, rfl, rfl, rfl, rfl⟩, ?_, ?_, fun c hc _ => hheader c hc⟩
  · simp [regranted, Ledger.after, h0]
  · rw [hheader b hb.1]
    exact hw.header_buffer hb

/-- A change of size that the heap makes is one of the payload. -/
lemma regranted_becomes (hw : E.Steady w) (hb : (ledger w.host).Live b)
    (hp : (ledger w.host).Holds s p) (hnot : p ∉ (ledger w.host).handles)
    (h0 : (E.reallocate s p n' w).addr ≠ 0) :
    Becomes b { (ledger w.host).buffer b with data := (E.reallocate s p n' w).addr, size := n }
      (Buffer.asking b n (E.reallocate s p n' w).addr
        (.resized s p n' (E.reallocate s p n' w).addr) [])
      w (World.noted { E.regranted s p n' w with
        memory := (E.regranted s p n' w).memory.withPayload b (E.reallocate s p n' w).addr n }
        (.refilled b (E.reallocate s p n' w).addr n)) := by
  have hheader : ∀ c ∈ (ledger w.host).handles,
      (E.regranted s p n' w).memory.header c = w.memory.header c := fun c hc =>
    hw.header_regranted hp n' (.inl hnot) (.inl hc)
  rw [Buffer.asking, if_neg h0]
  refine ⟨⟨rfl, rfl, rfl, rfl, rfl, rfl, rfl⟩, ?_, ?_, fun c hc hne => ?_⟩
  · show ((ledger (E.regranted s p n' w).host).refill b _ n).buffer b = _
    rw [Steady.ledger_regranted h0, Ledger.buffer_refill]
    rfl
  · show ((E.regranted s p n' w).memory.withPayload b _ n).header b = _
    rw [Memory.header_withPayload _ _ _ (hw.room_le hb.1).2, hheader b hb.1]
    conv_lhs => rw [hw.header_buffer hb]
  · exact (hw.header_withPayload _ hb.1 (.inl hc) hne _ n).trans (hheader c hc)

/-- A payload that is replaced is its caller's, who can free it. -/
lemma replaced_owned (hw : E.Steady w) (hb : (ledger w.host).Live b)
    (hk : (w.memory.header b).kind = .resizable) (hp : (w.memory.header b).payload = p)
    (hp0 : p ≠ 0) {q : Addr} (hq : q ∉ (ledger w.host).blocks) {t : Turn} {B : Buffer}
    (hB : B.data = q) (hL : ledger w'.host = ((ledger w.host).grant s n' q).refill b q n)
    (hw' : Becomes b B t w w') :
    (ledger w'.host).Owned w'.memory p ∧
      (ledger w'.host).source p = .heap w.bindings.heap.addr := by
  obtain ⟨⟨hout, hsource⟩, hnot, hother⟩ := hw.payload hb.1 hk (hp.symm ▸ hp0)
  rw [hp] at hout hsource hnot hother
  have hne : p ≠ q := fun he => hq (he ▸ hout)
  have hblocks : p ∈ (ledger w'.host).blocks := by
    rw [hL]
    exact Finset.mem_insert_of_mem hout
  have hhandles : (ledger w'.host).handles = (ledger w.host).handles := by
    rw [hL]
    rfl
  have hsource' : (ledger w'.host).source p = .heap w.bindings.heap.addr := by
    rw [hL]
    exact (Function.update_of_ne hne _ _).trans hsource
  refine ⟨⟨hblocks, hhandles ▸ hnot, fun c hc hkc => ?_⟩, hsource'⟩
  rw [hhandles] at hc
  by_cases he : c = b
  · have hnew : (w'.memory.header c).payload = B.data := by rw [he, hw'.header]
    rw [hnew, hB]
    exact hne.symm
  · rw [hw'.beside c hc he] at hkc ⊢
    exact hother c hc he hkc

end Requests

/-! ### The operations -/

section Operations

/-- A payload that is asked for like any other block. -/
lemma asked_takesTurn (hw : E.Steady w) (hb : (ledger w.host).Live b)
    (hk : (w.memory.header b).kind = .resizable) {x : Attempt History Addr} {s : Source} {n' : Word}
    (hx : x.run w =
      if (E.allocate s n' w).addr = 0 then .ok (.error (.outOfMemory n)) (E.granted s n' w)
      else .ok (.ok (E.allocate s n' w).addr) { E.handed s n' w with
        memory := (E.handed s n' w).memory.withPayload b (E.allocate s n' w).addr n }) :
    ∃ w', (do let p ← x
              record (.refilled b p n)
              return p : Attempt History Addr).run w =
        .ok (Buffer.asking b n (E.allocate s n' w).addr
          (.given s n' (E.allocate s n' w).addr) [.alloc]).answer w' ∧
      Becomes b (((ledger w.host).buffer b).after (E.allocate s n' w).addr (.alloc n))
        (Buffer.asking b n (E.allocate s n' w).addr
          (.given s n' (E.allocate s n' w).addr) [.alloc]) w w' ∧
      ((E.allocate s n' w).addr ≠ 0 → ((ledger w.host).buffer b).data ≠ 0 →
        (ledger w'.host).Owned w'.memory ((ledger w.host).buffer b).data ∧
          (ledger w'.host).source ((ledger w.host).buffer b).data =
            .heap w.bindings.heap.addr) := by
  by_cases h0 : (E.allocate s n' w).addr = 0
  · rw [if_pos h0] at hx
    have hbecomes := granted_becomes (n := n) hw hb h0 [.alloc]
    rw [Buffer.after, if_pos h0]
    refine ⟨E.granted s n' w, ?_, hbecomes, fun hne => absurd h0 hne⟩
    rw [Buffer.asking, if_pos h0]
    exact refilled_run_error hx
  · rw [if_neg h0] at hx
    have hbecomes := handed_becomes (n := n) hw hb h0
    rw [Buffer.after, if_neg h0]
    refine ⟨_, ?_, hbecomes, fun _ hdata => ?_⟩
    · rw [Buffer.asking, if_neg h0]
      exact refilled_run_ok hx
    · have hL := congrArg (fun L => L.refill b (E.allocate s n' w).addr n)
        (Steady.ledger_handed h0)
      exact replaced_owned hw hb hk (hw.sound.reported b hb).1 hdata
        ((E.allocate_fresh s n' w h0).not_mem hw.sound.laid) rfl hL hbecomes

/-- A payload that is resized. -/
lemma resized_takesTurn (hw : E.Steady w) (hb : (ledger w.host).Live b)
    {x : Attempt History Addr} {s : Source} {n' : Word} (hp : (ledger w.host).Holds s p)
    (hnot : p ∉ (ledger w.host).handles)
    (hx : x.run w =
      if (E.reallocate s p n' w).addr = 0 then
        .ok (.error (.outOfMemory n)) (E.regranted s p n' w)
      else .ok (.ok (E.reallocate s p n' w).addr) { E.regranted s p n' w with
        memory := (E.regranted s p n' w).memory.withPayload b (E.reallocate s p n' w).addr n }) :
    ∃ w', (do let p ← x
              record (.refilled b p n)
              return p : Attempt History Addr).run w =
        .ok (Buffer.asking b n (E.reallocate s p n' w).addr
          (.resized s p n' (E.reallocate s p n' w).addr) []).answer w' ∧
      Becomes b (((ledger w.host).buffer b).after (E.reallocate s p n' w).addr (.realloc n))
        (Buffer.asking b n (E.reallocate s p n' w).addr
          (.resized s p n' (E.reallocate s p n' w).addr) []) w w' := by
  by_cases h0 : (E.reallocate s p n' w).addr = 0
  · rw [if_pos h0] at hx
    have hbecomes := regranted_refused_becomes (n := n) hw hb hp h0
    rw [Buffer.after, if_pos h0]
    refine ⟨E.regranted s p n' w, ?_, hbecomes⟩
    rw [Buffer.asking, if_pos h0]
    exact refilled_run_error hx
  · rw [if_neg h0] at hx
    have hbecomes := regranted_becomes (n := n) hw hb hp hnot h0
    rw [Buffer.after, if_neg h0]
    refine ⟨_, ?_, hbecomes⟩
    rw [Buffer.asking, if_neg h0]
    exact refilled_run_ok hx

lemma alloc_takesTurn (hw : E.Steady w) (hb : (ledger w.host).Live b)
    (hk : (w.memory.header b).kind = .resizable) (n : Word) :
    TakesTurn (E.hostOver play) w b ((ledger w.host).buffer b) (.alloc n) := by
  obtain ⟨w', hrun, hbecomes, howned⟩ :=
    asked_takesTurn hw hb hk (resizableAlloc_run play hw.sound.correct hk n)
  exact ⟨_, w', hrun, hbecomes, fun _ _ => howned⟩

/-- A handle without a payload gets one, and one that has a payload gets it resized. What the heap
answers depends on the size only that it is asked for. -/
lemma realloc_turns (hw : E.Steady w) (hb : (ledger w.host).Live b)
    (hk : (w.memory.header b).kind = .resizable) : ∃ answer : Word → Addr, ∀ n, ∃ w',
      ((Call.resizableRealloc b n).perform (E.hostOver play)).run w =
        .ok (((ledger w.host).buffer b).turn w.bindings.heap b (answer (w.bindings.heap.asked n))
          (.realloc n)).answer w' ∧
      Becomes b (((ledger w.host).buffer b).after (answer (w.bindings.heap.asked n)) (.realloc n))
        (((ledger w.host).buffer b).turn w.bindings.heap b (answer (w.bindings.heap.asked n))
          (.realloc n)) w w' := by
  have hdata : (w.memory.header b).payload = ((ledger w.host).buffer b).data :=
    (hw.sound.reported b hb).1
  have hrun := resizableRealloc_run play hw.sound.correct hk
  simp only [hdata] at hrun
  by_cases hp : ((ledger w.host).buffer b).data = 0
  · have hturn : ∀ n q, ((ledger w.host).buffer b).turn w.bindings.heap b q (.realloc n) =
        Buffer.asking b n q (.given (.heap w.bindings.heap.addr) (w.bindings.heap.asked n) q)
          [.alloc] := fun _ _ => if_pos hp
    refine ⟨fun n' => (E.allocate (.heap w.bindings.heap.addr) n' w).addr, fun n => ?_⟩
    have hrun' := hrun n
    rw [if_pos hp] at hrun'
    obtain ⟨w', hend, hbecomes, -⟩ := asked_takesTurn hw hb hk hrun'
    rw [← hturn] at hend hbecomes
    exact ⟨w', hend, hbecomes⟩
  · have hturn : ∀ n q, ((ledger w.host).buffer b).turn w.bindings.heap b q (.realloc n) =
        Buffer.asking b n q (.resized (.heap w.bindings.heap.addr) ((ledger w.host).buffer b).data
          (w.bindings.heap.asked n) q) [] := fun _ _ => if_neg hp
    obtain ⟨hholds, hnot, -⟩ := hw.payload hb.1 hk (hdata ▸ hp)
    rw [hdata] at hholds hnot
    refine ⟨fun n' => (E.reallocate (.heap w.bindings.heap.addr) ((ledger w.host).buffer b).data
      n' w).addr, fun n => ?_⟩
    have hrun' := hrun n
    rw [if_neg hp] at hrun'
    obtain ⟨w', hend, hbecomes⟩ := resized_takesTurn hw hb hholds hnot hrun'
    rw [← hturn] at hend hbecomes
    exact ⟨w', hend, hbecomes⟩

lemma realloc_takesTurn (hw : E.Steady w) (hb : (ledger w.host).Live b)
    (hk : (w.memory.header b).kind = .resizable) (n : Word) :
    TakesTurn (E.hostOver play) w b ((ledger w.host).buffer b) (.realloc n) := by
  obtain ⟨answer, hanswer⟩ := realloc_turns play hw hb hk
  obtain ⟨w', hrun, hbecomes⟩ := hanswer n
  exact ⟨_, w', hrun, hbecomes, nofun⟩

/-- Once a block was freed through a handle, the handle reports what its buffer holds. -/
lemma discarded_becomes (hw : E.Steady w) (hb : (ledger w.host).Live b) (v : World History)
    (q p : Addr)
    {es : List Event} {ks : List Counter} (hseen : Turn.Seen ⟨.ok 0, es, ks⟩ w v)
    (hbuffer : (ledger v.host).buffer b = (ledger w.host).buffer b)
    (hheader : ∀ c ∈ (ledger w.host).handles, v.memory.header c = w.memory.header c) :
    Becomes b (((ledger w.host).buffer b).after q (.free p)) ⟨.ok 0, .discarded b p :: es, ks⟩ w
      (World.noted (if p = (v.memory.header b).payload then
        { v with memory := v.memory.setWord (b + Field.payload.offset) 0 } else v)
        (.discarded b p)) := by
  obtain ⟨hevents, hstats, hkept⟩ := hseen
  have hdata : (w.memory.header b).payload = ((ledger w.host).buffer b).data :=
    (hw.sound.reported b hb).1
  have hself := hw.header_buffer hb
  have hledger : ((ledger v.host).discard b p).buffer b =
      ((ledger w.host).buffer b).after q (.free p) := by
    rw [Ledger.buffer_discard, hbuffer]
  rw [hheader b hb.1]
  by_cases he : p = (w.memory.header b).payload
  · rw [if_pos he]
    refine ⟨⟨congrArg (_ :: ·) hevents, hstats, hkept⟩, hledger, ?_, fun c hc hne => ?_⟩
    · rw [Buffer.after, if_pos (he.trans hdata)]
      show (v.memory.setWord (b + Field.payload.offset) 0).header b = _
      rw [Memory.header_setField _ .payload 0 (hw.room_le hb.1).2, hheader b hb.1]
      conv_lhs => rw [hself]
      rfl
    · exact (hw.header_setField_of_ne v.memory hb.1 (.inl hc) hne .payload 0).trans (hheader c hc)
  · rw [if_neg he]
    refine ⟨⟨congrArg (_ :: ·) hevents, hstats, hkept⟩, hledger, ?_, fun c hc _ => hheader c hc⟩
    rw [Buffer.after, if_neg fun h => he (h.trans hdata.symm)]
    exact (hheader b hb.1).trans hself

/-- What is freed goes back once, and if it was the payload, the handle has none any more. -/
lemma free_takesTurn (hw : E.Steady w) (hb : (ledger w.host).Live b)
    (hk : (w.memory.header b).kind = .resizable)
    (hp : p = 0 ∨ (w.memory.header b).kind = .resizable ∧ p = (w.memory.header b).payload ∨
      (ledger w.host).Owned w.memory p ∧
        (ledger w.host).source p = .heap w.bindings.heap.addr) :
    TakesTurn (E.hostOver play) w b ((ledger w.host).buffer b) (.free p) := by
  have hrun := resizableFree_run play hw.sound.correct (b := b) p
  simp only at hrun
  by_cases h0 : p = 0
  · have hturn : ((ledger w.host).buffer b).turn w.bindings.heap b 0 (.free p) =
        ⟨.ok 0, [.discarded b p], []⟩ := if_pos h0
    rw [if_pos h0] at hrun
    have hseen : Turn.Seen ⟨.ok 0, [], []⟩ w w := ⟨rfl, rfl, rfl, rfl, rfl, rfl, rfl⟩
    have hbecomes := discarded_becomes hw hb w 0 p hseen rfl fun _ _ => rfl
    rw [← hturn] at hbecomes
    refine ⟨0, _, ?_, hbecomes, nofun⟩
    rw [hturn]
    refine Call.silently_run ?_
    rw [Machine.bind_apply, hrun]
    rfl
  · have hturn : ((ledger w.host).buffer b).turn w.bindings.heap b 0 (.free p) =
        ⟨.ok 0, [.discarded b p, .takenBack (.heap w.bindings.heap.addr) p], [.free]⟩ := if_neg h0
    have hheld : (ledger w.host).Holds (.heap w.bindings.heap.addr) p ∧
        p ∉ (ledger w.host).handles := by
      rcases hp.resolve_left h0 with ⟨-, he⟩ | ⟨howned, hs⟩
      · have hpay := hw.payload hb.1 hk (he ▸ h0)
        exact ⟨he ▸ hpay.1, he ▸ hpay.2.1⟩
      · exact ⟨⟨howned.1, hs⟩, howned.2.1⟩
    have hheader : ∀ c ∈ (ledger w.host).handles,
        (E.handedBack (.heap w.bindings.heap.addr) p w).memory.header c = w.memory.header c :=
      fun c hc => hw.header_freed hheld.1 (.inl hc) fun he => hheld.2 (he ▸ hc)
    rw [if_neg h0] at hrun
    have hseen : Turn.Seen ⟨.ok 0, [.takenBack (.heap w.bindings.heap.addr) p], [.free]⟩ w
        (E.handedBack (.heap w.bindings.heap.addr) p w) := ⟨rfl, rfl, rfl, rfl, rfl, rfl, rfl⟩
    have hbecomes := discarded_becomes hw hb _ 0 p hseen rfl hheader
    rw [← hturn] at hbecomes
    refine ⟨0, _, ?_, hbecomes, nofun⟩
    rw [hturn]
    refine Call.silently_run ?_
    rw [Machine.bind_apply, hrun]
    rfl

/-- The references to a handle change, and its payload stays. -/
lemma recount_becomes (hw : E.Steady w) (hb : (ledger w.host).Live b) (k : Nat) {e : Event}
    (he : (ledger w.host).after e = (ledger w.host).setRefs b k) :
    Becomes b { (ledger w.host).buffer b with refs := k } ⟨.ok 0, [e], []⟩ w
      ((w.withCount b (UInt64.ofNat k)).noted e) := by
  refine ⟨⟨rfl, rfl, rfl, rfl, rfl, rfl, rfl⟩, ?_, ?_, fun c hc hne => ?_⟩
  · show ((ledger w.host).after e).buffer b = _
    rw [he, Ledger.buffer_setRefs]
  · show (w.memory.setWord (b + Field.refcount.offset) (UInt64.ofNat k)).header b = _
    rw [Memory.header_setField _ .refcount _ (hw.room_le hb.1).2]
    conv_lhs => rw [hw.header_buffer hb]
    rfl
  · exact hw.header_setField_of_ne w.memory hb.1 (.inl hc) hne .refcount (UInt64.ofNat k)

lemma acquire_takesTurn (hw : E.Steady w) (hb : (ledger w.host).Live b)
    (hlasts : ((ledger w.host).buffer b).Lasts .acquire) :
    TakesTurn (E.hostOver play) w b ((ledger w.host).buffer b) .acquire := by
  have hlt : (ledger w.host).refs b < 2 ^ 64 := hlasts
  have hs : UInt64.size = 2 ^ 64 := rfl
  have hne : (w.memory.header b).refcount ≠ 0 := fun h => by
    have hfull := (hw.refcount_eq_zero_iff hb).1 h
    omega
  have hcount : (w.memory.header b).refcount + 1 = UInt64.ofNat ((ledger w.host).refs b + 1) := by
    rw [(hw.refcount hb).2, UInt64.ofNat_add]
    rfl
  have hrun := acquire_run play hw.sound.correct b
  rw [if_neg hne, hcount] at hrun
  refine ⟨0, _, Call.silently_run ?_, recount_becomes hw hb _ rfl, nofun⟩
  rw [Machine.bind_apply, hrun]
  rfl

/-- A reference is given up that is not the only one. -/
lemma release_takesTurn (hw : E.Steady w) (hb : (ledger w.host).Live b)
    (hlasts : ((ledger w.host).buffer b).Lasts .release) :
    TakesTurn (E.hostOver play) w b ((ledger w.host).buffer b) .release := by
  have hlt : 1 < (ledger w.host).refs b ∧ (ledger w.host).refs b < 2 ^ 64 := hlasts
  have hs : UInt64.size = 2 ^ 64 := rfl
  have hne : (w.memory.header b).refcount ≠ 0 := fun h => by
    have hfull := (hw.refcount_eq_zero_iff hb).1 h
    omega
  have hrun := hw.release_shared play hb (by omega)
  rw [if_neg hne, World.noted_withCount] at hrun
  refine ⟨0, _, Call.silently_run ?_, recount_becomes hw hb _ rfl, nofun⟩
  rw [Machine.bind_apply, record_run]
  exact hrun

end Operations

/-! ### Creation -/

section Creation

variable {play} {r : Request}

lemma made_run_ok (h : (r.make (E.hostOver play)).run w = .ok (.ok b) w') :
    ((Call.make r).perform (E.hostOver play)).run w =
      .ok (.ok b) (w'.noted (.madeIn w'.memory b r.combined)) := by
  rw [Call.perform, Attempt.bind_apply, h]
  rfl

lemma made_run_error {e : AllocError} (h : (r.make (E.hostOver play)).run w = .ok (.error e) w') :
    ((Call.make r).perform (E.hostOver play)).run w = .ok (.error e) w' := by
  rw [Call.perform, Attempt.bind_apply, h]

variable {s : Source}

/-- A request that is answered makes no handle yet. -/
lemma Steady.handles_handed {m : Word} (h0 : (E.allocate s m w).addr ≠ 0) :
    (ledger (E.handed s m w).host).handles = (ledger w.host).handles := by
  rw [Steady.ledger_handed h0]
  rfl

lemma Steady.handles_granted_null {m : Word} (h0 : (E.allocate s m w).addr = 0) :
    (ledger (E.granted s m w).host).handles = (ledger w.host).handles := by
  simp [granted, Ledger.after, h0]

/-- A payload that was handed out goes back when there is no block for the header, and no handle
changes. -/
lemma Steady.header_unmade (hw : E.Steady w) {m m' : Word}
    (hheap : ∀ a, s = .heap a → a = w.bindings.heap.addr) (h0 : (E.allocate s m w).addr ≠ 0)
    (h1 : (E.allocate s m' (E.handed s m w)).addr = 0)
    {c : Handle} (hc : c ∈ (ledger w.host).handles) :
    (E.handedBack s (E.allocate s m w).addr (E.granted s m' (E.handed s m w))).memory.header c =
      w.memory.header c := by
  have hw₁ := (hw.handed h0 hheap).1
  have hw₂ := (hw₁.granted_null h1).1
  have hc₁ : c ∈ (ledger (E.handed s m w).host).handles := Steady.handles_handed h0 ▸ hc
  have hc₂ : c ∈ (ledger (E.granted s m' (E.handed s m w)).host).handles :=
    Steady.handles_granted_null h1 ▸ hc₁
  obtain ⟨howned, -, hs⟩ := hw.owned_handed h0
  obtain ⟨howned', hs'⟩ := hw₁.owned_of_granted_null h1 howned
  calc _ = (E.granted s m' (E.handed s m w)).memory.header c :=
        hw₂.header_freed ⟨howned'.1, hs'.trans hs⟩ (.inl hc₂) fun he => howned'.2.1 (he ▸ hc₂)
    _ = (E.handed s m w).memory.header c := hw₁.header_granted (.inl hc₁) s m'
    _ = w.memory.header c := hw.header_granted (.inl hc) s m

/-- A block that was handed out has room for a header, which is then the header there, and no
handle changes. -/
lemma Steady.header_laid (hw : E.Steady w) {m : Word}
    (hheap : ∀ a, s = .heap a → a = w.bindings.heap.addr) (h0 : (E.allocate s m w).addr ≠ 0)
    (hm : 56 ≤ m.toNat) (d : Header) :
    let b := (E.allocate s m w).addr
    let laid := (E.handed s m w).memory.write b d.bytes
    laid.header b = d ∧ ∀ c ∈ (ledger w.host).handles, laid.header c = w.memory.header c := by
  intro b laid
  have hw₁ := (hw.handed h0 hheap).1
  obtain ⟨howned, hroom, -⟩ := hw.owned_handed h0
  have hroom' : 56 ≤ (ledger (E.handed s m w).host).room b :=
    hroom ▸ hm.trans (le_max_left _ _)
  have hfit := (hw₁.sound.laid.fits b howned.1).2.2
  refine ⟨Memory.header_write _ d (by omega), fun c hc => ?_⟩
  have hc₁ : c ∈ (ledger (E.handed s m w).host).handles := Steady.handles_handed h0 ▸ hc
  exact (hw₁.header_write_of_owned howned hroom' (.inl hc₁) d).trans
    (hw.header_granted (.inl hc) s m)

end Creation

lemma newResizableWith_creates (hw : E.Steady w) (n : Word) (f : Addr) :
    Creates (E.hostOver play) w (.newResizableWith n f) n f := by
  have hrun := newResizableWith_run play hw.sound.correct n f
  simp only at hrun
  set s := Source.heap w.bindings.heap.addr
  set n₁ := w.bindings.heap.asked n
  set n₂ := w.bindings.heap.asked headerSize
  set q := (E.allocate s n₁ w).addr
  set w₁ := E.handed s n₁ w
  set q' := (E.allocate s n₂ w₁).addr
  have hheap : ∀ a, s = .heap a → a = w.bindings.heap.addr := fun a ha => (Source.heap.inj ha).symm
  refine ⟨q, q', ?_⟩
  by_cases h0 : q = 0
  · rw [if_pos h0] at hrun
    rw [creation, if_pos h0]
    exact ⟨_, made_run_error hrun, ⟨rfl, rfl, rfl, rfl, rfl, rfl, rfl⟩,
      fun c hc => hw.header_granted (.inl hc) s n₁, fun hne => absurd h0 hne⟩
  rw [if_neg h0] at hrun
  by_cases hq' : q' = 0
  · rw [if_pos hq'] at hrun
    rw [creation, if_neg h0, if_pos hq']
    exact ⟨_, made_run_error hrun, ⟨rfl, rfl, rfl, rfl, rfl, rfl, rfl⟩,
      fun c hc => hw.header_unmade hheap h0 hq' hc, fun _ hne => absurd hq' hne⟩
  · rw [if_neg hq'] at hrun
    rw [creation, if_neg h0, if_neg hq']
    set d : Header := ⟨1, Adapter.resizable.addr, f, q, n, 0, .resizable⟩
    obtain ⟨hself, hothers⟩ := (hw.handed h0 hheap).1.header_laid hheap hq'
      (HeapObject.le_asked w.bindings.heap headerSize) d
    have hmade : Event.madeIn ((E.handed s n₂ w₁).memory.write q' d.bytes) q' false =
        .made q' false q n := by
      rw [Event.madeIn, hself]
    have hrun' := made_run_ok (r := .newResizableWith n f) hrun
    rw [show (Request.newResizableWith n f).combined = false from rfl, hmade] at hrun'
    refine ⟨_, hrun', ⟨rfl, rfl, rfl, rfl, rfl, rfl, rfl⟩, fun c hc => ?_,
      fun _ _ => ⟨?_, hself⟩⟩
    · have hc₁ : c ∈ (ledger w₁.host).handles := Steady.handles_handed h0 ▸ hc
      exact (hothers c hc₁).trans (hw.header_granted (.inl hc) s n₁)
    · show ((ledger (E.handed s n₂ w₁).host).make q' false q n).buffer q' = _
      simp [Ledger.buffer, Ledger.make]

/-! ### The end -/

/-- The end of a resizable handle is that of its buffer. -/
lemma finish_eq_closing {d : Header} (hd : d.destructor = Adapter.resizable.addr)
    (hext : d.external = 0) (shuttingDown : Bool) :
    finish (E.hostOver play) b d shuttingDown w =
      closing (E.hostOver play) b d.payload d.info shuttingDown w := by
  have hne : d.destructor ≠ 0 := by
    rw [hd]
    exact Adapter.addr_ne_zero _
  have hcall : callDestructorAt (E.hostOver play) d.destructor d.payload d.size d.info =
      Machine.withoutUnwinding
        (Adapter.run (E.hostOver play) .resizable d.payload d.size d.info) := by
    rw [callDestructorAt, hd, Adapter.ofAddr?_addr]
  have hheap : allocatorAt (E.hostOver play) d.external = defaultHeap (E.hostOver play) := by
    rw [hext]
    rfl
  rw [finish, closing, hcall, hheap]
  by_cases hs : shuttingDown = true
  · rw [if_neg (by simp [hs]), if_neg (by simp [hs])]
  rw [if_pos ⟨hne, hs⟩]
  by_cases h0 : d.payload = 0
  · have hrun : Adapter.run (E.hostOver play) .resizable d.payload d.size d.info w = .ok () w := by
      simp only [Adapter.run, Machine.bind_apply, trace_run, if_neg (not_not.2 h0)]
      rfl
    rw [if_neg (by simp [h0]), Machine.bind_apply, Machine.withoutUnwinding_eq_ok.2 hrun]
  rw [if_pos ⟨h0, hs⟩, Machine.bind_apply, Machine.bind_apply, Machine.withoutUnwinding_apply,
    Machine.withoutUnwinding_apply]
  have hrun : Adapter.run (E.hostOver play) .resizable d.payload d.size d.info w =
      (do
        if d.info ≠ 0 then (E.hostOver play).finalizer d.info d.payload
        Storage.free (E.hostOver play) d.payload) w := by
    simp only [Adapter.run, Machine.bind_apply, trace_run, if_pos h0]
  rw [hrun]

/-! ### Every buffer -/

/-- A live resizable handle is its buffer. -/
lemma Steady.refines (hw : E.Steady w) (hm : Marked w) (hb : (ledger w.host).Live b)
    (hk : (w.memory.header b).kind = .resizable) : Refines E w b ((ledger w.host).buffer b) := by
  obtain ⟨hdata, hsize⟩ := hw.sound.reported b hb
  refine ⟨hdata, hsize, fun depth op hlasts hop => ?_, fun depth hone => ?_⟩
  · obtain ⟨play, hhost, -⟩ := E.obeys_host depth
    rw [hhost]
    cases op with
    | alloc n => exact alloc_takesTurn play hw hb hk n
    | realloc n => exact realloc_takesTurn play hw hb hk n
    | free p => exact free_takesTurn play hw hb hk hop.2
    | acquire => exact acquire_takesTurn play hw hb hlasts
    | release => exact release_takesTurn play hw hb hlasts
  · obtain ⟨play, hhost, hplay⟩ := E.obeys_host depth
    rw [hhost]
    have hs := hw.sound.headed.header b hb.1
    have hend := release_eq_finish hplay hw hm ⟨hb.1, hone⟩
    rw [finish_eq_closing play (hs.adapter.2 hk) (hs.exchange hk).2.1, hdata] at hend
    refine silently_congr ?_
    rw [Machine.bind_apply, record_run]
    exact hend

end Environment

/-- **Resizable handles are buffers.** At every boundary between two steps of every run, those
inside destructors included: a request for a resizable handle makes a buffer of the size that was
asked for, or fails and leaves nothing behind; and every live resizable handle is the buffer that
its history says, for every operation that its callers may go on with and whatever the heap
answers to it. -/
theorem buffer_refines (E : Environment) (depth : Nat) (p : Program) (w : World History) :
    Throughout (fun e past => ∀ s, e = .boundary s →
      (∀ depth' n f, Creates (E.host depth') (s.resume past) (.newResizableWith n f) n f ∧
        Creates (E.host depth') (s.resume past) (.newResizable n) n 0) ∧
      ∀ b, (ledger past).Live b → (s.memory.header b).kind = .resizable →
        Refines E (s.resume past) b ((ledger past).buffer b))
      (E.history depth p w) := by
  intro e past hsuffix s he
  subst he
  obtain ⟨hw, hm⟩ := Environment.steady_of_boundary ((E.lawful_history depth p w).suffix hsuffix)
  refine ⟨fun depth' n f => ?_, fun b hb hk => hw.refines hm hb hk⟩
  obtain ⟨play, hhost, -⟩ := E.obeys_host depth'
  rw [hhost]
  exact ⟨E.newResizableWith_creates play hw n f, E.newResizableWith_creates play hw n 0⟩

end CountedHeap
