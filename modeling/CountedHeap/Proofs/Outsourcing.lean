/-
Asking through the sample allocator

The sample allocator passes every request on to the default heap. So whoever asks it for a block
asks the default heap, and whoever asks for a handle gets the same handle, with another word in its
header. Here two hosts are compared that serve twins alike, while of two callers the second asks the
sample allocator wherever he likes.

* `Call.Outsourced`, `Program.Outsourced`: the same steps, some of them by way of the sample
  allocator;
* `Environment.Mirrors`: two hosts that twins cannot tell apart;
* `Environment.Mirrors.allocateFrom_paired`: requests for storage;
* `Environment.Mirrors.make_paired`: requests for handles;
* `Environment.Mirrors.resizableAlloc_paired` and its kin: requests for another payload.
-/
import CountedHeap.Proofs.Twins
import CountedHeap.Proofs.Poisoning
import CountedHeap.Proofs.Swapping

namespace CountedHeap

open Memory (Apart range mem_range)

/-! ### Steps -/

/-- Two requests for the same: the second may go by way of the sample allocator where the first one
asks the default heap. -/
inductive Request.Outsourced : Request → Request → Prop
  | same (r : Request) : Outsourced r r
  | alloc (size : Word) :
      Outsourced (.alloc size) (.allocExternal size ExternalAllocator.sampleAddr)
  | allocSafeAligned (size align : Word) : Outsourced (.allocSafeAligned size align)
      (.allocSafeAlignedExternal size align ExternalAllocator.sampleAddr)

/-- The same for steps. -/
inductive Call.Outsourced : Call → Call → Prop
  | same (c : Call) : Outsourced c c
  | allocate (size : Word) :
      Outsourced (.allocateFrom 0 size) (.allocateFrom ExternalAllocator.sampleAddr size)
  | make {r r' : Request} (hr : r.Outsourced r') : Outsourced (.make r) (.make r')

/-- Two programs that take the same steps, some of which the second takes by way of the sample
allocator. What they do next may depend on all that they see, but neither on the allocators that
headers name nor on bytes that nobody wrote. -/
inductive Program.Outsourced (V : Vouched) : Program → Program → Prop
  | done : Outsourced V .done .done
  | panic (message : Option String) : Outsourced V (.panic message) (.panic message)
  | step {c c' : Call} {next next' : Answer → World History → Program} (hc : c.Outsourced c')
      (hnext : ∀ a w v, Twins V w v → Outsourced V (next a w) (next' a v)) :
      Outsourced V (.step c next) (.step c' next')

/-- Two orders for the same, where the second may go to the sample allocator. -/
structure Order.Outsourced (d d' : Order) : Prop where
  size : d'.size = d.size
  align? : d'.align? = d.align?
  poisoned : d'.poisoned = d.poisoned
  destructor : d'.destructor = d.destructor
  info : d'.info = d.info
  ext : Sampled d.ext d'.ext

namespace Order.Outsourced

variable {d d' : Order} (h : d.Outsourced d')
include h

/-- As many bytes are asked for. -/
lemma total : d'.total = d.total := by
  rw [Order.total, Order.overhead, h.size, h.align?]
  rfl

lemma overflow : d'.overflow = d.overflow := by
  rw [Order.overflow, Order.overhead, h.size, h.align?]
  rfl

/-- The payload comes to the same place. -/
lemma place (p : Addr) : d'.place p = d.place p := by
  rw [Order.place, h.align?]
  rfl

/-- The headers will say the same, except perhaps of their allocator. -/
lemma header (p : Addr) : (d.header p).Sampled (d'.header p) := by
  refine ⟨?_, h.ext⟩
  rw [Order.header, h.place, h.size, h.destructor, h.info]
  rfl

end Order.Outsourced

/-- Requests without a closure that are outsourced are outsourced orders. -/
lemma Request.Outsourced.order {r r' : Request} (h : r.Outsourced r') {d : Order}
    (hr : r.order? = some d) : ∃ d', r'.order? = some d' ∧ d.Outsourced d' := by
  cases h with
  | same => exact ⟨d, hr, rfl, rfl, rfl, rfl, rfl, .same _⟩
  | alloc | allocSafeAligned =>
    obtain rfl := Option.some.inj hr
    exact ⟨_, rfl, rfl, rfl, rfl, rfl, rfl, .sample⟩

/-- The allocator that a handle will name. -/
def Request.external : Request → Addr
  | allocExternal _ ext | allocSafeAlignedExternal _ _ ext => ext
  | _ => 0

lemma Request.ext_of_order {r : Request} {d : Order} (h : r.order? = some d) :
    d.ext = r.external := by
  cases r <;> cases h <;> rfl

/-- Only two adapters poison. -/
lemma Header.not_poisons {d : Header} (fn : Addr) (hd : d.destructor = fn)
    (hfn : fn ≠ Adapter.customSafe.addr ∧ fn ≠ Adapter.safe.addr) : ¬ d.Poisons := by
  rw [Poisons, hd]
  exact not_or.2 hfn

/-- The destructor decides whether a payload is poisoned. -/
lemma Header.poisons_set (d : Header) (x : Word) {f : Field} (hf : f ≠ .destructor) :
    (d.set x f).Poisons ↔ d.Poisons := by
  cases f <;> first | exact .rfl | exact absurd rfl hf

/-- Its address and its size decide which bytes it has. -/
lemma Header.span_set (d : Header) (x : Word) {f : Field} (hp : f ≠ .payload) (hs : f ≠ .size) :
    (d.set x f).span = d.span := by
  cases f <;> first | rfl | exact absurd rfl hp | exact absurd rfl hs

/-- Who orders a handle that is poisoned in the end has it poisoned at first. -/
lemma Request.poisoned_of_order {r : Request} {d : Order} (hr : r.order? = some d)
    (hnone : r.closure? = none) {p : Addr} (hp : (d.header p).Poisons) : d.poisoned = true := by
  rcases Request.destructor_cases hr hnone with ⟨h0, -⟩ | ⟨ha, -⟩ | ⟨-, -, hpoisoned⟩ |
    ⟨-, -, -, hpoisoned⟩
  · exact absurd hp (Header.not_poisons 0 h0 (by decide))
  · exact absurd hp (Header.not_poisons Adapter.custom.addr ha (by decide))
  · exact hpoisoned
  · exact hpoisoned

lemma Request.Outsourced.closure?_eq {r r' : Request} (h : r.Outsourced r') :
    r'.closure? = r.closure? := by
  cases h <;> rfl

/-- Two hosts that twins cannot tell apart. Their allocators answer by what they were asked, and by
bytes for which they answer themselves, but not by what callers wrote into blocks. They may hand
out memory as its last owner left it, and leave anything in bytes that nobody wrote; what was
written is the same in both runs afterwards, and so is what was copied of it to a block of another
size. Whoever is called back takes the same steps, some of them by way of the sample allocator. -/
structure Environment.Mirrors (V : Vouched) (E E' : Environment) : Prop where
  external : E'.external = E.external
  change : E'.change = E.change
  allocate : ∀ {D : Finset Handle} {w v : World History}, Twin V (unwritten V w) D w v →
    (ledger w.host).Laid w.bindings.heap.addr → ∀ s n,
    (E'.allocate s n v).addr = (E.allocate s n w).addr ∧
      Masked (unwritten V (E.granted s n w)) D (E.allocate s n w).memory
        (E'.allocate s n v).memory
  reallocate : ∀ {D : Finset Handle} {w v : World History}, Twin V (unwritten V w) D w v →
    (ledger w.host).Laid w.bindings.heap.addr → ∀ s p n, (ledger w.host).Holds s p → p ∉ D →
    (E'.reallocate s p n v).addr = (E.reallocate s p n w).addr ∧
      Masked (unwritten V (E.regranted s p n w)) D (E.reallocate s p n w).memory
        (E'.reallocate s p n v).memory
  free : ∀ {D : Finset Handle} {w v : World History}, Twin V (unwritten V w) D w v →
    (ledger w.host).Laid w.bindings.heap.addr → ∀ s p, (ledger w.host).Holds s p →
    Masked (unwritten V (E.freed s p w)) (D.erase p) (E.free s p w) (E'.free s p v)
  response : ∀ e {w v : World History}, Twins V w v →
    (E.response e w).Outsourced V (E'.response e v)

namespace Environment.Mirrors

variable {V : Vouched} {E E' : Environment} {D : Finset Handle} {w v : World History}
  {s : Source} {n ext ext' : Word} {p : Addr} {b : Handle}
  {play play' : (World History → Program) → Machine History Unit}

/-! ### Allocators -/

section Allocators

variable (hE : Mirrors V E E')
include hE

lemma externalAt_eq (ext : Addr) : E'.externalAt ext = E.externalAt ext := by
  rw [externalAt, externalAt, hE.external]

/-- The sample allocator's blocks come from the default heap. -/
lemma sourceAt_eq (o : Addr) (h : Sampled ext ext') : E'.sourceAt o ext' = E.sourceAt o ext := by
  cases h with
  | same => rw [sourceAt, sourceAt, hE.externalAt_eq]
  | sample =>
    have hsample : E'.externalAt ExternalAllocator.sampleAddr = .sample := if_pos rfl
    have hheap : E.sourceAt o 0 = .heap o := if_pos (.inl rfl)
    rw [hheap, sourceAt, if_pos (.inr (by rw [hsample]))]

/-- It asks for as many bytes. -/
lemma asks_eq (o : HeapObject) (h : Sampled ext ext') (n : Word) :
    E'.asks o ext' n = E.asks o ext n := by
  cases h with
  | same => rw [asks, asks, hE.externalAt_eq]
  | sample =>
    have hsample : E'.externalAt ExternalAllocator.sampleAddr = .sample := if_pos rfl
    have hne : ExternalAllocator.sampleAddr ≠ 0 := by decide
    rw [asks, asks, if_pos rfl, if_neg hne, hsample, if_pos rfl, if_pos (by rfl)]

/-- Primitives that count as they should do so in both runs. -/
lemma correct_iff (q : IncDec) : E'.Correct q ↔ E.Correct q := by
  cases q with
  | functions f => rw [Correct, Correct, hE.change]
  | _ => exact Iff.rfl

lemma correct (h : Twins V w v) (hc : E.Correct w.bindings.incDec) :
    E'.Correct v.bindings.incDec := by
  rw [h.bindings]
  exact (hE.correct_iff _).2 hc

/-! ### Blocks that come and go -/

/-- Both heaps are asked for a block, and make it of the same memory. -/
lemma granted (h : Twin V (unwritten V w) D w v) (hL : (ledger w.host).Laid w.bindings.heap.addr)
    (s : Source) (n : Word) : (E'.allocate s n v).addr = (E.allocate s n w).addr ∧
      Twin V (unwritten V (E.granted s n w)) D (E.granted s n w) (E'.granted s n v) := by
  obtain ⟨haddr, hmasked⟩ := hE.allocate h hL s n
  have hhistory : Matching V (E.granted s n w).host (E'.granted s n v).host := by
    show Matching V (.given s n (E.allocate s n w).addr :: w.host)
      (.given s n (E'.allocate s n v).addr :: v.host)
    rw [haddr]
    exact .cons _ nofun h.history
  have hhousing : ∀ D', (ledger w.host).Housing D' →
      (ledger (E.granted s n w).host).Housing D' := by
    intro D' hD'
    show ((ledger w.host).after (.given s n _)).Housing D'
    rw [Ledger.after]
    split
    · exact hD'
    · next h0 => exact hD'.grant ((E.allocate_fresh s n w h0).not_mem hL) s n
  refine ⟨haddr, { h with
    masked := hmasked
    history := hhistory
    housing := hhousing D h.housing
    headed := ?_ }⟩
  have hhandles : (ledger (E.granted s n w).host).handles = (ledger w.host).handles := by
    show ((ledger w.host).after (.given s n _)).handles = _
    rw [Ledger.after]
    split <;> rfl
  rw [hhandles]
  exact hhousing _ h.headed

/-- Both are asked for another size, of a block that is no handle's. -/
lemma regranted (h : Twin V (unwritten V w) D w v)
    (hL : (ledger w.host).Laid w.bindings.heap.addr) (hp : (ledger w.host).Holds s p)
    (hnot : p ∉ D) (hblock : p ∉ (ledger w.host).handles) (n : Word) :
    (E'.reallocate s p n v).addr = (E.reallocate s p n w).addr ∧
      Twin V (unwritten V (E.regranted s p n w)) D (E.regranted s p n w)
        (E'.regranted s p n v) := by
  obtain ⟨haddr, hmasked⟩ := hE.reallocate h hL s p n hp hnot
  have hhistory : Matching V (E.regranted s p n w).host (E'.regranted s p n v).host := by
    show Matching V (.resized s p n (E.reallocate s p n w).addr :: w.host)
      (.resized s p n (E'.reallocate s p n v).addr :: v.host)
    rw [haddr]
    exact .cons _ nofun h.history
  have hhousing : ∀ D', p ∉ D' → (ledger w.host).Housing D' →
      (ledger (E.regranted s p n w).host).Housing D' := by
    intro D' hp' hD'
    show ((ledger w.host).after (.resized s p n _)).Housing D'
    rw [Ledger.after]
    split
    · exact hD'
    · next h0 =>
      have hfresh := (E.reallocate_fresh s p n w hp h0).not_mem (hL.without p)
      exact (hD'.without hp').grant hfresh s n
  refine ⟨haddr, { h with
    masked := hmasked
    history := hhistory
    housing := hhousing D hnot h.housing
    headed := ?_ }⟩
  have hhandles : (ledger (E.regranted s p n w).host).handles = (ledger w.host).handles := by
    show ((ledger w.host).after (.resized s p n _)).handles = _
    rw [Ledger.after]
    split
    · rfl
    · exact Finset.erase_eq_of_notMem hblock
  rw [hhandles]
  exact hhousing _ hblock h.headed

/-- A block goes back. If it was a handle's, its header names no allocator any more. -/
lemma freed (h : Twin V (unwritten V w) D w v) (hL : (ledger w.host).Laid w.bindings.heap.addr)
    (hp : (ledger w.host).Holds s p) :
    Twin V (unwritten V (E.freed s p w)) (D.erase p) (E.freed s p w) (E'.freed s p v) :=
  { h with
    masked := hE.free h hL s p hp
    history := .cons _ nofun h.history
    housing := (h.housing.erase p).without (Finset.notMem_erase p D)
    headed := (h.headed.erase p).without (Finset.notMem_erase p _) }

lemma handedBack (h : Twin V (unwritten V w) D w v)
    (hL : (ledger w.host).Laid w.bindings.heap.addr) (hp : (ledger w.host).Holds s p) :
    Twin V (unwritten V (E.handedBack s p w)) (D.erase p) (E.handedBack s p w)
      (E'.handedBack s p v) :=
  (hE.freed h hL hp).bump .free

lemma handedBack_twins (h : Twins V w v) (hL : (ledger w.host).Laid w.bindings.heap.addr)
    (hp : (ledger w.host).Holds s p) : Twins V (E.handedBack s p w) (E'.handedBack s p v) := by
  obtain ⟨D, hD, h⟩ := h
  exact ⟨D.erase p, Finset.erase_subset_erase p hD, hE.handedBack h hL hp⟩

/-- The block of a handle goes back to the same allocator. -/
lemma destroyed_twins (h : Twins V w v) (hL : (ledger w.host).Laid w.bindings.heap.addr)
    (hp : (ledger w.host).Holds s p) : Twins V (E.destroyed s p w) (E'.destroyed s p v) := by
  obtain ⟨D, hD, h⟩ := hE.handedBack_twins h hL hp
  exact ⟨D, hD, h.bump .handleFree⟩

end Allocators

/-! ### Requests for storage -/

/-- The states after an allocator was asked: blocks that were out are out, headers are as they were,
and nothing happened to bindings and boxes. -/
structure Served (V : Vouched) (w w' v' : World History) : Prop where
  twins : Twins V w' v'
  laid : (ledger w'.host).Laid w'.bindings.heap.addr
  handles : (ledger w'.host).handles = (ledger w.host).handles
  headers : ∀ b ∈ (ledger w.host).handles, w'.memory.header b = w.memory.header b
  kept : ∀ q ∈ (ledger w.host).blocks, q ∈ (ledger w'.host).blocks ∧
    (ledger w'.host).source q = (ledger w.host).source q
  bindings : w'.bindings = w.bindings
  boxes : w'.boxes = w.boxes

/-- A block for a new handle. -/
structure Vacant (s : Source) (n : Word) (p : Addr) (w : World History) : Prop where
  holds : (ledger w.host).Holds s p
  room : n.toNat ≤ (ledger w.host).room p
  new : p ∉ (ledger w.host).handles

namespace Served

variable {w' v' : World History}

/-- Before anybody is asked. -/
lemma refl (h : Twins V w v) (hL : (ledger w.host).Laid w.bindings.heap.addr) :
    Served V w w v :=
  ⟨h, hL, rfl, fun _ _ => rfl, fun _ hq => ⟨hq, rfl⟩, rfl, rfl⟩

/-- Blocks are held by whoever held them. -/
lemma holds (h : Served V w w' v') {q : Addr} (hq : (ledger w.host).Holds s q) :
    (ledger w'.host).Holds s q :=
  ⟨(h.kept q hq.1).1, (h.kept q hq.1).2.trans hq.2⟩

lemma correct (h : Served V w w' v') (hc : E.Correct w.bindings.incDec) :
    E.Correct w'.bindings.incDec := by
  rwa [h.bindings]

lemma bump (h : Served V w w' v') (k : Counter) :
    Served V w { w' with stats := w'.stats.bump k } { v' with stats := v'.stats.bump k } :=
  { h with twins := h.twins.bump k }

end Served

section Storage

variable (hE : Mirrors V E E')
include hE

/-- The default heap or an external allocator is asked. -/
lemma served (h : Twins V w v) (hL : (ledger w.host).Laid w.bindings.heap.addr)
    (hs : ∀ a, s = .heap a → a = w.bindings.heap.addr) (n : Word) :
    (E'.allocate s n v).addr = (E.allocate s n w).addr ∧
      Served V w (E.granted s n w) (E'.granted s n v) ∧
      ((E.allocate s n w).addr ≠ 0 → Vacant s n (E.allocate s n w).addr (E.granted s n w)) := by
  obtain ⟨D, hD, h⟩ := h
  obtain ⟨haddr, htwin⟩ := hE.granted h hL s n
  have hheaders : ∀ b ∈ (ledger w.host).handles,
      (E.granted s n w).memory.header b = w.memory.header b := fun b hb =>
    Memory.header_congr ((E.allocate_frame s n w b (h.headed b hb).1).mono (h.headed b hb).2)
      (h.headed.fit hL hb)
  refine ⟨haddr, ?_⟩
  by_cases h0 : (E.allocate s n w).addr = 0
  · have hledger : ledger (E.granted s n w).host = ledger w.host := if_pos h0
    refine ⟨⟨⟨D, ?_, htwin⟩, ?_, ?_, hheaders, fun q hq => ?_, rfl, rfl⟩,
      fun hne => absurd h0 hne⟩ <;> rw [hledger]
    · exact hD
    · exact hL
    · exact ⟨hq, rfl⟩
  · have hledger : ledger (E.granted s n w).host =
        (ledger w.host).grant s n (E.allocate s n w).addr := if_neg h0
    have hfresh := E.allocate_fresh s n w h0
    have hnot := hfresh.not_mem hL
    refine ⟨⟨⟨D, ?_, htwin⟩, ?_, ?_, hheaders, fun q hq => ?_, rfl, rfl⟩,
      fun _ => ⟨⟨?_, ?_⟩, ?_, ?_⟩⟩ <;> rw [hledger]
    · exact hD
    · exact hL.grant hfresh hs
    · rfl
    · have hne : q ≠ (E.allocate s n w).addr := ne_of_mem_of_not_mem hq hnot
      exact ⟨Finset.mem_insert_of_mem hq, Function.update_of_ne hne _ _⟩
    · exact Finset.mem_insert_self _ _
    · exact Function.update_self _ _ _
    · exact (le_max_left _ _).trans (Function.update_self _ _ (ledger w.host).room).ge
    · exact fun hb => hnot (h.headed _ hb).1

/-- Whoever is asked, the default heap is asked for the same. -/
lemma allocate_at_paired (h : Twins V w v) (hL : (ledger w.host).Laid w.bindings.heap.addr)
    (hext : Sampled ext ext') (n : Word) :
    Paired V (fun p w' v' => Served V w w' v' ∧
        (p ≠ 0 → Vacant (E.sourceAt w.bindings.heap.addr ext) n p w'))
      ((allocatorAt (E.hostOver play) ext).allocate n w)
      ((allocatorAt (E'.hostOver play') ext').allocate n v) := by
  rw [allocate_at_run, allocate_at_run, h.bindings, hE.asks_eq _ hext, hE.sourceAt_eq _ hext]
  cases hasks : E.asks w.bindings.heap ext n with
  | none => exact .ok ⟨.refl h hL, fun h0 => absurd rfl h0⟩
  | some n' =>
    obtain ⟨haddr, hserved, hvacant⟩ := hE.served h hL
      (s := E.sourceAt w.bindings.heap.addr ext) (fun a ha => Steady.sourceAt_heap ha) n'
    dsimp only
    rw [haddr]
    refine .ok ⟨hserved, fun h0 => ?_⟩
    obtain ⟨hholds, hroom, hnew⟩ := hvacant h0
    exact ⟨hholds, (E.le_asks hasks).trans hroom, hnew⟩

/-- A request for storage comes to the same answer. -/
lemma allocateFrom_paired (h : Twins V w v) (hL : (ledger w.host).Laid w.bindings.heap.addr)
    (hc : E.Correct w.bindings.incDec) (hext : Sampled ext ext') (n : Word) :
    Paired V (fun r w' v' => Served V w w' v' ∧
        ∀ p, r = .ok p → Vacant (E.sourceAt w.bindings.heap.addr ext) n p w')
      ((Storage.allocateFrom (E.hostOver play) ext n).run w)
      ((Storage.allocateFrom (E'.hostOver play') ext' n).run v) := by
  refine Paired.lift_bind (hE.allocate_at_paired h hL hext n) fun p w' v' hanswer => ?_
  obtain ⟨hserved, hvacant⟩ := hanswer
  have hc₁ := hserved.correct hc
  have hc₂ := hE.correct hserved.twins hc₁
  by_cases h0 : p = 0
  · simp only [if_pos h0]
    exact .ok ⟨hserved, nofun⟩
  · simp only [if_neg h0, Attempt.lift_bind_apply, count_run play hc₁, count_run play' hc₂,
      trace_run, Attempt.pure_apply]
    refine .ok ⟨hserved.bump .alloc, fun q hq => ?_⟩
    obtain rfl := Except.ok.inj hq
    obtain ⟨hholds, hroom, hnew⟩ := hvacant h0
    exact ⟨hholds, hroom, hnew⟩

end Storage

/-! ### New handles -/

/-- What becomes of a request for the block of a header. -/
def Lodged (V : Vouched) (w : World History) (s : Source) (n : Word) (r : Except AllocError Addr)
    (w' v' : World History) : Prop :=
  match r with
  | .ok p => Served V w w' v' ∧ Vacant s n p w'
  | .error _ => Twins V w' v'

/-- Two states in which the runtime has the block of a header in hand: the header may be written
already, and its caller not be told of it yet. -/
structure InHand (V : Vouched) (b : Handle) (w v : World History) : Prop where
  twin : ∃ D ⊆ insert b (ledger w.host).handles,
    Twin V (unwritten V w \ furnished b w) D w v
  laid : (ledger w.host).Laid w.bindings.heap.addr
  out : b ∈ (ledger w.host).blocks
  room : 56 ≤ (ledger w.host).room b

/-- Two states in which a handle is new, whose header names the allocator `ext` in the one, and
`ext'` in the other. -/
structure Born (V : Vouched) (ext ext' : Addr) (b : Handle) (w v : World History) : Prop
    extends InHand V b w v where
  named : (w.memory.header b).external = ext
  named' : (v.memory.header b).external = ext'

/-- What becomes of a request for a handle. -/
def Births (V : Vouched) (ext ext' : Addr) (r : Except AllocError Handle) (w v : World History) :
    Prop :=
  match r with
  | .ok b => Born V ext ext' b w v
  | .error _ => Twins V w v

namespace InHand

lemma fit (h : InHand V b w v) : b.toNat + 56 ≤ UInt64.size := by
  have hfit := (h.laid.fits b h.out).2.2
  have hroom := h.room
  omega

/-- The headers say the same, except perhaps of their allocator. -/
lemma header (h : InHand V b w v) : (w.memory.header b).Sampled (v.memory.header b) := by
  obtain ⟨D, -, htwin⟩ := h.twin
  exact htwin.masked.header htwin.housing h.laid h.out h.room fun x hx hU =>
    hU.2 (header_subset_furnished h.room hx)

/-- The caller is told, and both callers are told the same. -/
lemma told (h : InHand V b w v) (own : Bool) :
    Twins V (w.noted (.madeIn w.memory b own)) (v.noted (.madeIn v.memory b own)) := by
  have hsame : Event.madeIn v.memory b own = .madeIn w.memory b own := by
    rw [Event.madeIn, h.header.others]
    rfl
  obtain ⟨D, hD, htwin⟩ := h.twin
  have hkeeps : (Event.madeIn w.memory b own).KeepsStorage := trivial
  rw [hsame]
  refine ⟨D, hD, (htwin.noted hkeeps fun c hc => ?_).mono
    (unwritten_subset Set.sdiff_subset (V.bytes_cons _ _ hkeeps.not_allots) fun c hc => ?_)⟩
  · rcases Finset.mem_insert.1 hc with rfl | hc
    · exact ⟨h.out, h.room⟩
    · exact htwin.headed c hc
  · rcases Finset.mem_insert.1 hc with rfl | hc
    · exact .inr subset_rfl
    · exact .inl ⟨hc, subset_rfl⟩

/-- A word of the header is replaced that says nothing of the payload's poison. -/
lemma setField (h : InHand V b w v) {f : Field} (hf : f ≠ .external) (x : Word)
    (hspan : ((w.memory.header b).set x f).Poisons → (w.memory.header b).Poisons ∧
      ((w.memory.header b).set x f).span ⊆ (w.memory.header b).span) :
    InHand V b { w with memory := w.memory.setWord (b + f.offset) x }
      { v with memory := v.memory.setWord (b + f.offset) x } := by
  obtain ⟨D, hD, htwin⟩ := h.twin
  have hself := Memory.header_setField w.memory f x h.fit
  have hfurnished : ∀ c ∈ insert b (ledger w.host).handles,
      furnished c { w with memory := w.memory.setWord (b + f.offset) x } ⊆ furnished c w := by
    intro c hc
    by_cases hcb : c = b
    · subst hcb
      refine furnished_subset rfl fun hp => ?_
      rw [hself] at hp ⊢
      exact hspan hp
    · have hc' := Finset.mem_of_mem_insert_of_ne hc hcb
      have hfit := htwin.headed.fit h.laid hc'
      have hapart := (htwin.headed.apart h.laid h.out hc' (Ne.symm hcb)).mono_left h.room
      refine furnished_of_header rfl (Memory.header_congr (fun i hi hi' => ?_) hfit)
      exact Memory.byte_setField_of_not_mem _ f x h.fit (by omega) fun hin =>
        hapart.not_mem (Memory.range_field_subset f h.fit hin) ⟨hi, hi'⟩
  refine ⟨⟨D, hD, (htwin.setField h.laid h.out h.room hf x).mono ?_⟩, h.laid, h.out, h.room⟩
  rintro y ⟨⟨hy, hVy, hall⟩, hyb⟩
  exact ⟨⟨hy, hVy, fun c hc hin => hall c hc (hfurnished c (Finset.mem_insert_of_mem hc) hin)⟩,
    fun hin => hyb (hfurnished b (Finset.mem_insert_self b _) hin)⟩

/-- The count is replaced. -/
lemma recount (h : InHand V b w v) (x : Word) :
    InHand V b { w with memory := w.memory.setWord (b + Field.refcount.offset) x }
      { v with memory := v.memory.setWord (b + Field.refcount.offset) x } :=
  h.setField (f := .refcount) (by decide) x fun hp =>
    ⟨(Header.poisons_set _ x (by decide)).1 hp, (Header.span_set _ x (by decide) (by decide)).le⟩

end InHand

/-- A word of a new header is replaced that does not name its allocator. -/
lemma Born.setField (h : Born V ext ext' b w v) {f : Field} (hf : f ≠ .external) (x : Word)
    (hspan : ((w.memory.header b).set x f).Poisons → (w.memory.header b).Poisons ∧
      ((w.memory.header b).set x f).span ⊆ (w.memory.header b).span) :
    Born V ext ext' b { w with memory := w.memory.setWord (b + f.offset) x }
      { v with memory := v.memory.setWord (b + f.offset) x } := by
  have hkept : ∀ d : Header, (d.set x f).external = d.external := fun d => by
    have hget := d.get_set x f .external
    rwa [if_neg hf] at hget
  refine ⟨h.toInHand.setField hf x hspan, ?_, ?_⟩ <;>
    show (Header.external _) = _ <;>
    rw [Memory.header_setField _ _ _ h.toInHand.fit, hkept]
  · exact h.named
  · exact h.named'

/-- A header is written into a block that is no handle's, and what happened is counted. What is
poisoned of the block was written before. -/
lemma Born.lay {F : Set Nat} (h : Twin V (unwritten V w \ F) D w v)
    (hD : D ⊆ (ledger w.host).handles) (hL : (ledger w.host).Laid w.bindings.heap.addr)
    (hp : Vacant s n p w) (hn : 56 ≤ n.toNat) {d d' : Header} (hd : d.Sampled d')
    (hspan : d.Poisons → d.span ⊆ F) (f : Stats → Stats) :
    Born V d.external d'.external p
      { w with
        memory := w.memory.write p d.bytes
        stats := f w.stats }
      { v with
        memory := v.memory.write p d'.bytes
        stats := f v.stats } := by
  have hroom : 56 ≤ (ledger w.host).room p := hn.trans hp.room
  have hfit : p.toNat + 56 ≤ UInt64.size := by
    have hfit := (hL.fits p hp.holds.1).2.2
    omega
  obtain ⟨D', hD', htwin⟩ := h.lay hL hp.holds.1 hroom (fun hin => hp.new (hD hin)) hd
  have hself := Memory.header_write w.memory d hfit
  have hothers : ∀ c ∈ (ledger w.host).handles,
      (w.memory.write p d.bytes).header c = w.memory.header c := by
    intro c hc
    have hne : p ≠ c := fun he => hp.new (he ▸ hc)
    exact Memory.header_write_header _ d hfit (h.headed.fit hL hc)
      ((h.headed.apart hL hp.holds.1 hc hne).mono_left hroom)
  have hkept : (unwritten V w \ F) \ range p 49 ⊆
      unwritten V { w with memory := w.memory.write p d.bytes } \
        furnished p { w with memory := w.memory.write p d.bytes } :=
    unwritten_laid rfl hself hspan hothers
  have hwritten := (htwin.mono hkept).withStats f
  exact ⟨⟨⟨D', hD'.trans (Finset.insert_subset_insert p hD), hwritten⟩, hL, hp.holds.1, hroom⟩,
    congrArg Header.external hself, congrArg Header.external (Memory.header_write _ d' hfit)⟩

/-- A header whose handle poisons nothing. -/
lemma Served.born {w' v' : World History} (h : Served V w w' v') (hp : Vacant s n p w')
    (hn : 56 ≤ n.toNat) {d d' : Header} (hd : d.Sampled d') (hplain : ¬ d.Poisons) :
    Born V d.external d'.external p
      { w' with
        memory := w'.memory.write p d.bytes
        stats := w'.stats.bump .handleAlloc }
      { v' with
        memory := v'.memory.write p d'.bytes
        stats := v'.stats.bump .handleAlloc } := by
  obtain ⟨D, hD, htwin⟩ := h.twins
  exact Born.lay (F := ∅) (by rwa [Set.sdiff_empty]) hD h.laid hp hn hd
    (fun hp => absurd hp hplain) (·.bump .handleAlloc)

/-- The payload is poisoned before, if that was ordered, which touches no other header. -/
lemma Served.born_of_order {w' v' : World History} (h : Served V w w' v')
    (hp : Vacant s n p w') {d d' : Order} (hn : n.toNat = d.total) (hd : d.Outsourced d')
    (hpoisoned : (d.header p).Poisons → d.poisoned = true) :
    Born V d.ext d'.ext p (d.made p w') (d'.made p v') := by
  have hfit : p.toNat + (ledger w'.host).room p ≤ UInt64.size := (h.laid.fits p hp.holds.1).2.2
  have hroom := hp.room
  obtain ⟨k, hk, hinside, hpay⟩ := d.place_inside (p := p) (by omega)
  have h56 : 56 ≤ n.toNat := by omega
  rw [Order.made, Order.made, Order.written, Order.written, hd.poisoned, hd.place, hd.size]
  by_cases hpoison : d.poisoned
  · rw [if_pos hpoison, if_pos hpoison]
    obtain ⟨D, hD, htwin⟩ := h.twins
    have hbeside : ∀ c ∈ (ledger w'.host).handles,
        Apart (d.place p).payload d.size.toNat c 56 := fun c hc => by
      have hne : p ≠ c := fun he => hp.new (he ▸ hc)
      exact Memory.contained_apart (hinside.trans (by omega)) hfit hpay
        (htwin.headed.apart h.laid hp.holds.1 hc hne)
    have hfilled := htwin.put_apart h.laid
      (.fill (d.place p).payload d.size.toNat Poison.fresh) fun c hc _ => hbeside c (hD hc)
    have hkept : unwritten V w' \ range (d.place p).payload d.size.toNat ⊆ unwritten V
        { w' with memory := w'.memory.fill (d.place p).payload d.size.toNat Poison.fresh } := by
      refine unwritten_subset Set.sdiff_subset subset_rfl fun c hc => .inl ⟨hc, ?_⟩
      exact furnished_of_header rfl (Memory.header_fill_of_apart _ Poison.fresh
        (htwin.headed.fit h.laid hc) fun _ => hbeside c hc)
    have hboth : unwritten V w' \ range (d.place p).payload d.size.toNat ⊆ unwritten V
        { w' with memory := w'.memory.fill (d.place p).payload d.size.toNat Poison.fresh } \
          range (d.place p).payload d.size.toNat := fun x hx => ⟨hkept hx, hx.2⟩
    exact Born.lay (hfilled.mono hboth) hD h.laid ⟨hp.holds, hp.room, hp.new⟩ h56 (hd.header p)
      (fun _ => subset_rfl) fun stats => (stats.bump .alloc).bump .handleAlloc
  · rw [if_neg hpoison, if_neg hpoison]
    exact (h.bump .alloc).born ⟨hp.holds, hp.room, hp.new⟩ h56 (hd.header p)
      fun hp => hpoison (hpoisoned hp)

section Making

variable (hE : Mirrors V E E')
include hE

/-- Header and payload in one block. -/
lemma order_paired (h : Twins V w v) (hL : (ledger w.host).Laid w.bindings.heap.addr)
    (hc : E.Correct w.bindings.incDec) {d d' : Order} (hd : d.Outsourced d')
    (hpoisoned : ∀ p, (d.header p).Poisons → d.poisoned = true) :
    Paired V (fun r w' v' => Births V d.ext d'.ext r w' v' ∧ w'.boxes = w.boxes)
      ((d.make (E.hostOver play)).run w) ((d'.make (E'.hostOver play')).run v) := by
  by_cases hfits : d.total < UInt64.size
  · rw [d.make_of_fits _ hfits, d'.make_of_fits _ (hd.total.symm ▸ hfits), hd.total]
    refine Paired.lift_bind (hE.allocate_at_paired h hL hd.ext _) fun p w' v' hanswer => ?_
    obtain ⟨hserved, hvacant⟩ := hanswer
    have hc₁ := hserved.correct hc
    have hc₂ := hE.correct hserved.twins hc₁
    by_cases h0 : p = 0
    · simp only [if_pos h0]
      exact .ok ⟨hserved.twins, hserved.boxes⟩
    · have hp := hvacant h0
      simp only [if_neg h0, Attempt.lift_apply, lay_run hc₁, lay_run hc₂]
      exact .ok ⟨hserved.born_of_order hp (UInt64.toNat_ofNat_of_lt' hfits) hd (hpoisoned p),
        hserved.boxes⟩
  · rw [d.make_of_overflow _ (Nat.le_of_not_lt hfits),
      d'.make_of_overflow _ (hd.total.symm ▸ Nat.le_of_not_lt hfits), hd.overflow]
    exact .ok ⟨h, rfl⟩

/-- A handle on memory of the caller's. -/
lemma new_paired (h : Twins V w v) (hL : (ledger w.host).Laid w.bindings.heap.addr)
    (hc : E.Correct w.bindings.incDec) (data : Addr) (size : Word) {destructor : Addr}
    (info : Addr) (hplain : destructor ≠ Adapter.customSafe.addr ∧ destructor ≠ Adapter.safe.addr) :
    Paired V (Births V 0 0) ((Handle.new (E.hostOver play) data size destructor info).run w)
      ((Handle.new (E'.hostOver play') data size destructor info).run v) := by
  refine Paired.attempt_bind (hE.allocateFrom_paired h hL hc (.same 0) headerSize)
    (fun b w' v' hanswer => ?_) fun e w' v' hanswer => hanswer.1.twins
  obtain ⟨hserved, hvacant⟩ := hanswer
  have hc₁ := hserved.correct hc
  have hc₂ := hE.correct hserved.twins hc₁
  simp only [Attempt.lift_bind_apply, trace_run, Handle.init, initWith_run play hc₁,
    initWith_run play' hc₂, Attempt.pure_apply]
  exact .ok (hserved.born (hvacant b rfl) (by decide)
    (.refl ⟨1, destructor, info, data, size, 0, .fixed⟩) fun hp => hp.elim hplain.1 hplain.2)

/-- A resizable handle, for which two blocks are asked for. -/
lemma newResizableWith_paired (h : Twins V w v) (hL : (ledger w.host).Laid w.bindings.heap.addr)
    (hc : E.Correct w.bindings.incDec) (size : Word) (finalizer : Addr) :
    Paired V (Births V 0 0) ((Handle.newResizableWith (E.hostOver play) size finalizer).run w)
      ((Handle.newResizableWith (E'.hostOver play') size finalizer).run v) := by
  refine Paired.attempt_bind (hE.allocateFrom_paired h hL hc (.same 0) size)
    (fun data w₁ v₁ hanswer => ?_) fun e w' v' hanswer => hanswer.1.twins
  obtain ⟨hserved, hvacant⟩ := hanswer
  have hc₁ := hserved.correct hc
  have hholds := (hvacant data rfl).holds
  refine Paired.attempt_bind
    (P := Lodged V w₁ (E.sourceAt w₁.bindings.heap.addr 0) headerSize)
    (Paired.attempt_catch
      (hE.allocateFrom_paired hserved.twins hserved.laid hc₁ (.same 0) headerSize)
      (fun b w' v' hanswer => ⟨hanswer.1, hanswer.2 b rfl⟩) fun e w₂ v₂ _ _ hanswer => ?_)
    (fun b w₂ v₂ hanswer => ?_) fun e w' v' h => h
  · -- There is no room for the header, so the payload goes back.
    obtain ⟨hserved', -⟩ := hanswer
    have hc₂ := hserved'.correct hc₁
    have hsource : E.sourceAt w.bindings.heap.addr 0 = .heap w₂.bindings.heap.addr := by
      rw [hserved'.bindings, hserved.bindings]
      exact if_pos (.inl rfl)
    have hholds' := hserved'.holds hholds
    rw [hsource] at hholds'
    have h0 := (hserved'.laid.fits data hholds'.1).1
    simp only [Attempt.lift_bind_apply, free_run play hc₂,
      free_run play' (hE.correct hserved'.twins hc₂), if_neg h0, Attempt.throw_apply,
      hserved'.twins.bindings]
    exact .ok (hE.handedBack_twins hserved'.twins hserved'.laid hholds')
  · obtain ⟨hserved', hvacant'⟩ := hanswer
    have hc₂ := hserved'.correct hc₁
    simp only [Attempt.lift_bind_apply, trace_run, initWith_run play hc₂,
      initWith_run play' (hE.correct hserved'.twins hc₂), Attempt.pure_apply]
    exact .ok (hserved'.born hvacant' (by decide)
      (.refl ⟨1, Adapter.resizable.addr, finalizer, data, size, 0, .resizable⟩)
      (Header.not_poisons Adapter.resizable.addr rfl (by decide)))

end Making

/-! ### Closures -/

variable (V E E') in
/-- Programs that are called from inside and take the same steps are paired. -/
def Plays (play play' : (World History → Program) → Machine History Unit) : Prop :=
  ∀ p p' : World History → Program, (∀ w v, Twins V w v → (p w).Outsourced V (p' v)) →
    ∀ w v, E.Steady w → E'.Steady v → Twins V w v →
    Paired V (fun _ => Twins V) (play p w) (play' p' v)

section Closures

variable (hE : Mirrors V E E') (hplays : Plays V E E' play play')
include hE hplays

/-- Whoever is called back takes the same steps in both runs. -/
lemma response_paired {e : Event} (he : e.KeepsStorage) (hL : ∀ L : Ledger, L.after e = L)
    (hw : E.Steady (w.noted e)) (hv : E'.Steady (v.noted e)) (h : Twins V w v) :
    Paired V (fun _ => Twins V) ((do record e; play (E.response e)) w)
      ((do record e; play' (E'.response e)) v) := by
  rw [record_bind_run, record_bind_run]
  exact hplays _ _ (fun w v h => hE.response e h) _ _ hw hv (h.noted he fun L => by rw [hL])

/-- A closure is given up. -/
lemma dropClosure_paired (hw : E.Steady w) (hv : E'.Steady v) (h : Twins V w v) (c : Nat) :
    Paired V (fun _ => Twins V) ((E.hostOver play).dropClosure c w)
      ((E'.hostOver play').dropClosure c v) := by
  have hnoted : E.Reaches w (w.noted (.closureDropped c)) := hw.noted rfl trivial trivial
  have hnoted' : E'.Reaches v (v.noted (.closureDropped c)) := hv.noted rfl trivial trivial
  exact hE.response_paired hplays (e := .closureDropped c) trivial (fun _ => rfl) hnoted.1 hnoted'.1
    h

/-- The closure waits in the same box in both runs, and is given up in both if there is no room. -/
lemma allocClosure_paired (hw : E.Steady w) (hv : E'.Steady v) (h : Twins V w v) (size : Word)
    (closure : Nat) :
    Paired V (Births V 0 0) ((Handle.allocClosure (E.hostOver play) size closure).run w)
      ((Handle.allocClosure (E'.hostOver play') size closure).run v) := by
  obtain ⟨box, boxes, hmake⟩ : ∃ box boxes, w.boxes.make closure = (box, boxes) := ⟨_, _, rfl⟩
  have hfound : boxes.find? box = some closure := by
    have hfind := w.boxes.find?_make closure
    rwa [hmake] at hfind
  have hboxed := (hw.withBoxes boxes).1
  have hboxed' := (hv.withBoxes boxes).1
  have hbox : Paired V (fun a w' v' => a = box ∧ w' = { w with boxes := boxes } ∧
      v' = { v with boxes := boxes })
      ((Handle.boxClosure closure : Machine History Addr) w) (Handle.boxClosure closure v) := by
    rw [Handle.boxClosure, Machine.modifyGet_apply, Machine.modifyGet_apply, h.boxes, hmake]
    exact .ok ⟨rfl, rfl, rfl⟩
  refine Paired.lift_bind hbox fun a w₁ v₁ hstates => ?_
  obtain ⟨rfl, rfl, rfl⟩ := hstates
  have halloc : Paired V _ ((Handle.alloc (E.hostOver play) size).run _)
      ((Handle.alloc (E'.hostOver play') size).run _) :=
    hE.order_paired (h.withBoxes fun _ => boxes) hboxed.sound.laid hboxed.sound.correct
      (d := { size, line := fun c => .payloadAllocated "alloc" c.payload })
      ⟨rfl, rfl, rfl, rfl, rfl, .same _⟩ fun p hp =>
        absurd hp (Header.not_poisons 0 rfl (by decide))
  refine Paired.attempt_bind (P := Births V 0 0) (Paired.attempt_catch halloc
    (fun b w' v' hborn => hborn.1) fun e w₂ v₂ hx hy hfailed => ?_) (fun b w' v' hborn => ?_)
    fun e w' v' h => h
  · obtain ⟨htwins, hboxes⟩ := hfailed
    have hboxes' : v₂.boxes = boxes := (Twins.boxes htwins).trans hboxes
    have hw₂ := ((alloc_ends play hboxed size).post hx).1.withBoxes (w₂.boxes.erase a)
    have hv₂ := ((alloc_ends play' hboxed' size).post hy).1.withBoxes (v₂.boxes.erase a)
    have hunbox : (Handle.unboxClosure a : Machine History (Option Nat)) w₂ =
        .ok (some closure) { w₂ with boxes := w₂.boxes.erase a } := by
      rw [Handle.unboxClosure, Machine.modifyGet_apply, hboxes, hfound]
    have hunbox' : (Handle.unboxClosure a : Machine History (Option Nat)) v₂ =
        .ok (some closure) { v₂ with boxes := v₂.boxes.erase a } := by
      rw [Handle.unboxClosure, Machine.modifyGet_apply, hboxes', hfound]
    rw [Attempt.lift_bind_apply, Attempt.lift_bind_apply, hunbox, hunbox']
    refine Paired.lift_bind (hE.dropClosure_paired hplays hw₂.1 hv₂.1
      (Twins.withBoxes htwins fun boxes => boxes.erase a) closure) fun _ w' v' h => ?_
    exact .ok h
  · have hput := Born.setField hborn (f := .destructor) (by decide) Adapter.boxed.addr fun hp =>
      absurd hp (Header.not_poisons Adapter.boxed.addr rfl (by decide))
    exact .ok (hput.setField (f := .info) (by decide) a fun hp =>
      ⟨(Header.poisons_set _ a (by decide)).1 hp, (Header.span_set _ a (by decide) (by decide)).le⟩)

/-- All requests for handles. -/
lemma make_paired (hw : E.Steady w) (hv : E'.Steady v) (h : Twins V w v) {r r' : Request}
    (hr : r.Outsourced r') (hplain : r.Plain) :
    Paired V (Births V r.external r'.external) ((r.make (E.hostOver play)).run w)
      ((r'.make (E'.hostOver play')).run v) := by
  have hL := hw.sound.laid
  have hc := hw.sound.correct
  cases hd : r.order? with
  | some d =>
    by_cases hnone : r.closure? = none
    · obtain ⟨d', hr', hd'⟩ := hr.order hd
      rw [Request.make_eq _ hd hnone, Request.make_eq _ hr' (hr.closure?_eq.trans hnone)]
      rw [← Request.ext_of_order hd, ← Request.ext_of_order hr']
      exact (hE.order_paired h hL hc hd' fun p hp => Request.poisoned_of_order hd hnone hp).mono
        fun _ _ _ h => h.1
    · cases hr with
      | alloc | allocSafeAligned => exact absurd rfl hnone
      | same =>
        cases r with
        | allocClosure size c => exact hE.allocClosure_paired hplays hw hv h size c
        | _ => exact absurd rfl hnone
  | none =>
    cases hr with
    | alloc | allocSafeAligned => cases hd
    | same =>
      cases r with
      | new data size destructor info =>
        have hforeign : IsForeign destructor := hplain
        exact hE.new_paired h hL hc data size info
          ⟨IsForeign.ne_addr hforeign _, IsForeign.ne_addr hforeign _⟩
      | manage data finalizer => exact hE.new_paired h hL hc data 0 finalizer (by decide)
      | newResizable size => exact hE.newResizableWith_paired h hL hc size 0
      | newResizableWith size finalizer =>
        exact hE.newResizableWith_paired h hL hc size finalizer
      | _ => cases hd

end Closures

/-! ### Other payloads -/

namespace InHand

/-- A handle that was there before. -/
lemma of_handle (h : Twins V w v) (hL : (ledger w.host).Laid w.bindings.heap.addr)
    (hb : b ∈ (ledger w.host).handles) : InHand V b w v := by
  obtain ⟨D, hD, h⟩ := h
  obtain ⟨hout, hroom⟩ := h.headed b hb
  have hkept : unwritten V w ⊆ unwritten V w \ furnished b w := fun x hx => ⟨hx, hx.2.2 b hb⟩
  exact ⟨⟨D, hD.trans (Finset.subset_insert b _), h.mono hkept⟩, hL, hout, hroom⟩

/-- Nothing else was in hand. -/
lemma twins (h : InHand V b w v) (hb : b ∈ (ledger w.host).handles) : Twins V w v := by
  obtain ⟨D, hD, htwin⟩ := h.twin
  exact ⟨D, by rwa [Finset.insert_eq_of_mem hb] at hD, htwin.mono Set.sdiff_subset⟩

lemma noted (h : InHand V b w v) (hb : b ∈ (ledger w.host).handles) {e : Event}
    (he : e.KeepsStorage) (hL : ∀ L : Ledger, (L.after e).handles = L.handles) :
    Twins V (w.noted e) (v.noted e) := (h.twins hb).noted he hL

end InHand

/-- Operations of resizable handles stop both programs, or none. -/
lemma InHand.requireResizable_paired (h : InHand V b w v) (hb : b ∈ (ledger w.host).handles)
    (operation : String) :
    Paired V (fun _ w' v' => w' = w ∧ v' = v ∧ (w.memory.header b).kind = .resizable)
      (Handle.requireResizable operation b w) (Handle.requireResizable operation b v) := by
  have hkind : (v.memory.header b).kind = (w.memory.header b).kind := by rw [h.header.others]
  rw [requireResizable_run, requireResizable_run, hkind]
  by_cases hk : (w.memory.header b).kind = .resizable
  · rw [if_pos hk, if_pos hk]
    exact .ok ⟨rfl, rfl, hk⟩
  · rw [if_neg hk, if_neg hk]
    exact .error (h.twins hb)

/-- The payload of a resizable handle is not poisoned. -/
lemma not_poisons_of_resizable (hw : E.Steady w) (hb : b ∈ (ledger w.host).handles)
    (hk : (w.memory.header b).kind = .resizable) : ¬ (w.memory.header b).Poisons := by
  have hsound := hw.sound.headed.header b hb
  intro hp
  have hown := hsound.poisoned hp
  rw [(hsound.exchange hk).1] at hown
  cases hown

/-- What is freed through a handle whose payload is poisoned is no byte of that payload. -/
lemma span_forgotten (hw : E.Steady w) (hp : (Call.resizableFree b p).Permitted E w)
    (he : p = (w.memory.header b).payload) (hpoisons : (w.memory.header b).Poisons) :
    ((w.memory.header b).set 0 .payload).span ⊆ (w.memory.header b).span := by
  have hb := hp.1.1
  have hspan : ((w.memory.header b).set 0 .payload).span =
      range 0 (w.memory.header b).size.toNat := rfl
  rw [hspan, Header.span]
  by_cases h0 : p = 0
  · rw [← he, h0]
  · rcases hp.2.resolve_left h0 with ⟨hk, -⟩ | ⟨howned, -⟩
    · exact absurd hpoisons (not_poisons_of_resizable hw hb hk)
    · have hne : p ≠ b := fun hpb => howned.2.1 (hpb ▸ hb)
      have hown := (hw.sound.headed.header b hb).poisoned hpoisons
      rw [hw.size_eq_zero_of_payload hb (he ▸ howned.1) (he ▸ hne) hown]
      exact fun x hx => absurd hx.2 (Nat.not_lt.2 hx.1)

variable (V) in
/-- What becomes of a request for another payload. -/
def Refilled (b : Handle) (n : Word) (r : Except AllocError Addr) (w v : World History) : Prop :=
  match r with
  | .ok p => Twins V (w.noted (.refilled b p n)) (v.noted (.refilled b p n))
  | .error _ => Twins V w v

/-- A new payload is put into the header. -/
lemma InHand.setPayload_paired (h : InHand V b w v) (hb : b ∈ (ledger w.host).handles)
    (hplain : ¬ (w.memory.header b).Poisons) (p : Addr) (n : Word) (t : Trace) :
    Paired V (Refilled V b n)
      ((do
        (Handle.setPayload b p n : Machine History Unit)
        (E.hostOver play).trace t
        return p : Attempt History Addr).run w)
      ((do
        (Handle.setPayload b p n : Machine History Unit)
        (E'.hostOver play').trace t
        return p : Attempt History Addr).run v) := by
  simp only [Attempt.lift_bind_apply, setPayload_run, trace_run, Attempt.pure_apply]
  have hput := h.setField (f := .payload) nofun p fun hp =>
    absurd ((Header.poisons_set _ p (by decide)).1 hp) hplain
  have hself := Memory.header_setField w.memory .payload p h.fit
  have hplain' : ¬ ((w.memory.setWord (b + Field.payload.offset) p).header b).Poisons := by
    rwa [hself, Header.poisons_set _ p (by decide)]
  have hboth := hput.setField (f := .size) nofun n fun hp =>
    absurd ((Header.poisons_set _ n (by decide)).1 hp) hplain'
  exact .ok (hboth.noted hb trivial fun _ => rfl)

/-- The states after an allocator was asked to change the size of a block, or was given one back.
Handles are as they were. -/
structure Resized (V : Vouched) (w w' v' : World History) : Prop where
  twins : Twins V w' v'
  laid : (ledger w'.host).Laid w'.bindings.heap.addr
  handles : (ledger w'.host).handles = (ledger w.host).handles
  headers : ∀ b ∈ (ledger w.host).handles, w'.memory.header b = w.memory.header b

lemma Served.resized {w' v' : World History} (h : Served V w w' v') : Resized V w w' v' :=
  ⟨h.twins, h.laid, h.handles, h.headers⟩

/-- After that, the header of every handle may be written again. -/
lemma Resized.inHand {w' v' : World History} (h : Resized V w w' v')
    (hb : b ∈ (ledger w.host).handles) :
    InHand V b w' v' ∧ b ∈ (ledger w'.host).handles := by
  have hb' : b ∈ (ledger w'.host).handles := by rwa [h.handles]
  exact ⟨.of_handle h.twins h.laid hb', hb'⟩

/-- What an allocator was asked for is put into the header of a resizable handle. -/
lemma Resized.setPayload_paired {w' v' : World History} (h : Resized V w w' v') (hw : E.Steady w)
    (hb : b ∈ (ledger w.host).handles) (hk : (w.memory.header b).kind = .resizable) (p : Addr)
    (n : Word) (t : Trace) :
    Paired V (Refilled V b n)
      ((do
        (Handle.setPayload b p n : Machine History Unit)
        (E.hostOver play).trace t
        return p : Attempt History Addr).run w')
      ((do
        (Handle.setPayload b p n : Machine History Unit)
        (E'.hostOver play').trace t
        return p : Attempt History Addr).run v') := by
  obtain ⟨hhand, hb'⟩ := h.inHand hb
  refine hhand.setPayload_paired hb' ?_ p n t
  rw [h.headers b hb]
  exact not_poisons_of_resizable hw hb hk

section Payloads

variable (hE : Mirrors V E E')
include hE

/-- A block is asked for in place of another. -/
lemma resized (h : Twins V w v) (hL : (ledger w.host).Laid w.bindings.heap.addr)
    (hp : (ledger w.host).Holds s p) (hnot : p ∉ (ledger w.host).handles) (n : Word) :
    (E'.reallocate s p n v).addr = (E.reallocate s p n w).addr ∧
      Resized V w (E.regranted s p n w) (E'.regranted s p n v) := by
  obtain ⟨D, hD, h⟩ := h
  obtain ⟨haddr, htwin⟩ := hE.regranted h hL hp (fun hb => hnot (hD hb)) hnot n
  have hheaders : ∀ b ∈ (ledger w.host).handles,
      (E.regranted s p n w).memory.header b = w.memory.header b := fun b hb =>
    Memory.header_congr
      ((E.reallocate_frame s p n w hp b (h.headed b hb).1 (.inl fun he => hnot (he ▸ hb))).mono
        (h.headed b hb).2)
      (h.headed.fit hL hb)
  refine ⟨haddr, ?_⟩
  by_cases h0 : (E.reallocate s p n w).addr = 0
  · have hledger : ledger (E.regranted s p n w).host = ledger w.host := if_pos h0
    refine ⟨⟨D, ?_, htwin⟩, ?_, ?_, hheaders⟩ <;> rw [hledger]
    · exact hD
    · exact hL
  · have hledger := Steady.ledger_regranted h0
    have hfresh := E.reallocate_fresh s p n w hp h0
    have hhandles : (((ledger w.host).without p).grant s n (E.reallocate s p n w).addr).handles =
        (ledger w.host).handles := Finset.erase_eq_of_notMem hnot
    refine ⟨⟨D, ?_, htwin⟩, ?_, ?_, hheaders⟩ <;> rw [hledger]
    · rwa [hhandles]
    · exact (hL.without p).grant hfresh fun a ha => hL.bound p hp.1 a (hp.2.trans ha)
    · exact hhandles

lemma handedBack_resized (h : Twins V w v) (hL : (ledger w.host).Laid w.bindings.heap.addr)
    (hp : (ledger w.host).Holds s p) (hnot : p ∉ (ledger w.host).handles) :
    Resized V w (E.handedBack s p w) (E'.handedBack s p v) := by
  obtain ⟨D, hD, htwin⟩ := h
  refine ⟨hE.handedBack_twins ⟨D, hD, htwin⟩ hL hp, hL.without p,
    Finset.erase_eq_of_notMem hnot, fun b hb => ?_⟩
  obtain ⟨hout, hroom⟩ := htwin.headed b hb
  have hframe := E.free_frame s p w hp b hout fun he => hnot (he ▸ hb)
  exact Memory.header_congr (hframe.mono hroom) (htwin.headed.fit hL hb)

/-- A request for another size comes to the same answer. -/
lemma reallocate_paired (h : Twins V w v) (hL : (ledger w.host).Laid w.bindings.heap.addr)
    (hp : (ledger w.host).Holds (.heap w.bindings.heap.addr) p)
    (hnot : p ∉ (ledger w.host).handles) (n : Word) :
    Paired V (fun _ w' v' => Resized V w w' v')
      ((Storage.reallocate (E.hostOver play) p n).run w)
      ((Storage.reallocate (E'.hostOver play') p n).run v) := by
  obtain ⟨haddr, hresized⟩ := hE.resized h hL hp hnot (w.bindings.heap.asked n)
  rw [reallocate_run, reallocate_run, h.bindings, haddr]
  exact .ok hresized

/-- A further payload comes to the same place in both runs. -/
lemma resizableAlloc_paired (hw : E.Steady w) (h : Twins V w v)
    (hb : b ∈ (ledger w.host).handles) (n : Word) :
    Paired V (Refilled V b n) ((Handle.resizableAlloc (E.hostOver play) b n).run w)
      ((Handle.resizableAlloc (E'.hostOver play') b n).run v) := by
  refine Paired.lift_bind ((InHand.of_handle h hw.sound.laid hb).requireResizable_paired hb _)
    fun _ w₁ v₁ hstates => ?_
  obtain ⟨rfl, rfl, hk⟩ := hstates
  refine Paired.attempt_bind
    (hE.allocateFrom_paired h hw.sound.laid hw.sound.correct (.same 0) n)
    (fun p w' v' hanswer => ?_) fun e w' v' hanswer => hanswer.1.twins
  exact hanswer.1.resized.setPayload_paired hw hb hk p n _

/-- So does one that gets another size. -/
lemma resizableRealloc_paired (hw : E.Steady w) (h : Twins V w v)
    (hb : b ∈ (ledger w.host).handles) (n : Word) :
    Paired V (Refilled V b n) ((Handle.resizableRealloc (E.hostOver play) b n).run w)
      ((Handle.resizableRealloc (E'.hostOver play') b n).run v) := by
  have hhand := InHand.of_handle h hw.sound.laid hb
  have hpayload : (v.memory.header b).payload = (w.memory.header b).payload := by
    rw [hhand.header.others]
  have hold : Paired V (fun old w' v' => w' = w ∧ v' = v ∧ old = (w.memory.header b).payload ∧
      (w.memory.header b).kind = .resizable)
      ((do Handle.requireResizable "varsize_realloc" b; Handle.payload b) w)
      ((do Handle.requireResizable "varsize_realloc" b; Handle.payload b) v) := by
    refine (hhand.requireResizable_paired hb _).bind fun _ w' v' _ _ hstates => ?_
    obtain ⟨rfl, rfl, hk⟩ := hstates
    rw [Handle.payload, field_run, field_run]
    show Paired V _ (.ok (w'.memory.header b).payload w') (.ok (v'.memory.header b).payload v')
    rw [hpayload]
    exact .ok ⟨rfl, rfl, rfl, hk⟩
  refine Paired.lift_bind hold fun old w₁ v₁ hstates => ?_
  obtain ⟨rfl, rfl, rfl, hk⟩ := hstates
  by_cases h0 : (w₁.memory.header b).payload = 0
  · simp only [if_pos h0]
    refine Paired.attempt_bind
      (hE.allocateFrom_paired h hw.sound.laid hw.sound.correct (.same 0) n)
      (fun p w' v' hanswer => ?_) fun e w' v' hanswer => hanswer.1.twins
    exact hanswer.1.resized.setPayload_paired hw hb hk p n _
  · obtain ⟨hholds, hnot, -⟩ := hw.payload hb hk h0
    simp only [if_neg h0]
    exact Paired.attempt_bind (hE.reallocate_paired h hw.sound.laid hholds hnot n)
      (fun p w' v' hanswer => hanswer.setPayload_paired hw hb hk p n _)
      fun e w' v' hanswer => hanswer.twins

/-- What is freed through a handle is freed in both runs. -/
lemma resizableFree_paired (hw : E.Steady w) (h : Twins V w v)
    (hp : (Call.resizableFree b p).Permitted E w) :
    Paired V (fun _ w' v' => Twins V (w'.noted (.discarded b p)) (v'.noted (.discarded b p)))
      (Handle.resizableFree (E.hostOver play) b p w)
      (Handle.resizableFree (E'.hostOver play') b p v) := by
  have hb := hp.1.1
  have hfreed : ∃ w' v', (if p = 0 then w else E.handedBack (.heap w.bindings.heap.addr) p w) = w' ∧
      (if p = 0 then v else E'.handedBack (.heap w.bindings.heap.addr) p v) = v' ∧
      Resized V w w' v' := by
    by_cases h0 : p = 0
    · rw [if_pos h0, if_pos h0]
      exact ⟨w, v, rfl, rfl, (Served.refl h hw.sound.laid).resized⟩
    · rw [if_neg h0, if_neg h0]
      exact ⟨_, _, rfl, rfl, hE.handedBack_resized h hw.sound.laid
        (hw.holds_of_permitted hp h0) (hw.not_handle_of_permitted hp h0)⟩
  obtain ⟨w', v', hw', hv', hresized⟩ := hfreed
  obtain ⟨hhand, hb'⟩ := hresized.inHand hb
  rw [resizableFree_run play hw.sound.correct,
    resizableFree_run play' (hE.correct h hw.sound.correct), h.bindings, hw', hv']
  have hpayload : (v'.memory.header b).payload = (w'.memory.header b).payload := by
    rw [hhand.header.others]
  dsimp only
  rw [hpayload, hresized.headers b hb]
  by_cases he : p = (w.memory.header b).payload
  · rw [if_pos he, if_pos he]
    have hspan : ((w'.memory.header b).set 0 .payload).Poisons → (w'.memory.header b).Poisons ∧
        ((w'.memory.header b).set 0 .payload).span ⊆ (w'.memory.header b).span := by
      rw [hresized.headers b hb, Header.poisons_set _ 0 (by decide)]
      exact fun hpoisons => ⟨hpoisons, span_forgotten hw hp he hpoisons⟩
    exact .ok ((hhand.setField (f := .payload) nofun 0 hspan).noted hb' trivial fun _ => rfl)
  · rw [if_neg he, if_neg he]
    exact .ok (hhand.noted hb' trivial fun _ => rfl)

end Payloads

end Environment.Mirrors

end CountedHeap
