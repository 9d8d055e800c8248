/-
Requests that cannot be met

Where a handle cannot be made, because a size is too large or because an allocator has no room, the
caller is told so and finds everything as it was: no block and no handle more or less, not a byte
changed in a block that is out, nothing called and nothing counted. There are two exceptions, both
of them seen in the history. A payload that was allocated before its header failed is given back,
and counted in both directions; and a closure that was meant for the handle is dropped, by which its
owner may do what he likes.

* `Settles`: an attempt that comes to an end, be it by a failure;
* `Built`: what was given out for a new handle;
* `Untouched`: nothing of what a caller can rely on has changed;
* `Unmet`: what a failed request leaves behind, and how it went;
* `make_atomic`: every request in every run is met, or leaves things untouched.
-/
import CountedHeap.Proofs.Hosts
import CountedHeap.Proofs.Containment

namespace CountedHeap

open Memory (AgreeOn)

/-! ### Attempts that settle -/

section Settling

variable {α β : Type}

/-- The attempt gets what it wants, as `S` says. -/
def Succeeds (x : Attempt History α) (w : World History) (S : α → World History → Prop) : Prop :=
  ∃ a w', x.run w = .ok (.ok a) w' ∧ S a w'

/-- The attempt succeeds as `S` says, or it fails in a state of which `P` holds. It does not stop
the program. -/
def Settles (x : Attempt History α) (w : World History) (S : α → World History → Prop)
    (P : World History → Prop) : Prop :=
  Succeeds x w S ∨ ∃ e v, x.run w = .ok (.error e) v ∧ P v

variable {x : Attempt History α} {w w' : World History} {S : α → World History → Prop}
  {T : β → World History → Prop} {P Q : World History → Prop}

namespace Succeeds

lemma pure {a : α} (h : S a w) : Succeeds (pure a) w S := ⟨a, w, rfl, h⟩

/-- A step that cannot fail, and what succeeds after it. -/
lemma lift_bind {y : Machine History α} {f : α → Attempt History β} {a : α}
    (hy : y w = .ok a w') (hf : Succeeds (f a) w' T) :
    Succeeds ((liftM y : Attempt History α) >>= f) w T := by
  obtain ⟨b, w'', hrun, hT⟩ := hf
  refine ⟨b, w'', ?_, hT⟩
  rw [Attempt.lift_bind_apply, hy]
  exact hrun

lemma lift {y : Machine History α} {a : α} (hy : y w = .ok a w') (h : S a w') :
    Succeeds (liftM y : Attempt History α) w S := by
  refine ⟨a, w', ?_, h⟩
  rw [Attempt.lift_apply, hy]

end Succeeds

namespace Settles

/-- A failure is a failure of the first part, if the second cannot fail. -/
lemma bind {f : α → Attempt History β} (hx : Settles x w S P)
    (hf : ∀ a w', S a w' → Succeeds (f a) w' T) : Settles (x >>= f) w T P := by
  obtain ⟨a, w', hrun, hS⟩ | ⟨e, v, hrun, hP⟩ := hx
  · obtain ⟨b, w'', hrun', hT⟩ := hf a w' hS
    refine .inl ⟨b, w'', ?_, hT⟩
    rw [Attempt.bind_apply, hrun]
    exact hrun'
  · refine .inr ⟨e, v, ?_, hP⟩
    rw [Attempt.bind_apply, hrun]

lemma mono {S' : α → World History → Prop} (hx : Settles x w S P) (hS : ∀ a w', S a w' → S' a w')
    (hP : ∀ v, P v → Q v) : Settles x w S' Q := by
  obtain ⟨a, w', hrun, h⟩ | ⟨e, v, hrun, h⟩ := hx
  · exact .inl ⟨a, w', hrun, hS a w' h⟩
  · exact .inr ⟨e, v, hrun, hP v h⟩

end Settles

end Settling

/-! ### What is given out -/

/-- What is fresh is fresh for fewer bytes, too. -/
lemma Ledger.Fresh.mono {L : Ledger} {p : Addr} {n k : Nat} (h : L.Fresh p n) (hk : k ≤ n) :
    L.Fresh p k := by
  obtain ⟨h0, hfit, hapart⟩ := h
  exact ⟨h0, by omega, fun q hq => (hapart q hq).mono_left hk⟩

/-- What is fresh beside a new block was fresh before. -/
lemma Ledger.Fresh.of_grant {L : Ledger} {s : Source} {n : Word} {p q : Addr} {k : Nat}
    (h : (L.grant s n p).Fresh q k) (hp : p ∉ L.blocks) : L.Fresh q k := by
  refine ⟨h.1, h.2.1, fun r hr => ?_⟩
  have hne : r ≠ p := fun he => hp (he ▸ hr)
  have hapart := h.2.2 r (Finset.mem_insert_of_mem hr)
  simpa only [Ledger.grant, Function.update_of_ne hne] using hapart

/-- A block was given out at `p`, where none was, and nothing else happened that is seen. -/
structure Given (w : World History) (p : Addr) (w' : World History) : Prop where
  fresh : (ledger w.host).Fresh p 1
  bindings : w'.bindings = w.bindings
  shuttingDown : w'.shuttingDown = w.shuttingDown
  host : ∃ s n, w'.host = .given s n p :: w.host

/-- The blocks that the handle `b` has to itself were given out, its own where none was, and nothing
else happened that is seen. -/
structure Built (w : World History) (b : Handle) (w' : World History) : Prop where
  fresh : (ledger w.host).Fresh b 1
  bindings : w'.bindings = w.bindings
  shuttingDown : w'.shuttingDown = w.shuttingDown
  host : ∃ new, w'.host = new ++ w.host ∧
    ∀ e ∈ new, ∃ s n, ∃ q ∈ (w'.memory.header b).blocks b, e = .given s n q

lemma Given.built {w w' : World History} {b : Handle} (h : Given w b w') : Built w b w' := by
  obtain ⟨s, n, hhost⟩ := h.host
  refine ⟨h.fresh, h.bindings, h.shuttingDown, [.given s n b], hhost, fun e he => ?_⟩
  exact ⟨s, n, b, Header.self_mem_blocks _ b, List.mem_singleton.1 he⟩

/-! ### What is left as it was -/

/-- Between the states `w` and `v` nothing has changed that a caller can rely on: the blocks of
every allocator and all their bytes, the handles with their references and headers, what is
installed, and the counters as far as they tell what is out. -/
structure Untouched (w v : World History) : Prop where
  holds : ∀ s q, (ledger v.host).Holds s q ↔ (ledger w.host).Holds s q
  bytes : ∀ q ∈ (ledger w.host).blocks, (ledger v.host).room q = (ledger w.host).room q ∧
    w.memory.AgreeOn v.memory q ((ledger w.host).room q)
  handles : (ledger v.host).handles = (ledger w.host).handles
  refs : (ledger v.host).refs = (ledger w.host).refs
  headers : ∀ b ∈ (ledger w.host).handles, v.memory.header b = w.memory.header b
  bindings : v.bindings = w.bindings
  shuttingDown : v.shuttingDown = w.shuttingDown
  interned : v.interned = w.interned
  handleAlloc : v.stats.handleAlloc = w.stats.handleAlloc
  handleFree : v.stats.handleFree = w.stats.handleFree
  outstanding : v.stats.outstandingBlocks = w.stats.outstandingBlocks
  isBalanced : v.stats.isBalanced = w.stats.isBalanced

namespace Untouched

variable {w v : World History}

lemma refl : Untouched w w :=
  ⟨fun _ _ => .rfl, fun _ _ => ⟨rfl, AgreeOn.refl⟩, rfl, rfl, fun _ _ => rfl, rfl, rfl, rfl, rfl,
    rfl, rfl, rfl⟩

/-- The loss of a closure is seen, and touches nothing. -/
lemma dropped (h : Untouched w v) (c : Nat) : Untouched w (v.noted (.closureDropped c)) :=
  ⟨h.holds, h.bytes, h.handles, h.refs, h.headers, h.bindings, h.shuttingDown, h.interned,
    h.handleAlloc, h.handleFree, h.outstanding, h.isBalanced⟩

lemma marked (h : Untouched w v) : Untouched w v.marked :=
  ⟨h.holds, h.bytes, h.handles, h.refs, h.headers, h.bindings, h.shuttingDown, h.interned,
    h.handleAlloc, h.handleFree, h.outstanding, h.isBalanced⟩

/-- Boxes of closures are of no account. -/
lemma withBoxes {boxes : Boxes} (h : Untouched { w with boxes := boxes } v) (boxes' : Boxes) :
    Untouched w { v with boxes := boxes' } :=
  ⟨h.holds, h.bytes, h.handles, h.refs, h.headers, h.bindings, h.shuttingDown, h.interned,
    h.handleAlloc, h.handleFree, h.outstanding, h.isBalanced⟩

end Untouched

/-- One block more on both sides of the books leaves as many out as before. -/
lemma Stats.outstandingBlocks_bump_bump (s : Stats) :
    ((s.bump .alloc).bump .free).outstandingBlocks = s.outstandingBlocks := by
  show s.alloc + 1 - (s.free + 1) = s.alloc - s.free
  grind

lemma Stats.isBalanced_bump_bump (s : Stats) :
    ((s.bump .alloc).bump .free).isBalanced = s.isBalanced := by
  rw [Bool.eq_iff_iff, isBalanced_iff, isBalanced_iff, outstandingBlocks_bump_bump]
  rfl

namespace Environment

variable {E : Environment} {w v : World History}
  {play : (World History → Program) → Machine History Unit}

/-- Headers lie in blocks. -/
lemma Steady.headers_of_bytes (hw : E.Steady w) {m : Memory}
    (h : ∀ q ∈ (ledger w.host).blocks, w.memory.AgreeOn m q ((ledger w.host).room q)) :
    ∀ b ∈ (ledger w.host).handles, m.header b = w.memory.header b := by
  intro b hb
  obtain ⟨hroom, hfit⟩ := hw.room_le hb
  exact Memory.header_congr ((h b (hw.mem_blocks hb)).mono hroom) hfit

/-- An allocator that is asked in vain touches nothing. -/
lemma Steady.untouched_granted (hw : E.Steady w) {s : Source} {n : Word}
    (h0 : (E.allocate s n w).addr = 0) : Untouched w (E.granted s n w) := by
  have hL : ledger (E.granted s n w).host = ledger w.host := by
    simp [granted, Ledger.after, h0]
  have hbytes := E.allocate_frame s n w
  refine ⟨?_, fun q hq => ⟨?_, hbytes q hq⟩, ?_, ?_, hw.headers_of_bytes hbytes, rfl, rfl, rfl, rfl,
    rfl, rfl, rfl⟩ <;> rw [hL]
  exact fun _ _ => .rfl

/-- A block that comes and goes leaves the others with those who have them. -/
lemma Ledger.holds_without_grant {L : Ledger} {s s' : Source} {n : Word} {p q : Addr}
    (hp : p ∉ L.blocks) : ((L.grant s n p).without p).Holds s' q ↔ L.Holds s' q := by
  constructor
  · rintro ⟨hq, hs⟩
    obtain ⟨hqp, hq⟩ := Finset.mem_erase.1 hq
    exact ⟨Finset.mem_of_mem_insert_of_ne hq hqp, (Function.update_of_ne hqp _ _).symm.trans hs⟩
  · rintro ⟨hq, hs⟩
    have hqp : q ≠ p := fun he => hp (he ▸ hq)
    exact ⟨Finset.mem_erase.2 ⟨hqp, Finset.mem_insert_of_mem hq⟩,
      (Function.update_of_ne hqp _ _).trans hs⟩

/-- A block that was given out and given back, with a request in vain between the two. -/
lemma Steady.untouched_handedBack (hw : E.Steady w) {s : Source} {n m : Word} {p : Addr}
    (hp : p = (E.allocate s n w).addr) (hne : p ≠ 0)
    (h0 : (E.allocate s m (E.handed s n w)).addr = 0) :
    Untouched w (E.handedBack s p (E.granted s m (E.handed s n w))) := by
  subst hp
  set p := (E.allocate s n w).addr
  set w₁ := E.handed s n w
  set w₂ := E.granted s m w₁
  have hnew : p ∉ (ledger w.host).blocks := (E.allocate_fresh s n w hne).not_mem hw.sound.laid
  have hL₁ : ledger w₁.host = (ledger w.host).grant s n p := by
    show (ledger w.host).after (.given s n p) = _
    rw [Ledger.after, if_neg hne]
  have hL₂ : ledger w₂.host = (ledger w.host).grant s n p := by
    show (ledger w₁.host).after (.given s m (E.allocate s m w₁).addr) = _
    rw [Ledger.after, if_pos h0, hL₁]
  have hL : ledger (E.handedBack s p w₂).host = ((ledger w.host).grant s n p).without p := by
    show (ledger w₂.host).without p = _
    rw [hL₂]
  have hother : ∀ q ∈ (ledger w.host).blocks, q ≠ p := fun q hq he => hnew (he ▸ hq)
  have hroom : ∀ q ∈ (ledger w.host).blocks,
      ((ledger w.host).grant s n p).room q = (ledger w.host).room q := fun q hq =>
    Function.update_of_ne (hother q hq) _ _
  have hmem : ∀ q ∈ (ledger w.host).blocks, q ∈ ((ledger w.host).grant s n p).blocks :=
    fun q hq => Finset.mem_insert_of_mem hq
  have hbytes : ∀ q ∈ (ledger w.host).blocks,
      w.memory.AgreeOn (E.handedBack s p w₂).memory q ((ledger w.host).room q) := by
    intro q hq
    have h₁ : w.memory.AgreeOn w₁.memory q ((ledger w.host).room q) := E.allocate_frame s n w q hq
    have h₂ := E.allocate_frame s m w₁ q (hL₁ ▸ hmem q hq)
    have hholds : (ledger w₂.host).Holds s p := by
      rw [hL₂]
      exact ⟨Finset.mem_insert_self _ _, Function.update_self _ _ _⟩
    have h₃ := E.free_frame s p w₂ hholds q (hL₂ ▸ hmem q hq) (hother q hq)
    rw [hL₁, hroom q hq] at h₂
    rw [hL₂, hroom q hq] at h₃
    exact (h₁.trans h₂).trans h₃
  refine ⟨fun s' q => ?_, fun q hq => ⟨?_, hbytes q hq⟩, ?_, ?_, hw.headers_of_bytes hbytes, rfl,
    rfl, rfl, rfl, rfl, Stats.outstandingBlocks_bump_bump _, Stats.isBalanced_bump_bump _⟩ <;>
    rw [hL]
  · exact Ledger.holds_without_grant hnew
  · exact hroom q hq
  · exact Finset.erase_eq_of_notMem fun hin => hnew (hw.mem_blocks hin)
  · rfl

/-! ### Requests for storage -/

/-- No allocator was asked, or one that had nothing to give. -/
def Denied (E : Environment) (w v : World History) : Prop :=
  v = w ∨ ∃ s n, (E.allocate s n w).addr = 0 ∧ v = E.granted s n w

lemma Denied.reaches (h : E.Denied w v) (hw : E.Steady w) : E.Reaches w v := by
  obtain rfl | ⟨s, n, h0, rfl⟩ := h
  · exact hw.refl
  · exact hw.granted_null h0

lemma Denied.untouched (h : E.Denied w v) (hw : E.Steady w) : Untouched w v := by
  obtain rfl | ⟨s, n, h0, rfl⟩ := h
  · exact .refl
  · exact hw.untouched_granted h0

lemma Denied.boxes (h : E.Denied w v) : v.boxes = w.boxes := by
  obtain rfl | ⟨s, n, -, rfl⟩ := h <;> rfl

lemma allocateFrom_settles (hc : E.Correct w.bindings.incDec) (ext n : Word) :
    Settles (Storage.allocateFrom (E.hostOver play) ext n) w (Given w) (E.Denied w) := by
  obtain hrun | ⟨n', -, ⟨h0, hrun⟩ | ⟨h0, hrun⟩⟩ := allocateFrom_cases play hc ext n
  · exact .inr ⟨_, _, hrun, .inl rfl⟩
  · exact .inr ⟨_, _, hrun, .inr ⟨_, _, h0, rfl⟩⟩
  · have hfresh := (E.allocate_fresh _ _ w h0).mono (le_max_right _ _)
    exact .inl ⟨_, _, hrun, hfresh, rfl, rfl, _, _, rfl⟩

/-- A sum that is too large is refused before anyone is asked. -/
lemma allocateCombined_settles (hc : E.Correct w.bindings.incDec) (size ext : Word) :
    Settles (allocateCombined (E.hostOver play) size ext) w (fun c => Given w c.header)
      (E.Denied w) := by
  unfold allocateCombined
  cases Word.add? size headerSize with
  | none => exact .inr ⟨_, w, rfl, .inl rfl⟩
  | some total => exact (allocateFrom_settles hc ext total).bind fun _ _ h => .pure h

lemma allocateCombinedAligned_settles (hc : E.Correct w.bindings.incDec) (size align ext : Word) :
    Settles (allocateCombinedAligned (E.hostOver play) size align ext) w
      (fun c => Given w c.header) (E.Denied w) := by
  unfold allocateCombinedAligned
  cases hpad : paddedSize? size (effectiveAlign align) with
  | none =>
    simp only [hpad]
    exact .inr ⟨_, w, rfl, .inl rfl⟩
  | some padded =>
    simp only [hpad]
    exact (allocateCombined_settles hc padded ext).bind fun _ _ h => .pure h

/-! ### Handles -/

/-- Once there is room for it, a header can be written. -/
lemma ofCombined_succeeds (hc : E.Correct w.bindings.incDec) {c : Combined} (size : Word)
    (destructor info ext : Addr) (h : Given v c.header w) :
    Succeeds (liftM (Handle.ofCombined (E.hostOver play) c size destructor info ext) :
      Attempt History Handle) w (Given v) := by
  set written : World History := { w with
    memory := w.memory.write c.header
      (Header.bytes ⟨1, destructor, info, c.payload, size, ext, .fixed⟩)
    stats := w.stats.bump .handleAlloc }
  have hinit : Handle.init (E.hostOver play) c.header c.payload size destructor info ext w =
      .ok () written := initWith_run play hc c.header c.payload size destructor info ext .fixed
  have hrun : Handle.ofCombined (E.hostOver play) c size destructor info ext w =
      .ok c.header written := by
    rw [Handle.ofCombined, Machine.bind_apply, hinit]
    rfl
  exact .lift hrun ⟨h.fresh, h.bindings, h.shuttingDown, h.host⟩

section Combined

variable {P : World History → Prop} {x : Attempt History Combined} {size : Word}
  {destructor info ext : Addr}

lemma combined_settles (hc : E.Correct w.bindings.incDec)
    (hx : Settles x w (fun c => Given w c.header) P) (t : Combined → Trace) :
    Settles (do
      let c ← x
      (E.hostOver play).trace (t c)
      Handle.ofCombined (E.hostOver play) c size destructor info ext :
      Attempt History Handle) w (Given w) P :=
  hx.bind fun _ w' h => .lift_bind (E.trace_run play w' _)
    (ofCombined_succeeds (h.bindings ▸ hc) size destructor info ext h)

lemma combined_poisoned_settles (hc : E.Correct w.bindings.incDec)
    (hx : Settles x w (fun c => Given w c.header) P) (value : UInt8) (t : Combined → Trace) :
    Settles (do
      let c ← x
      (Machine.fill c.payload size value : Machine History Unit)
      (E.hostOver play).trace (t c)
      Handle.ofCombined (E.hostOver play) c size destructor info ext :
      Attempt History Handle) w (Given w) P := by
  refine hx.bind fun c w' h => ?_
  set filled : World History := { w' with memory := w'.memory.fill c.payload size.toNat value }
  have hfilled : Given w c.header filled := ⟨h.fresh, h.bindings, h.shuttingDown, h.host⟩
  have hfill : Machine.fill c.payload size value w' = .ok () filled := rfl
  refine .lift_bind hfill (.lift_bind (E.trace_run play filled _) ?_)
  exact ofCombined_succeeds (hfilled.bindings ▸ hc) size destructor info ext hfilled

end Combined

lemma new_settles (hc : E.Correct w.bindings.incDec) (data : Addr) (size : Word)
    (destructor info : Addr) :
    Settles (Handle.new (E.hostOver play) data size destructor info) w (Given w) (E.Denied w) := by
  refine (allocateFrom_settles hc 0 headerSize).bind fun b w' h => ?_
  have hinit := initWith_run play (w := w') (h.bindings ▸ hc) b data size destructor info 0 .fixed
  exact .lift_bind (E.trace_run play w' _)
    (.lift_bind hinit (.pure ⟨h.fresh, h.bindings, h.shuttingDown, h.host⟩))

/-- The payload was there, and the header was not. -/
def Halfway (E : Environment) (w v : World History) : Prop :=
  ∃ s n m, s = .heap w.bindings.heap.addr ∧ (E.allocate s n w).addr ≠ 0 ∧
    (E.allocate s m (E.handed s n w)).addr = 0 ∧
    v = E.handedBack s (E.allocate s n w).addr (E.granted s m (E.handed s n w))

lemma Halfway.reaches (h : E.Halfway w v) (hw : E.Steady w) : E.Reaches w v := by
  obtain ⟨s, n, m, rfl, hne, h0, rfl⟩ := h
  have hhanded := hw.handed hne fun a ha => (Source.heap.inj ha).symm
  obtain ⟨howned, -, hs⟩ := hw.owned_handed hne
  obtain ⟨howned', hs'⟩ := hhanded.1.owned_of_granted_null h0 howned
  have hdenied := hhanded.trans (hhanded.1.granted_null h0)
  exact hdenied.trans (hdenied.1.handedBack howned' (hs'.trans hs))

lemma newResizableWith_settles (hw : E.Steady w) (size : Word) (finalizer : Addr) :
    Settles (Handle.newResizableWith (E.hostOver play) size finalizer) w (Built w) fun v =>
      E.Denied w v ∨ E.Halfway w v := by
  have hrun := newResizableWith_run play hw.sound.correct size finalizer
  simp only at hrun
  split at hrun
  · next h0 => exact .inr ⟨_, _, hrun, .inl (.inr ⟨_, _, h0, rfl⟩)⟩
  · next h0 =>
    split at hrun
    · next hb => exact .inr ⟨_, _, hrun, .inr ⟨_, _, _, rfl, h0, hb, rfl⟩⟩
    · next hb =>
      have hfresh := E.allocate_fresh _ _ _ hb
      have hnew := (E.allocate_fresh _ _ _ h0).not_mem hw.sound.laid
      have hbefore := hfresh.mono (le_max_right _ _)
      rw [Steady.ledger_handed h0] at hbefore
      refine .inl ⟨_, _, hrun, hbefore.of_grant hnew, rfl, rfl, [.given _ _ _, .given _ _ _], rfl,
        fun e he => ?_⟩
      have hroom : 56 ≤ (w.bindings.heap.asked headerSize).toNat := HeapObject.le_asked _ headerSize
      rw [Memory.header_write _ _ (by have := hfresh.2.1; omega)]
      rcases List.mem_cons.1 he with rfl | he
      · exact ⟨_, _, _, Header.self_mem_blocks _ _, rfl⟩
      · obtain rfl := List.mem_singleton.1 he
        exact ⟨_, _, _, Header.mem_blocks.2 (.inr ⟨rfl, h0, rfl⟩), rfl⟩

end Environment

/-! ### All requests -/

/-- Payload and header of the handle are two blocks. -/
def Request.Resizable : Request → Prop
  | newResizable _ | newResizableWith .. => True
  | _ => False

/-- The closure that comes with a request. -/
def Request.closure? : Request → Option Nat
  | allocClosure _ c => some c
  | _ => none

/-- The closure of a request is dropped; there may be none. -/
def Request.giveUp (h : Host History) (r : Request) : Machine History Unit :=
  match r.closure? with
  | none => pure ()
  | some c => h.dropClosure c

/-- What a request that is not met comes to, up to the moment when its closure is dropped. The
history shows how it went: at most one allocator was asked, and in vain; or a payload was given
out and, when there was no header to be had, given back. -/
structure Unmet (r : Request) (w v : World History) : Prop where
  untouched : Untouched w v
  course : (v.host = w.host ∨ ∃ s n, v.host = .given s n 0 :: w.host) ∧ v.stats = w.stats ∨
    r.Resizable ∧ (∃ s n m p, p ≠ 0 ∧
      v.host = .takenBack s p :: .given s m 0 :: .given s n p :: w.host) ∧
      v.stats = (w.stats.bump .alloc).bump .free
  /-- The closure is in a box no more. -/
  boxes : v.boxes = match r.closure? with
    | none => w.boxes
    | some c => (w.boxes.make c).2.erase (w.boxes.make c).1

namespace Environment

variable {E : Environment} {w v : World History}
  {play : (World History → Program) → Machine History Unit} {r : Request}

lemma Denied.course (h : E.Denied w v) :
    (v.host = w.host ∨ ∃ s n, v.host = .given s n 0 :: w.host) ∧ v.stats = w.stats := by
  obtain rfl | ⟨s, n, h0, rfl⟩ := h
  · exact ⟨.inl rfl, rfl⟩
  · refine ⟨.inr ⟨s, n, ?_⟩, rfl⟩
    rw [← h0]
    rfl

lemma Denied.unmet (h : E.Denied w v) (hw : E.Steady w) (hr : r.closure? = none) :
    E.Reaches w v ∧ Unmet r w v := by
  refine ⟨h.reaches hw, h.untouched hw, .inl h.course, ?_⟩
  rw [hr]
  exact h.boxes

lemma Halfway.unmet (h : E.Halfway w v) (hw : E.Steady w) (hr : r.Resizable)
    (hnone : r.closure? = none) : E.Reaches w v ∧ Unmet r w v := by
  have hreach := h.reaches hw
  obtain ⟨s, n, m, -, hne, h0, rfl⟩ := h
  refine ⟨hreach, hw.untouched_handedBack rfl hne h0, .inr ⟨hr, ⟨s, n, m, _, hne, ?_⟩, rfl⟩, ?_⟩
  · have hhost : (E.granted s m (E.handed s n w)).host = .given s m 0 :: (E.handed s n w).host := by
      rw [← h0]
      rfl
    exact congrArg (Event.takenBack s _ :: ·) hhost
  · rw [hnone]
    rfl

variable (E) in
/-- A request is met, for which nothing but the blocks of the new handle were given out, or it
leaves everything as it was and its closure is dropped. -/
def MetOrNot (h : Host History) (r : Request) (w : World History) : Prop :=
  (∃ b w', (r.make h).run w = .ok (.ok b) w' ∧ Built w b w') ∨
    ∃ e v, E.Reaches w v ∧ Unmet r w v ∧
      (r.make h).run w = (do r.giveUp h; return .error e : Machine _ _) v

/-- Where there is no closure, a request that fails is over. -/
lemma metOrNot_of_settles {h : Host History}
    (hx : Settles (r.make h) w (Built w) fun v => E.Reaches w v ∧ Unmet r w v)
    (hr : r.closure? = none) : E.MetOrNot h r w := by
  refine hx.imp_right fun ⟨e, v, hrun, hreach, hP⟩ => ⟨e, v, hreach, hP, hrun.trans ?_⟩
  rw [Request.giveUp, hr]
  rfl

section Boxed

variable {σ : Type} {h : Host σ} {size : Word} {closure : Nat} {w v : World σ}

/-- A closure is in its box before the block is asked for; when there is a handle, the destructor
of that is exchanged. -/
lemma allocClosure_run_ok {b : Handle}
    (hrun : (Handle.alloc h size).run { w with boxes := (w.boxes.make closure).2 } =
      .ok (.ok b) v) :
    (Handle.allocClosure h size closure).run w = .ok (.ok b) { v with
      memory := v.memory.withDestructor b Adapter.boxed.addr (w.boxes.make closure).1 } := by
  have hbox : (Handle.boxClosure closure : Machine σ Addr) w =
      .ok (w.boxes.make closure).1 { w with boxes := (w.boxes.make closure).2 } := rfl
  rw [Handle.allocClosure, Attempt.lift_bind_apply, hbox]
  simp only [Attempt.bind_apply, Attempt.tryCatch_apply, hrun]
  rfl

/-- When there is none, the closure is taken out of its box and dropped. -/
lemma allocClosure_run_error {e : AllocError}
    (hrun : (Handle.alloc h size).run { w with boxes := (w.boxes.make closure).2 } =
      .ok (.error e) v) (hboxes : v.boxes = (w.boxes.make closure).2) :
    (Handle.allocClosure h size closure).run w =
      (do h.dropClosure closure; return .error e : Machine σ (Except AllocError Handle))
        { v with boxes := v.boxes.erase (w.boxes.make closure).1 } := by
  have hbox : (Handle.boxClosure closure : Machine σ Addr) w =
      .ok (w.boxes.make closure).1 { w with boxes := (w.boxes.make closure).2 } := rfl
  set out : World σ := { v with boxes := v.boxes.erase (w.boxes.make closure).1 }
  have hunbox : (Handle.unboxClosure (w.boxes.make closure).1 : Machine σ (Option Nat)) v =
      .ok (some closure) out := by
    have hfound : v.boxes.find? (w.boxes.make closure).1 = some closure := by
      rw [hboxes]
      exact w.boxes.find?_make closure
    rw [Handle.unboxClosure, Machine.modifyGet_apply, hfound]
  rw [Handle.allocClosure, Attempt.lift_bind_apply, hbox]
  simp only [Attempt.bind_apply, Attempt.tryCatch_apply, Attempt.lift_apply, hrun, hunbox,
    Machine.bind_apply]
  cases h.dropClosure closure out <;> rfl

end Boxed

/-- The closure of a handle that was not made is dropped once it is out of its box, and everything
else is as it was by then. -/
lemma allocClosure_metOrNot (hw : E.Steady w) (size : Word) (closure : Nat) :
    E.MetOrNot (E.hostOver play) (.allocClosure size closure) w := by
  set box := (w.boxes.make closure).1
  set boxed : World History := { w with boxes := (w.boxes.make closure).2 }
  have hboxed : E.Reaches w boxed := hw.withBoxes (w.boxes.make closure).2
  have halloc : Settles (Handle.alloc (E.hostOver play) size) boxed (Given boxed)
      (E.Denied boxed) :=
    combined_settles hboxed.1.sound.correct
      (allocateCombined_settles hboxed.1.sound.correct size 0) _
  obtain ⟨b, w', hrun, hgiven⟩ | ⟨e, v, hrun, hdenied⟩ := halloc
  · set redirected : World History :=
      { w' with memory := w'.memory.withDestructor b Adapter.boxed.addr box }
    have hgiven' : Given w b redirected :=
      ⟨hgiven.fresh, hgiven.bindings, hgiven.shuttingDown, hgiven.host⟩
    exact .inl ⟨b, redirected, allocClosure_run_ok hrun, hgiven'.built⟩
  · set out : World History := { v with boxes := v.boxes.erase box }
    have hreach := hdenied.reaches hboxed.1
    refine .inr ⟨e, out, (hboxed.trans hreach).trans (hreach.1.withBoxes _),
      ⟨?_, .inl hdenied.course, ?_⟩, allocClosure_run_error hrun hdenied.boxes⟩
    · exact (hdenied.untouched hboxed.1).withBoxes _
    · show v.boxes.erase box = _
      rw [hdenied.boxes]
      rfl

/-- A request for one block without a closure. -/
lemma metOrNot_of_given {h : Host History} (hw : E.Steady w)
    (hx : Settles (r.make h) w (Given w) (E.Denied w)) (hr : r.closure? = none) :
    E.MetOrNot h r w :=
  metOrNot_of_settles (hx.mono (fun _ _ h => h.built) fun _ h => h.unmet hw hr) hr

/-- A request for two blocks. -/
lemma metOrNot_of_built {h : Host History} (hw : E.Steady w)
    (hx : Settles (r.make h) w (Built w) fun v => E.Denied w v ∨ E.Halfway w v)
    (hresizable : r.Resizable) (hr : r.closure? = none) : E.MetOrNot h r w :=
  metOrNot_of_settles (hx.mono (fun _ _ h => h) fun _ h =>
    h.elim (fun h => h.unmet hw hr) fun h => h.unmet hw hresizable hr) hr

/-- Every request is met, or leaves things untouched. -/
lemma make_metOrNot (hw : E.Steady w) (r : Request) : E.MetOrNot (E.hostOver play) r w := by
  have hc := hw.sound.correct
  cases r with
  | new data size destructor info =>
    exact metOrNot_of_given hw (new_settles hc data size destructor info) rfl
  | alloc size =>
    exact metOrNot_of_given hw (combined_settles hc (allocateCombined_settles hc size 0) _) rfl
  | allocExternal size ext =>
    exact metOrNot_of_given hw (combined_settles hc (allocateCombined_settles hc size ext) _) rfl
  | allocSafe size =>
    exact metOrNot_of_given hw
      (combined_poisoned_settles hc (allocateCombined_settles hc size 0) _ _) rfl
  | allocDestructor size destructor =>
    exact metOrNot_of_given hw (combined_settles hc (allocateCombined_settles hc size 0) _) rfl
  | allocDestructorSafe size destructor =>
    exact metOrNot_of_given hw
      (combined_poisoned_settles hc (allocateCombined_settles hc size 0) _ _) rfl
  | allocAligned size align =>
    exact metOrNot_of_given hw
      (combined_settles hc (allocateCombinedAligned_settles hc size align 0) _) rfl
  | allocSafeAligned size align =>
    exact metOrNot_of_given hw
      (combined_poisoned_settles hc (allocateCombinedAligned_settles hc size align 0) _ _) rfl
  | allocSafeAlignedExternal size align ext =>
    exact metOrNot_of_given hw
      (combined_poisoned_settles hc (allocateCombinedAligned_settles hc size align ext) _ _) rfl
  | allocClosure size closure => exact allocClosure_metOrNot hw size closure
  | manage data finalizer =>
    exact metOrNot_of_given hw (new_settles hc data 0 Adapter.managed.addr finalizer) rfl
  | newResizable size =>
    exact metOrNot_of_built hw (newResizableWith_settles hw size 0) trivial rfl
  | newResizableWith size finalizer =>
    exact metOrNot_of_built hw (newResizableWith_settles hw size finalizer) trivial rfl

/-- A closure whose owner does not mind is dropped without a trace but in the history. -/
lemma dropClosure_idle {c depth : Nat} (hidle : ∀ v, E.dropClosure c v = .done) {w' : World History}
    (h : (E.host depth).dropClosure c v = .ok () w') :
    w' = (v.noted (.closureDropped c)).marked := by
  cases depth with
  | zero => cases h
  | succ depth =>
    have hrun : (E.host (depth + 1)).dropClosure c v =
        (E.dropClosure c (v.noted (.closureDropped c))).run E (E.host depth)
          (v.noted (.closureDropped c)) := rfl
    rw [hrun, hidle] at h
    exact (EStateM.Result.ok.inj h).2.symm

end Environment

/-- What can be said of a request in the state `w`: it is met, or nothing is left behind once its
closure is dropped. If the owner of the closure does nothing, then the caller, too, finds everything
untouched. -/
structure Atomic (E : Environment) (r : Request) (w : World History) : Prop where
  metOrNot : ∀ depth, E.MetOrNot (E.host depth) r w
  untouched : (∀ c, r.closure? = some c → ∀ v, E.dropClosure c v = .done) →
    ∀ depth e w', (r.make (E.host depth)).run w = .ok (.error e) w' → Untouched w w'

namespace Environment

variable {E : Environment} {w : World History} {r : Request}

lemma Steady.atomic (hw : E.Steady w) (r : Request) : Atomic E r w := by
  have hmet : ∀ depth, E.MetOrNot (E.host depth) r w := fun depth => by
    obtain ⟨play, hhost, -⟩ := E.obeys_host depth
    exact hhost ▸ make_metOrNot hw r
  refine ⟨hmet, fun hidle depth e w' hrun => ?_⟩
  obtain ⟨b, v, hok, -⟩ | ⟨e', v, -, hunmet, hfail⟩ := hmet depth
  · rw [hok] at hrun
    cases hrun
  rw [hfail, Request.giveUp] at hrun
  cases hr : r.closure? with
  | none =>
    rw [hr] at hrun
    obtain ⟨-, rfl⟩ := EStateM.Result.ok.inj hrun
    exact hunmet.untouched
  | some c =>
    simp only [hr, Machine.bind_apply] at hrun
    cases hdrop : (E.host depth).dropClosure c v with
    | error e'' w'' =>
      rw [hdrop] at hrun
      cases hrun
    | ok _ w'' =>
      rw [hdrop] at hrun
      obtain ⟨-, rfl⟩ := EStateM.Result.ok.inj hrun
      rw [dropClosure_idle (hidle c hr) hdrop]
      exact (hunmet.untouched.dropped c).marked

end Environment

/-- **Requests are atomic.** At every boundary of every run, whatever the sizes, however the
allocators answer, and whichever of the two requests of a resizable handle fails, a request is met
or leaves nothing behind. -/
theorem make_atomic (E : Environment) (depth : Nat) (p : Program) (w : World History) :
    Throughout (fun e past => ∀ s, e = .boundary s → ∀ r, Atomic E r (s.resume past))
      (E.history depth p w) := by
  rintro e past hsuffix s rfl r
  obtain ⟨hw, -⟩ := Environment.steady_of_boundary ((E.lawful_history depth p w).suffix hsuffix)
  exact hw.atomic r

/-- A caller who asks for a payload that leaves no room for its header. -/
def Program.greedy : Program := .step (.make (.newResizable (0 - 4100))) fun _ _ => .done

/-- The payload goes back to the heap that gave it out. -/
example : (Environment.unbounded.history 0 .greedy { host := [] }).any (fun
    | .takenBack (.heap o) p => o == HeapObject.system.addr && p == 4096
    | _ => false) = true := by
  decide +kernel

end CountedHeap
