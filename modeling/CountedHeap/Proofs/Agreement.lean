/-
The surfaces agree

An entry point of the C surface does the same as the direct call behind it, except that it stops a
panic at the boundary, says null for a failure and for a missing allocator, and does nothing with a
null handle. Around a host that never panics nothing is left of the difference but the form of the
answer, so a program may choose a surface anew for each of its steps, and so may the destructors
that it sets off.

* `Machine.Calm`, `Host.Calm`: what never panics;
* `Attempt.Yields`: direct calls never answer null as a success;
* `Operation.perform_eq`: one operation, on any two routes that have it;
* `Script.Rerouted`, `Surroundings.Rerouted.run_eq`: whole programs, with all that they set off;
* `Operation.entry_null`: a null handle is accepted everywhere, and nothing is done.
-/
import CountedHeap.Proofs.Scripts

namespace CountedHeap

variable {σ τ α β : Type}

/-! ### Without a panic -/

/-- The computation never ends by a panic. -/
def Machine.Calm (x : Machine σ α) : Prop := ∀ w p w', x w ≠ .error (.panic p) w'

lemma Machine.Calm.pure (a : α) : (pure a : Machine σ α).Calm := by
  intro w p w' h
  rw [Machine.pure_apply] at h
  cases h

/-- The allocator never panics. -/
structure Allocator.Calm (a : Allocator σ) : Prop where
  allocate : ∀ n, (a.allocate n).Calm
  reallocate : ∀ p n, (a.reallocate p n).Calm
  free : ∀ p, (a.free p).Calm

/-- Nothing that the host does when it is called ends by a panic: allocators do not panic, and a
panic does not get out of the C functions that destructors, finalizers and primitives are. -/
structure Host.Calm (h : Host σ) : Prop where
  functions : ∀ f, (h.functions f).Calm
  object : ∀ a, (h.object a).Calm
  externalFunctions : ∀ e, (h.externalFunctions e).Calm
  destructor : ∀ fn data size info, (h.destructor fn data size info).Calm
  finalizer : ∀ fn data, (h.finalizer fn data).Calm
  closure : ∀ c data size, (h.closure c data size).Calm
  dropClosure : ∀ c, (h.dropClosure c).Calm
  step : ∀ fn c, (h.step fn c).Calm
  compareSwap : ∀ fn slot expected new, (h.compareSwap fn slot expected new).Calm

namespace Likeness

/-- Two states that are one and the same, and no panic. -/
def same (σ : Type) : Likeness σ σ where
  incDec := Eq
  cas := Eq
  host t s t' s' := t = t' ∧ s = s'
  panics := False

lemma same_clear : (same σ).Clear := fun _ _ _ _ h => h

/-- Then the two states are equal. -/
lemma same_worlds {w v : World σ} (h : (same σ).Worlds w v) : w = v := by
  obtain ⟨_, ⟨_, _, _⟩, _, _, _, _, _, _⟩ := w
  obtain ⟨_, ⟨_, _, _⟩, _, _, _, _, _, _⟩ := v
  obtain ⟨rfl, rfl, rfl, rfl, rfl, rfl, rfl, rfl, rfl, rfl⟩ := h
  rfl

lemma same_refl (w : World σ) : (same σ).Worlds w w :=
  ⟨rfl, rfl, rfl, rfl, rfl, rfl, rfl, rfl, rfl, rfl⟩

/-- What never panics is like itself. -/
lemma same_alike {x : Machine σ α} (hx : x.Calm) : (same σ).Alike x x := by
  intro w v hw
  obtain rfl := same_worlds hw
  cases hr : x w with
  | ok a w' => exact .ok a (same_refl w')
  | error e w' =>
    refine .error e (fun p he => ?_) (same_refl w')
    rw [he] at hr
    exact hx w p w' hr

/-- And what is like itself never panics, if that is part of the likeness. -/
lemma Alike.calm {T : Likeness τ τ} (hT : ¬ T.panics) (hrefl : ∀ w, T.Worlds w w)
    {x : Machine τ α} (hx : T.Alike x x) : x.Calm := by
  intro w p w' hr
  have hend := hx w w (hrefl w)
  rw [hr] at hend
  cases hend with
  | error _ he _ => exact hT (he p rfl)

end Likeness

open Likeness (same same_alike same_refl same_worlds same_clear)

/-- An allocator that never panics is like itself. -/
lemma Allocator.Calm.alike {a : Allocator σ} (ha : a.Calm) : (same σ).Allocators a a :=
  ⟨fun n => same_alike (ha.allocate n), fun p n => same_alike (ha.reallocate p n),
    fun p => same_alike (ha.free p)⟩

/-- So is a host. -/
lemma Host.Calm.alike {h : Host σ} (H : h.Calm) : (same σ).Hosts h h where
  functions f := (H.functions f).alike.atLeastOne
  object a := (H.object a).alike
  external _ := rfl
  externalFunctions e := (H.externalFunctions e).alike
  destructor fn data size info := same_alike (H.destructor fn data size info)
  finalizer fn data := same_alike (H.finalizer fn data)
  closure c data size := same_alike (H.closure c data size)
  dropClosure c := same_alike (H.dropClosure c)
  increment p q hpq c := by
    obtain rfl : p = q := hpq
    cases p with
    | stub => exact Likeness.Alike.addTo c 1
    | native => exact Likeness.Alike.addTo c 1
    | functions f => exact same_alike (H.step f.inc c)
  decrement p q hpq c := by
    obtain rfl : p = q := hpq
    cases p with
    | stub => exact Likeness.Alike.addTo c (-1)
    | native => exact Likeness.Alike.addTo c (-1)
    | functions f => exact same_alike (H.step f.dec c)
  swap p q hpq slot expected new := by
    obtain rfl : p = q := hpq
    cases p with
    | stub => exact Likeness.Alike.swapIfEqual slot expected new
    | native => exact Likeness.Alike.swapIfEqual slot expected new
    | function f =>
      exact (same_alike (H.compareSwap f slot expected new)).bind fun _ => Likeness.Alike.pure _
  trace t := by
    refine Likeness.Alike.modify fun w v hw => ?_
    obtain rfl := same_worlds hw
    exact same_refl _
  stub := rfl
  swapStub := rfl

/-! ### Successes are never null -/

/-- What an attempt yields when it succeeds is as `P` says. -/
def Attempt.Yields (P : α → Prop) (x : Attempt σ α) : Prop :=
  ∀ w a w', x.run w = .ok (.ok a) w' → P a

namespace Attempt.Yields

variable {P : α → Prop} {Q : β → Prop}

lemma pure {a : α} (ha : P a) : Yields P (pure a : Attempt σ α) := by
  intro w a' w' h
  cases h
  exact ha

/-- A failure yields nothing to look at. -/
lemma throw (e : AllocError) : Yields P (throw e : Attempt σ α) := by
  intro w a w' h
  have hr : (MonadExcept.throw e : Attempt σ α).run w = .ok (.error e) w := rfl
  rw [hr] at h
  cases h

/-- Only what the last part yields counts. -/
lemma bind {x : Attempt σ α} {f : α → Attempt σ β} (hx : Yields P x)
    (hf : ∀ a, P a → Yields Q (f a)) : Yields Q (x >>= f) := by
  intro w b w' h
  rw [ExceptT.run_bind, Machine.bind_apply] at h
  cases hr : x.run w with
  | ok r v =>
    rw [hr] at h
    cases r with
    | ok a => exact hf a (hx w a v hr) v b w' h
    | error e => cases h
  | error e v =>
    rw [hr] at h
    cases h

lemma lift_bind {x : Machine σ α} {f : α → Attempt σ β} (hf : ∀ a, Yields Q (f a)) :
    Yields Q ((liftM x : Attempt σ α) >>= f) :=
  bind (P := fun _ => True) (fun _ _ _ _ => trivial) fun a _ => hf a

/-- A machine's value is what the attempt yields. -/
lemma lift {x : Machine σ α} (hx : ∀ w a w', x w = .ok a w' → P a) :
    Yields P (liftM x : Attempt σ α) := by
  intro w a w' h
  have hrun : (liftM x : Attempt σ α).run w = (x >>= fun b => Pure.pure (.ok b)) w := rfl
  rw [hrun, Machine.bind_apply] at h
  cases hr : x w with
  | ok b v =>
    rw [hr] at h
    cases h
    exact hx w _ _ hr
  | error e v =>
    rw [hr] at h
    cases h

/-- A failure that is dealt with and passed on yields nothing. -/
lemma tryCatch {x : Attempt σ α} {f : AllocError → Attempt σ α} (hx : Yields P x)
    (hf : ∀ e, Yields P (f e)) : Yields P (MonadExcept.tryCatch x f) := by
  intro w a w' h
  rw [ExceptT.run_tryCatch, Machine.bind_apply] at h
  cases hr : x.run w with
  | ok r v =>
    rw [hr] at h
    cases r with
    | ok b =>
      cases h
      exact hx w _ _ hr
    | error e => exact hf e v a w' h
  | error e v =>
    rw [hr] at h
    cases h

end Attempt.Yields

open Attempt (Yields)

section NeverNull

variable (h : Host σ)

/-- Storage that is granted is not null. -/
lemma allocateFrom_yields (ext : Addr) (n : Word) :
    Yields (· ≠ 0) (Storage.allocateFrom h ext n) := by
  refine Yields.lift_bind fun p => ?_
  split
  · exact Yields.throw _
  · next hp => exact Yields.lift_bind fun _ => Yields.lift_bind fun _ => Yields.pure hp

lemma reallocate_yields (p : Addr) (n : Word) : Yields (· ≠ 0) (Storage.reallocate h p n) := by
  refine Yields.lift_bind fun q => ?_
  split
  · exact Yields.throw _
  · next hq => exact Yields.pure hq

lemma allocateCombined_yields (n : Word) (ext : Addr) :
    Yields (fun c => c.header ≠ 0) (allocateCombined h n ext) := by
  unfold allocateCombined
  split
  · exact Yields.throw _
  · exact (allocateFrom_yields h ext _).bind fun p hp => Yields.pure hp

lemma allocateCombinedAligned_yields (n align : Word) (ext : Addr) :
    Yields (fun c => c.header ≠ 0) (allocateCombinedAligned h n align ext) := by
  unfold allocateCombinedAligned
  simp only
  split
  · exact Yields.throw _
  · exact (allocateCombined_yields h _ ext).bind fun c hc => Yields.pure hc

lemma ofCombined_yields {c : Combined} (hc : c.header ≠ 0) (size : Word)
    (destructor info ext : Addr) :
    Yields (· ≠ 0)
      (liftM (Handle.ofCombined h c size destructor info ext) : Attempt σ Handle) := by
  refine Yields.lift fun w b w' hr => ?_
  rw [Handle.ofCombined, Machine.bind_apply] at hr
  cases hi : Handle.init h c.header c.payload size destructor info ext w with
  | ok u v =>
    rw [hi] at hr
    cases hr
    exact hc
  | error e v =>
    rw [hi] at hr
    cases hr

/-- Header and payload in one block. -/
lemma combined_yields {x : Attempt σ Combined} (hx : Yields (fun c => c.header ≠ 0) x)
    (t : Combined → Trace) (size : Word) (destructor info ext : Addr) :
    Yields (· ≠ 0) (do
      let c ← x
      h.trace (t c)
      Handle.ofCombined h c size destructor info ext : Attempt σ Handle) :=
  hx.bind fun _ hc => Yields.lift_bind fun _ => ofCombined_yields h hc size destructor info ext

/-- Header and payload in one block, with the payload poisoned. -/
lemma poisoned_yields {x : Attempt σ Combined} (hx : Yields (fun c => c.header ≠ 0) x)
    (t : Combined → Trace) (size : Word) (destructor info ext : Addr) :
    Yields (· ≠ 0) (do
      let c ← x
      (Machine.fill c.payload size Poison.fresh : Machine σ Unit)
      h.trace (t c)
      Handle.ofCombined h c size destructor info ext : Attempt σ Handle) :=
  hx.bind fun _ hc => Yields.lift_bind fun _ => Yields.lift_bind fun _ =>
    ofCombined_yields h hc size destructor info ext

/-- Nor is a handle for a payload that lies elsewhere. -/
lemma new_yields (data : Addr) (size : Word) (destructor info : Addr) :
    Yields (· ≠ 0) (Handle.new h data size destructor info) :=
  (allocateFrom_yields h 0 _).bind fun _ hb => Yields.lift_bind fun _ => Yields.lift_bind fun _ =>
    Yields.pure hb

lemma newResizableWith_yields (size : Word) (finalizer : Addr) :
    Yields (· ≠ 0) (Handle.newResizableWith h size finalizer) := by
  refine (allocateFrom_yields h 0 size).bind fun data _ => ?_
  refine ((allocateFrom_yields h 0 _).tryCatch fun e => ?_).bind fun b hb => ?_
  · exact Yields.lift_bind fun _ => Yields.throw e
  · exact Yields.lift_bind fun _ => Yields.lift_bind fun _ => Yields.pure hb

lemma alloc_yields (size : Word) : Yields (· ≠ 0) (Handle.alloc h size) :=
  combined_yields h (allocateCombined_yields h size 0)
    (fun c => .payloadAllocated "alloc" c.payload) size 0 0 0

lemma allocClosure_yields (size : Word) (closure : Nat) :
    Yields (· ≠ 0) (Handle.allocClosure h size closure) := by
  refine Yields.lift_bind fun box => ((alloc_yields h size).tryCatch fun e => ?_).bind
    fun b hb => Yields.lift_bind fun _ => Yields.pure hb
  refine Yields.lift_bind fun c? => ?_
  cases c? with
  | none => exact Yields.throw e
  | some c => exact Yields.lift_bind fun _ => Yields.throw e

/-- A handle is never null. -/
lemma make_yields (r : Request) : Yields (· ≠ 0) (r.make h) := by
  cases r with
  | new data size destructor info => exact new_yields h data size destructor info
  | alloc size => exact alloc_yields h size
  | allocExternal size ext =>
    exact combined_yields h (allocateCombined_yields h size ext)
      (fun c => .payloadAllocated "alloc_external" c.payload) size 0 0 ext
  | allocSafe size =>
    exact poisoned_yields h (allocateCombined_yields h size 0)
      (fun c => .payloadSized "alloc_dtor_safe" c.payload size) _ _ _ _
  | allocDestructor size destructor =>
    exact combined_yields h (allocateCombined_yields h size 0)
      (fun c => .payloadSized "alloc_dtor" c.payload size) _ _ _ _
  | allocDestructorSafe size destructor =>
    exact poisoned_yields h (allocateCombined_yields h size 0)
      (fun c => .payloadSized "alloc_dtor_safe" c.payload size) _ _ _ _
  | allocAligned size align =>
    exact combined_yields h (allocateCombinedAligned_yields h size align 0)
      (fun c => .payloadAllocated "alloc_aligned" c.payload) _ _ _ _
  | allocSafeAligned size align =>
    exact poisoned_yields h (allocateCombinedAligned_yields h size align 0)
      (fun c => .payloadSized "alloc_safe_aligned" c.payload size) _ _ _ _
  | allocSafeAlignedExternal size align ext =>
    exact poisoned_yields h (allocateCombinedAligned_yields h size align ext)
      (fun c => .payloadSized "alloc_safe_aligned" c.payload size) _ _ _ _
  | allocClosure size closure => exact allocClosure_yields h size closure
  | manage data finalizer => exact new_yields h data 0 _ finalizer
  | newResizable size => exact newResizableWith_yields h size 0
  | newResizableWith size finalizer => exact newResizableWith_yields h size finalizer

/-- A new payload is put in place. -/
lemma payloadReplaced_yields (operation : String) (b : Handle) (size : Word) {data : Addr}
    (hdata : data ≠ 0) :
    Yields (· ≠ 0) (do
      (Handle.setPayload b data size : Machine σ Unit)
      h.trace (.payloadReplaced operation b size data)
      return data : Attempt σ Addr) :=
  Yields.lift_bind fun _ => Yields.lift_bind fun _ => Yields.pure hdata

lemma resizableAlloc_yields (b : Handle) (size : Word) :
    Yields (· ≠ 0) (Handle.resizableAlloc h b size) :=
  Yields.lift_bind fun _ => (allocateFrom_yields h 0 size).bind fun _ hp =>
    payloadReplaced_yields h _ b size hp

lemma resizableRealloc_yields (b : Handle) (size : Word) :
    Yields (· ≠ 0) (Handle.resizableRealloc h b size) := by
  refine Yields.lift_bind fun old => ?_
  show Yields (· ≠ 0) (if old = 0 then _ else _ : Attempt σ Addr)
  split
  · exact (allocateFrom_yields h 0 size).bind fun _ hp => payloadReplaced_yields h _ b size hp
  · exact (reallocate_yields h old size).bind fun _ hp => payloadReplaced_yields h _ b size hp

end NeverNull

/-! ### One operation on two routes -/

/-- Without a panic there is nothing to stop at the boundary. -/
lemma guarded_eq {x : Machine σ α} (hx : x.Calm) : Entry.guarded x = x := by
  funext w
  rw [Entry.guarded, Machine.tryCatch_apply]
  cases hr : x w with
  | ok a w' => rfl
  | error e w' =>
    cases e with
    | panic p => exact absurd hr (hx w p w')
    | violation v => rfl
    | boundary p => rfl
    | noUnwind => rfl
    | tooDeep => rfl

/-- With a handle that is not null the operation itself is done. -/
lemma unlessNull_eq {b : Handle} (hb : b ≠ 0) (other : α) {x : Machine σ α} (hx : x.Calm) :
    Entry.unlessNull b other x = x := by
  rw [Entry.unlessNull, if_neg hb, guarded_eq hx]

/-- With a null handle nothing is done. -/
lemma unlessNull_zero (other : α) (x : Machine σ α) (w : World σ) :
    Entry.unlessNull 0 other x w = .ok other w := by
  rw [Entry.unlessNull, if_pos rfl, Entry.guarded, Machine.tryCatch_apply, Machine.pure_apply]

/-- Null stands for a failure, and for nothing else. -/
lemma answering_orNull {x : Attempt σ Addr} (hx : Yields (· ≠ 0) x) :
    Machine.answering .ofPointer (Entry.orNull x) = Machine.answering .ofAttempt x.run := by
  funext w
  rw [Machine.answering, Machine.answering, Entry.orNull, Machine.bind_apply, Machine.bind_apply,
    Machine.bind_apply]
  cases hr : x.run w with
  | ok r w' =>
    cases r with
    | ok p =>
      have hp : p ≠ 0 := hx w p w' hr
      simp [Machine.pure_apply, Response.ofPointer, Response.ofAttempt, hp]
    | error e => rfl
  | error e w' => rfl

/-- An alignment of 32 bits gets through the C surface as it is. -/
lemma toUInt64_toUInt32 {align : Word} (h : align < 0x100000000) :
    align.toUInt32.toUInt64 = align := by
  have hlt : align.toNat < 2 ^ 32 := h
  apply UInt64.toNat.inj
  rw [UInt32.toNat_toUInt64, UInt64.toNat_toUInt32, Nat.mod_eq_of_lt hlt]

/-- What a C caller is told of a swap, and what is left in the cell for the old word. -/
def Entry.swapped (cell : Option Word) : Except Word Word → Bool × Option Word
  | .ok old => (true, cell.map fun _ => old)
  | .error old => (false, cell.map fun _ => old)

/-- A slot that is there is swapped behind the guard. -/
lemma Entry.compareAndSwap_of_ne (h : Host σ) {slot : Addr} (hslot : slot ≠ 0)
    (expected new : Word) (cell : Option Word) :
    Entry.compareAndSwap h slot expected new cell =
      Entry.guarded (do
        return swapped cell (← CountedHeap.compareAndSwap h slot expected new)) := by
  rw [Entry.compareAndSwap, if_neg hslot]
  refine congrArg Entry.guarded (bind_congr fun r => ?_)
  cases r <;> rfl

/-- What the table has is an entry point. -/
lemma Route.entry_offers_of_table {o : Operation} (ho : Route.table.offers o = true) :
    Route.entry.offers o = true := by
  cases o with
  | make r => cases r with
    | alloc n => rfl
    | allocExternal n ext => rfl
    | manage data finalizer => rfl
    | _ => cases ho
  | acquire b => rfl
  | release b => rfl
  | payload b => rfl
  | _ => cases ho

section Routes

variable {T : Likeness σ σ} {h : Host σ} (H : T.Hosts h h) (hT : ¬ T.panics)
  (hrefl : ∀ w, T.Worlds w w)
include H hT hrefl

omit H in
/-- Null stands for failure, and for nothing else. -/
lemma entered_eq {x : Attempt σ Addr} (hx : T.Alike x.run x.run) (hy : Yields (· ≠ 0) x) :
    Machine.answering .ofPointer (Entry.guarded (Entry.orNull x)) =
      Machine.answering .ofAttempt x.run := by
  rw [guarded_eq (hx.orNull.calm hT hrefl), answering_orNull hy]

lemma Request.entry_eq {r : Request} (hr : r.onEntry = true) :
    Machine.answering .ofPointer (r.entry h) =
      Machine.answering .ofAttempt (r.resolved.make h).run := by
  have hmake : ∀ q : Request,
      Machine.answering .ofPointer (Entry.guarded (Entry.orNull (q.make h))) =
        Machine.answering .ofAttempt (q.make h).run :=
    fun q => entered_eq hT hrefl (H.make q) (make_yields h q)
  cases r with
  | new data size destructor info => exact hmake (.new data size destructor info)
  | alloc size => exact hmake (.alloc size)
  | allocExternal size ext =>
    rw [Request.entry, Entry.handleAllocExternal, Request.resolved]
    split
    · exact hmake (.alloc size)
    · exact hmake (.allocExternal size ext)
  | allocSafe size => exact hmake (.allocSafe size)
  | allocDestructor size destructor => exact hmake (.allocDestructor size destructor)
  | allocDestructorSafe size destructor => exact hmake (.allocDestructorSafe size destructor)
  | allocAligned size align =>
    have halign := toUInt64_toUInt32 (of_decide_eq_true hr)
    rw [Request.entry, Entry.handleAllocAligned, halign]
    exact hmake (.allocAligned size align)
  | allocSafeAligned size align =>
    have halign := toUInt64_toUInt32 (of_decide_eq_true hr)
    rw [Request.entry, Entry.handleAllocSafeAligned, halign]
    exact hmake (.allocSafeAligned size align)
  | allocSafeAlignedExternal size align ext =>
    have halign := toUInt64_toUInt32 (of_decide_eq_true hr)
    rw [Request.entry, Entry.handleAllocSafeAlignedExternal, halign, Request.resolved]
    split
    · exact hmake (.allocSafeAligned size align)
    · exact hmake (.allocSafeAlignedExternal size align ext)
  | allocClosure size closure => cases hr
  | manage data finalizer => exact hmake (.manage data finalizer)
  | newResizable size => exact hmake (.newResizable size)
  | newResizableWith size finalizer => exact hmake (.newResizableWith size finalizer)

/-- A slot that is there is swapped in the same way. -/
lemma Entry.swap_eq {slot : Addr} (hslot : slot ≠ 0) (expected new : Word) (cell : Option Word) :
    (Operation.compareAndSwap slot expected new cell).entry h =
      (Operation.compareAndSwap slot expected new cell).direct h := by
  have hinner : T.Alike
      (do return Entry.swapped cell (← CountedHeap.compareAndSwap h slot expected new))
      (do return Entry.swapped cell (← CountedHeap.compareAndSwap h slot expected new)) :=
    (H.compareAndSwap slot expected new).bind fun r => Likeness.Alike.pure _
  rw [Operation.entry, Operation.direct, Entry.compareAndSwap_of_ne h hslot,
    guarded_eq (hinner.calm hT hrefl)]
  simp only [Machine.answering, bind_assoc, pure_bind]
  refine bind_congr fun r => ?_
  cases r <;> rfl

/-- What can be called directly and through an entry point does the same both ways. -/
lemma Operation.entry_eq_direct {o : Operation} (hd : Route.direct.offers o = true)
    (he : Route.entry.offers o = true) : o.entry h = o.direct h := by
  have hcalm : ∀ {α : Type} {x : Machine σ α}, T.Alike x x → x.Calm := fun hx =>
    hx.calm hT hrefl
  have hne : ∀ {b : Handle}, (some b != some 0) = true → b ≠ 0 := by simp
  cases o with
  | allocate n => exact entered_eq hT hrefl (H.allocate n) (allocateFrom_yields h 0 n)
  | allocateFrom n ext =>
    exact entered_eq hT hrefl (H.allocateFrom ext n) (allocateFrom_yields h ext n)
  | reallocate p n => exact entered_eq hT hrefl (H.reallocate p n) (reallocate_yields h p n)
  | free p => exact congrArg Machine.silent (guarded_eq (hcalm (H.free p)))
  | make r => exact Request.entry_eq H hT hrefl he
  | init b data n destructor tag ext =>
    exact congrArg Machine.silent (unlessNull_eq (hne hd) () (hcalm (H.initWith _ _ _ _ _ _ _)))
  | acquire b =>
    exact congrArg Machine.silent (unlessNull_eq (hne hd) () (hcalm (H.acquire b)))
  | release b =>
    exact congrArg Machine.silent (unlessNull_eq (hne hd) () (hcalm (H.release b)))
  | callDestructor b =>
    exact congrArg Machine.silent (unlessNull_eq (hne hd) () (hcalm (H.callDestructor b)))
  | destroy b =>
    exact congrArg Machine.silent (unlessNull_eq (hne hd) () (hcalm (H.destroy b)))
  | dealloc b =>
    exact congrArg Machine.silent (unlessNull_eq (hne hd) () (hcalm (H.dealloc b)))
  | payload b =>
    exact congrArg (Machine.answering _) (unlessNull_eq (hne hd) 0 (hcalm (.load _)))
  | size b =>
    exact congrArg (Machine.answering _) (unlessNull_eq (hne hd) 0 (hcalm (.load _)))
  | external b =>
    exact congrArg (Machine.answering _) (unlessNull_eq (hne hd) 0 (hcalm (.load _)))
  | info b =>
    exact congrArg (Machine.answering _) (unlessNull_eq (hne hd) 0 (hcalm (.load _)))
  | refcount b => exact congrArg (Machine.answering _) (guarded_eq (hcalm (.refcount b)))
  | dump showAddr b =>
    exact congrArg (Machine.answering _) (unlessNull_eq (hne hd) "" (hcalm (.dump showAddr b)))
  | resizableAlloc b n =>
    rw [Operation.entry, Operation.direct, Entry.resizableAlloc, Entry.unlessNull,
      if_neg (hne hd)]
    exact entered_eq hT hrefl (H.resizableAlloc b n) (resizableAlloc_yields h b n)
  | resizableRealloc b n =>
    rw [Operation.entry, Operation.direct, Entry.resizableRealloc, Entry.unlessNull,
      if_neg (hne hd)]
    exact entered_eq hT hrefl (H.resizableRealloc b n) (resizableRealloc_yields h b n)
  | resizableFree b p =>
    exact congrArg Machine.silent (unlessNull_eq (hne hd) () (hcalm (H.resizableFree b p)))
  | compareAndSwap slot expected new cell =>
    exact Entry.swap_eq H hT hrefl (bne_iff_ne.1 hd) expected new cell
  | counter k => exact congrArg (Machine.answering _) (guarded_eq (hcalm (.counter k)))
  | setAllocator o => cases he
  | installFunctions f => cases hd
  | shutDown => exact congrArg Machine.silent (guarded_eq (hcalm H.shutDown))
  | start => exact congrArg Machine.silent (guarded_eq (hcalm H.start))
  | poke a bytes => rfl

/-- An operation does the same on any two routes that have it. -/
theorem Operation.perform_eq {via via' : Route} {o : Operation} (ho : via.offers o = true)
    (ho' : via'.offers o = true) : o.perform h via = o.perform h via' := by
  have htable : ∀ {o : Operation}, Route.table.offers o = true →
      o.perform h .table = o.perform h .entry := fun ho => Operation.tabled_eq_entry h ho
  have hentry : ∀ {o : Operation}, Route.direct.offers o = true → Route.entry.offers o = true →
      o.perform h .entry = o.perform h .direct := fun hd he => entry_eq_direct H hT hrefl hd he
  cases via with
  | direct => cases via' with
    | direct => rfl
    | entry => exact (hentry ho ho').symm
    | table => exact ((htable ho').trans (hentry ho (Route.entry_offers_of_table ho'))).symm
  | entry => cases via' with
    | direct => exact hentry ho' ho
    | entry => rfl
    | table => exact (htable ho').symm
  | table => cases via' with
    | direct => exact (htable ho).trans (hentry ho' (Route.entry_offers_of_table ho))
    | entry => exact htable ho
    | table => rfl

end Routes

/-! ### Programs -/

/-- Two programs that take the same steps, each on any route that has it. -/
inductive Script.Rerouted : Script σ → Script σ → Prop
  | done : Rerouted .done .done
  | step {via via' : Route} {o : Operation} {next next' : Response → World (Journal σ) → Script σ} :
      via.offers o = true → via'.offers o = true → (∀ r w, Rerouted (next r w) (next' r w)) →
      Rerouted (.step via o next) (.step via' o next')
  | install {via via' : Route} {p : Primitive} {s t : Script σ} : via.installs p = true →
      via'.installs p = true → Rerouted s t → Rerouted (.install via p s) (.install via' p t)

/-- One host, and programs that take the same steps on other routes. -/
structure Surroundings.Rerouted (S S' : Surroundings σ) : Prop where
  base : S.base = S'.base
  destructor : ∀ fn data size info w,
    (S.destructor fn data size info w).Rerouted (S'.destructor fn data size info w)
  finalizer : ∀ fn data w, (S.finalizer fn data w).Rerouted (S'.finalizer fn data w)
  closure : ∀ c data size w, (S.closure c data size w).Rerouted (S'.closure c data size w)
  dropClosure : ∀ c w, (S.dropClosure c w).Rerouted (S'.dropClosure c w)

/-- One and the same state, journal and all. -/
def Likeness.sameJournal (σ : Type) : Likeness (Journal σ) (Journal σ) :=
  (same σ).withJournal fun _ => True

lemma Likeness.sameJournal_refl (w : World (Journal σ)) : (sameJournal σ).Worlds w w :=
  ⟨rfl, rfl, rfl, rfl, rfl, rfl, rfl, rfl, rfl, fun _ _ => trivial, rfl, rfl⟩

lemma Likeness.sameJournal_calm : ¬ (sameJournal σ).panics := id

open Likeness (sameJournal sameJournal_refl sameJournal_calm)

/-- A script is like itself. -/
lemma Script.alike_same (s : Script σ) : s.Alike (same σ) s := by
  induction s with
  | done => exact .done
  | install via p s ih =>
    have hp : (same σ).Fits p := by cases p <;> exact rfl
    exact .install via hp ih
  | step via o next ih => exact .step via o ih

/-- Around a host that never panics, nothing panics that is called from inside. -/
lemma Surroundings.calm_host {S : Surroundings σ} (hS : S.base.Calm) (depth : Nat) :
    (sameJournal σ).Hosts (S.host depth) (S.host depth) := by
  have hself : S.Alike (same σ) S :=
    ⟨hS.alike, fun _ _ _ _ _ => Script.alike_same _, fun _ _ _ => Script.alike_same _,
      fun _ _ _ _ => Script.alike_same _, fun _ _ => Script.alike_same _⟩
  exact hself.host same_clear (fun _ _ _ _ _ _ _ _ _ _ => trivial) depth

/-- Scripts run alike whatever routes their steps take. -/
lemma Script.Rerouted.run_eq {h : Host (Journal σ)} (H : (sameJournal σ).Hosts h h)
    {s t : Script σ} (hst : s.Rerouted t) : s.run h = t.run h := by
  induction hst with
  | done => rfl
  | @step via via' o next next' ho ho' hnext ih =>
    have htake : o.take h via = o.take h via' := by
      rw [Operation.take, Operation.take,
        Operation.perform_eq H sameJournal_calm sameJournal_refl ho ho']
    rw [Script.run, Script.run, if_pos ho, if_pos ho', htake]
    exact bind_congr fun r => bind_congr fun w => ih r _
  | @install via via' p s t hp hp' hst ih =>
    funext w
    rw [run_install h s hp, run_install h t hp', ih]

namespace Surroundings.Rerouted

variable {S S' : Surroundings σ}

lemma hostOver_eq (hSS : S.Rerouted S')
    {play play' : (World (Journal σ) → Script σ) → Machine (Journal σ) Unit}
    (hplay : ∀ p q, (∀ w, (p w).Rerouted (q w)) → play p = play' q) :
    S.hostOver play = S'.hostOver play' := by
  simp only [hostOver, hSS.base]
  congr 1
  · funext fn data size info
    rw [hplay _ _ (hSS.destructor fn data size info)]
  · funext fn data
    rw [hplay _ _ (hSS.finalizer fn data)]
  · funext c data size
    rw [hplay _ _ (hSS.closure c data size)]
  · funext c
    rw [hplay _ _ (hSS.dropClosure c)]

/-- The hosts are one and the same, at every depth of nesting. -/
lemma host_eq (hcalm : S.base.Calm) (hSS : S.Rerouted S') (depth : Nat) :
    S.host depth = S'.host depth := by
  induction depth with
  | zero => exact hSS.hostOver_eq fun _ _ _ => rfl
  | succ depth ih =>
    refine hSS.hostOver_eq fun p q hpq => bind_congr fun w => ?_
    rw [← ih]
    exact (hpq _).run_eq (calm_host hcalm depth)

/-- A whole run, whatever routes are chosen for it and inside of it. -/
theorem run_eq (hcalm : S.base.Calm) (hSS : S.Rerouted S') {s t : Script σ} (hst : s.Rerouted t)
    (depth : Nat) : s.run (S.host depth) = t.run (S'.host depth) := by
  rw [← hSS.host_eq hcalm depth]
  exact hst.run_eq (calm_host hcalm depth)

end Surroundings.Rerouted

/-! ### Null handles -/

/-- What is answered for a null handle: null, zero, an invalid count, or nothing. -/
def Operation.idle : Operation → Response
  | payload _ | size _ | external _ | info _ => .word 0
  | refcount _ => .word Handle.invalidRefcount
  | dump .. => .text ""
  | resizableAlloc .. | resizableRealloc .. => .storage none
  | _ => .nothing

/-- With a null handle the answer is the other one. -/
lemma answering_unlessNull {b : Handle} (hb : some b = some 0) (f : α → Response) (other : α)
    (x : Machine σ α) (w : World σ) :
    Machine.answering f (Entry.unlessNull b other x) w = .ok (f other) w := by
  obtain rfl : b = 0 := Option.some.inj hb
  rw [Machine.answering, Machine.bind_apply, unlessNull_zero]
  rfl

/-- With a null handle nothing is done, and the answer is fixed. -/
lemma Operation.entry_null (h : Host σ) {o : Operation} (ho : o.handle? = some 0) (w : World σ) :
    o.entry h w = .ok o.idle w := by
  cases o with
  | init b data n destructor tag ext => exact answering_unlessNull ho _ () _ w
  | acquire b => exact answering_unlessNull ho _ () _ w
  | release b => exact answering_unlessNull ho _ () _ w
  | callDestructor b => exact answering_unlessNull ho _ () _ w
  | destroy b => exact answering_unlessNull ho _ () _ w
  | dealloc b => exact answering_unlessNull ho _ () _ w
  | payload b => exact answering_unlessNull ho _ 0 _ w
  | size b => exact answering_unlessNull ho _ 0 _ w
  | external b => exact answering_unlessNull ho _ 0 _ w
  | info b => exact answering_unlessNull ho _ 0 _ w
  | refcount b =>
    obtain rfl : b = 0 := Option.some.inj ho
    rfl
  | dump showAddr b => exact answering_unlessNull ho _ "" _ w
  | resizableAlloc b n => exact answering_unlessNull ho _ 0 _ w
  | resizableRealloc b n => exact answering_unlessNull ho _ 0 _ w
  | resizableFree b p => exact answering_unlessNull ho _ () _ w
  | _ => cases ho

/-- The surfaces agree. Around a host that never panics, two programs that take the same steps, each
step called directly, through an entry point or through the table, wherever it is to be had, come
from the same state to the same end: the same value or fault, the same runtime and memory, the same
journal of responses and the same state of the host, and so for all that destructors, finalizers and
closures do in turn, which may be rerouted likewise. And around every host an entry point that is
given a null handle leaves the state alone and answers null, zero or an invalid count. -/
theorem surfaces_agree {S S' : Surroundings σ} (hcalm : S.base.Calm) (hSS : S.Rerouted S')
    {s t : Script σ} (hst : s.Rerouted t) (depth : Nat) (w : World (Journal σ)) :
    s.run (S.host depth) w = t.run (S'.host depth) w ∧
      ∀ (h : Host σ) (via : Route) (o : Operation) (v : World σ), via ≠ .direct →
        via.offers o = true → o.handle? = some 0 → o.perform h via v = .ok o.idle v := by
  refine ⟨by rw [hSS.run_eq hcalm hst depth], fun h via o v hvia hoffers hnull => ?_⟩
  cases via with
  | direct => exact absurd rfl hvia
  | entry => exact Operation.entry_null h hnull v
  | table =>
    rw [Operation.perform, Operation.tabled_eq_entry h hoffers]
    exact Operation.entry_null h hnull v

/-- It never panics. -/
lemma Host.single_calm : Host.single.Calm where
  functions _ := ⟨fun _ => .pure _, fun _ _ => .pure _, fun _ => .pure _⟩
  object _ := ⟨fun _ => .pure _, fun _ _ => .pure _, fun _ => .pure _⟩
  externalFunctions _ := ⟨fun _ => .pure _, fun _ _ => .pure _, fun _ => .pure _⟩
  destructor _ _ _ _ := .pure _
  finalizer _ _ := .pure _
  closure _ _ _ := .pure _
  dropClosure _ := .pure _
  step fn c := (Likeness.Alike.addTo (T := same Unit) c _).calm id same_refl
  compareSwap _ slot expected new := by
    have hswap : (same Unit).Alike (swapIfEqual slot expected new)
        (swapIfEqual slot expected new) := Likeness.Alike.swapIfEqual slot expected new
    refine (hswap.bind fun r => ?_).calm id same_refl
    cases r with
    | ok old => exact Likeness.Alike.pure _
    | error old => exact Likeness.Alike.pure _

/-- Its destructors ask for a counter. -/
def Surroundings.asking (via : Route) : Surroundings Unit where
  base := .single
  destructor _ _ _ _ _ := .step via (.counter .alloc) fun _ _ => .done
  finalizer _ _ _ := .done
  closure _ _ _ _ := .done
  dropClosure _ _ := .done

/-- A handle with a destructor is made and released. -/
def Script.brief (via via' : Route) : Script Unit :=
  .step via (.make (.allocDestructor 8 1)) fun _ _ => .step via' (.release 4096) fun _ _ => .done

lemma Surroundings.asking_rerouted :
    (Surroundings.asking .direct).Rerouted (Surroundings.asking .entry) :=
  ⟨rfl, fun _ _ _ _ _ => .step rfl rfl fun _ _ => .done, fun _ _ _ => .done,
    fun _ _ _ _ => .done, fun _ _ => .done⟩

lemma Script.brief_rerouted :
    (Script.brief .direct .direct).Rerouted (Script.brief .entry .table) :=
  .step rfl rfl fun _ _ => .step rfl rfl fun _ _ => .done

/-- All calls direct, or none of them. -/
theorem surfaces_agree_brief :
    (Surroundings.asking .direct).base.Calm ∧
    (Surroundings.asking .direct).Rerouted (Surroundings.asking .entry) ∧
    (Script.brief .direct .direct).Rerouted (Script.brief .entry .table) ∧
    (Script.brief .direct .direct).run ((Surroundings.asking .direct).host 1)
        { host := ⟨[], ()⟩ } =
      (Script.brief .entry .table).run ((Surroundings.asking .entry).host 1)
        { host := ⟨[], ()⟩ } :=
  ⟨Host.single_calm, Surroundings.asking_rerouted, Script.brief_rerouted,
    (surfaces_agree (S := Surroundings.asking .direct) Host.single_calm
      Surroundings.asking_rerouted Script.brief_rerouted 1 _).1⟩

end CountedHeap
