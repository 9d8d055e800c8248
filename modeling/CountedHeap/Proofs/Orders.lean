/-
Blocks for header and payload

Nine ways to make a handle ask for one block, with room for the header, for the payload, and for
moving the payload to an aligned address. They differ in what they ask for and in what they put into
the header, so each of them is an `Order`, and one rule holds for all: if the sizes do not fit into
a word the request is refused before anyone is asked, and otherwise the allocator is asked once, for
exactly their sum.

* `Order`, `Request.order?`: what a request asks for;
* `Order.total`: the size of its block, as a number without bound;
* `Order.place`, `Order.lay`: header and payload in the block, and the handle made of it;
* `Unasking`: a computation that asks no allocator;
* `sizes_checked`: what comes of every such request.

The error names the size that the caller asked for, with one exception: where payload and padding
fit into a word and only the header does not, it names the sum of the two.
-/
import CountedHeap.Proofs.Scripts
import CountedHeap.Proofs.Shortage

namespace CountedHeap

variable {σ α : Type}

/-- Attempts that come to the same in every state are the same. -/
lemma Attempt.ext_run {x y : Attempt σ α} (h : ∀ w, x.run w = y.run w) : x = y := funext h

/-- Whoever is told of a failure is told this one. -/
def Attempt.FailsOnlyBy (e : AllocError) (x : Attempt σ α) : Prop :=
  ∀ w w' e', x.run w = .ok (.error e') w' → e' = e

namespace Attempt.FailsOnlyBy

variable {e : AllocError} {β : Type}

lemma lift (x : Machine σ α) : FailsOnlyBy e (liftM x : Attempt σ α) := by
  intro w w' e' hrun
  rw [lift_apply] at hrun
  cases hx : x w <;> rw [hx] at hrun <;> cases hrun

lemma lift_bind {x : Machine σ β} {f : β → Attempt σ α} (hf : ∀ b, FailsOnlyBy e (f b)) :
    FailsOnlyBy e ((liftM x : Attempt σ β) >>= f) := by
  intro w w' e' hrun
  rw [lift_bind_apply] at hrun
  cases hx : x w with
  | ok b v =>
    rw [hx] at hrun
    exact hf b v w' e' hrun
  | error f v =>
    rw [hx] at hrun
    cases hrun

lemma throw : FailsOnlyBy e (throw e : Attempt σ α) := fun _ _ _ hrun =>
  (Except.error.inj (EStateM.Result.ok.inj hrun).1).symm

end Attempt.FailsOnlyBy

/-! ### Numbers that are held at the largest word -/

namespace Word

lemma clamp_of_lt {n : Nat} (h : n < UInt64.size) : clamp n = UInt64.ofNat n := by
  rw [clamp, ofNat?, if_pos h]
  rfl

lemma clamp_of_le {n : Nat} (h : UInt64.size ≤ n) : clamp n = largest := by
  rw [clamp, ofNat?_eq_none_iff.2 h]
  rfl

/-- A sum is held where its parts are. -/
lemma addClamp_clamp (a : Word) (n : Nat) : addClamp a (clamp n) = clamp (a.toNat + n) := by
  rcases Nat.lt_or_ge n UInt64.size with h | h
  · rw [addClamp, clamp_of_lt h, UInt64.toNat_ofNat_of_lt' h]
  · have hlargest : largest.toNat = UInt64.size - 1 := rfl
    rw [addClamp, clamp_of_le h, hlargest, clamp_of_le (n := a.toNat + n) (by omega)]
    by_cases ha : a.toNat = 0
    · rw [ha, clamp_of_lt (by decide)]
      rfl
    · exact clamp_of_le (by omega)

end Word

lemma toNat_effectiveAlign (align : Word) : (effectiveAlign align).toNat = max align.toNat 1 := by
  show (if align ≤ 1 then 1 else align).toNat = _
  have hone : (1 : Word).toNat = 1 := rfl
  split
  · next h =>
    have hle := UInt64.le_iff_toNat_le.1 h
    omega
  · next h =>
    have hlt := mt UInt64.le_iff_toNat_le.2 h
    omega

/-! ### Orders -/

/-- What a request for header and payload in one block asks for. -/
structure Order where
  /-- the size of the payload -/
  size : Word
  /-- the alignment of the payload, if one is asked for -/
  align? : Option Word := none
  /-- the allocator, null for the default heap -/
  ext : Addr := 0
  /-- whether the payload is filled before the caller sees it -/
  poisoned : Bool := false
  destructor : Addr := 0
  info : Word := 0
  /-- the line of the trace that tells where the payload is -/
  line : Combined → Trace

namespace Order

variable (d : Order)

/-- The room that it takes to move a payload to an aligned address. -/
def padding (align : Word) : Nat := 2 * max align.toNat 1

/-- What a block has room for beside the payload. -/
def overhead : Nat :=
  match d.align? with
  | none => 56
  | some align => 56 + padding align

/-- The size of the block. -/
def total : Nat := d.size.toNat + d.overhead

/-- What a caller is told where the sizes do not fit. If it is only the header for which there is no
room, the padding passes for a part of the payload. -/
def overflow : AllocError :=
  match d.align? with
  | none => .sizeOverflow d.size headerSize
  | some align =>
    if d.size.toNat + padding align < UInt64.size then
      .sizeOverflow (UInt64.ofNat (d.size.toNat + padding align)) headerSize
    else .sizeOverflow d.size (Word.clamp d.overhead)

/-- Header and payload in a block. -/
def place (p : Addr) : Combined :=
  match d.align? with
  | none => ⟨p, p + headerSize⟩
  | some align => ⟨p, p + headerSize + alignOffset (p + headerSize) (effectiveAlign align)⟩

variable (h : Host σ)

/-- Asks for the block. -/
def allocate : Attempt σ Combined :=
  match d.align? with
  | none => allocateCombined h d.size d.ext
  | some align => allocateCombinedAligned h d.size align d.ext

/-- Makes the handle. -/
def make : Attempt σ Handle := do
  let c ← d.allocate h
  if d.poisoned then
    (Machine.fill c.payload d.size Poison.fresh : Machine σ Unit)
  h.trace (d.line c)
  Handle.ofCombined h c d.size d.destructor d.info d.ext

/-- Makes the handle in a block that was given out. -/
def lay (p : Addr) : Machine σ Handle := do
  count h .alloc
  h.trace (.allocated p (UInt64.ofNat d.total))
  if d.poisoned then
    Machine.fill (d.place p).payload d.size Poison.fresh
  h.trace (d.line (d.place p))
  Handle.ofCombined h (d.place p) d.size d.destructor d.info d.ext

end Order

/-- The order of a request, if it is for one block. A closure does not show in it: its handle gets
another destructor when it is made. -/
def Request.order? : Request → Option Order
  | alloc size => some { size, line := fun c => .payloadAllocated "alloc" c.payload }
  | allocExternal size ext =>
    some { size, ext, line := fun c => .payloadAllocated "alloc_external" c.payload }
  | allocSafe size =>
    some {
      size, poisoned := true, destructor := Adapter.customSafe.addr
      line := fun c => .payloadSized "alloc_dtor_safe" c.payload size }
  | allocDestructor size destructor =>
    some {
      size, destructor := Adapter.custom.addr, info := destructor
      line := fun c => .payloadSized "alloc_dtor" c.payload size }
  | allocDestructorSafe size destructor =>
    some {
      size, poisoned := true, destructor := Adapter.customSafe.addr, info := destructor
      line := fun c => .payloadSized "alloc_dtor_safe" c.payload size }
  | allocAligned size align =>
    some {
      size, align? := some align
      line := fun c => .payloadAllocated "alloc_aligned" c.payload }
  | allocSafeAligned size align =>
    some {
      size, align? := some align, poisoned := true, destructor := Adapter.safe.addr, info := size
      line := fun c => .payloadSized "alloc_safe_aligned" c.payload size }
  | allocSafeAlignedExternal size align ext =>
    some {
      size, align? := some align, ext, poisoned := true, destructor := Adapter.safe.addr
      info := size, line := fun c => .payloadSized "alloc_safe_aligned" c.payload size }
  | allocClosure size _ => some { size, line := fun c => .payloadAllocated "alloc" c.payload }
  | new .. | manage .. | newResizable .. | newResizableWith .. => none

/-- Every payload that lies in the block of its header is ordered in this way. -/
lemma Request.order?_isSome (r : Request) : r.order?.isSome = r.combined := by cases r <;> rfl

/-- A request is its order, if there is no closure with it. -/
lemma Request.make_eq (h : Host σ) {r : Request} {d : Order} (hr : r.order? = some d)
    (hnone : r.closure? = none) : r.make h = d.make h := by
  cases r with
  | new | manage | newResizable | newResizableWith => cases hr
  | allocClosure => cases hnone
  | _ =>
    obtain rfl := Option.some.inj hr
    rfl

namespace Order

variable (d : Order) (h : Host σ)

/-! ### Sizes -/

lemma paddedSize?_eq (size align : Word) :
    paddedSize? size (effectiveAlign align) = Word.ofNat? (size.toNat + padding align) := by
  unfold paddedSize? Word.mul? Word.add? padding
  have htwo : (2 : Word).toNat = 2 := rfl
  rw [htwo, toNat_effectiveAlign, Nat.mul_comm]
  cases htwice : Word.ofNat? (2 * max align.toNat 1) with
  | none =>
    have hle := Word.ofNat?_eq_none_iff.1 htwice
    exact (Word.ofNat?_eq_none_iff.2 (by omega)).symm
  | some twice =>
    rw [← Word.ofNat?_eq_some_iff.1 htwice]
    rfl

/-- What does not fit is refused. -/
lemma allocate_of_overflow (hd : UInt64.size ≤ d.total) : d.allocate h = throw d.overflow := by
  unfold total overhead at hd
  unfold allocate overflow overhead
  have hheader : headerSize.toNat = 56 := rfl
  cases ha : d.align? with
  | none =>
    simp only [ha] at hd
    unfold allocateCombined Word.add?
    rw [hheader, Word.ofNat?_eq_none_iff.2 hd]
  | some align =>
    simp only [ha] at hd
    unfold allocateCombinedAligned
    simp only [paddedSize?_eq]
    by_cases hpad : d.size.toNat + padding align < UInt64.size
    · -- There is room for the padding, and none for the header.
      have hsum : (UInt64.ofNat (d.size.toNat + padding align)).toNat =
          d.size.toNat + padding align := UInt64.toNat_ofNat_of_lt' hpad
      rw [if_pos hpad, Word.ofNat?_eq_some_iff.2 hsum]
      simp only [allocateCombined, Word.add?, hsum, hheader,
        Word.ofNat?_eq_none_iff.2 (show UInt64.size ≤ d.size.toNat + padding align + 56 by omega)]
      rfl
    · have htwo : (2 : Word).toNat = 2 := rfl
      rw [if_neg hpad, Word.ofNat?_eq_none_iff.2 (Nat.le_of_not_lt hpad), Word.mulClamp,
        Word.addClamp_clamp, hheader, htwo, toNat_effectiveAlign, Nat.mul_comm _ 2]
      rfl

/-- What fits is asked for, and nothing else is. -/
lemma allocate_of_fits (hd : d.total < UInt64.size) : d.allocate h = (do
    let p ← Storage.allocateFrom h d.ext (UInt64.ofNat d.total)
    return d.place p) := by
  have htotal : (UInt64.ofNat d.total).toNat = d.total := UInt64.toNat_ofNat_of_lt' hd
  unfold total overhead at hd htotal
  unfold allocate place total overhead
  have hheader : headerSize.toNat = 56 := rfl
  cases ha : d.align? with
  | none =>
    simp only [ha] at hd htotal
    unfold allocateCombined Word.add?
    rw [hheader, Word.ofNat?_eq_some_iff.2 htotal]
  | some align =>
    simp only [ha] at hd htotal
    have hpad : (UInt64.ofNat (d.size.toNat + padding align)).toNat =
        d.size.toNat + padding align := UInt64.toNat_ofNat_of_lt' (by omega)
    have hsum : Word.add? (UInt64.ofNat (d.size.toNat + padding align)) headerSize =
        some (UInt64.ofNat (d.size.toNat + (56 + padding align))) :=
      Word.ofNat?_eq_some_iff.2 (by omega)
    unfold allocateCombinedAligned
    simp only [paddedSize?_eq, Word.ofNat?_eq_some_iff.2 hpad, allocateCombined, hsum, bind_assoc,
      pure_bind]

/-! ### Requests -/

/-- A request that does not fit fails, and nothing has happened. -/
lemma make_of_overflow (hd : UInt64.size ≤ d.total) (w : World σ) :
    (d.make h).run w = .ok (.error d.overflow) w := by
  rw [make, d.allocate_of_overflow h hd]
  rfl

/-- A request that fits is one request to the allocator, and null is a failure. -/
lemma make_of_fits (hd : d.total < UInt64.size) : d.make h = (do
    let p ← (allocatorAt h d.ext).allocate (UInt64.ofNat d.total)
    if p = 0 then throw (.outOfMemory (UInt64.ofNat d.total))
    d.lay h p : Attempt σ Handle) := by
  rw [make, d.allocate_of_fits h hd]
  unfold lay
  simp only [Storage.allocateFrom, bind_assoc, pure_bind, liftM_bind]
  refine bind_congr fun p => ?_
  by_cases h0 : p = 0
  · rw [if_pos h0, if_pos h0]
    rfl
  · rw [if_neg h0, if_neg h0]
    simp only [bind_assoc, pure_bind]
    refine bind_congr fun _ => bind_congr fun _ => ?_
    split
    · simp only [liftM_bind]
    · simp only [liftM_bind]

end Order

/-! ### Closures -/

namespace Request

/-- What comes before the block is asked for: a closure is put into a box. -/
def prepare (r : Request) : Machine σ (Option Addr) :=
  match r.closure? with
  | none => return none
  | some c => some <$> Handle.boxClosure c

/-- A failure is told, and a closure that is still in its box is dropped. -/
def fail (h : Host σ) (box : Option Addr) (e : AllocError) : Attempt σ α := do
  if let some a := box then
    if let some c ← (Handle.unboxClosure a : Machine σ (Option Nat)) then h.dropClosure c
  throw e

/-- Nothing comes after a failure. -/
lemma fail_bind {β : Type} (h : Host σ) (box : Option Addr) (e : AllocError)
    (f : β → Attempt σ α) : (fail h box e >>= f) = fail h box e := by
  refine Attempt.ext_run fun w => ?_
  cases box with
  | none => rfl
  | some a =>
    simp only [fail, bind_assoc, Attempt.lift_bind_apply, Handle.unboxClosure,
      Machine.modifyGet_apply]
    cases w.boxes.find? a with
    | none => rfl
    | some c =>
      simp only [bind_assoc, Attempt.lift_bind_apply]
      cases h.dropClosure c _ <;> rfl

lemma fail_failsOnlyBy (h : Host σ) (box : Option Addr) (e : AllocError) :
    Attempt.FailsOnlyBy e (fail h box e : Attempt σ α) := by
  cases box with
  | none => exact .throw
  | some a =>
    refine .lift_bind fun c? => ?_
    cases c? with
    | none => exact .throw
    | some c => exact .lift_bind fun _ => .throw

/-- A handle is told of its closure. -/
def complete (box : Option Addr) (b : Handle) : Machine σ Handle := do
  if let some a := box then Handle.setDestructor b Adapter.boxed.addr a
  return b

/-- A request is its order, with the closure in its box meanwhile. -/
lemma make_eq_complete (h : Host σ) {r : Request} {d : Order} (hr : r.order? = some d) :
    r.make h = (do
      let box ← (r.prepare : Machine σ (Option Addr))
      let b ← tryCatch (d.make h) (fail h box)
      (complete box b : Machine σ Handle)) := by
  cases hc : r.closure? with
  | none =>
    rw [make_eq h hr hc, prepare, hc]
    refine Attempt.ext_run fun w => ?_
    simp only [pure_bind, liftM_pure]
    rw [Attempt.bind_apply, Attempt.tryCatch_apply]
    cases (d.make h).run w with
    | ok r v => cases r <;> rfl
    | error f v => rfl
  | some c =>
    cases r with
    | allocClosure size c' =>
      obtain rfl := Option.some.inj hr
      obtain rfl := Option.some.inj hc
      rfl
    | _ => cases hc

/-- What is left of a request that is refused before anyone is asked: nothing, but that its closure
is dropped. -/
def refusal (h : Host σ) (r : Request) (e : AllocError) (w : World σ) :
    EStateM.Result Fault (World σ) (Except AllocError Handle) :=
  match r.closure? with
  | none => .ok (.error e) w
  | some c =>
    (do h.dropClosure c; return .error e : Machine σ (Except AllocError Handle))
      { w with boxes := (w.boxes.make c).2.erase (w.boxes.make c).1 }

lemma make_of_overflow (h : Host σ) {r : Request} {d : Order} (hr : r.order? = some d)
    (hd : UInt64.size ≤ d.total) (w : World σ) :
    (r.make h).run w = r.refusal h d.overflow w := by
  unfold refusal
  cases hc : r.closure? with
  | none => rw [make_eq h hr hc, d.make_of_overflow h hd]
  | some c =>
    cases r with
    | allocClosure size c' =>
      obtain rfl := Option.some.inj hc
      have halloc : (Handle.alloc h size).run { w with boxes := (w.boxes.make c').2 } =
          .ok (.error d.overflow) { w with boxes := (w.boxes.make c').2 } := by
        show ((Request.alloc size).make h).run _ = _
        rw [make_eq h (r := .alloc size) hr rfl, d.make_of_overflow h hd]
      exact Environment.allocClosure_run_error halloc rfl
    | _ => cases hc

end Request

/-! ### Who is asked -/

/-- The host with the allocators of another. -/
def Host.withAllocators (h k : Host σ) : Host σ :=
  { h with
    functions := k.functions
    object := k.object
    external := k.external
    externalFunctions := k.externalFunctions }

/-- What is done around a host asks none of its allocators: it comes to the same with any others. -/
def Unasking (x : Host σ → α) : Prop := ∀ h k, x (h.withAllocators k) = x h

variable {r : Request} {d : Order}

/-- A request that fits is one request to its allocator, before and after which none is asked. -/
lemma Request.make_of_fits (hr : r.order? = some d)
    (hd : d.total < UInt64.size) :
    ∃ rest : Host σ → Option Addr → Addr → Machine σ Handle,
      (∀ box p, Unasking fun h => rest h box p) ∧ ∀ h : Host σ, r.make h = (do
        let box ← (r.prepare : Machine σ (Option Addr))
        let p ← (allocatorAt h d.ext).allocate (UInt64.ofNat d.total)
        if p = 0 then Request.fail h box (.outOfMemory (UInt64.ofNat d.total))
        rest h box p : Attempt σ Handle) := by
  refine ⟨fun h box p => do complete box (← d.lay h p), fun box p _ _ => rfl, fun h => ?_⟩
  rw [make_eq_complete h hr]
  refine bind_congr fun box => ?_
  rw [d.make_of_fits h hd]
  refine Attempt.ext_run fun w => ?_
  rw [Attempt.bind_apply, Attempt.tryCatch_apply, Attempt.lift_bind_apply, Attempt.lift_bind_apply]
  cases (allocatorAt h d.ext).allocate (UInt64.ofNat d.total) w with
  | error f v => rfl
  | ok p v =>
    by_cases h0 : p = 0
    · simp only [if_pos h0, Attempt.bind_apply v (throw _), Attempt.throw_apply]
      rw [← Attempt.bind_apply v (fail h box _) fun b => liftM (complete box b), fail_bind,
        fail_bind]
    · simp only [if_neg h0, Attempt.lift_apply, Machine.bind_apply]
      cases d.lay h p v <;> rfl

/-- Where a failure is told, it tells which of the two it was. -/
lemma Request.make_failsOnlyBy (hr : r.order? = some d) (h : Host σ) :
    Attempt.FailsOnlyBy
      (if d.total < UInt64.size then .outOfMemory (UInt64.ofNat d.total) else d.overflow)
      (r.make h) := by
  by_cases hd : d.total < UInt64.size
  · rw [if_pos hd]
    obtain ⟨rest, -, hmake⟩ := make_of_fits (σ := σ) hr hd
    rw [hmake]
    refine .lift_bind fun box => .lift_bind fun p => ?_
    simp only
    split
    · rw [fail_bind]
      exact fail_failsOnlyBy h box _
    · exact .lift _
  · rw [if_neg hd]
    intro w w' e hrun
    rw [make_of_overflow h hr (Nat.le_of_not_lt hd), refusal] at hrun
    split at hrun
    · exact (Except.error.inj (EStateM.Result.ok.inj hrun).1).symm
    · rw [Machine.bind_apply] at hrun
      split at hrun
      · exact (Except.error.inj (EStateM.Result.ok.inj hrun).1).symm
      · cases hrun

/-- **Sizes are checked.** A request for header and payload in one block knows what it needs before
it asks. If that does not fit into a word, no allocator is asked and nothing is counted; the error
names the size and its overhead, or the padded size and the header where only this does not fit. If
it does fit, the allocator of the request is asked once, for exactly that many bytes, and no other
allocator is asked before or after; null is a failure that names the number. -/
theorem sizes_checked (hr : r.order? = some d) :
    (UInt64.size ≤ d.total → ∀ (h : Host σ) w, (r.make h).run w = r.refusal h d.overflow w) ∧
    (d.total < UInt64.size → ∃ rest : Host σ → Option Addr → Addr → Machine σ Handle,
      (∀ box p, Unasking fun h => rest h box p) ∧ ∀ h : Host σ, r.make h = (do
        let box ← (r.prepare : Machine σ (Option Addr))
        let p ← (allocatorAt h d.ext).allocate (UInt64.ofNat d.total)
        if p = 0 then Request.fail h box (.outOfMemory (UInt64.ofNat d.total))
        rest h box p : Attempt σ Handle)) ∧
    ∀ h : Host σ, Attempt.FailsOnlyBy
      (if d.total < UInt64.size then .outOfMemory (UInt64.ofNat d.total) else d.overflow)
      (r.make h) :=
  ⟨fun hd h => Request.make_of_overflow h hr hd, Request.make_of_fits hr,
    Request.make_failsOnlyBy hr⟩

/-- A payload of 100 bytes at a multiple of 48 takes a block of 252 bytes. -/
theorem sizes_checked_aligned : ∃ d, (Request.allocSafeAligned 100 48).order? = some d ∧
    d.total = 252 ∧ ∃ rest : Host Unit → Option Addr → Addr → Machine Unit Handle,
      (∀ box p, Unasking fun h => rest h box p) ∧
      (Request.allocSafeAligned 100 48).make Host.single = (do
        let box ← ((Request.allocSafeAligned 100 48).prepare : Machine Unit (Option Addr))
        let p ← (allocatorAt Host.single 0).allocate 252
        if p = 0 then Request.fail Host.single box (.outOfMemory 252)
        rest Host.single box p : Attempt Unit Handle) := by
  refine ⟨_, rfl, by decide, ?_⟩
  obtain ⟨rest, hrest, hmake⟩ := (sizes_checked (σ := Unit)
    (show (Request.allocSafeAligned 100 48).order? = some _ from rfl)).2.1 (by decide)
  exact ⟨rest, hrest, hmake Host.single⟩

/-- Where there is room for the padding and none for the header, the caller is told of two bytes
more than he asked for, and of two bytes less than are added to them. -/
theorem padding_told_as_payload :
    ((Request.allocAligned (0 - 58) 1).make Host.single).run { host := () } =
      .ok (.error (.sizeOverflow (0 - 56) 56)) { host := () } ∧
    ((Request.allocAligned (0 - 58) 1).make Host.single).run { host := () } ≠
      .ok (.error (.sizeOverflow (0 - 58) 58)) { host := () } := by
  have hrun : ((Request.allocAligned (0 - 58) 1).make Host.single).run { host := () } =
      .ok (.error (.sizeOverflow (0 - 56) 56)) { host := () } := rfl
  refine ⟨hrun, fun hother => ?_⟩
  rw [hrun] at hother
  have herror := AllocError.sizeOverflow.inj (Except.error.inj (EStateM.Result.ok.inj hother).1)
  exact absurd herror.2 (by decide)

end CountedHeap
