/-
What each operation may do

Every operation of the runtime has a footprint, which can be told from the state that it is called
in; only of a request for a handle it takes the outcome, too. This module gives the footprints and
shows that the operations stay within them.

* `Header.ending`: what the end of a handle may do;
* `Request.met`, `Request.refused`: what a request for a handle may do;
* `Call.footprint`: every operation;
* `Environment.callDestructor_within`, `Environment.make_answers`: the two that take work;
* `Environment.perform_within`: all of them.
-/
import CountedHeap.Proofs.Changes
import CountedHeap.Proofs.Fixed

namespace CountedHeap

open Memory (Apart range mem_range)

/-! ### The footprints -/

/-- The bytes of a word in the header of `b`. -/
def Field.bytes (f : Field) (b : Handle) : Set Nat := range (b + f.offset) 8

/-- The function that is called is there. -/
def Event.HasCallee : Event → Prop
  | .destructor fn .. | .finalizer fn _ => fn ≠ 0
  | _ => True

namespace Header

variable (d : Header)

/-- The bytes of the payload. -/
def span : Set Nat := range d.payload d.size.toNat

/-- The payload is poisoned when the handle ends. -/
def Poisons : Prop :=
  d.destructor = Adapter.customSafe.addr ∨ d.destructor = Adapter.safe.addr

/-- The calls that the end of a handle makes, and the closure that it drops. -/
def Summons (boxes : Boxes) (e : Event) : Prop :=
  d.destructor ≠ 0 ∧ (d.CallsFor boxes e ∧ e.HasCallee ∨
    ∃ c, d.destructor = Adapter.boxed.addr ∧ boxes.find? d.info = some c ∧ e = .closureDropped c)

/-- What the end of the handle `b` with this header may do in the state `w`. Unless the runtime is
shutting down, its destructor is called; a safe one has the payload poisoned, and that of a
resizable handle has it given back. -/
def ending (b : Handle) (w : World History) : Footprint where
  writes := {i | w.shuttingDown = false ∧ d.Poisons ∧ i ∈ d.span}
  gives := {q | q = b ∨ w.shuttingDown = false ∧ d.destructor = Adapter.resizable.addr ∧
    d.payload ≠ 0 ∧ q = d.payload}
  calls := {e | w.shuttingDown = false ∧ d.Summons w.boxes e}

variable {d}

lemma span_recount (d : Header) (v : Word) : { d with refcount := v }.span = d.span := rfl

lemma poisons_recount (d : Header) (v : Word) :
    { d with refcount := v }.Poisons ↔ d.Poisons := .rfl

lemma callsFor_recount {v : Word} {boxes : Boxes} {e : Event} :
    { d with refcount := v }.CallsFor boxes e ↔ d.CallsFor boxes e := by
  cases e <;> exact .rfl

/-- The count of a header means nothing to its end. -/
lemma ending_recount (d : Header) (v : Word) (b : Handle) {w w' : World History}
    (hdown : w'.shuttingDown = w.shuttingDown) (hboxes : w'.boxes = w.boxes) :
    { d with refcount := v }.ending b w' = d.ending b w := by
  simp only [ending, Summons, Poisons, span, callsFor_recount, hdown, hboxes]

end Header

namespace Request

/-- The payload is poisoned before the caller is handed it. -/
def Safe : Request → Prop
  | allocSafe _ | allocDestructorSafe .. | allocSafeAligned .. | allocSafeAlignedExternal .. => True
  | _ => False

variable (r : Request)

/-- What a request may do that makes the handle `b` with the header `d`: it writes the header and,
if the handle is to be safe, the payload. -/
def met (b : Handle) (d : Header) : Footprint where
  writes := {i | i ∈ range b 56 ∨ r.Safe ∧ i ∈ d.span}

/-- What a request may do that fails in the state `w`: it gives back what it got itself, and drops
its closure. -/
def refused (w : World History) : Footprint where
  gives := {q | q ∉ (ledger w.host).blocks}
  calls := {e | ∃ c, r.closure? = some c ∧ e = .closureDropped c}

/-- What a request may do that was made in the state `w` and went as it went. -/
def footprint (w : World History) :
    EStateM.Result Fault (World History) (Except AllocError Handle) → Footprint
  | .ok (.ok b) v => r.met b (v.memory.header b)
  | _ => r.refused w

end Request

/-- What an operation may do in the state `w`. -/
def Call.footprint (h : Host History) (w : World History) : Call → Footprint
  | reallocate p _ => { gives := {p} }
  | free p => { gives := {p} }
  | make r => r.footprint w ((r.make h).run w)
  | init b .. => { writes := range b 56 }
  | acquire b => { writes := Field.refcount.bytes b }
  | clone r => { writes := Field.refcount.bytes r.handle }
  | release b => lastly b
  | drop r => lastly r.handle
  | callDestructor b => (w.memory.header b).ending b w
  | destroy b | dealloc b => { gives := {b} }
  | resizableAlloc b _ => { writes := Field.payload.bytes b ∪ Field.size.bytes b }
  | resizableRealloc b _ =>
    { writes := Field.payload.bytes b ∪ Field.size.bytes b
      gives := {q | (w.memory.header b).kind = .resizable ∧ (w.memory.header b).payload ≠ 0 ∧
        q = (w.memory.header b).payload} }
  | resizableFree b p => { writes := Field.payload.bytes b, gives := {p} }
  | _ => {}
where
  /-- A reference is given up, and the handle ends with the last one. -/
  lastly (b : Handle) : Footprint :=
    { writes := {i | i ∈ Field.refcount.bytes b ∨ (w.memory.header b).refcount = 1 ∧
        i ∈ ((w.memory.header b).ending b w).writes}
      gives := {q | (w.memory.header b).refcount = 1 ∧ q ∈ ((w.memory.header b).ending b w).gives}
      calls := {e | (w.memory.header b).refcount = 1 ∧
        e ∈ ((w.memory.header b).ending b w).calls} }

namespace Environment

variable {E : Environment} {h : Host History} {F : Footprint} {w v : World History} {b : Handle}
  {d : Header} {play : (World History → Program) → Machine History Unit}

/-! ### The end of a handle -/

/-- A program that is called back. -/
lemma within_call {e : Event} (hw : E.Steady w) (he : e ∈ F.calls) :
    E.Within h F (e.call h) w := .called .refl he hw

lemma within_none : E.Within h F (pure none : Machine History (Option Nat)) w := .of_ok rfl .refl

/-- The destructor that an adapter hands payload and size to. -/
lemma runCustom_within (hw : E.Steady w)
    (hF : d.info ≠ 0 → .destructor d.info d.payload d.size 0 ∈ F.calls) :
    E.Within (E.hostOver play) F
      (Adapter.runCustom (E.hostOver play) d.payload d.size d.info) w := by
  refine .bind_run (E.trace_run play w _) .refl ?_
  by_cases h0 : d.info = 0
  · rw [if_neg (not_not.2 h0)]
    exact .of_ok rfl .refl
  · rw [if_pos h0]
    exact within_call hw (hF h0)

/-- The caller's part of a destructor. -/
lemma callOut_within (hw : E.Steady w) (h0 : d.destructor ≠ 0)
    (hF : {e | d.Summons w.boxes e} ⊆ F.calls) :
    E.Within (E.hostOver play) F (d.callOut (E.hostOver play)) w := by
  have hcalled : ∀ e, d.CallsFor w.boxes e → e.HasCallee → e ∈ F.calls := fun e he hcallee =>
    hF ⟨h0, .inl ⟨he, hcallee⟩⟩
  have hcustom : d.destructor = Adapter.custom.addr ∨ d.destructor = Adapter.customSafe.addr →
      d.info ≠ 0 → .destructor d.info d.payload d.size 0 ∈ F.calls := fun hd hi =>
    hcalled _ ⟨rfl, rfl, .inr ⟨hd, rfl, rfl⟩⟩ hi
  rw [Header.callOut]
  cases ha : Adapter.ofAddr? d.destructor with
  | none =>
    exact (within_call hw (hcalled (.destructor d.destructor d.payload d.size d.info)
      ⟨rfl, rfl, .inl ⟨ha, rfl, rfl⟩⟩ h0)).bind fun _ _ _ => within_none
  | some a =>
    have hda := Adapter.eq_of_ofAddr? ha
    cases a with
    | custom => exact (runCustom_within hw (hcustom (.inl hda))).bind fun _ _ _ => within_none
    | customSafe => exact (runCustom_within hw (hcustom (.inr hda))).bind fun _ _ _ => within_none
    | safe => exact within_none
    | managed =>
      by_cases hi : d.info = 0
      · simp only [hi, ne_eq, not_true_eq_false, if_false]
        exact .of_ok rfl .refl
      · simp only [hi, ne_eq, not_false_eq_true, if_true]
        exact (within_call hw (hcalled (.finalizer d.info d.payload) ⟨.inl hda, rfl, rfl⟩ hi)).bind
          fun _ _ _ => within_none
    | boxed =>
      have hunbox : (Handle.unboxClosure d.info : Machine History (Option Nat)) w =
          .ok (w.boxes.find? d.info) { w with boxes := w.boxes.erase d.info } := rfl
      refine .bind_run hunbox (.aside .refl rfl rfl) ?_
      cases hfind : w.boxes.find? d.info with
      | none => exact within_none
      | some c =>
        refine (within_call (e := .closure c d.payload d.size) (hw.withBoxes _).1
          (hcalled _ ⟨hda, hfind, rfl, rfl⟩ trivial)).bind fun _ v _ => .of_ok rfl .refl
    | resizable =>
      by_cases hi : d.payload ≠ 0 ∧ d.info ≠ 0
      · simp only [if_pos hi]
        exact (within_call hw
          (hcalled (.finalizer d.info d.payload) ⟨.inr hda, rfl, rfl⟩ hi.2)).bind
          fun _ _ _ => within_none
      · simp only [if_neg hi]
        exact .of_ok rfl .refl

/-- A closure that was called was the one in the box. -/
lemma callOut_boxed {c : Nat} (hd : d.destructor = Adapter.boxed.addr)
    (hrun : d.callOut (E.hostOver play) w = .ok (some c) v) : w.boxes.find? d.info = some c := by
  have hunbox : (Handle.unboxClosure d.info : Machine History (Option Nat)) w =
      .ok (w.boxes.find? d.info) { w with boxes := w.boxes.erase d.info } := rfl
  rw [Header.callOut, hd, Adapter.ofAddr?_addr] at hrun
  simp only [Machine.bind_apply, hunbox] at hrun
  cases hfind : w.boxes.find? d.info with
  | none =>
    simp only [hfind, Machine.pure_apply] at hrun
    cases (EStateM.Result.ok.inj hrun).1
  | some c' =>
    simp only [hfind, Machine.bind_apply] at hrun
    cases hcall : (E.hostOver play).closure c' d.payload d.size
        { w with boxes := w.boxes.erase d.info } with
    | ok _ _ =>
      simp only [hcall, Machine.pure_apply] at hrun
      exact (EStateM.Result.ok.inj hrun).1
    | error _ _ =>
      simp only [hcall] at hrun
      cases hrun

/-- What is left of a destructor where that is no code of the caller's: the payload is poisoned or
given back. -/
lemma completed_moves (hv : E.Steady v) (hb : b ∈ (ledger v.host).handles)
    (hpoison : (v.memory.header b).Poisons → (v.memory.header b).span ⊆ F.writes)
    (hgives : (v.memory.header b).destructor = Adapter.resizable.addr →
      (v.memory.header b).payload ≠ 0 → (v.memory.header b).payload ∈ F.gives) :
    E.Moves h F v (E.completed (v.memory.header b) v) := by
  obtain ⟨hp, he⟩ | ⟨hd, h0, he⟩ | ⟨-, -, he⟩ := E.completed_cases (v.memory.header b) v
  all_goals rw [he]
  · exact .fill .refl _ (hpoison hp)
  · have hk := (hv.sound.headed.header b hb).adapter.1 hd
    exact .handedBack .refl (hgives hd h0) (hv.payload hb hk h0).1
  · exact .refl

/-- The storage of a handle goes back to the allocator that gave it out. -/
lemma destroy_within (hv : E.Steady v) (hb : b ∈ (ledger v.host).handles) (hF : b ∈ F.gives) :
    E.Within h F (Handle.destroy (E.hostOver play) b) v :=
  .of_ok (hv.destroy_of hb rfl rfl) (.destroyed .refl hF ⟨hv.mem_blocks hb, rfl⟩)

/-- The end of a handle stays within what its header allows. -/
lemma callDestructor_within (hplay : Obeys E play) (hw : E.Steady w)
    (hdying : (ledger w.host).Dying b) (hbegun : w.shuttingDown = false → Begun b w)
    (hF : (w.memory.header b).ending b w ≤ F) :
    E.Within (E.hostOver play) F (Handle.callDestructor (E.hostOver play) b) w := by
  obtain ⟨d, hh⟩ : ∃ d, w.memory.header b = d := ⟨_, rfl⟩
  rw [hh] at hF
  obtain ⟨hwrites, hgives, hcalls⟩ := hF
  have hself : b ∈ F.gives := hgives (.inl rfl)
  by_cases hcall : d.destructor ≠ 0 ∧ w.shuttingDown = false
  · obtain ⟨h0, hup⟩ := hcall
    refine .of_eq (callDestructor_parts hup (by rw [hh]; exact h0)) .refl ?_
    rw [hh]
    have hout : E.Within (E.hostOver play) F (d.callOut (E.hostOver play)) w :=
      callOut_within hw h0 fun e he => hcalls ⟨hup, he⟩
    refine hout.withoutUnwinding.bind fun c v hbarred => ?_
    have hrun := Machine.withoutUnwinding_eq_ok.1 hbarred
    obtain ⟨hreach, hboxed⟩ := (callOut_ends hplay hw (hbegun hup) hh).post hrun
    obtain ⟨hdying', hheader⟩ := hreach.2 b hdying
    cases c with
    | some c =>
      have hda := hboxed c rfl
      have hdrop : d.aftermath (E.hostOver play) (some c) = (E.hostOver play).dropClosure c := by
        rw [Header.aftermath, hda, Adapter.ofAddr?_addr]
      have hsummoned : .closureDropped c ∈ F.calls :=
        hcalls ⟨hup, h0, .inr ⟨c, hda, callOut_boxed hda hrun, rfl⟩⟩
      rw [hdrop]
      refine (within_call hreach.1 hsummoned).withoutUnwinding.bind fun _ v' hrun' => ?_
      have hreach' := (dropClosure_ends play hplay hreach.1 c).withoutUnwinding.post hrun'
      exact destroy_within hreach'.1 (hreach'.2 b hdying').1.1 hself
    | none =>
      have hrest := aftermath_run play hreach.1 hdying'.1
      have hcleared := hreach.1.completed_cleared hdying'.1
      have hmoves : E.Moves (E.hostOver play) F v (E.completed (v.memory.header b) v) := by
        refine completed_moves hreach.1 hdying'.1 ?_ ?_ <;> rw [hheader, hh]
        · exact fun hp i hi => hwrites ⟨hup, hp, hi⟩
        · exact fun hd hp => hgives (.inr ⟨hup, hd, hp, rfl⟩)
      rw [hheader, hh] at hrest hcleared hmoves
      refine .bind_run (Machine.withoutUnwinding_eq_ok.2 hrest) hmoves
        (.of_ok (hreach.1.destroy_of hdying'.1 (hcleared.headers b hdying'.1) hcleared.bindings)
          (.destroyed .refl hself ⟨?_, ?_⟩))
      · exact (hcleared.blocks b).2 ⟨hreach.1.mem_blocks hdying'.1, fun _ => rfl⟩
      · rw [hcleared.source]
  · refine .of_eq (callDestructor_run play b) .refl ?_
    have hnot : ¬ (d.destructor ≠ 0 ∧ ¬ w.shuttingDown) := by simpa using hcall
    rw [hh, if_neg hnot]
    exact destroy_within hw hdying.1 hself

/-! ### Requests for handles -/

/-- A block for `n` bytes was given out at `p` and counted, and nothing else happened. -/
def Allots (E : Environment) (w : World History) (n : Nat) (p : Addr) (v : World History) : Prop :=
  ∃ s k, n ≤ k.toNat ∧ p = (E.allocate s k w).addr ∧ p ≠ 0 ∧ v = E.handed s k w

namespace Allots

variable {n : Nat} {p : Addr}

lemma moves (hp : E.Allots w n p v) : E.Moves h F w v := by
  obtain ⟨s, k, -, -, -, rfl⟩ := hp
  exact .handed .refl s k

lemma fresh (hp : E.Allots w n p v) : (ledger w.host).Fresh p n := by
  obtain ⟨s, k, hk, rfl, h0, -⟩ := hp
  exact (E.allocate_fresh s k w h0).mono (hk.trans (le_max_left _ _))

lemma correct (hp : E.Allots w n p v) (hc : E.Correct w.bindings.incDec) :
    E.Correct v.bindings.incDec := by
  obtain ⟨s, k, -, -, -, rfl⟩ := hp
  exact hc

end Allots

/-- A block was given out in which the `size` bytes of a payload lie behind those of a header. -/
def Houses (E : Environment) (w : World History) (size : Word) (c : Combined)
    (v : World History) : Prop :=
  ∃ n k, E.Allots w n c.header v ∧ 56 ≤ k ∧ k + size.toNat ≤ n ∧
    c.payload = c.header + UInt64.ofNat k

namespace Houses

variable {size : Word} {c : Combined}

lemma moves (hc : E.Houses w size c v) : E.Moves h F w v := by
  obtain ⟨n, k, hallots, -⟩ := hc
  exact hallots.moves

lemma correct (hv : E.Houses w size c v) (hc : E.Correct w.bindings.incDec) :
    E.Correct v.bindings.incDec := by
  obtain ⟨n, k, hallots, -⟩ := hv
  exact hallots.correct hc

end Houses

lemma allocateFrom_allots (hc : E.Correct w.bindings.incDec) (ext n : Word) :
    Settles (Storage.allocateFrom (E.hostOver play) ext n) w (E.Allots w n.toNat)
      (E.Denied w) := by
  obtain hrun | ⟨n', hn, ⟨h0, hrun⟩ | ⟨h0, hrun⟩⟩ := allocateFrom_cases play hc ext n
  · exact .inr ⟨_, _, hrun, .inl rfl⟩
  · exact .inr ⟨_, _, hrun, .inr ⟨_, _, h0, rfl⟩⟩
  · exact .inl ⟨_, _, hrun, _, n', hn, rfl, h0, rfl⟩

lemma allocateCombined_houses (hc : E.Correct w.bindings.incDec) (size ext : Word) :
    Settles (allocateCombined (E.hostOver play) size ext) w (E.Houses w size) (E.Denied w) := by
  unfold allocateCombined
  cases hadd : Word.add? size headerSize with
  | none => exact .inr ⟨_, w, rfl, .inl rfl⟩
  | some total =>
    have htotal : total.toNat = size.toNat + 56 := Word.ofNat?_eq_some_iff.1 hadd
    refine (allocateFrom_allots hc ext total).bind fun p w' hp => .pure ?_
    exact ⟨total.toNat, 56, hp, le_rfl, by omega, rfl⟩

lemma allocateCombinedAligned_houses (hc : E.Correct w.bindings.incDec) (size align ext : Word) :
    Settles (allocateCombinedAligned (E.hostOver play) size align ext) w (E.Houses w size)
      (E.Denied w) := by
  unfold allocateCombinedAligned
  cases hpad : paddedSize? size (effectiveAlign align) with
  | none =>
    simp only [hpad]
    exact .inr ⟨_, w, rfl, .inl rfl⟩
  | some padded =>
    simp only [hpad]
    have hpadded : padded.toNat = size.toNat + 2 * (effectiveAlign align).toNat := by
      simp only [paddedSize?, Option.bind_eq_bind, Option.bind_eq_some_iff] at hpad
      obtain ⟨twice, hmul, hadd⟩ := hpad
      have h1 : twice.toNat = (effectiveAlign align).toNat * 2 := Word.ofNat?_eq_some_iff.1 hmul
      have h2 : padded.toNat = size.toNat + twice.toNat := Word.ofNat?_eq_some_iff.1 hadd
      omega
    refine (allocateCombined_houses hc padded ext).bind fun c w' hp => .pure ?_
    obtain ⟨n, k, hp, hk, hroom, hpay⟩ := hp
    have hoff := alignOffset_lt c.payload (effectiveAlign align)
    rw [effectiveAlign_effectiveAlign] at hoff
    refine ⟨n, k + (alignOffset c.payload (effectiveAlign align)).toNat, hp, by omega, by omega, ?_⟩
    simp only [hpay, UInt64.ofNat_add, UInt64.ofNat_toNat, UInt64.add_assoc]

/-- The handle `b` was made in a place where no block was, and no byte outside was written. -/
structure Lays (E : Environment) (h : Host History) (r : Request) (w : World History) (b : Handle)
    (v : World History) : Prop where
  moves : E.Moves h (r.met b (v.memory.header b)) w v
  place : ∃ n, (ledger w.host).Fresh b n ∧ (r.met b (v.memory.header b)).writes ⊆ range b n

/-- There is room for the header. -/
lemma Lays.fit {r : Request} (hv : Lays E h r w b v) : b.toNat + 56 ≤ UInt64.size := by
  obtain ⟨n, hfresh, hplace⟩ := hv.place
  have hlast : b.toNat + 55 ∈ range b n := hplace (.inl ⟨by omega, by omega⟩)
  have hfit := hfresh.2.1
  rw [mem_range] at hlast
  omega

/-- What a failed request leaves behind. -/
def Refuses (E : Environment) (h : Host History) (r : Request) (w v : World History) : Prop :=
  E.Moves h (r.refused w) w v

section Making

variable {r : Request} {n : Nat}

/-- What stands behind a header does not reach out of the block. -/
lemma span_subset {k : Nat} {c : Combined} {size : Word} (hfresh : (ledger w.host).Fresh c.header n)
    (hk : k + size.toNat ≤ n) (hpay : c.payload = c.header + UInt64.ofNat k) :
    range c.payload size.toNat ⊆ range c.header n := by
  have hcases := Memory.toNat_contained hk hfresh.2.1 hpay
  intro i hi
  rw [mem_range] at *
  omega

/-- A new header in a block that was given out for it. -/
lemma Lays.of_moves {data : Addr} {size : Word} {destructor info ext : Addr} {kind : Kind}
    (hfresh : (ledger w.host).Fresh b n) (hn : 56 ≤ n)
    (hspan : r.Safe → range data size.toNat ⊆ range b n)
    (hv : E.Moves h (r.met b ⟨1, destructor, info, data, size, ext, kind⟩) w v) :
    Lays E h r w b { v with
      memory := v.memory.write b (Header.bytes ⟨1, destructor, info, data, size, ext, kind⟩)
      stats := v.stats.bump .handleAlloc } := by
  have hfit : b.toNat + 56 ≤ UInt64.size := by
    have := hfresh.2.1
    omega
  have hheader := Memory.header_write v.memory ⟨1, destructor, info, data, size, ext, kind⟩ hfit
  refine ⟨?_, n, hfresh, ?_⟩ <;> simp only [hheader]
  · exact (hv.header _ hfit fun i hi => .inl hi).aside rfl rfl
  · rintro i (hi | ⟨hsafe, hi⟩)
    · exact Memory.range_mono hn hi
    · exact hspan hsafe hi

/-- A header for a payload that lies behind it. -/
lemma ofCombined_lays (hc : E.Correct v.bindings.incDec) {c : Combined} {size : Word}
    {destructor info ext : Addr} (hhouse : ∃ u, E.Houses w size c u)
    (hv : E.Moves (E.hostOver play)
      (r.met c.header ⟨1, destructor, info, c.payload, size, ext, .fixed⟩) w v) :
    Succeeds (liftM (Handle.ofCombined (E.hostOver play) c size destructor info ext) :
      Attempt History Handle) v (Lays E (E.hostOver play) r w) := by
  obtain ⟨u, n, k, hallots, hk, hroom, hpay⟩ := hhouse
  set written : World History := { v with
    memory := v.memory.write c.header
      (Header.bytes ⟨1, destructor, info, c.payload, size, ext, .fixed⟩)
    stats := v.stats.bump .handleAlloc }
  have hinit : Handle.init (E.hostOver play) c.header c.payload size destructor info ext v =
      .ok () written := initWith_run play hc c.header c.payload size destructor info ext .fixed
  have hrun : Handle.ofCombined (E.hostOver play) c size destructor info ext v =
      .ok c.header written := by
    rw [Handle.ofCombined, Machine.bind_apply, hinit]
    rfl
  exact .lift hrun (.of_moves hallots.fresh (by omega)
    (fun _ => span_subset hallots.fresh hroom hpay) hv)

lemma combined_lays (hc : E.Correct w.bindings.incDec) {x : Attempt History Combined} {size : Word}
    {destructor info ext : Addr} (hx : Settles x w (E.Houses w size) (E.Denied w))
    (t : Combined → Trace) :
    Settles (do
      let c ← x
      (E.hostOver play).trace (t c)
      Handle.ofCombined (E.hostOver play) c size destructor info ext :
      Attempt History Handle) w (Lays E (E.hostOver play) r w) (E.Denied w) := by
  refine hx.bind fun c v hhouse => ?_
  exact .lift_bind (E.trace_run play v _)
    (ofCombined_lays (hhouse.correct hc) ⟨v, hhouse⟩ hhouse.moves)

lemma combined_poisoned_lays (hc : E.Correct w.bindings.incDec) (hr : r.Safe)
    {x : Attempt History Combined} {size : Word} {destructor info ext : Addr}
    (hx : Settles x w (E.Houses w size) (E.Denied w)) (value : UInt8) (t : Combined → Trace) :
    Settles (do
      let c ← x
      (Machine.fill c.payload size value : Machine History Unit)
      (E.hostOver play).trace (t c)
      Handle.ofCombined (E.hostOver play) c size destructor info ext :
      Attempt History Handle) w (Lays E (E.hostOver play) r w) (E.Denied w) := by
  refine hx.bind fun c v hhouse => ?_
  set filled : World History := { v with memory := v.memory.fill c.payload size.toNat value }
  have hfill : Machine.fill c.payload size value v = .ok () filled := rfl
  refine .lift_bind hfill (.lift_bind (E.trace_run play filled _) ?_)
  have hcorrect : E.Correct filled.bindings.incDec := hhouse.correct hc
  exact ofCombined_lays hcorrect ⟨v, hhouse⟩ (hhouse.moves.fill value fun i hi => .inr ⟨hr, hi⟩)

lemma new_lays (hc : E.Correct w.bindings.incDec) (hr : ¬ r.Safe) (data : Addr) (size : Word)
    (destructor info : Addr) :
    Settles (Handle.new (E.hostOver play) data size destructor info) w
      (Lays E (E.hostOver play) r w) (E.Denied w) := by
  refine (allocateFrom_allots hc 0 headerSize).bind fun b v hallots => ?_
  have hinit := initWith_run play (hallots.correct hc) b data size destructor info 0 .fixed
  exact .lift_bind (E.trace_run play v _) (.lift_bind hinit
    (.pure (.of_moves hallots.fresh le_rfl (fun hsafe => absurd hsafe hr) hallots.moves)))

/-- A payload that was given out and given back is none that was out before. -/
lemma Halfway.refuses (hv : E.Halfway w v) (hw : E.Steady w) : Refuses E h r w v := by
  obtain ⟨s, n, m, rfl, hne, h0, rfl⟩ := hv
  have hhanded := hw.handed hne fun a ha => (Source.heap.inj ha).symm
  obtain ⟨howned, -, hs⟩ := hw.owned_handed hne
  obtain ⟨howned', hs'⟩ := hhanded.1.owned_of_granted_null h0 howned
  have hnew := (E.allocate_fresh _ n w hne).not_mem hw.sound.laid
  exact ((Moves.handed .refl _ n).granted _ m).handedBack hnew ⟨howned'.1, hs'.trans hs⟩

lemma newResizableWith_lays (hw : E.Steady w) (hr : ¬ r.Safe) (size : Word) (finalizer : Addr) :
    Settles (Handle.newResizableWith (E.hostOver play) size finalizer) w
      (Lays E (E.hostOver play) r w) (Refuses E (E.hostOver play) r w) := by
  have hrun := newResizableWith_run play hw.sound.correct size finalizer
  simp only at hrun
  split at hrun
  · next h0 => exact .inr ⟨_, _, hrun, (Denied.moves (.inr ⟨_, _, h0, rfl⟩))⟩
  · next h0 =>
    split at hrun
    · next hb => exact .inr ⟨_, _, hrun, Halfway.refuses ⟨_, _, _, rfl, h0, hb, rfl⟩ hw⟩
    · next hb =>
      have hnew := (E.allocate_fresh _ _ _ h0).not_mem hw.sound.laid
      have hfresh := (E.allocate_fresh _ _ _ hb).mono (le_max_left _ _)
      rw [Steady.ledger_handed h0] at hfresh
      exact .inl ⟨_, _, hrun, .of_moves (hfresh.of_grant hnew)
        (HeapObject.le_asked w.bindings.heap headerSize) (fun hsafe => absurd hsafe hr)
        ((Moves.handed .refl _ _).handed _ _)⟩

/-- How a request goes that was made in the state `w`. -/
structure Answers (E : Environment) (h : Host History) (r : Request) (w : World History) :
    Prop where
  within : E.Within h (r.footprint w ((r.make h).run w)) (r.make h).run w
  lays : ∀ b v, (r.make h).run w = .ok (.ok b) v → Lays E h r w b v

lemma Answers.of_settles (hx : Settles (r.make h) w (Lays E h r w) (Refuses E h r w)) :
    Answers E h r w := by
  obtain ⟨b, v, hrun, hlays⟩ | ⟨e, v, hrun, hrefuses⟩ := hx <;> refine ⟨?_, fun b' v' hrun' => ?_⟩
  · rw [hrun]
    exact .of_ok hrun hlays.moves
  · obtain ⟨hb, rfl⟩ := EStateM.Result.ok.inj (hrun.symm.trans hrun')
    exact Except.ok.inj hb ▸ hlays
  · rw [hrun]
    exact .of_ok hrun hrefuses
  · cases (EStateM.Result.ok.inj (hrun.symm.trans hrun')).1

/-- Where an allocator had nothing to give, nothing else has happened. -/
lemma Answers.of_denied (hx : Settles (r.make h) w (Lays E h r w) (E.Denied w)) :
    Answers E h r w := .of_settles (hx.mono (fun _ _ h => h) fun _ h => h.moves)

/-- The closure waits in a box, which is not in memory, and is dropped if there is no handle. -/
lemma allocClosure_answers (hw : E.Steady w) (size : Word) (closure : Nat) :
    Answers E (E.hostOver play) (.allocClosure size closure) w := by
  set r : Request := .allocClosure size closure
  set box := (w.boxes.make closure).1
  set boxed : World History := { w with boxes := (w.boxes.make closure).2 }
  have hboxed : E.Reaches w boxed := hw.withBoxes (w.boxes.make closure).2
  have hmoves : ∀ F, E.Moves (E.hostOver play) F w boxed := fun F => .aside .refl rfl rfl
  have halloc : Settles (Handle.alloc (E.hostOver play) size) boxed
      (Lays E (E.hostOver play) r boxed) (E.Denied boxed) :=
    combined_lays hboxed.1.sound.correct (allocateCombined_houses hboxed.1.sound.correct size 0) _
  obtain ⟨b, v, hrun, hlays⟩ | ⟨e, v, hrun, hdenied⟩ := halloc
  · -- the destructor is exchanged in a header that was just written
    set redirected : World History :=
      { v with memory := v.memory.withDestructor b Adapter.boxed.addr box }
    have hsame : ∀ d d', r.met b d ≤ r.met b d' := fun d d' =>
      ⟨fun i hi => hi.imp_right fun hsafe => hsafe.1.elim, subset_rfl, subset_rfl⟩
    have hsub : ∀ (f : Field) d, range (b + f.offset) 8 ⊆ (r.met b d).writes := fun f d i hi =>
      .inl (Memory.range_field_subset f hlays.fit hi)
    have hmade := (hmoves _).trans (hlays.moves.mono (hsame _ (redirected.memory.header b)))
    have hset := (hmade.setField .destructor Adapter.boxed.addr hlays.fit (hsub _ _)).setField
      .info box hlays.fit (hsub _ _)
    obtain ⟨n, hfresh, hplace⟩ := hlays.place
    exact .of_settles (.inl ⟨b, redirected, allocClosure_run_ok hrun, hset, n, hfresh,
      (hsame _ _).1.trans hplace⟩)
  · set out : World History := { v with boxes := v.boxes.erase box }
    have hout : E.Steady out := ((hdenied.reaches hboxed.1).1.withBoxes _).1
    have hdrop : E.Within (E.hostOver play) (r.refused w)
        ((E.hostOver play).dropClosure closure) out :=
      within_call (e := .closureDropped closure) hout ⟨closure, rfl, rfl⟩
    have hbefore : E.Moves (E.hostOver play) (r.refused w) w out :=
      ((hmoves _).trans hdenied.moves).aside rfl rfl
    have hend : (r.make (E.hostOver play)).run w =
        (do (E.hostOver play).dropClosure closure; return .error e : Machine _ _) out :=
      allocClosure_run_error hrun hdenied.boxes
    rw [Machine.bind_apply] at hend
    cases hcall : (E.hostOver play).dropClosure closure out with
    | ok _ v' =>
      rw [hcall] at hend
      exact .of_settles (.inr ⟨e, v', hend, hbefore.trans (hdrop.moves hcall)⟩)
    | error e' v' =>
      rw [hcall] at hend
      rw [Within, Machine.after, hcall] at hdrop
      refine ⟨?_, fun b' v'' hrun' => ?_⟩
      · rw [hend]
        exact .of_error hend (hbefore.trans hdrop)
      · cases hend.symm.trans hrun'

end Making

/-- Every request stays within what its outcome allows. -/
lemma make_answers (hw : E.Steady w) (r : Request) : Answers E (E.hostOver play) r w := by
  have hc := hw.sound.correct
  have hplain : ∀ size ext, Settles (allocateCombined (E.hostOver play) size ext) w
      (E.Houses w size) (E.Denied w) := allocateCombined_houses hc
  have haligned : ∀ size align ext, Settles
      (allocateCombinedAligned (E.hostOver play) size align ext) w (E.Houses w size)
      (E.Denied w) := allocateCombinedAligned_houses hc
  cases r with
  | new data size destructor info =>
    exact .of_denied (new_lays (r := .new _ _ _ _) hc not_false data size destructor info)
  | alloc size => exact .of_denied (combined_lays hc (hplain size 0) _)
  | allocExternal size ext => exact .of_denied (combined_lays hc (hplain size ext) _)
  | allocSafe size =>
    exact .of_denied (combined_poisoned_lays (r := .allocSafe _) hc trivial (hplain size 0) _ _)
  | allocDestructor size destructor => exact .of_denied (combined_lays hc (hplain size 0) _)
  | allocDestructorSafe size destructor =>
    exact .of_denied
      (combined_poisoned_lays (r := .allocDestructorSafe _ _) hc trivial (hplain size 0) _ _)
  | allocAligned size align => exact .of_denied (combined_lays hc (haligned size align 0) _)
  | allocSafeAligned size align =>
    exact .of_denied
      (combined_poisoned_lays (r := .allocSafeAligned _ _) hc trivial (haligned size align 0) _ _)
  | allocSafeAlignedExternal size align ext =>
    exact .of_denied (combined_poisoned_lays (r := .allocSafeAlignedExternal _ _ _) hc trivial
      (haligned size align ext) _ _)
  | allocClosure size closure => exact allocClosure_answers hw size closure
  | manage data finalizer =>
    exact .of_denied
      (new_lays (r := .manage _ _) hc not_false data 0 Adapter.managed.addr finalizer)
  | newResizable size =>
    exact .of_settles (newResizableWith_lays (r := .newResizable _) hw not_false size 0)
  | newResizableWith size finalizer =>
    exact .of_settles
      (newResizableWith_lays (r := .newResizableWith _ _) hw not_false size finalizer)

/-! ### The other operations -/

lemma Within.noted {e : Event} (he : e.Told w) : E.Within h F (record e) w :=
  .of_ok (record_run w e) (.noted .refl he)

/-- What a step means to its caller is noted when it is over. -/
lemma Within.told {α : Type} {x : Attempt History α} (hx : E.Within h F x.run w) (e : α → Event)
    (he : ∀ a v, (e a).Told v) : E.Within h F (do
      let a ← x
      record (e a)
      return a : Attempt History α).run w :=
  hx.attempt_bind fun a v _ =>
    (Within.noted (he a v)).lift.attempt_bind fun _ _ _ => .of_ok rfl .refl

/-- A reference is taken, which counts a word up, or nothing happens. -/
lemma acquire_within (hw : E.Steady w) (hb : (ledger w.host).Live b)
    (hF : Field.refcount.bytes b ⊆ F.writes) :
    E.Within (E.hostOver play) F (Handle.acquire (E.hostOver play) b) w := by
  have hrun := acquire_run play hw.sound.correct b
  by_cases h0 : (w.memory.header b).refcount = 0
  · rw [if_pos h0] at hrun
    exact .of_error hrun .refl
  · rw [if_neg h0] at hrun
    exact .of_ok hrun (.setField .refl .refcount _ (hw.room_le hb.1).2 hF)

/-- A reference is given up, which counts a word down, and may be the end of the handle. -/
lemma release_within (hplay : Obeys E play) (hw : E.Steady w) (hm : Marked w)
    (hb : (ledger w.host).Live b) (hF : Call.footprint.lastly w b ≤ F) :
    E.Within (E.hostOver play) F
      (do record (.released b); Handle.release (E.hostOver play) b) w := by
  obtain ⟨hwrites, hgives, hcalls⟩ := hF
  have hnoted : E.Moves (E.hostOver play) F w (w.noted (.released b)) :=
    .noted (e := .released b) .refl trivial
  have hcount : ∀ x, E.Moves (E.hostOver play) F (w.noted (.released b))
      ((w.noted (.released b)).withCount b x) := fun x =>
    .setField .refl .refcount x (hw.room_le hb.1).2 fun i hi => hwrites (.inl hi)
  refine .bind_run (record_run w _) hnoted ?_
  have hrun := release_run play (w := w.noted (.released b)) hw.sound.correct b
  rw [World.noted_memory] at hrun
  by_cases h0 : (w.memory.header b).refcount = 0
  · exact .of_error (hrun.trans (if_pos h0)) .refl
  replace hrun := hrun.trans (if_neg h0)
  by_cases h1 : (w.memory.header b).refcount = 1
  · have hsole : (ledger w.host).Sole b := ⟨hb.1, (hw.refcount_eq_one_iff hb).1 h1⟩
    obtain ⟨hreleased, hdying⟩ := hw.released_last hsole
    have hheader : ((w.noted (.released b)).withCount b 0).memory.header b =
        { w.memory.header b with refcount := 0 } :=
      Memory.header_setField w.memory .refcount 0 (hw.room_le hb.1).2
    -- nothing but the count of the header has changed, and its end does not ask for that
    have hending : (((w.noted (.released b)).withCount b 0).memory.header b).ending b
        ((w.noted (.released b)).withCount b 0) = (w.memory.header b).ending b w := by
      rw [hheader]
      exact Header.ending_recount (w.memory.header b) 0 b rfl rfl
    have hend := callDestructor_within (F := F) hplay hreleased hdying
      (fun hup => begun_of_marked hm hsole hup (.inl rfl) rfl rfl hheader) (by
        rw [hending]
        exact ⟨fun i hi => hwrites (.inr ⟨h1, hi⟩), fun q hq => hgives ⟨h1, hq⟩,
          fun e he => hcalls ⟨h1, he⟩⟩)
    exact .of_eq (hrun.trans (if_pos h1)) (hcount 0) hend
  · exact .of_ok (hrun.trans (if_neg h1)) (hcount _)

/-- The holder of the only reference ends the handle with its destructor. -/
lemma ending_within (hplay : Obeys E play) (hw : E.Steady w) (hm : Marked w)
    (hb : (ledger w.host).Sole b) :
    E.Within (E.hostOver play) ((w.memory.header b).ending b w)
      (do record (.ending b); Handle.callDestructor (E.hostOver play) b) w := by
  obtain ⟨hending, hdying⟩ := hw.ending_last hb
  have hnoted : E.Moves (E.hostOver play) ((w.memory.header b).ending b w) w
      (w.noted (.ending b)) := .noted (e := .ending b) .refl trivial
  refine .bind_run (record_run w _) hnoted (callDestructor_within hplay hending hdying
    (fun hup => begun_of_marked hm hb hup (.inr rfl) rfl rfl rfl) ?_)
  exact Footprint.le_refl ((w.memory.header b).ending b w)

/-- The storage of a handle goes, which is not a handle any more. -/
lemma dealloc_within (hw : E.Steady w) (hb : (ledger w.host).Sole b) :
    E.Within (E.hostOver play) { gives := {b} }
      (do record (.abandoned b); Handle.dealloc (E.hostOver play) b) w := by
  have hrun := dealloc_run play (w := w.noted (.abandoned b)) hw.sound.correct (hw.ne_zero hb.1)
  refine .bind_run (record_run w _) (.noted (e := .abandoned b) .refl trivial) (.of_ok hrun ?_)
  exact .handedBack .refl rfl ⟨hw.mem_blocks hb.1, (hw.sound.headed.header b hb.1).source⟩

section Resizable

variable {n : Word}

/-- Payload and size are written down in the header. -/
lemma Moves.withPayload (hv : E.Moves h F w v) (p : Addr) (n : Word)
    (hb : b.toNat + 56 ≤ UInt64.size)
    (hF : Field.payload.bytes b ∪ Field.size.bytes b ⊆ F.writes) :
    E.Moves h F w { v with memory := v.memory.withPayload b p n } :=
  (hv.setField .payload p hb (Set.union_subset_iff.1 hF).1).setField .size n hb
    (Set.union_subset_iff.1 hF).2

lemma resizableAlloc_within (hw : E.Steady w) (hb : (ledger w.host).Live b) (n : Word)
    (hF : Field.payload.bytes b ∪ Field.size.bytes b ⊆ F.writes) :
    E.Within (E.hostOver play) F (Handle.resizableAlloc (E.hostOver play) b n).run w := by
  by_cases hk : (w.memory.header b).kind = .resizable
  · have hrun := resizableAlloc_run play hw.sound.correct hk n
    by_cases h0 : (E.allocate (.heap w.bindings.heap.addr) (w.bindings.heap.asked n) w).addr = 0
    · rw [if_pos h0] at hrun
      exact .of_ok hrun (.granted .refl _ _)
    · rw [if_neg h0] at hrun
      exact .of_ok hrun ((Moves.handed .refl _ _).withPayload _ _ (hw.room_le hb.1).2 hF)
  · exact .of_error (resizableAlloc_fixed hk _ n) .refl

lemma resizableRealloc_within (hw : E.Steady w) (hb : (ledger w.host).Live b) (n : Word)
    (hF : Field.payload.bytes b ∪ Field.size.bytes b ⊆ F.writes)
    (hgives : (w.memory.header b).kind = .resizable → (w.memory.header b).payload ≠ 0 →
      (w.memory.header b).payload ∈ F.gives) :
    E.Within (E.hostOver play) F (Handle.resizableRealloc (E.hostOver play) b n).run w := by
  by_cases hk : (w.memory.header b).kind = .resizable
  · have hrun := resizableRealloc_run play hw.sound.correct hk n
    by_cases hp : (w.memory.header b).payload = 0
    · rw [if_pos hp] at hrun
      by_cases h0 : (E.allocate (.heap w.bindings.heap.addr) (w.bindings.heap.asked n) w).addr = 0
      · rw [if_pos h0] at hrun
        exact .of_ok hrun (.granted .refl _ _)
      · rw [if_neg h0] at hrun
        exact .of_ok hrun ((Moves.handed .refl _ _).withPayload _ _ (hw.room_le hb.1).2 hF)
    · rw [if_neg hp] at hrun
      have hmoved := Moves.regranted (E := E) (h := E.hostOver play) (F := F) .refl
        (w.bindings.heap.asked n) (hgives hk hp) (hw.payload hb.1 hk hp).1
      by_cases h0 : (E.reallocate (.heap w.bindings.heap.addr) (w.memory.header b).payload
          (w.bindings.heap.asked n) w).addr = 0
      · rw [if_pos h0] at hrun
        exact .of_ok hrun hmoved
      · rw [if_neg h0] at hrun
        exact .of_ok hrun (hmoved.withPayload _ _ (hw.room_le hb.1).2 hF)
  · exact .of_error (resizableRealloc_fixed hk _ n) .refl

/-- What is freed through a handle is its payload or a block of the caller's, if it is not null. -/
lemma Steady.holds_of_permitted (hw : E.Steady w) {p : Addr}
    (hp : (Call.resizableFree b p).Permitted E w) (h0 : p ≠ 0) :
    (ledger w.host).Holds (.heap w.bindings.heap.addr) p := by
  rcases hp.2.resolve_left h0 with ⟨hk, rfl⟩ | ⟨howned, hs⟩
  · exact (hw.payload hp.1.1 hk h0).1
  · exact ⟨howned.1, hs⟩

/-- What is freed through a handle is not a handle itself. -/
lemma Steady.not_handle_of_permitted (hw : E.Steady w) {p : Addr}
    (hp : (Call.resizableFree b p).Permitted E w) (h0 : p ≠ 0) : p ∉ (ledger w.host).handles := by
  rcases hp.2.resolve_left h0 with ⟨hk, rfl⟩ | ⟨howned, -⟩
  · exact (hw.payload hp.1.1 hk h0).2.1
  · exact howned.2.1

lemma resizableFree_within (hw : E.Steady w) {p : Addr}
    (hp : (Call.resizableFree b p).Permitted E w) (hF : Field.payload.bytes b ⊆ F.writes)
    (hgives : p ∈ F.gives) :
    E.Within (E.hostOver play) F (Handle.resizableFree (E.hostOver play) b p) w := by
  have hfit := (hw.room_le hp.1.1).2
  have hfreed : E.Moves (E.hostOver play) F w
      (if p = 0 then w else E.handedBack (.heap w.bindings.heap.addr) p w) := by
    split
    · exact .refl
    · next h0 => exact .handedBack .refl hgives (hw.holds_of_permitted hp h0)
  have hrun := resizableFree_run play (b := b) hw.sound.correct p
  generalize (if p = 0 then w else E.handedBack (.heap w.bindings.heap.addr) p w) = v at hfreed hrun
  refine .of_ok hrun ?_
  by_cases hpay : p = (v.memory.header b).payload
  · rw [if_pos hpay]
    exact hfreed.setField .payload 0 hfit hF
  · rw [if_neg hpay]
    exact hfreed

end Resizable

lemma setAllocator_within (o : HeapObject) :
    E.Within (E.hostOver play) F (setAllocator (E.hostOver play) o) w := by
  refine .bind_run (Machine.get_apply w) .refl ?_
  split
  · exact .of_error (Machine.throw_apply w _) .refl
  · exact .bind_run (Machine.modify_apply w _) (.aside .refl rfl rfl)
      (.of_ok (E.trace_run play _ _) .refl)

lemma shutDown_within : E.Within (E.hostOver play) F (shutDown (E.hostOver play)) w := by
  have hrun : shutDown (E.hostOver play) w = .ok () { w with
      bindings := { w.bindings with incDec := .stub, cas := .stub }
      shuttingDown := true } := by
    simp only [shutDown, setIncDec, setCompareSwap, Machine.bind_apply, Machine.modify_apply,
      trace_run]
  exact .of_ok hrun (.aside .refl rfl rfl)

lemma start_within (hempty : (ledger w.host).blocks = ∅) :
    E.Within (E.hostOver play) F (do start (E.hostOver play); record .started) w := by
  have hrun : start (E.hostOver play) w =
      .ok () { w with bindings := {}, shuttingDown := false, stats := {} } := by
    rw [start, Machine.bind_apply, Machine.modify_apply]
    exact E.trace_run play _ _
  exact .bind_run hrun (.aside .refl rfl rfl) (.noted hempty)

/-- **Footprints.** Every operation that the contract allows stays within its footprint. -/
theorem perform_within (hplay : Obeys E play) (hw : E.Steady w) (hm : Marked w) {c : Call}
    (hc : c.Permitted E w) (hpoke : ∀ a bytes, c ≠ .poke a bytes) :
    E.Within (E.hostOver play) (c.footprint (E.hostOver play) w) (c.perform (E.hostOver play)).run
      w := by
  cases c with
  | allocateFrom ext size => exact within_allocateFrom hw.sound.correct ext size
  | reallocate p size =>
    exact .of_ok (reallocate_run play p size) (.regranted .refl _ rfl ⟨hc.1.1, hc.2⟩)
  | free p =>
    refine .silently (.of_ok (free_run play hw.sound.correct p) ?_)
    split
    · exact .refl
    · next h0 =>
      obtain ⟨howned, hs⟩ := hc.resolve_left h0
      exact .handedBack .refl rfl ⟨howned.1, hs⟩
  | make r =>
    refine (make_answers hw r).within.attempt_bind fun b v _ => ?_
    exact (Within.of_ok (recordMade_run v b r.combined) (.noted .refl trivial)).lift.attempt_bind
      fun _ _ _ => .of_ok rfl .refl
  | init b data size destructor info ext =>
    have hfit := (hw.sound.laid.fits b hc.1.1).2.2
    have hroom := hc.2.1
    refine .silently (.bind_run (initWith_run play hw.sound.correct b data size destructor info ext
      .fixed) (.aside (.header .refl ⟨1, destructor, info, data, size, ext, .fixed⟩ (by omega)
        subset_rfl) rfl rfl) ?_)
    exact .of_ok (recordMade_run _ b false) (.noted .refl trivial)
  | acquire b =>
    exact .silently ((acquire_within hw hc subset_rfl).bind fun _ _ _ =>
      .noted (e := .acquired b) trivial)
  | release b => exact .silently (release_within hplay hw hm hc (Footprint.le_refl _))
  | callDestructor b => exact .silently (ending_within hplay hw hm hc)
  | destroy b =>
    obtain ⟨hending, hdying⟩ := hw.ending_last hc
    exact .silently (.bind_run (record_run w _) (.noted (e := .ending b) .refl trivial)
      (destroy_within hending hdying.1 rfl))
  | dealloc b => exact .silently (dealloc_within hw hc)
  | clone r =>
    have hclone : E.Within (E.hostOver play) { writes := Field.refcount.bytes r.handle }
        (Ref.clone (E.hostOver play) r) w :=
      (acquire_within hw hc subset_rfl).bind fun _ _ _ => .of_ok rfl .refl
    exact .silently (hclone.bind fun r' _ _ => .noted (e := .acquired r'.handle) trivial)
  | drop r => exact .silently (release_within hplay hw hm hc (Footprint.le_refl _))
  | resizableAlloc b size =>
    exact (resizableAlloc_within hw hc size subset_rfl).told (fun p => .refilled b p size)
      fun _ _ => trivial
  | resizableRealloc b size =>
    have hrealloc : E.Within (E.hostOver play)
        ((Call.resizableRealloc b size).footprint (E.hostOver play) w)
        (Handle.resizableRealloc (E.hostOver play) b size).run w :=
      resizableRealloc_within hw hc size subset_rfl fun hk h0 => ⟨hk, h0, rfl⟩
    exact hrealloc.told (fun p => .refilled b p size) fun _ _ => trivial
  | resizableFree b p =>
    refine .silently ((resizableFree_within hw hc subset_rfl ?_).bind fun _ _ _ =>
      .noted (e := .discarded b p) trivial)
    exact Set.mem_singleton p
  | setAllocator o => exact .silently (setAllocator_within o)
  | installFunctions f =>
    exact .silently (.bind_run (Machine.modifyGet_apply w _) (.aside .refl rfl rfl)
      (setAllocator_within _))
  | setIncDec p =>
    exact .silently (.of_ok (Machine.modify_apply w _) (.aside .refl rfl rfl))
  | setCompareSwap p =>
    exact .silently (.of_ok (Machine.modify_apply w _) (.aside .refl rfl rfl))
  | shutDown => exact .silently shutDown_within
  | start => exact .silently (start_within hc)
  | poke a bytes => exact absurd rfl (hpoke a bytes)

end Environment

end CountedHeap
