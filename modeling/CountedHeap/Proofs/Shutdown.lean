/-
Shutting down

From the moment when the runtime shuts down until it is started afresh, handles end without a word:
no destructor, no finalizer and no closure is called, nothing is poisoned, and all that happens is
that the storage goes back to the allocator that gave it out, and is counted. The payload of a
resizable handle stays out, and a closure stays in its box.

Only the moment counts at which the end of a handle begins. If the runtime shuts down while the
caller's part of a destructor runs, the rest of that destructor is done as always.

* `IsDown`: the runtime was seen shutting down, and was not started since;
* `Muted`: how handles end then;
* `Header.callOut`, `Header.aftermath`: the caller's part of a destructor, and the rest;
* `Completes`: the rest is done in whatever state the caller's part leaves behind;
* `shutDown_mutes`: all of it, throughout every run.
-/
import CountedHeap.Proofs.Lasting
import CountedHeap.Proofs.References
import CountedHeap.Proofs.Containment
import CountedHeap.Surface.Entry

namespace CountedHeap

/-! ### From shutting down to the next start -/

/-- Between two steps the runtime was seen shutting down, and it was not started afresh since. -/
def IsDown : History → Prop
  | [] => False
  | .started :: _ => False
  | .boundary s :: past => s.shuttingDown = true ∨ IsDown past
  | _ :: past => IsDown past

/-- A run in which the runtime stays down. -/
structure StaysDown (w : World History) : Prop where
  now : IsDown w.host → w.shuttingDown = true
  recorded : Throughout (fun e past => ∀ s, e = .boundary s → IsDown past →
    s.shuttingDown = true) w.host

namespace StaysDown

variable {w : World History}

lemma isDown_cons {e : Event} {past : History} (he : e.Inner) :
    IsDown (e :: past) ↔ IsDown past := by
  cases e with
  | started => exact he.elim
  | boundary s => exact he.elim
  | _ => exact .rfl

lemma noted (h : StaysDown w) {e : Event} (he : e.Inner) : StaysDown (w.noted e) := by
  refine ⟨fun hdown => h.now ((isDown_cons he).1 hdown), Throughout.cons_iff.2
    ⟨fun s hs => ?_, h.recorded⟩⟩
  subst hs
  exact he.elim

lemma marked (h : StaysDown w) : StaysDown w.marked := by
  refine ⟨fun hdown => hdown.elim id h.now, Throughout.cons_iff.2 ⟨fun s hs hdown => ?_,
    h.recorded⟩⟩
  obtain rfl := Event.boundary.inj hs
  exact h.now hdown

lemma started (h : StaysDown w) :
    StaysDown (World.noted { w with shuttingDown := false } .started) :=
  ⟨False.elim, Throughout.cons_iff.2 ⟨nofun, h.recorded⟩⟩

/-- Nothing but a fresh start makes the runtime come up again. -/
lemma lasting : Lasting StaysDown where
  aside _ _ _ _ _ h := ⟨h.now, h.recorded⟩
  noted _ _ he h := h.noted he
  marked _ h := h.marked
  interned _ _ h := ⟨h.now, h.recorded⟩
  down _ h := ⟨fun _ => rfl, h.recorded⟩
  started _ h := h.started

end StaysDown

/-! ### The two parts of a destructor -/

namespace Header

variable {σ : Type} (h : Host σ) (d : Header)

/-- The caller's part of a destructor. A closure that was called is handed on. -/
def callOut : Machine σ (Option Nat) := do
  match Adapter.ofAddr? d.destructor with
  | none =>
    h.destructor d.destructor d.payload d.size d.info
    return none
  | some .custom | some .customSafe =>
    Adapter.runCustom h d.payload d.size d.info
    return none
  | some .safe => return none
  | some .managed =>
    if d.info ≠ 0 then h.finalizer d.info d.payload
    return none
  | some .boxed =>
    let c ← Handle.unboxClosure d.info
    if let some c := c then h.closure c d.payload d.size
    return c
  | some .resizable =>
    if d.payload ≠ 0 ∧ d.info ≠ 0 then h.finalizer d.info d.payload
    return none

/-- What is left to do after it: to poison the payload, to give it back, or to drop the closure. -/
def aftermath (c : Option Nat) : Machine σ Unit :=
  match Adapter.ofAddr? d.destructor with
  | some .customSafe => Machine.fill d.payload d.size Poison.freed
  | some .safe => Machine.fill d.payload d.info Poison.freed
  | some .boxed =>
    match c with
    | some c => h.dropClosure c
    | none => pure ()
  | some .resizable => Storage.free h d.payload
  | _ => pure ()

/-- The boxes when the destructor is called: a closure is taken out of its own. -/
def emptied (boxes : Boxes) : Boxes :=
  if d.destructor = Adapter.boxed.addr then boxes.erase d.info else boxes

variable {d} in
lemma emptied_of_ne {boxes : Boxes} (h : d.destructor ≠ Adapter.boxed.addr) :
    d.emptied boxes = boxes := if_neg h

end Header

/-- The closure that is called. -/
def Event.closure? : Event → Option Nat
  | .closure c .. => some c
  | _ => none

/-- The call that the destructor makes of code of the caller's, if it makes one. -/
def Header.call? (d : Header) (boxes : Boxes) : Option Event :=
  match Adapter.ofAddr? d.destructor with
  | none => some (.destructor d.destructor d.payload d.size d.info)
  | some .custom | some .customSafe =>
    if d.info = 0 then none else some (.destructor d.info d.payload d.size 0)
  | some .safe => none
  | some .managed => if d.info = 0 then none else some (.finalizer d.info d.payload)
  | some .boxed => (boxes.find? d.info).map fun c => .closure c d.payload d.size
  | some .resizable =>
    if d.payload ≠ 0 ∧ d.info ≠ 0 then some (.finalizer d.info d.payload) else none

/-- It is one that the header asks for. -/
lemma Header.callsFor_of_call? {d : Header} {boxes : Boxes} {e : Event}
    (h : d.call? boxes = some e) : d.CallsFor boxes e := by
  unfold call? at h
  split at h
  · next ha =>
    obtain rfl := Option.some.inj h
    exact ⟨rfl, rfl, .inl ⟨ha, rfl, rfl⟩⟩
  · next ha =>
    obtain ⟨-, ⟨⟩⟩ := Option.ite_none_left_eq_some.1 h
    exact ⟨rfl, rfl, .inr ⟨.inl (Adapter.eq_of_ofAddr? ha), rfl, rfl⟩⟩
  · next ha =>
    obtain ⟨-, ⟨⟩⟩ := Option.ite_none_left_eq_some.1 h
    exact ⟨rfl, rfl, .inr ⟨.inr (Adapter.eq_of_ofAddr? ha), rfl, rfl⟩⟩
  · cases h
  · next ha =>
    obtain ⟨-, ⟨⟩⟩ := Option.ite_none_left_eq_some.1 h
    exact ⟨.inl (Adapter.eq_of_ofAddr? ha), rfl, rfl⟩
  · next ha =>
    obtain ⟨c, hfind, rfl⟩ := Option.map_eq_some_iff.1 h
    exact ⟨Adapter.eq_of_ofAddr? ha, hfind, rfl, rfl⟩
  · next ha =>
    obtain ⟨-, ⟨⟩⟩ := Option.ite_none_right_eq_some.1 h
    exact ⟨.inr (Adapter.eq_of_ofAddr? ha), rfl, rfl⟩

/-- What a header asks for is a call, and tells nothing of handles and blocks. -/
lemma Header.CallsFor.quiet {d : Header} {boxes : Boxes} {e : Event} (h : d.CallsFor boxes e) :
    e.Quiet ∧ ∀ L : Ledger, L.after e = L := by
  cases e <;> first | exact ⟨trivial, fun _ => rfl⟩ | exact h.elim

/-- Only a closure's destructor hands a closure on. -/
lemma Header.CallsFor.boxed {d : Header} {boxes : Boxes} {e : Event} {c : Nat}
    (h : d.CallsFor boxes e) (hc : e.closure? = some c) :
    d.destructor = Adapter.boxed.addr ∧ boxes.find? d.info = some c ∧
      e = .closure c d.payload d.size := by
  cases e with
  | closure c' data size =>
    obtain rfl := Option.some.inj hc
    obtain ⟨hd, hfind, rfl, rfl⟩ := h
    exact ⟨hd, hfind, rfl⟩
  | _ => cases hc

namespace Environment

/-- What the owner of a destructor, a finalizer or a closure does when it is called, and the owner
of a closure when it is dropped. -/
def response (E : Environment) : Event → World History → Program
  | .destructor fn data size info => E.destructor fn data size info
  | .finalizer fn data => E.finalizer fn data
  | .closure c data size => E.closure c data size
  | .closureDropped c => E.dropClosure c
  | _ => fun _ => .done

variable {E : Environment} {w v : World History} {b : Handle} {d : Header}
  {play : (World History → Program) → Machine History Unit}

/-- The two parts together are the destructor, and a panic gets out of neither. -/
lemma callDestructorAt_eq (d : Header) (w : World History) :
    callDestructorAt (E.hostOver play) d.destructor d.payload d.size d.info w =
      (do
        let c ← Machine.withoutUnwinding (d.callOut (E.hostOver play))
        Machine.withoutUnwinding (d.aftermath (E.hostOver play) c)) w := by
  have htrace : ∀ (t : Trace) (x : Machine History Unit) (w : World History),
      (do (E.hostOver play).trace t; x) w = x w := fun t x w => by
    rw [Machine.bind_apply, trace_run]
  rw [← Machine.withoutUnwinding_bind, callDestructorAt]
  refine Machine.withoutUnwinding_congr ?_
  show _ = (do
    let c ← d.callOut (E.hostOver play)
    d.aftermath (E.hostOver play) c : Machine History Unit) w
  simp only [Header.callOut, Header.aftermath]
  cases Adapter.ofAddr? d.destructor with
  | none => simp
  | some a =>
    cases a with
    | custom => simp [Adapter.run]
    | customSafe => simp [Adapter.run, htrace]
    | safe => simp [Adapter.run, htrace]
    | managed =>
      by_cases h0 : d.info = 0 <;> simp [Adapter.run, h0]
    | boxed =>
      have hunbox : (Handle.unboxClosure d.info : Machine History (Option Nat)) w =
          .ok (w.boxes.find? d.info) { w with boxes := w.boxes.erase d.info } := rfl
      simp only [Adapter.run, bind_assoc]
      rw [Machine.bind_apply, Machine.bind_apply, hunbox]
      cases w.boxes.find? d.info <;> simp
    | resizable =>
      by_cases h0 : d.payload = 0
      · simp [Adapter.run, htrace, h0, Storage.free]
      · by_cases h1 : d.info = 0 <;> simp [Adapter.run, htrace, h0, h1]

/-- The end of a handle with a destructor: its two parts, and then the storage. -/
lemma callDestructor_parts (hup : w.shuttingDown = false)
    (hd : (w.memory.header b).destructor ≠ 0) :
    Handle.callDestructor (E.hostOver play) b w =
      (do
        let c ← Machine.withoutUnwinding ((w.memory.header b).callOut (E.hostOver play))
        Machine.withoutUnwinding ((w.memory.header b).aftermath (E.hostOver play) c)
        Handle.destroy (E.hostOver play) b) w := by
  rw [callDestructor_run, if_pos ⟨hd, by simp [hup]⟩, Machine.bind_apply, callDestructorAt_eq,
    ← Machine.bind_apply, bind_assoc]

variable (play) in
/-- A custom destructor is called unless it is null. -/
lemma runCustom_run (data : Addr) (size : Word) (info : Addr) (w : World History) :
    (do Adapter.runCustom (E.hostOver play) data size info; return none :
      Machine History (Option Nat)) w =
      if info = 0 then .ok none w
      else (do
        record (.destructor info data size 0)
        play (E.destructor info data size 0)
        return none) w := by
  have htrace : ∀ t, (E.hostOver play).trace t w = .ok () w := E.trace_run play w
  rw [Adapter.runCustom, bind_assoc, Machine.bind_apply, htrace]
  by_cases h0 : info = 0
  · simp only [h0, ne_eq, not_true_eq_false, if_false, if_true, pure_bind]
    rfl
  · simp [h0, hostOver]

variable (play) in
/-- The caller's part of a destructor is one call, or none. A closure that is called is out of its
box then, and is handed on. -/
lemma callOut_run (d : Header) (w : World History) :
    d.callOut (E.hostOver play) w = match d.call? w.boxes with
      | none => .ok none w
      | some e => (do record e; play (E.response e); return e.closure?)
          { w with boxes := d.emptied w.boxes } := by
  have hne : ∀ a : Adapter, d.destructor = a.addr → a ≠ .boxed →
      { w with boxes := d.emptied w.boxes } = w := fun a ha h => by
    rw [Header.emptied_of_ne (ha ▸ Adapter.addr_ne h)]
  rw [Header.callOut, Header.call?]
  cases ha : Adapter.ofAddr? d.destructor with
  | none =>
    have hd : d.destructor ≠ Adapter.boxed.addr := fun hd => by
      simp [hd, Adapter.ofAddr?_addr] at ha
    simp [hostOver, response, Header.emptied_of_ne hd, Event.closure?]
  | some a =>
    have hda := Adapter.eq_of_ofAddr? ha
    cases a with
    | custom | customSafe =>
      dsimp only
      rw [runCustom_run]
      by_cases h0 : d.info = 0
      · rw [if_pos h0, if_pos h0]
      · rw [if_neg h0, if_neg h0]
        dsimp only
        rw [hne _ hda (by decide)]
        rfl
    | safe => rfl
    | managed =>
      by_cases h0 : d.info = 0
      · simp only [h0, ne_eq, not_true_eq_false, if_false, if_true]
        rfl
      · simp [h0, hostOver, response, hne _ hda (by decide), Event.closure?]
    | boxed =>
      have hunbox : (Handle.unboxClosure d.info : Machine History (Option Nat)) w =
          .ok (w.boxes.find? d.info) { w with boxes := w.boxes.erase d.info } := rfl
      dsimp only
      rw [Machine.bind_apply, hunbox]
      cases hfind : w.boxes.find? d.info with
      | none =>
        rw [Boxes.erase_of_find?_eq_none hfind]
        rfl
      | some c =>
        rw [Header.emptied, if_pos hda]
        simp [hostOver, response, Event.closure?]
    | resizable =>
      by_cases h0 : d.payload ≠ 0 ∧ d.info ≠ 0
      · simp [h0, hostOver, response, hne _ hda (by decide), Event.closure?]
      · simp only [if_neg h0]
        rfl

variable (E play) in
/-- The computation does nothing, or it is one call that the header `d` asks for; a closure that is
called is out of its box then, and is handed on. -/
def CallsOut (d : Header) (w : World History) (x : Machine History (Option Nat)) : Prop :=
  x w = .ok none w ∨ ∃ e, d.CallsFor w.boxes e ∧
    x w = (do record e; play (E.response e); return e.closure?)
      { w with boxes := d.emptied w.boxes }

variable (E play) in
lemma callOut_calls (d : Header) (w : World History) :
    E.CallsOut play d w (d.callOut (E.hostOver play)) := by
  rw [CallsOut, callOut_run]
  cases hcall : d.call? w.boxes with
  | none => exact .inl rfl
  | some e => exact .inr ⟨e, Header.callsFor_of_call? hcall, rfl⟩

/-- The caller's part of the destructor of a handle whose end has just begun. -/
lemma callOut_ends (hplay : Obeys E play) (hw : E.Steady w) (hb : Begun b w)
    (hh : w.memory.header b = d) :
    E.Ends (d.callOut (E.hostOver play)) w fun c v => E.Reaches w v ∧
      ∀ c', c = some c' → d.destructor = Adapter.boxed.addr := by
  obtain hrun | ⟨e, hcalls, hrun⟩ := E.callOut_calls play d w
  · exact Ends.of_ok hrun ⟨hw.refl, nofun⟩
  obtain ⟨hquiet, hledger⟩ := hcalls.quiet
  have hlaw : E.Lawful e w.host := lawful_of_begun hb (hh ▸ hcalls)
  have hempty := hw.withBoxes (d.emptied w.boxes)
  have hcall := callback_ends play hplay hempty.1 (hledger _) hquiet hlaw (E.response e)
  rw [← bind_assoc] at hrun
  refine Ends.of_eq hrun (hcall.bind fun _ v h => ?_)
  exact Ends.of_ok rfl ⟨hempty.trans h, fun _ hc => (hcalls.boxed hc).1⟩

variable (E) in
/-- The state after the rest of a destructor, where that is no code of the caller's. -/
def completed (d : Header) (v : World History) : World History :=
  match Adapter.ofAddr? d.destructor with
  | some .customSafe | some .safe =>
    { v with memory := v.memory.fill d.payload d.size.toNat Poison.freed }
  | some .resizable =>
    if d.payload = 0 then v else E.handedBack (.heap v.bindings.heap.addr) d.payload v
  | _ => v

variable (E) in
/-- The payload is poisoned, or that of a resizable handle is given back, or nothing is done. -/
lemma completed_cases (d : Header) (v : World History) :
    ((d.destructor = Adapter.customSafe.addr ∨ d.destructor = Adapter.safe.addr) ∧
      E.completed d v =
        { v with memory := v.memory.fill d.payload d.size.toNat Poison.freed }) ∨
    (d.destructor = Adapter.resizable.addr ∧ d.payload ≠ 0 ∧
      E.completed d v = E.handedBack (.heap v.bindings.heap.addr) d.payload v) ∨
    ¬ (d.destructor = Adapter.customSafe.addr ∨ d.destructor = Adapter.safe.addr) ∧
      (d.destructor = Adapter.resizable.addr → d.payload = 0) ∧ E.completed d v = v := by
  have hne : ∀ a : Adapter, Adapter.ofAddr? d.destructor ≠ some a → d.destructor ≠ a.addr :=
    fun a h he => h (he ▸ Adapter.ofAddr?_addr a)
  have hplain : (∀ a ∈ [Adapter.customSafe, .safe, .resizable],
      Adapter.ofAddr? d.destructor ≠ some a) →
      ¬ (d.destructor = Adapter.customSafe.addr ∨ d.destructor = Adapter.safe.addr) ∧
        (d.destructor = Adapter.resizable.addr → d.payload = 0) := fun h =>
    ⟨fun hd => hd.elim (hne _ (h _ (by simp))) (hne _ (h _ (by simp))),
      fun hd => absurd hd (hne _ (h _ (by simp)))⟩
  unfold completed
  cases ha : Adapter.ofAddr? d.destructor with
  | none =>
    obtain ⟨hnot, hempty⟩ := hplain (by simp [ha])
    exact .inr (.inr ⟨hnot, hempty, rfl⟩)
  | some a =>
    have hda := Adapter.eq_of_ofAddr? ha
    cases a with
    | customSafe => exact .inl ⟨.inl hda, rfl⟩
    | safe => exact .inl ⟨.inr hda, rfl⟩
    | resizable =>
      dsimp only
      by_cases h0 : d.payload = 0
      · refine .inr (.inr ⟨fun hd => ?_, fun _ => h0, if_pos h0⟩)
        exact hd.elim (hne _ (by simp [ha])) (hne _ (by simp [ha]))
      · exact .inr (.inl ⟨hda, h0, if_neg h0⟩)
    | _ =>
      obtain ⟨hnot, hempty⟩ := hplain (by simp [ha])
      exact .inr (.inr ⟨hnot, hempty, rfl⟩)

/-- Storage goes back to the allocator that gave it out, whatever happened to the state since this
was known, as long as header and bindings are the same. -/
lemma Steady.destroy_of (hv : E.Steady v) (hb : b ∈ (ledger v.host).handles) {v' : World History}
    (hheader : v'.memory.header b = v.memory.header b) (hbindings : v'.bindings = v.bindings) :
    Handle.destroy (E.hostOver play) b v' =
      .ok () (E.destroyed ((ledger v.host).source b) b v') := by
  have hc : E.Correct v'.bindings.incDec := hbindings ▸ hv.sound.correct
  rw [destroy_run play hc (hv.ne_zero hb), hheader, hbindings,
    (hv.sound.headed.header b hb).source]

/-- Of the blocks that the handle `b` has to itself all but its own were given back, and nothing
else happened to handles and blocks. -/
structure Cleared (b : Handle) (v v' : World History) : Prop where
  bindings : v'.bindings = v.bindings
  shuttingDown : v'.shuttingDown = v.shuttingDown
  host : ∃ new, v'.host = new ++ v.host ∧ ∀ e ∈ new, ∃ s q, e = .takenBack s q
  headers : ∀ c ∈ (ledger v.host).handles, v'.memory.header c = v.memory.header c
  handles : (ledger v'.host).handles = (ledger v.host).handles
  refs : (ledger v'.host).refs = (ledger v.host).refs
  source : (ledger v'.host).source = (ledger v.host).source
  room : (ledger v'.host).room = (ledger v.host).room
  blocks : ∀ q, q ∈ (ledger v'.host).blocks ↔
    q ∈ (ledger v.host).blocks ∧ (q ∈ (v.memory.header b).blocks b → q = b)

/-- Fewer blocks lie apart where more did. -/
lemma Cleared.laid {v' : World History} (h : Cleared b v v') {o : Addr}
    (hL : (ledger v.host).Laid o) : (ledger v'.host).Laid o := by
  have hout : ∀ q ∈ (ledger v'.host).blocks, q ∈ (ledger v.host).blocks := fun q hq =>
    ((h.blocks q).1 hq).1
  refine ⟨?_, ?_, ?_⟩ <;> simp only [h.room, h.source]
  · exact fun p hp => hL.fits p (hout p hp)
  · exact fun p hp q hq => hL.apart p (hout p hp) q (hout q hq)
  · exact fun p hp => hL.bound p (hout p hp)

/-- Where a handle has no block to itself but its own, nothing needs to be given back. -/
lemma Cleared.of_memory {m : Memory}
    (hm : ∀ c ∈ (ledger v.host).handles, m.header c = v.memory.header c)
    (hblocks : (v.memory.header b).kind ≠ .resizable ∨ (v.memory.header b).payload = 0) :
    Cleared b v { v with memory := m } := by
  refine ⟨rfl, rfl, ⟨[], rfl, by simp⟩, hm, rfl, rfl, rfl, rfl, fun q => ⟨fun hq => ⟨hq, ?_⟩,
    fun hq => hq.1⟩⟩
  rw [Header.mem_blocks]
  exact fun h => h.resolve_right fun h => hblocks.elim (fun hk => hk h.1) fun h0 => h.2.1 h0

/-- The rest of a destructor clears its handle. -/
lemma Steady.completed_cleared (hv : E.Steady v) (hb : b ∈ (ledger v.host).handles) :
    Cleared b v (E.completed (v.memory.header b) v) := by
  have hs := hv.sound.headed.header b hb
  obtain ⟨hp, he⟩ | ⟨hd, h0, he⟩ | ⟨-, h0, he⟩ := E.completed_cases (v.memory.header b) v
  all_goals rw [he]
  · have hown := hs.poisoned hp
    refine .of_memory (fun c hc => hv.header_wiped hb hown _ (.inl hc)) (.inl fun hk => ?_)
    rw [(hs.exchange hk).1] at hown
    cases hown
  · have hk := hs.adapter.1 hd
    have hbereft := hv.bereft hb hk h0
    refine ⟨rfl, rfl, ⟨[_], rfl, fun e he => ⟨_, _, List.mem_singleton.1 he⟩⟩, hbereft.headers,
      hbereft.handles, hbereft.refs, rfl, rfl, fun q => ?_⟩
    show q ∈ (ledger v.host).blocks.erase _ ↔ _
    rw [Finset.mem_erase, Header.mem_blocks]
    have hneb := (ne_of_mem_of_not_mem hb (hv.payload hb hk h0).2.1).symm
    constructor
    · exact fun ⟨hne, hq⟩ => ⟨hq, fun h => h.resolve_right fun h => hne h.2.2⟩
    · exact fun ⟨hq, h⟩ => ⟨fun he => hneb (he.symm.trans (h (.inr ⟨hk, h0, he⟩))), hq⟩
  · exact .of_memory (fun _ _ => rfl) (or_iff_not_imp_left.2 fun hk =>
      h0 (hs.adapter.2 (not_not.1 hk)))

variable (play) in
/-- What is left of a destructor after the caller's part, where no closure was called. -/
lemma aftermath_run (hv : E.Steady v) (hb : b ∈ (ledger v.host).handles) :
    (v.memory.header b).aftermath (E.hostOver play) none v =
      .ok () (E.completed (v.memory.header b) v) := by
  unfold completed Header.aftermath
  cases ha : Adapter.ofAddr? (v.memory.header b).destructor with
  | none => rfl
  | some a =>
    cases a with
    | safe =>
      rw [(hv.sound.headed.header b hb).sized (Adapter.eq_of_ofAddr? ha)]
      rfl
    | resizable => exact free_run play hv.sound.correct _
    | _ => rfl

end Environment

/-! ### How handles end -/

/-- The end of `b` has begun in the state `w`, where the runtime is not shutting down. Its
destructor has two parts, and once the first is over the second is done and the storage goes, in
whatever state the first has left the runtime. The allocator that takes the block back is the one
that gave it out. -/
structure Completes (E : Environment) (b : Handle) (w : World History) : Prop where
  parts : ∀ depth, Handle.callDestructor (E.host depth) b w =
    (do
      let c ← Machine.withoutUnwinding ((w.memory.header b).callOut (E.host depth))
      Machine.withoutUnwinding ((w.memory.header b).aftermath (E.host depth) c)
      Handle.destroy (E.host depth) b) w
  rest : ∀ depth v, (w.memory.header b).callOut (E.host depth) w = .ok none v →
    Out ((ledger v.host).source b) b v.host ∧
    (do (w.memory.header b).aftermath (E.host depth) none; Handle.destroy (E.host depth) b) v =
      .ok () (E.destroyed ((ledger v.host).source b) b (E.completed (w.memory.header b) v))
  /-- A closure that was called is dropped, which is again for its owner to do. -/
  closure : ∀ depth c v, (w.memory.header b).callOut (E.host depth) w = .ok (some c) v →
    (w.memory.header b).aftermath (E.host depth) (some c) = (E.host depth).dropClosure c ∧
    ∀ v', (E.host depth).dropClosure c v = .ok () v' →
      Out ((ledger v'.host).source b) b v'.host ∧
      Handle.destroy (E.host depth) b v' =
        .ok () (E.destroyed ((ledger v'.host).source b) b v')

/-- Whoever gives up the last reference of `b`, or ends it by hand, has its block given back to the
allocator that gave it out, and counted, and nothing else. Of the blocks that the handle has to
itself only the payload of a resizable handle stays out. -/
structure Muted (E : Environment) (w : World History) (b : Handle) : Prop where
  out : Out ((ledger w.host).source b) b w.host
  release : ∀ depth, Handle.release (E.host depth) b (w.noted (.released b)) =
    .ok () (E.destroyed ((ledger w.host).source b) b ((w.noted (.released b)).withCount b 0))
  drop : ∀ depth, Ref.drop (E.host depth) (.ofHandle b) (w.noted (.released b)) =
    .ok () (E.destroyed ((ledger w.host).source b) b ((w.noted (.released b)).withCount b 0))
  entryRelease : ∀ depth, Entry.release (E.host depth) b (w.noted (.released b)) =
    .ok () (E.destroyed ((ledger w.host).source b) b ((w.noted (.released b)).withCount b 0))
  callDestructor : ∀ depth, Handle.callDestructor (E.host depth) b (w.noted (.ending b)) =
    .ok () (E.destroyed ((ledger w.host).source b) b (w.noted (.ending b)))
  entryCallDestructor : ∀ depth, Entry.callDestructor (E.host depth) b (w.noted (.ending b)) =
    .ok () (E.destroyed ((ledger w.host).source b) b (w.noted (.ending b)))
  left : ∀ q, q ∈ (w.memory.header b).blocks b ∧ q ∈ ((ledger w.host).without b).blocks ↔
    (w.memory.header b).kind = .resizable ∧ (w.memory.header b).payload ≠ 0 ∧
      q = (w.memory.header b).payload

namespace Environment

variable {E : Environment} {w v : World History} {b : Handle} {d : Header}
  {play : (World History → Program) → Machine History Unit}

lemma Steady.completes (hw : E.Steady w) (hdying : (ledger w.host).Dying b) (hb : Begun b w)
    (hup : w.shuttingDown = false) (hd : (w.memory.header b).destructor ≠ 0) :
    Completes E b w := by
  obtain ⟨d, hh⟩ : ∃ d, w.memory.header b = d := ⟨_, rfl⟩
  refine ⟨fun depth => ?_, fun depth v hcall => ?_, fun depth c v hcall => ?_⟩
  all_goals obtain ⟨play, hhost, hplay⟩ := E.obeys_host depth
  all_goals have hends := callOut_ends hplay hw hb hh
  · rw [hhost, callDestructor_parts hup hd]
  · rw [hh, hhost] at hcall ⊢
    obtain ⟨hreach, -⟩ := hends.post hcall
    obtain ⟨hdying', hheader⟩ := hreach.2 b hdying
    have hrun := aftermath_run play hreach.1 hdying'.1
    have hcleared := hreach.1.completed_cleared hdying'.1
    rw [hheader, hh] at hrun hcleared
    refine ⟨Ledger.Holds.out ⟨hreach.1.mem_blocks hdying'.1, rfl⟩, ?_⟩
    rw [Machine.bind_apply, hrun]
    exact hreach.1.destroy_of hdying'.1 (hcleared.headers b hdying'.1) hcleared.bindings
  · rw [hh, hhost] at hcall ⊢
    obtain ⟨hreach, hboxed⟩ := hends.post hcall
    have hda := hboxed c rfl
    refine ⟨by rw [Header.aftermath, hda, Adapter.ofAddr?_addr], fun v' hdrop => ?_⟩
    have hreach' := hreach.trans ((dropClosure_ends play hplay hreach.1 c).post hdrop)
    obtain ⟨hdying', -⟩ := hreach'.2 b hdying
    exact ⟨Ledger.Holds.out ⟨hreach'.1.mem_blocks hdying'.1, rfl⟩,
      hreach'.1.destroy_of hdying'.1 rfl rfl⟩

/-- The end of a handle while the runtime is down. -/
lemma Steady.callDestructor_muted (hw : E.Steady w) (hb : b ∈ (ledger w.host).handles)
    (hdown : w.shuttingDown = true) :
    Handle.callDestructor (E.hostOver play) b w =
      .ok () (E.destroyed ((ledger w.host).source b) b w) := by
  rw [callDestructor_run, if_neg fun h => h.2 hdown]
  exact hw.destroy_of hb rfl rfl

/-- The release of the last reference is the end of the handle. -/
lemma Steady.release_last (hw : E.Steady w) (hb : (ledger w.host).Sole b) :
    Handle.release (E.hostOver play) b (w.noted (.released b)) =
      Handle.callDestructor (E.hostOver play) b ((w.noted (.released b)).withCount b 0) := by
  have hone : (w.memory.header b).refcount = 1 := (hw.refcount_eq_one_iff hb.live).2 hb.2
  have hne : (w.memory.header b).refcount ≠ 0 := by
    rw [hone]
    decide
  rw [release_run play (w := w.noted (.released b)) hw.sound.correct, World.noted_memory,
    if_neg hne, if_pos hone]

/-- An entry point of the C surface adds nothing to what ends well. -/
lemma unlessNull_ok {α : Type} {other a : α} {x : Machine History α} {w' : World History}
    (h0 : b ≠ 0) (hx : x w = .ok a w') : Entry.unlessNull b other x w = .ok a w' := by
  rw [Entry.unlessNull, Entry.guarded, if_neg h0, Machine.tryCatch_apply, hx]

/-- After the last reference was given up, the handle is ending and everything else is sound. -/
lemma Steady.released_last (hw : E.Steady w) (hb : (ledger w.host).Sole b) :
    E.Steady ((w.noted (.released b)).withCount b 0) ∧
      (ledger ((w.noted (.released b)).withCount b 0).host).Dying b :=
  ⟨(hw.recount hb.live (Nat.zero_le _) (by simp [Ledger.after, hb.2]) (.inr rfl)).1, hb.1,
    by simp [World.noted, World.withCount, Ledger.after, Ledger.setRefs, hb.2]⟩

lemma Steady.ending_last (hw : E.Steady w) (hb : (ledger w.host).Sole b) :
    E.Steady (w.noted (.ending b)) ∧ (ledger (w.noted (.ending b)).host).Dying b :=
  ⟨(hw.ending hb).1, hb.1, by simp [World.noted, Ledger.after, Ledger.setRefs]⟩

lemma Steady.muted (hw : E.Steady w) (hb : (ledger w.host).Sole b)
    (hdown : w.shuttingDown = true) : Muted E w b := by
  have h0 := hw.ne_zero hb.1
  obtain ⟨hreleased, hdying⟩ := hw.released_last hb
  obtain ⟨hending, hdying'⟩ := hw.ending_last hb
  have hrelease : ∀ depth, Handle.release (E.host depth) b (w.noted (.released b)) =
      .ok () (E.destroyed ((ledger w.host).source b) b
        ((w.noted (.released b)).withCount b 0)) := fun depth => by
    obtain ⟨play, hhost, -⟩ := E.obeys_host depth
    rw [hhost, hw.release_last hb]
    exact hreleased.callDestructor_muted hdying.1 hdown
  have hend : ∀ depth, Handle.callDestructor (E.host depth) b (w.noted (.ending b)) =
      .ok () (E.destroyed ((ledger w.host).source b) b (w.noted (.ending b))) := fun depth => by
    obtain ⟨play, hhost, -⟩ := E.obeys_host depth
    rw [hhost]
    exact hending.callDestructor_muted hdying'.1 hdown
  refine ⟨Ledger.Holds.out ⟨hw.mem_blocks hb.1, rfl⟩, hrelease, hrelease,
    fun depth => unlessNull_ok h0 (hrelease depth), hend,
    fun depth => unlessNull_ok h0 (hend depth), fun q => ?_⟩
  rw [Header.mem_blocks]
  constructor
  · rintro ⟨hq, hout⟩
    exact hq.resolve_left (Finset.mem_erase.1 hout).1
  · rintro ⟨hk, hne, rfl⟩
    obtain ⟨hholds, hnot, -⟩ := hw.payload hb.1 hk hne
    have hneb : (w.memory.header b).payload ≠ b := (ne_of_mem_of_not_mem hb.1 hnot).symm
    exact ⟨.inr ⟨hk, hne, rfl⟩, Finset.mem_erase.2 ⟨hneb, hholds.1⟩⟩

end Environment

/-- What happens to the runtime and its handles in the state `w`. -/
structure Shuts (E : Environment) (w : World History) : Prop where
  shutDown : ∀ depth, CountedHeap.shutDown (E.host depth) w = .ok () { w with
    bindings := { w.bindings with incDec := .stub, cas := .stub }
    shuttingDown := true }
  muted : w.shuttingDown = true → ∀ b, (ledger w.host).Sole b → Muted E w b
  completes : w.shuttingDown = false → ∀ b, (ledger w.host).Sole b →
    (w.memory.header b).destructor ≠ 0 →
    (∀ depth, Handle.release (E.host depth) b (w.noted (.released b)) =
      Handle.callDestructor (E.host depth) b ((w.noted (.released b)).withCount b 0)) ∧
    Completes E b ((w.noted (.released b)).withCount b 0) ∧ Completes E b (w.noted (.ending b))

lemma Environment.Steady.shuts {E : Environment} {w : World History} (hw : E.Steady w)
    (hm : Environment.Marked w) : Shuts E w := by
  refine ⟨fun depth => ?_, fun hdown b hb => hw.muted hb hdown, fun hup b hb hd => ?_⟩
  · obtain ⟨play, hhost, -⟩ := E.obeys_host depth
    rw [hhost]
    simp only [CountedHeap.shutDown, setIncDec, setCompareSwap, Machine.bind_apply,
      Machine.modify_apply, Environment.trace_run]
  obtain ⟨hreleased, hdying⟩ := hw.released_last hb
  obtain ⟨hending, hdying'⟩ := hw.ending_last hb
  have hheader : ((w.noted (.released b)).withCount b 0).memory.header b =
      { w.memory.header b with refcount := 0 } :=
    Memory.header_setField w.memory .refcount 0 (hw.room_le hb.1).2
  refine ⟨fun depth => ?_, ?_, ?_⟩
  · obtain ⟨play, hhost, -⟩ := E.obeys_host depth
    rw [hhost, hw.release_last hb]
  · refine hreleased.completes hdying ?_ hup (by rw [hheader]; exact hd)
    exact Environment.begun_of_marked hm hb hup (.inl rfl) rfl rfl hheader
  · exact hending.completes hdying' (Environment.begun_of_marked hm hb hup (.inr rfl) rfl rfl rfl)
      hup hd

/-- **Shutting down.** In every run, the runtime is down from the first boundary at which it is seen
so until it is started afresh, at whatever depth of nesting; in between nothing is called, and
handles end without a word. A destructor that began earlier is brought to its end. -/
theorem shutDown_mutes (E : Environment) (depth : Nat) (p : Program) (w : World History) :
    Throughout (fun e past => (e.IsCall → ¬ IsDown past) ∧
      ∀ s, e = .boundary s → (IsDown past → s.shuttingDown = true) ∧ Shuts E (s.resume past))
      (E.history depth p w) := by
  have hstays : StaysDown (Machine.after (E.session depth p) { w with host := [] }) :=
    StaysDown.lasting.session E depth p _ ⟨False.elim, Throughout.nil⟩
  have hrecorded := hstays.recorded
  rw [E.host_after] at hrecorded
  intro e past hsuffix
  have hlaw := (E.lawful_history depth p w).suffix hsuffix
  refine ⟨fun hcall hdown => ?_, ?_⟩
  · have hdue : ∃ b d s, Due b d s past ∧ d.CallsFor s.boxes e := by
      obtain ⟨he, -⟩ := Throughout.cons_iff.1 hlaw
      cases e <;> first | exact he | exact hcall.elim
    obtain ⟨b, d, s, ⟨e', before, rfl, he', -, hup, -⟩, -⟩ := hdue
    have hdown' : IsDown (.boundary s :: before) := by
      rcases he' with rfl | rfl <;> exact hdown
    have hsuffix' : .boundary s :: before <:+ E.history depth p w :=
      (List.suffix_cons e' _).trans ((List.suffix_cons e _).trans hsuffix)
    have hs : s.shuttingDown = true :=
      hdown'.elim id fun h => hrecorded _ before hsuffix' s rfl h
    rw [hup] at hs
    cases hs
  · rintro s rfl
    obtain ⟨hw, hm⟩ := Environment.steady_of_boundary hlaw
    exact ⟨hrecorded _ past hsuffix s rfl, hw.shuts hm⟩

end CountedHeap
