/-
Callers who do nothing but count

A caller who only makes handles, takes and gives up references to them, and writes to memory but not
to their headers, leaves the rest to the runtime. His handles go with their last references, and the
handles that are there without one are those whose end had begun before; no step of his fails as
long as counts fit in a word; and if every block belonged to a handle and the runtime was up, it
stays so. This takes destructors, finalizers and closures of the same kind, however deep they are
nested, and nothing else: allocators may answer what they like.

* `Call.Counting`, `Program.Counting`, `Environment.Counting`: the steps, and those who take them;
* `Neat`: every block that is out belongs to a handle;
* `Tame`, `TameSince`: what may happen, and what has happened since a given state;
* `Environment.Tidy`, `Environment.Leads`: the invariant, and what a computation does to it;
* `Goes`: how a computation ends, if only counts can make it fail;
* `release_goes`, `make_goes`, `run_goes`: references, requests and programs.
-/
import CountedHeap.Proofs.Shortage
import CountedHeap.Proofs.Shutdown

namespace CountedHeap

/-! ### Steps that count -/

/-- The steps that make a handle, and those that take or give up a reference. Memory may be written
to in between. -/
def Call.Counting : Call → Prop
  | make _ | acquire _ | release _ | clone _ | drop _ | poke .. => True
  | _ => False

/-- A caller who takes no other steps, whatever he is answered. -/
inductive Program.Counting : Program → Prop where
  | done : Counting done
  | step {c : Call} {next : Answer → World History → Program} (hc : c.Counting)
      (hnext : ∀ a w, (next a w).Counting) : Counting (step c next)

/-- All that is called from inside is such a caller, too. -/
structure Environment.Counting (E : Environment) : Prop where
  destructor : ∀ fn data size info w, (E.destructor fn data size info w).Counting
  finalizer : ∀ fn data w, (E.finalizer fn data w).Counting
  closure : ∀ c data size w, (E.closure c data size w).Counting
  dropClosure : ∀ c w, (E.dropClosure c w).Counting

/-- Whatever he is called for. -/
lemma Environment.Counting.response {E : Environment} (hE : E.Counting) (e : Event)
    (w : World History) : (E.response e w).Counting := by
  cases e with
  | destructor fn data size info => exact hE.destructor fn data size info w
  | finalizer fn data => exact hE.finalizer fn data w
  | closure c data size => exact hE.closure c data size w
  | closureDropped c => exact hE.dropClosure c w
  | _ => exact .done

/-! ### What happens -/

/-- Kind and payload say all there is to say. -/
lemma Header.blocks_congr {d d' : Header} {b : Handle} (hk : d'.kind = d.kind)
    (hp : d'.payload = d.payload) : d'.blocks b = d.blocks b := by
  rw [blocks, blocks, hk, hp]

/-- Every block that is out belongs to a handle. -/
def Ledger.Housed (L : Ledger) (m : Memory) : Prop :=
  ∀ q ∈ L.blocks, ∃ b ∈ L.handles, q ∈ (m.header b).blocks b

/-- It is enough to know which blocks the headers name. -/
lemma Ledger.Housed.congr {L : Ledger} {m m' : Memory} (h : L.Housed m)
    (hm : ∀ b ∈ L.handles, (m'.header b).blocks b = (m.header b).blocks b) : L.Housed m' := by
  intro q hq
  obtain ⟨b, hb, hqb⟩ := h q hq
  refine ⟨b, hb, ?_⟩
  rwa [hm b hb]

/-- The runtime is up, and every block that is out belongs to a handle. -/
structure Neat (w : World History) : Prop where
  up : w.shuttingDown = false
  housed : (ledger w.host).Housed w.memory

/-- What may happen after the state `start` where callers do nothing but count. -/
def Tame (start : World History) (e : Event) (past : History) : Prop :=
  match e with
  | .resized .. | .ending _ | .abandoned _ | .refilled .. | .discarded .. | .started => False
  | .made b .. => b ∉ (ledger past).handles
  | .boundary s => Neat start → Neat (s.resume past)
  | _ => True

/-- What a header asks for is tame. -/
lemma Header.CallsFor.tame {d : Header} {boxes : Boxes} {e : Event} {start : World History}
    {past : History} (h : d.CallsFor boxes e) : Tame start e past := by
  cases e <;> first | exact True.intro | exact h.elim

/-- Everything that happened since is tame. -/
inductive TameSince (start : World History) : History → Prop where
  | now : TameSince start start.host
  | cons {e : Event} {past : History} (h : TameSince start past) (he : Tame start e past) :
    TameSince start (e :: past)

/-- At some time since, a handle had more references than its count can tell. -/
def Overrun (start : World History) (H : History) : Prop :=
  ∃ past, start.host <:+ past ∧ past <:+ H ∧ ∃ b, (ledger past).Live b ∧
    UInt64.size ≤ (ledger past).refs b

namespace TameSince

variable {start : World History} {past H : History} {e : Event}

lemma suffix (h : TameSince start H) : start.host <:+ H := by
  induction h with
  | now => exact List.suffix_rfl
  | cons _ _ ih => exact ih.trans (List.suffix_cons _ _)

/-- What was tame until now was tame until then. -/
lemma of_suffix (h : TameSince start H) (hpast : past <:+ H) (hstart : start.host <:+ past) :
    TameSince start past := by
  induction h with
  | now =>
    rw [← hstart.eq_of_length_le hpast.length_le]
    exact .now
  | cons h he ih =>
    rcases List.suffix_cons_iff.1 hpast with rfl | hpast
    · exact h.cons he
    · exact ih hpast

/-- Events that nothing speaks against. -/
lemma append (h : TameSince start H) {new : List Event}
    (hnew : ∀ e ∈ new, ∀ past, Tame start e past) : TameSince start (new ++ H) := by
  induction new with
  | nil => exact h
  | cons e new ih =>
    exact (ih fun e' he' => hnew e' (List.mem_cons_of_mem _ he')).cons
      (hnew e List.mem_cons_self _)

lemma tame (h : TameSince start (e :: past)) (hstart : start.host <:+ past) :
    TameSince start past ∧ Tame start e past := by
  generalize hH : e :: past = H at h
  cases h with
  | now =>
    have hlen := hstart.length_le
    rw [← hH, List.length_cons] at hlen
    omega
  | cons h he =>
    obtain ⟨rfl, rfl⟩ := List.cons.inj hH
    exact ⟨h, he⟩

/-- No storage went but with its handle. -/
lemma abandoned (h : TameSince start H) : (ledger H).abandoned = (ledger start.host).abandoned := by
  induction h with
  | now => rfl
  | @cons e past h he ih =>
    rw [← ih]
    cases e with
    | given s n p =>
      show Ledger.abandoned (if p = 0 then _ else _) = _
      split <;> rfl
    | resized | abandoned | started => exact he.elim
    | _ => rfl

end TameSince

/-! ### How computations go -/

section Going

variable {start : World History} {α β : Type} {x : Machine History α} {w v : World History}
  {P Q : α → World History → Prop}

/-- The computation ends as `Q` says, unless calls are nested too deep or a handle had too many
references for its count. -/
inductive Goes (start : World History) (x : Machine History α) (w : World History)
    (Q : α → World History → Prop) : Prop where
  | of_ok {a : α} {w' : World History} (h : x w = .ok a w') (hQ : Q a w')
  | of_error {e : Fault} {w' : World History} (h : x w = .error e w')
      (htame : TameSince start w'.host) (he : e = .tooDeep ∨ Overrun start w'.host)

namespace Goes

/-- Of where it ends, it can be used that the computation ends there. -/
lemma mono (hx : Goes start x w P) (h : ∀ a w', x w = .ok a w' → P a w' → Q a w') :
    Goes start x w Q := by
  cases hx with
  | of_ok hrun hP => exact of_ok hrun (h _ _ hrun hP)
  | of_error hrun htame he => exact of_error hrun htame he

/-- Where it is known how the computation ends, it ends as `Q` says. -/
lemma post (hx : Goes start x w Q) {a : α} (h : x w = .ok a v) : Q a v := by
  cases hx with
  | of_ok hrun hQ =>
    obtain ⟨rfl, rfl⟩ := EStateM.Result.ok.inj (hrun.symm.trans h)
    exact hQ
  | of_error hrun _ _ => exact absurd (hrun.symm.trans h) nofun

/-- If it ends by a fault, everything up to then was tame. -/
lemma fault (hx : Goes start x w Q) {e : Fault} (h : x w = .error e v) :
    TameSince start v.host ∧ (e = .tooDeep ∨ Overrun start v.host) := by
  cases hx with
  | of_ok hrun _ => exact absurd (hrun.symm.trans h) nofun
  | of_error hrun htame he =>
    obtain ⟨rfl, rfl⟩ := EStateM.Result.error.inj (hrun.symm.trans h)
    exact ⟨htame, he⟩

lemma of_eq {y : Machine History α} (h : x w = y v) (hy : Goes start y v Q) :
    Goes start x w Q := by
  cases hy with
  | of_ok hrun hQ => exact of_ok (h.trans hrun) hQ
  | of_error hrun htame he => exact of_error (h.trans hrun) htame he

/-- The second part goes on from wherever the first may end. -/
lemma bind {f : α → Machine History β} {R : β → World History → Prop} (hx : Goes start x w P)
    (hf : ∀ a w', P a w' → Goes start (f a) w' R) : Goes start (x >>= f) w R := by
  cases hx with
  | @of_ok a w' hrun hP =>
    have hnext : (x >>= f) w = f a w' := by rw [Machine.bind_apply, hrun]
    exact of_eq hnext (hf a w' hP)
  | @of_error e w' hrun htame he =>
    have hnext : (x >>= f) w = .error e w' := by rw [Machine.bind_apply, hrun]
    exact of_error hnext htame he

/-- A C function ends by the same faults, as there is no panic among them. -/
lemma withoutUnwinding (hx : Goes start x w P) : Goes start (Machine.withoutUnwinding x) w P := by
  cases hx with
  | of_ok hrun hP => exact of_ok (Machine.withoutUnwinding_eq_ok.2 hrun) hP
  | of_error hrun htame he =>
    refine of_error (Machine.withoutUnwinding_of_error hrun) htame (he.imp_left fun he => ?_)
    rw [he]
    rfl

/-- The same where it is known what the first part does. -/
lemma bind_run {f : α → Machine History β} {R : β → World History → Prop} {a : α}
    {w' : World History} (hx : x w = .ok a w') (hf : Goes start (f a) w' R) :
    Goes start (x >>= f) w R := by
  refine of_eq ?_ hf
  rw [Machine.bind_apply, hx]

/-- A step that tells its caller nothing. -/
lemma silently {y : Machine History Unit} {R : World History → Prop}
    (hy : Goes start y w fun _ w' => R w') :
    Goes start (Call.silently y).run w fun _ w' => R w' := by
  cases hy with
  | of_ok hrun hR => exact of_ok (Call.silently_run hrun) hR
  | of_error hrun htame he => exact of_error (Call.silently_run_error hrun) htame he

/-- An attempt that fails, and does something about it before. -/
lemma refused {y : Attempt History α} {f : α → Attempt History β} {z : Machine History Unit}
    {e : AllocError} {R : World History → Prop}
    (hy : y.run w = (do z; return .error e : Machine History (Except AllocError α)) v)
    (hz : Goes start z v fun _ w' => R w') : Goes start (y >>= f).run w fun _ w' => R w' := by
  rw [Machine.bind_apply] at hy
  cases hz with
  | @of_ok a w' hrun hR =>
    rw [hrun] at hy
    have hfail : (y >>= f).run w = .ok (.error e) w' := by
      rw [Attempt.bind_apply, hy]
      rfl
    exact of_ok hfail hR
  | @of_error e' w' hrun htame he =>
    rw [hrun] at hy
    have hstop : (y >>= f).run w = .error e' w' := by rw [Attempt.bind_apply, hy]
    exact of_error hstop htame he

end Goes

end Going

/-- A computation that ends by a fault ends after a lawful history. -/
lemma Environment.Ends.fault {E : Environment} {α : Type} {x : Machine History α}
    {w w' : World History} {Q : α → World History → Prop} (hx : E.Ends x w Q) {e : Fault}
    (h : x w = .error e w') : Throughout E.Lawful w'.host := by
  cases hx with
  | of_ok hrun _ => exact absurd (hrun.symm.trans h) nofun
  | of_error hrun hlaw =>
    obtain ⟨-, rfl⟩ := EStateM.Result.error.inj (hrun.symm.trans h)
    exact hlaw

/-! ### The invariant -/

namespace Environment

variable {E : Environment} {start w w' v v' : World History} {b : Handle} {e : Event}
  {play : (World History → Program) → Machine History Unit}

/-- Everything since `start` is tame, and if it was neat then, it is now. -/
structure Tidy (E : Environment) (start w : World History) : Prop where
  steady : E.Steady w
  tame : TameSince start w.host
  neat : Neat start → Neat w

/-- A state can be gone on from, and the handles whose end has begun before are those whose end has
begun now. -/
structure Leads (E : Environment) (start w w' : World History) : Prop where
  tidy : E.Tidy start w'
  spares : Spares w w'
  dying : ∀ c, (ledger w'.host).Dying c → (ledger w.host).Dying c

lemma Leads.trans {w'' : World History} (h : E.Leads start w w') (h' : E.Leads start w' w'') :
    E.Leads start w w'' :=
  ⟨h'.tidy, h.spares.trans h'.spares, fun c hc => h.dying c (h'.dying c hc)⟩

variable (E start) in
/-- A program that is called from inside, and that does nothing but count, leads on. -/
def Minds (play : (World History → Program) → Machine History Unit) : Prop :=
  ∀ p : World History → Program, (∀ w, (p w).Counting) → ∀ w, E.Tidy start w →
    Goes start (play p) w fun _ w' => E.Leads start w w'

namespace Tidy

lemma refl (h : E.Tidy start w) : E.Leads start w w := ⟨h, .refl, fun _ hc => hc⟩

/-- A line in the history that means nothing to the ledger. -/
lemma noted (h : E.Tidy start w) (he : (ledger w.host).after e = ledger w.host)
    (hquiet : e.Quiet) (hlaw : E.Lawful e w.host) (htame : Tame start e w.host) :
    E.Leads start w (w.noted e) := by
  obtain ⟨hsteady, hspares⟩ := h.steady.noted he hquiet hlaw
  have hL : ledger (w.noted e).host = ledger w.host := he
  have hneat : Neat w → Neat (w.noted e) := fun hn => ⟨hn.up, hL ▸ hn.housed⟩
  exact ⟨⟨hsteady, h.tame.cons htame, hneat ∘ h.neat⟩, hspares, fun c hc => hL ▸ hc⟩

/-- The state is written down between two steps. -/
lemma marked (h : E.Tidy start w) : E.Leads start w w.marked := by
  obtain ⟨hsteady, hspares⟩ := h.steady.marked
  have hneat : Neat w → Neat w.marked := fun hn => ⟨hn.up, hn.housed⟩
  have htame : Tame start (.boundary w.snapshot) w.host := hneat ∘ h.neat
  exact ⟨⟨hsteady, h.tame.cons htame, hneat ∘ h.neat⟩, hspares, fun _ hc => hc⟩

lemma withBoxes (h : E.Tidy start w) (boxes : Boxes) :
    E.Leads start w { w with boxes := boxes } := by
  obtain ⟨hsteady, hspares⟩ := h.steady.withBoxes boxes
  have hneat : Neat w → Neat { w with boxes := boxes } := fun hn => ⟨hn.up, hn.housed⟩
  exact ⟨⟨hsteady, h.tame, hneat ∘ h.neat⟩, hspares, fun _ hc => hc⟩

/-- A reference is taken or given up, in the header and in the history. -/
lemma recounted (h : E.Tidy start w) {k : Nat} (hb : (ledger w.host).Live b)
    (hk : k ≤ UInt64.size) (he : (ledger w.host).after e = (ledger w.host).setRefs b k)
    (hcase : e = .acquired b ∨ e = .released b) :
    E.Tidy start ((w.withCount b (UInt64.ofNat k)).noted e) := by
  obtain ⟨hsteady, -⟩ := h.steady.recount hb hk he hcase
  have htame : Tame start e w.host := by
    rcases hcase with rfl | rfl <;> exact True.intro
  refine ⟨hsteady, h.tame.cons htame, fun h0 => ⟨(h.neat h0).up, ?_⟩⟩
  show ((ledger w.host).after e).Housed _
  rw [he]
  refine Ledger.Housed.congr (L := (ledger w.host).setRefs b k) (h.neat h0).housed fun c hc => ?_
  show Header.blocks
    ((w.memory.setWord (b + Field.refcount.offset) (UInt64.ofNat k)).header c) c = _
  by_cases hcb : c = b
  · rw [hcb, Memory.header_setField w.memory .refcount _ (h.steady.room_le hb.1).2]
    exact Header.blocks_recount _ _ b
  · rw [h.steady.header_setField_of_ne w.memory hb.1 (.inl hc) hcb .refcount]

/-- The same where references are left. -/
lemma recounted_leads (h : E.Tidy start w) {k : Nat} (hb : (ledger w.host).Live b)
    (hk : k ≤ UInt64.size) (he : (ledger w.host).after e = (ledger w.host).setRefs b k)
    (hcase : e = .acquired b ∨ e = .released b) (hpos : 1 ≤ k) :
    E.Leads start w ((w.withCount b (UInt64.ofNat k)).noted e) := by
  refine ⟨h.recounted hb hk he hcase, (h.steady.recount hb hk he hcase).2, fun c hc => ?_⟩
  have hL : ledger ((w.withCount b (UInt64.ofNat k)).noted e).host =
      (ledger w.host).setRefs b k := he
  rw [hL] at hc
  by_cases hcb : c = b
  · have hzero : (Function.update (ledger w.host).refs b k) c = 0 := hc.2
    rw [hcb, Function.update_self] at hzero
    omega
  · exact ⟨hc.1, (Function.update_of_ne hcb _ _).symm.trans hc.2⟩

end Tidy

/-! ### Calls from inside -/

/-- A program that is called from inside, after a line in the history. -/
lemma callback_goes (hminds : E.Minds start play) (hw : E.Tidy start w)
    (he : (ledger w.host).after e = ledger w.host) (hquiet : e.Quiet) (hlaw : E.Lawful e w.host)
    (htame : Tame start e w.host) {p : World History → Program} (hp : ∀ w, (p w).Counting) :
    Goes start (do record e; play p) w fun _ w' => E.Leads start w w' := by
  have hnoted := hw.noted he hquiet hlaw htame
  refine Goes.bind_run (record_run w e) ?_
  exact (hminds p hp _ hnoted.tidy).mono fun _ _ _ h => hnoted.trans h

/-- The caller's part of the destructor of a handle whose end has just begun. -/
lemma callOut_goes (hE : E.Counting) (hminds : E.Minds start play) (hw : E.Tidy start w)
    (hb : Begun b w) :
    Goes start ((w.memory.header b).callOut (E.hostOver play)) w fun c v => E.Leads start w v ∧
      ∀ c', c = some c' → (w.memory.header b).destructor = Adapter.boxed.addr := by
  obtain hrun | ⟨e, hcalls, hrun⟩ := E.callOut_calls play (w.memory.header b) w
  · exact Goes.of_ok hrun ⟨hw.refl, nofun⟩
  obtain ⟨hquiet, hledger⟩ := hcalls.quiet
  have hempty := hw.withBoxes ((w.memory.header b).emptied w.boxes)
  have hlaw : E.Lawful e w.host := lawful_of_begun hb hcalls
  have hcall := callback_goes hminds hempty.tidy (hledger _) hquiet hlaw hcalls.tame
    (hE.response e)
  rw [← bind_assoc] at hrun
  refine Goes.of_eq hrun (hcall.bind fun _ v h => ?_)
  exact Goes.of_ok rfl ⟨hempty.trans h, fun _ hc => (hcalls.boxed hc).1⟩

lemma dropClosure_goes (hE : E.Counting) (hminds : E.Minds start play) (hw : E.Tidy start w)
    (c : Nat) : Goes start ((E.hostOver play).dropClosure c) w fun _ w' => E.Leads start w w' :=
  callback_goes hminds hw (e := .closureDropped c) rfl trivial trivial trivial (hE.dropClosure c)

/-! ### The end of a handle -/

/-- The end of the handle `b` is over: its block went last, and nothing is left of it. -/
structure Departs (E : Environment) (start : World History) (b : Handle) (w w' : World History) :
    Prop where
  tidy : E.Tidy start w'
  spares : SparesBut b w w'
  dying : ∀ c, (ledger w'.host).Dying c → c ≠ b ∧ (ledger w.host).Dying c
  gone : ∃ s before, w'.host = .takenBack s b :: before ∧ b ∈ (ledger before).handles

/-- While the runtime is down, the storage of a handle goes, and nothing else does. -/
lemma Tidy.departs_muted {s : Source} (h : E.Tidy start w) (hdown : w.shuttingDown = true)
    (hb : (ledger w.host).Dying b) (hs : (ledger w.host).source b = s) :
    E.Departs start b w (E.destroyed s b w) := by
  obtain ⟨hsteady, hspares⟩ := h.steady.ended hb hs
  refine ⟨⟨hsteady, h.tame.cons (e := .takenBack s b) trivial, fun h0 => ?_⟩, hspares,
    fun c hc => ?_, s, w.host, rfl, hb.1⟩
  · have hup := (h.neat h0).up
    rw [hdown] at hup
    cases hup
  · obtain ⟨hne, hin⟩ := Finset.mem_erase.1 hc.1
    exact ⟨hne, hin, hc.2⟩

/-- Where all blocks of a handle but its own are gone, and its own goes, the rest is as it was. -/
lemma Steady.neat_destroyed {s : Source} (hv : E.Steady v) (hneat : Neat v)
    (hb : b ∈ (ledger v.host).handles) (h : Cleared b v v')
    (hs : (ledger v.host).source b = s) : Neat (E.destroyed s b v') := by
  have hholds : (ledger v'.host).Holds s b :=
    ⟨(h.blocks b).2 ⟨hv.mem_blocks hb, fun _ => rfl⟩, (congrFun h.source b).trans hs⟩
  have hheader : ∀ c ∈ (ledger v.host).handles, c ≠ b →
      (E.destroyed s b v').memory.header c = v.memory.header c := by
    intro c hc hne
    have hbeside : c ∈ (ledger v'.host).blocks := (h.blocks c).2 ⟨hv.mem_blocks hc, fun hcb =>
      absurd rfl (Contained.ne_of_mem_blocks hv.sound.headed hc hb hne
        (Header.self_mem_blocks (v.memory.header c) c) hcb)⟩
    obtain ⟨hroom, hfit⟩ := hv.room_le hc
    have hkept := E.free_frame s b v' hholds c hbeside hne
    rw [h.room] at hkept
    exact (Memory.header_congr (hkept.mono hroom) hfit).trans (h.headers c hc)
  refine ⟨h.shuttingDown.trans hneat.up, fun q hq => ?_⟩
  obtain ⟨hqb, hq'⟩ := Finset.mem_erase.1 hq
  obtain ⟨hout, hfree⟩ := (h.blocks q).1 hq'
  obtain ⟨c, hc, hqc⟩ := hneat.housed q hout
  have hcb : c ≠ b := by
    rintro rfl
    exact hqb (hfree hqc)
  refine ⟨c, ?_, ?_⟩
  · show c ∈ (ledger v'.host).handles.erase b
    rw [h.handles]
    exact Finset.mem_erase.2 ⟨hcb, hc⟩
  · rwa [hheader c hc hcb]

/-- The storage of the handle `b` goes last, and with it whatever else it has to itself. -/
def Closes (E : Environment) (start : World History) (b : Handle) (w w' : World History) : Prop :=
  ∃ v v', E.Leads start w v ∧ Cleared b v v' ∧ w' = E.destroyed ((ledger v.host).source b) b v'

/-- So the state is tidy once the storage is gone. -/
lemma Closes.departs (h : E.Closes start b w w') (hb : (ledger w.host).Dying b)
    (hsteady : E.Steady w') (hspares : SparesBut b w w') : E.Departs start b w w' := by
  obtain ⟨v, v', hlead, hcleared, rfl⟩ := h
  obtain ⟨hdying, -⟩ := hlead.spares b hb
  obtain ⟨new, hhost, hnew⟩ := hcleared.host
  have htame : TameSince start v'.host := by
    rw [hhost]
    refine hlead.tidy.tame.append fun e he past => ?_
    obtain ⟨s, q, rfl⟩ := hnew e he
    exact True.intro
  refine ⟨⟨hsteady, htame.cons (e := .takenBack _ b) trivial, fun h0 =>
    hlead.tidy.steady.neat_destroyed (hlead.tidy.neat h0) hdying.1 hcleared rfl⟩, hspares,
    fun c hc => ?_, _, v'.host, rfl, by rw [hcleared.handles]; exact hdying.1⟩
  obtain ⟨hmem, hzero⟩ := hc
  obtain ⟨hne, hin⟩ := Finset.mem_erase.1 hmem
  have hzero' : (ledger v'.host).refs c = 0 := hzero
  rw [hcleared.handles] at hin
  rw [hcleared.refs] at hzero'
  exact ⟨hne, hlead.dying c ⟨hin, hzero'⟩⟩

/-- A handle that has nothing to itself but its storage. -/
lemma Leads.destroy_goes (h : E.Leads start w v) (hb : b ∈ (ledger v.host).handles)
    (hfixed : (v.memory.header b).kind ≠ .resizable) :
    Goes start (Handle.destroy (E.hostOver play) b) v fun _ w' => E.Closes start b w w' :=
  Goes.of_ok (h.tidy.steady.destroy_of hb rfl rfl)
    ⟨v, v, h, .of_memory (fun _ _ => rfl) (.inl hfixed), rfl⟩

/-- What follows the caller's part of a destructor: the rest of it, and the storage. -/
lemma Leads.finish_goes (hE : E.Counting) (hminds : E.Minds start play) (h : E.Leads start w v)
    (hb : (ledger w.host).Dying b) {c : Option Nat}
    (hboxed : ∀ c', c = some c' → (w.memory.header b).destructor = Adapter.boxed.addr) :
    Goes start (do
      Machine.withoutUnwinding ((w.memory.header b).aftermath (E.hostOver play) c)
      Handle.destroy (E.hostOver play) b) v fun _ w' => E.Closes start b w w' := by
  obtain ⟨hdying, hheader⟩ := h.spares b hb
  cases c with
  | none =>
    have hcleared := h.tidy.steady.completed_cleared hdying.1
    have hafter := aftermath_run play h.tidy.steady hdying.1
    rw [hheader] at hcleared hafter
    have hdestroy : Handle.destroy (E.hostOver play) b (E.completed (w.memory.header b) v) =
        .ok () (E.destroyed ((ledger v.host).source b) b (E.completed (w.memory.header b) v)) :=
      h.tidy.steady.destroy_of hdying.1 (hcleared.headers b hdying.1) hcleared.bindings
    exact Goes.bind_run (Machine.withoutUnwinding_eq_ok.2 hafter)
      (Goes.of_ok hdestroy ⟨v, _, h, hcleared, rfl⟩)
  | some c =>
    have hda := hboxed c rfl
    have hafter : (w.memory.header b).aftermath (E.hostOver play) (some c) =
        (E.hostOver play).dropClosure c := by
      rw [Header.aftermath, hda, Adapter.ofAddr?_addr]
    rw [hafter]
    refine (dropClosure_goes hE hminds h.tidy c).withoutUnwinding.bind fun _ v' hdrop => ?_
    obtain ⟨hdying', hheader'⟩ := hdrop.spares b hdying
    have hs := hdrop.tidy.steady.sound.headed.header b hdying'.1
    have hfixed : (v'.memory.header b).kind ≠ .resizable := fun hk => by
      have hadapter := hs.adapter.2 hk
      rw [hheader', hheader, hda] at hadapter
      exact Adapter.addr_ne (by decide) hadapter
    exact (h.trans hdrop).destroy_goes hdying'.1 hfixed

/-- The end of a handle goes as far as the storage, whichever destructor it has. -/
lemma callDestructor_goes (hE : E.Counting) (hplay : Obeys E play) (hminds : E.Minds start play)
    (hw : E.Tidy start w) (hdying : (ledger w.host).Dying b)
    (hb : w.shuttingDown = false → Begun b w) :
    Goes start (Handle.callDestructor (E.hostOver play) b) w fun _ w' =>
      E.Departs start b w w' := by
  by_cases hdown : w.shuttingDown = true
  · exact Goes.of_ok (hw.steady.callDestructor_muted hdying.1 hdown)
      (hw.departs_muted hdown hdying rfl)
  have hup : w.shuttingDown = false := Bool.eq_false_of_not_eq_true hdown
  have hends := callDestructor_ends hplay hw.steady hdying hb
  -- What `callDestructor_ends` says of the last state is added to how it comes about.
  suffices hgoes : Goes start (Handle.callDestructor (E.hostOver play) b) w fun _ w' =>
      E.Closes start b w w' by
    refine hgoes.mono fun _ w' hrun h => ?_
    obtain ⟨hsteady, hspares⟩ := hends.post hrun
    exact h.departs hdying hsteady hspares
  by_cases hd : (w.memory.header b).destructor = 0
  · have hs := hw.steady.sound.headed.header b hdying.1
    have hfixed : (w.memory.header b).kind ≠ .resizable := fun hk =>
      Adapter.addr_ne_zero .resizable ((hs.adapter.2 hk).symm.trans hd)
    have hrun : Handle.callDestructor (E.hostOver play) b w =
        Handle.destroy (E.hostOver play) b w := by
      rw [callDestructor_run, if_neg fun h => h.1 hd]
    exact Goes.of_eq hrun (hw.refl.destroy_goes hdying.1 hfixed)
  · refine Goes.of_eq (callDestructor_parts hup hd) ?_
    refine (callOut_goes hE hminds hw (hb hup)).withoutUnwinding.bind fun c v hcall => ?_
    exact hcall.1.finish_goes hE hminds hdying hcall.2

/-! ### References -/

/-- A count of zero is one that has come around. -/
lemma Tidy.overrun (h : E.Tidy start w) (hb : (ledger w.host).Live b)
    (h0 : (w.memory.header b).refcount = 0) {H : History} (hH : w.host <:+ H) :
    Overrun start H :=
  ⟨w.host, h.tame.suffix, hH, b, hb, ((h.steady.refcount_eq_zero_iff hb).1 h0).ge⟩

lemma acquire_goes (hw : E.Tidy start w) (hb : (ledger w.host).Live b) :
    Goes start (do Handle.acquire (E.hostOver play) b; record (.acquired b)) w fun _ w' =>
      E.Leads start w w' := by
  have hrun := acquire_run play hw.steady.sound.correct b
  obtain ⟨hle, hcount⟩ := hw.steady.refcount hb
  by_cases h0 : (w.memory.header b).refcount = 0
  · rw [if_pos h0] at hrun
    have hstop : (do Handle.acquire (E.hostOver play) b; record (.acquired b)) w =
        .error (.violation (.refcountUnderflow "acquire")) w := by rw [Machine.bind_apply, hrun]
    exact Goes.of_error hstop hw.tame (.inr (hw.overrun hb h0 List.suffix_rfl))
  · rw [if_neg h0, hcount, ← UInt64.ofNat_one, ← UInt64.ofNat_add] at hrun
    have hne : (ledger w.host).refs b ≠ UInt64.size := fun h =>
      h0 ((hw.steady.refcount_eq_zero_iff hb).2 h)
    refine Goes.bind_run hrun (Goes.of_ok (record_run _ _) ?_)
    exact hw.recounted_leads hb (by omega) rfl (.inl rfl) (by omega)

/-- A clone is one reference more. -/
lemma clone_goes (hw : E.Tidy start w) {r : Ref} (hb : (ledger w.host).Live r.handle) :
    Goes start (do
      let r' ← Ref.clone (E.hostOver play) r
      record (.acquired r'.handle)) w fun _ w' => E.Leads start w w' := by
  rw [clone_recorded]
  exact acquire_goes hw hb

/-- The last reference is given up. -/
lemma release_last_goes (hE : E.Counting) (hplay : Obeys E play) (hminds : E.Minds start play)
    (hw : E.Tidy start w) (hm : Marked w) (hb : (ledger w.host).Sole b) :
    Goes start (Handle.release (E.hostOver play) b) (w.noted (.released b)) fun _ w' =>
      E.Departs start b w w' := by
  have hreleased : E.Tidy start ((w.noted (.released b)).withCount b 0) :=
    hw.recounted hb.live (Nat.zero_le _) (by simp [Ledger.after, hb.2]) (.inr rfl)
  obtain ⟨-, hdying⟩ := hw.steady.released_last hb
  have hheader : ((w.noted (.released b)).withCount b 0).memory.header b =
      { w.memory.header b with refcount := 0 } :=
    Memory.header_setField w.memory .refcount 0 (hw.steady.room_le hb.1).2
  have hbegun : w.shuttingDown = false → Begun b ((w.noted (.released b)).withCount b 0) :=
    fun hup => begun_of_marked hm hb hup (.inl rfl) rfl rfl hheader
  refine Goes.of_eq (hw.steady.release_last hb) ?_
  refine (callDestructor_goes hE hplay hminds hreleased hdying hbegun).mono fun _ w' _ h => ?_
  have hrefs : ∀ c ≠ b, (ledger ((w.noted (.released b)).withCount b 0).host).refs c =
      (ledger w.host).refs c := fun c hne => Function.update_of_ne hne _ _
  obtain ⟨-, hspares⟩ := hw.steady.recount hb.live (Nat.zero_le _) (e := .released b)
    (by simp [Ledger.after, hb.2]) (.inr rfl)
  refine ⟨h.tidy, Spares.but hspares h.spares, fun c hc => ?_, h.gone⟩
  obtain ⟨hne, hin, hzero⟩ := h.dying c hc
  exact ⟨hne, hin, (hrefs c hne).symm.trans hzero⟩

/-- A reference is given up, and the handle with the last one. -/
lemma release_goes (hE : E.Counting) (hplay : Obeys E play) (hminds : E.Minds start play)
    (hw : E.Tidy start w) (hm : Marked w) (hb : (ledger w.host).Live b) :
    Goes start (do record (.released b); Handle.release (E.hostOver play) b) w fun _ w' =>
      E.Leads start w w' := by
  obtain ⟨hle, -⟩ := hw.steady.refcount hb
  refine Goes.bind_run (record_run w _) ?_
  by_cases h1 : (ledger w.host).refs b = 1
  · refine (release_last_goes hE hplay hminds hw hm ⟨hb.1, h1⟩).mono fun _ w' _ h => ?_
    exact ⟨h.tidy, Spares.refl.of_but h.spares hb.2, fun c hc => (h.dying c hc).2⟩
  have hrun := hw.steady.release_shared play hb h1
  by_cases h0 : (w.memory.header b).refcount = 0
  · exact Goes.of_error (hrun.trans (if_pos h0)) (hw.tame.cons (e := .released b) trivial)
      (.inr (hw.overrun hb h0 (List.suffix_cons _ _)))
  · have hb1 := hb.2
    exact Goes.of_ok (hrun.trans (if_neg h0))
      (hw.recounted_leads hb (by omega) rfl (.inr rfl) (by omega))

/-! ### Requests -/

/-- Blocks that are given out are all that is new, and handles are seen as before. -/
lemma ledger_given {new H : History} (hnew : ∀ e ∈ new, ∃ s n q, e = .given s n q) :
    (ledger (new ++ H)).handles = (ledger H).handles ∧
      (ledger (new ++ H)).refs = (ledger H).refs ∧
      (ledger (new ++ H)).data = (ledger H).data ∧
      (∀ q ∈ (ledger (new ++ H)).blocks, q ∈ (ledger H).blocks ∨ ∃ s n, .given s n q ∈ new) ∧
      ∀ c d, Seen c d H → Seen c d (new ++ H) := by
  induction new with
  | nil => exact ⟨rfl, rfl, rfl, fun q hq => .inl hq, fun c d hc => hc⟩
  | cons e new ih =>
    obtain ⟨hhandles, hrefs, hdata, hblocks, hseen⟩ :=
      ih fun e' he' => hnew e' (List.mem_cons_of_mem _ he')
    obtain ⟨s, n, p, rfl⟩ := hnew e List.mem_cons_self
    have hold : ∀ q ∈ (ledger (new ++ H)).blocks,
        q ∈ (ledger H).blocks ∨ ∃ s' n', .given s' n' q ∈ .given s n p :: new := fun q hq =>
      (hblocks q hq).imp_right fun ⟨s', n', h⟩ => ⟨s', n', List.mem_cons_of_mem _ h⟩
    have hseen' : ∀ c d, Seen c d H → Seen c d (.given s n p :: (new ++ H)) := fun c d hc =>
      .inr ⟨not_false, hseen c d hc⟩
    rw [List.cons_append, ledger_cons, Ledger.after]
    split
    · exact ⟨hhandles, hrefs, hdata, hold, hseen'⟩
    · refine ⟨hhandles, hrefs, hdata, fun q hq => ?_, hseen'⟩
      rcases Finset.mem_insert.1 hq with rfl | hq
      · exact .inr ⟨s, n, List.mem_cons_self⟩
      · exact hold q hq

/-- Headers of other handles name the same blocks as before once a handle is made. A handle that is
ending has its header still; of any other the payload is known, since it is reported. -/
lemma Steady.blocks_of_built (hw : E.Steady w) (hm : Marked w) (h : Built w b w') {own : Bool}
    (hreach : E.Reaches w (w'.noted (.madeIn w'.memory b own))) {c : Handle}
    (hc : c ∈ (ledger w.host).handles) :
    (w'.memory.header c).blocks c = (w.memory.header c).blocks c := by
  obtain ⟨new, hhost, hnew⟩ := h.host
  obtain ⟨hhandles, hrefs, hdata, -, hseen⟩ := ledger_given (H := w.host) fun e he =>
    (hnew e he).imp fun s h => h.imp fun n h => h.imp fun q h => h.2
  have hne : c ≠ b := by
    rintro rfl
    exact Ledger.Fresh.not_mem (n := 0) h.fresh hw.sound.laid (hw.mem_blocks hc)
  by_cases hzero : (ledger w.host).refs c = 0
  · have hheader : w'.memory.header c = w.memory.header c := (hreach.2 c ⟨hc, hzero⟩).2
    rw [hheader]
  have hlive : (ledger w.host).Live c := ⟨hc, by omega⟩
  have hthere : Seen c (w.memory.header c) w.host := by
    obtain ⟨before, hbefore⟩ := hm
    rw [hbefore] at hc ⊢
    exact .inl ⟨hc, rfl⟩
  have hendures : (w.memory.header c).Endures (w'.memory.header c) := by
    refine hreach.1.recalled.seen c _ (.inr ⟨hne.symm, ?_⟩)
    rw [hhost]
    exact hseen c _ hthere
  have hreported : (w'.memory.header c).payload = (w.memory.header c).payload := by
    have hafter : (ledger (w'.noted (.madeIn w'.memory b own)).host).Live c := by
      refine ⟨Finset.mem_insert_of_mem ?_, ?_⟩
      · rw [hhost, hhandles]
        exact hc
      · show 1 ≤ Function.update (ledger w'.host).refs b 1 c
        rw [Function.update_of_ne hne, hhost, hrefs]
        exact hlive.2
    have hnow : (w'.memory.header c).payload =
        Function.update (ledger w'.host).data b _ c := (hreach.1.sound.reported c hafter).1
    rw [hnow, Function.update_of_ne hne, hhost, hdata, (hw.sound.reported c hlive).1]
  exact Header.blocks_congr hendures.kind hreported

/-- A handle that is made has all blocks to itself that were given out. -/
lemma Tidy.built (hw : E.Tidy start w) (hm : Marked w) (h : Built w b w') {own : Bool}
    (hreach : E.Reaches w (w'.noted (.madeIn w'.memory b own))) :
    E.Leads start w (w'.noted (.madeIn w'.memory b own)) := by
  obtain ⟨new, hhost, hnew⟩ := h.host
  obtain ⟨hhandles, hrefs, -, hblocks, -⟩ := ledger_given (H := w.host) fun e he =>
    (hnew e he).imp fun s h => h.imp fun n h => h.imp fun q h => h.2
  rw [← hhost] at hhandles hrefs hblocks
  have hfresh : b ∉ (ledger w'.host).handles := fun hb =>
    Ledger.Fresh.not_mem (n := 0) h.fresh hw.steady.sound.laid
      (hw.steady.mem_blocks (hhandles ▸ hb))
  have htame : TameSince start w'.host := by
    rw [hhost]
    refine hw.tame.append fun e he past => ?_
    obtain ⟨s, n, q, -, rfl⟩ := hnew e he
    exact True.intro
  refine ⟨⟨hreach.1, htame.cons hfresh, fun h0 =>
    ⟨h.shuttingDown.trans (hw.neat h0).up, fun q hq => ?_⟩⟩, hreach.2, fun c hc => ?_⟩
  · rcases hblocks q hq with hold | ⟨s, n, hgiven⟩
    · obtain ⟨c, hc, hqc⟩ := (hw.neat h0).housed q hold
      refine ⟨c, Finset.mem_insert_of_mem (hhandles ▸ hc), ?_⟩
      show q ∈ (w'.memory.header c).blocks c
      rwa [hw.steady.blocks_of_built hm h hreach hc]
    · obtain ⟨s', n', q', hq', he⟩ := hnew _ hgiven
      obtain ⟨-, -, rfl⟩ := Event.given.inj he
      exact ⟨b, Finset.mem_insert_self _ _, hq'⟩
  · obtain ⟨hmem, hzero⟩ := hc
    have hzero' : Function.update (ledger w'.host).refs b 1 c = 0 := hzero
    by_cases hcb : c = b
    · rw [hcb, Function.update_self] at hzero'
      cases hzero'
    · rw [Function.update_of_ne hcb, hrefs] at hzero'
      exact ⟨hhandles ▸ Finset.mem_of_mem_insert_of_ne hmem hcb, hzero'⟩

/-- A request that is not met leaves everything tidy. -/
lemma Tidy.unmet (hw : E.Tidy start w) {r : Request} (h : Unmet r w v) (hreach : E.Reaches w v) :
    E.Leads start w v := by
  obtain ⟨hsame, hcourse, -⟩ := h
  have htame : TameSince start v.host := by
    rcases hcourse with ⟨hhost | ⟨s, n, hhost⟩, -⟩ | ⟨-, ⟨s, n, m, p, -, hhost⟩, -⟩ <;> rw [hhost]
    · exact hw.tame
    · exact hw.tame.cons (e := .given s n 0) trivial
    · exact ((hw.tame.cons (e := .given s n p) trivial).cons (e := .given s m 0) trivial).cons
        (e := .takenBack s p) trivial
  refine ⟨⟨hreach.1, htame, fun h0 => ⟨hsame.shuttingDown.trans (hw.neat h0).up, fun q hq => ?_⟩⟩,
    hreach.2, fun c hc => ?_⟩
  · obtain ⟨hq', -⟩ := (hsame.holds _ q).1 ⟨hq, rfl⟩
    obtain ⟨b, hb, hqb⟩ := (hw.neat h0).housed q hq'
    refine ⟨b, hsame.handles ▸ hb, ?_⟩
    rwa [hsame.headers b hb]
  · exact ⟨hsame.handles ▸ hc.1, hsame.refs ▸ hc.2⟩

lemma giveUp_goes (hE : E.Counting) (hminds : E.Minds start play) (hw : E.Tidy start w)
    (r : Request) :
    Goes start (r.giveUp (E.hostOver play)) w fun _ w' => E.Leads start w w' := by
  rw [Request.giveUp]
  cases r.closure? with
  | none => exact Goes.of_ok rfl hw.refl
  | some c => exact dropClosure_goes hE hminds hw c

/-- A request leads to a handle more, or to no difference. -/
lemma make_goes (hE : E.Counting) (hplay : Obeys E play) (hminds : E.Minds start play)
    (hw : E.Tidy start w) (hm : Marked w) {r : Request} (hr : r.Plain) :
    Goes start ((Call.make r).perform (E.hostOver play)).run w fun _ w' =>
      E.Leads start w w' := by
  have hmet : E.MetOrNot (E.hostOver play) r w := make_metOrNot hw.steady r
  obtain ⟨b, w', hrun, hbuilt⟩ | ⟨e, v, hreach, hunmet, hrun⟩ := hmet
  · have hmade : ((Call.make r).perform (E.hostOver play)).run w =
        .ok (.ok b) (w'.noted (.madeIn w'.memory b r.combined)) := by
      rw [Call.perform, Attempt.bind_apply, hrun]
      rfl
    exact Goes.of_ok hmade (hw.built hm hbuilt ((make_ends play hplay hw.steady r hr).post hrun))
  · have hlead := hw.unmet hunmet hreach
    exact Goes.refused hrun ((giveUp_goes hE hminds hlead.tidy r).mono fun _ _ _ h =>
      hlead.trans h)

/-! ### Programs -/

/-- What is written spares the headers, and only the state that is written down after it tells. -/
lemma poke_goes (hw : E.Tidy start w) (hm : Marked w) {a : Addr} {bytes : List UInt8}
    (hc : (Call.poke a bytes).Permitted E w) :
    Goes start ((Call.poke a bytes).perform (E.hostOver play)).run w fun _ w' =>
      E.Leads start w w'.marked := by
  set m := w.memory.write a bytes
  set w' : World History := World.noted { w with memory := m } (.poked a bytes)
  have hrun : ((Call.poke a bytes).perform (E.hostOver play)).run w = .ok (.ok 0) w' := rfl
  obtain ⟨hsteady, hspares⟩ := (poke_ends hw.steady hm hc).post hrun
  have hheader : ∀ b ∈ (ledger w.host).handles, m.header b = w.memory.header b :=
    fun _ => hw.steady.header_poked hc
  have hneat : Neat start → Neat w'.marked := fun h0 =>
    ⟨(hw.neat h0).up, (hw.neat h0).housed.congr fun b hb =>
      congrArg (Header.blocks · b) (hheader b hb)⟩
  have htame : TameSince start w'.host := hw.tame.cons (e := .poked a bytes) trivial
  exact Goes.of_ok hrun ⟨⟨hsteady, htame.cons (e := .boundary w'.snapshot) hneat, hneat⟩, hspares,
    fun _ hc => hc⟩

/-- Every step of a caller who does nothing but count leads on, once the state is written down. -/
theorem perform_goes (hE : E.Counting) (hplay : Obeys E play) (hminds : E.Minds start play)
    (hw : E.Tidy start w) (hm : Marked w) {c : Call} (hc : c.Permitted E w) (hcount : c.Counting) :
    Goes start (c.perform (E.hostOver play)).run w fun _ w' => E.Leads start w w'.marked := by
  have hmark : ∀ {x : Attempt History Addr},
      Goes start x.run w (fun _ w' => E.Leads start w w') →
        Goes start x.run w fun _ w' => E.Leads start w w'.marked := fun hx =>
    hx.mono fun _ _ _ h => h.trans h.tidy.marked
  cases c with
  | make r => exact hmark (make_goes hE hplay hminds hw hm hc)
  | acquire b => exact hmark (Goes.silently (acquire_goes hw hc))
  | clone r => exact hmark (Goes.silently (clone_goes hw hc))
  | release b => exact hmark (Goes.silently (release_goes hE hplay hminds hw hm hc))
  | drop r => exact hmark (Goes.silently (release_goes hE hplay hminds hw hm hc))
  | poke a bytes => exact poke_goes hw hm hc
  | _ => exact hcount.elim

/-- His programs go on from a state that is tidy once it is written down. -/
lemma marked_run_goes (hE : E.Counting) (hplay : Obeys E play) (hminds : E.Minds start play)
    {p : Program} (hp : p.Counting) (hw : E.Tidy start w.marked) :
    Goes start (p.run E (E.hostOver play)) w fun _ w' => E.Leads start w.marked w' := by
  induction hp generalizing w with
  | done => exact Goes.of_ok rfl hw.refl
  | @step c next hc hnext ih =>
    have hmark : Program.mark w = .ok () w.marked := rfl
    rw [Program.run]
    refine Goes.bind_run hmark (Goes.bind_run (Machine.get_apply _) ?_)
    by_cases hpermitted : c.Permitted E w.marked
    · rw [if_pos hpermitted]
      refine (perform_goes hE hplay hminds hw ⟨w.host, rfl⟩ hpermitted hc).bind fun a w' h => ?_
      refine Goes.bind_run (Machine.get_apply w') ?_
      exact (ih a w' h.tidy).mono fun _ _ _ h' => h.trans h'
    · rw [if_neg hpermitted]
      exact Goes.of_ok rfl hw.refl

/-- So they do from a tidy state. -/
theorem run_goes (hE : E.Counting) (hplay : Obeys E play) (hminds : E.Minds start play)
    {p : Program} (hp : p.Counting) (hw : E.Tidy start w) :
    Goes start (p.run E (E.hostOver play)) w fun _ w' => E.Leads start w w' :=
  (marked_run_goes hE hplay hminds hp hw.marked.tidy).mono fun _ _ _ h => hw.marked.trans h

/-- What is called from inside leads on, however deep the calls are nested. -/
theorem minds_host (hE : E.Counting) (start : World History) (depth : Nat) :
    ∃ play, E.host depth = E.hostOver play ∧ Obeys E play ∧ E.Minds start play := by
  induction depth with
  | zero =>
    exact ⟨_, rfl, fun _ w hw => Ends.of_error (Machine.throw_apply w _) hw.recorded,
      fun _ _ w hw => Goes.of_error (Machine.throw_apply w _) hw.tame (.inl rfl)⟩
  | succ depth ih =>
    obtain ⟨play, hhost, hplay, hminds⟩ := ih
    refine ⟨_, rfl, fun p w hw => ?_, fun p hp w hw => ?_⟩
    · refine Ends.bind_run (Machine.get_apply w) ?_
      rw [hhost]
      exact run_ends hplay (p w) hw
    · refine Goes.bind_run (Machine.get_apply w) ?_
      rw [hhost]
      exact run_goes hE hplay hminds (hp w) hw

end Environment

end CountedHeap
