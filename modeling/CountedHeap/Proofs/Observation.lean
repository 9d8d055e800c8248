/-
Watching a run

The debug trace tells the host what the runtime does, one line for each event, if the host listens.
Here a log is kept of a whole run: the lines of the trace, every call that the runtime makes to its
host with its answer, and every step that is taken around the runtime, with its outcome and the
state that it leaves.

Whoever acts around the runtime is a `Routine`: a program that may look at the state and change it
as it likes, call the runtime on every surface, catch panics and panic itself. It cannot see whether
anybody listens. Allocators, counting functions, destructors and closures are routines too, so each
of them may call back into the runtime, to whatever depth.

* `Deed`, `Outcome`: what can be asked of the runtime, and what comes of it, told in full;
* `Routine`, `Invocation`, `Company`: programs, and hosts that answer every call by one;
* `Remark`, `Watched`: the log, beside the state of the host;
* `Report`: what is seen of a run, and what is left of it when the trace is struck out;
* `Likeness.Hidden`: two runs that no routine can tell apart, and `Hidden.routine`, `Hidden.host`:
  they stay alike, around hosts that answer by the same routines;
* `Likeness.unheard`: how far a run that is listened to may differ from one that is not;
* `tracing_only_observes`: the log of the trace is all that listening adds to a run.
-/
import CountedHeap.Proofs.Scripts
import CountedHeap.Ref

namespace CountedHeap

variable {σ α : Type}

/-! ### Deeds -/

/-- What an allocator can be asked for. -/
inductive Service where
  | allocate (n : Word)
  | reallocate (p : Addr) (n : Word)
  | free (p : Addr)

/-- Asks an allocator; null stands for the answer where there is none. -/
def Allocator.serve (a : Allocator σ) : Service → Machine σ Addr
  | .allocate n => a.allocate n
  | .reallocate p n => a.reallocate p n
  | .free p => do
    a.free p
    return 0

/-- What can be asked of the runtime. Beside the operations on their routes these are the direct
calls whose failure is told in full, those of owned references, and requests that bypass the
runtime and go straight to an allocator that it provides. -/
inductive Deed where
  | call (via : Route) (o : Operation)
  | install (via : Route) (p : Primitive)
  | allocateFrom (ext : Addr) (n : Word)
  | reallocate (p : Addr) (n : Word)
  | combined (n : Word) (ext : Addr)
  | combinedAligned (n align : Word) (ext : Addr)
  | make (r : Request)
  | resizableAlloc (b : Handle) (n : Word)
  | resizableRealloc (b : Handle) (n : Word)
  | clone (r : Ref)
  | drop (r : Ref)
  | debug (showAddr : Addr → String) (r : Ref)
  | ask (o : HeapObject) (q : Service)
  | askExternal (ext : Addr) (q : Service)

/-- What comes of a deed. -/
inductive Outcome where
  | nothing
  /-- The route does not have the operation. -/
  | absent
  | told (r : Response)
  | storage (r : Except AllocError Addr)
  | combined (r : Except AllocError Combined)
  | pointer (p : Addr)
  | reference (r : Ref)
  | text (s : String)
  | panicked (message : Option String)

/-- Does what is asked. -/
def Deed.run (h : Host σ) : Deed → Machine σ Outcome
  | call via o => do
    if via.offers o then return .told (← o.perform h via)
    else return .absent
  | install via p => do
    if via.installs p then
      p.install via
      return .nothing
    else return .absent
  | allocateFrom ext n => return .storage (← (Storage.allocateFrom h ext n).run)
  | reallocate p n => return .storage (← (Storage.reallocate h p n).run)
  | combined n ext => return .combined (← (allocateCombined h n ext).run)
  | combinedAligned n align ext => return .combined (← (allocateCombinedAligned h n align ext).run)
  | make r => return .storage (← (r.make h).run)
  | resizableAlloc b n => return .storage (← (Handle.resizableAlloc h b n).run)
  | resizableRealloc b n => return .storage (← (Handle.resizableRealloc h b n).run)
  | clone r => return .reference (← r.clone h)
  | drop r => do
    r.drop h
    return .nothing
  | debug showAddr r => return .text (← r.debug showAddr)
  | ask o q => return .pointer (← (o.allocator h).serve q)
  | askExternal ext q =>
    return .pointer (← ((ExternalAllocator.lookup h ext).allocator h).serve q)

/-! ### The log -/

/-- Whose allocator is called. -/
inductive Provider where
  | functions (f : HeapFunctions)
  | object (a : Addr)
  | external (e : ExternalAllocator)

/-- A call that the runtime makes to its host. -/
inductive Invocation where
  | allocate (p : Provider) (n : Word)
  | reallocate (p : Provider) (a : Addr) (n : Word)
  | free (p : Provider) (a : Addr)
  | destructor (fn data : Addr) (size : Word) (info : Addr)
  | finalizer (fn data : Addr)
  | closure (c : Nat) (data : Addr) (size : Word)
  | dropClosure (c : Nat)
  | step (fn : Addr) (c : Cell)
  | compareSwap (fn slot : Addr) (expected new : Word)

/-- What the host answers. -/
abbrev Invocation.Answer : Invocation → Type
  | allocate .. | reallocate .. => Addr
  | step .. => Word
  | compareSwap .. => Option Word × Int
  | _ => Unit

/-- A call that asks a triple of functions for no bytes. -/
def Invocation.Empty : Invocation → Prop
  | .allocate (.functions _) n | .reallocate (.functions _) _ n => n = 0
  | _ => False

/-- An entry of the log. All but the lines of the trace tell the state of the runtime too: memory,
bindings, counters and all. -/
inductive Remark where
  | trace (t : Trace)
  | called (i : Invocation) (s : World Unit)
  | answered (i : Invocation) (a : i.Answer) (s : World Unit)
  | took (d : Deed) (r : Outcome) (s : World Unit)

/-- Whether an entry is no line of the trace. -/
def Remark.lasting : Remark → Bool
  | trace _ => false
  | _ => true

/-- An entry for a call that asks a triple of functions for no bytes. -/
def Remark.Empty : Remark → Prop
  | called i _ => i.Empty
  | _ => False

/-- The log of a run, newest entry first, beside the state of the host. -/
structure Watched (σ : Type) where
  log : List Remark
  rest : σ

namespace World

/-- All of a state but the log, and whether anybody listens. -/
def view (w : World (Watched σ)) : World σ := { w with tracing := false, host := w.host.rest }

/-- The state after all that can be seen of it was exchanged. -/
def revised (w : World (Watched σ)) (v : World σ) : World (Watched σ) :=
  { v with tracing := w.tracing, host := ⟨w.host.log, v.host⟩ }

/-- The state after an entry was written that may tell the state of the runtime. -/
def remarked (w : World (Watched σ)) (r : World Unit → Remark) : World (Watched σ) :=
  { w with host := ⟨r (w.view.withHost ()) :: w.host.log, w.host.rest⟩ }

end World

/-- Writes an entry. -/
def Machine.remark (r : World Unit → Remark) : Machine (Watched σ) Unit :=
  modify fun w => w.remarked r

/-! ### Routines -/

/-- A program that answers with a value. -/
inductive Routine (σ α : Type) where
  | done (a : α)
  | panic (message : Option String)
  | look (next : World σ → Routine σ α)
  | change (f : World σ → World σ) (next : Routine σ α)
  /-- Asks the runtime for something. A panic on the way is caught; a routine that wants to let it
  pass panics itself. -/
  | act (d : Deed) (next : Outcome → Routine σ α)

/-- Does what is asked, catches a panic, and writes down what came of it. -/
def Deed.take (h : Host (Watched σ)) (d : Deed) : Machine (Watched σ) Outcome := do
  let r ← tryCatch (d.run h) fun
    | .panic message => return .panicked message
    | e => throw e
  Machine.remark (.took d r)
  return r

/-- Runs a routine. -/
def Routine.run (h : Host (Watched σ)) : Routine σ α → Machine (Watched σ) α
  | done a => return a
  | panic message => throw (.panic message)
  | look next => do (next (← get).view).run h
  | change f next => do
    modify fun w => w.revised (f w.view)
    next.run h
  | act d next => do
    let r ← d.take h
    (next r).run h

/-- Everything around the runtime: where external allocators are, and the routine that answers a
call. -/
structure Company (σ : Type) where
  external : Addr → ExternalAllocator
  answer : (i : Invocation) → Routine σ i.Answer

namespace Company

/-- The allocator of a provider, for a given way of answering calls. -/
def allocator (answer : (i : Invocation) → Machine (Watched σ) i.Answer) (p : Provider) :
    Allocator (Watched σ) where
  allocate n := answer (.allocate p n)
  reallocate a n := answer (.reallocate p a n)
  free a := answer (.free p a)

variable (C : Company σ)

/-- The host as the runtime sees it, for a given way of answering its calls. -/
def hostOver (answer : (i : Invocation) → Machine (Watched σ) i.Answer) : Host (Watched σ) where
  functions f := allocator answer (.functions f)
  object a := allocator answer (.object a)
  external := C.external
  externalFunctions e := allocator answer (.external e)
  destructor fn data size info := answer (.destructor fn data size info)
  finalizer fn data := answer (.finalizer fn data)
  closure c data size := answer (.closure c data size)
  dropClosure c := answer (.dropClosure c)
  step fn c := answer (.step fn c)
  compareSwap fn slot expected new := answer (.compareSwap fn slot expected new)
  note t s := { s with log := .trace t :: s.log }

/-- Answers a call by its routine, and writes down the call and the answer. -/
def invoke (h : Host (Watched σ)) (i : Invocation) : Machine (Watched σ) i.Answer := do
  Machine.remark (.called i)
  let a ← (C.answer i).run h
  Machine.remark (.answered i a)
  return a

/-- Two companies that answer every call by the same routine, except that triples of functions may
do different things when they are asked for no bytes. -/
structure SameAboveZero (D : Company σ) : Prop where
  external : C.external = D.external
  answer : ∀ i, ¬ i.Empty → C.answer i = D.answer i

lemma SameAboveZero.refl : C.SameAboveZero C := ⟨rfl, fun _ _ => rfl⟩

/-- The host when calls may be nested to a given depth. One that is nested deeper ends the run, as
a stack that overflows does. -/
def host : Nat → Host (Watched σ)
  | 0 => C.hostOver fun _ => throw .tooDeep
  | depth + 1 => C.hostOver (C.invoke (host depth))

end Company

/-- What is seen of a run: how it ended, the state that it left, and its log. -/
structure Report (σ α : Type) where
  ending : Except Fault α
  state : World σ
  log : List Remark

namespace Report

/-- The report of a run that ended. -/
def of : EStateM.Result Fault (World (Watched σ)) α → Report σ α
  | .ok a w => ⟨.ok a, w.view, w.host.log⟩
  | .error e w => ⟨.error e, w.view, w.host.log⟩

/-- A report without the lines of the trace. -/
def untraced (r : Report σ α) : Report σ α := { r with log := r.log.filter Remark.lasting }

end Report

/-- Runs a routine from a given state on, with somebody who listens to the trace or without. -/
def Company.report (C : Company σ) (depth : Nat) (p : Routine σ α) (listened : Bool) (w : World σ) :
    Report σ α :=
  .of (p.run (C.host depth) { w with tracing := listened, host := ⟨[], w.host⟩ })

/-! ### Runs that routines cannot tell apart -/

namespace Likeness

/-- Two runs with the same primitives, whose states differ in nothing that a routine can see. They
still do so when a routine has exchanged what it sees, after a line of the trace, and when the same
entry of another kind was written to both logs. -/
structure Hidden (T : Likeness (Watched σ) (Watched σ)) : Prop where
  incDec : ∀ p q, T.incDec p q ↔ p = q
  cas : ∀ p q, T.cas p q ↔ p = q
  panics : T.panics
  rest : ∀ {l s l' t}, T.host l s l' t → s.rest = t.rest
  exchange : ∀ {l s l' t}, T.host l s l' t → ∀ x, T.host l ⟨s.log, x⟩ l' ⟨t.log, x⟩
  write : ∀ {l s l' t}, T.host l s l' t → ∀ r : Remark, r.lasting = true → ¬ r.Empty →
    T.host l ⟨r :: s.log, s.rest⟩ l' ⟨r :: t.log, t.rest⟩
  trace : ∀ {l s l' t}, T.host l s l' t → ∀ x,
    T.host l (if l then ⟨.trace x :: s.log, s.rest⟩ else s)
      l' (if l' then ⟨.trace x :: t.log, t.rest⟩ else t)

namespace Hosts

variable {τ : Type} {T : Likeness σ τ} {h : Host σ} {k : Host τ}

/-- Two allocators that serve alike do so when they are asked directly. -/
lemma serve {a : Allocator σ} {b : Allocator τ} (hab : T.Allocators a b) (q : Service) :
    T.Alike (a.serve q) (b.serve q) := by
  cases q with
  | allocate n => exact hab.allocate n
  | reallocate p n => exact hab.reallocate p n
  | free p => exact (hab.free p).bind fun _ => Alike.pure _

end Hosts

namespace Hidden

variable {T : Likeness (Watched σ) (Watched σ)} (hT : T.Hidden)
include hT

section States

variable {w v : World (Watched σ)}

/-- Routines see the same of two such states. -/
lemma view_eq (hw : T.Worlds w v) : w.view = v.view := by
  have hbindings : w.bindings = v.bindings := by
    have hheap := hw.heap
    have hincDec := (hT.incDec _ _).1 hw.incDec
    have hcas := (hT.cas _ _).1 hw.cas
    cases hb : w.bindings
    cases hc : v.bindings
    simp_all
  simp only [World.view, hw.memory, hbindings, hw.shuttingDown, hw.stats, hw.interned, hw.boxes,
    hT.rest hw.host]

/-- What can be seen of two such states may be exchanged. -/
lemma revised (hw : T.Worlds w v) (s : World σ) : T.Worlds (w.revised s) (v.revised s) :=
  ⟨rfl, rfl, rfl, rfl, rfl, rfl, (hT.incDec _ _).2 rfl, (hT.cas _ _).2 rfl, hT.exchange hw.host _⟩

end States

/-- The same entry is written to both logs. -/
lemma remark {r : World Unit → Remark} (hlasting : ∀ s, (r s).lasting = true)
    (hempty : ∀ s, ¬ (r s).Empty) : T.Alike (Machine.remark r) (Machine.remark r) := by
  refine Alike.modify fun w v hw => { hw with host := ?_ }
  show T.host w.tracing ⟨r (w.view.withHost ()) :: w.host.log, w.host.rest⟩
    v.tracing ⟨r (v.view.withHost ()) :: v.host.log, v.host.rest⟩
  rw [← hT.view_eq hw]
  exact hT.write hw.host _ (hlasting _) (hempty _)

variable {h k : Host (Watched σ)}

/-- Every deed comes out alike. -/
lemma deed (H : T.Hosts h k) (d : Deed) : T.Alike (d.run h) (d.run k) := by
  cases d with
  | call via o =>
    rw [Deed.run, Deed.run]
    split
    · next ho => exact (H.perform ho).bind fun _ => Alike.pure _
    · exact Alike.pure _
  | install via p =>
    rw [Deed.run, Deed.run]
    split
    · next hp =>
      refine Alike.bind (fun w v hw => ?_) fun _ => Alike.pure _
      rw [p.install_apply hp, p.install_apply hp]
      cases p with
      | incDec q => exact .ok () { hw with incDec := (hT.incDec q q).2 rfl }
      | cas q => exact .ok () { hw with cas := (hT.cas q q).2 rfl }
    · exact Alike.pure _
  | allocateFrom ext n => exact (H.allocateFrom ext n).bind fun _ => Alike.pure _
  | reallocate p n => exact (H.reallocate p n).bind fun _ => Alike.pure _
  | combined n ext => exact (H.allocateCombined n ext).bind fun _ => Alike.pure _
  | combinedAligned n align ext =>
    exact (H.allocateCombinedAligned n align ext).bind fun _ => Alike.pure _
  | make r => exact (H.make r).bind fun _ => Alike.pure _
  | resizableAlloc b n => exact (H.resizableAlloc b n).bind fun _ => Alike.pure _
  | resizableRealloc b n => exact (H.resizableRealloc b n).bind fun _ => Alike.pure _
  | clone r =>
    exact ((H.acquire r.handle).bind fun _ => Alike.pure _).bind fun _ => Alike.pure _
  | drop r => exact (H.release r.handle).bind fun _ => Alike.pure _
  | debug showAddr r =>
    exact ((Alike.load _).bind fun _ => (Alike.kind _).bind fun _ => Alike.pure _).bind fun _ =>
      Alike.pure _
  | ask o q => exact (Hosts.serve (H.heapObject o) q).bind fun _ => Alike.pure _
  | askExternal ext q =>
    rw [Deed.run, Deed.run, H.lookup]
    exact (Hosts.serve (H.externalAllocator _) q).bind fun _ => Alike.pure _

/-- A panic that is caught is caught alike, and so is what is written down. -/
lemma take (H : T.Hosts h k) (d : Deed) : T.Alike (d.take h) (d.take k) := by
  refine Alike.bind ((hT.deed H d).tryCatch fun e he => ?_) fun r =>
    (hT.remark (fun _ => rfl) fun _ => id).bind fun _ => Alike.pure _
  cases e with
  | panic message => exact Alike.pure _
  | violation _ | boundary _ | noUnwind | tooDeep => exact Alike.throw he

/-- Whole routines are alike, by induction on what they do. -/
theorem routine (H : T.Hosts h k) (p : Routine σ α) : T.Alike (p.run h) (p.run k) := by
  induction p with
  | done a => exact Alike.pure a
  | panic message => exact Alike.throw fun _ _ => hT.panics
  | look next ih =>
    refine Alike.get_bind fun w v hw => ?_
    rw [hT.view_eq hw]
    exact ih _
  | change f next ih =>
    refine Alike.bind (Alike.modify fun w v hw => ?_) fun _ => ih
    rw [hT.view_eq hw]
    exact hT.revised hw _
  | act d next ih => exact (hT.take H d).bind ih

variable {C D : Company σ}

/-- Two hosts are alike if their answers to all calls are but those of triples that are asked for no
bytes, which the runtime never does. -/
lemma hostOver (hCD : C.external = D.external)
    {answer answer' : (i : Invocation) → Machine (Watched σ) i.Answer}
    (ha : ∀ i, ¬ i.Empty → T.Alike (answer i) (answer' i)) :
    T.Hosts (C.hostOver answer) (D.hostOver answer') where
  functions _ := ⟨fun _ => ha _ (Word.max_one_ne_zero _), fun _ _ => ha _ (Word.max_one_ne_zero _),
    fun _ => ha _ id⟩
  object _ := ⟨fun _ => ha _ id, fun _ _ => ha _ id, fun _ => ha _ id⟩
  external _ := congrFun hCD _
  externalFunctions _ := ⟨fun _ => ha _ id, fun _ _ => ha _ id, fun _ => ha _ id⟩
  destructor _ _ _ _ := ha _ id
  finalizer _ _ := ha _ id
  closure _ _ _ := ha _ id
  dropClosure _ := ha _ id
  increment p q hpq c := by
    obtain rfl := (hT.incDec p q).1 hpq
    cases p with
    | stub | native => exact Alike.addTo c 1
    | functions f => exact ha _ id
  decrement p q hpq c := by
    obtain rfl := (hT.incDec p q).1 hpq
    cases p with
    | stub | native => exact Alike.addTo c (-1)
    | functions f => exact ha _ id
  swap p q hpq slot expected new := by
    obtain rfl := (hT.cas p q).1 hpq
    cases p with
    | stub | native => exact Alike.swapIfEqual slot expected new
    | function f => exact (ha _ id).bind fun _ => Alike.pure _
  trace t := by
    refine Alike.modify fun w v hw => ?_
    have hnote (u : World (Watched σ)) :
        (if u.tracing then { u with host := ⟨.trace t :: u.host.log, u.host.rest⟩ } else u) =
          { u with host :=
              if u.tracing then ⟨.trace t :: u.host.log, u.host.rest⟩ else u.host } := by
      split
      · rfl
      · rfl
    have hafter : T.Worlds
        { w with host :=
            if w.tracing then ⟨.trace t :: w.host.log, w.host.rest⟩ else w.host }
        { v with host :=
            if v.tracing then ⟨.trace t :: v.host.log, v.host.rest⟩ else v.host } :=
      { hw with host := hT.trace hw.host t }
    rwa [← hnote w, ← hnote v] at hafter
  stub := (hT.incDec _ _).2 rfl
  swapStub := (hT.cas _ _).2 rfl

/-- So are hosts whose answers are routines, at every depth of nesting. -/
theorem host (hCD : C.SameAboveZero D) (depth : Nat) : T.Hosts (C.host depth) (D.host depth) := by
  induction depth with
  | zero => exact hT.hostOver hCD.external fun _ _ => Alike.throw nofun
  | succ depth ih =>
    refine hT.hostOver hCD.external fun i hi => ?_
    refine (hT.remark (r := .called i) (fun _ => rfl) fun _ => hi).bind fun _ => ?_
    rw [hCD.answer i hi]
    exact (hT.routine ih (D.answer i)).bind fun _ =>
      (hT.remark (fun _ => rfl) fun _ => id).bind fun _ => Alike.pure _

end Hidden

/-! ### With a listener and without -/

/-- The second of two runs has no listener, and they differ in nothing but the lines of the
trace. -/
def unheard (σ : Type) : Likeness (Watched σ) (Watched σ) where
  incDec p q := p = q
  cas p q := p = q
  host _ s listened t :=
    listened = false ∧ s.log.filter Remark.lasting = t.log ∧ s.rest = t.rest
  panics := True

/-- No routine can tell whether anybody listens. -/
lemma unheard_hidden (σ : Type) : (unheard σ).Hidden where
  incDec _ _ := Iff.rfl
  cas _ _ := Iff.rfl
  panics := trivial
  rest hs := hs.2.2
  exchange hs _ := ⟨hs.1, hs.2.1, rfl⟩
  write {_ s _ _} hs r hr _ := by
    refine ⟨hs.1, ?_, hs.2.2⟩
    show (r :: s.log).filter Remark.lasting = _
    rw [List.filter_cons_of_pos hr, hs.2.1]
  trace {l s _ _} hs x := by
    obtain ⟨rfl, hlog, hrest⟩ := hs
    cases l with
    | false => exact ⟨rfl, hlog, hrest⟩
    | true =>
      refine ⟨rfl, ?_, hrest⟩
      show (Remark.trace x :: s.log).filter Remark.lasting = _
      rw [List.filter_cons_of_neg (by simp [Remark.lasting]), hlog]
      rfl

/-- Two runs that end alike are reported alike, but for the trace. -/
lemma Results.report_eq {r s : EStateM.Result Fault (World (Watched σ)) α}
    (h : (unheard σ).Results r s) : (Report.of r).untraced = Report.of s := by
  cases h with
  | ok a hw =>
    simp only [Report.untraced, Report.of, (unheard_hidden σ).view_eq hw, hw.host.2.1]
  | error e _ hw =>
    simp only [Report.untraced, Report.of, (unheard_hidden σ).view_eq hw, hw.host.2.1]

end Likeness

/-- Whole routines are alike, whoever listens. -/
theorem Routine.run_alike {h : Host (Watched σ)} (H : (Likeness.unheard σ).Hosts h h)
    (p : Routine σ α) : (Likeness.unheard σ).Alike (p.run h) (p.run h) :=
  (Likeness.unheard_hidden σ).routine H p

/-- So is every host whose answers are routines. -/
theorem Company.host_alike (C : Company σ) (depth : Nat) :
    (Likeness.unheard σ).Hosts (C.host depth) (C.host depth) :=
  (Likeness.unheard_hidden σ).host (.refl C) depth

/-- **Tracing only observes.** A program runs around arbitrary hosts, once with a listener to the
debug trace and once without. Both runs end in the same way, with the same value or the same fault,
and leave the same state behind; and if the lines of the trace are struck out of the log of the
first, the log of the second is left: the same steps with the same outcomes and the same calls to
the host with the same answers, in the same order, each in the same state of the runtime. -/
theorem tracing_only_observes (C : Company σ) (depth : Nat) (p : Routine σ α) (w : World σ) :
    (C.report depth p true w).untraced = C.report depth p false w := by
  have hstart : (Likeness.unheard σ).Worlds { w with tracing := true, host := ⟨[], w.host⟩ }
      { w with tracing := false, host := ⟨[], w.host⟩ } :=
    ⟨rfl, rfl, rfl, rfl, rfl, rfl, rfl, rfl, rfl, rfl, rfl⟩
  exact (p.run_alike (C.host_alike depth) _ _ hstart).report_eq

/-- There is a trace to be heard: shutting down writes one line of it before the step is over. -/
example (C : Company Unit) (w : World Unit) :
    ((C.report 0 (.act (.call .direct .shutDown) fun _ => .done ()) true w).log.map
      Remark.lasting) = [true, false] := rfl

end CountedHeap
