/-
Primitives that can be exchanged

Three kinds of primitives count a word, and three compare and swap one. What they have in common is
all that a program can see of them, as long as the functions among them do what they should. So two
runs in which such primitives are installed at different points come to the same end, step by step,
and each compare and swap answers as a register would.

* `IncDec.Exact`, `CompareSwap.Exact`: functions that do what they should;
* `IncDec.increment_eq`, `CompareSwap.run_eq`: then they do what the stubs do;
* `Script.Rescheduled`, `Surroundings.Rescheduled`: the same work with other installations;
* `Register.swap`, `Register.answers`: what a register answers to one request, and to many;
* `Line.Regular`: a compare and swap that a register explains;
* `primitives_interchangeable`: runs that differ in what is installed when.
-/
import CountedHeap.Proofs.Scripts

namespace CountedHeap

variable {σ α : Type}

/-! ### Exact primitives -/

/-- A primitive that adds or subtracts one and answers the new value. -/
def IncDec.Exact (h : Host σ) : IncDec → Prop
  | .stub | .native => True
  | .functions f => ∀ c, h.step f.inc c = addTo c 1 ∧ h.step f.dec c = addTo c (-1)

/-- A primitive that stores the new word if the old one is as expected, reports the old word, and
answers zero exactly when it does not store. -/
def CompareSwap.Exact (h : Host σ) : CompareSwap → Prop
  | .stub | .native => True
  | .function fn => ∀ slot expected new (w : World σ), ∃ answer : Int, answer ≠ 0 ∧
      h.compareSwap fn slot expected new w =
        if w.memory.word slot = expected then
          .ok (some (w.memory.word slot), answer)
            { w with memory := w.memory.setWord slot new }
        else .ok (some (w.memory.word slot), 0) w

/-- A primitive of either kind that is exact. -/
def Primitive.Exact (h : Host σ) : Primitive → Prop
  | .incDec p => p.Exact h
  | .cas p => p.Exact h

variable {h : Host σ}

lemma IncDec.increment_eq {p : IncDec} (hp : p.Exact h) (c : Cell) :
    p.increment h c = addTo c 1 := by
  cases p with
  | stub => rfl
  | native => rfl
  | functions f => exact (hp c).1

lemma IncDec.decrement_eq {p : IncDec} (hp : p.Exact h) (c : Cell) :
    p.decrement h c = addTo c (-1) := by
  cases p with
  | stub => rfl
  | native => rfl
  | functions f => exact (hp c).2

lemma swapIfEqual_apply (slot : Addr) (expected new : Word) (w : World σ) :
    swapIfEqual slot expected new w =
      if w.memory.word slot = expected then
        .ok (.ok (w.memory.word slot)) { w with memory := w.memory.setWord slot new }
      else .ok (.error (w.memory.word slot)) w := by
  rw [swapIfEqual, Machine.bind_apply, Machine.load_apply]
  by_cases he : w.memory.word slot = expected
  · simp only [if_pos he]
    rfl
  · simp only [if_neg he]
    rfl

lemma CompareSwap.run_eq {p : CompareSwap} (hp : p.Exact h) (slot : Addr) (expected new : Word) :
    p.run h slot expected new = swapIfEqual slot expected new := by
  cases p with
  | stub => rfl
  | native => rfl
  | function fn =>
    funext w
    obtain ⟨answer, hanswer, hrun⟩ := hp slot expected new w
    rw [run, Machine.bind_apply, hrun, swapIfEqual_apply]
    by_cases he : w.memory.word slot = expected
    · simp [if_pos he, hanswer, Machine.pure_apply]
    · simp [if_neg he, Machine.pure_apply]

/-! ### Hosts that do not know -/

/-- Two states that differ at most in exact primitives. -/
def Likeness.interchange (h : Host σ) : Likeness σ σ where
  incDec p q := p.Exact h ∧ q.Exact h
  cas p q := p.Exact h ∧ q.Exact h
  host t s t' s' := t = t' ∧ s = s'
  panics := True

open Likeness (interchange)

/-- What the computation does does not depend on the primitives that are installed, as long as they
are exact. -/
def Machine.Blind (h : Host σ) (x : Machine σ α) : Prop := (interchange h).Alike x x

/-- The allocator knows nothing of primitives. -/
structure Allocator.Blind (h : Host σ) (a : Allocator σ) : Prop where
  allocate : ∀ n, (a.allocate n).Blind h
  reallocate : ∀ p n, (a.reallocate p n).Blind h
  free : ∀ p, (a.free p).Blind h

/-- Nothing that the host does when it is called depends on the primitives that are installed. -/
structure Host.Blind (h : Host σ) : Prop where
  functions : ∀ f, (h.functions f).Blind h
  object : ∀ a, (h.object a).Blind h
  externalFunctions : ∀ e, (h.externalFunctions e).Blind h
  destructor : ∀ fn data size info, (h.destructor fn data size info).Blind h
  finalizer : ∀ fn data, (h.finalizer fn data).Blind h
  closure : ∀ c data size, (h.closure c data size).Blind h
  dropClosure : ∀ c, (h.dropClosure c).Blind h

lemma Allocator.Blind.alike {a : Allocator σ} (ha : a.Blind h) :
    (interchange h).Allocators a a := ⟨ha.allocate, ha.reallocate, ha.free⟩

lemma Host.Blind.alike (H : h.Blind) : (interchange h).Hosts h h where
  functions f := (H.functions f).alike.atLeastOne
  object a := (H.object a).alike
  external _ := rfl
  externalFunctions e := (H.externalFunctions e).alike
  destructor := H.destructor
  finalizer := H.finalizer
  closure := H.closure
  dropClosure := H.dropClosure
  increment p q hpq c := by
    rw [IncDec.increment_eq hpq.1, IncDec.increment_eq hpq.2]
    exact Likeness.Alike.addTo c 1
  decrement p q hpq c := by
    rw [IncDec.decrement_eq hpq.1, IncDec.decrement_eq hpq.2]
    exact Likeness.Alike.addTo c (-1)
  swap p q hpq slot expected new := by
    rw [CompareSwap.run_eq hpq.1, CompareSwap.run_eq hpq.2]
    exact Likeness.Alike.swapIfEqual slot expected new
  trace t := by
    refine Likeness.Alike.modify fun w v hw => ?_
    obtain ⟨htracing, hhost⟩ := hw.host
    rw [htracing, hhost]
    split
    · exact { hw with host := ⟨rfl, rfl⟩ }
    · exact hw
  stub := ⟨trivial, trivial⟩
  swapStub := ⟨trivial, trivial⟩

lemma Likeness.interchange_clear (h : Host σ) : (interchange h).Clear := fun _ _ _ _ hs => hs

lemma Primitive.Exact.ignores {p : Primitive} (hp : p.Exact h) : (interchange h).Ignores p := by
  cases p with
  | incDec p => exact fun q r hqr => ⟨⟨hp, hqr.2⟩, hqr.1, hp⟩
  | cas p => exact fun q r hqr => ⟨⟨hp, hqr.2⟩, hqr.1, hp⟩

/-! ### Other installations -/

/-- Two programs that take the same steps and install exact primitives, each wherever it likes. -/
inductive Script.Rescheduled (h : Host σ) : Script σ → Script σ → Prop
  | done : Rescheduled h .done .done
  | step (via : Route) (o : Operation) {next next' : Response → World (Journal σ) → Script σ} :
      (∀ r w, Rescheduled h (next r w) (next' r w)) →
      Rescheduled h (.step via o next) (.step via o next')
  | left {via : Route} {p : Primitive} {s t : Script σ} : via.installs p = true → p.Exact h →
      Rescheduled h s t → Rescheduled h (.install via p s) t
  | right {via : Route} {p : Primitive} {s t : Script σ} : via.installs p = true → p.Exact h →
      Rescheduled h s t → Rescheduled h s (.install via p t)

/-- One host, and programs that take the same steps with other installations. -/
structure Surroundings.Rescheduled (S S' : Surroundings σ) : Prop where
  base : S.base = S'.base
  destructor : ∀ fn data size info w,
    (S.destructor fn data size info w).Rescheduled S.base (S'.destructor fn data size info w)
  finalizer : ∀ fn data w, (S.finalizer fn data w).Rescheduled S.base (S'.finalizer fn data w)
  closure : ∀ c data size w,
    (S.closure c data size w).Rescheduled S.base (S'.closure c data size w)
  dropClosure : ∀ c w, (S.dropClosure c w).Rescheduled S.base (S'.dropClosure c w)

lemma Script.Rescheduled.alike {s t : Script σ} (hst : s.Rescheduled h t) :
    s.Alike (interchange h) t := by
  induction hst with
  | done => exact .done
  | step via o hnext ih => exact .step via o ih
  | left hvia hp hst ih => exact .left hvia hp.ignores ih
  | right hvia hp hst ih => exact .right hvia hp.ignores ih

lemma Surroundings.Rescheduled.alike {S S' : Surroundings σ} (hblind : S.base.Blind)
    (hSS : S.Rescheduled S') : S.Alike (interchange S.base) S' where
  base := by
    rw [← hSS.base]
    exact hblind.alike
  destructor fn data size info w := (hSS.destructor fn data size info w).alike
  finalizer fn data w := (hSS.finalizer fn data w).alike
  closure c data size w := (hSS.closure c data size w).alike
  dropClosure c w := (hSS.dropClosure c w).alike

/-! ### Registers -/

namespace Register

/-- What a register answers to a request, and what it holds afterwards. -/
def swap (current expected new : Word) : Except Word Word × Word :=
  if current = expected then (.ok current, new) else (.error current, current)

/-- A request as a caller makes it: the word that he expects, the new word, and his cell. -/
structure Request where
  expected : Word
  new : Word
  cell : Option Word

/-- What a register answers to one request after another. -/
def answers : Word → List Request → List Response
  | _, [] => []
  | current, r :: rs =>
    .ofSwap r.cell (swap current r.expected r.new).1 ::
      answers (swap current r.expected r.new).2 rs

end Register

/-- The request that a step makes of the register at a slot, if it makes one. -/
def Line.request? (slot : Addr) (l : Line) : Option Register.Request :=
  match l.operation with
  | .compareAndSwap a expected new cell => if a = slot then some ⟨expected, new, cell⟩ else none
  | _ => none

/-- The response to a compare and swap is that of a register that holds the word in the slot, and
what the register holds afterwards is the word in the slot then. Nothing else is changed. -/
def Line.Regular (l : Line) : Prop :=
  ∀ slot r, slot ≠ 0 → l.request? slot = some r →
    l.response = .ofSwap r.cell (Register.swap (l.before.word slot) r.expected r.new).1 ∧
      l.after =
        if l.before.word slot = r.expected then l.before.setWord slot r.new else l.before

/-- The steps are requests of the register at a slot, and nobody else writes to the slot between
two of them: each finds there what the one before has left, and the first finds `current`. -/
def Chained (slot : Addr) : Word → List Line → Prop
  | _, [] => True
  | current, l :: ls =>
    l.before.word slot = current ∧ (l.request? slot).isSome ∧
      Chained slot (l.after.word slot) ls

/-- A sequence of steps that a register explains one by one is explained as a whole. -/
lemma Chained.responses {slot : Addr} (hslot : slot ≠ 0) (hfit : slot.toNat + 8 ≤ UInt64.size)
    {ls : List Line} (hregular : ∀ l ∈ ls, l.Regular) {current : Word}
    (hchain : Chained slot current ls) :
    ls.map Line.response = Register.answers current (ls.filterMap (Line.request? slot)) := by
  induction ls generalizing current with
  | nil => rfl
  | cons l ls ih =>
    obtain ⟨rfl, hrequest, hrest⟩ := hchain
    obtain ⟨r, hr⟩ := Option.isSome_iff_exists.1 hrequest
    obtain ⟨hresponse, hafter⟩ := hregular l List.mem_cons_self slot r hslot hr
    have hword : l.after.word slot = (Register.swap (l.before.word slot) r.expected r.new).2 := by
      rw [hafter, Register.swap]
      split
      · exact Memory.word_setWord _ _ _ hfit
      · rfl
    rw [hword] at hrest
    rw [List.map_cons, List.filterMap_cons_some hr, Register.answers, hresponse,
      ih (fun l' hl' => hregular l' (List.mem_cons_of_mem l hl')) hrest]

/-! ### Every swap is explained by a register -/

section Regular

variable {S : Surroundings σ} {w v : World (Journal σ)}

/-- With an exact primitive installed, a compare and swap is what the stub does, at every depth. -/
lemma Surroundings.compareAndSwap_apply
    (hw : ((interchange S.base).withJournal Line.Regular).Worlds w v) (depth : Nat) (slot : Addr)
    (expected new : Word) :
    compareAndSwap (S.host depth) slot expected new w = swapIfEqual slot expected new w := by
  have hhost : w.bindings.cas.run (S.host depth) slot expected new =
      w.bindings.cas.run S.base.beside slot expected new := by
    cases w.bindings.cas <;> cases depth <;> rfl
  have hrun : w.bindings.cas.run (S.host depth) slot expected new =
      swapIfEqual slot expected new := by
    rw [hhost, CompareSwap.run_beside, CompareSwap.run_eq hw.cas.1, Machine.beside_swapIfEqual]
  rw [compareAndSwap, Machine.bind_apply, Machine.get_apply]
  exact congrFun hrun w

/-- A compare and swap through its entry point, with a slot. -/
lemma Entry.compareAndSwap_apply {h : Host σ} {w w' : World σ} {slot : Addr} (hslot : slot ≠ 0)
    {expected new : Word} {x : Except Word Word} (cell : Option Word)
    (hx : CountedHeap.compareAndSwap h slot expected new w = .ok x w') :
    (Operation.compareAndSwap slot expected new cell).entry h w = .ok (.ofSwap cell x) w' := by
  rw [Operation.entry, Machine.answering, Machine.bind_apply, Entry.compareAndSwap,
    if_neg hslot, Entry.guarded, Machine.tryCatch_apply, Machine.bind_apply, hx]
  cases x <;> rfl

/-- On every route the response is that of a register. -/
lemma Surroundings.swap_apply
    (hw : ((interchange S.base).withJournal Line.Regular).Worlds w v) (depth : Nat) {slot : Addr}
    (hslot : slot ≠ 0) (r : Register.Request) {via : Route}
    (hvia : via.offers (.compareAndSwap slot r.expected r.new r.cell) = true) :
    (Operation.compareAndSwap slot r.expected r.new r.cell).perform (S.host depth) via w =
      .ok (.ofSwap r.cell (Register.swap (w.memory.word slot) r.expected r.new).1)
        { w with memory :=
            if w.memory.word slot = r.expected then w.memory.setWord slot r.new
            else w.memory } := by
  have hswap : compareAndSwap (S.host depth) slot r.expected r.new w =
      .ok (Register.swap (w.memory.word slot) r.expected r.new).1
        { w with memory :=
            if w.memory.word slot = r.expected then w.memory.setWord slot r.new
            else w.memory } := by
    rw [compareAndSwap_apply hw, swapIfEqual_apply, Register.swap]
    split
    · rfl
    · rfl
  cases via with
  | direct =>
    rw [Operation.perform, Operation.direct, Machine.answering, Machine.bind_apply, hswap]
    rfl
  | entry => exact Entry.compareAndSwap_apply hslot r.cell hswap
  | table => cases hvia

lemma Surroundings.admits (S : Surroundings σ) (depth : Nat) :
    (interchange S.base).Admits Line.Regular (S.host depth) := by
  intro via o w v r w' ho hw hrun slot q hslot hq
  cases o with
  | compareAndSwap a expected new cell =>
    have hq' : (if a = slot then some ⟨expected, new, cell⟩ else none : Option _) = some q := hq
    split at hq'
    · next ha =>
      obtain rfl := ha
      obtain rfl := Option.some.inj hq'
      rw [swap_apply hw depth hslot ⟨expected, new, cell⟩ ho] at hrun
      obtain ⟨hr, hw'⟩ := EStateM.Result.ok.inj hrun
      refine ⟨hr.symm, ?_⟩
      rw [← hw']
    · exact absurd hq' (Option.some_ne_none q).symm
  | _ => exact absurd hq (Option.some_ne_none q).symm

end Regular

/-! ### Whole runs -/

/-- How a computation ends: its value or its fault, and the state without its primitives. -/
def Machine.outcome (x : Machine σ α) (w : World σ) : Except Fault α × World σ :=
  match x w with
  | .ok a w' => (.ok a, w'.veiled)
  | .error e w' => (.error e, w'.veiled)

/-- The steps of a journal that are requests of the register at a slot, in the order of time. -/
def Journal.swaps (j : Journal σ) (slot : Addr) : List Line :=
  j.lines.reverse.filter fun l => (l.request? slot).isSome

/-- Both primitives that are installed are exact. -/
def World.Exact {τ : Type} (h : Host σ) (w : World τ) : Prop :=
  w.bindings.incDec.Exact h ∧ w.bindings.cas.Exact h

/-- Two states that look the same to programs, and an empty journal. -/
lemma World.Exact.worlds {w v : World (Journal σ)} (hw : w.Exact h) (hv : v.Exact h)
    (hwv : w.veiled = v.veiled) (hnew : w.host.lines = []) :
    ((interchange h).withJournal Line.Regular).Worlds w v where
  memory := congrArg (fun u => u.memory) hwv
  heap := congrArg (fun u => u.bindings.heap) hwv
  shuttingDown := congrArg (fun u => u.shuttingDown) hwv
  stats := congrArg (fun u => u.stats) hwv
  interned := congrArg (fun u => u.interned) hwv
  boxes := congrArg (fun u => u.boxes) hwv
  incDec := ⟨hw.1, hv.1⟩
  cas := ⟨hw.2, hv.2⟩
  host := by
    refine ⟨congrArg (fun u => u.host.lines) hwv, fun l hl => ?_, congrArg (fun u => u.tracing) hwv,
      congrArg (fun u => u.host.rest) hwv⟩
    rw [hnew] at hl
    exact absurd hl List.not_mem_nil

/-- Correct primitives are interchangeable. Two programs take the same steps, and so do the
destructors, finalizers and closures that they set off; but what they install, and where, is up to
each of them, as long as it is exact. From states that differ in nothing but exact primitives they
come to the same end: the same value or fault, the same memory and counters, the same calls of the
host and the same journal of responses. And every compare and swap in the journal is explained by a
register: where nobody else writes to the slot in between, one after another of them is answered as
a register answers that holds what was in the slot at first. -/
theorem primitives_interchangeable {S S' : Surroundings σ} (hblind : S.base.Blind)
    (hSS : S.Rescheduled S') {s t : Script σ} (hst : s.Rescheduled S.base t) (depth : Nat)
    {w v : World (Journal σ)} (hw : w.Exact S.base) (hv : v.Exact S.base)
    (hwv : w.veiled = v.veiled) (hnew : w.host.lines = []) :
    (s.run (S.host depth)).outcome w = (t.run (S'.host depth)).outcome v ∧
      (∀ l ∈ ((s.run (S.host depth)).outcome w).2.host.lines, l.Regular) ∧
      ∀ slot, slot ≠ 0 → slot.toNat + 8 ≤ UInt64.size → ∀ current ls,
        ls <:+: ((s.run (S.host depth)).outcome w).2.host.swaps slot →
        Chained slot current ls →
          ls.map Line.response = Register.answers current (ls.filterMap (Line.request? slot)) := by
  have hrun := (hSS.alike hblind).run (Likeness.interchange_clear S.base) S.admits depth
    hst.alike w v (hw.worlds hv hwv hnew)
  have hend : (s.run (S.host depth)).outcome w = (t.run (S'.host depth)).outcome v ∧
      ∀ l ∈ ((s.run (S.host depth)).outcome w).2.host.lines, l.Regular := by
    unfold Machine.outcome
    generalize s.run (S.host depth) w = x at hrun
    generalize t.run (S'.host depth) v = y at hrun
    cases hrun with
    | ok a h =>
      exact ⟨congrArg (Prod.mk _) (h.veiled_eq (Likeness.interchange_clear _)), h.host.2.1⟩
    | error e he h =>
      exact ⟨congrArg (Prod.mk _) (h.veiled_eq (Likeness.interchange_clear _)), h.host.2.1⟩
  refine ⟨hend.1, hend.2, fun slot hslot hfit current ls hls hchain => ?_⟩
  refine hchain.responses hslot hfit fun l hl => hend.2 l ?_
  exact List.mem_reverse.1 (List.mem_filter.1 (hls.subset hl)).1

lemma Host.single_blind : Host.single.Blind where
  functions _ := ⟨fun _ => .pure _, fun _ _ => .pure _, fun _ => .pure _⟩
  object _ := ⟨fun _ => .pure _, fun _ _ => .pure _, fun _ => .pure _⟩
  externalFunctions _ := ⟨fun _ => .pure _, fun _ _ => .pure _, fun _ => .pure _⟩
  destructor _ _ _ _ := .pure _
  finalizer _ _ := .pure _
  closure _ _ _ := .pure _
  dropClosure _ := .pure _

lemma Host.single_counts : (Primitive.incDec (.functions ⟨1, 2⟩)).Exact Host.single :=
  fun _ => ⟨rfl, rfl⟩

lemma Host.single_swaps : (Primitive.cas (.function 3)).Exact Host.single := by
  refine fun slot expected new w => ⟨7, by decide, ?_⟩
  have hswap := swapIfEqual_apply slot expected new w
  simp only [Host.single, Machine.bind_apply, hswap]
  by_cases he : w.memory.word slot = expected
  · simp only [if_pos he, Machine.pure_apply]
  · simp only [if_neg he, Machine.pure_apply]

/-- Its destructors install a primitive and ask for a counter. -/
def Surroundings.installing (p : Primitive) : Surroundings Unit where
  base := .single
  destructor _ _ _ _ _ := .install .direct p (.step .direct (.counter .alloc) fun _ _ => .done)
  finalizer _ _ _ := .done
  closure _ _ _ _ := .done
  dropClosure _ _ := .done

/-- A primitive is installed; a handle with a destructor is made, a word of its payload swapped, and
the handle released. -/
def Script.swapping (p : Primitive) : Script Unit :=
  .install .direct p <|
    .step .direct (.make (.allocDestructor 8 1)) fun _ _ =>
    .step .direct (.compareAndSwap 4152 0 5 (some 1)) fun _ _ =>
    .step .direct (.release 4096) fun _ _ => .done

lemma Surroundings.installing_rescheduled {p q : Primitive} (hp : p.Exact Host.single)
    (hq : q.Exact Host.single) : (installing p).Rescheduled (installing q) :=
  ⟨rfl, fun _ _ _ _ _ => .left rfl hp (.right rfl hq (.step _ _ fun _ _ => .done)),
    fun _ _ _ => .done, fun _ _ _ _ => .done, fun _ _ => .done⟩

lemma Script.swapping_rescheduled {p q : Primitive} (hp : p.Exact Host.single)
    (hq : q.Exact Host.single) : (swapping p).Rescheduled Host.single (swapping q) :=
  .left rfl hp (.right rfl hq
    (.step _ _ fun _ _ => .step _ _ fun _ _ => .step _ _ fun _ _ => .done))

/-- The machine's own primitives in one run, and functions of the host in the other. -/
theorem primitives_interchangeable_swapping :
    Host.single.Blind ∧
    (Surroundings.installing (.cas (.function 3))).Rescheduled (.installing (.cas .native)) ∧
    (Script.swapping (.incDec (.functions ⟨1, 2⟩))).Rescheduled Host.single
      (Script.swapping (.incDec .native)) ∧
    World.Exact Host.single ({ host := ⟨[], ()⟩ } : World (Journal Unit)) ∧
    ((Script.swapping (.incDec (.functions ⟨1, 2⟩))).run
        ((Surroundings.installing (.cas (.function 3))).host 1)).outcome { host := ⟨[], ()⟩ } =
      ((Script.swapping (.incDec .native)).run
        ((Surroundings.installing (.cas .native)).host 1)).outcome { host := ⟨[], ()⟩ } := by
  have hSS : (Surroundings.installing (.cas (.function 3))).Rescheduled
      (.installing (.cas .native)) :=
    Surroundings.installing_rescheduled Host.single_swaps trivial
  have hst : (Script.swapping (.incDec (.functions ⟨1, 2⟩))).Rescheduled Host.single
      (Script.swapping (.incDec .native)) :=
    Script.swapping_rescheduled Host.single_counts trivial
  have hw : World.Exact Host.single ({ host := ⟨[], ()⟩ } : World (Journal Unit)) :=
    ⟨trivial, trivial⟩
  exact ⟨Host.single_blind, hSS, hst, hw,
    (primitives_interchangeable Host.single_blind hSS hst 1 hw hw rfl rfl).1⟩

end CountedHeap
