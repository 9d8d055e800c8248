/-
Handles that end quietly

Whoever is called at the end of a handle may do with the payload as he likes, and write to memory
that no other handle has. If he leaves the runtime and all other payloads alone, then the end of the
handle is what its header says and no more: there are the calls that the header asks for, the
runtime poisons the payload or gives it back, and the storage goes.

* `Shows`: what is seen between two states, in whatever order;
* `Steadfast`: bytes that no allocator writes to;
* `Confined`: programs that write to memory and keep to themselves;
* `Aside`: what such a program can do;
* `Harmless`: handles whose end calls nobody who does more;
* `Environment.Steady.closes`, `Environment.Steady.vanishes`: what the runtime does itself;
* `Environment.callDestructor_departs`: the end of a harmless handle.
-/
import CountedHeap.Proofs.Cascade
import CountedHeap.Proofs.Frame

namespace CountedHeap

open Memory (AgreeOn Apart range mem_range)

/-! ### What is seen -/

/-- What a program does that no other takes part in: it writes to memory, or it is between two
steps. -/
def Event.isPrivate : Event → Bool
  | .poked .. | .boundary _ => true
  | _ => false

/-- From `H` to `H'` just the events in `es` were seen, in whatever order, but for private ones. -/
def Shows (H H' : History) (es : Multiset Event) : Prop :=
  ∃ new : List Event, H' = new ++ H ∧ ((new.filter fun e => !e.isPrivate : List Event) :
    Multiset Event) = es

namespace Shows

variable {H H' H'' : History} {es es' : Multiset Event} {e : Event}

lemma refl : Shows H H 0 := ⟨[], rfl, rfl⟩

lemma cons (he : e.isPrivate = false) : Shows H (e :: H) {e} := ⟨[e], rfl, by simp [he]⟩

lemma cons_private (he : e.isPrivate = true) : Shows H (e :: H) 0 := ⟨[e], rfl, by simp [he]⟩

lemma trans (h : Shows H H' es) (h' : Shows H' H'' es') : Shows H H'' (es + es') := by
  obtain ⟨new, rfl, rfl⟩ := h
  obtain ⟨new', rfl, rfl⟩ := h'
  refine ⟨new' ++ new, (List.append_assoc new' new H).symm, ?_⟩
  rw [List.filter_append, ← Multiset.coe_add, add_comm]

end Shows

/-! ### Programs that keep to themselves -/

/-- No allocator writes to the byte `i` as long as the blocks in `L` are out: it lies in one of
them, or it is none of the allocators' business. -/
def Steadfast (E : Environment) (L : Ledger) (i : Nat) : Prop :=
  E.Ignores i ∨ ∃ q ∈ L.blocks, i ∈ range q (L.room q)

lemma Steadfast.mono {E : Environment} {L L' : Ledger} {i : Nat} (h : Steadfast E L i)
    (hblocks : L.blocks ⊆ L'.blocks) (hroom : L.room = L'.room) : Steadfast E L' i := by
  rcases h with h | ⟨q, hq, hi⟩
  · exact .inl h
  · exact .inr ⟨q, hblocks hq, hroom ▸ hi⟩

/-- It is left alone when another block is given back. -/
lemma Steadfast.byte_free {E : Environment} {w : World History} {s : Source} {p : Addr} {i : Nat}
    (h : Steadfast E ((ledger w.host).without p) i) (hp : (ledger w.host).Holds s p) :
    (E.free s p w).byte i = w.memory.byte i := by
  rcases h with h | ⟨q, hq, hi⟩
  · exact h.free s p w
  · obtain ⟨hne, hq⟩ := Finset.mem_erase.1 hq
    exact E.free_frame s p w hp q hq hne i hi.1 hi.2

/-- The byte `i` belongs to the payload of a handle other than `b`. -/
def Elsewhere (b : Handle) (w : World History) (i : Nat) : Prop :=
  ∃ c ∈ (ledger w.host).handles, c ≠ b ∧ i ∈ (w.memory.header c).span

/-- The state after a program has written to memory. -/
def World.poked (w : World History) (a : Addr) (bytes : List UInt8) : World History :=
  World.noted { w.marked with memory := w.memory.write a bytes } (.poked a bytes)

/-- From the state `w` on, the program writes to memory and does nothing else, until it is done in a
state that is as `Q` says. It writes to no header and to no payload of a handle other than `b`. -/
inductive Confined (E : Environment) (b : Handle) (Q : World History → Prop) :
    Program → World History → Prop
  | done {w : World History} (h : Q w.marked) : Confined E b Q .done w
  | poke {w : World History} {a : Addr} {bytes : List UInt8}
      {next : Answer → World History → Program} (hc : (Call.poke a bytes).Permitted E w.marked)
      (hout : ∀ i ∈ range a bytes.length, ¬ Elsewhere b w i)
      (h : Confined E b Q (next (.ok 0) (w.poked a bytes)) (w.poked a bytes)) :
      Confined E b Q (.step (.poke a bytes) next) w

/-- Other boxes stay as they are when the destructor is called. -/
lemma Header.find?_emptied (d : Header) (boxes : Boxes) {a : Addr}
    (ha : d.destructor = Adapter.boxed.addr → a ≠ d.info) :
    (d.emptied boxes).find? a = boxes.find? a := by
  unfold Header.emptied
  split
  · next hd => exact boxes.find?_erase_of_ne (ha hd)
  · rfl

/-- From `w` to `v` the events `es` were seen, and nothing happened but that memory was written to
that belongs to no handle other than `b`, and a closure was taken out of the box of `b`. -/
structure Aside (b : Handle) (es : List Event) (w v : World History) : Prop where
  rest : v = { w with memory := v.memory, boxes := v.boxes, host := v.host }
  shows : Shows w.host v.host es
  books : ledger v.host = ledger w.host
  boxes : ∀ a, ((w.memory.header b).destructor = Adapter.boxed.addr →
    a ≠ (w.memory.header b).info) → v.boxes.find? a = w.boxes.find? a
  header : ∀ c ∈ (ledger w.host).handles, v.memory.header c = w.memory.header c
  others : ∀ i < UInt64.size, Elsewhere b w i → v.memory.byte i = w.memory.byte i

namespace Aside

variable {b : Handle} {es es' : List Event} {w v v' : World History} {i : Nat} {e : Event}

lemma refl : Aside b [] w w := ⟨rfl, .refl, rfl, fun _ _ => rfl, fun _ _ => rfl, fun _ _ _ => rfl⟩

lemma elsewhere (h : Aside b es w v) (hi : Elsewhere b w i) : Elsewhere b v i := by
  obtain ⟨c, hc, hne, hi⟩ := hi
  refine ⟨c, h.books ▸ hc, hne, ?_⟩
  rwa [h.header c hc]

lemma trans (h : Aside b es w v) (h' : Aside b es' v v')
    (hb : b ∈ (ledger w.host).handles) : Aside b (es ++ es') w v' := by
  refine ⟨?_, h.shows.trans h'.shows, h'.books.trans h.books, fun a ha => ?_, fun c hc => ?_,
    fun i hi helse => ?_⟩
  · rw [h'.rest, h.rest]
  · exact (h'.boxes a (by rwa [h.header b hb])).trans (h.boxes a ha)
  · exact (h'.header c (h.books ▸ hc)).trans (h.header c hc)
  · exact (h'.others i hi (h.elsewhere helse)).trans (h.others i hi helse)

/-- The state is written down between two steps. -/
lemma marked (w : World History) : Aside b [] w w.marked :=
  ⟨rfl, .cons_private rfl, rfl, fun _ _ => rfl, fun _ _ => rfl, fun _ _ _ => rfl⟩

/-- A line in the history that means nothing to the ledger. -/
lemma noted (w : World History) (he : ∀ L : Ledger, L.after e = L) (hb : e.isPrivate = false) :
    Aside b [e] w (w.noted e) :=
  ⟨rfl, .cons hb, he _, fun _ _ => rfl, fun _ _ => rfl, fun _ _ _ => rfl⟩

/-- Closures are taken out of their boxes. -/
lemma withBoxes (w : World History) (boxes : Boxes)
    (h : ∀ a, ((w.memory.header b).destructor = Adapter.boxed.addr →
      a ≠ (w.memory.header b).info) → boxes.find? a = w.boxes.find? a) :
    Aside b [] w { w with boxes := boxes } :=
  ⟨rfl, .refl, rfl, h, fun _ _ => rfl, fun _ _ _ => rfl⟩

/-- A write that the contract allows. -/
lemma poked {E : Environment} {a : Addr} {bytes : List UInt8}
    (hfit : ∀ c ∈ (ledger w.host).handles, c.toNat + 56 ≤ UInt64.size)
    (hc : (Call.poke a bytes).Permitted E w.marked)
    (hout : ∀ i ∈ range a bytes.length, ¬ Elsewhere b w i) : Aside b [] w (w.poked a bytes) where
  rest := rfl
  shows := (Shows.cons_private (e := .boundary w.snapshot) rfl).trans (.cons_private rfl)
  books := rfl
  boxes _ _ := rfl
  header c hc' := Memory.header_write_of_apart _ _ hc.1 (hfit c hc') (hc.2 c hc')
  others i hi helse := Memory.byte_write_of_not_mem _ hc.1 hi fun hin => hout i hin helse

end Aside

namespace Confined

variable {E : Environment} {b : Handle} {Q : World History → Prop} {p : Program}
  {w : World History}

/-- What a program does that keeps to itself. -/
lemma run (h : Confined E b Q p w)
    (hfit : ∀ c ∈ (ledger w.host).handles, c.toNat + 56 ≤ UInt64.size)
    (hb : b ∈ (ledger w.host).handles) (k : Host History) :
    ∃ v, p.run E k w = .ok () v ∧ Q v ∧ Aside b [] w v := by
  induction h with
  | @done w h => exact ⟨w.marked, rfl, h, .marked w⟩
  | @poke w a bytes next hc hout h ih =>
    have hpoked := Aside.poked hfit hc hout
    have hrun : ((Call.poke a bytes).perform k).run w.marked = .ok (.ok 0) (w.poked a bytes) := rfl
    obtain ⟨v, hrest, hQ, hv⟩ := ih (hpoked.books.symm ▸ hfit) (hpoked.books.symm ▸ hb)
    exact ⟨v, (Environment.step_run hc hrun).trans hrest, hQ, hpoked.trans hv hb⟩

end Confined

/-! ### Who is called at the end of a handle -/

namespace Header

variable (d : Header) (boxes : Boxes)

/-- The call with which the end of a handle begins, if its destructor makes one. -/
def summoned : Option Event := if d.destructor = 0 then none else d.call? boxes

/-- What is seen of the end of a handle before its blocks go: the call, and that the closure is
dropped if it was one. -/
def parting : List Event :=
  match d.summoned boxes with
  | none => []
  | some e => e :: e.closure?.toList.map .closureDropped

variable {d boxes}

lemma parting_of_none (h : d.summoned boxes = none) : d.parting boxes = [] := by
  rw [parting, h]

lemma parting_of_some {e : Event} (h : d.summoned boxes = some e) :
    d.parting boxes = e :: e.closure?.toList.map .closureDropped := by
  rw [parting, h]

lemma call?_recount (v : Word) : { d with refcount := v }.call? boxes = d.call? boxes := rfl

end Header

/-- The byte `i` is no part of a count, and no other handle poisons it when it ends. -/
def Undisputed (w : World History) (b : Handle) (i : Nat) : Prop :=
  ∀ c ∈ (ledger w.host).handles, i ∉ Field.refcount.bytes c ∧
    (c ≠ b → (w.memory.header c).Poisons → i ∉ (w.memory.header c).span)

/-- Since the state `w` handles may have ended; now it is the turn of `b`, and somebody is called.
He finds all handles that are left as they were in the state `w`, but for their counts, and the
payload of `b` as it was. -/
structure Called (E : Environment) (w : World History) (b : Handle) (v : World History) : Prop where
  steady : E.Steady v
  bindings : v.bindings = w.bindings
  up : v.shuttingDown = false
  dying : (ledger v.host).Dying b
  header : v.memory.header b = { w.memory.header b with refcount := 0 }
  others : ∀ c ∈ (ledger v.host).handles, c ∈ (ledger w.host).handles ∧
    ∃ k, v.memory.header c = { w.memory.header c with refcount := k }
  blocks : (ledger v.host).blocks ⊆ (ledger w.host).blocks
  room : (ledger v.host).room = (ledger w.host).room
  payload : ∀ i < UInt64.size, i ∈ (w.memory.header b).span → Steadfast E (ledger v.host) i →
    Undisputed w b i → v.memory.byte i = w.memory.byte i

/-- Whoever is called at the end of the handle `b` keeps to himself, whatever happened to other
handles since the state `w`. So does the owner of its closure when that is dropped. -/
def Harmless (E : Environment) (w : World History) (b : Handle) : Prop :=
  ∀ e, (w.memory.header b).summoned w.boxes = some e → ∀ v, Called E w b v →
    Confined E b (fun v' => ∀ c, e.closure? = some c →
      Confined E b (fun _ => True) (E.dropClosure c (v'.noted (.closureDropped c)))
        (v'.noted (.closureDropped c))) (E.response e v) v

lemma Header.CallsFor.isPrivate {d : Header} {boxes : Boxes} {e : Event}
    (h : d.CallsFor boxes e) : e.isPrivate = false := by
  cases e <;> first | rfl | exact h.elim

namespace Environment

variable {E : Environment} {w u v : World History} {b : Handle} {e : Event}
  {Q : World History → Prop}

/-- How programs are run that are called from inside, if they may be nested `depth` levels deep. -/
def playing (E : Environment) (depth : Nat) (p : World History → Program) :
    Machine History Unit := do (p (← get)).run E (E.host depth)

lemma obeys_playing (depth : Nat) : Obeys E (E.playing depth) := by
  obtain ⟨play, hhost, hplay⟩ := E.obeys_host depth
  unfold playing
  rw [hhost]
  exact obeys_run hplay

/-- A call from inside that keeps to itself. -/
lemma playing_run (hu : E.Steady u) (hb : b ∈ (ledger u.host).handles) (depth : Nat)
    {p : World History → Program} (hp : Confined E b Q (p u) u) :
    ∃ v, E.playing depth p u = .ok () v ∧ Q v ∧ Aside b [] u v :=
  hp.run (fun _ hc => (hu.room_le hc).2) hb (E.host depth)

end Environment

namespace Called

variable {E : Environment} {w u : World History} {b : Handle} {e : Event}

/-- It is still known when the call is written down and a closure is out of its box. -/
lemma noted (hu : Called E w b u) (boxes : Boxes) (hquiet : e.Quiet)
    (hledger : ∀ L : Ledger, L.after e = L) (hlaw : E.Lawful e u.host) :
    Called E w b (World.noted { u with boxes := boxes } e) := by
  have hL : ledger (World.noted { u with boxes := boxes } e).host = ledger u.host := hledger _
  have hempty := hu.steady.withBoxes boxes
  refine ⟨(hempty.1.noted (hledger _) hquiet hlaw).1, hu.bindings, hu.up, ?_, hu.header, ?_, ?_,
    ?_, ?_⟩
  all_goals rw [hL]
  · exact hu.dying
  · exact hu.others
  · exact hu.blocks
  · exact hu.room
  · exact hu.payload

/-- Whoever is called at the end of a handle that is harmless keeps to himself, and what is left of
the destructor is done by the runtime. -/
lemma parting_run (hu : Called E w b u) (hbegun : Begun b u) (hboxes : u.boxes = w.boxes)
    (h : Harmless E w b) (h0 : (w.memory.header b).destructor ≠ 0) (depth : Nat) :
    ∃ v, E.Steady v ∧ Aside b ((w.memory.header b).parting w.boxes) u v ∧
      (do
        let c ← (u.memory.header b).callOut (E.hostOver (E.playing depth))
        (u.memory.header b).aftermath (E.hostOver (E.playing depth)) c) u =
        .ok () (E.completed (v.memory.header b) v) := by
  have hb := hu.dying.1
  have hsame : (u.memory.header b).call? u.boxes = (w.memory.header b).call? w.boxes := by
    rw [hu.header, hboxes, Header.call?_recount]
  have hends := Environment.callOut_ends (Environment.obeys_playing depth) hu.steady hbegun rfl
  have hrun := Environment.callOut_run (E := E) (E.playing depth) (u.memory.header b) u
  rw [hsame] at hrun
  have hsummoned : (w.memory.header b).summoned w.boxes = (w.memory.header b).call? w.boxes :=
    if_neg h0
  rw [Machine.bind_apply]
  cases hcall : (w.memory.header b).call? w.boxes with
  | none =>
    simp only [hcall] at hrun
    rw [hrun, Header.parting_of_none (hsummoned.trans hcall)]
    exact ⟨u, hu.steady, .refl, Environment.aftermath_run (E.playing depth) hu.steady hb⟩
  | some e =>
    simp only [hcall] at hrun
    have hcalls := Header.callsFor_of_call? (hsame.trans hcall)
    obtain ⟨hquiet, hledger⟩ := hcalls.quiet
    have hx := hu.noted ((u.memory.header b).emptied u.boxes) hquiet hledger
      (Environment.lawful_of_begun hbegun hcalls)
    have hconf := h e (hsummoned.trans hcall) _ hx
    obtain ⟨v, hplay, hdrop, hv⟩ := Environment.playing_run hx.steady hx.dying.1 depth hconf
    have hout : (u.memory.header b).callOut (E.hostOver (E.playing depth)) u =
        .ok e.closure? v := by
      rw [hrun, Machine.bind_apply, record_run]
      simp only [Machine.bind_apply, hplay, Machine.pure_apply]
    have hcalled : Aside b [e] u v := by
      have hempty : Aside b [] u { u with boxes := (u.memory.header b).emptied u.boxes } :=
        .withBoxes u _ fun a => (u.memory.header b).find?_emptied u.boxes
      exact (hempty.trans (.noted _ hledger hcalls.isPrivate) hb).trans hv hb
    obtain ⟨hreach, hboxed⟩ := hends.post hout
    have hbv : b ∈ (ledger v.host).handles := hcalled.books.symm ▸ hb
    have hheader : v.memory.header b = u.memory.header b := hcalled.header b hb
    rw [hout, Header.parting_of_some (hsummoned.trans hcall)]
    cases hclosure : e.closure? with
    | none =>
      have hrest := Environment.aftermath_run (E.playing depth) hreach.1 hbv
      rw [hheader] at hrest
      exact ⟨v, hreach.1, hcalled, by rwa [hheader]⟩
    | some c =>
      have hd := hboxed c hclosure
      have hnoted : E.Reaches v (v.noted (.closureDropped c)) :=
        hreach.1.noted rfl trivial trivial
      obtain ⟨v', hplay', -, hv'⟩ := Environment.playing_run hnoted.1 hbv depth (hdrop c hclosure)
      have hdropped : (E.hostOver (E.playing depth)).dropClosure c v = .ok () v' := hplay'
      have hboth := hcalled.trans ((Aside.noted v (fun _ => rfl) rfl).trans hv' hbv) hb
      have hheader' : v'.memory.header b = u.memory.header b := hboth.header b hb
      refine ⟨v', ((Environment.dropClosure_ends (E.playing depth) (Environment.obeys_playing depth)
        hreach.1 c).post hdropped).1, hboth, ?_⟩
      simp only [Header.aftermath, hd, Adapter.ofAddr?_addr, hdropped, hheader',
        Environment.completed]

end Called

/-! ### What the runtime does itself -/

/-- The blocks that are given back at the end of the handle `b`: its own and, unless the runtime is
shutting down, the payload of a resizable one. -/
def World.spoils (w : World History) (b : Handle) : Finset Addr :=
  if w.shuttingDown then {b} else (w.memory.header b).blocks b

lemma World.mem_spoils (v : World History) (b : Handle) : b ∈ v.spoils b := by
  unfold spoils
  split
  · exact Finset.mem_singleton_self b
  · exact Header.self_mem_blocks _ b

/-- The byte `i` is poisoned at the end of the handle `b`. -/
def World.Wipes (w : World History) (b : Handle) (i : Nat) : Prop :=
  w.shuttingDown = false ∧ (w.memory.header b).Poisons ∧ i ∈ (w.memory.header b).span

/-- A block that is no handle goes. -/
lemma Ledger.without_of_notMem {L : Ledger} {p : Addr} (h : p ∉ L.handles) :
    L.without p = { L with blocks := L.blocks.erase p } := by
  rw [without, Finset.erase_eq_of_notMem h]

/-- What the runtime does about the payload of the handle `b` when its destructor was called. -/
structure Closed (E : Environment) (b : Handle) (v v' : World History) : Prop where
  rest : v' = { v with memory := v'.memory, stats := v'.stats, host := v'.host }
  shows : Shows v.host v'.host
    (((v.spoils b).erase b).val.map fun q => .takenBack ((ledger v.host).source q) q)
  books : ledger v'.host =
    { ledger v.host with blocks := (ledger v.host).blocks \ (v.spoils b).erase b }
  stats : v'.stats = { v.stats with free := v.stats.free + .ofNat ((v.spoils b).erase b).card }
  header : ∀ c ∈ (ledger v.host).handles, v'.memory.header c = v.memory.header c
  wiped : ∀ i < UInt64.size, v.Wipes b i → v'.memory.byte i = Poison.freed
  kept : ∀ i < UInt64.size, Steadfast E (ledger v'.host) i → ¬ v.Wipes b i →
    v'.memory.byte i = v.memory.byte i

/-- Where only memory changes. -/
lemma Closed.of_memory {E : Environment} {v : World History} {b : Handle} {m : Memory}
    (hspoils : v.spoils b = {b})
    (hheader : ∀ c ∈ (ledger v.host).handles, m.header c = v.memory.header c)
    (hwiped : ∀ i < UInt64.size, v.Wipes b i → m.byte i = Poison.freed)
    (hkept : ∀ i < UInt64.size, ¬ v.Wipes b i → m.byte i = v.memory.byte i) :
    Closed E b v { v with memory := m } := by
  have hnone : (v.spoils b).erase b = ∅ := by rw [hspoils]; simp
  refine ⟨rfl, ?_, ?_, ?_, hheader, hwiped, fun i hi _ => hkept i hi⟩ <;> rw [hnone]
  · exact .refl
  · rw [Finset.sdiff_empty]
  · exact congrArg (fun n => { v.stats with free := n }) (UInt64.add_zero _).symm

namespace Environment

variable {E : Environment} {v : World History} {b : Handle} {i : Nat}

/-- The state after the rest of a destructor, unless the runtime is shutting down. -/
def closed (E : Environment) (b : Handle) (v : World History) : World History :=
  if v.shuttingDown then v else E.completed (v.memory.header b) v

lemma Steady.closes (hv : E.Steady v) (hb : b ∈ (ledger v.host).handles) :
    Closed E b v (E.closed b v) := by
  unfold closed
  by_cases hdown : v.shuttingDown = true
  · rw [if_pos hdown]
    refine .of_memory (m := v.memory) (if_pos hdown) (fun _ _ => rfl) (fun i _ h => ?_)
      fun _ _ _ => rfl
    rw [h.1] at hdown
    cases hdown
  have hup : v.shuttingDown = false := Bool.eq_false_iff.2 hdown
  have hspoils : v.spoils b = (v.memory.header b).blocks b := if_neg hdown
  rw [if_neg hdown]
  have hsound := hv.sound.headed.header b hb
  obtain ⟨hp, he⟩ | ⟨hd, h0, he⟩ | ⟨hnot, hempty, he⟩ := E.completed_cases (v.memory.header b) v
  all_goals rw [he]
  · have hown := hsound.poisoned hp
    refine .of_memory (hspoils.trans (if_neg fun h => ?_))
      (fun c hc => hv.header_wiped hb hown _ (.inl hc)) (fun i hi h => ?_) fun i hi h => ?_
    · rw [((hv.sound.headed.header b hb).exchange h.1).1] at hown
      cases hown
    · exact (Memory.byte_fill _ _ _ _ hi).trans (if_pos h.2.2)
    · exact (Memory.byte_fill _ _ _ _ hi).trans (if_neg fun hin => h ⟨hup, hp, hin⟩)
  · have hk := hsound.adapter.1 hd
    obtain ⟨hholds, hnot, -⟩ := hv.payload hb hk h0
    have hspoiled : (v.spoils b).erase b = {(v.memory.header b).payload} := by
      rw [hspoils, Header.blocks, if_pos ⟨hk, h0⟩]
      exact Finset.erase_insert (by simpa using ne_of_mem_of_not_mem hb hnot)
    have hbereft := hv.bereft hb hk h0
    refine ⟨rfl, ?_, ?_, ?_, hbereft.headers, fun i hi h => ?_, fun i hi h _ => ?_⟩
    · rw [hspoiled, Finset.singleton_val, Multiset.map_singleton, hholds.2]
      exact .cons rfl
    · rw [hspoiled, Finset.sdiff_singleton_eq_erase, ← Ledger.without_of_notMem hnot]
      rfl
    · rw [hspoiled]
      rfl
    · exact absurd (hsound.poisoned h.2.1) (by
        rw [(hsound.exchange hk).1]
        exact Bool.false_ne_true)
    · exact h.byte_free hholds
  · refine .of_memory (m := v.memory) (hspoils.trans ?_) (fun _ _ => rfl) (fun i _ h => ?_)
      fun _ _ _ => rfl
    · exact if_neg fun h => h.2 (hempty (hsound.adapter.2 h.1))
    · exact absurd h.2.1 hnot

end Environment

/-- The handle `b` is gone with all that was given back at its end. -/
structure Vanished (E : Environment) (b : Handle) (v v' : World History) : Prop where
  rest : v' = { v with memory := v'.memory, stats := v'.stats, host := v'.host }
  shows : Shows v.host v'.host
    ((v.spoils b).val.map fun q => .takenBack ((ledger v.host).source q) q)
  books : ledger v'.host =
    { ledger v.host with
      blocks := (ledger v.host).blocks \ v.spoils b
      handles := (ledger v.host).handles.erase b }
  stats : v'.stats =
    { v.stats with
      free := v.stats.free + .ofNat (v.spoils b).card
      handleFree := v.stats.handleFree + 1 }
  header : ∀ c ∈ (ledger v.host).handles, c ≠ b → v'.memory.header c = v.memory.header c
  wiped : ∀ i < UInt64.size, Steadfast E (ledger v'.host) i → v.Wipes b i →
    v'.memory.byte i = Poison.freed
  kept : ∀ i < UInt64.size, Steadfast E (ledger v'.host) i → ¬ v.Wipes b i →
    v'.memory.byte i = v.memory.byte i

namespace Environment

variable {E : Environment} {v : World History} {b : Handle}

/-- Of what is given back at the end of a handle, nothing but its own block is a handle. -/
lemma Steady.eq_of_mem_spoils (hv : E.Steady v) (hb : b ∈ (ledger v.host).handles) {q : Addr}
    (hq : q ∈ v.spoils b) (hin : q ∈ (ledger v.host).handles) : q = b := by
  unfold World.spoils at hq
  split at hq
  · exact Finset.mem_singleton.1 hq
  · obtain rfl | ⟨hk, h0, rfl⟩ := Header.mem_blocks.1 hq
    · rfl
    · exact absurd hin (hv.payload hb hk h0).2.1

/-- After the payload the block of the handle goes. -/
lemma Steady.vanishes (hv : E.Steady v) (hb : b ∈ (ledger v.host).handles) :
    Vanished E b v (E.destroyed ((ledger v.host).source b) b (E.closed b v)) := by
  have hclosed := hv.closes hb
  have hnone : ∀ c ∈ (ledger v.host).handles, c ∉ (v.spoils b).erase b := fun c hc hin =>
    (Finset.mem_erase.1 hin).1 (hv.eq_of_mem_spoils hb (Finset.mem_of_mem_erase hin) hc)
  have hout : ∀ c ∈ (ledger v.host).handles, c ∈ (ledger (E.closed b v).host).blocks := by
    intro c hc
    rw [hclosed.books]
    exact Finset.mem_sdiff.2 ⟨hv.mem_blocks hc, hnone c hc⟩
  have hholds : (ledger (E.closed b v).host).Holds ((ledger v.host).source b) b := by
    refine ⟨hout b hb, ?_⟩
    rw [hclosed.books]
  have hspoils : v.spoils b = insert b ((v.spoils b).erase b) :=
    (Finset.insert_erase (v.mem_spoils b)).symm
  have hfresh : b ∉ (v.spoils b).erase b := Finset.notMem_erase b _
  have hafter : ledger (E.destroyed ((ledger v.host).source b) b (E.closed b v)).host =
      (ledger (E.closed b v).host).without b := rfl
  have hbefore : ∀ i, Steadfast E ((ledger (E.closed b v).host).without b) i →
      Steadfast E (ledger (E.closed b v).host) i := fun i hi =>
    hi.mono (Finset.erase_subset _ _) rfl
  refine ⟨?_, ?_, ?_, ?_, fun c hc hne => ?_, fun i hi hs hw => ?_, fun i hi hs hw => ?_⟩
  · rw [hclosed.rest]
    rfl
  · rw [hspoils, Finset.insert_val_of_notMem hfresh, Multiset.map_cons, ← Multiset.singleton_add,
      add_comm]
    exact hclosed.shows.trans (.cons rfl)
  · have hblocks : (ledger v.host).blocks \ v.spoils b =
        ((ledger v.host).blocks \ (v.spoils b).erase b).erase b := by
      rw [← Finset.sdiff_insert, Finset.insert_erase (v.mem_spoils b)]
    rw [hafter, hclosed.books, Ledger.without, hblocks]
  · have hcount : UInt64.ofNat (v.spoils b).card = .ofNat ((v.spoils b).erase b).card + 1 := by
      rw [← Finset.card_erase_add_one (v.mem_spoils b), UInt64.ofNat_add]
      rfl
    show ((E.closed b v).stats.bump .free).bump .handleFree = _
    rw [hclosed.stats, hcount, ← UInt64.add_assoc]
    rfl
  · have hfit := hv.room_le hc
    have hroom : (ledger (E.closed b v).host).room = (ledger v.host).room := by
      rw [hclosed.books]
    have hagree := E.free_frame _ b _ hholds c (hout c hc) hne
    rw [hroom] at hagree
    exact (Memory.header_congr (hagree.mono hfit.1) hfit.2).trans (hclosed.header c hc)
  · exact (hs.byte_free hholds).trans (hclosed.wiped i hi hw)
  · exact (hs.byte_free hholds).trans (hclosed.kept i hi (hbefore i hs) hw)

end Environment

/-! ### The end of a harmless handle -/

namespace Environment

variable {E : Environment} {w u : World History} {b : Handle}

/-- The caller's part of the destructor is seen and keeps to itself, and the rest is done by the
runtime. While the runtime is shutting down nobody is called. -/
lemma callDestructor_departs (hu : E.Steady u) (hdying : (ledger u.host).Dying b)
    (hcalled : u.shuttingDown = false →
      Called E w b u ∧ Begun b u ∧ u.boxes = w.boxes ∧ Harmless E w b) (depth : Nat) :
    ∃ v, E.Steady v ∧
      Aside b (if u.shuttingDown then [] else (w.memory.header b).parting w.boxes) u v ∧
      Handle.callDestructor (E.host (depth + 1)) b u =
        .ok () (E.destroyed ((ledger v.host).source b) b (E.closed b v)) := by
  have hhost : E.host (depth + 1) = E.hostOver (E.playing depth) := rfl
  rw [hhost]
  by_cases hdown : u.shuttingDown = true
  · rw [if_pos hdown]
    refine ⟨u, hu, .refl, ?_⟩
    rw [closed, if_pos hdown]
    exact hu.callDestructor_muted hdying.1 hdown
  have hup : u.shuttingDown = false := Bool.eq_false_iff.2 hdown
  obtain ⟨hcalled, hbegun, hboxes, hharmless⟩ := hcalled hup
  have hd : (u.memory.header b).destructor = (w.memory.header b).destructor := by
    rw [hcalled.header]
  rw [if_neg hdown]
  by_cases h0 : (w.memory.header b).destructor = 0
  · have hnone : (w.memory.header b).summoned w.boxes = none := if_pos h0
    have hclosed : E.closed b u = u := by
      rw [closed, if_neg hdown, completed, hd, h0]
      rfl
    rw [Header.parting_of_none hnone]
    refine ⟨u, hu, .refl, ?_⟩
    rw [callDestructor_run, if_neg fun h => h.1 (hd.trans h0), hclosed]
    exact hu.destroy_of hdying.1 rfl rfl
  · obtain ⟨v, hv, haside, hrun⟩ := hcalled.parting_run hbegun hboxes hharmless h0 depth
    have hin : b ∈ (ledger v.host).handles := haside.books.symm ▸ hdying.1
    have hcleared := hv.completed_cleared hin
    have hclosed : E.closed b v = E.completed (v.memory.header b) v := by
      have hdown' : v.shuttingDown = u.shuttingDown := by rw [haside.rest]
      rw [closed, if_neg (hdown'.symm ▸ hdown)]
    refine ⟨v, hv, haside, ?_⟩
    rw [callDestructor_parts hup (hd.symm ▸ h0), ← bind_assoc, ← Machine.withoutUnwinding_bind,
      Machine.bind_apply, Machine.withoutUnwinding_eq_ok.2 hrun, hclosed]
    exact hv.destroy_of hin (hcleared.headers b hin) hcleared.bindings

end Environment

end CountedHeap
