/-
The course of a run

Destructors, finalizers and closures run in the middle of the end of a handle, and programs that
are called from inside end other handles meanwhile. So at any moment of a run there is a stack of
ends that have begun and are not over. With this stack beside the state, a run that keeps the
contract is a course of strides: each operation that calls nobody is a stride, and so are the single
moments of an end, and the moments at which a closure is put into a box, called, or dropped.

What holds of every stride holds of every run, whatever way it ends, however deep the calls in it
are nested, and whatever the allocators answer.

* `Unfinished`, `Stage`: an end that is not over, and a state with the stack of these;
* `Plainly`, `Boxed`: operations that call nobody;
* `Environment.Stride`, `Environment.Course`: the single moments, and what is made of them;
* `Program.Hands`, `Environment.Hands`: callers who are careful with the closures that they hand
  over;
* `Environment.Travels`: a computation takes its course;
* `perform_travels`, `run_travels`, `follows_host`: steps, programs, and what is called from inside;
* `exists_course`: every run takes its course.
-/
import Mathlib.Logic.Relation
import CountedHeap.Proofs.Buffers
import CountedHeap.Proofs.Counting

namespace CountedHeap

/-! ### Stages -/

/-- The end of a handle whose destructor, finalizer or closure was called, while this is not over:
the handle, and the closure if one was called and not dropped yet. -/
structure Unfinished where
  handle : Handle
  closure? : Option Nat

/-- A state of a run, and the ends that are not over, the innermost first. -/
structure Stage where
  world : World History
  unfinished : List Unfinished

/-- Events that are neither calls nor boundaries. -/
def Event.Plain : Event → Prop
  | .destructor .. | .finalizer .. | .closure .. | .closureDropped _ | .boundary _ => False
  | _ => True

/-- An event by which the payload of `b` is exchanged, or a block is freed through it. -/
def Event.Refits (b : Handle) : Event → Prop
  | .refilled c .. | .discarded c _ => c = b
  | _ => False

/-- An event by which a reference to `b` is given up. -/
def Event.GivesUp (b : Handle) : Event → Prop
  | .released c | .ending c => c = b
  | _ => False

/-- Somebody has a reference to `b`, and its destructor is to call the closure in the box at `a`. -/
structure Bears (w : World History) (b : Handle) (a : Addr) : Prop where
  live : (ledger w.host).Live b
  boxed : (w.memory.header b).destructor = Adapter.boxed.addr
  info : (w.memory.header b).info = a

/-! ### Operations that call nobody -/

/-- Between two states the events `new` were written down, none of them a call. If they take away a
block of a handle, somebody had a reference to it, and it is gone, or its payload was exchanged. -/
structure Records (w v : World History) (new : List Event) : Prop where
  host : v.host = new ++ w.host
  plain : ∀ e ∈ new, e.Plain
  custody : ∀ b ∈ (ledger w.host).handles, ∀ q ∈ (w.memory.header b).blocks b,
    (∃ e ∈ new, e.TakesAway q) → 1 ≤ (ledger w.host).refs b ∧
      (b ∉ (ledger v.host).handles ∨ ∃ e ∈ new, e.Refits b)

/-- From one state to another nobody was called, no closure came or went, no end began that is not
over, and the handles whose destructors are closures are handles that were there before. -/
structure Plainly (w v : World History) : Prop where
  boxes : v.boxes = w.boxes
  spares : Spares w v
  dying : ∀ b, (ledger v.host).Dying b → (ledger w.host).Dying b
  bears : ∀ b a, Bears v b a → Bears w b a
  events : ∃ new, Records w v new

/-- The handle `b` was made, whose destructor is to call the closure `c`. -/
structure Boxed (w v : World History) (c : Nat) (b : Handle) : Prop where
  boxes : v.boxes = (w.boxes.make c).2
  spares : Spares w v
  dying : ∀ b, (ledger v.host).Dying b → (ledger w.host).Dying b
  made : b ∉ (ledger w.host).handles
  bears : Bears v b (w.boxes.make c).1
  others : ∀ b' a, b' ≠ b → Bears v b' a → Bears w b' a
  events : ∃ new, Records w v new

/-- The only reference of `b` is given up, or its end is asked for. -/
inductive Begins (w : World History) (b : Handle) : World History → Prop
  | released : Begins w b ((w.noted (.released b)).withCount b 0)
  | ending : Begins w b (w.noted (.ending b))

/-! ### Strides -/

namespace Environment

variable (E : Environment) (G : World History → Nat → Prop)

/-- One moment of a run. Closures are handed over only where `G` says so. -/
inductive Stride : Stage → Stage → Prop
  /-- The state is written down between two steps. -/
  | marked {w : World History} {st : List Unfinished} : Stride ⟨w, st⟩ ⟨w.marked, st⟩
  /-- Something happens by which nobody is called. -/
  | plain {w v : World History} {st : List Unfinished} (hw : E.Steady w) (h : Plainly w v) :
    Stride ⟨w, st⟩ ⟨v, st⟩
  /-- A closure is put into a box, and a handle is made for it. -/
  | boxed {w v : World History} {st : List Unfinished} {c : Nat} {b : Handle} (hw : E.Steady w)
    (hc : G w c) (h : Boxed w v c b) : Stride ⟨w, st⟩ ⟨v, st⟩
  /-- There is no handle to be had for a closure, and it is dropped. -/
  | refused {w v : World History} {st : List Unfinished} {c : Nat} (hw : E.Steady w) (hc : G w c)
    (h : Plainly { w with boxes := (w.boxes.make c).2.erase (w.boxes.make c).1 } v) :
    Stride ⟨w, st⟩ ⟨v.noted (.closureDropped c), st⟩
  /-- The end of a handle begins, and its destructor, finalizer or closure is called. -/
  | called {w w' : World History} {st : List Unfinished} {b : Handle} {e : Event}
    (hw : E.Steady w) (hm : Marked w) (hb : (ledger w.host).Sole b) (hup : w.shuttingDown = false)
    (hbegins : Begins w b w') (he : (w'.memory.header b).CallsFor w'.boxes e) :
    Stride ⟨w, st⟩
      ⟨World.noted { w' with boxes := (w'.memory.header b).emptied w'.boxes } e,
        ⟨b, e.closure?⟩ :: st⟩
  /-- A closure that was called is dropped. -/
  | dropped {w : World History} {st : List Unfinished} {b : Handle} {c : Nat} (hw : E.Steady w) :
    Stride ⟨w, ⟨b, some c⟩ :: st⟩ ⟨w.noted (.closureDropped c), ⟨b, none⟩ :: st⟩
  /-- The rest of a destructor is done, and the storage goes. -/
  | ended {w : World History} {st : List Unfinished} {b : Handle} (hw : E.Steady w)
    (hb : (ledger w.host).Dying b) :
    Stride ⟨w, ⟨b, none⟩ :: st⟩
      ⟨E.destroyed ((ledger w.host).source b) b (E.completed (w.memory.header b) w), st⟩

/-- Strides one after another. -/
abbrev Course : Stage → Stage → Prop := Relation.ReflTransGen (E.Stride G)

/-- The computation `x`, which goes on from the state `w` with what was begun at the stage `S`,
leads on by a course, whatever way it ends. If it ends well, the ends that are not over are those
of `post`, and whatever was not over before. -/
inductive Travels {α : Type} (S : Stage) (x : Machine History α) (w : World History)
    (post : List Unfinished) : Prop where
  | of_ok {a : α} {v : World History} (h : x w = .ok a v)
    (hcourse : ∀ st, E.Course G ⟨S.world, S.unfinished ++ st⟩ ⟨v, post ++ st⟩)
  | of_error {e : Fault} {v : World History} (more : List Unfinished) (h : x w = .error e v)
    (hcourse : ∀ st, E.Course G ⟨S.world, S.unfinished ++ st⟩ ⟨v, more ++ st⟩)

end Environment

/-! ### Closures that are handed over -/

/-- The closure that is handed over by a step. -/
def Call.closure? : Call → Option Nat
  | .make r => r.closure?
  | _ => none

/-- A caller who hands over only closures for which `G` holds at the moment. -/
inductive Program.Hands (G : World History → Nat → Prop) : World History → Program → Prop
  | done {w : World History} : Hands G w done
  | panic {w : World History} {message : Option String} : Hands G w (panic message)
  | step {w : World History} {c : Call} {next : Answer → World History → Program}
    (hc : ∀ k, c.closure? = some k → G w.marked k) (hnext : ∀ a w', Hands G w' (next a w')) :
    Hands G w (step c next)

/-- So do all programs that are called from inside. -/
def Environment.Hands (E : Environment) (G : World History → Nat → Prop) : Prop :=
  ∀ e w, (E.response e w).Hands G w

/-- Where any closure will do, nobody can go wrong. -/
lemma Program.hands_any (p : Program) (w : World History) : p.Hands (fun _ _ => True) w := by
  induction p generalizing w with
  | done => exact .done
  | panic message => exact .panic
  | step c next ih => exact .step (fun _ _ => trivial) fun a w' => ih a w' w'

namespace Environment

variable {E : Environment} {G : World History → Nat → Prop} {α β : Type} {S S' : Stage}
  {mid post : List Unfinished} {w v : World History} {b : Handle}
  {play : (World History → Program) → Machine History Unit}

/-! ### Computations that take their course -/

namespace Travels

variable {x : Machine History α}

/-- The course that leads to where a computation ends well. -/
lemma ok {a : α} (h : E.Travels G S x w post) (hx : x w = .ok a v) (st : List Unfinished) :
    E.Course G ⟨S.world, S.unfinished ++ st⟩ ⟨v, post ++ st⟩ := by
  cases h with
  | of_ok hrun hcourse =>
    obtain ⟨rfl, rfl⟩ := EStateM.Result.ok.inj (hrun.symm.trans hx)
    exact hcourse st
  | of_error _ hrun _ => exact absurd (hrun.symm.trans hx) nofun

/-- One computation goes on as another. -/
lemma of_eq {y : Machine History α} (hx : x w = y v) (hy : E.Travels G S y v post) :
    E.Travels G S x w post := by
  cases hy with
  | of_ok hrun hcourse => exact of_ok (hx.trans hrun) hcourse
  | of_error more hrun hcourse => exact of_error more (hx.trans hrun) hcourse

/-- What comes before. -/
lemma head (h : E.Travels G S' x w post)
    (hS : ∀ st, E.Course G ⟨S.world, S.unfinished ++ st⟩ ⟨S'.world, S'.unfinished ++ st⟩) :
    E.Travels G S x w post := by
  cases h with
  | of_ok hrun hcourse => exact of_ok hrun fun st => (hS st).trans (hcourse st)
  | of_error more hrun hcourse => exact of_error more hrun fun st => (hS st).trans (hcourse st)

/-- Ends that are not over do not matter to what happens meanwhile. -/
lemma inside {w' : World History} (h : E.Travels G ⟨w', []⟩ x w []) (us : List Unfinished) :
    E.Travels G ⟨w', us⟩ x w us := by
  cases h with
  | of_ok hrun hcourse => exact of_ok hrun fun st => hcourse (us ++ st)
  | @of_error e v more hrun hcourse =>
    refine of_error (more ++ us) hrun fun st => ?_
    rw [List.append_assoc]
    exact hcourse (us ++ st)

/-- The second part goes on from wherever the first ends. -/
lemma bind {f : α → Machine History β} (hx : E.Travels G S x w mid)
    (hf : ∀ a v, x w = .ok a v → E.Travels G ⟨v, mid⟩ (f a) v post) :
    E.Travels G S (x >>= f) w post := by
  cases hx with
  | @of_ok a v hrun hcourse =>
    have hnext : (x >>= f) w = f a v := by rw [Machine.bind_apply, hrun]
    exact of_eq hnext ((hf a v hrun).head hcourse)
  | @of_error e v more hrun hcourse =>
    have hnext : (x >>= f) w = .error e v := by rw [Machine.bind_apply, hrun]
    exact of_error more hnext hcourse

/-- The same where it is known what the first part does. -/
lemma bind_run {f : α → Machine History β} {a : α} (hx : x w = .ok a v)
    (hf : E.Travels G S (f a) v post) : E.Travels G S (x >>= f) w post := by
  refine of_eq ?_ hf
  rw [Machine.bind_apply, hx]

/-- A panic that does not get past a C function is written down nowhere. -/
lemma withoutUnwinding (hx : E.Travels G S x w post) :
    E.Travels G S (Machine.withoutUnwinding x) w post := by
  cases hx with
  | of_ok hrun hcourse => exact of_ok (Machine.withoutUnwinding_eq_ok.2 hrun) hcourse
  | of_error more hrun hcourse =>
    exact of_error more (Machine.withoutUnwinding_of_error hrun) hcourse

/-- A step that tells its caller nothing. -/
lemma silently {y : Machine History Unit} (hy : E.Travels G S y w post) :
    E.Travels G S (Call.silently y).run w post := by
  cases hy with
  | of_ok hrun hcourse => exact of_ok (Call.silently_run hrun) hcourse
  | of_error more hrun hcourse => exact of_error more (Call.silently_run_error hrun) hcourse

/-- An attempt that fails, and does something about it before. -/
lemma refused {y : Attempt History α} {f : α → Attempt History β} {z : Machine History Unit}
    {e : AllocError}
    (hy : y.run w = (do z; return .error e : Machine History (Except AllocError α)) v)
    (hz : E.Travels G S z v post) : E.Travels G S (y >>= f).run w post := by
  rw [Machine.bind_apply] at hy
  cases hz with
  | @of_ok a v' hrun hcourse =>
    rw [hrun] at hy
    have hfail : (y >>= f).run w = .ok (.error e) v' := by
      rw [Attempt.bind_apply, hy]
      rfl
    exact of_ok hfail hcourse
  | @of_error e' v' more hrun hcourse =>
    rw [hrun] at hy
    have hstop : (y >>= f).run w = .error e' v' := by rw [Attempt.bind_apply, hy]
    exact of_error more hstop hcourse

/-- An operation that calls nobody. -/
lemma of_plainly {a : α} (hw : E.Steady w) (hx : x w = .ok a v) (h : Plainly w v) :
    E.Travels G ⟨w, []⟩ x w [] :=
  of_ok hx fun _ => .single (.plain hw h)

/-- The same if it ends in a fault. -/
lemma of_plainly_error {e : Fault} (hw : E.Steady w) (hx : x w = .error e v)
    (h : Plainly w v) : E.Travels G ⟨w, []⟩ x w [] :=
  of_error [] hx fun _ => .single (.plain hw h)

end Travels

end Environment

/-! ### What was written down -/

section Written

open Environment

variable {E : Environment} {w v w' : World History} {b : Handle} {new : List Event}

/-- A handle that is there was there before, unless it was made, and was not disposed of. -/
lemma mem_handles_of_cons {e : Event} {H : History} (he : ¬ e.Makes b)
    (hb : b ∈ (ledger (e :: H)).handles) : b ∈ (ledger H).handles ∧ ¬ e.Disposes b := by
  rw [ledger_cons] at hb
  cases e with
  | given s n p =>
    by_cases hp : p = 0
    · simp only [Ledger.after, hp, if_true] at hb
      exact ⟨hb, not_false⟩
    · simp only [Ledger.after, hp, if_false, Ledger.grant] at hb
      exact ⟨hb, not_false⟩
  | resized s p n q =>
    by_cases hq : q = 0
    · simp only [Ledger.after, hq, if_true] at hb
      exact ⟨hb, fun h => h.2 hq⟩
    · simp only [Ledger.after, hq, if_false] at hb
      obtain ⟨hne, hb⟩ := Finset.mem_erase.1 hb
      exact ⟨hb, fun h => hne h.1.symm⟩
  | takenBack s p =>
    obtain ⟨hne, hb⟩ := Finset.mem_erase.1 hb
    exact ⟨hb, fun h => hne (Eq.symm h)⟩
  | abandoned c =>
    obtain ⟨hne, hb⟩ := Finset.mem_erase.1 hb
    exact ⟨hb, fun h => hne (Eq.symm h)⟩
  | made c own data size =>
    exact ⟨Finset.mem_of_mem_insert_of_ne hb fun h => he h.symm, he⟩
  | started => exact absurd hb (Finset.notMem_empty b)
  | _ => exact ⟨hb, not_false⟩

/-- The same for several events; and what was seen of it is seen still. -/
lemma mem_handles_of_append {new : List Event} {H : History} (hnew : ∀ e ∈ new, ¬ e.Makes b)
    (hb : b ∈ (ledger (new ++ H)).handles) :
    b ∈ (ledger H).handles ∧ ∀ d, Seen b d H → Seen b d (new ++ H) := by
  induction new with
  | nil => exact ⟨hb, fun _ h => h⟩
  | cons e new ih =>
    obtain ⟨hb', hkept⟩ := mem_handles_of_cons (hnew e List.mem_cons_self) hb
    obtain ⟨hmem, hseen⟩ := ih (fun e' he' => hnew e' (List.mem_cons_of_mem _ he')) hb'
    exact ⟨hmem, fun d h => .inr ⟨hkept, hseen d h⟩⟩

/-- A handle that is none of those that were made has its destructor still. -/
lemma Environment.Steady.bears_of (hm : Marked w) (hv : E.Steady v) (hspares : Spares w v)
    (hhost : v.host = new ++ w.host) (hnew : ∀ e ∈ new, ¬ e.Makes b) {a : Addr}
    (h : Bears v b a) : Bears w b a := by
  have hb : b ∈ (ledger (new ++ w.host)).handles := hhost ▸ h.live.1
  obtain ⟨hmem, hseen⟩ := mem_handles_of_append hnew hb
  have hthere : Seen b (w.memory.header b) w.host := by
    obtain ⟨before, hbefore⟩ := hm
    rw [hbefore] at hmem ⊢
    exact .inl ⟨hmem, rfl⟩
  have hendures : (w.memory.header b).Endures (v.memory.header b) := by
    refine hv.recalled.seen b _ ?_
    rw [hhost]
    exact hseen _ hthere
  have hrefs : (ledger w.host).refs b ≠ 0 := by
    intro h0
    have hdying := (hspares b ⟨hmem, h0⟩).1
    have hpos := h.live.2
    rw [hdying.2] at hpos
    omega
  exact ⟨⟨hmem, by omega⟩, hendures.destructor ▸ h.boxed, hendures.info ▸ h.info⟩

/-- Events by which no block goes. -/
lemma Records.of_none (hhost : v.host = new ++ w.host) (hplain : ∀ e ∈ new, e.Plain)
    (hnone : ∀ e ∈ new, ∀ q, ¬ e.TakesAway q) : Records w v new := by
  refine ⟨hhost, hplain, fun b _ q _ h => ?_⟩
  obtain ⟨e, he, htakes⟩ := h
  exact absurd htakes (hnone e he q)

/-- Nothing was written down. -/
lemma Records.nothing (hhost : v.host = w.host) : Records w v [] :=
  .of_none hhost (by simp) (by simp)

/-- Blocks that are given out. -/
lemma Records.of_given (hhost : v.host = new ++ w.host)
    (hnew : ∀ e ∈ new, ∃ s n q, e = .given s n q) : Records w v new := by
  refine .of_none hhost (fun e he => ?_) fun e he q => ?_
  · obtain ⟨s, n, p, rfl⟩ := hnew e he
    trivial
  · obtain ⟨s, n, p, rfl⟩ := hnew e he
    exact not_false

/-- Events by which no block of a handle goes. -/
lemma Records.of_owned (hw : E.Steady w) (hhost : v.host = new ++ w.host)
    (hplain : ∀ e ∈ new, e.Plain)
    (howned : ∀ e ∈ new, ∀ q, e.TakesAway q → q ∉ (ledger w.host).blocks ∨
      (ledger w.host).Owned w.memory q) : Records w v new := by
  refine ⟨hhost, hplain, fun b hb q hq h => ?_⟩
  obtain ⟨e, he, htakes⟩ := h
  obtain ⟨hout, hnot⟩ := Contained.out_of_mem_blocks hw.sound.headed hb hq
  rcases howned e he q htakes with h | h
  · exact absurd hout h
  · exact absurd h hnot

/-- Events by which only blocks of the handle `b` go, which is there no more or was refitted. -/
lemma Records.of_blocks (hw : E.Steady w) (hb : (ledger w.host).Live b)
    (hhost : v.host = new ++ w.host) (hplain : ∀ e ∈ new, e.Plain)
    (hblocks : ∀ e ∈ new, ∀ q, e.TakesAway q → q ∈ (w.memory.header b).blocks b)
    (hgone : b ∉ (ledger v.host).handles ∨ ∃ e ∈ new, e.Refits b) : Records w v new := by
  refine ⟨hhost, hplain, fun c hc q hq h => ?_⟩
  obtain ⟨e, he, htakes⟩ := h
  have hcb : c = b := by
    by_contra hne
    exact Contained.ne_of_mem_blocks hw.sound.headed hc hb.1 hne hq (hblocks e he q htakes) rfl
  subst hcb
  exact ⟨hb.2, hgone⟩

/-- A handle that is ending had begun to end before, unless its last reference was given up. -/
lemma dying_of_append {new : List Event} {H : History} (hnew : ∀ e ∈ new, ¬ e.GivesUp b)
    (hb : (ledger (new ++ H)).Dying b) : (ledger H).Dying b := by
  induction new with
  | nil => exact hb
  | cons e new ih =>
    refine ih (fun e' he' => hnew e' (List.mem_cons_of_mem _ he')) ?_
    have hgives := hnew e List.mem_cons_self
    obtain ⟨hmem, hrefs⟩ := hb
    rw [List.cons_append, ledger_cons] at hmem hrefs
    cases e with
    | given s n p =>
      rw [Ledger.after] at hmem hrefs
      split at hmem <;> exact ⟨hmem, by split at hrefs <;> exact hrefs⟩
    | resized s p n q =>
      rw [Ledger.after] at hmem hrefs
      split at hmem
      · exact ⟨hmem, by split at hrefs <;> exact hrefs⟩
      · exact ⟨Finset.mem_of_mem_erase hmem, by split at hrefs <;> exact hrefs⟩
    | takenBack s p => exact ⟨Finset.mem_of_mem_erase hmem, hrefs⟩
    | abandoned c => exact ⟨Finset.mem_of_mem_erase hmem, hrefs⟩
    | made c own data size =>
      have hupdate : Function.update (ledger (new ++ H)).refs c 1 b = 0 := hrefs
      by_cases hcb : b = c
      · rw [hcb, Function.update_self] at hupdate
        cases hupdate
      · rw [Function.update_of_ne hcb] at hupdate
        exact ⟨Finset.mem_of_mem_insert_of_ne hmem hcb, hupdate⟩
    | acquired c =>
      have hupdate : Function.update (ledger (new ++ H)).refs c _ b = 0 := hrefs
      by_cases hcb : b = c
      · rw [hcb, Function.update_self] at hupdate
        cases hupdate
      · rw [Function.update_of_ne hcb] at hupdate
        exact ⟨hmem, hupdate⟩
    | released c =>
      have hupdate : Function.update (ledger (new ++ H)).refs c _ b = 0 := hrefs
      rw [Function.update_of_ne fun h => hgives (Eq.symm h)] at hupdate
      exact ⟨hmem, hupdate⟩
    | ending c =>
      have hupdate : Function.update (ledger (new ++ H)).refs c _ b = 0 := hrefs
      rw [Function.update_of_ne fun h => hgives (Eq.symm h)] at hupdate
      exact ⟨hmem, hupdate⟩
    | started => exact absurd hmem (Finset.notMem_empty b)
    | _ => exact ⟨hmem, hrefs⟩

/-- Operations that touch no box, make no handle for one, and leave no handle behind that is
ending. -/
lemma Environment.Marked.plainly (hm : Marked w) (hreach : E.Reaches w v)
    (hboxes : v.boxes = w.boxes) (hrecords : Records w v new)
    (hnew : ∀ e ∈ new, ∀ b,
      (e.Makes b → (v.memory.header b).destructor ≠ Adapter.boxed.addr) ∧
        (e.GivesUp b → ¬ (ledger v.host).Dying b)) : Plainly w v := by
  refine ⟨hboxes, hreach.2, fun b hb => ?_, fun b _ h => ?_, new, hrecords⟩
  · refine dying_of_append (fun e he hgives => (hnew e he b).2 hgives hb) ?_
    rwa [← hrecords.host]
  · exact hreach.1.bears_of hm hreach.2 hrecords.host
      (fun e he hmakes => (hnew e he b).1 hmakes h.boxed) h

lemma Plainly.refl : Plainly w w :=
  ⟨rfl, .refl, fun _ h => h, fun _ _ h => h, [], .nothing rfl⟩

/-! ### The beginning of the end -/

lemma Begins.host (h : Begins w b w') :
    ∃ e, (e = .released b ∨ e = .ending b) ∧ w'.host = e :: w.host := by
  cases h with
  | released => exact ⟨_, .inl rfl, rfl⟩
  | ending => exact ⟨_, .inr rfl, rfl⟩

lemma Begins.kept (h : Begins w b w') :
    w'.boxes = w.boxes ∧ w'.shuttingDown = w.shuttingDown ∧ w'.bindings = w.bindings := by
  cases h <;> exact ⟨rfl, rfl, rfl⟩

/-- The header is the same but for the count. -/
lemma Begins.header (h : Begins w b w') (hw : E.Steady w) (hb : b ∈ (ledger w.host).handles) :
    ∃ v, w'.memory.header b = { w.memory.header b with refcount := v } := by
  cases h with
  | released =>
    exact ⟨0, Memory.header_setField w.memory .refcount 0 (hw.room_le hb).2⟩
  | ending => exact ⟨(w.memory.header b).refcount, rfl⟩

/-- Nothing was called yet, and the handle is ending. -/
lemma Begins.steady (h : Begins w b w') (hw : E.Steady w) (hb : (ledger w.host).Sole b) :
    E.Reaches w w' ∧ (ledger w'.host).Dying b ∧
      ledger w'.host = (ledger w.host).setRefs b 0 := by
  cases h with
  | released =>
    obtain ⟨-, hdying⟩ := hw.released_last hb
    have hledger : (ledger w.host).after (.released b) = (ledger w.host).setRefs b 0 := by
      simp [Ledger.after, hb.2]
    exact ⟨hw.recount hb.live (Nat.zero_le _) hledger (.inr rfl), hdying, hledger⟩
  | ending =>
    obtain ⟨-, hdying⟩ := hw.ending_last hb
    exact ⟨hw.ending hb, hdying, rfl⟩

lemma Begins.begun (h : Begins w b w') (hw : E.Steady w) (hm : Marked w)
    (hb : (ledger w.host).Sole b) (hup : w.shuttingDown = false) : Begun b w' := by
  obtain ⟨e, he, hhost⟩ := h.host
  obtain ⟨v, hheader⟩ := h.header hw hb.1
  exact begun_of_marked hm hb hup he hhost h.kept.1 hheader

end Written

namespace Environment

variable {E : Environment} {G : World History → Nat → Prop} {w w' v : World History} {b : Handle}
  {play : (World History → Program) → Machine History Unit}

/-! ### The end of a handle -/

variable (E G) in
/-- Programs that are called from inside take their course, if they are careful with closures. -/
def Follows (play : (World History → Program) → Machine History Unit) : Prop :=
  ∀ p : World History → Program, (∀ w, (p w).Hands G w) → ∀ w, E.Steady w →
    E.Travels G ⟨w, []⟩ (play p) w []

/-- The rest of a destructor gives back the payload of a resizable handle, and nothing else. -/
lemma completed_host (d : Header) (v : World History) : (E.completed d v).boxes = v.boxes ∧
    ∃ gone, (E.completed d v).host = gone ++ v.host ∧ ∀ e ∈ gone,
      d.destructor = Adapter.resizable.addr ∧ d.payload ≠ 0 ∧ ∃ s, e = .takenBack s d.payload := by
  obtain ⟨-, he⟩ | ⟨hd, h0, he⟩ | ⟨-, -, he⟩ := E.completed_cases d v
  all_goals rw [he]
  · exact ⟨rfl, [], rfl, by simp⟩
  · refine ⟨rfl, [.takenBack (.heap v.bindings.heap.addr) d.payload], rfl, fun e he => ?_⟩
    exact ⟨hd, h0, _, List.mem_singleton.1 he⟩
  · exact ⟨rfl, [], rfl, by simp⟩

/-- An end by which nobody is called: blocks of the handle go, its storage last. -/
lemma Steady.plainly_ended (hw : E.Steady w) (hm : Marked w) (hb : (ledger w.host).Sole b)
    (hbegins : Begins w b w') {s : Source} (v' : World History) (hboxes : v'.boxes = w'.boxes)
    (gone : List Event) (hhost : v'.host = gone ++ w'.host)
    (hgone : ∀ e ∈ gone, ∃ s', ∃ q ∈ (w.memory.header b).blocks b, e = .takenBack s' q)
    (hreach : E.Reaches w (E.destroyed s b v')) : Plainly w (E.destroyed s b v') := by
  obtain ⟨e, he, hbegun⟩ := hbegins.host
  have hall : (E.destroyed s b v').host = (.takenBack s b :: gone ++ [e]) ++ w.host := by
    show Event.takenBack s b :: v'.host = _
    rw [hhost, hbegun]
    simp
  have hcases : ∀ e' ∈ Event.takenBack s b :: gone ++ [e],
      (∃ s', ∃ q ∈ (w.memory.header b).blocks b, e' = .takenBack s' q) ∨
        e' = .released b ∨ e' = .ending b := by
    intro e' he'
    simp only [List.cons_append, List.mem_cons, List.mem_append, List.not_mem_nil, or_false] at he'
    rcases he' with rfl | he' | rfl
    · exact .inl ⟨s, b, Header.self_mem_blocks _ b, rfl⟩
    · exact .inl (hgone e' he')
    · exact .inr he
  have hrecords : Records w (E.destroyed s b v') (.takenBack s b :: gone ++ [e]) := by
    refine .of_blocks hw hb.live hall (fun e' he' => ?_) (fun e' he' q htakes => ?_)
      (.inl (Finset.notMem_erase b _))
    · obtain ⟨s', q', -, rfl⟩ | rfl | rfl := hcases e' he' <;> trivial
    · obtain ⟨s', q', hq', rfl⟩ | rfl | rfl := hcases e' he'
      · obtain rfl : q' = q := htakes
        exact hq'
      · exact htakes.elim
      · exact htakes.elim
  have hgone : ¬ (ledger (E.destroyed s b v').host).Dying b := fun h => Finset.notMem_erase b _ h.1
  refine hm.plainly hreach (hboxes.trans hbegins.kept.1) hrecords fun e' he' c => ?_
  obtain ⟨s', q', -, rfl⟩ | rfl | rfl := hcases e' he'
  · exact ⟨False.elim, False.elim⟩
  · exact ⟨False.elim, fun hgives => (hgives : b = c) ▸ hgone⟩
  · exact ⟨False.elim, fun hgives => (hgives : b = c) ▸ hgone⟩

/-- A closure that was called is dropped. -/
lemma dropped_travels (hE : E.Hands G) (hfollows : E.Follows G play) (hw : E.Steady w) (c : Nat) :
    E.Travels G ⟨w, [⟨b, some c⟩]⟩ ((E.hostOver play).dropClosure c) w [⟨b, none⟩] := by
  have hnoted : E.Reaches w (w.noted (.closureDropped c)) := hw.noted rfl trivial trivial
  have hplayed : E.Travels G ⟨w.noted (.closureDropped c), [⟨b, none⟩]⟩ (play (E.dropClosure c))
      (w.noted (.closureDropped c)) [⟨b, none⟩] :=
    (hfollows (E.dropClosure c) (hE (.closureDropped c)) _ hnoted.1).inside _
  exact Travels.bind_run (record_run w _) (hplayed.head fun _ => .single (.dropped hw))

/-- What is left of the end of a handle when its call is over. -/
lemma Steady.over_travels {d : Header} (hv : E.Steady v) (hdying : (ledger v.host).Dying b)
    (hd : v.memory.header b = d) :
    E.Travels G ⟨v, [⟨b, none⟩]⟩ (do
      Machine.withoutUnwinding (d.aftermath (E.hostOver play) none)
      Handle.destroy (E.hostOver play) b) v [] := by
  have hafter := aftermath_run play hv hdying.1
  have hcleared := hv.completed_cleared hdying.1
  have hdestroy : Handle.destroy (E.hostOver play) b _ = _ :=
    hv.destroy_of hdying.1 (hcleared.headers b hdying.1) hcleared.bindings
  have hover (st : List Unfinished) : E.Course G ⟨v, ⟨b, none⟩ :: st⟩
      ⟨E.destroyed ((ledger v.host).source b) b (E.completed (v.memory.header b) v), st⟩ :=
    .single (.ended hv hdying)
  rw [hd] at hafter hdestroy hover
  exact Travels.bind_run (Machine.withoutUnwinding_eq_ok.2 hafter) (Travels.of_ok hdestroy hover)

/-- The same where a closure was called. -/
lemma Steady.over_boxed_travels {d : Header} (hE : E.Hands G) (hfollows : E.Follows G play)
    (hplay : Obeys E play) (hv : E.Steady v) (hdying : (ledger v.host).Dying b)
    (hd : v.memory.header b = d) (hboxed : d.destructor = Adapter.boxed.addr) (c : Nat) :
    E.Travels G ⟨v, [⟨b, some c⟩]⟩ (do
      Machine.withoutUnwinding (d.aftermath (E.hostOver play) (some c))
      Handle.destroy (E.hostOver play) b) v [] := by
  have hafter : d.aftermath (E.hostOver play) (some c) = (E.hostOver play).dropClosure c := by
    rw [Header.aftermath, hboxed, Adapter.ofAddr?_addr]
  rw [hafter]
  refine (dropped_travels hE hfollows hv c).withoutUnwinding.bind fun _ v' hrun => ?_
  obtain ⟨hv', hspares⟩ := (dropClosure_ends play hplay hv c).withoutUnwinding.post hrun
  obtain ⟨hdying', hheader⟩ := hspares b hdying
  have hnothing : E.completed (v'.memory.header b) v' = v' := by
    rw [hheader, hd, completed, hboxed, Adapter.ofAddr?_addr]
  have hover (st : List Unfinished) : E.Course G ⟨v', ⟨b, none⟩ :: st⟩
      ⟨E.destroyed ((ledger v'.host).source b) b (E.completed (v'.memory.header b) v'), st⟩ :=
    .single (.ended hv' hdying')
  rw [hnothing] at hover
  have hdestroy : Handle.destroy (E.hostOver play) b v' = _ := hv'.destroy_of hdying'.1 rfl rfl
  exact Travels.of_ok hdestroy hover

/-- The end of a handle whose destructor calls nobody is one stride. -/
lemma Steady.uncalled_travels (hw : E.Steady w) (hm : Marked w) (hb : (ledger w.host).Sole b)
    (hbegins : Begins w b w') (hup : w'.shuttingDown = false)
    (h0 : (w'.memory.header b).destructor ≠ 0)
    (hrun : (w'.memory.header b).callOut (E.hostOver play) w' = .ok none w')
    (hreach : ∀ v, Handle.callDestructor (E.hostOver play) b w' = .ok () v → E.Reaches w v) :
    E.Travels G ⟨w, []⟩ (Handle.callDestructor (E.hostOver play) b) w' [] := by
  obtain ⟨⟨hw', -⟩, hdying, -⟩ := hbegins.steady hw hb
  obtain ⟨n, hheader⟩ := hbegins.header hw hb.1
  have hcleared := hw'.completed_cleared hdying.1
  have hdestroy : Handle.destroy (E.hostOver play) b _ = _ :=
    hw'.destroy_of hdying.1 (hcleared.headers b hdying.1) hcleared.bindings
  have hall : Handle.callDestructor (E.hostOver play) b w' = .ok ()
      (E.destroyed ((ledger w'.host).source b) b (E.completed (w'.memory.header b) w')) := by
    have hafter := Machine.withoutUnwinding_eq_ok.2 (aftermath_run play hw' hdying.1)
    rw [callDestructor_parts hup h0, Machine.bind_apply, Machine.withoutUnwinding_eq_ok.2 hrun]
    simp only [Machine.bind_apply, hafter, hdestroy]
  obtain ⟨hkept, gone, hhost, hgone⟩ := completed_host (E := E) (w'.memory.header b) w'
  refine Travels.of_ok hall fun _ => .single (.plain hw ?_)
  refine hw.plainly_ended hm hb hbegins _ hkept gone hhost (fun e he => ?_) (hreach _ hall)
  obtain ⟨hres, hne, s, rfl⟩ := hgone e he
  rw [hheader] at hres hne ⊢
  have hk := (hw.sound.headed.header b hb.1).adapter.1 hres
  exact ⟨s, _, Header.mem_blocks.2 (.inr ⟨hk, hne, rfl⟩), rfl⟩

/-- The end of a handle whose destructor calls somebody begins with the call, goes on with whatever
is done then, and is brought to its end. -/
lemma Steady.called_travels (hE : E.Hands G) (hfollows : E.Follows G play) (hplay : Obeys E play)
    (hw : E.Steady w) (hm : Marked w) (hb : (ledger w.host).Sole b) (hbegins : Begins w b w')
    (hup : w'.shuttingDown = false) (h0 : (w'.memory.header b).destructor ≠ 0) {e : Event}
    (hcalls : (w'.memory.header b).CallsFor w'.boxes e)
    (hrun : (w'.memory.header b).callOut (E.hostOver play) w' =
      (do record e; play (E.response e); return e.closure?)
        { w' with boxes := (w'.memory.header b).emptied w'.boxes }) :
    E.Travels G ⟨w, []⟩ (Handle.callDestructor (E.hostOver play) b) w' [] := by
  obtain ⟨⟨hw', -⟩, hdying, -⟩ := hbegins.steady hw hb
  have hup' : w.shuttingDown = false := hbegins.kept.2.1 ▸ hup
  set u := World.noted { w' with boxes := (w'.memory.header b).emptied w'.boxes } e with hu
  have hcalled : E.Reaches w' u := by
    have hempty := hw'.withBoxes ((w'.memory.header b).emptied w'.boxes)
    have hlaw : E.Lawful e w'.host := lawful_of_begun (hbegins.begun hw hm hb hup') hcalls
    exact hempty.trans (hempty.1.noted (hcalls.quiet.2 _) hcalls.quiet.1 hlaw)
  have hall : Handle.callDestructor (E.hostOver play) b w' = (do
      Machine.withoutUnwinding (play (E.response e))
      Machine.withoutUnwinding ((w'.memory.header b).aftermath (E.hostOver play) e.closure?)
      Handle.destroy (E.hostOver play) b) u := by
    rw [callDestructor_parts hup h0, Machine.bind_apply, Machine.withoutUnwinding_congr hrun,
      ← Machine.bind_apply, Machine.withoutUnwinding_bind, bind_assoc, Machine.bind_apply,
      Machine.withoutUnwinding_eq_ok.2 (record_run _ _)]
    simp only [Machine.withoutUnwinding_bind, Machine.withoutUnwinding_pure, bind_assoc, pure_bind,
      hu]
  have hinner : E.Travels G ⟨u, [⟨b, e.closure?⟩]⟩ (play (E.response e)) u [⟨b, e.closure?⟩] :=
    (hfollows (E.response e) (hE e) _ hcalled.1).inside _
  have hbegin : E.Travels G ⟨w, []⟩ (play (E.response e)) u [⟨b, e.closure?⟩] :=
    hinner.head fun _ => .single (.called hw hm hb hup' hbegins hcalls)
  refine Travels.of_eq hall (hbegin.withoutUnwinding.bind fun _ v hplayrun => ?_)
  obtain ⟨hv, hspares⟩ :=
    hcalled.trans ((hplay (E.response e) _ hcalled.1).withoutUnwinding.post hplayrun)
  obtain ⟨hdying', hheader⟩ := hspares b hdying
  cases hc : e.closure? with
  | none => exact hv.over_travels hdying' hheader
  | some c =>
    exact hv.over_boxed_travels hE hfollows hplay hdying' hheader (hcalls.boxed hc).1 c

/-- The end of a handle takes its course. -/
lemma callDestructor_travels (hE : E.Hands G) (hfollows : E.Follows G play)
    (hplay : Obeys E play) (hw : E.Steady w) (hm : Marked w) (hb : (ledger w.host).Sole b)
    (hbegins : Begins w b w')
    (hreach : ∀ v, Handle.callDestructor (E.hostOver play) b w' = .ok () v → E.Reaches w v) :
    E.Travels G ⟨w, []⟩ (Handle.callDestructor (E.hostOver play) b) w' [] := by
  by_cases hcall : (w'.memory.header b).destructor ≠ 0 ∧ w'.shuttingDown = false
  · obtain ⟨h0, hup⟩ := hcall
    obtain hrun | ⟨e, hcalls, hrun⟩ := E.callOut_calls play (w'.memory.header b) w'
    · exact hw.uncalled_travels hm hb hbegins hup h0 hrun hreach
    · exact hw.called_travels hE hfollows hplay hm hb hbegins hup h0 hcalls hrun
  -- There is no destructor, or it is not called any more: the storage goes, and that is all.
  obtain ⟨⟨hw', -⟩, hdying, -⟩ := hbegins.steady hw hb
  have hnot : ¬ ((w'.memory.header b).destructor ≠ 0 ∧ ¬ w'.shuttingDown) := by simpa using hcall
  have hrun := callDestructor_run (E := E) (w := w') play b
  rw [if_neg hnot] at hrun
  have hall := hrun.trans (hw'.destroy_of hdying.1 rfl rfl)
  refine Travels.of_ok hall fun _ => .single (.plain hw ?_)
  exact hw.plainly_ended hm hb hbegins w' rfl [] rfl (by simp) (hreach _ hall)

end Environment

end CountedHeap
