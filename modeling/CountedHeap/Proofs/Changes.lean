/-
Who changes memory

Between two states of a run memory is changed by the allocators that were asked, by the programs
that were called back, and by the runtime itself. This module tells the three apart. The changes of
a computation are a sequence of single ones, each with its author, and a footprint bounds what the
runtime does among them: which bytes it writes, which blocks it gives up, and whom it calls. What
the footprint leaves out is the same afterwards, as far as allocators and callees keep their word.

* `Footprint`: bytes, blocks and calls;
* `Environment.Moves`: a sequence of changes within a footprint;
* `Environment.Discreet`, `Environment.Respects`, `Environment.Ignores`: callees and allocators that
  leave bytes alone;
* `Environment.Moves.stays`, `Environment.Moves.foreign`: what is the same afterwards;
* `Environment.Within`: computations that stay within a footprint, and those that storage and
  headers are handled with.
-/
import CountedHeap.Proofs.Shutdown
import CountedHeap.Proofs.Shortage
import Mathlib.Data.Set.Basic

namespace CountedHeap

open Memory (AgreeOn Apart)

/-! ### Footprints -/

namespace Memory

/-- The `n` bytes from `p` on. -/
def range (p : Addr) (n : Nat) : Set Nat := {i | p.toNat ≤ i ∧ i < p.toNat + n}

variable {m m' : Memory} {p q : Addr} {n k i : Nat}

lemma mem_range : i ∈ range p n ↔ p.toNat ≤ i ∧ i < p.toNat + n := .rfl

lemma range_mono (h : n ≤ k) : range p n ⊆ range p k := fun i hi => ⟨hi.1, by have := hi.2; omega⟩

/-- Ranges that are apart have no byte in common. -/
lemma Apart.not_mem (h : Apart p n q k) (hi : i ∈ range p n) : i ∉ range q k := by
  rw [mem_range] at *
  unfold Apart at h
  omega

/-- Two memories agree on a range if they agree on its bytes. -/
lemma agreeOn_of_mem (h : ∀ i ∈ range p n, m'.byte i = m.byte i) : AgreeOn m m' p n :=
  fun i hi hi' => h i ⟨hi, hi'⟩

/-- A write changes no byte outside of the range that it writes. -/
lemma byte_write_of_not_mem (m : Memory) {a : Addr} {bs : List UInt8}
    (ha : a.toNat + bs.length ≤ UInt64.size) (hi : i < UInt64.size) (h : i ∉ range a bs.length) :
    (m.write a bs).byte i = m.byte i := by
  rw [byte_write m a bs ha hi]
  split
  · rw [mem_range] at h
    rw [List.getElem?_eq_none (by omega), Option.getD_none]
  · rfl

/-- A word of a header is written inside the header. -/
lemma byte_setField_of_not_mem (m : Memory) {b : Handle} (f : Field) (v : Word)
    (hb : b.toNat + 56 ≤ UInt64.size) (hi : i < UInt64.size) (h : i ∉ range (b + f.offset) 8) :
    (m.setWord (b + f.offset) v).byte i = m.byte i := by
  have hf := f.offset_le
  have ho := toNat_add_offset f hb
  exact byte_write_of_not_mem m (by rw [length_littleEndian]; omega) hi
    (by rw [length_littleEndian]; exact h)

/-- Every word of a header lies in it. -/
lemma range_field_subset {b : Handle} (f : Field) (hb : b.toNat + 56 ≤ UInt64.size) :
    range (b + f.offset) 8 ⊆ range b 56 := by
  have hf := f.offset_le
  have ho := toNat_add_offset f hb
  intro i hi
  rw [mem_range] at *
  omega

end Memory

open Memory (range)

/-- What a computation may do by itself: the bytes that it writes, the blocks that it gives back or
has moved, and the calls that it makes of destructors, finalizers and closures. -/
structure Footprint where
  writes : Set Nat := ∅
  gives : Set Addr := ∅
  calls : Set Event := ∅

namespace Footprint

/-- One footprint lies in another. -/
instance : LE Footprint where
  le F G := F.writes ⊆ G.writes ∧ F.gives ⊆ G.gives ∧ F.calls ⊆ G.calls

lemma le_refl (F : Footprint) : F ≤ F := ⟨subset_rfl, subset_rfl, subset_rfl⟩

end Footprint

/-- The call that an event stands for. -/
def Event.call (h : Host History) : Event → Machine History Unit
  | .destructor fn data size info => h.destructor fn data size info
  | .finalizer fn data => h.finalizer fn data
  | .closure c data size => h.closure c data size
  | .closureDropped c => h.dropClosure c
  | _ => pure ()

/-- A line by which callers note what a step means to them. No block moves by it; a runtime that
starts afresh forgets its blocks, but there are none. -/
def Event.Told (w : World History) : Event → Prop
  | .made .. | .acquired _ | .released _ | .ending _ | .abandoned _ | .refilled ..
  | .discarded .. => True
  | .started => (ledger w.host).blocks = ∅
  | _ => False

lemma Event.Told.ledger {w : World History} {e : Event} (h : e.Told w) :
    (ledger (w.noted e).host).blocks = (ledger w.host).blocks ∧
      ∀ q ∈ (ledger w.host).blocks, (ledger (w.noted e).host).room q = (ledger w.host).room q := by
  cases e with
  | started =>
    have hempty : (CountedHeap.ledger w.host).blocks = ∅ := h
    rw [hempty]
    exact ⟨rfl, fun q hq => absurd hq (Finset.notMem_empty q)⟩
  | made | acquired | released | ending | abandoned | refilled | discarded =>
    exact ⟨rfl, fun _ _ => rfl⟩
  | _ => exact h.elim

namespace Environment

/-! ### Changes one by one -/

/-- One gets from the state `w` to another by single changes within the footprint `F`: the runtime
writes, asks allocators and gives blocks back, callers note what they do, and programs are called
back, which is up to them. -/
inductive Moves (E : Environment) (h : Host History) (F : Footprint) (w : World History) :
    World History → Prop where
  | refl : Moves E h F w w
  /-- Bindings, counters and boxes are not in memory. -/
  | aside {v v' : World History} (hv : Moves E h F w v) (hm : v'.memory = v.memory)
      (hh : v'.host = v.host) : Moves E h F w v'
  | noted {v : World History} (hv : Moves E h F w v) {e : Event} (he : e.Told v) :
      Moves E h F w (v.noted e)
  /-- The runtime writes to memory. -/
  | written {v : World History} (hv : Moves E h F w v) {m : Memory}
      (hm : ∀ i < UInt64.size, i ∉ F.writes → m.byte i = v.memory.byte i) :
      Moves E h F w { v with memory := m }
  | granted {v : World History} (hv : Moves E h F w v) (s : Source) (n : Word) :
      Moves E h F w (E.granted s n v)
  | regranted {v : World History} (hv : Moves E h F w v) {s : Source} {p : Addr} (n : Word)
      (hp : p ∈ F.gives) (hs : (ledger v.host).Holds s p) : Moves E h F w (E.regranted s p n v)
  | freed {v : World History} (hv : Moves E h F w v) {s : Source} {p : Addr} (hp : p ∈ F.gives)
      (hs : (ledger v.host).Holds s p) : Moves E h F w (E.freed s p v)
  /-- A program is called back. -/
  | called {v : World History} (hv : Moves E h F w v) {e : Event} (he : e ∈ F.calls)
      (hs : E.Steady v) : Moves E h F w (Machine.after (e.call h) v)

namespace Moves

variable {E : Environment} {h : Host History} {F G : Footprint} {w v v' : World History}

/-- One sequence of changes after another. -/
lemma trans (hv : E.Moves h F w v) (hv' : E.Moves h F v v') : E.Moves h F w v' := by
  induction hv' with
  | refl => exact hv
  | aside _ hm hh ih => exact ih.aside hm hh
  | noted _ he ih => exact ih.noted he
  | written _ hm ih => exact ih.written hm
  | granted _ s n ih => exact ih.granted s n
  | regranted _ n hp hs ih => exact ih.regranted n hp hs
  | freed _ hp hs ih => exact ih.freed hp hs
  | called _ he hs ih => exact ih.called he hs

/-- What is within a footprint is within a larger one. -/
lemma mono (hv : E.Moves h F w v) (hF : F ≤ G) : E.Moves h G w v := by
  obtain ⟨hwrites, hgives, hcalls⟩ := hF
  induction hv with
  | refl => exact .refl
  | aside _ hm hh ih => exact ih.aside hm hh
  | noted _ he ih => exact ih.noted he
  | written _ hm ih => exact ih.written fun i hi hnot => hm i hi fun hin => hnot (hwrites hin)
  | granted _ s n ih => exact ih.granted s n
  | regranted _ n hp hs ih => exact ih.regranted n (hgives hp) hs
  | freed _ hp hs ih => exact ih.freed (hgives hp) hs
  | called _ he hs ih => exact ih.called (hcalls he) hs

/-- A word of a header is replaced. -/
lemma setField (hv : E.Moves h F w v) {b : Handle} (f : Field) (x : Word)
    (hb : b.toNat + 56 ≤ UInt64.size) (hF : range (b + f.offset) 8 ⊆ F.writes) :
    E.Moves h F w { v with memory := v.memory.setWord (b + f.offset) x } :=
  hv.written fun _ hi hnot =>
    Memory.byte_setField_of_not_mem v.memory f x hb hi fun hin => hnot (hF hin)

/-- A whole header is written. -/
lemma header (hv : E.Moves h F w v) {b : Handle} (d : Header) (hb : b.toNat + 56 ≤ UInt64.size)
    (hF : range b 56 ⊆ F.writes) :
    E.Moves h F w { v with memory := v.memory.write b d.bytes } := by
  refine hv.written fun i hi hnot =>
    Memory.byte_write_of_not_mem v.memory (by rw [d.length_bytes]; omega) hi fun hin => hnot (hF ?_)
  rw [d.length_bytes] at hin
  exact Memory.range_mono (by omega) hin

lemma fill (hv : E.Moves h F w v) {p : Addr} {n : Nat} (x : UInt8) (hF : range p n ⊆ F.writes) :
    E.Moves h F w { v with memory := v.memory.fill p n x } := by
  refine hv.written fun i hi hnot => ?_
  exact (Memory.byte_fill _ _ _ _ hi).trans (if_neg fun hin => hnot (hF hin))

/-- A request to an allocator needs no room in the footprint. -/
lemma handed (hv : E.Moves h F w v) (s : Source) (n : Word) : E.Moves h F w (E.handed s n v) :=
  (hv.granted s n).aside rfl rfl

/-- A block goes back that the footprint allows to. -/
lemma handedBack (hv : E.Moves h F w v) {s : Source} {p : Addr} (hp : p ∈ F.gives)
    (hs : (ledger v.host).Holds s p) : E.Moves h F w (E.handedBack s p v) :=
  (hv.freed hp hs).aside rfl rfl

lemma destroyed (hv : E.Moves h F w v) {s : Source} {p : Addr} (hp : p ∈ F.gives)
    (hs : (ledger v.host).Holds s p) : E.Moves h F w (E.destroyed s p v) :=
  (hv.freed hp hs).aside rfl rfl

end Moves

end Environment

/-! ### What is the same afterwards -/

/-- The byte `i` of the block `q` is in its block still, with the value that it had. -/
def Stays (q : Addr) (i : Nat) (w v : World History) : Prop :=
  q ∈ (ledger v.host).blocks ∧ (ledger v.host).room q = (ledger w.host).room q ∧
    v.memory.byte i = w.memory.byte i

lemma Stays.trans {q : Addr} {i : Nat} {w v v' : World History} (h : Stays q i w v)
    (h' : Stays q i v v') : Stays q i w v' :=
  ⟨h'.1, h'.2.1.trans h.2.1, h'.2.2.trans h.2.2⟩

namespace Environment

/-- Whoever is called in the course of a computation within `F` from the state `w` touches no byte
of a block that is out, except for those in `T`. -/
def Discreet (E : Environment) (h : Host History) (F : Footprint) (w : World History)
    (T : Set Nat) : Prop :=
  ∀ e ∈ F.calls, ∀ v, E.Moves h F w v → E.Steady v →
    ∀ q ∈ (ledger v.host).blocks, ∀ i ∈ range q ((ledger v.host).room q), i ∉ T →
      Stays q i v (Machine.after (e.call h) v)

/-- Whoever is called leaves the byte `i` alone, be it in a block or not. -/
def Respects (E : Environment) (h : Host History) (F : Footprint) (w : World History)
    (i : Nat) : Prop :=
  ∀ e ∈ F.calls, ∀ v, E.Moves h F w v → E.Steady v →
    (Machine.after (e.call h) v).memory.byte i = v.memory.byte i

/-- The byte `i` is none of the allocators' business. -/
structure Ignores (E : Environment) (i : Nat) : Prop where
  allocate : ∀ s n w, (E.allocate s n w).memory.byte i = w.memory.byte i
  reallocate : ∀ s p n w, (E.reallocate s p n w).memory.byte i = w.memory.byte i
  free : ∀ s p w, (E.free s p w).byte i = w.memory.byte i

variable {E : Environment} {h : Host History} {F : Footprint} {w v : World History} {q : Addr}
  {i : Nat}

/-- A block that is given out touches none of those that are out. -/
lemma stays_granted (s : Source) (n : Word) (hq : q ∈ (ledger w.host).blocks)
    (hi : i ∈ range q ((ledger w.host).room q)) : Stays q i w (E.granted s n w) := by
  have hbyte := E.allocate_frame s n w q hq i hi.1 hi.2
  by_cases h0 : (E.allocate s n w).addr = 0
  · have hL : ledger (E.granted s n w).host = ledger w.host := by
      simp [granted, Ledger.after, h0]
    rw [Stays, hL]
    exact ⟨hq, rfl, hbyte⟩
  · have hne : q ≠ (E.allocate s n w).addr := by
      intro he
      have hapart := (E.allocate_fresh s n w h0).2.2 q hq
      rw [← he] at hapart
      rw [Memory.mem_range] at hi
      unfold Apart at hapart
      omega
    have hL : ledger (E.granted s n w).host =
        (ledger w.host).grant s n (E.allocate s n w).addr := by
      simp [granted, Ledger.after, h0]
    rw [Stays, hL]
    exact ⟨Finset.mem_insert_of_mem hq, Function.update_of_ne hne _ _, hbyte⟩

/-- Another size for one block touches no other. -/
lemma stays_regranted {s : Source} {p : Addr} (n : Word) (hp : (ledger w.host).Holds s p)
    (hq : q ∈ (ledger w.host).blocks) (hne : q ≠ p)
    (hi : i ∈ range q ((ledger w.host).room q)) : Stays q i w (E.regranted s p n w) := by
  have hbyte := E.reallocate_frame s p n w hp q hq (.inl hne) i hi.1 hi.2
  by_cases h0 : (E.reallocate s p n w).addr = 0
  · have hL : ledger (E.regranted s p n w).host = ledger w.host := by
      simp [regranted, Ledger.after, h0]
    rw [Stays, hL]
    exact ⟨hq, rfl, hbyte⟩
  · have hq' : q ∈ ((ledger w.host).without p).blocks := Finset.mem_erase.2 ⟨hne, hq⟩
    have hnew : q ≠ (E.reallocate s p n w).addr := by
      intro he
      have hapart : Apart (E.reallocate s p n w).addr (max n.toNat 1) q ((ledger w.host).room q) :=
        (E.reallocate_fresh s p n w hp h0).2.2 q hq'
      rw [← he] at hapart
      rw [Memory.mem_range] at hi
      unfold Apart at hapart
      omega
    rw [Stays, Steady.ledger_regranted h0]
    exact ⟨Finset.mem_insert_of_mem hq', Function.update_of_ne hnew _ _, hbyte⟩

/-- A block that goes back takes no other bytes with it. -/
lemma stays_freed {s : Source} {p : Addr} (hp : (ledger w.host).Holds s p)
    (hq : q ∈ (ledger w.host).blocks) (hne : q ≠ p)
    (hi : i ∈ range q ((ledger w.host).room q)) : Stays q i w (E.freed s p w) :=
  ⟨Finset.mem_erase.2 ⟨hne, hq⟩, rfl, E.free_frame s p w hp q hq hne i hi.1 hi.2⟩

namespace Moves

/-- The byte of a block that is not given up stays, unless the runtime or somebody whom it calls
writes it. -/
theorem stays {T : Set Nat} (hv : E.Moves h F w v) (hcalls : E.Discreet h F w T)
    (hq : q ∈ (ledger w.host).blocks) (hgives : q ∉ F.gives) (hlt : i < UInt64.size)
    (hi : i ∈ range q ((ledger w.host).room q)) (hwrites : i ∉ F.writes) (hT : i ∉ T) :
    Stays q i w v := by
  -- wherever the byte has stayed so far, it is a byte of the same block
  have hin : ∀ {v}, Stays q i w v → i ∈ range q ((ledger v.host).room q) := fun hs => by
    rw [hs.2.1]
    exact hi
  have hne : ∀ {p}, p ∈ F.gives → q ≠ p := fun hp he => hgives (he ▸ hp)
  induction hv with
  | refl => exact ⟨hq, rfl, rfl⟩
  | aside _ hm hh ih =>
    rw [Stays, hm, hh]
    exact ih
  | noted _ he ih =>
    obtain ⟨hblocks, hroom⟩ := he.ledger
    exact ih.trans ⟨hblocks.symm ▸ ih.1, hroom q ih.1, rfl⟩
  | written _ hm ih => exact ih.trans ⟨ih.1, rfl, hm i hlt hwrites⟩
  | granted _ s n ih => exact ih.trans (stays_granted s n ih.1 (hin ih))
  | regranted _ n hp hs ih => exact ih.trans (stays_regranted n hs ih.1 (hne hp) (hin ih))
  | freed _ hp hs ih => exact ih.trans (stays_freed hs ih.1 (hne hp) (hin ih))
  | called hv he hs ih => exact ih.trans (hcalls _ he _ hv hs q ih.1 i (hin ih) hT)

/-- A byte that allocators and callees ignore is the same, be it in a block or not, unless the
runtime writes it. -/
theorem foreign (hv : E.Moves h F w v) (hignored : E.Ignores i) (hcalls : E.Respects h F w i)
    (hlt : i < UInt64.size) (hwrites : i ∉ F.writes) : v.memory.byte i = w.memory.byte i := by
  induction hv with
  | refl => rfl
  | aside _ hm _ ih => rw [hm, ih]
  | noted _ _ ih => exact ih
  | written _ hm ih => exact (hm i hlt hwrites).trans ih
  | granted _ s n ih => exact (hignored.allocate s n _).trans ih
  | regranted _ n _ _ ih => exact (hignored.reallocate _ _ n _).trans ih
  | freed _ _ _ ih => exact (hignored.free _ _ _).trans ih
  | called hv he hs ih => exact (hcalls _ he _ hv hs).trans ih

end Moves

/-! ### Computations within a footprint -/

/-- The computation stays within the footprint, whatever way it ends. -/
def Within {α : Type} (E : Environment) (h : Host History) (F : Footprint) (x : Machine History α)
    (w : World History) : Prop := E.Moves h F w (Machine.after x w)

namespace Within

variable {α β : Type}

lemma of_ok {x : Machine History α} {a : α} (hx : x w = .ok a v) (hv : E.Moves h F w v) :
    E.Within h F x w := by
  rw [Within, Machine.after, hx]
  exact hv

lemma of_error {x : Machine History α} {e : Fault} (hx : x w = .error e v)
    (hv : E.Moves h F w v) : E.Within h F x w := by
  rw [Within, Machine.after, hx]
  exact hv

/-- A computation goes on as another one. -/
lemma of_eq {x y : Machine History α} (hx : x w = y v) (hv : E.Moves h F w v)
    (hy : E.Within h F y v) : E.Within h F x w := by
  rw [Within, Machine.after, hx]
  exact hv.trans hy

/-- The state in which a computation ends that is known to end without a fault. -/
lemma moves {x : Machine History α} (hx : E.Within h F x w) {a : α} (hrun : x w = .ok a v) :
    E.Moves h F w v := by
  rw [Within, Machine.after, hrun] at hx
  exact hx

/-- One after the other. -/
lemma bind {x : Machine History α} {f : α → Machine History β} (hx : E.Within h F x w)
    (hf : ∀ a v, x w = .ok a v → E.Within h F (f a) v) : E.Within h F (x >>= f) w := by
  unfold Within Machine.after at hx ⊢
  rw [Machine.bind_apply]
  cases hrun : x w with
  | ok a v =>
    rw [hrun] at hx
    exact hx.trans (hf a v hrun)
  | error e v =>
    rw [hrun] at hx
    exact hx

/-- So does a C function that stays within it but for a panic. -/
lemma withoutUnwinding {x : Machine History α} (hx : E.Within h F x w) :
    E.Within h F (Machine.withoutUnwinding x) w := by
  rw [Within, Machine.after_withoutUnwinding]
  exact hx

/-- The same where it is known what the first part does. -/
lemma bind_run {x : Machine History α} {f : α → Machine History β} {a : α} (hx : x w = .ok a v)
    (hv : E.Moves h F w v) (hf : E.Within h F (f a) v) : E.Within h F (x >>= f) w :=
  (of_ok hx hv).bind fun a' v' hrun => by
    obtain ⟨rfl, rfl⟩ := EStateM.Result.ok.inj (hx.symm.trans hrun)
    exact hf

lemma lift {x : Machine History α} (hx : E.Within h F x w) :
    E.Within h F (liftM x : Attempt History α).run w := by
  unfold Within Machine.after at hx ⊢
  rw [Attempt.lift_apply]
  cases hrun : x w with
  | ok a v =>
    rw [hrun] at hx
    exact hx
  | error e v =>
    rw [hrun] at hx
    exact hx

lemma attempt_bind {x : Attempt History α} {f : α → Attempt History β}
    (hx : E.Within h F x.run w)
    (hf : ∀ a v, x.run w = .ok (.ok a) v → E.Within h F (f a).run v) :
    E.Within h F (x >>= f).run w := by
  rw [ExceptT.run_bind]
  refine hx.bind fun r v hrun => ?_
  cases r with
  | ok a => exact hf a v hrun
  | error e => exact of_ok rfl .refl

lemma silently {x : Machine History Unit} (hx : E.Within h F x w) :
    E.Within h F (Call.silently x).run w :=
  hx.lift.attempt_bind fun _ _ _ => of_ok rfl .refl

end Within

section Storage

variable {play : (World History → Program) → Machine History Unit}

/-- A request for storage is the allocator's to answer. -/
lemma within_allocateFrom (hc : E.Correct w.bindings.incDec) (ext n : Word) :
    E.Within h F (Storage.allocateFrom (E.hostOver play) ext n).run w := by
  rcases allocateFrom_cases play hc ext n with hrun | ⟨n', -, ⟨-, hrun⟩ | ⟨-, hrun⟩⟩
  · exact .of_ok hrun .refl
  · exact .of_ok hrun (.granted .refl _ n')
  · exact .of_ok hrun (.handed .refl _ n')

/-- Whoever is refused has changed nothing. -/
lemma Denied.moves (hv : E.Denied w v) : E.Moves h F w v := by
  obtain rfl | ⟨s, n, -, rfl⟩ := hv
  · exact .refl
  · exact .granted .refl s n

end Storage

end Environment

end CountedHeap
