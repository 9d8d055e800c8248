/-
The history of a run and its ledger

What a host sees of a run is written down, event by event: every answer of an allocator, every
block that is given back, every call of a destructor, and every step that the callers take. The
history is a list with the newest event first. From it alone one can tell which blocks are out,
who gave them out, which of them are handles, how many references each handle has, and which payload
it got last; that is the `Ledger`, and nothing the runtime keeps enters into it.

* `Ledger.after`, `ledger`: the ledger, event by event;
* `Ledger.Holds`, `Ledger.Live`, `Ledger.Fresh`: what callers and allocators may rely on;
* `Out`, `Ledger.Holds.out`: the same for one block, in terms of the history alone;
* `Throughout`: a property of every event of a history, given the events before it.
-/
import Mathlib.Data.Finset.Card
import Mathlib.Logic.Function.Basic
import CountedHeap.Proofs.Headers
import CountedHeap.Surface.Request
import CountedHeap.Settings

namespace CountedHeap

/-! ### Events -/

/-- Who serves a request for storage: a default heap, known by its object, or an allocator of
single handles. -/
inductive Source where
  | heap (object : Addr)
  | external (e : ExternalAllocator)
  deriving DecidableEq

/-- The state of the runtime, without the host around it. -/
abbrev Snapshot := World Unit

/-- What can be seen of a run from outside. -/
inductive Event where
  /-- An allocator answered a request; null is a failure. -/
  | given (s : Source) (n : Word) (p : Addr)
  /-- An allocator answered a request to change the size of `p`; null is a failure. -/
  | resized (s : Source) (p : Addr) (n : Word) (q : Addr)
  /-- An allocator is given a block back. -/
  | takenBack (s : Source) (p : Addr)
  /-- A caller was handed a new handle, which reports this payload and this size; the payload lies
  in its own block or elsewhere. -/
  | made (b : Handle) (own : Bool) (data : Addr) (size : Word)
  /-- A caller took a reference. -/
  | acquired (b : Handle)
  /-- A caller is about to give up a reference. -/
  | released (b : Handle)
  /-- A caller is about to end a handle, whatever its count says. -/
  | ending (b : Handle)
  /-- A caller is about to give back the storage of a handle without ending it. -/
  | abandoned (b : Handle)
  /-- A caller was handed a new payload of a resizable handle, with the size that he asked for. -/
  | refilled (b : Handle) (p : Addr) (n : Word)
  /-- A caller had a block freed through a resizable handle. -/
  | discarded (b : Handle) (p : Addr)
  | destructor (fn data : Addr) (size : Word) (info : Addr)
  | finalizer (fn data : Addr)
  | closure (c : Nat) (data : Addr) (size : Word)
  | closureDropped (c : Nat)
  /-- A caller wrote to memory. -/
  | poked (a : Addr) (bytes : List UInt8)
  /-- The runtime was started afresh. -/
  | started
  /-- A program is between two of its steps. -/
  | boundary (s : Snapshot)

/-- What was seen of a run so far, newest event first. -/
abbrev History := List Event

/-! ### The ledger -/

/-- What is out after a run, as far as it can be seen from outside. -/
structure Ledger where
  /-- blocks that were given out and not taken back -/
  blocks : Finset Addr := ∅
  /-- how many bytes a block has -/
  room : Addr → Nat := fun _ => 0
  /-- who gave a block out -/
  source : Addr → Source := fun _ => .heap 0
  /-- handles that were made and whose block is still out -/
  handles : Finset Addr := ∅
  /-- references of a handle that were taken and not given up; zero once its end has begun -/
  refs : Addr → Nat := fun _ => 0
  /-- whether the payload of a handle lies in the block of its header -/
  own : Addr → Bool := fun _ => false
  /-- the payload that a handle got last, null if it was freed since -/
  data : Addr → Addr := fun _ => 0
  /-- the size that was last asked for with success -/
  size : Addr → Word := fun _ => 0
  /-- how many handles had their storage given back without being ended -/
  abandoned : Nat := 0

namespace Ledger

variable (L : Ledger)

/-- A block was given out. It has at least one byte, so that no other block lies at its address. -/
def grant (s : Source) (n : Word) (p : Addr) : Ledger :=
  { L with
    blocks := insert p L.blocks
    room := Function.update L.room p (max n.toNat 1)
    source := Function.update L.source p s }

/-- A block was taken back. If it was a handle, the handle is gone. -/
def without (p : Addr) : Ledger :=
  { L with blocks := L.blocks.erase p, handles := L.handles.erase p }

/-- A block became a handle. -/
def make (b : Handle) (own : Bool) (data : Addr) (size : Word) : Ledger :=
  { L with
    handles := insert b L.handles
    refs := Function.update L.refs b 1
    own := Function.update L.own b own
    data := Function.update L.data b data
    size := Function.update L.size b size }

/-- The references of a handle changed. -/
def setRefs (b : Handle) (k : Nat) : Ledger := { L with refs := Function.update L.refs b k }

/-- A handle is a mere block again. -/
def abandon (b : Handle) : Ledger :=
  { L with handles := L.handles.erase b, abandoned := L.abandoned + 1 }

/-- A handle got another payload. -/
def refill (b : Handle) (p : Addr) (n : Word) : Ledger :=
  { L with data := Function.update L.data b p, size := Function.update L.size b n }

/-- A block was freed through a handle, which has no payload any more if it was that. -/
def discard (b : Handle) (p : Addr) : Ledger :=
  L.refill b (if p = L.data b then 0 else L.data b) (L.size b)

/-- The ledger after one more event. -/
def after : Event → Ledger
  | .given s n p => if p = 0 then L else L.grant s n p
  | .resized s p n q => if q = 0 then L else (L.without p).grant s n q
  | .takenBack _ p => L.without p
  | .made b own data size => L.make b own data size
  | .acquired b => L.setRefs b (L.refs b + 1)
  | .released b => L.setRefs b (L.refs b - 1)
  | .ending b => L.setRefs b 0
  | .abandoned b => L.abandon b
  | .refilled b p n => L.refill b p n
  | .discarded b p => L.discard b p
  | .started => {}
  | .destructor .. | .finalizer .. | .closure .. | .closureDropped .. => L
  | .poked .. | .boundary .. => L

end Ledger

/-- What is out after a history. -/
def ledger : History → Ledger
  | [] => {}
  | e :: past => (ledger past).after e

@[simp] theorem ledger_nil : ledger [] = {} := rfl

@[simp] theorem ledger_cons (e : Event) (past : History) :
    ledger (e :: past) = (ledger past).after e := rfl

namespace Ledger

variable (L : Ledger)

/-- The block at `p` is out, and `s` gave it out. -/
def Holds (s : Source) (p : Addr) : Prop := p ∈ L.blocks ∧ L.source p = s

/-- Somebody has a reference to the handle. -/
def Live (b : Handle) : Prop := b ∈ L.handles ∧ 1 ≤ L.refs b

/-- Whoever calls has the only reference to the handle. -/
def Sole (b : Handle) : Prop := b ∈ L.handles ∧ L.refs b = 1

/-- The end of the handle has begun, and its block is still out. -/
def Dying (b : Handle) : Prop := b ∈ L.handles ∧ L.refs b = 0

/-- The `n` bytes from `p` on are memory, and no block that is out has any of them. -/
def Fresh (p : Addr) (n : Nat) : Prop :=
  p ≠ 0 ∧ p.toNat + n ≤ UInt64.size ∧
    ∀ q ∈ L.blocks, Memory.Apart p n q (L.room q)

instance (s : Source) (p : Addr) : Decidable (L.Holds s p) :=
  inferInstanceAs (Decidable (_ ∧ _))

instance (b : Handle) : Decidable (L.Live b) := inferInstanceAs (Decidable (_ ∧ _))

instance (b : Handle) : Decidable (L.Sole b) := inferInstanceAs (Decidable (_ ∧ _))

instance (p : Addr) (n : Nat) : Decidable (L.Fresh p n) :=
  -- Blocks are looked through one by one, and never all addresses.
  haveI : Decidable (∀ q ∈ L.blocks, Memory.Apart p n q (L.room q)) :=
    Finset.decidableDforallFinset
  inferInstanceAs (Decidable (_ ∧ _ ∧ _))

/-- A handle whose payload is not freed keeps it. -/
lemma discard_eq_self {b : Handle} {p : Addr} (h : p = L.data b → p = 0) : L.discard b p = L := by
  have hdata : (if p = L.data b then 0 else L.data b) = L.data b := by
    split
    · next he => exact (h he).symm.trans he
    · rfl
  rw [discard, hdata, refill, Function.update_eq_self, Function.update_eq_self]

lemma Sole.live {L : Ledger} {b : Handle} (h : L.Sole b) : L.Live b := ⟨h.1, h.2.ge⟩

/-- A handle that is ending is none that somebody has a reference to. -/
lemma Dying.ne {L : Ledger} {b c : Handle} (hc : L.Dying c) (hb : L.Live b) : c ≠ b := by
  rintro rfl
  have h1 := hb.2
  have h2 := hc.2
  omega

end Ledger

/-! ### Blocks in a history -/

/-- An event by which the allocator `s` gives out a block at `p`. -/
def Event.Gives (s : Source) (p : Addr) : Event → Prop
  | .given s' _ q => s' = s ∧ q = p ∧ p ≠ 0
  | .resized s' _ _ q => s' = s ∧ q = p ∧ p ≠ 0
  | _ => False

/-- An event after which the block that was at `p` is there no more, or counts no more. -/
def Event.TakesAway (p : Addr) : Event → Prop
  | .takenBack _ q => q = p
  | .resized _ q _ r => q = p ∧ r ≠ 0
  | .started => True
  | _ => False

/-- The allocator `s` gave out a block at `p`, and it was neither taken back nor moved since. -/
def Out (s : Source) (p : Addr) (H : History) : Prop :=
  ∃ later e before, H = later ++ e :: before ∧ e.Gives s p ∧ ∀ e' ∈ later, ¬ e'.TakesAway p

lemma Out.cons {s : Source} {p : Addr} {H : History} {e : Event} (h : Out s p H)
    (he : ¬ e.TakesAway p) : Out s p (e :: H) := by
  obtain ⟨later, e', before, rfl, hgives, hlater⟩ := h
  refine ⟨e :: later, e', before, rfl, hgives, fun e'' he'' => ?_⟩
  rcases List.mem_cons.1 he'' with rfl | he''
  · exact he
  · exact hlater e'' he''

lemma Out.head {s : Source} {p : Addr} {H : History} {e : Event} (he : e.Gives s p) :
    Out s p (e :: H) := ⟨[], e, H, rfl, he, by simp⟩

/-- What the ledger lists was given out by the allocator that it names, and is still out. -/
lemma Ledger.Holds.out {s : Source} {p : Addr} {H : History} (h : (ledger H).Holds s p) :
    Out s p H := by
  induction H with
  | nil => exact absurd h.1 (Finset.notMem_empty p)
  | cons e past ih =>
    obtain ⟨hp, hs⟩ := h
    rw [ledger_cons] at hp hs
    cases e with
    | given s' n q =>
      by_cases hq : q = 0
      · simp only [Ledger.after, hq, if_true] at hp hs
        exact (ih ⟨hp, hs⟩).cons not_false
      · simp only [Ledger.after, hq, if_false, Ledger.grant] at hp hs
        by_cases he : p = q
        · subst he
          rw [Function.update_self] at hs
          exact Out.head ⟨hs, rfl, hq⟩
        · rw [Function.update_of_ne he] at hs
          exact (ih ⟨Finset.mem_of_mem_insert_of_ne hp he, hs⟩).cons not_false
    | resized s' r n q =>
      by_cases hq : q = 0
      · simp only [Ledger.after, hq, if_true] at hp hs
        exact (ih ⟨hp, hs⟩).cons fun h => h.2 hq
      · simp only [Ledger.after, hq, if_false, Ledger.grant, Ledger.without] at hp hs
        by_cases he : p = q
        · subst he
          rw [Function.update_self] at hs
          exact Out.head ⟨hs, rfl, hq⟩
        · rw [Function.update_of_ne he] at hs
          obtain ⟨hne, hp'⟩ := Finset.mem_erase.1 (Finset.mem_of_mem_insert_of_ne hp he)
          exact (ih ⟨hp', hs⟩).cons fun h => hne h.1.symm
    | takenBack s' q =>
      obtain ⟨hne, hp'⟩ := Finset.mem_erase.1 hp
      exact (ih ⟨hp', hs⟩).cons fun h => hne (Eq.symm h)
    | started => exact absurd hp (Finset.notMem_empty p)
    | _ => exact (ih ⟨hp, hs⟩).cons not_false

/-! ### Properties of whole histories -/

/-- Every event of a history is as `P` says, given what came before it. -/
def Throughout (P : Event → History → Prop) (H : History) : Prop :=
  ∀ e past, (e :: past) <:+ H → P e past

namespace Throughout

variable {P Q : Event → History → Prop} {H : History}

lemma nil : Throughout P [] := by
  intro e past h
  simp at h

/-- One more event needs to be as `P` says only itself. -/
@[simp] lemma cons_iff {e : Event} : Throughout P (e :: H) ↔ P e H ∧ Throughout P H := by
  constructor
  · intro h
    exact ⟨h e H List.suffix_rfl, fun e' past h' => h e' past (h'.trans (List.suffix_cons e H))⟩
  · rintro ⟨he, hH⟩ e' past h'
    rcases List.suffix_cons_iff.1 h' with h' | h'
    · obtain ⟨rfl, rfl⟩ := List.cons.inj h'
      exact he
    · exact hH e' past h'

lemma suffix {H' : History} (hP : Throughout P H) (h : H' <:+ H) : Throughout P H' :=
  fun e past he => hP e past (he.trans h)

lemma mono (h : ∀ e past, P e past → Q e past) (hP : Throughout P H) : Throughout Q H :=
  fun e past he => h e past (hP e past he)

end Throughout

end CountedHeap
