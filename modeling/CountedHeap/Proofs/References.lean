/-
References, counted without bound

The word in a header can hold `2 ^ 64` values, and nobody looks at more than the word. The number
of references that were taken and not given up is an integer without bound, read off the history;
here it is compared with the word. They agree as long as the number fits, and the one number that
does not fit, where the word has come around to zero, is a dead end: no further reference can be
taken and none can be given up, so no handle ends while somebody has a reference to it. So is the
zero that is left when the last reference was given up.

* `balance`: the references to a handle, as an integer;
* `refs_eq_balance`: the ledger counts them as well;
* `finish`: the end of a handle, written out;
* `CountedAs`: what it means to have a number of references;
* `spent_of_balance`: a handle without references gave up its last one, or was ended by hand;
* `refcount_exact`: every handle has as many references as its history says.
-/
import CountedHeap.Proofs.Finality
import Mathlib.Algebra.Group.Int.Defs
import Mathlib.Algebra.Group.Nat.Defs

namespace CountedHeap

/-! ### The balance of a handle -/

/-- By how much an event changes the number of references to `b`. Whoever ends a handle gives up
the only reference with it. -/
def Event.change (b : Handle) : Event → ℤ
  | .acquired c => if c = b then 1 else 0
  | .released c | .ending c => if c = b then -1 else 0
  | _ => 0

/-- The references to `b`: the first one, and those taken less those given up since `b` was
made. -/
def balance (b : Handle) : History → ℤ
  | [] => 0
  | .made c _ _ _ :: past => if c = b then 1 else balance b past
  | e :: past => balance b past + e.change b

/-- An event that makes no handle of `b` adds to the balance what it says. -/
lemma balance_cons {b : Handle} {e : Event} (hm : ¬ e.Makes b) (past : History) :
    balance b (e :: past) = balance b past + e.change b := by
  cases e with
  | made c own data size =>
    have hne : ¬ c = b := hm
    rw [balance, if_neg hne]
    exact (Int.add_zero _).symm
  | _ => rfl

/-- An event that neither makes a handle of `b` nor changes its balance leaves its references. -/
lemma Ledger.refs_after {L : Ledger} {b : Handle} {e : Event} (hm : ¬ e.Makes b)
    (hc : e.change b = 0) (hb : b ∈ (L.after e).handles) :
    b ∈ L.handles ∧ (L.after e).refs b = L.refs b := by
  have hother : ∀ {c : Handle} {k : Nat}, c ≠ b → (L.setRefs c k).refs b = L.refs b := fun h =>
    Function.update_of_ne h.symm _ _
  cases e with
  | given s n p =>
    by_cases hp : p = 0
    · simpa [after, hp] using hb
    · simpa [after, hp, grant] using hb
  | resized s p n q =>
    by_cases hq : q = 0
    · simpa [after, hq] using hb
    · simp only [after, hq, if_false] at hb ⊢
      exact ⟨Finset.mem_of_mem_erase hb, rfl⟩
  | takenBack s p => exact ⟨Finset.mem_of_mem_erase hb, rfl⟩
  | made c own data size =>
    have hne : b ≠ c := fun h => hm h.symm
    exact ⟨Finset.mem_of_mem_insert_of_ne hb hne, Function.update_of_ne hne _ _⟩
  | acquired c =>
    exact ⟨hb, hother fun h => by simp [Event.change, h] at hc⟩
  | released c | ending c =>
    exact ⟨hb, hother fun h => by simp [Event.change, h] at hc⟩
  | abandoned c => exact ⟨Finset.mem_of_mem_erase hb, rfl⟩
  | started => exact absurd hb (Finset.notMem_empty b)
  | _ => exact ⟨hb, rfl⟩

/-- Who changes the balance of `b` is concerned with `b`. -/
lemma Event.eq_of_change {b c : Handle} {n : ℤ} (h : (if c = b then n else 0) ≠ 0) : c = b := by
  by_contra hne
  exact h (if_neg hne)

/-- In a lawful history the references that the ledger counts are those of the balance. -/
lemma refs_eq_balance {E : Environment} {H : History} (hH : Throughout E.Lawful H) {b : Handle}
    (hb : b ∈ (ledger H).handles) : ((ledger H).refs b : ℤ) = balance b H := by
  induction H with
  | nil => exact absurd hb (Finset.notMem_empty b)
  | cons e past ih =>
    obtain ⟨hlaw, hpast⟩ := Throughout.cons_iff.1 hH
    rw [ledger_cons] at hb ⊢
    by_cases hm : e.Makes b
    · cases e with
      | made c own data size =>
        obtain rfl : c = b := hm
        simp [balance, Ledger.after, Ledger.make]
      | _ => exact hm.elim
    rw [balance_cons hm]
    by_cases hc : e.change b = 0
    · obtain ⟨hold, hsame⟩ := Ledger.refs_after hm hc hb
      rw [hsame, hc, Int.add_zero]
      exact ih hpast hold
    · cases e with
      | acquired c =>
        obtain rfl := Event.eq_of_change hc
        have hold := ih hpast hb
        simp [Event.change, Ledger.after, Ledger.setRefs, hold]
      | released c =>
        obtain rfl := Event.eq_of_change hc
        have hold := ih hpast hb
        have hlive : 1 ≤ (ledger past).refs c := hlaw.2
        simp only [Event.change, Ledger.after, Ledger.setRefs, Function.update_self, if_true]
        omega
      | ending c =>
        obtain rfl := Event.eq_of_change hc
        have hold := ih hpast hb
        have hone : (ledger past).refs c = 1 := hlaw.2
        simp only [Event.change, Ledger.after, Ledger.setRefs, Function.update_self, if_true]
        omega
      | _ => exact absurd rfl hc

/-- The end of the handle at `b` was begun by hand, and no other handle was made there since. -/
def EndedByHand (b : Handle) : History → Prop
  | [] => False
  | e :: past => e = .ending b ∨ ¬ e.Makes b ∧ EndedByHand b past

/-- A handle whose balance is zero gave up its last reference, unless it was ended by hand. -/
lemma spent_of_balance {E : Environment} {H : History} (hH : Throughout E.Lawful H) {b : Handle}
    (hb : b ∈ (ledger H).handles) (h0 : balance b H = 0) (hhand : ¬ EndedByHand b H) :
    Spent b H := by
  induction H with
  | nil => exact absurd hb (Finset.notMem_empty b)
  | cons e past ih =>
    obtain ⟨hlaw, hpast⟩ := Throughout.cons_iff.1 hH
    rw [ledger_cons] at hb
    by_cases hm : e.Makes b
    · -- The handle that was made last has its first reference.
      cases e with
      | made c own data size =>
        obtain rfl : c = b := hm
        simp [balance] at h0
      | _ => exact hm.elim
    rw [balance_cons hm] at h0
    by_cases hc : e.change b = 0
    · rw [hc, Int.add_zero] at h0
      exact .inr ⟨hm, ih hpast (Ledger.refs_after hm hc hb).1 h0 fun h => hhand (.inr ⟨hm, h⟩)⟩
    · cases e with
      | acquired c =>
        obtain rfl := Event.eq_of_change hc
        have hold := refs_eq_balance hpast hb
        simp only [Event.change, if_true] at h0
        omega
      | released c =>
        obtain rfl := Event.eq_of_change hc
        have hold := refs_eq_balance hpast hb
        simp only [Event.change, if_true] at h0
        exact .inl ⟨rfl, hb, by omega⟩
      | ending c =>
        obtain rfl := Event.eq_of_change hc
        exact absurd (.inl rfl) hhand
      | _ => exact absurd rfl hc

/-! ### What a number of references means -/

/-- The end of a handle whose header is `d`: its destructor, if there is one and the runtime is not
shutting down, with payload, size and info word as they are in `d`; then its storage goes where it
came from, and a block and a handle are counted as ended. -/
def finish {σ : Type} (h : Host σ) (b : Handle) (d : Header) (shuttingDown : Bool) :
    Machine σ Unit := do
  if d.destructor ≠ 0 ∧ ¬ shuttingDown then
    callDestructorAt h d.destructor d.payload d.size d.info
  (allocatorAt h d.external).free b
  count h .free
  count h .handleFree

/-- The handle `b` has `n` references. The word says so as long as it can; a reference is taken or
given up unless the word has come around to zero; and the end comes with the last one. -/
structure CountedAs (E : Environment) (w : World History) (b : Handle) (n : ℤ) : Prop where
  out : b ∈ (ledger w.host).blocks
  bounded : n ≤ 2 ^ 64
  word : n < 2 ^ 64 → ((w.memory.header b).refcount.toNat : ℤ) = n
  spent : (w.memory.header b).refcount = 0 ↔ n = 2 ^ 64
  acquire : ∀ depth, Handle.acquire (E.host depth) b w =
    if n = 2 ^ 64 then .error (.violation (.refcountUnderflow "acquire")) w
    else .ok () (w.withCount b ((w.memory.header b).refcount + 1))
  release : ∀ depth, Handle.release (E.host depth) b (w.noted (.released b)) =
    if n = 2 ^ 64 then
      .error (.violation (.refcountUnderflow "release")) (w.noted (.released b))
    else if n = 1 then
      finish (E.host depth) b (w.memory.header b) w.shuttingDown
        ((w.noted (.released b)).withCount b 0)
    else .ok () ((w.noted (.released b)).withCount b ((w.memory.header b).refcount - 1))

namespace Environment

variable {E : Environment} {w : World History} {b : Handle} {d : Header}
  {play : (World History → Program) → Machine History Unit}

/-- What comes after a computation matters only in the states it may end in. -/
lemma Ends.bind_congr {α β : Type} {x : Machine History α} {P : α → World History → Prop}
    {f g : α → Machine History β} (hx : E.Ends x w P) (h : ∀ a w', P a w' → f a w' = g a w') :
    (x >>= f) w = (x >>= g) w := by
  rw [Machine.bind_apply, Machine.bind_apply]
  cases hx with
  | of_ok hrun hP =>
    rw [hrun]
    exact h _ _ hP
  | of_error hrun _ => rw [hrun]

/-- Whatever a destructor does, the header of its handle is the same afterwards. -/
lemma destructor_header (hplay : Obeys E play) (hw : E.Steady w)
    (hdying : (ledger w.host).Dying b) (hb : Begun b w) (hh : w.memory.header b = d) :
    E.Ends (callDestructorAt (E.hostOver play) d.destructor d.payload d.size d.info) w fun _ w' =>
      E.Correct w'.bindings.incDec ∧ w'.memory.header b = d := by
  by_cases hd : d.destructor = Adapter.resizable.addr
  · refine (resizable_ends hplay hw hdying hb hh hd).mono fun _ w' h => ?_
    obtain ⟨w₁, hreach, hw'⟩ := h
    obtain ⟨hdying', hheader⟩ := hreach.2 b hdying
    rcases hw' with rfl | hbereft
    · exact ⟨hreach.1.sound.correct, hheader.trans hh⟩
    · exact ⟨hbereft.correct, (hbereft.headers b hdying'.1).trans (hheader.trans hh)⟩
  · refine (callDestructorAt_ends hplay hw hdying hb hh hd).mono fun _ w' h => ?_
    exact ⟨h.1.sound.correct, (h.2 b hdying).2.trans hh⟩

/-- Storage is given back where the header says that it came from. -/
lemma destroy_eq (hc : E.Correct w.bindings.incDec) (hb : b ≠ 0) (hh : w.memory.header b = d) :
    Handle.destroy (E.hostOver play) b w =
      (do
        (allocatorAt (E.hostOver play) d.external).free b
        count (E.hostOver play) .free
        count (E.hostOver play) .handleFree) w := by
  have hc' : E.Correct (E.freed (E.sourceAt w.bindings.heap.addr d.external) b w).bindings.incDec :=
    hc
  have hc'' : E.Correct (E.handedBack (E.sourceAt w.bindings.heap.addr d.external) b
    w).bindings.incDec := hc
  have hcount : count (E.hostOver play) .free (E.freed (E.sourceAt w.bindings.heap.addr d.external)
      b w) = .ok () (E.handedBack (E.sourceAt w.bindings.heap.addr d.external) b w) :=
    count_run play hc' .free
  rw [destroy_run play hc hb, hh]
  simp only [Machine.bind_apply, free_at_run, hcount, count_run play hc'']
  rfl

/-- The end of a handle, written out. -/
lemma callDestructor_eq_finish (hplay : Obeys E play) (hw : E.Steady w)
    (hdying : (ledger w.host).Dying b) (hb : w.shuttingDown = false → Begun b w) :
    Handle.callDestructor (E.hostOver play) b w =
      finish (E.hostOver play) b (w.memory.header b) w.shuttingDown w := by
  rw [callDestructor_run, finish]
  obtain ⟨d, hh⟩ : ∃ d, w.memory.header b = d := ⟨_, rfl⟩
  rw [hh]
  by_cases hcall : d.destructor ≠ 0 ∧ ¬ w.shuttingDown
  · rw [if_pos hcall, if_pos hcall]
    have hbegun : Begun b w := hb (by simpa using hcall.2)
    refine (destructor_header hplay hw hdying hbegun hh).bind_congr fun _ w' h => ?_
    exact destroy_eq h.1 (hw.ne_zero hdying.1) h.2
  · rw [if_neg hcall, if_neg hcall]
    exact destroy_eq hw.sound.correct (hw.ne_zero hdying.1) hh

/-- The release of the only reference. -/
lemma release_eq_finish (hplay : Obeys E play) (hw : E.Steady w) (hm : Marked w)
    (hb : (ledger w.host).Sole b) :
    Handle.release (E.hostOver play) b (w.noted (.released b)) =
      finish (E.hostOver play) b (w.memory.header b) w.shuttingDown
        ((w.noted (.released b)).withCount b 0) := by
  have hone : (w.memory.header b).refcount = 1 := (hw.refcount_eq_one_iff hb.live).2 hb.2
  have hne : (w.memory.header b).refcount ≠ 0 := by
    rw [hone]
    decide
  have hheader := Memory.header_setField w.memory .refcount 0 (hw.room_le hb.1).2
  have hreach : E.Reaches w ((w.withCount b 0).noted (.released b)) :=
    hw.recount hb.live (Nat.zero_le _) (by simp [Ledger.after, hb.2]) (.inr rfl)
  have hdying : (ledger ((w.withCount b 0).noted (.released b)).host).Dying b :=
    ⟨hb.1, by simp [World.noted, World.withCount, Ledger.after, Ledger.setRefs, hb.2]⟩
  have hbegun : w.shuttingDown = false → Begun b ((w.withCount b 0).noted (.released b)) :=
    fun hs => begun_of_marked hm hb hs (.inl rfl) rfl rfl hheader
  have hrun := release_run play (w := w.noted (.released b)) hw.sound.correct b
  rw [World.noted_memory, if_neg hne, if_pos hone, World.noted_withCount] at hrun
  have hend := callDestructor_eq_finish hplay hreach.1 hdying hbegun
  have hsame : ((w.withCount b 0).noted (.released b)).memory.header b =
      { w.memory.header b with refcount := 0 } := hheader
  have hdown : ((w.withCount b 0).noted (.released b)).shuttingDown = w.shuttingDown := rfl
  rw [hsame, hdown] at hend
  rw [World.noted_withCount, hrun, hend]
  simp only [finish]

/-- A handle whose balance is positive has as many references as the balance says. -/
lemma Steady.counted (hw : E.Steady w) (hm : Marked w) (hb : b ∈ (ledger w.host).handles)
    (hpos : 1 ≤ balance b w.host) : CountedAs E w b (balance b w.host) := by
  have hn := refs_eq_balance hw.recorded hb
  rw [← hn] at hpos ⊢
  have hlive : (ledger w.host).Live b := ⟨hb, by omega⟩
  obtain ⟨hle, hcount⟩ := hw.refcount hlive
  have hsize : UInt64.size = 2 ^ 64 := rfl
  have hspent : (w.memory.header b).refcount = 0 ↔ ((ledger w.host).refs b : ℤ) = 2 ^ 64 := by
    rw [hw.refcount_eq_zero_iff hlive]
    omega
  have hone : (w.memory.header b).refcount = 1 ↔ ((ledger w.host).refs b : ℤ) = 1 := by
    rw [hw.refcount_eq_one_iff hlive]
    omega
  refine ⟨hw.mem_blocks hb, by omega, fun hlt => ?_, hspent, fun depth => ?_, fun depth => ?_⟩
  · rw [hcount, UInt64.toNat_ofNat_of_lt' (by omega)]
  · obtain ⟨play, hhost, -⟩ := E.obeys_host depth
    rw [hhost, acquire_run play hw.sound.correct]
    simp only [hspent]
  · obtain ⟨play, hhost, hplay⟩ := E.obeys_host depth
    rw [hhost]
    by_cases h1 : ((ledger w.host).refs b : ℤ) = 1
    · rw [if_neg (by omega), if_pos h1]
      exact release_eq_finish hplay hw hm ⟨hb, by omega⟩
    · have hrun := release_run play (w := w.noted (.released b)) hw.sound.correct b
      rw [World.noted_memory, if_neg (mt hone.1 h1)] at hrun
      rw [hrun, if_neg h1]
      simp only [hspent]

end Environment

/-! ### The history of references -/

/-- A call of a destructor, a finalizer or a closure. -/
def Event.IsCall : Event → Prop
  | .destructor .. | .finalizer .. | .closure .. => True
  | _ => False

/-- A handle that gave up its last reference and is still there refuses whoever takes or gives up
another one. -/
lemma Environment.Steady.refuses_of_balance {E : Environment} {w : World History} {b : Handle}
    (hw : E.Steady w) (hb : b ∈ (ledger w.host).handles) (h0 : balance b w.host = 0)
    (hhand : ¬ EndedByHand b w.host) : Refuses E w b := by
  have hspent : Spent b w.host := spent_of_balance hw.recorded hb h0 hhand
  exact hw.refuses_of_word (hw.ne_zero hb) (hw.recalled.ending b hspent hb).2

/-- **References are exact.** Throughout every run, those of destructors included: wherever a
program is between two steps, every handle with a positive balance has as many references as the
balance says, and every handle whose balance came down to zero by a release refuses as long as its
storage is there; references are taken and given up only while the balance is positive; the storage
of a handle goes only when the balance is zero; and a destructor, a finalizer or a closure is called
only as the first thing after the only reference of its handle was given up, with what the header
held at that moment. -/
theorem refcount_exact (E : Environment) (depth : Nat) (p : Program) (w : World History) :
    Throughout (fun e past =>
      (∀ s, e = .boundary s → ∀ b ∈ (ledger past).handles, 1 ≤ balance b past →
        CountedAs E (s.resume past) b (balance b past)) ∧
      (∀ s, e = .boundary s → ∀ b ∈ (ledger past).handles, balance b past = 0 →
        ¬ EndedByHand b past → Refuses E (s.resume past) b) ∧
      (∀ b, e = .acquired b ∨ e = .released b → b ∈ (ledger past).handles ∧ 1 ≤ balance b past) ∧
      (∀ s, ∀ b ∈ (ledger past).handles, e = .takenBack s b → balance b past = 0) ∧
      (e.IsCall → ∃ b d s, Due b d s past ∧ balance b past = 0 ∧ d.CallsFor s.boxes e))
      (E.history depth p w) := by
  intro e past hsuffix
  have hlaw := (E.lawful_history depth p w).suffix hsuffix
  obtain ⟨he, hpast⟩ := Throughout.cons_iff.1 hlaw
  have hrefs : ∀ b ∈ (ledger past).handles, ((ledger past).refs b : ℤ) = balance b past :=
    fun b hb => refs_eq_balance hpast hb
  refine ⟨?_, ?_, ?_, ?_, ?_⟩
  · rintro s rfl b hb hpos
    obtain ⟨hw, hm⟩ := Environment.steady_of_boundary hlaw
    have hsame : balance b (s.resume past).host = balance b past := Int.add_zero _
    rw [← hsame] at hpos ⊢
    exact hw.counted hm hb hpos
  · rintro s rfl b hb h0 hhand
    obtain ⟨hw, -⟩ := Environment.steady_of_boundary hlaw
    refine hw.refuses_of_balance hb ((Int.add_zero _).trans h0) fun h => hhand ?_
    exact (h.resolve_left nofun).2
  · intro b h
    have hlive : (ledger past).Live b := by
      rcases h with rfl | rfl <;> exact he
    have h1 := hlive.2
    have hb := hrefs b hlive.1
    exact ⟨hlive.1, by omega⟩
  · rintro s b hb rfl
    have hzero : (ledger past).refs b = 0 := he.2 hb
    have hb' := hrefs b hb
    omega
  · intro hcall
    have hdue : ∃ b d s, Due b d s past ∧ d.CallsFor s.boxes e := by
      cases e <;> first | exact he | exact hcall.elim
    obtain ⟨b, d, s, hdue, hcalls⟩ := hdue
    refine ⟨b, d, s, hdue, ?_, hcalls⟩
    obtain ⟨e', before, rfl, hlast, hsole, -, -⟩ := hdue
    have hb : b ∈ (ledger before).handles := hsole.1
    have hmem : b ∈ (ledger (e' :: .boundary s :: before)).handles := by
      rcases hlast with rfl | rfl <;> exact hb
    have hb' := hrefs b hmem
    have hzero : (ledger (e' :: .boundary s :: before)).refs b = 0 := by
      rcases hlast with rfl | rfl <;> simp [Ledger.after, Ledger.setRefs, hsole.2]
    omega

end CountedHeap
