/-
Exchanging the default heap

The default heap may be exchanged only while nothing is out, and the guard looks at no more than the
counters and the addresses of two objects. It is exact because the counters are, and because every
triple of functions has one object, which it keeps for good: the registry of triples only grows,
whatever else happens, and no two triples share a place in it.

A triple that is still bound can be installed again at any time. That it was the last triple to be
installed is not enough, since an object of another kind may have been bound after it.

* `Interned.Regular`, `Interned.Regular.addr_eq_iff`: a triple and its object determine each other;
* `Registered`: what is registered stays so throughout a run;
* `Guarded`: what the operations that exchange the heap do in a state;
* `swap_guarded`: so they do throughout every run;
* `reinstall_refused`: a run in which the triple that was installed last is refused.
-/
import CountedHeap.Proofs.Finality
import CountedHeap.Proofs.Lasting

namespace CountedHeap

/-! ### The registry of triples -/

namespace Interned

/-- Where the object lies of the triple that was registered after `i` others. -/
def place (i : Nat) : Addr := base + 32 * UInt64.ofNat i

/-- How many objects fit into memory side by side. -/
def capacity : Nat := 2 ^ 59

/-- Every triple is registered once, and the objects lie one behind the other. -/
structure Regular (r : Interned) : Prop where
  nodup : (r.map Prod.fst).Nodup
  placed : ∀ (i : Nat) f a, r[i]? = some (f, a) → a = place i

lemma place_injective {i j : Nat} (hi : i < capacity) (hj : j < capacity)
    (h : place i = place j) : i = j := by
  have hmul : 32 * UInt64.ofNat i = 32 * UInt64.ofNat j := (UInt64.add_right_inj _).1 h
  have hnat := congrArg UInt64.toNat hmul
  have h32 : (32 : UInt64).toNat = 32 := rfl
  unfold capacity at hi hj
  rw [UInt64.toNat_mul, UInt64.toNat_mul, h32, UInt64.toNat_ofNat', UInt64.toNat_ofNat'] at hnat
  omega

variable {r r' : Interned} {f g : HeapFunctions} {a : Addr}

/-- What is registered has a number. -/
lemma exists_getElem?_of_find? (h : r.find? f = some a) : ∃ i : Nat, r[i]? = some (f, a) := by
  induction r with
  | nil => exact absurd h nofun
  | cons e r ih =>
    rw [find?, List.lookup_cons] at h
    by_cases he : f = e.1
    · subst he
      simp only [beq_self_eq_true, Option.some.injEq] at h
      exact ⟨0, by simp [← h]⟩
    · simp only [beq_eq_false_iff_ne.2 he] at h
      obtain ⟨i, hi⟩ := ih h
      exact ⟨i + 1, hi⟩

/-- What is not registered is none of the triples in the list. -/
lemma notMem_of_find?_eq_none (h : r.find? f = none) : f ∉ r.map Prod.fst := by
  intro hmem
  obtain ⟨e, he, rfl⟩ := List.mem_map.1 hmem
  exact absurd (List.lookup_eq_none_iff.1 h e he) (by simp)

/-- A registry that has grown has every object where it was. -/
lemma find?_of_prefix (hr : r <+: r') (h : r.find? f = some a) : r'.find? f = some a := by
  obtain ⟨new, rfl⟩ := hr
  have h' : List.lookup f r = some a := h
  simp [find?, List.lookup_append, h']

lemma prefix_intern (r : Interned) (f : HeapFunctions) : r <+: (r.intern f).2 := by
  unfold intern
  cases r.find? f with
  | some a => exact List.prefix_rfl
  | none => exact List.prefix_append _ _

lemma length_intern_le (r : Interned) (f : HeapFunctions) :
    (r.intern f).2.length ≤ r.length + 1 := by
  unfold intern
  cases r.find? f with
  | some a => exact Nat.le_succ _
  | none => simp

namespace Regular

lemma nil : Regular [] := ⟨List.nodup_nil, by simp⟩

lemma intern (h : r.Regular) (f : HeapFunctions) : (r.intern f).2.Regular := by
  unfold Interned.intern
  cases hf : r.find? f with
  | some a => exact h
  | none =>
    refine ⟨?_, fun i g a hi => ?_⟩
    · rw [List.map_append, List.map_singleton]
      exact List.Nodup.append h.nodup (List.nodup_singleton f)
        (List.disjoint_singleton.2 (notMem_of_find?_eq_none hf))
    · rcases Nat.lt_or_ge i r.length with hlt | hge
      · rw [List.getElem?_append_left hlt] at hi
        exact h.placed i g a hi
      · rw [List.getElem?_append_right hge] at hi
        have hzero : i - r.length = 0 := by
          by_contra hne
          rw [List.getElem?_eq_none (by simp; omega)] at hi
          cases hi
        rw [hzero] at hi
        obtain ⟨-, rfl⟩ := Prod.mk.inj (Option.some.inj hi)
        rw [place, show i = r.length by omega]

/-- No two triples share an object. -/
lemma eq_of_find? (h : r.Regular) (hroom : r.length ≤ capacity) (hf : r.find? f = some a)
    (hg : r.find? g = some a) : f = g := by
  obtain ⟨i, hi⟩ := exists_getElem?_of_find? hf
  obtain ⟨j, hj⟩ := exists_getElem?_of_find? hg
  have hilt : i < r.length := (List.getElem?_eq_some_iff.1 hi).1
  have hjlt : j < r.length := (List.getElem?_eq_some_iff.1 hj).1
  have hij : i = j := place_injective (by omega) (by omega)
    ((h.placed i f a hi).symm.trans (h.placed j g a hj))
  rw [hij, hj] at hi
  exact (Prod.mk.inj (Option.some.inj hi)).1.symm

/-- A triple resolves to an object that is registered already exactly if it is the triple of that
object. -/
lemma addr_eq_iff (h : r.Regular) (hroom : r.length < capacity) (hf : r.find? f = some a) :
    (r.intern g).1.addr = a ↔ g = f := by
  constructor
  · rintro rfl
    have hlen := r.length_intern_le g
    exact (h.intern g).eq_of_find? (by omega) (find?_intern r g) (find?_intern_of_find? hf)
  · rintro rfl
    rw [intern_of_find? hf]

end Regular

end Interned

/-- The registry is regular, and it has everything that it had at any boundary before. -/
structure Registered (w : World History) : Prop where
  regular : w.interned.Regular
  kept : ∀ s, .boundary s ∈ w.host → s.interned <+: w.interned
  recorded : Throughout (fun e past => ∀ s, e = .boundary s →
    s.interned.Regular ∧ ∀ s', .boundary s' ∈ past → s'.interned <+: s.interned) w.host

namespace Registered

variable {w : World History}

/-- A line in the history that is not a boundary. -/
lemma noted (h : Registered w) {e : Event} (he : ∀ s, e ≠ .boundary s) :
    Registered (w.noted e) := by
  refine ⟨h.regular, fun s hs => ?_, Throughout.cons_iff.2
    ⟨fun s hs => absurd hs (he s), h.recorded⟩⟩
  rcases List.mem_cons.1 hs with hs | hs
  · exact absurd hs.symm (he s)
  · exact h.kept s hs

lemma marked (h : Registered w) : Registered w.marked := by
  refine ⟨h.regular, fun s hs => ?_, Throughout.cons_iff.2 ⟨?_, h.recorded⟩⟩
  · rcases List.mem_cons.1 hs with hs | hs
    · obtain rfl := Event.boundary.inj hs
      exact List.prefix_rfl
    · exact h.kept s hs
  · rintro s hs
    obtain rfl := Event.boundary.inj hs
    exact ⟨h.regular, h.kept⟩

/-- Nothing in a run takes a triple out of the registry, a fresh start included. -/
lemma lasting : Lasting Registered where
  aside _ _ _ _ _ h := ⟨h.regular, h.kept, h.recorded⟩
  noted w e he h := h.noted fun s hs => by
    subst hs
    exact he
  marked _ h := h.marked
  interned w f h := ⟨h.regular.intern f,
    fun s hs => (h.kept s hs).trans (w.interned.prefix_intern f), h.recorded⟩
  down _ h := ⟨h.regular, h.kept, h.recorded⟩
  started w h := noted (w := { w with shuttingDown := false }) ⟨h.regular, h.kept, h.recorded⟩
    fun _ => nofun

end Registered

/-! ### The guard -/

/-- Handles that were made and not ended, those included whose storage is gone already. -/
def Ledger.unended (L : Ledger) : Nat := L.handles.card + L.abandoned

/-- A block is out, or a handle is, as far as a word can count those whose storage is gone. -/
def Ledger.Outstanding (L : Ledger) : Prop := L.blocks.Nonempty ∨ L.unended % UInt64.size ≠ 0

instance (L : Ledger) : Decidable L.Outstanding := inferInstanceAs (Decidable (_ ∨ _))

/-- What stops a program that would exchange the heap. -/
def Ledger.refusal (L : Ledger) : Fault :=
  .violation (.allocatorSwap (UInt64.ofNat L.blocks.card) (UInt64.ofNat L.unended))

/-- The state with another default heap. -/
def World.withHeap (w : World History) (o : HeapObject) : World History :=
  { w with bindings := { w.bindings with heap := o } }

/-- The state with one more triple registered. -/
def World.withTriple (w : World History) (f : HeapFunctions) : World History :=
  { w with interned := (w.interned.intern f).2 }

/-- What the operations that exchange the default heap do in the state `w`: they compare the object
that is asked for with the one that is bound, and stop the program if these differ while something
is out. A triple stands for its object in the registry. -/
structure Guarded (E : Environment) (w : World History) : Prop where
  swap : ∀ depth o, setAllocator (E.host depth) o w =
    if w.bindings.heap.addr ≠ o.addr ∧ (ledger w.host).Outstanding then
      .error (ledger w.host).refusal w
    else .ok () (w.withHeap o)
  install : ∀ depth f, Entry.setAllocator (E.host depth) f w =
    if w.bindings.heap.addr ≠ (w.interned.intern f).1.addr ∧ (ledger w.host).Outstanding then
      .error (ledger w.host).refusal (w.withTriple f)
    else .ok () ((w.withTriple f).withHeap (w.interned.intern f).1)
  /-- A triple that was installed has its object from then on. -/
  registers : ∀ depth f w', Entry.setAllocator (E.host depth) f w = .ok () w' →
    w'.interned.find? f = some w'.bindings.heap.addr
  /-- The numbers in a refusal are those of the ledger. -/
  blocks : (ledger w.host).blocks.card < UInt64.size
  handles : (ledger w.host).abandoned = 0 → (ledger w.host).unended = (ledger w.host).handles.card ∧
    (ledger w.host).unended < UInt64.size ∧
    ((ledger w.host).Outstanding ↔
      (ledger w.host).blocks.Nonempty ∨ (ledger w.host).handles.Nonempty)
  /-- The triple whose object is bound can always be installed again. -/
  again : ∀ depth f, w.interned.find? f = some w.bindings.heap.addr →
    Entry.setAllocator (E.host depth) f w =
      .ok () (w.withHeap ⟨w.bindings.heap.addr, .functions f⟩)
  /-- No other triple can while something is out. -/
  other : ∀ depth f g, w.interned.find? f = some w.bindings.heap.addr →
    w.interned.length < Interned.capacity → g ≠ f → (ledger w.host).Outstanding →
    Entry.setAllocator (E.host depth) g w = .error (ledger w.host).refusal (w.withTriple g)
  /-- Nor can the triple of an object that is bound but is not the one in the registry. -/
  twin : ∀ depth f, w.bindings.heap.kind = .functions f →
    w.bindings.heap.addr ≠ (w.interned.intern f).1.addr → (ledger w.host).Outstanding →
    Entry.setAllocator (E.host depth) f w = .error (ledger w.host).refusal (w.withTriple f)

namespace Environment

variable {E : Environment} {w : World History}
  {play : (World History → Program) → Machine History Unit}

lemma setAllocator_run (w : World History) (o : HeapObject) : setAllocator (E.hostOver play) o w =
    if w.bindings.heap.addr ≠ o.addr ∧ ¬ w.stats.isBalanced then
      .error (.violation (.allocatorSwap w.stats.outstandingBlocks w.stats.outstandingHandles)) w
    else .ok () (w.withHeap o) := by
  rw [setAllocator, Machine.bind_apply, Machine.get_apply]
  by_cases h : w.bindings.heap.addr ≠ o.addr ∧ ¬ w.stats.isBalanced
  · simp only [if_pos h, Machine.bind_apply, Machine.violate, Machine.throw_apply]
  · simp only [if_neg h, Machine.bind_apply, Machine.modify_apply, trace_run]
    rfl

/-- A triple is registered first, and stays so even if its object is refused. -/
lemma installFunctions_run (w : World History) (f : HeapFunctions) :
    Entry.setAllocator (E.hostOver play) f w =
      setAllocator (E.hostOver play) (w.interned.intern f).1 (w.withTriple f) := by
  have hrun : Entry.setAllocator (E.hostOver play) f w =
      Entry.guarded (setAllocator (E.hostOver play) (w.interned.intern f).1) (w.withTriple f) := rfl
  rw [hrun, Entry.guarded, Machine.tryCatch_apply, setAllocator_run]
  by_cases h : (w.withTriple f).bindings.heap.addr ≠ (w.interned.intern f).1.addr ∧
      ¬ (w.withTriple f).stats.isBalanced
  · rw [if_pos h]
    rfl
  · rw [if_neg h]

/-- The counters are balanced exactly if nothing is out. -/
lemma Steady.isBalanced_iff (hw : E.Steady w) :
    w.stats.isBalanced ↔ ¬ (ledger w.host).Outstanding := by
  have hlt := hw.sound.laid.card_lt
  have hblocks : UInt64.ofNat (ledger w.host).blocks.card = 0 ↔
      ¬ (ledger w.host).blocks.Nonempty := by
    rw [← UInt64.toNat_inj, UInt64.toNat_ofNat_of_lt' hlt, UInt64.toNat_zero, Finset.card_eq_zero,
      Finset.not_nonempty_iff_eq_empty]
  have hhandles : UInt64.ofNat (ledger w.host).unended = 0 ↔
      ¬ (ledger w.host).unended % UInt64.size ≠ 0 := by
    rw [← UInt64.toNat_inj, UInt64.toNat_ofNat', UInt64.toNat_zero, not_not]
  rw [Stats.isBalanced_iff, hw.sound.tallied.blocks, hw.sound.tallied.handles, hblocks,
    Ledger.Outstanding, not_or]
  exact and_congr_right fun _ => hhandles

/-- Unless storage was given back without its handle, there are no more handles than blocks. -/
lemma Steady.unended_lt (hw : E.Steady w) (h : (ledger w.host).abandoned = 0) :
    (ledger w.host).unended < UInt64.size := by
  have hsub : (ledger w.host).handles ⊆ (ledger w.host).blocks := fun _ hb => hw.mem_blocks hb
  have hlt := hw.sound.laid.card_lt
  have hle := Finset.card_le_card hsub
  rw [Ledger.unended, h]
  omega

/-- What the guard does, in terms of the ledger. -/
lemma Steady.swap_run (hw : E.Steady w) (o : HeapObject) : setAllocator (E.hostOver play) o w =
    if w.bindings.heap.addr ≠ o.addr ∧ (ledger w.host).Outstanding then
      .error (ledger w.host).refusal w
    else .ok () (w.withHeap o) := by
  have hbalanced : ¬ w.stats.isBalanced ↔ (ledger w.host).Outstanding := by
    rw [hw.isBalanced_iff, not_not]
  have hrefusal : Fault.violation (.allocatorSwap w.stats.outstandingBlocks
      w.stats.outstandingHandles) = (ledger w.host).refusal := by
    rw [hw.sound.tallied.blocks, hw.sound.tallied.handles]
    rfl
  rw [setAllocator_run, hrefusal]
  simp only [hbalanced]

lemma Steady.install_run (hw : E.Steady w) (f : HeapFunctions) :
    Entry.setAllocator (E.hostOver play) f w =
      if w.bindings.heap.addr ≠ (w.interned.intern f).1.addr ∧ (ledger w.host).Outstanding then
        .error (ledger w.host).refusal (w.withTriple f)
      else .ok () ((w.withTriple f).withHeap (w.interned.intern f).1) :=
  (installFunctions_run w f).trans ((hw.withInterned (w.interned.intern f).2).1.swap_run _)

/-- The heap is guarded wherever the registry is regular. -/
lemma Steady.guarded (hw : E.Steady w) (hregular : w.interned.Regular) : Guarded E w := by
  have hinstall : ∀ depth f, Entry.setAllocator (E.host depth) f w =
      if w.bindings.heap.addr ≠ (w.interned.intern f).1.addr ∧ (ledger w.host).Outstanding then
        .error (ledger w.host).refusal (w.withTriple f)
      else .ok () ((w.withTriple f).withHeap (w.interned.intern f).1) := fun depth f => by
    obtain ⟨play, hhost, -⟩ := E.obeys_host depth
    rw [hhost, hw.install_run]
  refine ⟨fun depth o => ?_, hinstall, fun depth f w' hrun => ?_, hw.sound.laid.card_lt,
    fun h => ?_, fun depth f hf => ?_, fun depth f g hf hroom hne hout => ?_,
    fun depth f _ hne hout => ?_⟩
  · obtain ⟨play, hhost, -⟩ := E.obeys_host depth
    rw [hhost, hw.swap_run]
  · rw [hinstall] at hrun
    split at hrun
    · cases hrun
    · obtain ⟨-, rfl⟩ := EStateM.Result.ok.inj hrun
      exact Interned.find?_intern w.interned f
  · have hcount : (ledger w.host).unended = (ledger w.host).handles.card := by
      rw [Ledger.unended, h, Nat.add_zero]
    have hlt := hw.unended_lt h
    refine ⟨hcount, hlt, or_congr_right ?_⟩
    rw [Nat.mod_eq_of_lt hlt, hcount, Finset.card_ne_zero]
  · have hobject : (w.interned.intern f).1 = ⟨w.bindings.heap.addr, .functions f⟩ := by
      rw [Interned.intern_of_find? hf]
    have hsame : w.withTriple f = w := by
      rw [World.withTriple, Interned.intern_of_find? hf]
    rw [hinstall, hobject, hsame, if_neg fun h => h.1 rfl]
  · rw [hinstall, if_pos ⟨fun he => hne ((hregular.addr_eq_iff hroom hf).1 he.symm), hout⟩]
  · rw [hinstall, if_pos ⟨hne, hout⟩]

end Environment

/-- **The guard is exact.** At every boundary of every run, a heap is exchanged or refused as the
ledger says. A triple that was registered at any time before, be it before a fresh start, resolves
to the object that it had then, and no other triple resolves to that object, as long as the registry
fits into memory. -/
theorem swap_guarded (E : Environment) (depth : Nat) (p : Program) (w : World History)
    (hw : w.interned.Regular) :
    Throughout (fun e past => ∀ s, e = .boundary s → Guarded E (s.resume past) ∧
      ∀ s', .boundary s' ∈ e :: past → ∀ f a, s'.interned.find? f = some a →
        s.interned.find? f = some a ∧ (s.interned.length < Interned.capacity →
          ∀ g, (s.interned.intern g).1.addr = a ↔ g = f))
      (E.history depth p w) := by
  have hregistered : Registered (Machine.after (E.session depth p) { w with host := [] }) :=
    Registered.lasting.session E depth p _ ⟨hw, by simp, Throughout.nil⟩
  have hrecorded := hregistered.recorded
  rw [E.host_after] at hrecorded
  rintro e past hsuffix s rfl
  obtain ⟨hsteady, -⟩ :=
    Environment.steady_of_boundary ((E.lawful_history depth p w).suffix hsuffix)
  obtain ⟨hregular, hkept⟩ := hrecorded _ past hsuffix s rfl
  refine ⟨hsteady.guarded hregular, fun s' hs' f a hf => ?_⟩
  have hprefix : s'.interned <+: s.interned := by
    rcases List.mem_cons.1 hs' with he | hs'
    · obtain rfl := Event.boundary.inj he
      exact List.prefix_rfl
    · exact hkept s' hs'
  have hfound := Interned.find?_of_prefix hprefix hf
  exact ⟨hfound, fun hroom g => hregular.addr_eq_iff hroom hfound⟩

/-! ### Installing a triple again -/

/-- A caller who installs a triple and makes a handle. -/
def Program.installed : Program :=
  .step (.installFunctions ⟨1, 2, 3⟩) fun _ _ => .step (.make (.alloc 16)) fun _ _ => .done

/-- After such a run the triple can be installed again, and no other one can, be it different in no
more than its last function. -/
theorem swap_guarded_installed : Interned.Regular [] ∧
    ∃ s past, Environment.unbounded.history 0 .installed { host := [] } = .boundary s :: past ∧
      Entry.setAllocator (Environment.unbounded.host 0) ⟨1, 2, 3⟩ (s.resume past) =
        .ok () ((s.resume past).withHeap ⟨Interned.base, .functions ⟨1, 2, 3⟩⟩) ∧
      Entry.setAllocator (Environment.unbounded.host 0) ⟨1, 2, 4⟩ (s.resume past) =
        .error (.violation (.allocatorSwap 1 1)) ((s.resume past).withTriple ⟨1, 2, 4⟩) := by
  have hlast : (lastBoundary (Environment.unbounded.history 0 .installed { host := [] })).any
      (fun r => decide (r.1.interned.find? ⟨1, 2, 3⟩ = some Interned.base ∧
        r.1.bindings.heap.addr = Interned.base ∧ r.1.interned.length < Interned.capacity ∧
        (ledger r.2).Outstanding ∧ (ledger r.2).refusal = .violation (.allocatorSwap 1 1))) =
      true := by
    decide +kernel
  obtain ⟨s, past, hhistory, hholds⟩ := exists_lastBoundary hlast
  obtain ⟨hfound, hbound, hroom, hout, hrefusal⟩ := of_decide_eq_true hholds
  have hsuffix : .boundary s :: past <:+
      Environment.unbounded.history 0 .installed { host := [] } := hhistory ▸ List.suffix_rfl
  obtain ⟨hguarded, -⟩ := swap_guarded .unbounded 0 .installed { host := [] } Interned.Regular.nil
    _ past hsuffix s rfl
  have hcurrent : (s.resume past).interned.find? ⟨1, 2, 3⟩ =
      some (s.resume past).bindings.heap.addr := hfound.trans (congrArg some hbound.symm)
  have hagain := hguarded.again 0 _ hcurrent
  have hother := hguarded.other 0 _ ⟨1, 2, 4⟩ hcurrent hroom (by decide) hout
  exact ⟨Interned.Regular.nil, s, past, hhistory, hbound ▸ hagain, hrefusal ▸ hother⟩

/-- A caller who installs a triple, binds an object of his own instead, asks for a block, and
installs the triple again. -/
def Program.reinstalled : Program :=
  .step (.installFunctions ⟨1, 2, 3⟩) fun _ _ =>
    .step (.setAllocator ⟨64, .custom⟩) fun _ _ =>
      .step (.allocateFrom 0 16) fun _ _ => .step (.installFunctions ⟨1, 2, 3⟩) fun _ _ => .done

/-- The fault by which a computation ends, if it does not end well. -/
def Machine.fault? {σ α : Type} (x : Machine σ α) (w : World σ) : Option Fault :=
  match x w with
  | .ok _ _ => none
  | .error e _ => some e

/-- The triple that was installed last is refused, since another object is bound by now and a block
of it is out. -/
theorem reinstall_refused :
    Machine.fault? (Environment.unbounded.session 0 .reinstalled) { host := [] } =
      some (.violation (.allocatorSwap 1 0)) := by
  decide +kernel

end CountedHeap
