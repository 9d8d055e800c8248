/-
Handles that bring down others

Release, destructors and the releases in them call each other on shared state, to a depth that only
the references in that state decide. Where all references to a set of handles are accounted for, the
counts of references alone tell what happens: the run follows a `Cascade`, step by step and to the
end, and it leaves a set of handles behind whose references are accounted for again.

* `Cascade.events`: what is seen of a cascade from outside;
* `Environment.Carries`: programs that give up references follow a cascade;
* `Environment.release_brings`: one step, the end of a handle included;
* `Environment.carries`: programs, by induction on the depth of nesting;
* `release_cascades`: what becomes of a reference that is given up from outside.
-/
import CountedHeap.Proofs.Finality
import CountedHeap.Proofs.Waning

namespace CountedHeap

/-! ### What is seen of a cascade -/

/-- Lines in the history that tell of no reference, of no call of a destructor and of no block. -/
def Event.isAside : Event → Bool
  | .boundary _ | .closureDropped _ => true
  | _ => false

/-- Calls of destructors, finalizers and closures. -/
def Event.isCall : Event → Bool
  | .destructor .. | .finalizer .. | .closure .. => true
  | _ => false

/-- Blocks that are given back. -/
def Event.isFree : Event → Bool
  | .takenBack .. => true
  | _ => false

/-- From `H` to `H'` this happened, in this order, and nothing else that is worth telling. -/
def Happens (H H' : History) (es : List Event) : Prop :=
  ∃ new, H' = new ++ H ∧ new.reverse.filter (fun e => !e.isAside) = es

namespace Happens

variable {H H' H'' : History} {es es' : List Event} {e : Event}

lemma cons (he : e.isAside = false) : Happens H (e :: H) [e] :=
  ⟨[e], rfl, by simp [he]⟩

lemma aside (he : e.isAside = true) : Happens H (e :: H) [] :=
  ⟨[e], rfl, by simp [he]⟩

lemma trans (h : Happens H H' es) (h' : Happens H' H'' es') : Happens H H'' (es ++ es') := by
  obtain ⟨new, rfl, rfl⟩ := h
  obtain ⟨new', rfl, rfl⟩ := h'
  exact ⟨new' ++ new, (List.append_assoc new' new H).symm, by
    rw [List.reverse_append, List.filter_append]⟩

end Happens

/-- The call with which the end of a handle begins, if it has a destructor. -/
def Header.opening (d : Header) (boxes : Boxes) : List Event :=
  if d.destructor = 0 then []
  else if d.destructor = Adapter.boxed.addr then
    (boxes.find? d.info).toList.map fun c => .closure c d.payload d.size
  else [.destructor d.destructor d.payload d.size d.info]

/-- The allocator that serves the requests of the handle `b`. -/
def Environment.sourceOf (E : Environment) (w : World History) (b : Handle) : Source :=
  E.sourceAt w.bindings.heap.addr (w.memory.header b).external

lemma Header.isCall_of_mem_opening {d : Header} {boxes : Boxes} {e : Event}
    (he : e ∈ d.opening boxes) : e.isCall = true ∧ e.isFree = false := by
  unfold opening at he
  split at he
  · exact absurd he List.not_mem_nil
  split at he
  · obtain ⟨c, -, rfl⟩ := List.mem_map.1 he
    exact ⟨rfl, rfl⟩
  · obtain rfl := List.mem_singleton.1 he
    exact ⟨rfl, rfl⟩

namespace Cascade

variable {E : Environment} {w : World History}

/-- What is seen of a cascade that begins in the state `w`: a handle that ends begins with the call
of its destructor, goes on with the references that this gives up, and is done when its storage is
given back. -/
def events (E : Environment) (w : World History) : Cascade → List Event
  | nil => []
  | kept b rest => .released b :: rest.events E w
  | ended b inner rest =>
    .released b :: ((w.memory.header b).opening w.boxes ++
      (inner.events E w ++ .takenBack (E.sourceOf w b) b :: rest.events E w))

lemma events_append (f g : Cascade) :
    (f.append g).events E w = f.events E w ++ g.events E w := by
  induction f with
  | nil => rfl
  | kept b rest ih => rw [append, events, ih, events, List.cons_append]
  | ended b inner rest _ ih =>
    rw [append, events, ih, events]
    simp only [List.cons_append, List.append_assoc]

/-- The destructors are called in the order in which the handles begin to end. -/
lemma calls_events (f : Cascade) : (f.events E w).filter Event.isCall =
    f.dead.flatMap fun x => (w.memory.header x).opening w.boxes := by
  induction f with
  | nil => rfl
  | kept b rest ih => exact ih
  | ended b inner rest ihinner ihrest =>
    have hopening : ((w.memory.header b).opening w.boxes).filter Event.isCall =
        (w.memory.header b).opening w.boxes :=
      List.filter_eq_self.2 fun e he => (Header.isCall_of_mem_opening he).1
    simp only [events, List.filter_cons, List.filter_append, hopening, ihinner, ihrest, dead,
      List.flatMap_cons, List.flatMap_append]
    rfl

/-- Storage is given back in the order in which the handles are done. -/
lemma frees_events (f : Cascade) : (f.events E w).filter Event.isFree =
    f.freed.map fun x => .takenBack (E.sourceOf w x) x := by
  induction f with
  | nil => rfl
  | kept b rest ih => exact ih
  | ended b inner rest ihinner ihrest =>
    have hopening : ((w.memory.header b).opening w.boxes).filter Event.isFree = [] :=
      List.filter_eq_nil_iff.2 fun e he => by
        rw [(Header.isCall_of_mem_opening he).2]
        exact Bool.false_ne_true
    simp only [events, List.filter_cons, List.filter_append, hopening, ihinner, ihrest, freed,
      List.map_append, List.map_cons]
    rfl

end Cascade

namespace Environment

variable {E : Environment} {w v : World History} {S : Finset Handle} {owns : Handle → List Handle}
  {n n' n'' : Handle → Nat} {b : Handle} {es es' : List Event} {x : Machine History Unit} {d : Nat}

/-! ### Computations that follow a cascade -/

/-- The computation ends without a fault, in a state on the way from `w` where each handle `y` of
`S` has `n y` references left, and `es` happens. -/
def Brings (E : Environment) (w : World History) (S : Finset Handle) (n : Handle → Nat)
    (es : List Event) (x : Machine History Unit) (v : World History) : Prop :=
  ∃ v', x v = .ok () v' ∧ During E w S n v' ∧ Happens v.host v'.host es

/-- The second part goes on where the first ends. -/
lemma Brings.bind {y : Unit → Machine History Unit} (hx : Brings E w S n es x v)
    (hy : ∀ v', During E w S n v' → Brings E w S n' es' (y ()) v') :
    Brings E w S n' (es ++ es') (x >>= y) v := by
  obtain ⟨v', hrun, hv', hes⟩ := hx
  obtain ⟨v'', hrun', hv'', hes'⟩ := hy v' hv'
  refine ⟨v'', ?_, hv'', hes.trans hes'⟩
  rw [Machine.bind_apply, hrun]
  exact hrun'

/-- What ends without a fault has no panic to stop. -/
lemma Brings.withoutUnwinding (hx : Brings E w S n es x v) :
    Brings E w S n es (Machine.withoutUnwinding x) v := by
  obtain ⟨v', hrun, hv', hes⟩ := hx
  exact ⟨v', Machine.withoutUnwinding_eq_ok.2 hrun, hv', hes⟩

/-- Programs that give up the references at the head of a cascade follow the cascade, if it is not
nested deeper than `d`. -/
def Carries (E : Environment) (w : World History) (S : Finset Handle) (owns : Handle → List Handle)
    (d : Nat) : Prop :=
  ∀ (f : Cascade) (n : Handle → Nat) (v : World History) (p : Program), f.depth ≤ d →
    f.Follows owns n → (∀ b ∈ f.heads, b ∈ S) → During E w S n v → GivesUp w f.heads p →
    Brings E w S (f.after n) (f.events E w) (p.run E (E.host d)) v

/-! ### Calls from inside -/

/-- A destructor is a program that is nested one level deeper. -/
lemma destructor_run (E : Environment) (d : Nat) (fn data : Addr) (size : Word) (info : Addr)
    (v : World History) :
    (E.host (d + 1)).destructor fn data size info v =
      (E.destructor fn data size info (v.noted (.destructor fn data size info))).run E (E.host d)
        (v.noted (.destructor fn data size info)) := rfl

/-- So is a closure that is called. -/
lemma closure_run (E : Environment) (d c : Nat) (data : Addr) (size : Word) (v : World History) :
    (E.host (d + 1)).closure c data size v =
      (E.closure c data size (v.noted (.closure c data size))).run E (E.host d)
        (v.noted (.closure c data size)) := rfl

/-- And one that is dropped. -/
lemma dropClosure_run (E : Environment) (d c : Nat) (v : World History) :
    (E.host (d + 1)).dropClosure c v =
      (E.dropClosure c (v.noted (.closureDropped c))).run E (E.host d)
        (v.noted (.closureDropped c)) := rfl

/-- A closure is taken out of its box, called and dropped. -/
lemma callDestructorAt_boxed_run (h : Host History) {data : Addr} {size : Word} {info : Addr}
    {c : Nat} (hc : v.boxes.find? info = some c) :
    callDestructorAt h Adapter.boxed.addr data size info v =
      Machine.withoutUnwinding (do h.closure c data size; h.dropClosure c)
        { v with boxes := v.boxes.erase info } := by
  have hunbox : (Handle.unboxClosure info : Machine History (Option Nat)) v =
      .ok (v.boxes.find? info) { v with boxes := v.boxes.erase info } := rfl
  rw [callDestructorAt, Adapter.ofAddr?_addr]
  refine Machine.withoutUnwinding_congr
    ((Machine.bind_apply v (Handle.unboxClosure info) _).trans ?_)
  rw [hunbox, hc]

/-- On the way from `w`, the last reference to the handle `b` was given up, and no more than that
has come of it. No other handle that is left waits for the closure of `b`. -/
structure Departing (w : World History) (S : Finset Handle) (n : Handle → Nat) (b : Handle)
    (v : World History) : Prop where
  dying : (ledger v.host).Dying b
  begun : Begun b v
  none_left : n b = 0
  header : ∃ k, v.memory.header b = { w.memory.header b with refcount := k }
  box : (w.memory.header b).destructor = Adapter.boxed.addr →
    v.boxes.find? (w.memory.header b).info = w.boxes.find? (w.memory.header b).info
  other : ∀ y ∈ S, n y ≠ 0 → (w.memory.header b).destructor = Adapter.boxed.addr →
    (w.memory.header y).destructor = Adapter.boxed.addr →
    (w.memory.header y).info ≠ (w.memory.header b).info

section Ends

variable {f : Cascade}

/-- A program that is called from inside follows a cascade, after the call was written down. -/
lemma callback_brings (hcarries : Carries E w S owns d) (hdepth : f.depth ≤ d)
    (hfollows : f.Follows owns n) (hheads : ∀ c ∈ f.heads, c ∈ S) (hv : During E w S n v)
    {e : Event} {p : World History → Program}
    (hrun : x v = (p (v.noted e)).run E (E.host d) (v.noted e))
    (he : (ledger v.host).after e = ledger v.host) (hquiet : e.Quiet) (hwanes : e.Wanes)
    (hlaw : E.Lawful e v.host) (hes : Happens v.host (e :: v.host) es)
    (hp : ∀ v, Undisturbed w v → GivesUp w f.heads (p v)) :
    Brings E w S (f.after n) (es ++ f.events E w) x v := by
  have hnoted := hv.noted he hquiet hwanes hlaw
  obtain ⟨v', hrun', hv', hes'⟩ :=
    hcarries f n _ _ hdepth hfollows hheads hnoted (hp _ hnoted.undisturbed)
  exact ⟨v', hrun.trans hrun', hv', hes.trans hes'⟩

/-- The destructor of a handle that is ending gives up what the handle owns. -/
lemma callDestructorAt_brings (hcarries : Carries E w S owns d) (hdepth : f.depth ≤ d)
    (hfollows : f.Follows owns n) (hheads : ∀ c ∈ f.heads, c ∈ S) (hv : During E w S n v)
    (hyields : Yields E w b f.heads) (h0 : (w.memory.header b).destructor ≠ 0)
    (hleave : Departing w S n b v) :
    Brings E w S (f.after n) ((w.memory.header b).opening w.boxes ++ f.events E w)
      (callDestructorAt (E.host (d + 1)) (w.memory.header b).destructor
        (w.memory.header b).payload (w.memory.header b).size (w.memory.header b).info) v := by
  obtain ⟨k, hheader⟩ := hleave.header
  cases hyields with
  | bare hd hcs => exact absurd hd h0
  | destructor _ hd h =>
    have hopening : (w.memory.header b).opening w.boxes =
        [.destructor (w.memory.header b).destructor (w.memory.header b).payload
          (w.memory.header b).size (w.memory.header b).info] := by
      rw [Header.opening, if_neg h0, if_neg (IsForeign.ne_addr hd _)]
    have hlaw := lawful_of_begun (E := E) hleave.begun
      (e := .destructor (w.memory.header b).destructor (w.memory.header b).payload
        (w.memory.header b).size (w.memory.header b).info)
      (by rw [hheader]; exact ⟨rfl, rfl, .inl ⟨hd, rfl, rfl⟩⟩)
    have hnone : Adapter.ofAddr? (w.memory.header b).destructor = none := hd
    rw [hopening, callDestructorAt, hnone]
    refine Brings.withoutUnwinding ?_
    exact callback_brings hcarries hdepth hfollows hheads hv (destructor_run E d _ _ _ _ v) rfl
      trivial trivial hlaw (.cons rfl) h
  | closure c called dropped hcs hd hc h h' =>
    obtain ⟨g, g', rfl, rfl, rfl⟩ := Cascade.exists_append hcs
    obtain ⟨hdepthg, hdepthg'⟩ := max_le_iff.1 (Cascade.depth_append g g' ▸ hdepth)
    obtain ⟨hfollowsg, hfollowsg'⟩ := Cascade.follows_append.1 hfollows
    have hfound : v.boxes.find? (w.memory.header b).info = some c := (hleave.box hd).trans hc
    have hopening : (w.memory.header b).opening w.boxes =
        [.closure c (w.memory.header b).payload (w.memory.header b).size] := by
      rw [Header.opening, if_neg h0, if_pos hd, hc]
      rfl
    have hlaw := lawful_of_begun (E := E) hleave.begun (e := .closure c (w.memory.header b).payload
      (w.memory.header b).size)
      (by rw [hheader]; exact ⟨hd, hfound, rfl, rfl⟩)
    have hempty := hv.unboxed fun y hy hny => hleave.other y hy hny hd
    have hheads' : ∀ c ∈ g.heads ++ g'.heads, c ∈ S := fun c hc' => hheads c (hcs ▸ hc')
    have hcalled := callback_brings hcarries hdepthg hfollowsg
      (fun c hc' => hheads' c (List.mem_append_left _ hc')) hempty (closure_run E d c _ _ _) rfl
      trivial trivial hlaw (.cons rfl) h
    have hboth := hcalled.bind (y := fun _ => (E.host (d + 1)).dropClosure c) fun v' hv' =>
      callback_brings hcarries hdepthg' hfollowsg'
        (fun c hc' => hheads' c (List.mem_append_right _ hc')) hv' (dropClosure_run E d c v') rfl
        trivial trivial trivial (.aside rfl) h'
    obtain ⟨v', hrun, hv', hes⟩ := hboth
    rw [hopening, Cascade.after_append, Cascade.events_append, hd]
    refine ⟨v', (callDestructorAt_boxed_run _ hfound).trans
      (Machine.withoutUnwinding_eq_ok.2 hrun), hv', ?_⟩
    simpa only [List.append_assoc, List.nil_append] using hes

/-- The storage of a handle goes back to the allocator that the handle has had all along. -/
lemma destroy_brings (hv : During E w S n v) (hdying : (ledger v.host).Dying b) {k : Word}
    (hheader : v.memory.header b = { w.memory.header b with refcount := k }) (hn : n b = 0) :
    Brings E w S n [.takenBack (E.sourceOf w b) b] (Handle.destroy (E.host d) b) v := by
  obtain ⟨play, hhost, -⟩ := E.obeys_host d
  have hsource : E.sourceAt v.bindings.heap.addr (v.memory.header b).external =
      E.sourceOf w b := by
    rw [hheader, hv.undisturbed.bindings]
    rfl
  have hrun := destroy_run play hv.steady.sound.correct (hv.steady.ne_zero hdying.1)
  have hs := (hv.steady.sound.headed.header b hdying.1).source
  rw [hsource] at hrun hs
  rw [hhost]
  exact ⟨_, hrun, hv.destroyed hdying hs hn, .cons rfl⟩

/-- A handle whose last reference was given up ends: what it owns is given up, and then its storage
goes. -/
lemma callDestructor_brings (hcarries : Carries E w S owns d) (hdepth : f.depth ≤ d)
    (hfollows : f.Follows owns n) (hheads : ∀ c ∈ f.heads, c ∈ S) (hv : During E w S n v)
    (hyields : Yields E w b f.heads) (hon : w.shuttingDown = false)
    (hleave : Departing w S n b v) :
    Brings E w S (f.after n) ((w.memory.header b).opening w.boxes ++
      (f.events E w ++ [.takenBack (E.sourceOf w b) b]))
      (Handle.callDestructor (E.host (d + 1)) b) v := by
  obtain ⟨play, hhost, hplay⟩ := E.obeys_host (d + 1)
  obtain ⟨k, hheader⟩ := hleave.header
  have hgone : f.after n b = 0 := Nat.le_zero.1 (hleave.none_left ▸ f.after_le n b)
  have hrun := callDestructor_run (E := E) (w := v) play b
  rw [hheader, ← hhost] at hrun
  by_cases h0 : (w.memory.header b).destructor = 0
  · -- Nothing is called, and nothing is given up.
    have hnil : f.heads = [] := by
      cases hyields with
      | bare _ hcs => exact hcs
      | destructor h0' => exact absurd h0 h0'
      | closure _ _ _ _ hd => exact absurd (hd.symm.trans h0) (Adapter.addr_ne_zero _)
    obtain rfl := Cascade.eq_nil_of_heads hnil
    rw [if_neg fun hc => hc.1 h0] at hrun
    rw [Header.opening, if_pos h0]
    obtain ⟨v', hdestroy, hv', hes⟩ :=
      destroy_brings (d := d + 1) hv hleave.dying hheader hleave.none_left
    exact ⟨v', hrun.trans hdestroy, hv', hes⟩
  · have hcalled := callDestructorAt_brings hcarries hdepth hfollows hheads hv hyields h0 hleave
    have hcall : (w.memory.header b).destructor ≠ 0 ∧ ¬ v.shuttingDown := by
      rw [hv.undisturbed.shuttingDown, hon]
      exact ⟨h0, Bool.false_ne_true⟩
    rw [if_pos hcall] at hrun
    obtain ⟨v₁, hrun₁, hv₁, hes₁⟩ := hcalled
    have hspares : Spares v v₁ := by
      have hends := callDestructorAt_ends hplay hv.steady hleave.dying hleave.begun hheader
        hyields.ne_resizable
      rw [← hhost] at hends
      exact (hends.post hrun₁).2
    obtain ⟨hdying₁, hheader₁⟩ := hspares b hleave.dying
    obtain ⟨v₂, hrun₂, hv₂, hes₂⟩ :=
      destroy_brings (d := d + 1) hv₁ hdying₁ (hheader₁.trans hheader) hgone
    refine ⟨v₂, ?_, hv₂, ?_⟩
    · rw [hrun, Machine.bind_apply, hrun₁]
      exact hrun₂
    · rw [← List.append_assoc]
      exact hes₁.trans hes₂

end Ends

/-! ### References that are given up -/

variable {ext : Handle → Nat}

/-- A handle that has other references is kept. -/
lemma release_kept_brings (hv : During E w S n v) (hb : b ∈ S) (hn : 1 < n b) :
    Brings E w S (lose n b) [.released b]
      (do record (.released b); Handle.release (E.host d) b) v := by
  obtain ⟨play, hhost, -⟩ := E.obeys_host d
  have hlive := hv.live hb (by omega)
  obtain ⟨hrefs, hsmall⟩ := (⟨(hv.alive b hb (by omega)).2, hv.small b hb⟩ :
    (ledger v.host).refs b = n b ∧ n b < UInt64.size)
  have h0 : (v.memory.header b).refcount ≠ 0 := fun h => by
    have := (hv.steady.refcount_eq_zero_iff hlive).1 h
    omega
  have hrun := hv.steady.release_shared play hlive (by omega)
  rw [if_neg h0, hrefs, ← hhost] at hrun
  refine ⟨_, (record_bind_run _ _ v).trans hrun, ?_, .cons rfl⟩
  rw [World.noted_withCount]
  exact (hv.released hb (by omega)).2

/-- A handle whose last reference is given up ends, and what it owns is given up inside of that. -/
lemma release_ended_brings (hown : Ownership E w S owns ext) (hon : w.shuttingDown = false)
    (hcarries : Carries E w S owns d) {f : Cascade} (hf : f.heads = owns b) (hdepth : f.depth ≤ d)
    (hfollows : f.Follows owns (lose n b)) (hv : During E w S n v) (hm : Marked v) (hb : b ∈ S)
    (hn : n b = 1) :
    Brings E w S (f.after (lose n b)) (.released b :: ((w.memory.header b).opening w.boxes ++
      (f.events E w ++ [.takenBack (E.sourceOf w b) b])))
      (do record (.released b); Handle.release (E.host (d + 1)) b) v := by
  obtain ⟨play, hhost, -⟩ := E.obeys_host (d + 1)
  have hlive := hv.live hb (by omega)
  have hsole : (ledger v.host).Sole b := ⟨hlive.1, (hv.alive b hb (by omega)).2.trans hn⟩
  have h1 : (v.memory.header b).refcount = 1 := (hv.steady.refcount_eq_one_iff hlive).2 hsole.2
  have h0 : (v.memory.header b).refcount ≠ 0 := by
    rw [h1]
    decide
  have hrun := release_run play (w := v.noted (.released b)) hv.steady.sound.correct b
  rw [World.noted_memory, if_neg h0, if_pos h1, ← hhost] at hrun
  obtain ⟨-, hgiven⟩ := hv.released hb (by omega)
  have hzero : UInt64.ofNat (n b - 1) = 0 := by
    rw [hn]
    rfl
  rw [hzero] at hgiven
  have hself : lose n b b = 0 := by rw [Cascade.lose_self, hn]
  have hset := Memory.header_setField v.memory .refcount 0 (hv.steady.room_le hlive.1).2
  have hleave : Departing w S (lose n b) b ((v.withCount b 0).noted (.released b)) :=
    { dying :=
        ⟨hlive.1, by simp [World.noted, World.withCount, Ledger.after, Ledger.setRefs, hsole.2]⟩
      begun :=
        begun_of_marked hm hsole (hv.undisturbed.shuttingDown.trans hon) (.inl rfl) rfl rfl hset
      none_left := hself
      header := by
        refine ⟨0, hset.trans ?_⟩
        rw [hv.header hb (by omega)]
        rfl
      box := hv.boxes b hb (by omega)
      other := by
        intro y hy hny hd hdy hinfo
        obtain rfl := hown.boxes y hy b hb hdy hd hinfo
        exact hny hself }
  obtain ⟨v', hend, hv', hes⟩ := callDestructor_brings hcarries hdepth hfollows
    (fun c hc => hown.closed b hb c (hf ▸ hc)) hgiven (hf ▸ hown.yields b hb) hon hleave
  have hfirst : Happens v.host ((v.withCount b 0).noted (.released b)).host [.released b] :=
    .cons rfl
  refine ⟨v', (record_bind_run _ _ v).trans (hrun.trans hend), hv', ?_⟩
  rw [← List.singleton_append]
  exact hfirst.trans hes

/-- One reference that is given up follows the cascade that begins with it. -/
lemma release_brings (hown : Ownership E w S owns ext) (hon : w.shuttingDown = false)
    (hcarries : ∀ d', d = d' + 1 → Carries E w S owns d') {f : Cascade} (hf : f.heads = [b])
    (hdepth : f.depth ≤ d) (hfollows : f.Follows owns n) (hv : During E w S n v) (hm : Marked v)
    (hb : b ∈ S) :
    Brings E w S (f.after n) (f.events E w)
      (do record (.released b); Handle.release (E.host d) b) v := by
  cases f with
  | nil => cases hf
  | kept c rest =>
    obtain ⟨rfl, hrest⟩ := List.cons.inj hf
    obtain rfl := Cascade.eq_nil_of_heads hrest
    exact release_kept_brings hv hb hfollows.1
  | ended c inner rest =>
    obtain ⟨rfl, hrest⟩ := List.cons.inj hf
    obtain rfl := Cascade.eq_nil_of_heads hrest
    obtain ⟨hone, hinner, hfollows, -⟩ := hfollows
    have hdeep : inner.depth + 1 ≤ d := (le_max_left _ _).trans hdepth
    obtain ⟨d', rfl⟩ := Nat.exists_eq_add_of_le' (Nat.one_le_iff_ne_zero.2 (by omega) : 1 ≤ d)
    exact release_ended_brings hown hon (hcarries d' rfl) hinner (by omega) hfollows hv hm hb hone

/-! ### Programs that give up references -/

/-- A step that the contract allows, and what comes after it. -/
lemma step_run {h : Host History} {c : Call} {next : Answer → World History → Program}
    {a : Answer} {v' : World History} (hc : c.Permitted E v.marked)
    (hrun : (c.perform h).run v.marked = .ok a v') :
    (Program.step c next).run E h v = (next a v').run E h v' := by
  have hmark : Program.mark v = .ok () v.marked := rfl
  rw [Program.run, Machine.bind_apply, hmark]
  simp only [Machine.bind_apply, Machine.get_apply, if_pos hc, hrun]

/-- A program that gives up a reference first follows the cascade that begins with it. -/
lemma GivesUp.brings {cs : List Handle} {p : Program} {h : Host History}
    (hp : GivesUp w (b :: cs) p) (hv : During E w S n v) (hb : b ∈ S) (hn : n b ≠ 0)
    (hfirst : Brings E w S n' es (do record (.released b); Handle.release h b) v.marked)
    (hrest : ∀ v' p', During E w S n' v' → GivesUp w cs p' →
      Brings E w S n'' es' (p'.run E h) v') :
    Brings E w S n'' (es ++ es') (p.run E h) v := by
  have hlive := hv.marked.live hb hn
  obtain ⟨v', hrun, hv', hes⟩ := hfirst
  have hmark : Happens v.host v.marked.host [] := .aside rfl
  have hgo : ∃ p', GivesUp w cs p' ∧ p.run E h v = p'.run E h v' := by
    cases hp with
    | release hnext => exact ⟨_, hnext v' hv'.undisturbed, step_run hlive (Call.silently_run hrun)⟩
    | drop hnext => exact ⟨_, hnext v' hv'.undisturbed, step_run hlive (Call.silently_run hrun)⟩
  obtain ⟨p', hp', heq⟩ := hgo
  obtain ⟨v'', hrun', hv'', hes'⟩ := hrest v' p' hv' hp'
  exact ⟨v'', heq.trans hrun', hv'', hmark.trans (hes.trans hes')⟩

/-- Programs follow cascades of a depth if the programs inside of them do. -/
lemma carries_of (hown : Ownership E w S owns ext) (hon : w.shuttingDown = false)
    (hcarries : ∀ d', d = d' + 1 → Carries E w S owns d') : Carries E w S owns d := by
  intro f n v p hdepth hfollows hheads hv hp
  generalize hcs : f.heads = cs at hp
  induction cs generalizing f n v p with
  | nil =>
    obtain rfl := Cascade.eq_nil_of_heads hcs
    cases hp
    exact ⟨v.marked, rfl, hv.marked, .aside rfl⟩
  | cons b cs ih =>
    obtain ⟨g, g', rfl, hg, hg'⟩ : ∃ g g' : Cascade, f = g.append g' ∧ g.heads = [b] ∧
        g'.heads = cs := Cascade.exists_append hcs
    obtain ⟨hdepthg, hdepthg'⟩ := max_le_iff.1 (Cascade.depth_append g g' ▸ hdepth)
    obtain ⟨hfollowsg, hfollowsg'⟩ := Cascade.follows_append.1 hfollows
    have hb : b ∈ S := hheads b (hcs ▸ List.mem_cons_self)
    rw [Cascade.after_append, Cascade.events_append]
    refine GivesUp.brings hp hv hb (Cascade.pos_of_heads hfollowsg hg)
      (release_brings hown hon hcarries hg hdepthg hfollowsg hv.marked ⟨_, rfl⟩ hb)
      fun v' p' hv' hp' => ?_
    exact ih g' _ v' p' hdepthg' hfollowsg' (fun c hc => hheads c (hcs ▸ List.mem_cons_of_mem b
      (hg' ▸ hc))) hv' hg' hp'

/-- Programs follow cascades of any depth that they have room for. -/
theorem carries (hown : Ownership E w S owns ext) (hon : w.shuttingDown = false) (d : Nat) :
    Carries E w S owns d := by
  induction d with
  | zero => exact carries_of hown hon nofun
  | succ d ih =>
    refine carries_of hown hon fun d' hd => ?_
    obtain rfl := Nat.succ.inj hd
    exact ih

end Environment

/-! ### References that are given up from outside -/

/-- The cascade `f` from the state `w` is over in the state `w'`: it happened as it should, the
handles that ended are gone, and all references to the others are accounted for again, those that
are held from outside as `ext` says. -/
structure Settled (E : Environment) (w : World History) (S : Finset Handle)
    (owns : Handle → List Handle) (ext : Handle → Nat) (f : Cascade) (w' : World History) :
    Prop where
  happened : Happens w.host w'.host (f.events E w)
  gone : ∀ x ∈ f.dead, x ∉ (ledger w'.host).blocks
  owned : Ownership E w' (S.filter (· ∉ f.dead)) owns ext

/-- Giving up one of the references to `b` that are held from outside brings about the cascade
`f`. -/
structure BringsAbout (E : Environment) (w : World History) (S : Finset Handle)
    (owns : Handle → List Handle) (ext : Handle → Nat) (b : Handle) (f : Cascade) : Prop where
  heads : f.heads = [b]
  follows : f.Follows owns (ledger w.host).refs
  within : ∀ x ∈ f.dead, x ∈ S
  /-- Whoever gives up the reference, by hand or as an owner, sees the end of it without a fault, if
  calls may be nested as deep as there are handles. -/
  settles : ∀ depth, S.card ≤ depth → ∃ w',
    ((Call.release b).perform (E.host depth)).run w = .ok (.ok 0) w' ∧
      ((Call.drop (.ofHandle b)).perform (E.host depth)).run w = .ok (.ok 0) w' ∧
      Settled E w S owns (lose ext b) f w'
  once : f.dead.Nodup ∧ f.freed.Perm f.dead
  /-- Each handle that ends has its destructor called once, and nothing else is called. -/
  calls : (f.events E w).filter Event.isCall =
    f.dead.flatMap fun x => (w.memory.header x).opening w.boxes
  called : ∀ x ∈ f.dead, (w.memory.header x).destructor ≠ 0 →
    ((w.memory.header x).opening w.boxes).length = 1
  /-- Each handle that ends has its storage given back once, and no other block is given back. -/
  frees : (f.events E w).filter Event.isFree =
    f.freed.map fun x => .takenBack (E.sourceOf w x) x
  order : ∀ a c, f.Kills a c → [a, c].Sublist f.dead ∧ [c, a].Sublist f.freed
  reachable : (∀ a, ¬ Relation.TransGen (Owns S owns) a a) → ∀ x ∈ S,
    x ∉ f.dead ↔ ∃ r ∈ S, 1 ≤ lose ext b r ∧ Relation.ReflTransGen (Owns S owns) r x

section Outside

variable {E : Environment} {w : World History} {S : Finset Handle} {owns : Handle → List Handle}
  {ext : Handle → Nat} {b : Handle}

/-- The end of a handle that has a destructor begins with one call. -/
lemma Yields.length_opening {cs : List Handle} (h : Yields E w b cs)
    (h0 : (w.memory.header b).destructor ≠ 0) :
    ((w.memory.header b).opening w.boxes).length = 1 := by
  cases h with
  | bare hd => exact absurd hd h0
  | destructor _ hd =>
    rw [Header.opening, if_neg h0, if_neg (Environment.IsForeign.ne_addr hd _)]
    rfl
  | closure c _ _ _ hd hc =>
    rw [Header.opening, if_neg h0, if_pos hd, hc]
    rfl

/-- The handles that did not end have references left. -/
lemma filter_notMem_dead {f : Cascade} {n : Handle → Nat} (hf : f.Follows owns n)
    (hn : ∀ x ∈ S, n x ≠ 0) :
    S.filter (· ∉ f.dead) = S.filter fun x => f.after n x ≠ 0 := by
  refine Finset.filter_congr fun x hx => not_congr ?_
  rw [Cascade.mem_dead_iff hf]
  exact and_iff_right (hn x hx)

namespace Ownership

/-- All handles have references. -/
lemma refs_ne_zero (h : Ownership E w S owns ext) : ∀ x ∈ S, (ledger w.host).refs x ≠ 0 := by
  intro x hx
  exact Nat.one_le_iff_ne_zero.1 (h.live x hx).2

/-- The reference that is given up is one of those that are held from outside. -/
lemma balanced_lose (h : Ownership E w S owns ext) (hw : E.Steady w) (hext : 1 ≤ ext b) :
    Balanced S owns (fun x => lose ext b x + [b].count x) (ledger w.host).refs := by
  intro x hx
  have hsame : ext x = lose ext b x + [b].count x := by
    by_cases hxb : x = b
    · rw [hxb, Cascade.lose_self, List.count_singleton_self]
      omega
    · rw [Cascade.lose_of_ne hxb, List.count_eq_zero.2 (by simpa using hxb)]
      rfl
  exact (Environment.balanced_of_ownership hw h x hx).trans (congrArg (· + _) hsame)

/-- The handles of a cascade that is over are gone, and the others are accounted for. -/
lemma settled {f : Cascade} {ext' : Handle → Nat} {w' : World History}
    (h : Ownership E w S owns ext) (hfollows : f.Follows owns (ledger w.host).refs)
    (hafter : Balanced S owns ext' (f.after (ledger w.host).refs))
    (hw' : Environment.During E w S (f.after (ledger w.host).refs) w')
    (hhappens : Happens w.host w'.host (f.events E w)) : Settled E w S owns ext' f w' := by
  refine ⟨hhappens, fun x hx => ?_, ?_⟩
  · obtain ⟨new, hnew, hfilter⟩ := hhappens
    obtain ⟨new', hnew', hwanes⟩ := hw'.undisturbed.waned
    obtain rfl := List.append_cancel_right (hnew.symm.trans hnew')
    have htaken : .takenBack (E.sourceOf w x) x ∈ (f.events E w).filter Event.isFree := by
      rw [f.frees_events]
      exact List.mem_map.2 ⟨x, f.freed_perm_dead.mem_iff.2 hx, rfl⟩
    have hmem := (List.mem_filter.1 htaken).1
    rw [← hfilter] at hmem
    rw [hnew]
    exact Waned.not_mem_blocks hwanes (List.mem_reverse.1 (List.mem_filter.1 hmem).1)
  · rw [filter_notMem_dead hfollows h.refs_ne_zero]
    exact Environment.ownership_of_during h hw' hafter

/-- Where all references are accounted for, giving one up brings about a cascade. -/
theorem bringsAbout (h : Ownership E w S owns ext) (hw : E.Steady w)
    (hm : Environment.Marked w) (hon : w.shuttingDown = false) (hb : b ∈ S) (hext : 1 ≤ ext b) :
    ∃ f, BringsAbout E w S owns ext b f := by
  have hcs : ∀ c ∈ [b], c ∈ S := fun c hc => List.mem_singleton.1 hc ▸ hb
  obtain ⟨f, hheads, hfollows, hafter⟩ := (h.balanced_lose hw hext).exists_follows h.closed hcs
  have hwithin := Cascade.dead_subset hfollows h.closed (hheads ▸ hcs)
  refine ⟨f, {
    heads := hheads
    follows := hfollows
    within := hwithin
    settles := ?_
    once := ⟨Cascade.nodup_dead hfollows, f.freed_perm_dead⟩
    calls := f.calls_events
    called := fun x hx => (h.yields x (hwithin x hx)).length_opening
    frees := f.frees_events
    order := fun a c => Cascade.Kills.sublist
    reachable := ?_ }⟩
  · intro depth hroom
    have hdepth := Cascade.depth_le_card hfollows h.closed (hheads ▸ hcs)
    obtain ⟨w', hrun, hw', hhappens⟩ := Environment.release_brings h hon
      (fun d' _ => Environment.carries h hon d') hheads (hdepth.trans hroom) hfollows
      (Environment.during_of_ownership hw h) hm hb
    exact ⟨w', Call.silently_run hrun, Call.silently_run hrun,
      h.settled hfollows hafter hw' hhappens⟩
  · intro hacyclic x hx
    rw [← hafter.alive_iff_reachable h.closed hacyclic hx, Cascade.mem_dead_iff hfollows]
    exact not_congr (and_iff_right (h.refs_ne_zero x hx))

end Ownership

end Outside

/-- **References that are given up bring down what they own.** Wherever a program is between two
steps and the runtime is not shutting down, let all references to a finite set of handles be
accounted for, those that the handles own and those that are held from outside, and let the end of
each of these handles give up the references that it owns. Then giving up a reference from outside
brings about a cascade, and leaves handles behind whose references are accounted for. A handle whose
end has begun with its last reference refuses whoever takes or gives up another one. -/
theorem release_cascades (E : Environment) (depth : Nat) (p : Program) (w : World History) :
    Throughout (fun e past => ∀ s, e = .boundary s →
      (∀ S owns ext b, Ownership E (s.resume past) S owns ext → s.shuttingDown = false → b ∈ S →
        1 ≤ ext b → ∃ f, BringsAbout E (s.resume past) S owns ext b f) ∧
      ∀ b, Spent b past → b ∈ (ledger past).handles → Refuses E (s.resume past) b)
      (E.history depth p w) := by
  rintro e past hsuffix s rfl
  obtain ⟨hw, hm⟩ := Environment.steady_of_boundary ((E.lawful_history depth p w).suffix hsuffix)
  refine ⟨fun S owns ext b h hon hb hext => h.bringsAbout hw hm hon hb hext, fun b hs hin => ?_⟩
  have hspent : Spent b (s.resume past).host := .inr ⟨not_false, hs⟩
  exact hw.refuses_of_word (hw.ne_zero hin) (hw.recalled.ending b hspent hin).2

/-! ### A diamond -/

/-- A caller who gives up references one after the other. -/
def Program.releaseAll : List Handle → Program
  | [] => .done
  | c :: cs => .step (.release c) fun _ _ => releaseAll cs

lemma GivesUp.releaseAll (w : World History) (cs : List Handle) :
    GivesUp w cs (.releaseAll cs) := by
  induction cs with
  | nil => exact .done
  | cons c cs ih => exact .release fun _ _ => ih

/-- A host whose destructors give up the handles that payload and info word name. -/
def Environment.owners : Environment :=
  { Environment.unbounded with
    destructor := fun _ data _ info _ => .releaseAll ([data, info].filter (· ≠ 0)) }

lemma Environment.owners_destructor (fn data : Addr) (size : Word) (info : Addr)
    (w : World History) : Environment.owners.destructor fn data size info w =
      .releaseAll ([data, info].filter (· ≠ 0)) := rfl

/-- A caller who makes four handles: the last one owns two others, and both of them own the
first. -/
def Program.diamond : Program :=
  .step (.make (.new 0 0 1 0)) fun _ _ =>
    .step (.acquire 4096) fun _ _ =>
      .step (.make (.new 4096 0 1 0)) fun _ _ =>
        .step (.make (.new 4096 0 1 0)) fun _ _ =>
          .step (.make (.new 4152 0 1 4208)) fun _ _ => .done

namespace Diamond

/-- The handles that are made, by address. -/
def handles : Finset Handle := {4096, 4152, 4208, 4264}

/-- Who owns what. -/
def owns (b : Handle) : List Handle :=
  if b = 4264 then [4152, 4208] else if b = 4152 ∨ b = 4208 then [4096] else []

/-- The caller has one reference, to the handle at the top. -/
def ext (b : Handle) : Nat := if b = 4264 then 1 else 0

/-- The handle that both others own is kept when the first of them ends, and ends with the
second. -/
def cascade : Cascade :=
  .ended 4264 (.ended 4152 (.kept 4096 .nil) (.ended 4208 (.ended 4096 .nil .nil) .nil)) .nil

/-- The four handles are there, and their counts and headers say what they own. -/
def Stands (s : Snapshot) (past : History) : Prop :=
  (∀ b ∈ handles, (ledger past).Live b ∧ (ledger past).refs b < UInt64.size ∧
    (s.memory.header b).refcount.toNat = ext b + ∑ a ∈ handles, (owns a).count b) ∧
  (∀ b ∈ handles, (s.memory.header b).destructor = 1 ∧
    [(s.memory.header b).payload, (s.memory.header b).info].filter (· ≠ 0) = owns b) ∧
  s.shuttingDown = false ∧ cascade.Follows owns (ledger past).refs

instance (s : Snapshot) (past : History) : Decidable (Stands s past) := by
  haveI each (p : Addr → Prop) [DecidablePred p] : Decidable (∀ b ∈ handles, p b) :=
    Finset.decidableDforallFinset
  unfold Stands
  infer_instance

lemma ownership {s : Snapshot} {past : History} (h : Stands s past) :
    Ownership .owners (s.resume past) handles owns ext := by
  obtain ⟨hcounts, hnames, -, -⟩ := h
  have hclosed : ∀ a ∈ handles, ∀ c ∈ owns a, c ∈ handles := by simp [handles, owns]
  refine ⟨fun b hb => (hcounts b hb).1, hclosed, fun b hb => (hcounts b hb).2.1,
    fun b hb => (hcounts b hb).2.2, fun b hb => ?_, fun b hb c _ hd => ?_⟩
  · have hd : ((s.resume past).memory.header b).destructor = 1 := (hnames b hb).1
    have hnamed : [((s.resume past).memory.header b).payload,
        ((s.resume past).memory.header b).info].filter (· ≠ 0) = owns b := (hnames b hb).2
    refine .destructor (by rw [hd]; decide) (by rw [hd]; decide) fun v _ => ?_
    rw [Environment.owners_destructor, hnamed]
    exact GivesUp.releaseAll _ _
  · have hone : ((s.resume past).memory.header b).destructor = 1 := (hnames b hb).1
    rw [hone] at hd
    exact absurd hd (by decide)

end Diamond

/-- Giving up the reference to the handle at the top brings down all four. -/
theorem release_cascades_diamond : ∃ s past,
    Environment.owners.history 4 .diamond { host := [] } = .boundary s :: past ∧
      BringsAbout .owners (s.resume past) Diamond.handles Diamond.owns Diamond.ext 4264
        Diamond.cascade := by
  have hlast : (lastBoundary (Environment.owners.history 4 .diamond { host := [] })).any
      (fun r => decide (Diamond.Stands r.1 r.2)) = true := by decide +kernel
  obtain ⟨s, past, hhistory, hholds⟩ := exists_lastBoundary hlast
  have hstands : Diamond.Stands s past := of_decide_eq_true hholds
  have hsuffix : .boundary s :: past <:+
      Environment.owners.history 4 .diamond { host := [] } := hhistory ▸ List.suffix_rfl
  obtain ⟨f, hf⟩ := (release_cascades .owners 4 .diamond { host := [] } _ past hsuffix s rfl).1
    _ _ _ 4264 (Diamond.ownership hstands) hstands.2.2.1 (by decide) (by decide)
  obtain rfl := Cascade.follows_unique hf.follows hstands.2.2.2 hf.heads
  exact ⟨s, past, hhistory, hf⟩

end CountedHeap
