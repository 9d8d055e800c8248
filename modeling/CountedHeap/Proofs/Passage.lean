/-
Every run takes its course

Each step that the contract allows is a stride, or the end of a handle, with all that is called in
the middle of it. So the steps of a program make a course; what is called from inside is a program
again, and by induction on the depth of the calls a whole run makes one.

* `Environment.Steady.quiet_travels`: steps by which nobody is called;
* `make_travels`, `release_travels`: steps by which somebody may be;
* `perform_travels`, `run_travels`, `follows_host`: steps, programs, and what is called from inside;
* `exists_course`: every run takes its course.
-/
import CountedHeap.Proofs.Courses
import CountedHeap.Proofs.Lifetimes
import CountedHeap.Proofs.Swapping

namespace CountedHeap

namespace Call

variable {x : Machine History Unit} {w w' : World History}

lemma silently_record_run {e : Event} (h : x w = .ok () w') :
    (silently do x; record e).run w = .ok (.ok 0) (w'.noted e) :=
  silently_run (by rw [Machine.bind_apply, h]; exact record_run w' e)

end Call

namespace Environment

variable {E : Environment} {G : World History → Nat → Prop} {w v : World History} {b : Handle}
  {p : Addr} {n : Word} {new : List Event}
  {play : (World History → Program) → Machine History Unit}

/-! ### Steps by which nobody is called -/

/-- A step that makes no handle with a closure and gives up no last reference leads on as it is. -/
lemma Steady.quiet_travels (hplay : Obeys E play) (hw : E.Steady w) (hm : Marked w) {c : Call}
    (hc : c.Permitted E w) (hpoke : ∀ a bytes, c ≠ .poke a bytes) {a : Answer}
    (hrun : (c.perform (E.hostOver play)).run w = .ok a v) (hboxes : v.boxes = w.boxes)
    (hrecords : Records w v new)
    (hnew : ∀ e ∈ new, ∀ b,
      (e.Makes b → (v.memory.header b).destructor ≠ Adapter.boxed.addr) ∧
        (e.GivesUp b → ¬ (ledger v.host).Dying b)) :
    E.Travels G ⟨w, []⟩ (c.perform (E.hostOver play)).run w [] :=
  Travels.of_plainly hw hrun
    (hm.plainly ((operation_ends hplay hw hm hc hpoke).post hrun) hboxes hrecords hnew)

/-- Nothing but a block comes of a request for storage. -/
lemma allocateFrom_travels (hplay : Obeys E play) (hw : E.Steady w) (hm : Marked w) (ext : Addr)
    (n : Word) :
    E.Travels G ⟨w, []⟩ ((Call.allocateFrom ext n).perform (E.hostOver play)).run w [] := by
  have htravels : ∀ {a v} (new : List Event),
      ((Call.allocateFrom ext n).perform (E.hostOver play)).run w = .ok a v →
      v.boxes = w.boxes → v.host = new ++ w.host → (∀ e ∈ new, ∃ s n q, e = .given s n q) →
      E.Travels G ⟨w, []⟩ ((Call.allocateFrom ext n).perform (E.hostOver play)).run w [] := by
    intro a v new hrun hboxes hhost hnew
    refine hw.quiet_travels hplay hm trivial nofun hrun hboxes (.of_given hhost hnew) ?_
    intro e he c
    obtain ⟨s, n, q, rfl⟩ := hnew e he
    exact ⟨False.elim, False.elim⟩
  obtain hrun | ⟨n', -, ⟨-, hrun⟩ | ⟨-, hrun⟩⟩ := allocateFrom_cases play hw.sound.correct ext n
  · exact htravels [] hrun rfl rfl (by simp)
  · exact htravels [_] hrun rfl rfl (by simp)
  · exact htravels [_] hrun rfl rfl (by simp)

lemma reallocate_travels (hplay : Obeys E play) (hw : E.Steady w) (hm : Marked w)
    (hc : (Call.reallocate p n).Permitted E w) :
    E.Travels G ⟨w, []⟩ ((Call.reallocate p n).perform (E.hostOver play)).run w [] := by
  set s := Source.heap w.bindings.heap.addr
  set n' := w.bindings.heap.asked n
  have hrecords :
      Records w (E.regranted s p n' w) [.resized s p n' (E.reallocate s p n' w).addr] := by
    refine .of_owned hw rfl (by simp [Event.Plain]) fun e he q htakes => ?_
    rw [List.mem_singleton.1 he] at htakes
    obtain ⟨rfl, -⟩ := htakes
    exact .inr hc.1
  exact hw.quiet_travels hplay hm hc nofun (reallocate_run play p n) rfl hrecords
    (by simp [Event.Makes, Event.GivesUp])

/-- A block that goes back was the caller's. -/
lemma free_travels (hplay : Obeys E play) (hw : E.Steady w) (hm : Marked w)
    (hc : (Call.free p).Permitted E w) :
    E.Travels G ⟨w, []⟩ ((Call.free p).perform (E.hostOver play)).run w [] := by
  have hrun := Call.silently_run (free_run play hw.sound.correct p)
  by_cases h0 : p = 0
  · rw [if_pos h0] at hrun
    exact Travels.of_plainly hw hrun .refl
  · rw [if_neg h0] at hrun
    have hrecords : Records w (E.handedBack (.heap w.bindings.heap.addr) p w)
        [.takenBack (.heap w.bindings.heap.addr) p] := by
      refine .of_owned hw rfl (by simp [Event.Plain]) fun e he q htakes => ?_
      rw [List.mem_singleton.1 he] at htakes
      obtain rfl : p = q := htakes
      exact .inr (hc.resolve_left h0).1
    exact hw.quiet_travels hplay hm hc nofun hrun rfl hrecords
      (by simp [Event.Makes, Event.GivesUp])

variable (play) in
/-- The header of a handle on memory of the caller's, and what is left as it was. -/
lemma init_run (hc : E.Correct w.bindings.incDec) (hfit : b.toNat + 56 ≤ UInt64.size)
    (data : Addr) (size : Word) (destructor info ext : Addr) : ∃ v : World History,
    Handle.init (E.hostOver play) b data size destructor info ext w = .ok () v ∧
      (v.memory.header b).destructor = destructor ∧ v.boxes = w.boxes ∧ v.host = w.host := by
  have hheader := Memory.header_write w.memory ⟨1, destructor, info, data, size, ext, .fixed⟩ hfit
  refine ⟨_, initWith_run play hc b data size destructor info ext .fixed, ?_, rfl, rfl⟩
  exact congrArg Header.destructor hheader

/-- A block of the caller's becomes a handle without a closure. -/
lemma init_travels (hplay : Obeys E play) (hw : E.Steady w) (hm : Marked w) {data : Addr}
    {size : Word} {destructor info ext : Addr}
    (hc : (Call.init b data size destructor info ext).Permitted E w) :
    E.Travels G ⟨w, []⟩
      ((Call.init b data size destructor info ext).perform (E.hostOver play)).run w [] := by
  have hfit := (hw.sound.laid.fits b hc.1.1).2.2
  have hroom := hc.2.1
  obtain ⟨v, hinit, hv, hboxes, hhost⟩ := init_run play hw.sound.correct
    (show b.toNat + 56 ≤ UInt64.size by omega) data size destructor info ext
  have hrun : ((Call.init b data size destructor info ext).perform (E.hostOver play)).run w =
      .ok (.ok 0) (v.noted (.madeIn v.memory b false)) := by
    refine Call.silently_run ?_
    rw [Machine.bind_apply, hinit]
    exact recordMade_run v b false
  have hrecords : Records w (v.noted (.madeIn v.memory b false)) [.madeIn v.memory b false] := by
    refine .of_none ?_ (by simp [Event.madeIn, Event.Plain])
      (by simp [Event.madeIn, Event.TakesAway])
    rw [← hhost]
    rfl
  have hpoke : ∀ a bytes, Call.init b data size destructor info ext ≠ .poke a bytes := by
    intro a bytes h
    cases h
  refine hw.quiet_travels hplay hm hc hpoke hrun hboxes hrecords fun e he c => ?_
  rw [List.mem_singleton.1 he]
  refine ⟨fun hmakes => ?_, False.elim⟩
  obtain rfl : b = c := hmakes
  rw [World.noted_memory, hv]
  exact IsForeign.ne_addr hc.2.2.2 .boxed

lemma acquire_travels (hplay : Obeys E play) (hw : E.Steady w) (hm : Marked w)
    (hb : (ledger w.host).Live b) :
    E.Travels G ⟨w, []⟩ ((Call.acquire b).perform (E.hostOver play)).run w [] := by
  have hrun := acquire_run play hw.sound.correct b
  by_cases h0 : (w.memory.header b).refcount = 0
  · rw [if_pos h0] at hrun
    have hall : (do Handle.acquire (E.hostOver play) b; record (.acquired b)) w =
        .error (.violation (.refcountUnderflow "acquire")) w := by rw [Machine.bind_apply, hrun]
    exact Travels.of_plainly_error hw (Call.silently_run_error hall) .refl
  · rw [if_neg h0] at hrun
    have hrecords : Records w ((w.withCount b ((w.memory.header b).refcount + 1)).noted
        (.acquired b)) [.acquired b] :=
      .of_none rfl (by simp [Event.Plain]) (by simp [Event.TakesAway])
    exact hw.quiet_travels hplay hm (c := .acquire b) hb nofun (Call.silently_record_run hrun) rfl
      hrecords (by simp [Event.Makes, Event.GivesUp])

/-- A handle that is ended without its destructor loses its storage. -/
lemma destroy_plainly (hplay : Obeys E play) (hw : E.Steady w) (hm : Marked w)
    (hb : (ledger w.host).Sole b) : ∃ v,
    ((Call.destroy b).perform (E.hostOver play)).run w = .ok (.ok 0) v ∧ Plainly w v ∧
      b ∉ (ledger v.host).handles := by
  obtain ⟨hending, hdying⟩ := hw.ending_last hb
  set v := E.destroyed ((ledger (w.noted (.ending b)).host).source b) b (w.noted (.ending b))
  have hdestroy : Handle.destroy (E.hostOver play) b (w.noted (.ending b)) = .ok () v :=
    hending.destroy_of hdying.1 rfl rfl
  have hrun : ((Call.destroy b).perform (E.hostOver play)).run w = .ok (.ok 0) v := by
    refine Call.silently_run ?_
    rw [Machine.bind_apply, record_run]
    exact hdestroy
  have hreach : E.Reaches w v :=
    (operation_ends hplay hw hm (c := .destroy b) hb nofun).post hrun
  exact ⟨v, hrun,
    hw.plainly_ended hm hb .ending (w.noted (.ending b)) rfl [] rfl (by simp) hreach,
    Finset.notMem_erase b _⟩

/-- The storage of a handle goes without a call. -/
lemma destroy_travels (hplay : Obeys E play) (hw : E.Steady w) (hm : Marked w)
    (hb : (ledger w.host).Sole b) :
    E.Travels G ⟨w, []⟩ ((Call.destroy b).perform (E.hostOver play)).run w [] := by
  obtain ⟨v, hrun, hplainly, -⟩ := destroy_plainly hplay hw hm hb
  exact Travels.of_plainly hw hrun hplainly

/-- So does one whose storage is given back as it is. -/
lemma dealloc_plainly (hplay : Obeys E play) (hw : E.Steady w) (hm : Marked w)
    (hb : (ledger w.host).Sole b) : ∃ v,
    ((Call.dealloc b).perform (E.hostOver play)).run w = .ok (.ok 0) v ∧ Plainly w v ∧
      b ∉ (ledger v.host).handles := by
  set s := E.sourceAt w.bindings.heap.addr (w.memory.header b).external
  have hdealloc : Handle.dealloc (E.hostOver play) b (w.noted (.abandoned b)) =
      .ok () (E.handedBack s b (w.noted (.abandoned b))) :=
    dealloc_run play (w := w.noted (.abandoned b)) hw.sound.correct (hw.ne_zero hb.1)
  have hrun : ((Call.dealloc b).perform (E.hostOver play)).run w =
      .ok (.ok 0) (E.handedBack s b (w.noted (.abandoned b))) := by
    refine Call.silently_run ?_
    rw [Machine.bind_apply, record_run]
    exact hdealloc
  have hrecords : Records w (E.handedBack s b (w.noted (.abandoned b)))
      [.takenBack s b, .abandoned b] := by
    refine .of_blocks hw hb.live rfl (by simp [Event.Plain]) (fun e he q htakes => ?_)
      (.inl (Finset.notMem_erase b _))
    obtain rfl | rfl : e = .takenBack s b ∨ e = .abandoned b := by simpa using he
    · obtain rfl : b = q := htakes
      exact Header.self_mem_blocks _ b
    · exact htakes.elim
  have hreach := (operation_ends hplay hw hm (c := .dealloc b) hb nofun).post hrun
  exact ⟨_, hrun, hm.plainly hreach rfl hrecords (by simp [Event.Makes, Event.GivesUp]),
    Finset.notMem_erase b _⟩

/-- So it does when nothing is counted. -/
lemma dealloc_travels (hplay : Obeys E play) (hw : E.Steady w) (hm : Marked w)
    (hb : (ledger w.host).Sole b) :
    E.Travels G ⟨w, []⟩ ((Call.dealloc b).perform (E.hostOver play)).run w [] := by
  obtain ⟨v, hrun, hplainly, -⟩ := dealloc_plainly hplay hw hm hb
  exact Travels.of_plainly hw hrun hplainly

/-! ### Payloads that are exchanged -/

lemma refilled_run_fault {x : Attempt History Addr} {e : Fault} (h : x.run w = .error e v) :
    (do let p ← x
        record (.refilled b p n)
        return p : Attempt History Addr).run w = .error e v := by
  rw [Attempt.bind_apply, h]

/-- The heap is asked for a payload, or for another size of the one that is there. -/
lemma Steady.asking_travels (hplay : Obeys E play) (hw : E.Steady w) (hm : Marked w)
    (hb : (ledger w.host).Live b) {c : Call} (hc : c.Permitted E w)
    (hpoke : ∀ a bytes, c ≠ .poke a bytes) {a : Answer} {q : Addr} {e : Event} {k : List Counter}
    (hrun : (c.perform (E.hostOver play)).run w = .ok a v)
    (hseen : (Buffer.asking b n q e k).Seen w v)
    (he : (∃ s n', e = .given s n' q) ∨
      ∃ s p n', e = .resized s p n' q ∧ p ∈ (w.memory.header b).blocks b) :
    E.Travels G ⟨w, []⟩ (c.perform (E.hostOver play)).run w [] := by
  have hplain : e.Plain := by rcases he with ⟨s, n', rfl⟩ | ⟨s, p, n', rfl, -⟩ <;> trivial
  have hneither : ∀ b, ¬ e.Makes b ∧ ¬ e.GivesUp b := by
    rcases he with ⟨s, n', rfl⟩ | ⟨s, p, n', rfl, -⟩ <;> exact fun _ => ⟨not_false, not_false⟩
  have hboxes := hseen.kept.2.2.2.1
  have hhost := hseen.events
  unfold Buffer.asking at hhost
  by_cases h0 : q = 0
  · rw [if_pos h0] at hhost
    refine hw.quiet_travels hplay hm hc hpoke hrun hboxes
      (.of_none hhost (by simpa using hplain) ?_) (by simp [hneither])
    intro e' he' p htakes
    rw [List.mem_singleton.1 he'] at htakes
    rcases he with ⟨s, n', rfl⟩ | ⟨s, p, n', rfl, -⟩
    · exact htakes
    · exact htakes.2 h0
  · rw [if_neg h0] at hhost
    refine hw.quiet_travels hplay hm hc hpoke hrun hboxes
      (.of_blocks hw hb hhost ?_ (fun e' he' p htakes => ?_)
        (.inr ⟨_, List.mem_cons_self, rfl⟩)) ?_
    · simpa [Event.Plain] using hplain
    · obtain rfl | rfl : e' = .refilled b q n ∨ e' = e := by simpa using he'
      · exact htakes.elim
      · rcases he with ⟨s, n', rfl⟩ | ⟨s, p', n', rfl, hp⟩
        · exact htakes.elim
        · obtain ⟨rfl, -⟩ := htakes
          exact hp
    · intro e' he' c'
      obtain rfl | rfl : e' = .refilled b q n ∨ e' = e := by simpa using he'
      · exact ⟨False.elim, False.elim⟩
      · exact ⟨fun h => absurd h (hneither c').1, fun h => absurd h (hneither c').2⟩

/-- A handle that cannot be resized stops the program before anything happens. -/
lemma resizableAlloc_travels (hplay : Obeys E play) (hw : E.Steady w) (hm : Marked w)
    (hb : (ledger w.host).Live b) (n : Word) :
    E.Travels G ⟨w, []⟩ ((Call.resizableAlloc b n).perform (E.hostOver play)).run w [] := by
  by_cases hk : (w.memory.header b).kind = .resizable
  · obtain ⟨q, v, hrun, hbecomes, -⟩ := alloc_takesTurn play hw hb hk n
    exact hw.asking_travels hplay hm hb (c := .resizableAlloc b n) hb nofun hrun
      hbecomes.toSeen (.inl ⟨_, _, rfl⟩)
  · have hrun : (Handle.resizableAlloc (E.hostOver play) b n).run w =
        .error (.violation (.notResizable "varsize_alloc")) w := by
      rw [Handle.resizableAlloc, Attempt.lift_bind_apply, requireResizable_fixed hk]
    exact Travels.of_plainly_error hw (refilled_run_fault hrun) .refl

lemma resizableRealloc_travels (hplay : Obeys E play) (hw : E.Steady w) (hm : Marked w)
    (hb : (ledger w.host).Live b) (n : Word) :
    E.Travels G ⟨w, []⟩ ((Call.resizableRealloc b n).perform (E.hostOver play)).run w [] := by
  by_cases hk : (w.memory.header b).kind = .resizable
  · obtain ⟨q, v, hrun, hbecomes, -⟩ := realloc_takesTurn play hw hb hk n
    have hseen := hbecomes.toSeen
    have hdata : (w.memory.header b).payload = ((ledger w.host).buffer b).data :=
      (hw.sound.reported b hb).1
    by_cases h0 : ((ledger w.host).buffer b).data = 0
    · rw [show Buffer.turn _ _ b q (.realloc n) = _ from if_pos h0] at hseen
      exact hw.asking_travels hplay hm hb (c := .resizableRealloc b n) hb nofun hrun hseen
        (.inl ⟨_, _, rfl⟩)
    · rw [show Buffer.turn _ _ b q (.realloc n) = _ from if_neg h0] at hseen
      exact hw.asking_travels hplay hm hb (c := .resizableRealloc b n) hb nofun hrun hseen
        (.inr ⟨_, _, _, rfl, Header.mem_blocks.2 (.inr ⟨hk, hdata ▸ h0, hdata.symm⟩)⟩)
  · have hrun : (Handle.resizableRealloc (E.hostOver play) b n).run w =
        .error (.violation (.notResizable "varsize_realloc")) w := by
      rw [Handle.resizableRealloc, Attempt.lift_bind_apply, Machine.bind_apply,
        requireResizable_fixed hk]
    exact Travels.of_plainly_error hw (refilled_run_fault hrun) .refl

/-- What is freed through a handle is its payload, or a block of the caller's. -/
lemma resizableFree_travels (hplay : Obeys E play) (hw : E.Steady w) (hm : Marked w)
    (hc : (Call.resizableFree b p).Permitted E w) :
    E.Travels G ⟨w, []⟩ ((Call.resizableFree b p).perform (E.hostOver play)).run w [] := by
  have hb := hc.1
  set s := Source.heap w.bindings.heap.addr
  have hrun := resizableFree_run play hw.sound.correct (b := b) p
  obtain ⟨v, hv, hrun⟩ : ∃ v : World History, (v.boxes = w.boxes ∧
      v.host = (if p = 0 then [] else [.takenBack s p]) ++ w.host) ∧
      Handle.resizableFree (E.hostOver play) b p w = .ok () v := by
    refine ⟨_, ?_, hrun⟩
    by_cases h0 : p = 0
    · simp only [if_pos h0]
      split <;> exact ⟨rfl, rfl⟩
    · simp only [if_neg h0]
      split <;> exact ⟨rfl, rfl⟩
  obtain ⟨hboxes, hhost⟩ := hv
  have hall : ∀ e ∈ (.discarded b p :: if p = 0 then [] else [.takenBack s p] : List Event),
      e = .discarded b p ∨ p ≠ 0 ∧ e = .takenBack s p := by
    intro e he
    by_cases h0 : p = 0
    · exact .inl (by simpa [h0] using he)
    · simpa [h0] using he
  have hrecords : Records w (v.noted (.discarded b p))
      (.discarded b p :: if p = 0 then [] else [.takenBack s p]) := by
    have hhost' : (v.noted (.discarded b p)).host =
        (.discarded b p :: if p = 0 then [] else [.takenBack s p]) ++ w.host :=
      congrArg (_ :: ·) hhost
    have hplain : ∀ e ∈ (.discarded b p :: if p = 0 then [] else [.takenBack s p] : List Event),
        e.Plain := by
      intro e he
      obtain rfl | ⟨-, rfl⟩ := hall e he <;> trivial
    have htaken : ∀ e ∈ (.discarded b p :: if p = 0 then [] else [.takenBack s p] : List Event),
        ∀ q, e.TakesAway q → p ≠ 0 ∧ q = p := by
      intro e he q htakes
      obtain rfl | ⟨h0, rfl⟩ := hall e he
      · exact htakes.elim
      · exact ⟨h0, Eq.symm htakes⟩
    rcases hc.2 with h0 | ⟨hk, hp⟩ | ⟨howned, -⟩
    · exact .of_none hhost' hplain fun e he q htakes => (htaken e he q htakes).1 h0
    · refine .of_blocks hw hb hhost' hplain (fun e he q htakes => ?_)
        (.inr ⟨_, List.mem_cons_self, rfl⟩)
      obtain ⟨h0, rfl⟩ := htaken e he q htakes
      exact Header.mem_blocks.2 (.inr ⟨hk, hp ▸ h0, hp⟩)
    · refine .of_owned hw hhost' hplain fun e he q htakes => ?_
      obtain ⟨-, rfl⟩ := htaken e he q htakes
      exact .inr howned
  refine hw.quiet_travels hplay hm hc nofun (Call.silently_record_run hrun) hboxes hrecords
    fun e he c => ?_
  obtain rfl | ⟨-, rfl⟩ := hall e he <;> exact ⟨False.elim, False.elim⟩

/-! ### What the runtime is bound to -/

/-- Steps after which the history is as it was. -/
lemma Steady.unseen_travels (hplay : Obeys E play) (hw : E.Steady w) (hm : Marked w) {c : Call}
    (hc : c.Permitted E w) (hpoke : ∀ a bytes, c ≠ .poke a bytes) {a : Answer}
    (hrun : (c.perform (E.hostOver play)).run w = .ok a v) (hboxes : v.boxes = w.boxes)
    (hhost : v.host = w.host) :
    E.Travels G ⟨w, []⟩ (c.perform (E.hostOver play)).run w [] :=
  hw.quiet_travels hplay hm hc hpoke hrun hboxes (.nothing hhost) (by simp)

/-- A heap is installed, or the program stops. -/
lemma setAllocator_travels (hplay : Obeys E play) (hw : E.Steady w) (hm : Marked w)
    (o : HeapObject) :
    E.Travels G ⟨w, []⟩ ((Call.setAllocator o).perform (E.hostOver play)).run w [] := by
  have hrun : setAllocator (E.hostOver play) o w = _ := setAllocator_run w o
  split at hrun
  · exact Travels.of_plainly_error hw (Call.silently_run_error hrun) .refl
  · exact hw.unseen_travels hplay hm (c := .setAllocator o) trivial nofun (Call.silently_run hrun)
      rfl rfl

/-- A triple of functions is registered first, and stays so if the program stops. -/
lemma installFunctions_travels (hplay : Obeys E play) (hw : E.Steady w) (hm : Marked w)
    (f : HeapFunctions) :
    E.Travels G ⟨w, []⟩ ((Call.installFunctions f).perform (E.hostOver play)).run w [] := by
  have hrun : (do setAllocator (E.hostOver play) (← internFunctions f)) w = _ :=
    setAllocator_run (w.withTriple f) (w.interned.intern f).1
  split at hrun
  · refine Travels.of_plainly_error hw (Call.silently_run_error hrun) ?_
    exact hm.plainly (hw.withInterned _) rfl (.nothing rfl) (by simp)
  · exact hw.unseen_travels hplay hm (c := .installFunctions f) trivial nofun
      (Call.silently_run hrun) rfl rfl

lemma shutDown_travels (hplay : Obeys E play) (hw : E.Steady w) (hm : Marked w) :
    E.Travels G ⟨w, []⟩ (Call.shutDown.perform (E.hostOver play)).run w [] := by
  have hrun : shutDown (E.hostOver play) w = .ok () { w with
      bindings := { w.bindings with incDec := .stub, cas := .stub }
      shuttingDown := true } := E.trace_run play _ _
  exact hw.unseen_travels hplay hm (c := .shutDown) trivial nofun (Call.silently_run hrun) rfl rfl

variable (E play) in
lemma start_run (w : World History) : start (E.hostOver play) w =
    .ok () { w with bindings := {}, shuttingDown := false, stats := {} } := E.trace_run play _ _

/-- A fresh start leaves boxes where they are. -/
lemma start_travels (hplay : Obeys E play) (hw : E.Steady w) (hm : Marked w)
    (hc : (ledger w.host).blocks = ∅) :
    E.Travels G ⟨w, []⟩ (Call.start.perform (E.hostOver play)).run w [] := by
  have hstart := E.start_run play w
  set v : World History := { w with bindings := {}, shuttingDown := false, stats := {} }
  have hrecords : Records w (v.noted .started) [.started] := by
    refine ⟨rfl, by simp [Event.Plain], fun b hb => ?_⟩
    rw [hw.handles_eq_empty hc] at hb
    exact absurd hb (Finset.notMem_empty b)
  exact hw.quiet_travels hplay hm (c := .start) hc nofun (Call.silently_record_run hstart) rfl
    hrecords (by simp [Event.Makes, Event.GivesUp])

/-- What is written to memory spares the headers. -/
lemma poke_travels (hw : E.Steady w) {a : Addr} {bytes : List UInt8}
    (hc : (Call.poke a bytes).Permitted E w) :
    E.Travels G ⟨w, []⟩ ((Call.poke a bytes).perform (E.hostOver play)).run w [] := by
  set m := w.memory.write a bytes
  have hheader : ∀ b ∈ (ledger w.host).handles, m.header b = w.memory.header b :=
    fun _ => hw.header_poked hc
  have hrun : ((Call.poke a bytes).perform (E.hostOver play)).run w =
      .ok (.ok 0) (World.noted { w with memory := m } (.poked a bytes)) := rfl
  refine Travels.of_plainly hw hrun ⟨rfl, fun b hb => ⟨hb, hheader b hb.1⟩, fun _ hb => hb,
    fun b a hbears => ?_, [.poked a bytes],
    .of_none rfl (by simp [Event.Plain]) (by simp [Event.TakesAway])⟩
  obtain ⟨hlive, hboxed, hinfo⟩ := hbears
  have hsame : m.header b = w.memory.header b := hheader b hlive.1
  exact ⟨hlive, hsame ▸ hboxed, hsame ▸ hinfo⟩

/-! ### References that are given up -/

/-- A reference is given up in a header that counts none any more, and the program stops. -/
lemma plainly_released (hb : (ledger w.host).Live b) (h1 : (ledger w.host).refs b ≠ 1) :
    Plainly w (w.noted (.released b)) := by
  have hledger : ledger (w.noted (.released b)).host =
      (ledger w.host).setRefs b ((ledger w.host).refs b - 1) := rfl
  refine ⟨rfl, fun c hc => ⟨hledger ▸ ⟨hc.1, ?_⟩, rfl⟩, fun c hc => ?_, fun c a hbears => ?_,
    [.released b], .of_none rfl (by simp [Event.Plain]) (by simp [Event.TakesAway])⟩
  · exact (Function.update_of_ne (hc.ne hb) _ _).trans hc.2
  · have hzero : Function.update (ledger w.host).refs b ((ledger w.host).refs b - 1) c = 0 := hc.2
    by_cases hcb : c = b
    · have hpos := hb.2
      rw [hcb, Function.update_self] at hzero
      omega
    · exact ⟨hc.1, (Function.update_of_ne hcb _ _).symm.trans hzero⟩
  · obtain ⟨⟨hmem, hpos⟩, hboxed, hinfo⟩ := hbears
    by_cases hcb : c = b
    · exact hcb ▸ ⟨hb, hcb ▸ hboxed, hcb ▸ hinfo⟩
    · have hsame : (ledger (w.noted (.released b)).host).refs c = (ledger w.host).refs c :=
        Function.update_of_ne hcb _ _
      exact ⟨⟨hmem, hsame ▸ hpos⟩, hboxed, hinfo⟩

/-- Where the end of a handle is over, everything is steady again. -/
lemma Begins.reaches {w' : World History} (hbegins : Begins w b w') (hplay : Obeys E play)
    (hw : E.Steady w) (hm : Marked w) (hb : (ledger w.host).Sole b)
    (hrun : Handle.callDestructor (E.hostOver play) b w' = .ok () v) : E.Reaches w v := by
  cases hbegins with
  | released =>
    have hlast := (record_bind_run (.released b) (Handle.release (E.hostOver play) b) w).trans
      (hw.release_last hb)
    exact (release_ends hplay hw hm hb.live).post (hlast.trans hrun)
  | ending =>
    have hlast := record_bind_run (.ending b) (Handle.callDestructor (E.hostOver play) b) w
    exact (ending_callDestructor_ends hplay hw hm hb).post (hlast.trans hrun)

/-- A release leads on by the end of the handle, if the reference was the last one. -/
lemma release_travels (hE : E.Hands G) (hfollows : E.Follows G play) (hplay : Obeys E play)
    (hw : E.Steady w) (hm : Marked w) (hb : (ledger w.host).Live b) :
    E.Travels G ⟨w, []⟩ (do record (.released b); Handle.release (E.hostOver play) b) w [] := by
  have hends := release_ends hplay hw hm hb
  have hrun := record_bind_run (.released b) (Handle.release (E.hostOver play) b) w
  by_cases h1 : (ledger w.host).refs b = 1
  · have hlast := hrun.trans (hw.release_last ⟨hb.1, h1⟩)
    exact Travels.of_eq hlast (callDestructor_travels hE hfollows hplay hw hm ⟨hb.1, h1⟩ .released
      fun _ => Begins.reaches .released hplay hw hm ⟨hb.1, h1⟩)
  · have hshared := hrun.trans (hw.release_shared play hb h1)
    by_cases h0 : (w.memory.header b).refcount = 0
    · exact Travels.of_plainly_error hw (hshared.trans (if_pos h0)) (plainly_released hb h1)
    · rw [if_neg h0] at hshared
      have hrecords : Records w ((w.noted (.released b)).withCount b
          (UInt64.ofNat ((ledger w.host).refs b - 1))) [.released b] :=
        .of_none rfl (by simp [Event.Plain]) (by simp [Event.TakesAway])
      refine Travels.of_plainly hw hshared
        (hm.plainly (hends.post hshared) rfl hrecords fun e he c => ?_)
      rw [List.mem_singleton.1 he]
      refine ⟨False.elim, fun hgives hdying => ?_⟩
      obtain rfl : b = c := hgives
      have hzero : Function.update (ledger w.host).refs b ((ledger w.host).refs b - 1) b = 0 :=
        hdying.2
      have hpos := hb.2
      rw [Function.update_self] at hzero
      omega

/-- So it is when the end of a handle is asked for. -/
lemma ending_travels (hE : E.Hands G) (hfollows : E.Follows G play) (hplay : Obeys E play)
    (hw : E.Steady w) (hm : Marked w) (hb : (ledger w.host).Sole b) :
    E.Travels G ⟨w, []⟩
      (do record (.ending b); Handle.callDestructor (E.hostOver play) b) w [] := by
  have hlast := record_bind_run (.ending b) (Handle.callDestructor (E.hostOver play) b) w
  exact Travels.of_eq hlast (callDestructor_travels hE hfollows hplay hw hm hb .ending
    fun _ => Begins.reaches .ending hplay hw hm hb)

/-! ### Requests -/

/-- The handle of a request without a closure has no closure for its destructor. -/
structure Unboxed (b : Handle) (w v : World History) : Prop where
  boxes : v.boxes = w.boxes
  destructor : (v.memory.header b).destructor ≠ Adapter.boxed.addr

/-- Only requests with a closure box one. -/
lemma new_unboxed (hc : E.Correct w.bindings.incDec) {data : Addr} {size : Word}
    {destructor info : Addr} (hd : destructor ≠ Adapter.boxed.addr)
    (hrun : (Handle.new (E.hostOver play) data size destructor info).run w = .ok (.ok b) v)
    (hfit : b.toNat + 56 ≤ UInt64.size) : Unboxed b w v := by
  have hstorage := allocate_run play hc headerSize
  set s := Source.heap w.bindings.heap.addr
  set n := w.bindings.heap.asked headerSize
  by_cases h0 : (E.allocate s n w).addr = 0
  · rw [Handle.new, Attempt.bind_apply, hstorage, if_pos h0] at hrun
    cases hrun
  · have hmade : (Handle.new (E.hostOver play) data size destructor info).run w =
        .ok (.ok (E.allocate s n w).addr) { E.handed s n w with
          memory := (E.handed s n w).memory.write (E.allocate s n w).addr
            (Header.bytes ⟨1, destructor, info, data, size, 0, .fixed⟩)
          stats := (E.handed s n w).stats.bump .handleAlloc } := by
      have hinit := initWith_run play (w := E.handed s n w) hc (E.allocate s n w).addr data size
        destructor info 0 .fixed
      simp only [Handle.new, Attempt.bind_apply, hstorage, if_neg h0, Attempt.lift_apply, trace_run,
        Handle.init, hinit, Attempt.pure_apply]
    obtain ⟨hb, rfl⟩ := EStateM.Result.ok.inj (hmade.symm.trans hrun)
    obtain rfl := Except.ok.inj hb
    refine ⟨rfl, ?_⟩
    rw [show World.memory _ = _ from rfl, Memory.header_write _ _ hfit]
    exact hd

lemma newResizableWith_unboxed (hc : E.Correct w.bindings.incDec) {size : Word} {finalizer : Addr}
    (hrun : (Handle.newResizableWith (E.hostOver play) size finalizer).run w = .ok (.ok b) v)
    (hfit : b.toNat + 56 ≤ UInt64.size) : Unboxed b w v := by
  have hmade := newResizableWith_run play hc size finalizer
  simp only at hmade
  split at hmade
  · exact absurd (hmade.symm.trans hrun) nofun
  · split at hmade
    · exact absurd (hmade.symm.trans hrun) nofun
    · obtain ⟨hb, rfl⟩ := EStateM.Result.ok.inj (hmade.symm.trans hrun)
      obtain rfl := Except.ok.inj hb
      refine ⟨rfl, ?_⟩
      rw [Memory.header_write _ _ hfit]
      show Adapter.resizable.addr ≠ Adapter.boxed.addr
      decide

/-- Requests without a closure touch no box. -/
lemma make_unboxed (hw : E.Steady w) {r : Request} (hr : r.Plain) (hnone : r.closure? = none)
    (hrun : (r.make (E.hostOver play)).run w = .ok (.ok b) v) (hfit : b.toNat + 56 ≤ UInt64.size) :
    Unboxed b w v := by
  have hc := hw.sound.correct
  cases hd : r.order? with
  | some d =>
    obtain ⟨-, -, u, hask, rfl⟩ := (make_ok_iff hc hd hnone).1 hrun
    have hboxes : u.boxes = w.boxes := by
      obtain hnull | ⟨n', -, hgiven⟩ := E.allocate_at_cases play w d.ext (UInt64.ofNat d.total)
      · obtain ⟨-, rfl⟩ := EStateM.Result.ok.inj (hnull.symm.trans hask)
        rfl
      · obtain ⟨-, rfl⟩ := EStateM.Result.ok.inj (hgiven.symm.trans hask)
        rfl
    refine ⟨hboxes, ?_⟩
    have hheader : (d.made b u).memory.header b = d.header b := d.header_written hfit _
    rw [hheader]
    obtain ⟨h0, -⟩ | ⟨h0, -⟩ | ⟨h0, -⟩ | ⟨h0, -⟩ := Request.destructor_cases hd hnone <;>
      simp only [Order.header, h0] <;> decide
  | none =>
    cases r with
    | new data size destructor info => exact new_unboxed hc (IsForeign.ne_addr hr .boxed) hrun hfit
    | manage data finalizer => exact new_unboxed hc (by decide) hrun hfit
    | newResizable size => exact newResizableWith_unboxed hc hrun hfit
    | newResizableWith size finalizer => exact newResizableWith_unboxed hc hrun hfit
    | _ => cases hd

/-- What is seen of a request that is met. -/
lemma records_built (h : Built w b v) (own : Bool) :
    ∃ new, Records w (v.noted (.madeIn v.memory b own)) new ∧
      ∀ e ∈ new, ∀ c, (e.Makes c → c = b) ∧ ¬ e.GivesUp c := by
  obtain ⟨new, hhost, hnew⟩ := h.host
  have hgiven : ∀ e ∈ new, ∃ s n q, e = .given s n q := fun e he =>
    (hnew e he).imp fun s h => h.imp fun n h => h.imp fun q h => h.2
  refine ⟨.madeIn v.memory b own :: new, .of_none (congrArg (_ :: ·) hhost) ?_ ?_, ?_⟩ <;>
    rw [List.forall_mem_cons]
  · refine ⟨trivial, fun e he => ?_⟩
    obtain ⟨s, n, q, rfl⟩ := hgiven e he
    trivial
  · refine ⟨fun _ => not_false, fun e he q htakes => ?_⟩
    obtain ⟨s, n, q, rfl⟩ := hgiven e he
    exact htakes
  · refine ⟨fun c => ⟨Eq.symm, not_false⟩, fun e he c => ?_⟩
    obtain ⟨s, n, q, rfl⟩ := hgiven e he
    exact ⟨False.elim, not_false⟩

/-- A closure is in its box when the block is asked for, and the handle is told of the box. -/
lemma allocClosure_boxed (hw : E.Steady w) {size : Word} {c : Nat}
    (hrun : (Handle.allocClosure (E.hostOver play) size c).run w = .ok (.ok b) v)
    (hfit : b.toNat + 56 ≤ UInt64.size) :
    v.boxes = (w.boxes.make c).2 ∧ (v.memory.header b).destructor = Adapter.boxed.addr ∧
      (v.memory.header b).info = (w.boxes.make c).1 := by
  have hboxed := (hw.withBoxes (w.boxes.make c).2).1
  have hmet : E.MetOrNot (E.hostOver play) (.alloc size) { w with boxes := (w.boxes.make c).2 } :=
    make_metOrNot hboxed _
  obtain ⟨b', u, halloc, -⟩ | ⟨e, u, -, hunmet, halloc⟩ := hmet
  · obtain ⟨hb, rfl⟩ := EStateM.Result.ok.inj ((allocClosure_run_ok halloc).symm.trans hrun)
    obtain rfl := Except.ok.inj hb
    have hunboxed := make_unboxed (r := .alloc size) hboxed trivial rfl halloc hfit
    have hheader := Memory.header_withDestructor u.memory Adapter.boxed.addr (w.boxes.make c).1 hfit
    exact ⟨hunboxed.boxes, congrArg Header.destructor hheader, congrArg Header.info hheader⟩
  · have hfail := (allocClosure_run_error halloc hunmet.boxes).symm.trans hrun
    rw [Machine.bind_apply] at hfail
    split at hfail <;> cases hfail

/-- So there is a handle for a closure. -/
lemma built_boxed (hplay : Obeys E play) (hw : E.Steady w) (hm : Marked w) {size : Word} {c : Nat}
    (hrun : (Handle.allocClosure (E.hostOver play) size c).run w = .ok (.ok b) v)
    (hbuilt : Built w b v) : Boxed w (v.noted (.madeIn v.memory b true)) c b := by
  have hmade := made_run_ok (r := .allocClosure size c) hrun
  have hreach := (operation_ends hplay hw hm (c := .make (.allocClosure size c)) trivial nofun).post
    hmade
  obtain ⟨new, hrecords, hother⟩ := records_built hbuilt true
  have hfit := (hreach.1.room_le (b := b) (Finset.mem_insert_self _ _)).2
  obtain ⟨hboxes, hd, hinfo⟩ := allocClosure_boxed hw hrun hfit
  refine ⟨hboxes, hreach.2, fun b' hb' => ?_, fun hb => ?_, ?_, fun b' a hne hbears => ?_, _,
    hrecords⟩
  · refine dying_of_append (fun e he => (hother e he b').2) ?_
    rw [← hrecords.host]
    exact hb'
  · exact Ledger.Fresh.not_mem (n := 0) hbuilt.fresh hw.sound.laid (hw.mem_blocks hb)
  · refine ⟨⟨Finset.mem_insert_self _ _, ?_⟩, hd, hinfo⟩
    show 1 ≤ Function.update (ledger v.host).refs b 1 b
    rw [Function.update_self]
  · exact hreach.1.bears_of hm hreach.2 hrecords.host
      (fun e he hmakes => hne ((hother e he b').1 hmakes)) hbears

/-- A request that is met is a stride: a handle is made, for a closure or not. -/
lemma built_travels (hplay : Obeys E play) (hw : E.Steady w) (hm : Marked w) {r : Request}
    (hr : r.Plain) (hG : ∀ c, r.closure? = some c → G w c)
    (hrun : (r.make (E.hostOver play)).run w = .ok (.ok b) v) (hbuilt : Built w b v) :
    E.Travels G ⟨w, []⟩ ((Call.make r).perform (E.hostOver play)).run w [] := by
  have hmade := made_run_ok hrun
  have hreach := (operation_ends hplay hw hm (c := .make r) hr nofun).post hmade
  obtain ⟨new, hrecords, hother⟩ := records_built hbuilt r.combined
  have hfit := (hreach.1.room_le (b := b) (Finset.mem_insert_self _ _)).2
  cases hc : r.closure? with
  | none =>
    obtain ⟨hboxes, hd⟩ := make_unboxed hw hr hc hrun hfit
    refine hw.quiet_travels hplay hm (c := .make r) hr nofun hmade hboxes hrecords fun e he c => ?_
    refine ⟨fun hmakes => ?_, fun hgives => absurd hgives (hother e he c).2⟩
    obtain rfl := (hother e he c).1 hmakes
    exact hd
  | some c =>
    obtain ⟨size, rfl⟩ : ∃ size, r = .allocClosure size c := by
      cases r <;> cases hc
      exact ⟨_, rfl⟩
    exact Travels.of_ok hmade fun _ =>
      .single (.boxed hw (hG c hc) (built_boxed hplay hw hm hrun hbuilt))

/-- One that is not met leaves everything as it was. -/
lemma Steady.records_unmet (hw : E.Steady w) {r : Request} (h : Unmet r w v) :
    ∃ new, Records w v new := by
  obtain ⟨hhost | ⟨s, n, hhost⟩, -⟩ | ⟨-, ⟨s, n, m, p, hp, hhost⟩, -⟩ := h.course
  · exact ⟨[], .nothing hhost⟩
  · exact ⟨[.given s n 0], .of_given hhost (by simp)⟩
  · refine ⟨[.takenBack s p, .given s m 0, .given s n p], .of_owned hw hhost
      (by simp [Event.Plain]) fun e he q htakes => ?_⟩
    -- What was given back had been nobody's before.
    have hout : p ∉ (ledger v.host).blocks := by
      rw [hhost]
      exact Finset.notMem_erase p _
    have hnone : p ∉ (ledger w.host).blocks := fun hin =>
      hout ((h.untouched.holds _ p).2 ⟨hin, rfl⟩).1
    obtain rfl | rfl | rfl : e = .takenBack s p ∨ e = .given s m 0 ∨ e = .given s n p := by
      simpa using he
    · obtain rfl : p = q := htakes
      exact .inl hnone
    · exact htakes.elim
    · exact htakes.elim

/-- Of a request that was not met nothing is left but blocks that came and went. -/
lemma Steady.unmet_plainly (hw : E.Steady w) {r : Request} (hreach : E.Reaches w v)
    (h : Unmet r w v) : Plainly { w with boxes := v.boxes } v := by
  obtain ⟨new, hrecords⟩ := hw.records_unmet h
  refine ⟨rfl, hreach.2, fun b hb => ?_, fun b a hbears => ?_, new,
    hrecords.host, hrecords.plain, hrecords.custody⟩
  · exact ⟨h.untouched.handles ▸ hb.1, h.untouched.refs ▸ hb.2⟩
  · obtain ⟨⟨hmem, hpos⟩, hboxed, hinfo⟩ := hbears
    rw [h.untouched.handles] at hmem
    rw [h.untouched.headers b hmem] at hboxed hinfo
    exact ⟨⟨hmem, h.untouched.refs ▸ hpos⟩, hboxed, hinfo⟩

/-- A request that is not met is a stride, and its closure is dropped. -/
lemma unmet_travels (hE : E.Hands G) (hfollows : E.Follows G play) (hw : E.Steady w) {r : Request}
    (hG : ∀ c, r.closure? = some c → G w c) (hreach : E.Reaches w v) (h : Unmet r w v) :
    E.Travels G ⟨w, []⟩ (r.giveUp (E.hostOver play)) v [] := by
  have hplainly := hw.unmet_plainly hreach h
  have hboxes := h.boxes
  rw [Request.giveUp]
  cases hr : r.closure? with
  | none =>
    rw [hr] at hboxes
    rw [hboxes] at hplainly
    exact Travels.of_ok rfl fun _ => .single (.plain hw hplainly)
  | some c =>
    rw [hr] at hboxes
    rw [hboxes] at hplainly
    have hdrop : E.Reaches v (v.noted (.closureDropped c)) := hreach.1.noted rfl trivial trivial
    have hplayed : E.Travels G ⟨v.noted (.closureDropped c), []⟩ (play (E.dropClosure c))
        (v.noted (.closureDropped c)) [] :=
      hfollows (E.dropClosure c) (hE (.closureDropped c)) _ hdrop.1
    refine Travels.bind_run (record_run v _) (hplayed.head fun _ => .single ?_)
    exact .refused hw (hG c hr) hplainly

/-- A request leads on to a handle, or to nothing. -/
lemma make_travels (hE : E.Hands G) (hfollows : E.Follows G play) (hplay : Obeys E play)
    (hw : E.Steady w) (hm : Marked w) {r : Request} (hr : r.Plain)
    (hG : ∀ c, r.closure? = some c → G w c) :
    E.Travels G ⟨w, []⟩ ((Call.make r).perform (E.hostOver play)).run w [] := by
  have hmet : E.MetOrNot (E.hostOver play) r w := make_metOrNot hw r
  obtain ⟨b, v, hrun, hbuilt⟩ | ⟨e, v, hreach, hunmet, hrun⟩ := hmet
  · exact built_travels hplay hw hm hr hG hrun hbuilt
  · exact Travels.refused hrun (unmet_travels hE hfollows hw hG hreach hunmet)

/-! ### Programs -/

/-- Every step takes its course, if the caller is careful with closures. -/
theorem perform_travels (hE : E.Hands G) (hfollows : E.Follows G play) (hplay : Obeys E play)
    (hw : E.Steady w) (hm : Marked w) {c : Call} (hc : c.Permitted E w)
    (hG : ∀ k, c.closure? = some k → G w k) :
    E.Travels G ⟨w, []⟩ (c.perform (E.hostOver play)).run w [] := by
  cases c with
  | allocateFrom ext n => exact allocateFrom_travels hplay hw hm ext n
  | reallocate p n => exact reallocate_travels hplay hw hm hc
  | free p => exact free_travels hplay hw hm hc
  | make r => exact make_travels hE hfollows hplay hw hm hc hG
  | init b data size destructor info ext => exact init_travels hplay hw hm hc
  | acquire b => exact acquire_travels hplay hw hm hc
  | release b => exact Travels.silently (release_travels hE hfollows hplay hw hm hc)
  | callDestructor b => exact Travels.silently (ending_travels hE hfollows hplay hw hm hc)
  | destroy b => exact destroy_travels hplay hw hm hc
  | dealloc b => exact dealloc_travels hplay hw hm hc
  | clone r =>
    have hsame : (Call.clone r).perform (E.hostOver play) =
        (Call.acquire r.handle).perform (E.hostOver play) :=
      congrArg Call.silently (clone_recorded _ r)
    rw [hsame]
    exact acquire_travels hplay hw hm hc
  | drop r => exact Travels.silently (release_travels hE hfollows hplay hw hm hc)
  | resizableAlloc b n => exact resizableAlloc_travels hplay hw hm hc n
  | resizableRealloc b n => exact resizableRealloc_travels hplay hw hm hc n
  | resizableFree b p => exact resizableFree_travels hplay hw hm hc
  | setAllocator o => exact setAllocator_travels hplay hw hm o
  | installFunctions f => exact installFunctions_travels hplay hw hm f
  | setIncDec p =>
    exact hw.unseen_travels hplay hm (c := .setIncDec p) hc nofun
      (Call.silently_run (Machine.modify_apply w _)) rfl rfl
  | setCompareSwap p =>
    exact hw.unseen_travels hplay hm (c := .setCompareSwap p) trivial nofun
      (Call.silently_run (Machine.modify_apply w _)) rfl rfl
  | shutDown => exact shutDown_travels hplay hw hm
  | start => exact start_travels hplay hw hm hc
  | poke a bytes => exact poke_travels hw hc

/-- A program takes its course from a state that is steady once it is written down. -/
theorem marked_run_travels (hE : E.Hands G) (hfollows : E.Follows G play) (hplay : Obeys E play)
    {p : Program} (hp : p.Hands G w) (hw : E.Steady w.marked) :
    E.Travels G ⟨w, []⟩ (p.run E (E.hostOver play)) w [] := by
  have hmark : Program.mark w = .ok () w.marked := rfl
  have hstride : ∀ st, E.Course G ⟨w, st⟩ ⟨w.marked, st⟩ := fun st => .single .marked
  induction p generalizing w with
  | done => exact Travels.of_ok hmark hstride
  | panic message =>
    exact Travels.bind_run hmark (Travels.of_error [] (Machine.throw_apply _ _) hstride)
  | step c next ih =>
    cases hp with
    | step hG hnext =>
      rw [Program.run]
      refine Travels.bind_run hmark (Travels.bind_run (Machine.get_apply _) ?_)
      by_cases hc : c.Permitted E w.marked
      · rw [if_pos hc]
        have hperform := perform_travels hE hfollows hplay hw ⟨w.host, rfl⟩ hc hG
        refine (hperform.head hstride).bind fun a v hrun => ?_
        have hv := ((perform_ends hplay hw ⟨w.host, rfl⟩ hc).post hrun).1
        exact Travels.bind_run (Machine.get_apply v)
          (ih a v (hnext a v) hv rfl fun st => .single .marked)
      · rw [if_neg hc]
        exact Travels.of_ok rfl hstride

/-- So do programs that are called from inside, however deep the calls are nested. -/
theorem follows_host (hE : E.Hands G) (depth : Nat) :
    ∃ play, E.host depth = E.hostOver play ∧ Obeys E play ∧ E.Follows G play := by
  induction depth with
  | zero =>
    refine ⟨_, rfl, obeys_tooDeep, fun _ _ w _ => ?_⟩
    exact Travels.of_error [] (Machine.throw_apply w _) fun _ => .refl
  | succ depth ih =>
    obtain ⟨play, hhost, hplay, hfollows⟩ := ih
    refine ⟨_, rfl, ?_, fun p hp w hw => ?_⟩
    · rw [hhost]
      exact obeys_run hplay
    · refine Travels.bind_run (Machine.get_apply w) ?_
      rw [hhost]
      exact marked_run_travels hE hfollows hplay (hp w) hw.marked.1

/-! ### Sessions -/

end Environment

/-- The state after a fresh start. -/
def World.opening (w : World History) : World History :=
  World.noted { w with bindings := {}, shuttingDown := false, stats := {}, host := [] } .started

/-- Nothing was marked before. -/
lemma World.opening_unmarked (w : World History) {s : Snapshot} {past : History} :
    ¬ .boundary s :: past <:+ w.opening.host := by
  intro h
  have hhost : w.opening.host = [.started] := rfl
  rw [hhost, List.suffix_cons_iff, List.suffix_nil] at h
  rcases h with h | h <;> cases h

namespace Environment

variable {E : Environment} {G : World History → Nat → Prop} {w : World History} {S S' : Stage}

variable (E) in
lemma opening_run (play : (World History → Program) → Machine History Unit) (w : World History) :
    (do start (E.hostOver play); record .started) { w with host := [] } = .ok () w.opening := by
  rw [Machine.bind_apply, start_run]
  exact record_run _ _

/-- A run is steady from its opening on. -/
lemma steady_opening (w : World History) : E.Steady w.opening :=
  ((started_ends Throughout.nil Recalled.nil rfl).post
    (E.opening_run (fun _ => throw .tooDeep) w)).1

/-- **Runs take their course.** Every run from a fresh start leads by a course to the state that is
left of it, whatever way it ends. -/
theorem exists_course (hE : E.Hands G) {p : Program} (hp : p.Hands G w.opening) (depth : Nat) :
    ∃ v st, E.Course G ⟨w.opening, []⟩ ⟨v, st⟩ ∧ E.history depth p w = v.host := by
  obtain ⟨play, hhost, hplay, hfollows⟩ := follows_host hE depth
  have hrun : E.session depth p { w with host := [] } = p.run E (E.hostOver play) w.opening := by
    rw [session, hhost, ← bind_assoc, Machine.bind_apply, opening_run]
  rw [history, hrun]
  cases marked_run_travels hE hfollows hplay hp (steady_opening w).marked.1 with
  | @of_ok a v hok hcourse => exact ⟨v, [], hcourse [], by rw [hok]⟩
  | @of_error e v more herr hcourse => exact ⟨v, more, by simpa using hcourse [], by rw [herr]⟩

/-- Boundaries are written down one at a time, and nothing else is written down with them. -/
lemma Stride.host (h : E.Stride G S S') :
    (S'.world = S.world.marked ∧ S'.unfinished = S.unfinished) ∨
      ∃ new, S'.world.host = new ++ S.world.host ∧ ∀ e ∈ new, ∀ s, e ≠ .boundary s := by
  cases h with
  | marked => exact .inl ⟨rfl, rfl⟩
  | plain hw h =>
    obtain ⟨new, hrecords⟩ := h.events
    refine .inr ⟨new, hrecords.host, fun e he s hs => ?_⟩
    exact (hs ▸ hrecords.plain e he : (Event.boundary s).Plain)
  | boxed hw hc h =>
    obtain ⟨new, hrecords⟩ := h.events
    refine .inr ⟨new, hrecords.host, fun e he s hs => ?_⟩
    exact (hs ▸ hrecords.plain e he : (Event.boundary s).Plain)
  | @refused w v st c hw hc h =>
    obtain ⟨new, hrecords⟩ := h.events
    refine .inr ⟨.closureDropped c :: new, congrArg (_ :: ·) hrecords.host, ?_⟩
    rw [List.forall_mem_cons]
    refine ⟨nofun, fun e he s hs => ?_⟩
    exact (hs ▸ hrecords.plain e he : (Event.boundary s).Plain)
  | @called w w' st b e hw hm hb hup hbegins he =>
    obtain ⟨e', he', hhost⟩ := hbegins.host
    refine .inr ⟨[e, e'], congrArg (e :: ·) hhost, ?_⟩
    simp only [List.forall_mem_cons, List.not_mem_nil, false_imp_iff, implies_true, and_true]
    refine ⟨fun s hs => ?_, ?_⟩
    · subst hs
      exact he
    · rcases he' with rfl | rfl <;> exact nofun
  | dropped hw => exact .inr ⟨[_], rfl, by simp⟩
  | @ended w st b hw hb =>
    obtain ⟨-, gone, hhost, hgone⟩ := completed_host (E := E) (w.memory.header b) w
    refine .inr ⟨.takenBack ((ledger w.host).source b) b :: gone, congrArg (_ :: ·) hhost, ?_⟩
    rw [List.forall_mem_cons]
    refine ⟨nofun, fun e he s hs => ?_⟩
    obtain ⟨-, -, s', he'⟩ := hgone e he
    cases hs.symm.trans he'

/-- A stride adds to what is written down. -/
lemma Stride.grows (h : E.Stride G S S') : ∃ new, S'.world.host = new ++ S.world.host := by
  obtain ⟨hworld, -⟩ | ⟨new, hhost, -⟩ := h.host
  · exact ⟨[.boundary S.world.snapshot], by rw [hworld]; rfl⟩
  · exact ⟨new, hhost⟩

/-- A course only ever adds to the history. -/
lemma Course.grows (h : E.Course G S S') : ∃ new, S'.world.host = new ++ S.world.host := by
  induction h with
  | refl => exact ⟨[], rfl⟩
  | tail _ hstride ih =>
    obtain ⟨new, hhost⟩ := ih
    obtain ⟨new', hhost'⟩ := hstride.grows
    exact ⟨new' ++ new, by rw [hhost', hhost, List.append_assoc]⟩

/-- A course leads through every boundary that is written down by it. -/
theorem Course.through (h : E.Course G S S') {s : Snapshot} {past : History}
    (hs : .boundary s :: past <:+ S'.world.host) :
    .boundary s :: past <:+ S.world.host ∨
      ∃ st, E.Course G S ⟨s.resume past, st⟩ ∧ E.Course G ⟨s.resume past, st⟩ S' := by
  induction h with
  | refl => exact .inl hs
  | @tail Y Z hY hstride ih =>
    have hbefore : .boundary s :: past <:+ Y.world.host →
        .boundary s :: past <:+ S.world.host ∨
          ∃ st, E.Course G S ⟨s.resume past, st⟩ ∧ E.Course G ⟨s.resume past, st⟩ Z := fun hY' =>
      (ih hY').imp_right fun ⟨st, hto, hfrom⟩ => ⟨st, hto, hfrom.tail hstride⟩
    obtain ⟨hworld, -⟩ | ⟨new, hhost, hnew⟩ := hstride.host
    · have hcons : Z.world.host = .boundary Y.world.snapshot :: Y.world.host := by rw [hworld]; rfl
      rw [hcons] at hs
      rcases List.suffix_cons_iff.1 hs with heq | hs
      · obtain ⟨hhead, htail⟩ := List.cons.inj heq
        obtain rfl := Event.boundary.inj hhead
        have hZ : Z = ⟨World.resume Y.world.snapshot past, Z.unfinished⟩ := by
          rw [htail]
          cases Z
          exact congrArg (Stage.mk · _) hworld
        rw [hZ] at hstride
        exact .inr ⟨Z.unfinished, hY.tail hstride, hZ ▸ .refl⟩
      · exact hbefore hs
    · refine hbefore ?_
      rw [hhost] at hs
      clear hhost
      induction new with
      | nil => exact hs
      | cons e new ih' =>
        rcases List.suffix_cons_iff.1 hs with heq | hs
        · exact absurd (List.cons.inj heq).1.symm (hnew e List.mem_cons_self s)
        · exact ih' hs fun e he => hnew e (List.mem_cons_of_mem _ he)

/-- So does every course through the boundaries that were written down after it began. -/
lemma Course.onward (h : E.Course G S S') {s : Snapshot} {new : List Event}
    (hs : .boundary s :: new ++ S.world.host <:+ S'.world.host) :
    ∃ st, E.Course G S ⟨s.resume (new ++ S.world.host), st⟩ ∧
      E.Course G ⟨s.resume (new ++ S.world.host), st⟩ S' := by
  refine (h.through hs).resolve_left fun hbefore => ?_
  have hlength : (new ++ S.world.host).length + 1 ≤ S.world.host.length := hbefore.length_le
  rw [List.length_append] at hlength
  omega

end Environment

end CountedHeap
