/-
Closures are consumed once

A closure that comes with a request is called once, in the end of its handle, and dropped after the
call; or it is dropped at once, if the request is not met; or it is left behind, if its handle ends
without a call. None of this happens twice, and nothing else happens.

* `Taken`: a request with a closure, and where the closure is afterwards;
* `Consumed`: the end of a handle that calls its closure;
* `LeftBehind`: the ends that do not;
* `Entrusted`: a closure and its handle, as long as the handle is there;
* `closures_consumed_once`: so it is throughout every run.
-/
import CountedHeap.Proofs.Boxing
import CountedHeap.Proofs.Hosts
import CountedHeap.Ref

namespace CountedHeap

/-! ### What is told afterwards -/

section Telling

variable {c : Nat} {data : Addr} {size : Word} {new H : History}

/-- Once a closure was dropped, nothing more is told of it. -/
lemma untold_after_drop (h : Throughout Event.OnlyOnce (new ++ .closureDropped c :: H)) :
    Untold c new ∧ Event.closureDropped c ∉ H := by
  induction new with
  | nil => exact ⟨nofun, (Throughout.cons_iff.1 h).1⟩
  | cons e new ih =>
    obtain ⟨he, hrest⟩ := Throughout.cons_iff.1 h
    have hin : Event.closureDropped c ∈ new ++ .closureDropped c :: H := by simp
    obtain ⟨hnew, hH⟩ := ih hrest
    refine ⟨List.forall_mem_cons.2 ⟨fun htells => ?_, hnew⟩, hH⟩
    cases e with
    | closure k data size => exact he _ hin (Eq.symm htells)
    | closureDropped k => exact he (htells ▸ hin)
    | _ => exact htells

/-- Once it was called, nothing is told of it until it is dropped, and nothing had been before. -/
lemma untold_after_call (h : Throughout Event.OnlyOnce (new ++ .closure c data size :: H))
    (hnew : Event.closureDropped c ∉ new) : Untold c new ∧ Untold c H := by
  induction new with
  | nil => exact ⟨nofun, (Throughout.cons_iff.1 h).1⟩
  | cons e new ih =>
    obtain ⟨he, hrest⟩ := Throughout.cons_iff.1 h
    have hin : Event.closure c data size ∈ new ++ .closure c data size :: H := by simp
    obtain ⟨hnew', hH⟩ := ih hrest fun h => hnew (List.mem_cons_of_mem _ h)
    refine ⟨List.forall_mem_cons.2 ⟨fun htells => ?_, hnew'⟩, hH⟩
    cases e with
    | closure k data size => exact he _ hin (Eq.symm htells)
    | closureDropped k => exact hnew (List.mem_cons.2 (.inl (htells ▸ rfl)))
    | _ => exact htells

/-- Nothing else is told of a closure that was called and dropped. -/
lemma untold_apart (after : History) {during : History}
    (h : Throughout Event.OnlyOnce
      (after ++ .closureDropped c :: (during ++ .closure c data size :: H))) :
    Untold c after ∧ Untold c during ∧ Untold c H := by
  obtain ⟨hafter, hbefore⟩ := untold_after_drop h
  have hrest : Throughout Event.OnlyOnce (during ++ .closure c data size :: H) :=
    h.suffix ((List.suffix_cons _ _).trans (List.suffix_append _ _))
  exact ⟨hafter, untold_after_call hrest fun hin => hbefore (List.mem_append_left _ hin)⟩

end Telling

/-! ### Requests with a closure -/

/-- A request for `n` bytes with the closure `c`, and the same on behalf of an owner. If there is a
handle to be had, it has the closure in its box, and nothing was told of it. If there is none, the
closure is out of its box again and is dropped; and once this is over nobody has it. -/
def Taken (E : Environment) (depth : Nat) (n : Word) (c : Nat) (w : World History) : Prop :=
  (∃ b u, ((Request.allocClosure n c).make (E.host depth)).run w = .ok (.ok b) u ∧
    (Ref.ofNew ((Request.allocClosure n c).make (E.host depth))).run w = .ok (.ok ⟨b⟩) u ∧
    ∃ v a, ((Call.make (.allocClosure n c)).perform (E.host depth)).run w = .ok (.ok b) v ∧
      Bears v b a ∧ v.boxes.find? a = some c ∧ Untold c v.host) ∨
  ∃ e u, ((Request.allocClosure n c).make (E.host depth)).run w =
      (do (E.host depth).dropClosure c; return .error e : Machine _ _) u ∧
    (Ref.ofNew ((Request.allocClosure n c).make (E.host depth))).run w =
      (do (E.host depth).dropClosure c; return .error e : Machine _ _) u ∧
    (∀ a, u.boxes.find? a ≠ some c) ∧ Untold c u.host ∧
    ∀ x v, ((Call.make (.allocClosure n c)).perform (E.host depth)).run w = .ok x v →
      x = .error e ∧ (∀ a, v.boxes.find? a ≠ some c) ∧
        ∃ new, v.host = new ++ .closureDropped c :: u.host ∧ Untold c new

/-! ### Handles that end -/

/-- The handle `b` in the state `w`, in whose box at `a` is the closure `c`, comes to its end by the
operation `x`, which had told so by the event `e`. The closure is taken out of its box, called with
the payload of the handle and its size, and dropped, which no panic gets past, and then the storage
goes. If this comes to an end, nothing else was told of the closure, and nobody has it. -/
structure Consumed (E : Environment) (depth : Nat) (b : Handle) (a : Addr) (c : Nat)
    (w w' : World History) (x : Machine History Unit) : Prop where
  course : x w' = (do
    Machine.withoutUnwinding do
      (E.host depth).closure c (w.memory.header b).payload (w.memory.header b).size
      (E.host depth).dropClosure c
    Handle.destroy (E.host depth) b) { w' with boxes := w.boxes.erase a }
  once : ∀ v, x w' = .ok () v → (∀ a', v.boxes.find? a' ≠ some c) ∧ ∃ s after during,
    v.host = .takenBack s b :: (after ++ .closureDropped c :: (during ++
      .closure c (w.memory.header b).payload (w.memory.header b).size :: w'.host)) ∧
    Untold c after ∧ Untold c during ∧ Untold c w'.host

/-- The handle `b`, in whose box at `a` is the closure `c`, comes to its end by the step `k`, and
nobody is called. The closure stays where it is, and no handle knows of it any more. -/
def LeftBehind (E : Environment) (depth : Nat) (b : Handle) (a : Addr) (c : Nat)
    (w : World History) (k : Call) : Prop :=
  ∃ v, (k.perform (E.host depth)).run w = .ok (.ok 0) v ∧ b ∉ (ledger v.host).handles ∧
    Forgotten v a c ∧ ∃ new, v.host = new ++ w.host ∧ Silent new

/-! ### Owners -/

section Owners

variable {σ : Type} {x : Attempt σ Handle} {w v : World σ}

/-- The owner of a new handle has its first reference. -/
lemma Ref.ofNew_run_ok {b : Handle} (h : x.run w = .ok (.ok b) v) :
    (Ref.ofNew x).run w = .ok (.ok ⟨b⟩) v := by
  rw [Ref.ofNew, map_eq_pure_bind, Attempt.bind_apply, h]
  rfl

/-- Where there is no handle, there is no owner. -/
lemma Ref.ofNew_run_error {e : AllocError} {z : Machine σ Unit}
    (h : x.run w = (do z; return .error e : Machine σ (Except AllocError Handle)) v) :
    (Ref.ofNew x).run w = (do z; return .error e : Machine σ (Except AllocError Ref)) v := by
  rw [Ref.ofNew, map_eq_pure_bind, Attempt.bind_apply, h, Machine.bind_apply, Machine.bind_apply]
  cases z v <;> rfl

end Owners

namespace Environment

variable {E : Environment} {w w' v : World History} {st : List Unfinished} {b : Handle} {a : Addr}
  {c : Nat}

/-! ### What becomes of closures -/

/-- What was told of is in no box any more. -/
lemma unboxed_of_told (h : Consigned ⟨w, st⟩) (hc : ¬ Untold c w.host) (a : Addr) :
    w.boxes.find? a ≠ some c := fun ha => hc (h.untold a c ha)

lemma Steady.taken (hE : E.Hands Unheard) (hw : E.Steady w) (hm : Marked w)
    (hcons : Consigned ⟨w, st⟩) (hc : Unheard w c) (depth : Nat) (n : Word) :
    Taken E depth n c w := by
  obtain ⟨play, hhost, hplay, hfollows⟩ := follows_host hE depth
  rw [Taken, hhost]
  have hmet : E.MetOrNot (E.hostOver play) (.allocClosure n c) w := make_metOrNot hw _
  obtain ⟨b, u, hrun, hbuilt⟩ | ⟨e, u, hreach, hunmet, hrun⟩ := hmet
  · have hboxed := built_boxed hplay hw hm hrun hbuilt
    obtain ⟨new, hrecords⟩ := hboxed.events
    refine .inl ⟨b, u, hrun, Ref.ofNew_run_ok hrun, u.noted (.madeIn u.memory b true),
      (w.boxes.make c).1, made_run_ok hrun, hboxed.bears, ?_, ?_⟩
    · rw [hboxed.boxes]
      exact Boxes.find?_make _ c
    · rw [hrecords.host]
      exact (Silent.of_plain hrecords.plain).untold_iff.2 hc.untold
  · have hplainly := hw.unmet_plainly hreach hunmet
    rw [hunmet.boxes] at hplainly
    have hleaves := leaves_refused hc hplainly
    have huntold : Untold c u.host := by
      obtain ⟨new, hgrown, hsilent⟩ := hleaves.host
      rw [hgrown]
      exact hsilent.untold_iff.2 hc.untold
    refine .inr ⟨e, u, hrun, Ref.ofNew_run_error hrun, fun a => ?_, huntold, fun x v hx => ?_⟩
    · rw [hleaves.boxes]
      exact hc.unboxed a
    · have htravels := make_travels hE hfollows hplay hw hm (r := .allocClosure n c) trivial
        fun c' hc' => Option.some.inj hc' ▸ hc
      have hv : Consigned ⟨v, st⟩ := Course.consigned (htravels.ok hx st) hcons
      obtain ⟨rfl, hdrop⟩ : x = .error e ∧ (E.hostOver play).dropClosure c u = .ok () v := by
        have hgive : (Request.allocClosure n c).giveUp (E.hostOver play) =
            (E.hostOver play).dropClosure c := rfl
        rw [Call.perform, Attempt.bind_apply, hrun, Machine.bind_apply, hgive] at hx
        cases hd : (E.hostOver play).dropClosure c u with
        | ok _ v' =>
          rw [hd] at hx
          have hx' : EStateM.Result.ok (.error e) v' = .ok x v := hx
          obtain ⟨rfl, rfl⟩ := EStateM.Result.ok.inj hx'
          exact ⟨rfl, rfl⟩
        | error f v' =>
          rw [hd] at hx
          have hx' : EStateM.Result.error f v' = .ok x v := hx
          cases hx'
      have hnoted : E.Reaches u (u.noted (.closureDropped c)) := hreach.1.noted rfl trivial trivial
      have hcourse := (hfollows (E.dropClosure c) (hE (.closureDropped c)) _ hnoted.1).ok hdrop []
      obtain ⟨new, hgrown⟩ := Course.grows hcourse
      have hgrown' : v.host = new ++ .closureDropped c :: u.host := hgrown
      have honce := hv.once
      rw [hgrown'] at honce
      refine ⟨rfl, unboxed_of_told hv fun hall => ?_, new, hgrown', (untold_after_drop honce).1⟩
      rw [hgrown'] at hall
      exact hall (.closureDropped c) (by simp) rfl

/-- The end of a handle with a closure in its box: the closure is taken out and called. -/
lemma Steady.consumed_course (hw : E.Steady w) (hb : (ledger w.host).Sole b)
    (hbears : Bears w b a) (hfind : w.boxes.find? a = some c) (hup : w.shuttingDown = false)
    (hbegins : Begins w b w') (depth : Nat) :
    Handle.callDestructor (E.host depth) b w' = (do
      Machine.withoutUnwinding do
        (E.host depth).closure c (w.memory.header b).payload (w.memory.header b).size
        (E.host depth).dropClosure c
      Handle.destroy (E.host depth) b) { w' with boxes := w.boxes.erase a } := by
  obtain ⟨play, hhost, -⟩ := E.obeys_host depth
  obtain ⟨n, hheader⟩ := hbegins.header hw hb.1
  obtain ⟨hboxes, hdown, -⟩ := hbegins.kept
  rw [hup] at hdown
  have hunbox : (Handle.unboxClosure a : Machine History (Option Nat)) w' =
      .ok (some c) { w' with boxes := w.boxes.erase a } := by
    rw [Handle.unboxClosure, Machine.modifyGet_apply, hboxes, hfind]
  have hdue : (w'.memory.header b).destructor ≠ 0 ∧ ¬ w'.shuttingDown := by
    rw [hheader, hdown, hbears.boxed]
    exact ⟨Adapter.addr_ne_zero _, Bool.false_ne_true⟩
  rw [hhost, callDestructor_run, if_pos hdue, hheader, callDestructorAt, hbears.boxed,
    Adapter.ofAddr?_addr, hbears.info, Machine.bind_apply, Machine.bind_apply]
  have hrun : Adapter.run (E.hostOver play) .boxed (w.memory.header b).payload
      (w.memory.header b).size a w' = (do
        (E.hostOver play).closure c (w.memory.header b).payload (w.memory.header b).size
        (E.hostOver play).dropClosure c) { w' with boxes := w.boxes.erase a } := by
    rw [Adapter.run, Machine.bind_apply, hunbox]
  rw [Machine.withoutUnwinding_congr hrun]

lemma Steady.consumed (hE : E.Hands Unheard) (hw : E.Steady w) (hm : Marked w)
    (hcons : Consigned ⟨w, st⟩) (hb : (ledger w.host).Sole b) (hbears : Bears w b a)
    (hfind : w.boxes.find? a = some c) (hup : w.shuttingDown = false) (hbegins : Begins w b w')
    (depth : Nat) :
    Consumed E depth b a c w w' (Handle.callDestructor (E.host depth) b) := by
  have hcourse := hw.consumed_course hb hbears hfind hup hbegins depth
  refine ⟨hcourse, fun v hrun => ?_⟩
  obtain ⟨play, hhost, hplay, hfollows⟩ := follows_host hE depth
  obtain ⟨n, hheader⟩ := hbegins.header hw hb.1
  obtain ⟨⟨hw', -⟩, hdying, -⟩ := hbegins.steady hw hb
  set data := (w.memory.header b).payload with hdata
  set size := (w.memory.header b).size with hsize
  -- The law of closures holds of the end.
  have hv : Consigned ⟨v, st⟩ := by
    rw [hhost] at hrun
    have htravels := callDestructor_travels hE hfollows hplay hw hm hb hbegins fun _ =>
      Begins.reaches hbegins hplay hw hm hb
    exact Course.consigned (htravels.ok hrun st) hcons
  rw [hcourse, hhost] at hrun
  obtain ⟨⟨⟩, u', hbarred, hdestroy⟩ := Machine.exists_of_bind hrun
  obtain ⟨⟨⟩, u, hcall, hdrop⟩ :=
    Machine.exists_of_bind (Machine.withoutUnwinding_eq_ok.1 hbarred)
  -- The closure is called.
  have hempty := hw'.withBoxes (w.boxes.erase a)
  have hlaw : E.Lawful (.closure c data size) w'.host := by
    refine lawful_of_begun (hbegins.begun hw hm hb hup) ?_
    rw [hheader, hbegins.kept.1]
    exact ⟨hbears.boxed, hbears.info ▸ hfind, rfl, rfl⟩
  have hcalled := hempty.trans (hempty.1.noted (e := .closure c data size) rfl trivial hlaw)
  obtain ⟨during, hduring⟩ := Course.grows
    ((hfollows (E.closure c data size) (hE (.closure c data size)) _ hcalled.1).ok hcall [])
  have hu : E.Reaches w' u := hempty.trans ((closure_ends hplay hempty.1 hlaw).post hcall)
  -- It is dropped.
  have hdropped : E.Reaches u (u.noted (.closureDropped c)) := hu.1.noted rfl trivial trivial
  obtain ⟨after, hafter⟩ := Course.grows
    ((hfollows (E.dropClosure c) (hE (.closureDropped c)) _ hdropped.1).ok hdrop [])
  have hu' : E.Reaches w' u' := hu.trans ((dropClosure_ends play hplay hu.1 c).post hdrop)
  -- And the storage goes.
  obtain ⟨hdying', -⟩ := hu'.2 b hdying
  have hgone : Handle.destroy (E.hostOver play) b u' = _ := hu'.1.destroy_of hdying'.1 rfl rfl
  rw [hgone] at hdestroy
  obtain ⟨-, hend⟩ := EStateM.Result.ok.inj hdestroy
  have hduring' : u.host = during ++ .closure c data size :: w'.host := hduring
  have hafter' : u'.host = after ++ .closureDropped c :: u.host := hafter
  obtain ⟨s, hgrown⟩ : ∃ s, v.host = .takenBack s b :: u'.host := ⟨_, by rw [← hend]; rfl⟩
  rw [hafter', hduring'] at hgrown
  have honce := hv.once
  rw [hgrown] at honce
  obtain ⟨hafterwards, hbetween, hbefore⟩ :=
    untold_apart (.takenBack s b :: after) honce
  refine ⟨unboxed_of_told hv fun hall => ?_, s, after, during, hgrown,
    (List.forall_mem_cons.1 hafterwards).2, hbetween, hbefore⟩
  rw [hgrown] at hall
  exact hall (.closureDropped c) (by simp) rfl

/-! ### Closures that are left behind -/

lemma left_behind (hcons : Consigned ⟨w, st⟩) (hbears : Bears w b a)
    (hfind : w.boxes.find? a = some c) {depth : Nat} {k : Call}
    (hrun : (k.perform (E.host depth)).run w = .ok (.ok 0) v) (h : Plainly w v)
    (hgone : b ∉ (ledger v.host).handles) : LeftBehind E depth b a c w k := by
  refine ⟨v, hrun, hgone, ⟨by rw [h.boxes, hfind], fun b' hb' => ?_⟩, h.leaves.host⟩
  obtain rfl : b' = b := hcons.single b' b a (h.bears b' a hb') hbears
  exact hgone hb'.live.1

/-- After shutdown, the end of a handle calls nobody. -/
lemma Steady.left_behind_muted (hw : E.Steady w) (hm : Marked w) (hcons : Consigned ⟨w, st⟩)
    (hb : (ledger w.host).Sole b) (hbears : Bears w b a) (hfind : w.boxes.find? a = some c)
    (hdown : w.shuttingDown = true) {depth : Nat} {k : Call}
    (hk : k = .release b ∨ k = .drop (.ofHandle b) ∨ k = .callDestructor b) :
    LeftBehind E depth b a c w k := by
  obtain ⟨play, hhost, hplay⟩ := E.obeys_host depth
  have hmuted := hw.muted hb hdown
  obtain ⟨w', hbegins, hrun⟩ : ∃ w', Begins w b w' ∧ (k.perform (E.host depth)).run w =
      .ok (.ok 0) (E.destroyed ((ledger w.host).source b) b w') := by
    obtain rfl | rfl | rfl := hk
    · refine ⟨_, .released, Call.silently_run ?_⟩
      rw [Machine.bind_apply, record_run]
      exact hmuted.release depth
    · refine ⟨_, .released, Call.silently_run ?_⟩
      rw [Machine.bind_apply, record_run]
      exact hmuted.drop depth
    · refine ⟨_, .ending, Call.silently_run ?_⟩
      rw [Machine.bind_apply, record_run]
      exact hmuted.callDestructor depth
  have hpermitted : k.Permitted E w := by
    obtain rfl | rfl | rfl := hk
    · exact hb.live
    · exact hb.live
    · exact hb
  have hpoke : ∀ x bytes, k ≠ .poke x bytes := by
    obtain rfl | rfl | rfl := hk <;> nofun
  have hreach := (operation_ends hplay hw hm hpermitted hpoke).post (hhost ▸ hrun)
  exact left_behind hcons hbears hfind hrun
    (hw.plainly_ended hm hb hbegins w' rfl [] rfl (by simp) hreach) (Finset.notMem_erase b _)

/-- A handle that is ended without its destructor leaves its closure behind. -/
lemma Steady.left_behind_ended (hw : E.Steady w) (hm : Marked w) (hcons : Consigned ⟨w, st⟩)
    (hb : (ledger w.host).Sole b) (hbears : Bears w b a) (hfind : w.boxes.find? a = some c)
    {depth : Nat} {k : Call} (hk : k = .destroy b ∨ k = .dealloc b) :
    LeftBehind E depth b a c w k := by
  obtain ⟨play, hhost, hplay⟩ := E.obeys_host depth
  obtain ⟨v, hrun, hplainly, hgone⟩ : ∃ v,
      (k.perform (E.hostOver play)).run w = .ok (.ok 0) v ∧ Plainly w v ∧
        b ∉ (ledger v.host).handles := by
    obtain rfl | rfl := hk
    · exact destroy_plainly hplay hw hm hb
    · exact dealloc_plainly hplay hw hm hb
  exact left_behind hcons hbears hfind (hhost ▸ hrun) hplainly hgone

end Environment

/-! ### Throughout a run -/

/-- The closure `c` of the handle `b` in the state `w`, in whose info word is the box at `a`, in a
run that ends up with the history `H`. Nothing was told of the closure; and as long as somebody has
a reference to the handle, the handle has the box and the closure is in it. The last release calls
it, and so does the end by hand; after shutdown they leave it behind, and so does always an end
without a destructor. -/
structure Entrusted (E : Environment) (b : Handle) (a : Addr) (c : Nat) (w : World History)
    (H : History) : Prop where
  untold : Untold c w.host
  stays : ∀ s new, .boundary s :: new ++ w.host <:+ H → (∀ e ∈ new, ¬ e.Makes b) →
    (ledger (new ++ w.host)).Live b →
      Bears (s.resume (new ++ w.host)) b a ∧ s.boxes.find? a = some c
  called : (ledger w.host).Sole b → w.shuttingDown = false → ∀ depth,
    Handle.release (E.host depth) b (w.noted (.released b)) =
      Handle.callDestructor (E.host depth) b ((w.noted (.released b)).withCount b 0) ∧
    ∀ w', Begins w b w' →
      Consumed E depth b a c w w' (Handle.callDestructor (E.host depth) b)
  muted : (ledger w.host).Sole b → w.shuttingDown = true → ∀ depth k,
    k = .release b ∨ k = .drop (.ofHandle b) ∨ k = .callDestructor b →
      LeftBehind E depth b a c w k
  ended : (ledger w.host).Sole b → ∀ depth k, k = .destroy b ∨ k = .dealloc b →
    LeftBehind E depth b a c w k

/-- What becomes of closures in the state `w`, in a run that ends up with the history `H`. -/
structure Consigns (E : Environment) (w : World History) (H : History) : Prop where
  taken : ∀ n c, Unheard w c → ∀ depth, Taken E depth n c w
  borne : ∀ b a, Bears w b a → ∃ c, w.boxes.find? a = some c ∧ Entrusted E b a c w H
  forgotten : ∀ a c, Forgotten w a c → Untold c H

namespace Environment

variable {E : Environment} {w : World History} {st : List Unfinished} {S : Stage}

/-- Where closures are where they should be, everything else about them follows. -/
lemma Steady.consigns (hE : E.Hands Unheard) (hw : E.Steady w) (hm : Marked w)
    (hcons : Consigned ⟨w, st⟩) (hcourse : E.Course Unheard ⟨w, st⟩ S)
    (hlaw : Throughout E.Lawful S.world.host) : Consigns E w S.world.host := by
  refine ⟨fun n c hc depth => hw.taken hE hm hcons hc depth n, fun b a hbears => ?_,
    fun a c hf => Course.forgotten hcourse hcons hf⟩
  obtain ⟨c, hfind⟩ := hcons.borne b a hbears
  refine ⟨c, hfind, hcons.untold a c hfind, fun s new hs hno hlive => ?_,
    fun hb hup depth => ⟨?_, fun w' hbegins =>
      hw.consumed hE hm hcons hb hbears hfind hup hbegins depth⟩,
    fun hb hdown depth k hk => hw.left_behind_muted hm hcons hb hbears hfind hdown hk,
    fun hb depth k hk => hw.left_behind_ended hm hcons hb hbears hfind hk⟩
  · obtain ⟨hw', -⟩ := steady_of_boundary (hlaw.suffix hs)
    obtain ⟨before, hbefore⟩ := hm
    have hseen : Seen b (w.memory.header b) w.host := by
      have hmem := hbears.live.1
      rw [hbefore] at hmem ⊢
      exact .inl ⟨hmem, rfl⟩
    have hno' : ∀ e ∈ Event.boundary s :: new, ¬ e.Makes b :=
      List.forall_mem_cons.2 ⟨not_false, hno⟩
    have hendures := hw'.recalled.seen b _ ((mem_handles_of_append hno' hlive.1).2 _ hseen)
    have hbears' : Bears (s.resume (new ++ w.host)) b a :=
      ⟨hlive, hendures.destructor.trans hbears.boxed, hendures.info.trans hbears.info⟩
    obtain ⟨st', hto, -⟩ := Course.onward hcourse hs
    obtain ⟨new', hgrown, hkept⟩ := Course.find? hto hcons
    obtain rfl : .boundary s :: new = new' := List.append_cancel_right hgrown
    exact ⟨hbears', (hkept hno' hbears').2.trans hfind⟩
  · obtain ⟨play, hhost, -⟩ := E.obeys_host depth
    rw [hhost]
    exact hw.release_last hb

end Environment

/-- Where there are no boxes and no handles, all closures are where they should be. -/
lemma consigned_opening {w : World History} (hw : w.boxes.live = []) :
    Consigned ⟨w.opening, []⟩ := by
  have hnone : ∀ a, w.opening.boxes.find? a = none := fun a => by
    show List.lookup a w.boxes.live = none
    rw [hw]
    rfl
  have hbears : ∀ b a, ¬ Bears w.opening b a := fun b a hb => Finset.notMem_empty b hb.live.1
  refine ⟨Throughout.cons_iff.2 ⟨trivial, Throughout.nil⟩, fun a _ c ha => ?_, fun a c ha => ?_,
    nofun, List.nodup_nil, fun b a hb => (hbears b a hb).elim,
    fun b _ a hb => (hbears b a hb).elim⟩
  · exact absurd ((hnone a).symm.trans ha) nofun
  · exact absurd ((hnone a).symm.trans ha) nofun

/-- **Closures are consumed once.** In every run in which nobody hands over a closure that somebody
has heard of, a closure is told of as it should be: it is called before it is dropped, and neither
happens twice. It is called for the handle that has just lost its only reference before shutdown,
or was ended by hand, with the payload and the size of this handle, whose storage is still there.
And at every boundary it is known what becomes of every closure. -/
theorem closures_consumed_once (E : Environment) (hE : E.Hands Unheard) (p : Program)
    (w : World History) (hp : p.Hands Unheard w.opening) (hw : w.boxes.live = []) (depth : Nat) :
    Throughout (fun e past => e.OnlyOnce past ∧
      (∀ c data size, e = .closure c data size → ∃ b d s, Due b d s past ∧
        d.CallsFor s.boxes e ∧ b ∈ (ledger past).blocks) ∧
      ∀ s, e = .boundary s → Consigns E (s.resume past) (E.history depth p w))
      (E.history depth p w) := by
  obtain ⟨v, st, hcourse, hhost⟩ := Environment.exists_course hE hp depth
  have hstart := consigned_opening hw
  have hlawful := E.lawful_history depth p w
  rw [hhost] at hlawful ⊢
  intro e past hsuffix
  have hlaw := hlawful.suffix hsuffix
  refine ⟨(Environment.Course.consigned hcourse hstart).once e past hsuffix, ?_, ?_⟩
  · rintro c data size rfl
    obtain ⟨⟨b, d, s, hdue, hcalls⟩, hpast⟩ := Throughout.cons_iff.1 hlaw
    refine ⟨b, d, s, hdue, hcalls, ?_⟩
    obtain ⟨e', before, rfl, he', hb, -, -⟩ := hdue
    obtain ⟨hw', -⟩ := Environment.steady_of_boundary (Throughout.cons_iff.1 hpast).2
    have hout : b ∈ (ledger before).blocks := hw'.mem_blocks hb.1
    rcases he' with rfl | rfl <;> exact hout
  · rintro s rfl
    obtain ⟨hw, hm⟩ := Environment.steady_of_boundary hlaw
    obtain hopening | ⟨st', hto, hfrom⟩ := hcourse.through hsuffix
    · exact absurd hopening w.opening_unmarked
    · exact hw.consigns hE hm (Environment.Course.consigned hto hstart) hfrom hlawful

/-! ### A handle with a closure -/

/-- A handle with a closure is made, and its reference is given up. -/
def Program.enclosing : Program :=
  .step (.make (.allocClosure 8 7)) fun
    | .ok b, _ => .step (.release b) fun _ _ => .done
    | .error _, _ => .done

lemma Program.enclosing_hands : enclosing.Hands Unheard (World.opening { host := [] }) := by
  refine .step (fun c hc => ?_) fun a w' => ?_
  · obtain rfl : 7 = c := Option.some.inj hc
    exact ⟨nofun, by simp [Untold, World.marked, World.noted, World.opening, Event.Tells],
      by decide⟩
  · cases a with
    | ok b => exact .step (fun c hc => absurd hc (Option.some_ne_none c).symm) fun _ _ => .done
    | error e => exact .done

/-- When the reference is given up, it is the only one, and the closure is in its box. -/
theorem closures_consumed_once_enclosing :
    Environment.unbounded.Hands Unheard ∧
    Program.enclosing.Hands Unheard (World.opening { host := [] }) ∧
    ∃ s past b a, .boundary s :: past <:+
        Environment.unbounded.history 1 .enclosing { host := [] } ∧
      (ledger past).Sole b ∧ s.shuttingDown = false ∧ Bears (s.resume past) b a ∧
      Entrusted .unbounded b a 7 (s.resume past)
        (Environment.unbounded.history 1 .enclosing { host := [] }) := by
  have hE : Environment.unbounded.Hands Unheard := fun e w => by cases e <;> exact .done
  refine ⟨hE, Program.enclosing_hands, ?_⟩
  have hsome : ((Environment.unbounded.history 1 .enclosing { host := [] }).tails.any fun H =>
      (lastBoundary H).any fun r => decide ((ledger r.2).Sole 4096 ∧ r.1.shuttingDown = false ∧
        (r.1.memory.header 4096).destructor = Adapter.boxed.addr ∧
        r.1.boxes.find? (r.1.memory.header 4096).info = some 7)) = true := by
    decide +kernel
  obtain ⟨H, hH, hlast⟩ := List.any_eq_true.1 hsome
  obtain ⟨s, past, rfl, hholds⟩ := exists_lastBoundary hlast
  obtain ⟨hsole, hup, hboxed, hfind⟩ := of_decide_eq_true hholds
  have hsuffix := (List.mem_tails _ _).1 hH
  have hbears : Bears (s.resume past) 4096 (s.memory.header 4096).info := ⟨hsole.live, hboxed, rfl⟩
  obtain ⟨-, -, hconsigns⟩ := closures_consumed_once .unbounded hE .enclosing { host := [] }
    Program.enclosing_hands rfl 1 _ past hsuffix
  obtain ⟨c, hc, hentrusted⟩ := (hconsigns s rfl).borne 4096 _ hbears
  obtain rfl : 7 = c := Option.some.inj (hfind.symm.trans hc)
  exact ⟨s, past, 4096, _, hsuffix, hsole, hup, hbears, hentrusted⟩

end CountedHeap
