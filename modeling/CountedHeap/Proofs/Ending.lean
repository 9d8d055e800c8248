/-
The end of a handle

When the only reference of a handle is given up, its destructor may run, and that is a program of
its own: it makes handles, frees blocks, ends other handles, and may even shut the runtime down. All
that is known of it is that it keeps states steady and leaves the dying handle alone, and that is
enough for the storage to go where it came from.

* `Begun`: the end of a handle has begun, and nothing has been called yet;
* `Environment.callDestructorAt_ends`: every destructor but that of resizable handles;
* `Environment.callDestructor_ends`: destructor and storage;
* `Environment.acquire_ends`, `Environment.release_ends`: references taken and given up.
-/
import CountedHeap.Proofs.Making

namespace CountedHeap

open Memory (AgreeOn Apart)

/-- The end of `b` has begun, with the header that it still has but for the count, and nothing has
been called yet. -/
def Begun (b : Handle) (w : World History) : Prop :=
  ∃ d s v, Due b d s w.host ∧ s.boxes = w.boxes ∧ w.memory.header b = { d with refcount := v }

lemma Adapter.eq_of_ofAddr? {fn : Addr} {a : Adapter} (h : Adapter.ofAddr? fn = some a) :
    fn = a.addr := by
  have ha := List.find?_some h
  exact (of_decide_eq_true ha).symm

namespace Environment

variable {E : Environment} {w : World History} {b : Handle}
  (play : (World History → Program) → Machine History Unit)

/-! ### Calls of the end of a handle -/

/-- Whatever the header calls for is lawful as the first thing that happens. -/
lemma lawful_of_begun {e : Event} (h : Begun b w)
    (he : (w.memory.header b).CallsFor w.boxes e) : E.Lawful e w.host := by
  obtain ⟨d, s, v, hdue, hboxes, hheader⟩ := h
  rw [hheader, ← hboxes] at he
  cases e with
  | destructor fn data size info => exact ⟨b, d, s, hdue, he⟩
  | finalizer fn data => exact ⟨b, d, s, hdue, he⟩
  | closure c data size => exact ⟨b, d, s, hdue, he⟩
  | _ => exact he.elim

/-- A program that is called from inside, after a line in the history. -/
lemma callback_ends (hplay : Obeys E play) (hw : E.Steady w) {e : Event}
    (he : (ledger w.host).after e = ledger w.host) (hquiet : e.Quiet) (hlaw : E.Lawful e w.host)
    (p : World History → Program) :
    E.Ends (do record e; play p) w fun _ w' => E.Reaches w w' := by
  have hnoted := hw.noted he hquiet hlaw
  refine Ends.bind_run (record_run w e) ?_
  exact (hplay p _ hnoted.1).mono fun _ _ h => hnoted.trans h

/-- A payload that lies in the block of its handle has no byte in common with any header. -/
lemma Steady.apart_own_payload (hw : E.Steady w) (hb : b ∈ (ledger w.host).handles)
    (hown : (ledger w.host).own b = true) {c : Handle} (hc : E.Keeps w.host c)
    (hpos : (w.memory.header b).size.toNat ≠ 0) :
    Apart (w.memory.header b).payload (w.memory.header b).size.toNat c 56 := by
  have hs := hw.sound.headed.header b hb
  have hfit := (hw.sound.laid.fits b hs.out).2.2
  obtain ⟨hfitc, hapart⟩ := hw.apart_kept hc
  have hsize : (w.memory.header b).size ≠ 0 := fun h0 => hpos (by rw [h0]; rfl)
  obtain ⟨k, hk, hroom, hpay⟩ := hs.contained hown (.inl hsize)
  by_cases hne : c = b
  · subst hne
    have hcases := Memory.toNat_contained hroom hfit hpay
    unfold Apart
    omega
  · exact Memory.contained_apart hroom hfit hpay (hapart b hs.out (Ne.symm hne))

/-- Where the payload lies in the block of its handle, no header is poisoned with it. -/
lemma Steady.header_wiped (hw : E.Steady w) (hb : b ∈ (ledger w.host).handles)
    (hown : (ledger w.host).own b = true) (v : UInt8) {c : Handle} (hc : E.Keeps w.host c) :
    (w.memory.fill (w.memory.header b).payload (w.memory.header b).size.toNat v).header c =
      w.memory.header c := by
  obtain ⟨hfitc, -⟩ := hw.apart_kept hc
  exact Memory.header_fill_of_apart _ v hfitc (hw.apart_own_payload hb hown hc)

/-- A payload in the block of its handle is poisoned, and nothing else. -/
lemma Steady.wiped (hw : E.Steady w) (hb : b ∈ (ledger w.host).handles)
    (hown : (ledger w.host).own b = true) (v : UInt8) :
    E.Reaches w { w with
      memory := w.memory.fill (w.memory.header b).payload (w.memory.header b).size.toNat v } :=
  hw.withMemory fun _ hc => hw.header_wiped hb hown v hc

variable {play}

lemma destructor_ends (hplay : Obeys E play) (hw : E.Steady w) {fn data : Addr} {size : Word}
    {info : Addr} (hlaw : E.Lawful (.destructor fn data size info) w.host) :
    E.Ends ((E.hostOver play).destructor fn data size info) w fun _ w' => E.Reaches w w' :=
  callback_ends play hplay hw (e := .destructor fn data size info) rfl trivial hlaw _

lemma finalizer_ends (hplay : Obeys E play) (hw : E.Steady w) {fn data : Addr}
    (hlaw : E.Lawful (.finalizer fn data) w.host) :
    E.Ends ((E.hostOver play).finalizer fn data) w fun _ w' => E.Reaches w w' :=
  callback_ends play hplay hw (e := .finalizer fn data) rfl trivial hlaw _

lemma closure_ends (hplay : Obeys E play) (hw : E.Steady w) {c : Nat} {data : Addr} {size : Word}
    (hlaw : E.Lawful (.closure c data size) w.host) :
    E.Ends ((E.hostOver play).closure c data size) w fun _ w' => E.Reaches w w' :=
  callback_ends play hplay hw (e := .closure c data size) rfl trivial hlaw _

section Adapters

variable {d : Header}

/-- The destructor that an adapter hands payload and size to, if there is one. -/
lemma runCustom_ends (hplay : Obeys E play) (hw : E.Steady w) (hb : Begun b w)
    (hh : w.memory.header b = d)
    (hd : d.destructor = Adapter.custom.addr ∨ d.destructor = Adapter.customSafe.addr) :
    E.Ends (Adapter.runCustom (E.hostOver play) d.payload d.size d.info) w fun _ w' =>
      E.Reaches w w' := by
  rw [Adapter.runCustom]
  refine Ends.bind_run (E.trace_run play w _) ?_
  by_cases h0 : d.info = 0
  · rw [if_neg (not_not.2 h0)]
    exact Ends.of_ok rfl hw.refl
  · rw [if_pos h0]
    refine destructor_ends hplay hw (lawful_of_begun hb ?_)
    rw [hh]
    exact ⟨rfl, rfl, .inr ⟨hd, rfl, rfl⟩⟩

/-- The destructor of a handle whose payload is not exchanged keeps the state steady and leaves the
dying handle alone. -/
lemma callDestructorAt_ends (hplay : Obeys E play) (hw : E.Steady w)
    (hdying : (ledger w.host).Dying b) (hb : Begun b w) (hh : w.memory.header b = d)
    (hd : d.destructor ≠ Adapter.resizable.addr) :
    E.Ends (callDestructorAt (E.hostOver play) d.destructor d.payload d.size d.info) w
      fun _ w' => E.Reaches w w' := by
  have hs := hw.sound.headed.header b hdying.1
  rw [hh] at hs
  refine Ends.withoutUnwinding ?_
  cases ha : Adapter.ofAddr? d.destructor with
  | none =>
    refine destructor_ends hplay hw (lawful_of_begun hb ?_)
    rw [hh]
    exact ⟨rfl, rfl, .inl ⟨ha, rfl, rfl⟩⟩
  | some a =>
    have hda := Adapter.eq_of_ofAddr? ha
    cases a with
    | custom => exact runCustom_ends hplay hw hb hh (.inl hda)
    | customSafe =>
      refine Ends.bind_run (E.trace_run play w _) ?_
      refine (runCustom_ends hplay hw hb hh (.inr hda)).bind fun _ w' h => ?_
      obtain ⟨hdying', hheader⟩ := h.2 b hdying
      have hs' := h.1.sound.headed.header b hdying'.1
      rw [hheader, hh] at hs'
      have hwiped := h.1.wiped hdying'.1 (hs'.poisoned (.inl hda)) Poison.freed
      rw [hheader, hh] at hwiped
      exact Ends.of_ok rfl (h.trans hwiped)
    | safe =>
      refine Ends.bind_run (E.trace_run play w _) ?_
      have hwiped := hw.wiped hdying.1 (hs.poisoned (.inr hda)) Poison.freed
      rw [hh, ← hs.sized hda] at hwiped
      exact Ends.of_ok rfl hwiped
    | managed =>
      by_cases h0 : d.info = 0
      · have hrun : Adapter.run (E.hostOver play) .managed d.payload d.size d.info = pure () :=
          if_neg (not_not.2 h0)
        show E.Ends (Adapter.run _ .managed _ _ _) w _
        rw [hrun]
        exact Ends.of_ok rfl hw.refl
      · have hrun : Adapter.run (E.hostOver play) .managed d.payload d.size d.info =
            (E.hostOver play).finalizer d.info d.payload := if_pos h0
        show E.Ends (Adapter.run _ .managed _ _ _) w _
        rw [hrun]
        refine finalizer_ends hplay hw (lawful_of_begun hb ?_)
        rw [hh]
        exact ⟨.inl hda, rfl, rfl⟩
    | boxed =>
      have hempty := hw.withBoxes (w.boxes.erase d.info)
      have hunbox : (Handle.unboxClosure d.info : Machine History (Option Nat)) w =
          .ok (w.boxes.find? d.info) { w with boxes := w.boxes.erase d.info } := rfl
      refine Ends.bind_run hunbox ?_
      cases hfind : w.boxes.find? d.info with
      | none => exact Ends.of_ok rfl hempty
      | some c =>
        have hlaw : E.Lawful (.closure c d.payload d.size) w.host := by
          refine lawful_of_begun hb ?_
          rw [hh]
          exact ⟨hda, hfind, rfl, rfl⟩
        refine (closure_ends hplay hempty.1 hlaw).bind fun _ w' h => ?_
        exact (dropClosure_ends play hplay h.1 c).mono fun _ _ h' => (hempty.trans h).trans h'
    | resizable => exact absurd hda hd

/-- The destructor of a resizable handle gives the payload back, and its header names it still. -/
lemma resizable_ends (hplay : Obeys E play) (hw : E.Steady w)
    (hdying : (ledger w.host).Dying b) (hb : Begun b w) (hh : w.memory.header b = d)
    (hd : d.destructor = Adapter.resizable.addr) :
    E.Ends (callDestructorAt (E.hostOver play) d.destructor d.payload d.size d.info) w
      fun _ w' => ∃ w₁, E.Reaches w w₁ ∧ (w' = w₁ ∨ Steady.Bereft E b w₁ w') := by
  rw [callDestructorAt, hd, Adapter.ofAddr?_addr]
  refine Ends.withoutUnwinding (Ends.bind_run (E.trace_run play w _) ?_)
  by_cases h0 : d.payload = 0
  · rw [if_neg (not_not.2 h0)]
    exact Ends.of_ok rfl ⟨w, hw.refl, .inl rfl⟩
  rw [if_pos h0]
  have hfree : ∀ w₁, E.Reaches w w₁ → E.Ends (Storage.free (E.hostOver play) d.payload) w₁
      fun _ w' => ∃ w₁, E.Reaches w w₁ ∧ (w' = w₁ ∨ Steady.Bereft E b w₁ w') := by
    intro w₁ h
    obtain ⟨hdying', hheader⟩ := h.2 b hdying
    have hs := h.1.sound.headed.header b hdying'.1
    rw [hheader, hh] at hs
    have hbereft := h.1.bereft hdying'.1 (by rw [hheader, hh]; exact hs.adapter.1 hd)
      (by rw [hheader, hh]; exact h0)
    rw [hheader, hh] at hbereft
    refine Ends.of_ok (free_run play h.1.sound.correct d.payload) ⟨w₁, h, .inr ?_⟩
    rw [if_neg h0]
    exact hbereft
  by_cases hi : d.info = 0
  · rw [if_neg (not_not.2 hi)]
    exact hfree w hw.refl
  · rw [if_pos hi]
    refine (finalizer_ends hplay hw (lawful_of_begun hb ?_)).bind fun _ w₁ h => hfree w₁ h
    rw [hh]
    exact ⟨.inr hd, rfl, rfl⟩

end Adapters

/-! ### The storage goes -/

/-- A handle whose end has begun gives its storage back where it came from. -/
lemma destroy_ends (hw : E.Steady w) (hb : (ledger w.host).Dying b) :
    E.Ends (Handle.destroy (E.hostOver play) b) w fun _ w' =>
      E.Steady w' ∧ SparesBut b w w' := by
  refine Ends.of_ok (destroy_run play hw.sound.correct (hw.ne_zero hb.1)) ?_
  exact hw.ended hb (hw.sound.headed.header b hb.1).source

/-- So does one whose payload is gone already. -/
lemma destroy_bereft_ends (hw : E.Steady w) (hb : (ledger w.host).Dying b) {w' : World History}
    (h : Steady.Bereft E b w w') :
    E.Ends (Handle.destroy (E.hostOver play) b) w' fun _ w'' =>
      E.Steady w'' ∧ SparesBut b w w'' := by
  have hdying : (ledger w'.host).Dying b := ⟨h.handles ▸ hb.1, h.refs ▸ hb.2⟩
  have hsource := (h.headed.header b hdying.1).source
  rw [Function.update_self] at hsource
  refine Ends.of_ok (destroy_run play h.correct (hw.ne_zero hb.1)) ?_
  rw [h.headers b hb.1]
  have hbeside : ∀ c ∈ (ledger w'.host).handles, c ≠ b →
      Function.update w.memory.header b { w.memory.header b with payload := 0 } c =
        w'.memory.header c := by
    intro c hc hne
    rw [Function.update_of_ne hne, h.headers c (h.handles ▸ hc)]
  obtain ⟨hsteady, hspares⟩ := Steady.ended_of h.laid h.headed hbeside
    (Steady.Bereft.reported hw h) h.tallied h.correct h.recorded h.recalled hdying
    hsource
  refine ⟨hsteady, fun c hne hc => ?_⟩
  obtain ⟨hc', he⟩ := hspares c hne ⟨h.handles ▸ hc.1, h.refs ▸ hc.2⟩
  exact ⟨hc', he.trans (h.headers c hc.1)⟩

/-- The end of a handle, with its destructor unless the runtime is shutting down. -/
lemma callDestructor_ends (hplay : Obeys E play) (hw : E.Steady w)
    (hdying : (ledger w.host).Dying b) (hb : w.shuttingDown = false → Begun b w) :
    E.Ends (Handle.callDestructor (E.hostOver play) b) w fun _ w' =>
      E.Steady w' ∧ SparesBut b w w' := by
  refine Ends.of_eq (callDestructor_run play b) ?_
  obtain ⟨d, hh⟩ : ∃ d, w.memory.header b = d := ⟨_, rfl⟩
  rw [hh]
  by_cases hcall : d.destructor ≠ 0 ∧ ¬ w.shuttingDown
  · rw [if_pos hcall]
    have hbegun : Begun b w := hb (by simpa using hcall.2)
    by_cases hd : d.destructor = Adapter.resizable.addr
    · refine (resizable_ends hplay hw hdying hbegun hh hd).bind fun _ w' h => ?_
      obtain ⟨w₁, hreach, hw'⟩ := h
      obtain ⟨hdying', -⟩ := hreach.2 b hdying
      rcases hw' with rfl | hbereft
      · exact (destroy_ends hreach.1 hdying').mono fun _ _ h => ⟨h.1, hreach.2.but h.2⟩
      · exact (destroy_bereft_ends hreach.1 hdying' hbereft).mono fun _ _ h =>
          ⟨h.1, hreach.2.but h.2⟩
    · refine (callDestructorAt_ends hplay hw hdying hbegun hh hd).bind fun _ w' hreach => ?_
      obtain ⟨hdying', -⟩ := hreach.2 b hdying
      exact (destroy_ends hreach.1 hdying').mono fun _ _ h => ⟨h.1, hreach.2.but h.2⟩
  · rw [if_neg hcall]
    exact destroy_ends hw hdying

/-! ### References taken and given up -/

/-- The count in the header of a live handle. -/
lemma Steady.refcount (hw : E.Steady w) (hb : (ledger w.host).Live b) :
    (ledger w.host).refs b ≤ UInt64.size ∧
      (w.memory.header b).refcount = UInt64.ofNat ((ledger w.host).refs b) :=
  (hw.sound.headed.header b hb.1).counted hb.2

/-- A count that came around to zero has as many references as there are words. -/
lemma Steady.refcount_eq_zero_iff (hw : E.Steady w) (hb : (ledger w.host).Live b) :
    (w.memory.header b).refcount = 0 ↔ (ledger w.host).refs b = UInt64.size := by
  obtain ⟨hle, hcount⟩ := hw.refcount hb
  have h1 := hb.2
  have hs : UInt64.size = 2 ^ 64 := rfl
  rw [hcount, ← UInt64.toNat_inj, UInt64.toNat_ofNat', UInt64.toNat_zero]
  omega

/-- No count but that of the only reference is one. -/
lemma Steady.refcount_eq_one_iff (hw : E.Steady w) (hb : (ledger w.host).Live b) :
    (w.memory.header b).refcount = 1 ↔ (ledger w.host).refs b = 1 := by
  obtain ⟨hle, hcount⟩ := hw.refcount hb
  have h1 := hb.2
  have hs : UInt64.size = 2 ^ 64 := rfl
  rw [hcount, ← UInt64.toNat_inj, UInt64.toNat_ofNat', UInt64.toNat_one]
  omega

variable (play) in
/-- A reference that is not the only one is counted down. -/
lemma Steady.release_shared (hw : E.Steady w) (hb : (ledger w.host).Live b)
    (h1 : (ledger w.host).refs b ≠ 1) : Handle.release (E.hostOver play) b (w.noted (.released b)) =
      if (w.memory.header b).refcount = 0 then
        .error (.violation (.refcountUnderflow "release")) (w.noted (.released b))
      else .ok () ((w.noted (.released b)).withCount b
        (UInt64.ofNat ((ledger w.host).refs b - 1))) := by
  have hsub : (w.memory.header b).refcount - 1 = UInt64.ofNat ((ledger w.host).refs b - 1) := by
    rw [(hw.refcount hb).2, UInt64.ofNat_sub hb.2]
    rfl
  rw [release_run play (w := w.noted (.released b)) hw.sound.correct, World.noted_memory,
    if_neg (mt (hw.refcount_eq_one_iff hb).1 h1), hsub]

lemma acquire_ends (hw : E.Steady w) (hb : (ledger w.host).Live b) :
    E.Ends (Handle.acquire (E.hostOver play) b) w fun _ w' =>
      E.Reaches w (w'.noted (.acquired b)) := by
  have hrun := acquire_run play hw.sound.correct b
  by_cases h0 : (w.memory.header b).refcount = 0
  · rw [if_pos h0] at hrun
    exact Ends.of_error hrun hw.recorded
  · rw [if_neg h0] at hrun
    refine Ends.of_ok hrun ?_
    obtain ⟨hle, hcount⟩ := hw.refcount hb
    have hlt : (ledger w.host).refs b + 1 ≤ UInt64.size := by
      have hne : (ledger w.host).refs b ≠ UInt64.size := fun h =>
        h0 ((hw.refcount_eq_zero_iff hb).2 h)
      omega
    rw [hcount, ← UInt64.ofNat_one, ← UInt64.ofNat_add]
    exact hw.recount hb hlt rfl (.inl rfl)

/-- The state was written down when the last step was over. -/
def Marked (w : World History) : Prop := ∃ before, w.host = .boundary w.snapshot :: before

/-- After the only reference was given up, the end of a handle has begun. -/
lemma begun_of_marked {w' : World History} {e : Event} {v : Word} (hm : Marked w)
    (hb : (ledger w.host).Sole b) (hs : w.shuttingDown = false)
    (he : e = .released b ∨ e = .ending b) (hhost : w'.host = e :: w.host)
    (hboxes : w'.boxes = w.boxes)
    (hheader : w'.memory.header b = { w.memory.header b with refcount := v }) : Begun b w' := by
  obtain ⟨before, hbefore⟩ := hm
  rw [hbefore] at hb hhost
  exact ⟨w.memory.header b, w.snapshot, v, ⟨e, before, hhost, he, hb, hs, rfl⟩, hboxes.symm,
    hheader⟩

/-- A reference is given up. The last one ends the handle; one that came around to zero stops the
program. -/
lemma release_ends (hplay : Obeys E play) (hw : E.Steady w) (hm : Marked w)
    (hb : (ledger w.host).Live b) :
    E.Ends (do record (.released b); Handle.release (E.hostOver play) b) w fun _ w' =>
      E.Reaches w w' := by
  obtain ⟨hle, hcount⟩ := hw.refcount hb
  have hb1 := hb.2
  refine Ends.bind_run (record_run w _) ?_
  have hrun := release_run play (w := w.noted (.released b)) hw.sound.correct b
  by_cases h0 : (w.memory.header b).refcount = 0
  · exact Ends.of_error (hrun.trans (if_pos h0)) (Throughout.cons_iff.2 ⟨hb, hw.recorded⟩)
  have hpred : (ledger w.host).refs b - 1 ≤ UInt64.size := by omega
  have hreach := hw.recount hb hpred (e := .released b) rfl (.inr rfl)
  replace hrun := hrun.trans (if_neg h0)
  by_cases h1 : (w.memory.header b).refcount = 1
  · have hone := (hw.refcount_eq_one_iff hb).1 h1
    rw [hone] at hreach
    replace hrun := hrun.trans (if_pos h1)
    have hdying : (ledger ((w.withCount b 0).noted (.released b)).host).Dying b :=
      ⟨hb.1, by simp [World.noted, World.withCount, Ledger.after, Ledger.setRefs, hone]⟩
    have hbegun : w.shuttingDown = false → Begun b ((w.withCount b 0).noted (.released b)) :=
      fun hs => begun_of_marked hm ⟨hb.1, hone⟩ hs (.inl rfl) rfl rfl
        (Memory.header_setField w.memory .refcount 0 (hw.room_le hb.1).2)
    exact Ends.of_eq hrun ((callDestructor_ends hplay hreach.1 hdying hbegun).mono fun _ _ h =>
      ⟨h.1, hreach.2.of_but h.2 hb1⟩)
  · have hsub : (w.memory.header b).refcount - 1 =
        UInt64.ofNat ((ledger w.host).refs b - 1) := by
      rw [hcount, UInt64.ofNat_sub hb1]
      rfl
    rw [← hsub] at hreach
    exact Ends.of_ok (hrun.trans (if_neg h1)) hreach

/-- The holder of the only reference ends the handle with its destructor. -/
lemma ending_callDestructor_ends (hplay : Obeys E play) (hw : E.Steady w) (hm : Marked w)
    (hb : (ledger w.host).Sole b) :
    E.Ends (do record (.ending b); Handle.callDestructor (E.hostOver play) b) w fun _ w' =>
      E.Reaches w w' := by
  have hreach := hw.ending hb
  refine Ends.bind_run (record_run w _) ?_
  have hdying : (ledger (w.noted (.ending b)).host).Dying b :=
    ⟨hb.1, by simp [World.noted, Ledger.after, Ledger.setRefs]⟩
  have hbegun : w.shuttingDown = false → Begun b (w.noted (.ending b)) := fun hs =>
    begun_of_marked hm hb hs (.inr rfl) rfl rfl (v := (w.memory.header b).refcount) rfl
  exact (callDestructor_ends hplay hreach.1 hdying hbegun).mono fun _ _ h =>
    ⟨h.1, hreach.2.of_but h.2 hb.2.ge⟩

/-- The holder of the only reference ends the handle without its destructor. -/
lemma ending_destroy_ends (hw : E.Steady w) (hb : (ledger w.host).Sole b) :
    E.Ends (do record (.ending b); Handle.destroy (E.hostOver play) b) w fun _ w' =>
      E.Reaches w w' := by
  have hreach := hw.ending hb
  refine Ends.bind_run (record_run w _) ?_
  have hdying : (ledger (w.noted (.ending b)).host).Dying b :=
    ⟨hb.1, by simp [World.noted, Ledger.after, Ledger.setRefs]⟩
  exact (destroy_ends hreach.1 hdying).mono fun _ _ h => ⟨h.1, hreach.2.of_but h.2 hb.2.ge⟩

/-- The holder of the only reference gives the storage back and leaves it at that. -/
lemma abandoned_dealloc_ends (hw : E.Steady w) (hb : (ledger w.host).Sole b) :
    E.Ends (do record (.abandoned b); Handle.dealloc (E.hostOver play) b) w fun _ w' =>
      E.Reaches w w' := by
  refine Ends.bind_run (record_run w _) ?_
  have hrun := dealloc_run play (w := w.noted (.abandoned b)) hw.sound.correct (hw.ne_zero hb.1)
  exact Ends.of_ok hrun (hw.abandoned hb (hw.sound.headed.header b hb.1).source)

end Environment

end CountedHeap
