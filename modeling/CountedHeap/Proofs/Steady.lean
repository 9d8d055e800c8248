/-
States between two steps

A state is steady when the ledger of its history agrees with it and everything in that history was
lawful: allocators were given back only what they gave out, no storage of a handle went while
somebody had a reference to it, and no destructor ran but the one of a handle whose only reference
had just been given up.

* `Environment.Lawful`: what may happen, given what happened before;
* `Environment.Steady`: the invariant;
* `Spares`: what a computation leaves alone, so that the end of a handle can go on after it;
* `Environment.Ends`: how a computation ends, which may be by a fault;
* the single changes of a state, and why they keep it steady.
-/
import CountedHeap.Proofs.Remains

namespace CountedHeap

open Memory (AgreeOn Apart)

/-! ### What may happen -/

/-- The handle `b`, whose header in the state `s` was `d`, has just lost its only reference. -/
def Due (b : Handle) (d : Header) (s : Snapshot) (past : History) : Prop :=
  ∃ e before, past = e :: .boundary s :: before ∧ (e = .released b ∨ e = .ending b) ∧
    (ledger before).Sole b ∧ s.shuttingDown = false ∧ s.memory.header b = d

/-- The calls that the end of a handle makes: of its own destructor, of the one that an adapter
hands payload and size to, of its finalizer, or of its closure. -/
def Header.CallsFor (d : Header) (boxes : Boxes) : Event → Prop
  | .destructor fn data size info =>
    data = d.payload ∧ size = d.size ∧
      (IsForeign d.destructor ∧ fn = d.destructor ∧ info = d.info ∨
        (d.destructor = Adapter.custom.addr ∨ d.destructor = Adapter.customSafe.addr) ∧
          fn = d.info ∧ info = 0)
  | .finalizer fn data =>
    (d.destructor = Adapter.managed.addr ∨ d.destructor = Adapter.resizable.addr) ∧
      fn = d.info ∧ data = d.payload
  | .closure c data size =>
    d.destructor = Adapter.boxed.addr ∧ boxes.find? d.info = some c ∧ data = d.payload ∧
      size = d.size
  | _ => False

namespace Environment

variable (E : Environment)

/-- What may happen after a history. -/
def Lawful (e : Event) (past : History) : Prop :=
  match e with
  | .boundary s => E.Sound (ledger past) s ∧ E.Recalled (.boundary s :: past) s.memory
  | .resized s p _ _ => (ledger past).Holds s p
  | .takenBack s p =>
    (ledger past).Holds s p ∧ (p ∈ (ledger past).handles → (ledger past).refs p = 0)
  | .acquired b | .released b => (ledger past).Live b
  | .ending b => (ledger past).Sole b
  | .destructor .. | .finalizer .. | .closure .. =>
    ∃ b d s, Due b d s past ∧ d.CallsFor s.boxes e
  | _ => True

/-- The ledger agrees with the state, everything so far was lawful, and memory bears witness to what
is left of handles. -/
structure Steady (w : World History) : Prop where
  sound : E.Sound (ledger w.host) w
  recorded : Throughout E.Lawful w.host
  recalled : E.Recalled w.host w.memory

end Environment

/-- Handles whose end has begun are still there, with the headers they had. -/
def Spares (w w' : World History) : Prop :=
  ∀ b, (ledger w.host).Dying b →
    (ledger w'.host).Dying b ∧ w'.memory.header b = w.memory.header b

namespace Spares

variable {w w' w'' : World History}

lemma refl : Spares w w := fun _ h => ⟨h, rfl⟩

lemma trans (h : Spares w w') (h' : Spares w' w'') : Spares w w'' := by
  intro b hb
  obtain ⟨hb', he⟩ := h b hb
  obtain ⟨hb'', he'⟩ := h' b hb'
  exact ⟨hb'', he'.trans he⟩

end Spares

/-- Handles whose end has begun are left alone, except for one. -/
def SparesBut (b : Handle) (w w' : World History) : Prop :=
  ∀ c ≠ b, (ledger w.host).Dying c →
    (ledger w'.host).Dying c ∧ w'.memory.header c = w.memory.header c

/-- A handle that was alive may end. -/
lemma Spares.of_but {b : Handle} {w w' w'' : World History} (h : Spares w w')
    (h' : SparesBut b w' w'') (hb : 1 ≤ (ledger w.host).refs b) : Spares w w'' := by
  intro c hc
  have hne : c ≠ b := by
    rintro rfl
    have h1 := hc.2
    omega
  obtain ⟨hc', he⟩ := h c hc
  obtain ⟨hc'', he'⟩ := h' c hne hc'
  exact ⟨hc'', he'.trans he⟩

lemma Spares.but {b : Handle} {w w' w'' : World History} (h : Spares w w')
    (h' : SparesBut b w' w'') : SparesBut b w w'' := by
  intro c hne hc
  obtain ⟨hc', he⟩ := h c hc
  obtain ⟨hc'', he'⟩ := h' c hne hc'
  exact ⟨hc'', he'.trans he⟩

/-! ### How computations end -/

namespace Environment

variable {E : Environment} {α β : Type} {w : World History} {x : Machine History α}
  {P Q : α → World History → Prop}

/-- A computation ends as `Q` says. If it ends by a fault, everything up to then was lawful. -/
inductive Ends (E : Environment) (x : Machine History α) (w : World History)
    (Q : α → World History → Prop) : Prop where
  | of_ok {a : α} {w' : World History} (h : x w = .ok a w') (hQ : Q a w')
  | of_error {e : Fault} {w' : World History} (h : x w = .error e w')
      (hlaw : Throughout E.Lawful w'.host)

namespace Ends

lemma mono (hx : E.Ends x w P) (h : ∀ a w', P a w' → Q a w') : E.Ends x w Q := by
  cases hx with
  | of_ok hrun hP => exact of_ok hrun (h _ _ hP)
  | of_error hrun hlaw => exact of_error hrun hlaw

/-- Where the computation is known to end without a fault, it ends as `Q` says. -/
lemma post (hx : E.Ends x w Q) {a : α} {w' : World History} (h : x w = .ok a w') : Q a w' := by
  cases hx with
  | of_ok hrun hQ =>
    obtain ⟨rfl, rfl⟩ := EStateM.Result.ok.inj (hrun.symm.trans h)
    exact hQ
  | of_error hrun _ => exact absurd (hrun.symm.trans h) nofun

lemma of_eq {y : Machine History α} {v : World History} (h : x w = y v) (hy : E.Ends y v Q) :
    E.Ends x w Q := by
  cases hy with
  | of_ok hrun hQ => exact of_ok (h.trans hrun) hQ
  | of_error hrun hlaw => exact of_error (h.trans hrun) hlaw

/-- The second part goes on from wherever the first may end. -/
lemma bind {f : α → Machine History β} {R : β → World History → Prop} (hx : E.Ends x w P)
    (hf : ∀ a w', P a w' → E.Ends (f a) w' R) : E.Ends (x >>= f) w R := by
  cases hx with
  | of_ok hrun hP =>
    have hrun' : ∀ r, f _ _ = r → (x >>= f) w = r := fun r hr => by
      rw [Machine.bind_apply, hrun]
      exact hr
    cases hf _ _ hP with
    | of_ok h hR => exact of_ok (hrun' _ h) hR
    | of_error h hlaw => exact of_error (hrun' _ h) hlaw
  | @of_error e w' hrun hlaw =>
    have hrun' : (x >>= f) w = .error e w' := by rw [Machine.bind_apply, hrun]
    exact of_error hrun' hlaw

/-- A C function ends as its body does, but that a panic stops the program. -/
lemma withoutUnwinding (hx : E.Ends x w P) : E.Ends (Machine.withoutUnwinding x) w P := by
  cases hx with
  | of_ok hrun hP => exact of_ok (Machine.withoutUnwinding_eq_ok.2 hrun) hP
  | of_error hrun hlaw => exact of_error (Machine.withoutUnwinding_of_error hrun) hlaw

/-- The same where it is known what the first part does. -/
lemma bind_run {f : α → Machine History β} {R : β → World History → Prop} {a : α}
    {w' : World History} (hx : x w = .ok a w') (hf : E.Ends (f a) w' R) :
    E.Ends (x >>= f) w R :=
  (of_ok (Q := fun a' w'' => a' = a ∧ w'' = w') hx ⟨rfl, rfl⟩).bind fun _ _ h => by
    obtain ⟨rfl, rfl⟩ := h
    exact hf

/-- The same for a computation that may fail to get storage. -/
lemma attempt_bind {x : Attempt History α} {f : α → Attempt History β}
    {P : Except AllocError α → World History → Prop}
    {R : Except AllocError β → World History → Prop} (hx : E.Ends x.run w P)
    (hok : ∀ a w', P (.ok a) w' → E.Ends (f a).run w' R)
    (herr : ∀ e w', P (.error e) w' → R (.error e) w') : E.Ends (x >>= f).run w R := by
  rw [ExceptT.run_bind]
  refine hx.bind fun r w' hr => ?_
  cases r with
  | ok a => exact hok a w' hr
  | error e => exact of_ok rfl (herr e w' hr)

/-- A computation that cannot fail to get storage, as one that might. -/
lemma lift {R : Except AllocError α → World History → Prop}
    (hx : E.Ends x w fun a w' => R (.ok a) w') : E.Ends (liftM x : Attempt History α).run w R := by
  have hlift := Attempt.lift_apply w x
  cases hx with
  | of_ok hrun hR =>
    rw [hrun] at hlift
    exact of_ok hlift hR
  | of_error hrun hlaw =>
    rw [hrun] at hlift
    exact of_error hlift hlaw

/-- Its successor in a computation that might. -/
lemma lift_bind {f : α → Attempt History β} {R : Except AllocError β → World History → Prop}
    (hx : E.Ends x w P) (hf : ∀ a w', P a w' → E.Ends (f a).run w' R) :
    E.Ends ((liftM x : Attempt History α) >>= f).run w R :=
  attempt_bind (P := fun r w' => ∃ a, r = .ok a ∧ P a w')
    (lift (hx.mono fun a _ h => ⟨a, rfl, h⟩))
    (fun a w' h => by
      obtain ⟨a', ha, hP⟩ := h
      obtain rfl := Except.ok.inj ha
      exact hf a w' hP)
    fun e w' h => by
      obtain ⟨a', ha, -⟩ := h
      cases ha

/-- The same where it is known what the first part does. -/
lemma lift_run {f : α → Attempt History β} {R : Except AllocError β → World History → Prop} {a : α}
    {w' : World History} (hx : x w = .ok a w') (hf : E.Ends (f a).run w' R) :
    E.Ends ((liftM x : Attempt History α) >>= f).run w R :=
  lift_bind (P := fun a' w'' => a' = a ∧ w'' = w') (of_ok hx ⟨rfl, rfl⟩) fun _ _ h => by
    obtain ⟨rfl, rfl⟩ := h
    exact hf

/-- A failure to get storage that is caught. -/
lemma attempt_catch {x : Attempt History α} {f : AllocError → Attempt History α}
    {P R : Except AllocError α → World History → Prop} (hx : E.Ends x.run w P)
    (hok : ∀ a w', P (.ok a) w' → R (.ok a) w')
    (herr : ∀ e w', P (.error e) w' → E.Ends (f e).run w' R) :
    E.Ends (tryCatch x f).run w R := by
  rw [ExceptT.run_tryCatch]
  refine hx.bind fun r w' hr => ?_
  cases r with
  | ok a => exact of_ok rfl (hok a w' hr)
  | error e => exact herr e w' hr

end Ends

/-! ### Single changes of a state -/

/-- A state can be gone on from, and what was ending before can still end. -/
def Reaches (E : Environment) (w w' : World History) : Prop := E.Steady w' ∧ Spares w w'

lemma Reaches.trans {w' w'' : World History} (h : E.Reaches w w') (h' : E.Reaches w' w'') :
    E.Reaches w w'' := ⟨h'.1, h.2.trans h'.2⟩

namespace Steady

variable {e : Event} {m : Memory} {p q : Addr} {b c : Handle} {s : Source} {n : Word}

lemma refl (hw : E.Steady w) : E.Reaches w w := ⟨hw, Spares.refl⟩

lemma mem_blocks (hw : E.Steady w) (hb : b ∈ (ledger w.host).handles) :
    b ∈ (ledger w.host).blocks := (hw.sound.headed.header b hb).out

lemma ne_zero (hw : E.Steady w) (hb : b ∈ (ledger w.host).handles) : b ≠ 0 :=
  (hw.sound.laid.fits b (hw.mem_blocks hb)).1

lemma room_le (hw : E.Steady w) (hb : b ∈ (ledger w.host).handles) :
    56 ≤ (ledger w.host).room b ∧ b.toNat + 56 ≤ UInt64.size := by
  have hroom := (hw.sound.headed.header b hb).room
  have hfit := hw.sound.laid.fits b (hw.mem_blocks hb)
  exact ⟨hroom, by omega⟩

/-- A header that matters lies in memory, and no other block that is out has any of its bytes. -/
lemma apart_kept (hw : E.Steady w) (hc : E.Keeps w.host c) :
    c.toNat + 56 ≤ UInt64.size ∧ ∀ q ∈ (ledger w.host).blocks, q ≠ c →
      Apart q ((ledger w.host).room q) c 56 := by
  by_cases hin : c ∈ (ledger w.host).handles
  · refine ⟨(hw.room_le hin).2, fun q hq hne => ?_⟩
    exact (hw.sound.laid.apart q hq c (hw.mem_blocks hin) hne).mono_right (hw.room_le hin).1
  · obtain ⟨hE, hs⟩ := hc.resolve_left hin
    obtain ⟨n, hn, hr⟩ := hw.recalled.buried hE c hs hin
    obtain ⟨-, hfit, hapart⟩ := hw.recalled.unused hE _ hr
    simp only at hfit hapart
    exact ⟨by omega, fun q hq _ => ((hapart q hq).mono_left hn).symm⟩

/-- A block that is not a handle is none of the headers that matter. -/
lemma ne_kept (hw : E.Steady w) (hq : q ∈ (ledger w.host).blocks)
    (hnot : q ∉ (ledger w.host).handles) (hc : E.Keeps w.host c) : q ≠ c := by
  rintro rfl
  obtain ⟨hE, hs⟩ := hc.resolve_left hnot
  exact hw.recalled.not_mem_blocks hw.sound.laid hE hs hnot hq

/-- A spent handle that is gone lies among what was given back. -/
lemma agreeOn_buried (hw : E.Steady w) (hE : E.Retires) (hs : Spent c w.host)
    (hc : c ∉ (ledger w.host).handles)
    (hm : ∀ r ∈ retired w.host, w.memory.AgreeOn m r.1 r.2) : w.memory.AgreeOn m c 56 := by
  obtain ⟨n, hn, hr⟩ := hw.recalled.buried hE c hs hc
  exact (hm _ hr).mono hn

/-- A header is as it was if its bytes are. -/
lemma header_eq (hw : E.Steady w) (hc : E.Keeps w.host c) (hm : w.memory.AgreeOn m c 56) :
    m.header c = w.memory.header c := Memory.header_congr hm (hw.apart_kept hc).1

/-- A request leaves all headers alone. -/
lemma header_granted (hw : E.Steady w) (hc : E.Keeps w.host c) (s : Source) (n : Word) :
    (E.granted s n w).memory.header c = w.memory.header c := by
  refine hw.header_eq hc ?_
  by_cases hin : c ∈ (ledger w.host).handles
  · exact (E.allocate_frame s n w c (hw.mem_blocks hin)).mono (hw.room_le hin).1
  · obtain ⟨hE, hs⟩ := hc.resolve_left hin
    exact hw.agreeOn_buried hE hs hin (hE.allocate_kept s n w)

/-- So does a change of size of what is not a handle. -/
lemma header_regranted (hw : E.Steady w) (hp : (ledger w.host).Holds s p) (n : Word)
    (h : p ∉ (ledger w.host).handles ∨ (E.reallocate s p n w).addr = 0)
    (hc : E.Keeps w.host c) :
    (E.regranted s p n w).memory.header c = w.memory.header c := by
  refine hw.header_eq hc ?_
  by_cases hin : c ∈ (ledger w.host).handles
  · exact (E.reallocate_frame s p n w hp c (hw.mem_blocks hin)
      (h.imp_left fun hnot he => hnot (he ▸ hin))).mono (hw.room_le hin).1
  · obtain ⟨hE, hs⟩ := hc.resolve_left hin
    exact hw.agreeOn_buried hE hs hin (hE.reallocate_kept s p n w hp)

/-- And so does a free of what is not the handle itself. -/
lemma header_freed (hw : E.Steady w) (hp : (ledger w.host).Holds s p) (hc : E.Keeps w.host c)
    (hne : c ≠ p) : (E.freed s p w).memory.header c = w.memory.header c :=
  hw.recalled.header_freed hw.sound.laid
    (fun _ hb => ⟨hw.mem_blocks hb, (hw.room_le hb).1⟩) hp hc (.inl hne)

/-- A field of one header lies in no other header. -/
lemma header_setField_of_ne (hw : E.Steady w) (m : Memory) (hb : b ∈ (ledger w.host).handles)
    (hc : E.Keeps w.host c) (hne : c ≠ b) (f : Field) (v : Word) :
    (m.setWord (b + f.offset) v).header c = m.header c := by
  obtain ⟨hfit, hapart⟩ := hw.apart_kept hc
  exact Memory.header_congr (Memory.agreeOn_setField m f v (hw.room_le hb).2 hfit
    ((hapart b (hw.mem_blocks hb) hne.symm).mono_left (hw.room_le hb).1)) hfit

/-- A line in the history that means nothing to the ledger. -/
lemma noted (hw : E.Steady w) (he : (ledger w.host).after e = ledger w.host) (hquiet : e.Quiet)
    (hlaw : E.Lawful e w.host) : E.Reaches w (w.noted e) := by
  have hL : ledger (w.noted e).host = ledger w.host := he
  refine ⟨⟨?_, Throughout.cons_iff.2 ⟨hlaw, hw.recorded⟩, hw.recalled.noted hquiet ⟨_, _, he⟩⟩,
    fun b hb => ⟨hL ▸ hb, rfl⟩⟩
  rw [hL]
  exact ⟨hw.sound.laid, hw.sound.headed, hw.sound.reported, hw.sound.tallied, hw.sound.correct⟩

/-- Memory may change wherever no header is. -/
lemma withMemory (hw : E.Steady w)
    (hm : ∀ c, E.Keeps w.host c → m.header c = w.memory.header c) :
    E.Reaches w { w with memory := m } :=
  ⟨⟨⟨hw.sound.laid, hw.sound.headed.congr fun c hc => hm c (.inl hc),
    hw.sound.reported.congr fun c hc => hm c (.inl hc), hw.sound.tallied, hw.sound.correct⟩,
    hw.recorded, hw.recalled.alter fun c hc => .inl (hm c hc)⟩, fun b hb => ⟨hb, hm b (.inl hb.1)⟩⟩

/-- A request that an allocator cannot serve. -/
lemma granted_null (hw : E.Steady w) (h0 : (E.allocate s n w).addr = 0) :
    E.Reaches w (E.granted s n w) := by
  have hm := hw.withMemory fun c hc => hw.header_granted hc s n
  refine hm.trans (hm.1.noted (e := .given s n (E.allocate s n w).addr) ?_ trivial trivial)
  simp [Ledger.after, h0]

/-! ### Blocks come and go -/

lemma sourceAt_heap {o ext a : Addr} (h : E.sourceAt o ext = .heap a) : a = o := by
  unfold sourceAt at h
  split at h
  · exact (Source.heap.inj h).symm
  · cases h

lemma ledger_handed (h0 : (E.allocate s n w).addr ≠ 0) :
    ledger (E.handed s n w).host = (ledger w.host).grant s n (E.allocate s n w).addr := by
  simp [handed, granted, Ledger.after, h0]

/-- Nothing is forgotten when a block is given out. -/
lemma recalled_granted (hw : E.Steady w) (h0 : (E.allocate s n w).addr ≠ 0) :
    E.Recalled (E.granted s n w).host (E.granted s n w).memory := by
  have hnew := (E.allocate_fresh s n w h0).not_mem hw.sound.laid
  have hkept : E.Recalled w.host (E.granted s n w).memory :=
    hw.recalled.alter fun c hc => .inl (hw.header_granted hc s n)
  exact hkept.granted (e := .given s n (E.allocate s n w).addr) trivial (if_neg h0)
    (Finset.Subset.refl _) rfl rfl rfl hnew fun hE => hE.allocate_unused s n w h0

/-- A block that was given out and counted. -/
lemma handed (hw : E.Steady w) (h0 : (E.allocate s n w).addr ≠ 0)
    (hs : ∀ a, s = .heap a → a = w.bindings.heap.addr) : E.Reaches w (E.handed s n w) := by
  have hfresh := E.allocate_fresh s n w h0
  have hnew := hfresh.not_mem hw.sound.laid
  have hheader : ∀ b ∈ (ledger w.host).handles,
      (E.handed s n w).memory.header b = w.memory.header b := fun b hb =>
    hw.header_granted (.inl hb) s n
  refine ⟨⟨?_, Throughout.cons_iff.2 ⟨trivial, hw.recorded⟩, hw.recalled_granted h0⟩,
    fun b hb => ?_⟩
  · rw [ledger_handed h0]
    exact ⟨hw.sound.laid.grant hfresh hs, (hw.sound.headed.grant hnew).congr hheader,
      hw.sound.reported.congr hheader, hw.sound.tallied.grant hnew, hw.sound.correct⟩
  · rw [ledger_handed h0]
    exact ⟨hb, hheader b hb.1⟩

/-- The new block is its caller's, with the room that was asked for. -/
lemma owned_handed (hw : E.Steady w) (h0 : (E.allocate s n w).addr ≠ 0) :
    (ledger (E.handed s n w).host).Owned (E.handed s n w).memory (E.allocate s n w).addr ∧
      (ledger (E.handed s n w).host).room (E.allocate s n w).addr = max n.toNat 1 ∧
      (ledger (E.handed s n w).host).source (E.allocate s n w).addr = s := by
  have hnew := (E.allocate_fresh s n w h0).not_mem hw.sound.laid
  rw [ledger_handed h0]
  refine ⟨⟨Finset.mem_insert_self _ _, fun hb => hnew (hw.mem_blocks hb), fun b hb hk he => ?_⟩,
    Function.update_self _ _ _, Function.update_self _ _ _⟩
  have hheader : (E.handed s n w).memory.header b = w.memory.header b :=
    hw.header_granted (.inl hb) s n
  rw [hheader] at hk he
  exact hnew (he ▸ (((hw.sound.headed.header b hb).exchange hk).2.2 (he ▸ h0)).1.1)

/-- What a caller owned before is still his. -/
lemma owned_of_handed (hw : E.Steady w) (h0 : (E.allocate s n w).addr ≠ 0)
    (hq : (ledger w.host).Owned w.memory q) :
    (ledger (E.handed s n w).host).Owned (E.handed s n w).memory q ∧
      q ≠ (E.allocate s n w).addr ∧
      (ledger (E.handed s n w).host).room q = (ledger w.host).room q ∧
      (ledger (E.handed s n w).host).source q = (ledger w.host).source q := by
  have hnew := (E.allocate_fresh s n w h0).not_mem hw.sound.laid
  have hne : q ≠ (E.allocate s n w).addr := fun he => hnew (he ▸ hq.1)
  rw [ledger_handed h0]
  refine ⟨⟨Finset.mem_insert_of_mem hq.1, hq.2.1, fun b hb hk he => ?_⟩, hne,
    Function.update_of_ne hne _ _, Function.update_of_ne hne _ _⟩
  have hheader : (E.handed s n w).memory.header b = w.memory.header b :=
    hw.header_granted (.inl hb) s n
  rw [hheader] at hk he
  exact hq.2.2 b hb hk he

/-- A block of the caller's goes back to the allocator that gave it out. -/
lemma handedBack (hw : E.Steady w) (hp : (ledger w.host).Owned w.memory p)
    (hs : (ledger w.host).source p = s) : E.Reaches w (E.handedBack s p w) := by
  have hheader : ∀ b ∈ (ledger w.host).handles,
      (E.handedBack s p w).memory.header b = w.memory.header b := fun b hb =>
    hw.header_freed ⟨hp.1, hs⟩ (.inl hb) fun he => hp.2.1 (he ▸ hb)
  have hkeep : ((ledger w.host).without p).handles = (ledger w.host).handles :=
    Finset.erase_eq_of_notMem hp.2.1
  refine ⟨⟨⟨hw.sound.laid.without p, ?_, (hw.sound.reported.congr hheader).without p,
    hw.sound.tallied.without hp.1 hp.2.1, hw.sound.correct⟩,
    Throughout.cons_iff.2 ⟨⟨⟨hp.1, hs⟩, fun hb => absurd hb hp.2.1⟩, hw.recorded⟩,
    hw.recalled.freed hw.sound.laid (fun _ hb => ⟨hw.mem_blocks hb, (hw.room_le hb).1⟩)
      ⟨hp.1, hs⟩⟩, fun b hb => ⟨⟨hkeep ▸ hb.1, hb.2⟩, hheader b hb.1⟩⟩
  exact (hw.sound.headed.without hp.2.2).congr fun b hb => hheader b (hkeep ▸ hb)

/-- A change of size that an allocator refuses. -/
lemma regranted_null (hw : E.Steady w) (hp : (ledger w.host).Holds s p)
    (h0 : (E.reallocate s p n w).addr = 0) : E.Reaches w (E.regranted s p n w) := by
  have hm := hw.withMemory fun c hc => hw.header_regranted hp n (.inr h0) hc
  refine hm.trans (hm.1.noted (e := .resized s p n (E.reallocate s p n w).addr) ?_ trivial hp)
  simp [Ledger.after, h0]

lemma ledger_regranted (h0 : (E.reallocate s p n w).addr ≠ 0) :
    ledger (E.regranted s p n w).host =
      ((ledger w.host).without p).grant s n (E.reallocate s p n w).addr := by
  simp [regranted, Ledger.after, h0]

/-- Nothing is forgotten when a block takes the place of another that is not a handle. -/
lemma recalled_regranted (hw : E.Steady w) (hp : (ledger w.host).Holds s p)
    (hnot : p ∉ (ledger w.host).handles) (h0 : (E.reallocate s p n w).addr ≠ 0)
    (hm : E.Recalled w.host m) : E.Recalled (E.regranted s p n w).host m :=
  hm.granted (e := .resized s p n (E.reallocate s p n w).addr) trivial (if_neg h0)
    (Finset.erase_subset _ _) rfl (Finset.erase_eq_of_notMem hnot) rfl
    ((E.reallocate_fresh s p n w hp h0).not_mem (hw.sound.laid.without p))
    fun hE => hE.reallocate_unused s p n w hp h0

/-- A block takes the place of another in the ledger; the counters do not notice. -/
lemma tallied_regrant {L : Ledger} {st : Stats} (h : L.Tallied st) (hp : p ∈ L.blocks)
    (hb : p ∉ L.handles) (hq : q ∉ (L.without p).blocks) :
    ((L.without p).grant s n q).Tallied st := by
  have hcard : ((L.without p).grant s n q).blocks.card = L.blocks.card := by
    simp only [Ledger.grant, Finset.card_insert_of_notMem hq]
    exact Finset.card_erase_add_one hp
  have hkeep : ((L.without p).grant s n q).handles = L.handles := Finset.erase_eq_of_notMem hb
  refine ⟨?_, ?_⟩
  · rw [hcard]
    exact h.blocks
  · rw [hkeep]
    exact h.handles

/-- A block of the caller's gets another size, and maybe another place. -/
lemma regranted (hw : E.Steady w) (hp : (ledger w.host).Owned w.memory p)
    (hs : (ledger w.host).source p = s) (hheap : ∀ a, s = .heap a → a = w.bindings.heap.addr) :
    E.Reaches w (E.regranted s p n w) := by
  have hholds : (ledger w.host).Holds s p := ⟨hp.1, hs⟩
  by_cases h0 : (E.reallocate s p n w).addr = 0
  · exact hw.regranted_null hholds h0
  have hfresh := E.reallocate_fresh s p n w hholds h0
  have hnew := hfresh.not_mem (hw.sound.laid.without p)
  have hheader : ∀ b ∈ (ledger w.host).handles,
      (E.regranted s p n w).memory.header b = w.memory.header b := fun b hb =>
    hw.header_regranted hholds n (.inl hp.2.1) (.inl hb)
  have hkeep : (((ledger w.host).without p).grant s n (E.reallocate s p n w).addr).handles =
      (ledger w.host).handles := Finset.erase_eq_of_notMem hp.2.1
  have hkept := hw.recalled.alter fun c hc => .inl (hw.header_regranted hholds n (.inl hp.2.1) hc)
  refine ⟨⟨?_, Throughout.cons_iff.2 ⟨hholds, hw.recorded⟩,
    hw.recalled_regranted hholds hp.2.1 h0 hkept⟩, fun b hb => ?_⟩
  · rw [ledger_regranted h0]
    exact ⟨(hw.sound.laid.without p).grant hfresh hheap,
      ((hw.sound.headed.without hp.2.2).grant hnew).congr fun b hb => hheader b (hkeep ▸ hb),
      (hw.sound.reported.congr hheader).without p,
      tallied_regrant hw.sound.tallied hp.1 hp.2.1 hnew, hw.sound.correct⟩
  · rw [ledger_regranted h0]
    exact ⟨⟨hkeep ▸ hb.1, hb.2⟩, hheader b hb.1⟩

/-! ### Handles come and go -/

end Steady

/-- A header that a block of the caller's can get. -/
structure Suits (E : Environment) (w : World History) (b : Handle) (own : Bool) (d : Header) :
    Prop where
  owned : (ledger w.host).Owned w.memory b
  room : 56 ≤ (ledger w.host).room b
  first : d.refcount = 1
  source : (ledger w.host).source b = E.sourceAt w.bindings.heap.addr d.external
  adapter : d.destructor = Adapter.resizable.addr ↔ d.kind = .resizable
  exchange : d.kind = .resizable → own = false ∧ d.external = 0 ∧ (d.payload ≠ 0 →
    (ledger w.host).Owned w.memory d.payload ∧ d.payload ≠ b ∧
      (ledger w.host).source d.payload = .heap w.bindings.heap.addr ∧
      d.size.toNat ≤ (ledger w.host).room d.payload)
  poisoned : d.destructor = Adapter.customSafe.addr ∨ d.destructor = Adapter.safe.addr → own = true
  sized : d.destructor = Adapter.safe.addr → d.info = d.size
  contained : own = true → ∃ k, 56 ≤ k ∧ k + d.size.toNat ≤ (ledger w.host).room b ∧
    d.payload = b + UInt64.ofNat k

namespace Steady

variable {e : Event} {m : Memory} {p q : Addr} {b c : Handle} {s : Source} {n : Word}

/-- A block of the caller's becomes a handle. -/
lemma make (hw : E.Steady w) {own : Bool} (hd : Suits E w b own (m.header b))
    (hkept : ∀ c, E.Keeps w.host c → m.header c = w.memory.header c) :
    E.Reaches w (World.noted { w with memory := m, stats := w.stats.bump .handleAlloc }
      (.madeIn m b own)) := by
  have hb := hd.owned
  have hm : ∀ c ∈ (ledger w.host).handles, m.header c = w.memory.header c := fun c hc =>
    hkept c (.inl hc)
  have hnew : HeaderSound E
      ((ledger w.host).make b own (m.header b).payload (m.header b).size)
      w.bindings.heap.addr b (m.header b) := by
    refine ⟨hb.1, hd.room, hd.source, fun _ => ?_, hd.adapter, fun hk => ?_, ?_, hd.sized, ?_⟩
    · simp only [Ledger.make, Function.update_self, hd.first]
      exact ⟨by decide, rfl⟩
    · obtain ⟨hown, hext, hpay⟩ := hd.exchange hk
      refine ⟨?_, hext, fun h0 => ?_⟩
      · simp only [Ledger.make, Function.update_self, hown]
      · obtain ⟨howned, hne, hs, hsize⟩ := hpay h0
        exact ⟨⟨howned.1, hs⟩, by simp [Ledger.make, hne, howned.2.1], hsize⟩
    · simp only [Ledger.make, Function.update_self]
      exact hd.poisoned
    · simp only [Ledger.make, Function.update_self]
      exact fun hown _ => hd.contained hown
  refine ⟨⟨⟨⟨hw.sound.laid.fits, hw.sound.laid.apart, hw.sound.laid.bound⟩, ?_, ?_,
    hw.sound.tallied.make hb.2.1, hw.sound.correct⟩,
    Throughout.cons_iff.2 ⟨trivial, hw.recorded⟩,
    (hw.recalled.alter fun c hc => .inl (hkept c hc)).made b own _ _⟩, fun c hc => ?_⟩
  · refine hw.sound.headed.make hb.2.1 hb.2.2 hm hnew fun c hc hk hkc h0 he => ?_
    exact ((hd.exchange hk).2.2 h0).1.2.2 c hc hkc he.symm
  · refine hw.sound.reported.update (b := b) (fun _ => ?_) fun c hne hc => ?_
    · exact ⟨(Function.update_self b (m.header b).payload (ledger w.host).data).symm,
        (Function.update_self b (m.header b).size (ledger w.host).size).symm⟩
    · have hmem : c ∈ (ledger w.host).handles := Finset.mem_of_mem_insert_of_ne hc.1 hne
      have hrefs : 1 ≤ (ledger w.host).refs c := by
        simpa only [World.noted, Event.madeIn, ledger_cons, Ledger.after, Ledger.make,
          Function.update_of_ne hne] using hc.2
      exact ⟨⟨hmem, hrefs⟩, Function.update_of_ne hne _ _, Function.update_of_ne hne _ _,
        hm c hmem⟩
  · have hne : c ≠ b := fun he => hb.2.1 (he ▸ hc.1)
    refine ⟨⟨Finset.mem_insert_of_mem hc.1, ?_⟩, hm c hc.1⟩
    simpa only [World.noted, Event.madeIn, ledger_cons, Ledger.after, Ledger.make,
      Function.update_of_ne hne] using hc.2

/-- A reference is taken or given up, in the header and in the history. -/
lemma recount (hw : E.Steady w) {k : Nat} (hb : (ledger w.host).Live b) (hk : k ≤ UInt64.size)
    (he : (ledger w.host).after e = (ledger w.host).setRefs b k)
    (hcase : e = .acquired b ∨ e = .released b) :
    E.Reaches w ((w.withCount b (UInt64.ofNat k)).noted e) := by
  obtain ⟨hroom, hfit⟩ := hw.room_le hb.1
  have hself := Memory.header_setField w.memory .refcount (UInt64.ofNat k) hfit
  have hkept : ∀ c, E.Keeps w.host c → c ≠ b →
      (w.memory.setWord (b + Field.refcount.offset) (UInt64.ofNat k)).header c =
        w.memory.header c := fun c hc hne =>
    hw.header_setField_of_ne w.memory hb.1 hc hne .refcount (UInt64.ofNat k)
  have hother : ∀ c ∈ (ledger w.host).handles, c ≠ b →
      (w.memory.setWord (b + Field.refcount.offset) (UInt64.ofNat k)).header c =
        w.memory.header c := fun c hc => hkept c (.inl hc)
  have hlaw : E.Lawful e w.host := by
    rcases hcase with rfl | rfl <;> exact hb
  have hcount : E.Recalled w.host (w.withCount b (UInt64.ofNat k)).memory := by
    refine hw.recalled.alter_one hb ?_ hkept
    show (w.memory.header b).Endures
      ((w.memory.setWord (b + Field.refcount.offset) (UInt64.ofNat k)).header b)
    rw [hself]
    exact Header.Endures.recount _ _
  have hrecalled : E.Recalled (e :: w.host) (w.withCount b (UInt64.ofNat k)).memory := by
    rcases hcase with rfl | rfl
    · exact hcount.acquired hb
    · refine hcount.released hb fun hsole => ?_
      have hrefs := congrFun (congrArg Ledger.refs he) b
      simp only [Ledger.after, Ledger.setRefs, Function.update_self, hsole.2] at hrefs
      show ((w.memory.setWord (b + Field.refcount.offset) (UInt64.ofNat k)).header b).refcount = 0
      rw [hself, ← hrefs]
      rfl
  have hsame : ∀ c ∈ (ledger w.host).handles, ∃ v,
      (w.memory.setWord (b + Field.refcount.offset) (UInt64.ofNat k)).header c =
        { w.memory.header c with refcount := v } := by
    intro c hc
    by_cases he : c = b
    · rw [he]
      exact ⟨UInt64.ofNat k, hself⟩
    · exact ⟨(w.memory.header c).refcount, hother c hc he⟩
  refine ⟨⟨?_, Throughout.cons_iff.2 ⟨hlaw, hw.recorded⟩, hrecalled⟩, fun c hc => ?_⟩
  · show E.Sound ((ledger w.host).after e) _
    rw [he]
    exact ⟨⟨hw.sound.laid.fits, hw.sound.laid.apart, hw.sound.laid.bound⟩,
      hw.sound.headed.setRefs hk (fun _ => hself) ⟨_, hself⟩ hother,
      hw.sound.reported.setRefs (fun _ => hb) hsame,
      ⟨hw.sound.tallied.blocks, hw.sound.tallied.handles⟩, hw.sound.correct⟩
  · have hne : c ≠ b := hc.ne hb
    have hL : (ledger w.host).after e = (ledger w.host).setRefs b k := he
    refine ⟨?_, hother c hc.1 hne⟩
    show ((ledger w.host).after e).Dying c
    rw [hL]
    exact ⟨hc.1, (Function.update_of_ne hne _ _).trans hc.2⟩

/-- The holder of the only reference ends the handle, whatever its count says. -/
lemma ending (hw : E.Steady w) (hb : (ledger w.host).Sole b) :
    E.Reaches w (w.noted (.ending b)) := by
  refine ⟨⟨⟨⟨hw.sound.laid.fits, hw.sound.laid.apart, hw.sound.laid.bound⟩, ?_,
    hw.sound.reported.setRefs (fun _ => hb.live) fun _ _ => ⟨_, rfl⟩,
    ⟨hw.sound.tallied.blocks, hw.sound.tallied.handles⟩, hw.sound.correct⟩,
    Throughout.cons_iff.2 ⟨hb, hw.recorded⟩, hw.recalled.ended b⟩, fun c hc => ?_⟩
  · exact hw.sound.headed.setRefs (Nat.zero_le _) (fun h => absurd h (lt_irrefl 0)) ⟨_, rfl⟩
      fun _ _ _ => rfl
  · have hne : c ≠ b := hc.ne hb.live
    exact ⟨⟨hc.1, (Function.update_of_ne hne _ _).trans hc.2⟩, rfl⟩

/-- The storage of a handle whose end has begun goes, and the handle is counted as ended. `D` is
the headers as they are, but for a payload that went before. -/
lemma ended_of {D : Handle → Header} (hlaid : (ledger w.host).Laid w.bindings.heap.addr)
    (hheaded : Headed E (ledger w.host) w.bindings.heap.addr D)
    (hD : ∀ c ∈ (ledger w.host).handles, c ≠ b → D c = w.memory.header c)
    (hreported : Reported (ledger w.host) w.memory.header)
    (htallied : (ledger w.host).Tallied w.stats) (hcorrect : E.Correct w.bindings.incDec)
    (hrecorded : Throughout E.Lawful w.host) (hrecalled : E.Recalled w.host w.memory)
    (hb : (ledger w.host).Dying b) (hs : (ledger w.host).source b = s) :
    E.Steady (E.destroyed s b w) ∧ SparesBut b w (E.destroyed s b w) := by
  have hroom : ∀ c ∈ (ledger w.host).handles,
      c ∈ (ledger w.host).blocks ∧ 56 ≤ (ledger w.host).room c := fun c hc =>
    ⟨(hheaded.header c hc).out, (hheaded.header c hc).room⟩
  have hout := (hheaded.header b hb.1).out
  have hheader : ∀ c ∈ (ledger w.host).handles, c ≠ b →
      (E.destroyed s b w).memory.header c = w.memory.header c := by
    exact fun c hc hne => hrecalled.header_freed hlaid hroom ⟨hout, hs⟩ (.inl hc) (.inl hne)
  have hleft : ∀ c ∈ ((ledger w.host).without b).handles,
      (E.destroyed s b w).memory.header c = w.memory.header c := by
    intro c hc
    obtain ⟨hne, hc'⟩ := Finset.mem_erase.1 hc
    exact hheader c hc' hne
  refine ⟨⟨⟨hlaid.without b, ?_, (hreported.without b).congr hleft,
    htallied.end_handle hout hb.1, hcorrect⟩,
    Throughout.cons_iff.2 ⟨⟨⟨hout, hs⟩, fun _ => hb.2⟩, hrecorded⟩,
    hrecalled.freed hlaid hroom ⟨hout, hs⟩⟩,
    fun c hne hc => ⟨⟨Finset.mem_erase.2 ⟨hne, hc.1⟩, hc.2⟩, hheader c hc.1 hne⟩⟩
  have hb0 : b ≠ 0 := (hlaid.fits b hout).1
  refine (hheaded.without fun c hc hk => hheaded.payload_ne hb.1 hc hk hb0).congr fun c hc => ?_
  obtain ⟨hne, hc'⟩ := Finset.mem_erase.1 hc
  exact (hleft c hc).trans (hD c hc' hne).symm

lemma ended (hw : E.Steady w) (hb : (ledger w.host).Dying b)
    (hs : (ledger w.host).source b = s) :
    E.Steady (E.destroyed s b w) ∧ SparesBut b w (E.destroyed s b w) :=
  ended_of hw.sound.laid hw.sound.headed (fun _ _ _ => rfl) hw.sound.reported hw.sound.tallied
    hw.sound.correct hw.recorded hw.recalled hb hs

/-- The handle is a mere block again, and its block goes. -/
lemma abandoned (hw : E.Steady w) (hb : (ledger w.host).Sole b)
    (hs : (ledger w.host).source b = s) :
    E.Reaches w (E.handedBack s b (w.noted (.abandoned b))) := by
  have habandon : E.Reaches w (w.noted (.abandoned b)) := by
    refine ⟨⟨⟨⟨hw.sound.laid.fits, hw.sound.laid.apart, hw.sound.laid.bound⟩,
      hw.sound.headed.abandon b, hw.sound.reported.abandon b, hw.sound.tallied.abandon hb.1,
      hw.sound.correct⟩,
      Throughout.cons_iff.2 ⟨trivial, hw.recorded⟩, hw.recalled.abandoned hb.live⟩,
      fun c hc => ?_⟩
    have hne : c ≠ b := hc.ne hb.live
    exact ⟨⟨Finset.mem_erase.2 ⟨hne, hc.1⟩, hc.2⟩, rfl⟩
  refine habandon.trans (habandon.1.handedBack ⟨hw.mem_blocks hb.1, Finset.notMem_erase _ _,
    fun c hc hk => ?_⟩ hs)
  exact hw.sound.headed.payload_ne hb.1 (Finset.mem_of_mem_erase hc) hk (hw.ne_zero hb.1)

end Steady

end Environment

end CountedHeap
