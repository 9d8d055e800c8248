/-
Payloads that are exchanged

The payload of a resizable handle is a block of the default heap which only its header names. Each
of the three operations that exchange it is one function of the state, and keeps it steady. While a
payload is on its way out, the header names a block that is gone already; `Bereft` is the state in
between.

* `Environment.resizableAlloc_run`, `Environment.resizableRealloc_run`,
  `Environment.resizableFree_run`: what the operations do;
* `Environment.Steady.exchanged`, `Environment.Steady.reallocated`, `Environment.Steady.bereft`:
  the changes of state that they are made of.
-/
import CountedHeap.Proofs.Steady

namespace CountedHeap

open Memory (AgreeOn Apart)

/-- Memory with another payload and size in a header. -/
def Memory.withPayload (m : Memory) (b : Handle) (p : Addr) (n : Word) : Memory :=
  (m.setWord (b + Field.payload.offset) p).setWord (b + Field.size.offset) n

namespace Memory

variable {b : Handle}

lemma header_withPayload (m : Memory) (p : Addr) (n : Word) (hb : b.toNat + 56 ≤ UInt64.size) :
    (m.withPayload b p n).header b = { m.header b with payload := p, size := n } := by
  rw [withPayload, header_setField _ .size n hb, header_setField _ .payload p hb]
  rfl

end Memory

/-- A header without its payload can stand beside all the others. -/
lemma Headed.clear {E : Environment} {L : Ledger} {o : Addr} {b : Handle} {D : Handle → Header}
    (h : Headed E L o D) (hb : b ∈ L.handles) (hk : (D b).kind = .resizable) :
    Headed E L o (Function.update D b { D b with payload := 0 }) :=
  h.setPayload hb hk ⟨0, (D b).size, Function.update_self _ _ _, fun h0 => absurd rfl h0⟩
    fun _ _ hne => Function.update_of_ne hne _ _

/-- Once its header has let go of it, the payload of a resizable handle may go: it is nobody
else's. -/
lemma Headed.letGo {E : Environment} {L : Ledger} {o : Addr} {b : Handle} {D : Handle → Header}
    (h : Headed E L o D) (hb : b ∈ L.handles) (hk : (D b).kind = .resizable)
    (h0 : (D b).payload ≠ 0) :
    Headed E (L.without (D b).payload) o (Function.update D b { D b with payload := 0 }) := by
  refine (h.clear hb hk).without fun c hc hkc => ?_
  by_cases hne : c = b
  · subst hne
    simpa only [Function.update_self] using h0.symm
  · rw [Function.update_of_ne hne] at hkc ⊢
    exact fun he => hne (h.single b hb c hc hk hkc h0 he.symm).symm

/-- A new block may take its place. -/
lemma Headed.regrant {E : Environment} {L : Ledger} {o q : Addr} {b : Handle}
    {D D' : Handle → Header} {n n' : Word} (h : Headed E L o D) (hb : b ∈ L.handles)
    (hk : (D b).kind = .resizable) (h0 : (D b).payload ≠ 0) (hq : q ≠ 0)
    (hnew : q ∉ (L.without (D b).payload).blocks) (hn : n.toNat ≤ n'.toNat)
    (hself : D' b = { D b with payload := q, size := n })
    (hD : ∀ c ∈ L.handles, c ≠ b → D' c = D c) :
    Headed E ((L.without (D b).payload).grant (.heap o) n' q) o D' := by
  have hnot : (D b).payload ∉ L.handles := (((h.header b hb).exchange hk).2.2 h0).2.1
  have hkeep : ((L.without (D b).payload).grant (.heap o) n' q).handles = L.handles :=
    Finset.erase_eq_of_notMem hnot
  have hout : ∀ p ∈ L.blocks, p ≠ (D b).payload → q ≠ p := fun p hp hne he =>
    hnew (he ▸ Finset.mem_erase.2 ⟨hne, hp⟩)
  refine ((h.letGo hb hk h0).grant hnew).setPayload (b := b) (hkeep ▸ hb) ?_
    ⟨q, n, ?_, fun _ => ⟨⟨Finset.mem_insert_self _ _, Function.update_self _ _ _⟩, ?_, ?_, ?_⟩⟩
    fun c hc hne => ?_
  · rwa [Function.update_self]
  · rw [Function.update_self]
    exact hself
  · rw [hkeep]
    exact fun hin => hout q (h.header q hin).out (fun he => hnot (he ▸ hin)) rfl
  · simp only [Ledger.grant, Function.update_self]
    omega
  · intro c hc hne hkc he
    rw [Function.update_of_ne hne] at hkc he
    have hc' : c ∈ L.handles := hkeep ▸ hc
    have hother : (D c).payload ≠ (D b).payload := fun heq =>
      hne (h.single b hb c hc' hk hkc h0 heq.symm).symm
    exact hout _ (((h.header c hc').exchange hkc).2.2 (he ▸ hq)).1.1 hother he.symm
  · rw [Function.update_of_ne hne]
    exact hD c (hkeep ▸ hc) hne

namespace Environment

variable {E : Environment} {w : World History} {b : Handle} {p : Addr} {n : Word}

/-! ### The operations as functions of the state -/

section Run

variable (play : (World History → Program) → Machine History Unit)

lemma setPayload_run : Handle.setPayload b p n w =
    .ok () { w with memory := w.memory.withPayload b p n } := rfl

lemma requireResizable_run (operation : String) (b : Handle) :
    Handle.requireResizable operation b w =
      if (w.memory.header b).kind = .resizable then .ok () w
      else .error (.violation (.notResizable operation)) w := by
  rw [Handle.requireResizable, Machine.bind_apply, kind_run]
  by_cases hk : (w.memory.header b).kind = .resizable
  · simp only [hk, ne_eq, not_true_eq_false, if_false, if_true]
    rfl
  · simp only [hk, ne_eq, not_false_eq_true, if_false, if_true]
    rfl

/-- A new payload is asked for, and replaces the old one if there is room for it. -/
lemma resizableAlloc_run (hc : E.Correct w.bindings.incDec)
    (hk : (w.memory.header b).kind = .resizable) (n : Word) :
    (Handle.resizableAlloc (E.hostOver play) b n).run w =
      let s := Source.heap w.bindings.heap.addr
      let n' := w.bindings.heap.asked n
      if (E.allocate s n' w).addr = 0 then
        .ok (.error (.outOfMemory n)) (E.granted s n' w)
      else
        .ok (.ok (E.allocate s n' w).addr) { E.handed s n' w with
          memory := (E.handed s n' w).memory.withPayload b (E.allocate s n' w).addr n } := by
  have hreq : Handle.requireResizable "varsize_alloc" b w = .ok () w := by
    rw [requireResizable_run, if_pos hk]
  by_cases h0 : (E.allocate (.heap w.bindings.heap.addr) (w.bindings.heap.asked n) w).addr = 0
  · simp only [Handle.resizableAlloc, Attempt.bind_apply, Attempt.lift_apply, hreq,
      allocate_run play hc, if_pos h0]
  · simp only [Handle.resizableAlloc, Attempt.bind_apply, Attempt.lift_apply, hreq,
      allocate_run play hc, if_neg h0, setPayload_run, trace_run, Attempt.pure_apply]

/-- A payload that is there gets another size, which is not counted; one that is not there is asked
for like any other block. -/
lemma resizableRealloc_run (hc : E.Correct w.bindings.incDec)
    (hk : (w.memory.header b).kind = .resizable) (n : Word) :
    (Handle.resizableRealloc (E.hostOver play) b n).run w =
      let s := Source.heap w.bindings.heap.addr
      let n' := w.bindings.heap.asked n
      let p := (w.memory.header b).payload
      if p = 0 then
        if (E.allocate s n' w).addr = 0 then
          .ok (.error (.outOfMemory n)) (E.granted s n' w)
        else
          .ok (.ok (E.allocate s n' w).addr) { E.handed s n' w with
            memory := (E.handed s n' w).memory.withPayload b (E.allocate s n' w).addr n }
      else
        if (E.reallocate s p n' w).addr = 0 then
          .ok (.error (.outOfMemory n)) (E.regranted s p n' w)
        else
          .ok (.ok (E.reallocate s p n' w).addr) { E.regranted s p n' w with
            memory :=
              (E.regranted s p n' w).memory.withPayload b (E.reallocate s p n' w).addr n } := by
  have hreq : Handle.requireResizable "varsize_realloc" b w = .ok () w := by
    rw [requireResizable_run, if_pos hk]
  have hpay : Handle.payload b w = .ok (w.memory.header b).payload w := rfl
  have hold : (do Handle.requireResizable "varsize_realloc" b; Handle.payload b :
      Machine History Addr) w = .ok (w.memory.header b).payload w := by
    simp only [Machine.bind_apply, hreq, hpay]
  rw [Handle.resizableRealloc, Attempt.lift_bind_apply, hold]
  by_cases hp : (w.memory.header b).payload = 0
  · by_cases h0 : (E.allocate (.heap w.bindings.heap.addr) (w.bindings.heap.asked n) w).addr = 0
    · simp only [Attempt.bind_apply, if_pos hp, allocate_run play hc, if_pos h0]
    · simp only [Attempt.bind_apply, Attempt.lift_apply, if_pos hp, allocate_run play hc,
        if_neg h0, setPayload_run, trace_run, Attempt.pure_apply]
  · by_cases h0 : (E.reallocate (.heap w.bindings.heap.addr) (w.memory.header b).payload
        (w.bindings.heap.asked n) w).addr = 0
    · simp only [Attempt.bind_apply, if_neg hp, reallocate_run, if_pos h0]
    · simp only [Attempt.bind_apply, Attempt.lift_apply, if_neg hp, reallocate_run, if_neg h0,
        setPayload_run, trace_run, Attempt.pure_apply]

/-- A block is given back, and if it was the payload, the handle has none any more. -/
lemma resizableFree_run (hc : E.Correct w.bindings.incDec) (p : Addr) :
    Handle.resizableFree (E.hostOver play) b p w =
      let w' := if p = 0 then w else E.handedBack (.heap w.bindings.heap.addr) p w
      .ok () (if p = (w'.memory.header b).payload then
        { w' with memory := w'.memory.setWord (b + Field.payload.offset) 0 } else w') := by
  simp only [Handle.resizableFree, Machine.bind_apply, free_run play hc]
  generalize (if p = 0 then w else E.handedBack (.heap w.bindings.heap.addr) p w) = w'
  have hpay : Handle.payload b w' = .ok (w'.memory.header b).payload w' := rfl
  rw [hpay]
  by_cases he : p = (w'.memory.header b).payload
  · simp only [if_pos he]
    rfl
  · simp only [if_neg he]
    rfl

end Run

/-! ### The changes of state -/

namespace Steady

/-- The payload of a resizable handle is a block of the default heap, and no other header names
it. -/
lemma payload (hw : E.Steady w) (hb : b ∈ (ledger w.host).handles)
    (hk : (w.memory.header b).kind = .resizable) (h0 : (w.memory.header b).payload ≠ 0) :
    (ledger w.host).Holds (.heap w.bindings.heap.addr) (w.memory.header b).payload ∧
      (w.memory.header b).payload ∉ (ledger w.host).handles ∧
      ∀ c ∈ (ledger w.host).handles, c ≠ b → (w.memory.header c).kind = .resizable →
        (w.memory.header c).payload ≠ (w.memory.header b).payload := by
  obtain ⟨hholds, hnot, -⟩ := ((hw.sound.headed.header b hb).exchange hk).2.2 h0
  refine ⟨hholds, hnot, fun c hc hne hkc he => hne ?_⟩
  exact (hw.sound.headed.single b hb c hc hk hkc h0 he.symm).symm

/-- The headers beside one whose payload is replaced. -/
lemma header_withPayload (hw : E.Steady w) (m : Memory) (hb : b ∈ (ledger w.host).handles)
    {c : Handle} (hc : E.Keeps w.host c) (hne : c ≠ b) (p : Addr) (n : Word) :
    (m.withPayload b p n).header c = m.header c := by
  rw [Memory.withPayload, hw.header_setField_of_ne _ hb hc hne .size,
    hw.header_setField_of_ne _ hb hc hne .payload]

/-- A resizable handle gets a block of the caller's as its payload. -/
lemma exchanged (hw : E.Steady w) (hb : (ledger w.host).Live b)
    (hk : (w.memory.header b).kind = .resizable)
    (hp : p ≠ 0 → (ledger w.host).Owned w.memory p ∧
      (ledger w.host).source p = .heap w.bindings.heap.addr ∧
      n.toNat ≤ (ledger w.host).room p) :
    E.Reaches w
      (World.noted { w with memory := w.memory.withPayload b p n } (.refilled b p n)) := by
  have hself := Memory.header_withPayload w.memory p n (hw.room_le hb.1).2
  have hkept := fun c hc hne => hw.header_withPayload w.memory hb.1 (c := c) hc hne p n
  have hother : ∀ c ∈ (ledger w.host).handles, c ≠ b →
      (w.memory.withPayload b p n).header c = w.memory.header c := fun c hc => hkept c (.inl hc)
  have hendures : (w.memory.header b).Endures ((w.memory.withPayload b p n).header b) := by
    rw [hself]
    exact Header.Endures.refill hk p n
  have hreports : ((w.memory.withPayload b p n).header b).payload = p ∧
      ((w.memory.withPayload b p n).header b).size = n := by
    rw [hself]
    exact ⟨rfl, rfl⟩
  refine ⟨⟨⟨hw.sound.laid.refill b p n, Headed.refill ?_ b p n,
    hw.sound.reported.refill hreports hother, hw.sound.tallied.refill b p n, hw.sound.correct⟩,
    Throughout.cons_iff.2 ⟨trivial, hw.recorded⟩,
    (hw.recalled.alter_one hb hendures hkept).noted trivial ⟨_, _, rfl⟩⟩,
    fun c hc => ⟨hc, hother c hc.1 (hc.ne hb)⟩⟩
  refine hw.sound.headed.setPayload hb.1 hk ⟨p, n, hself, fun h0 => ?_⟩ hother
  obtain ⟨howned, hs, hsize⟩ := hp h0
  exact ⟨⟨howned.1, hs⟩, howned.2.1, hsize, fun c hc _ hkc => howned.2.2 c hc hkc⟩

/-- A resizable handle whose payload was there keeps it, at another place or with another size. -/
lemma reallocated (hw : E.Steady w) (hb : (ledger w.host).Live b)
    (hk : (w.memory.header b).kind = .resizable) (hp : (w.memory.header b).payload = p)
    (hp0 : p ≠ 0) {n' : Word} (hn : n.toNat ≤ n'.toNat)
    (h0 : (E.reallocate (.heap w.bindings.heap.addr) p n' w).addr ≠ 0) :
    E.Reaches w (World.noted { E.regranted (.heap w.bindings.heap.addr) p n' w with
      memory := (E.regranted (.heap w.bindings.heap.addr) p n' w).memory.withPayload b
        (E.reallocate (.heap w.bindings.heap.addr) p n' w).addr n }
      (.refilled b (E.reallocate (.heap w.bindings.heap.addr) p n' w).addr n)) := by
  subst hp
  obtain ⟨hholds, hnot, -⟩ := hw.payload hb.1 hk hp0
  have hfresh := E.reallocate_fresh _ _ n' w hholds h0
  have hnew := hfresh.not_mem (hw.sound.laid.without _)
  set q := (E.reallocate (.heap w.bindings.heap.addr) (w.memory.header b).payload n' w).addr
  set m := (E.regranted (.heap w.bindings.heap.addr) (w.memory.header b).payload n' w).memory
  have hkeep : (((ledger w.host).without (w.memory.header b).payload).grant
      (.heap w.bindings.heap.addr) n' q).handles = (ledger w.host).handles :=
    Finset.erase_eq_of_notMem hnot
  have hm : ∀ c, E.Keeps w.host c → m.header c = w.memory.header c := fun c hc =>
    hw.header_regranted hholds n' (.inl hnot) hc
  have hself := Memory.header_withPayload m q n (hw.room_le hb.1).2
  have hkept : ∀ c, E.Keeps w.host c → c ≠ b →
      (m.withPayload b q n).header c = w.memory.header c := fun c hc hne =>
    (hw.header_withPayload m hb.1 hc hne q n).trans (hm c hc)
  have hbeside : ∀ c ∈ (ledger w.host).handles, c ≠ b →
      (m.withPayload b q n).header c = w.memory.header c := fun c hc => hkept c (.inl hc)
  have hendures : (w.memory.header b).Endures ((m.withPayload b q n).header b) := by
    rw [hself, hm b (.inl hb.1)]
    exact Header.Endures.refill hk q n
  have hreports : ((m.withPayload b q n).header b).payload = q ∧
      ((m.withPayload b q n).header b).size = n := by
    rw [hself]
    exact ⟨rfl, rfl⟩
  refine ⟨⟨?_, Throughout.cons_iff.2 ⟨trivial, Throughout.cons_iff.2 ⟨hholds, hw.recorded⟩⟩,
    (hw.recalled_regranted hholds hnot h0
      (hw.recalled.alter_one hb hendures hkept)).noted trivial ⟨_, _, rfl⟩⟩, fun c hc => ?_⟩
  · show E.Sound ((ledger (E.regranted _ _ n' w).host).refill b q n) _
    rw [ledger_regranted h0]
    have hlaid := (hw.sound.laid.without _).grant hfresh fun a ha => (Source.heap.inj ha).symm
    refine ⟨hlaid.refill b q n, Headed.refill ?_ b q n,
      Reported.refill (hw.sound.reported.without _) hreports
        fun c hc hne => hbeside c (hkeep ▸ hc) hne,
      (tallied_regrant hw.sound.tallied hholds.1 hnot hnew).refill b q n, hw.sound.correct⟩
    refine hw.sound.headed.regrant hb.1 hk hp0 h0 hnew hn ?_ hbeside
    show (m.withPayload b q n).header b = _
    rw [hself, hm b (.inl hb.1)]
  · have hne : c ≠ b := hc.ne hb
    refine ⟨?_, hbeside c hc.1 hne⟩
    show (ledger (E.regranted _ _ n' w).host).Dying c
    rw [ledger_regranted h0]
    exact ⟨hkeep ▸ hc.1, hc.2⟩

/-- A handle had its payload given back, and its header still names it. -/
structure Bereft (E : Environment) (b : Handle) (w w' : World History) : Prop where
  laid : (ledger w'.host).Laid w'.bindings.heap.addr
  headed : Headed E (ledger w'.host) w'.bindings.heap.addr
    (Function.update w.memory.header b { w.memory.header b with payload := 0 })
  tallied : (ledger w'.host).Tallied w'.stats
  correct : E.Correct w'.bindings.incDec
  recorded : Throughout E.Lawful w'.host
  recalled : E.Recalled w'.host w'.memory
  keeps : ∀ c, E.Keeps w'.host c → E.Keeps w.host c
  headers : ∀ c ∈ (ledger w.host).handles, w'.memory.header c = w.memory.header c
  handles : (ledger w'.host).handles = (ledger w.host).handles
  refs : (ledger w'.host).refs = (ledger w.host).refs
  reports : (ledger w'.host).data = (ledger w.host).data ∧
    (ledger w'.host).size = (ledger w.host).size

lemma bereft (hw : E.Steady w) (hb : b ∈ (ledger w.host).handles)
    (hk : (w.memory.header b).kind = .resizable) (h0 : (w.memory.header b).payload ≠ 0) :
    Bereft E b w (E.handedBack (.heap w.bindings.heap.addr) (w.memory.header b).payload w) := by
  obtain ⟨hholds, hnot, -⟩ := hw.payload hb hk h0
  refine ⟨hw.sound.laid.without _, hw.sound.headed.letGo hb hk h0,
    hw.sound.tallied.without hholds.1 hnot, hw.sound.correct,
    Throughout.cons_iff.2 ⟨⟨hholds, fun h => absurd h hnot⟩, hw.recorded⟩,
    hw.recalled.freed hw.sound.laid (fun c hc => ⟨hw.mem_blocks hc, (hw.room_le hc).1⟩) hholds,
    fun c hc => hc.imp Finset.mem_of_mem_erase fun h => ⟨h.1, (h.2.resolve_left not_false).2⟩,
    fun c hc => hw.header_freed hholds (.inl hc) fun he => hnot (he ▸ hc),
    Finset.erase_eq_of_notMem hnot, rfl, rfl, rfl⟩

/-- Nothing has changed yet in what handles report. -/
lemma Bereft.reported (hw : E.Steady w) {w' : World History} (h : Bereft E b w w') :
    Reported (ledger w'.host) w'.memory.header := by
  refine hw.sound.reported.transfer fun c hc => ?_
  have hlive : (ledger w.host).Live c := ⟨h.handles ▸ hc.1, h.refs ▸ hc.2⟩
  rw [h.headers c hlive.1, h.reports.1, h.reports.2]
  exact ⟨hlive, rfl, rfl, rfl, rfl⟩

/-- Once the header names the lost payload no more, all is well again. -/
lemma cleared (hw : E.Steady w) (hb : (ledger w.host).Live b) {w' : World History}
    (h : Bereft E b w w') :
    E.Reaches w (World.noted
      { w' with memory := w'.memory.setWord (b + Field.payload.offset) 0 }
      (.discarded b (w.memory.header b).payload)) := by
  obtain ⟨-, hfit⟩ := hw.room_le hb.1
  have hself := Memory.header_setField w'.memory .payload 0 hfit
  have hkept : ∀ c, E.Keeps w'.host c → c ≠ b →
      (w'.memory.setWord (b + Field.payload.offset) 0).header c = w'.memory.header c :=
    fun c hc hne => hw.header_setField_of_ne w'.memory hb.1 (h.keeps c hc) hne .payload 0
  have hbeside : ∀ c ∈ (ledger w.host).handles, c ≠ b →
      (w'.memory.setWord (b + Field.payload.offset) 0).header c = w.memory.header c :=
    fun c hc hne => (hkept c (.inl (h.handles ▸ hc)) hne).trans (h.headers c hc)
  have hlive : (ledger w'.host).Live b := ⟨h.handles ▸ hb.1, h.refs ▸ hb.2⟩
  have hendures : (w'.memory.header b).Endures
      ((w'.memory.setWord (b + Field.payload.offset) 0).header b) := by
    rw [hself]
    exact Header.Endures.forget _
  have hdata : (w.memory.header b).payload = (ledger w'.host).data b := by
    rw [h.reports.1]
    exact (hw.sound.reported b hb).1
  have hsize : (w.memory.header b).size = (ledger w'.host).size b := by
    rw [h.reports.2]
    exact (hw.sound.reported b hb).2
  have hreports : ((w'.memory.setWord (b + Field.payload.offset) 0).header b).payload =
        (if (w.memory.header b).payload = (ledger w'.host).data b then 0
          else (ledger w'.host).data b) ∧
      ((w'.memory.setWord (b + Field.payload.offset) 0).header b).size =
        (ledger w'.host).size b := by
    rw [hself, h.headers b hb.1, if_pos hdata]
    exact ⟨rfl, hsize⟩
  refine ⟨⟨⟨h.laid.refill _ _ _, (h.headed.congr fun c hc => ?_).refill _ _ _,
    (Bereft.reported hw h).refill hreports fun c hc hne => ?_, h.tallied.refill _ _ _, h.correct⟩,
    Throughout.cons_iff.2 ⟨trivial, h.recorded⟩,
    (h.recalled.alter_one hlive hendures hkept).noted trivial ⟨_, _, rfl⟩⟩, fun c hc => ?_⟩
  · by_cases hne : c = b
    · subst hne
      rw [Function.update_self]
      show (w'.memory.setWord (c + Field.payload.offset) 0).header c = _
      rw [hself, h.headers c hb.1]
      rfl
    · rw [Function.update_of_ne hne]
      exact hbeside c (h.handles ▸ hc) hne
  · have hc' : c ∈ (ledger w.host).handles := h.handles ▸ hc
    exact (hbeside c hc' hne).trans (h.headers c hc').symm
  · have hne : c ≠ b := hc.ne hb
    refine ⟨⟨?_, ?_⟩, hbeside c hc.1 hne⟩
    · show c ∈ (ledger w'.host).handles
      rw [h.handles]
      exact hc.1
    · show (ledger w'.host).refs c = 0
      rw [h.refs]
      exact hc.2

/-- A payload that is a block of somebody's lies in the block of its handle only if it is empty. -/
lemma size_eq_zero_of_payload (hw : E.Steady w) (hb : b ∈ (ledger w.host).handles)
    (hout : (w.memory.header b).payload ∈ (ledger w.host).blocks)
    (hne : (w.memory.header b).payload ≠ b) (hown : (ledger w.host).own b = true) :
    (w.memory.header b).size = 0 := by
  by_contra h0
  obtain ⟨k, hk, hroom, hpay⟩ := (hw.sound.headed.header b hb).contained hown (.inl h0)
  have hfit := (hw.sound.laid.fits b (hw.mem_blocks hb)).2.2
  have hfit' := hw.sound.laid.fits _ hout
  have hapart := hw.sound.laid.apart _ hout b (hw.mem_blocks hb) hne
  have hcases := Memory.toNat_contained hroom hfit hpay
  have hpos : (w.memory.header b).size.toNat ≠ 0 := fun h => h0 (UInt64.toNat_inj.1 h)
  unfold Apart at hapart
  omega

/-- A handle that is not resizable loses sight of a payload that its caller freed. -/
lemma forgotten (hw : E.Steady w) (hb : (ledger w.host).Live b)
    (hk : (w.memory.header b).kind ≠ .resizable)
    (hempty : (ledger w.host).own b = true → (w.memory.header b).size = 0) :
    E.Reaches w (World.noted
      { w with memory := w.memory.setWord (b + Field.payload.offset) 0 }
      (.discarded b (w.memory.header b).payload)) := by
  have hself := Memory.header_setField w.memory .payload 0 (hw.room_le hb.1).2
  have hkept := fun c hc hne => hw.header_setField_of_ne w.memory hb.1 (c := c) hc hne .payload 0
  have hbeside : ∀ c ∈ (ledger w.host).handles, c ≠ b →
      (w.memory.setWord (b + Field.payload.offset) 0).header c = w.memory.header c :=
    fun c hc => hkept c (.inl hc)
  have hendures : (w.memory.header b).Endures
      ((w.memory.setWord (b + Field.payload.offset) 0).header b) := by
    rw [hself]
    exact Header.Endures.forget _
  obtain ⟨hdata, hsize⟩ := hw.sound.reported b hb
  have hreports : ((w.memory.setWord (b + Field.payload.offset) 0).header b).payload =
        (if (w.memory.header b).payload = (ledger w.host).data b then 0
          else (ledger w.host).data b) ∧
      ((w.memory.setWord (b + Field.payload.offset) 0).header b).size = (ledger w.host).size b := by
    rw [hself, if_pos hdata]
    exact ⟨rfl, hsize⟩
  exact ⟨⟨⟨hw.sound.laid.refill _ _ _,
    (hw.sound.headed.forget hb.1 hk hempty hself hbeside).refill _ _ _,
    hw.sound.reported.refill hreports hbeside, hw.sound.tallied.refill _ _ _, hw.sound.correct⟩,
    Throughout.cons_iff.2 ⟨trivial, hw.recorded⟩,
    (hw.recalled.alter_one hb hendures hkept).noted trivial ⟨_, _, rfl⟩⟩,
    fun c hc => ⟨hc, hbeside c hc.1 (hc.ne hb)⟩⟩

end Steady

/-! ### The operations keep states steady -/

section Ends

variable (play : (World History → Program) → Machine History Unit)

/-- A fresh block becomes the payload. -/
lemma Steady.replaced (hw : E.Steady w) (hb : (ledger w.host).Live b)
    (hk : (w.memory.header b).kind = .resizable) {n' : Word} (hn : n.toNat ≤ n'.toNat)
    (h0 : (E.allocate (.heap w.bindings.heap.addr) n' w).addr ≠ 0) :
    E.Reaches w (World.noted { E.handed (.heap w.bindings.heap.addr) n' w with
      memory := (E.handed (.heap w.bindings.heap.addr) n' w).memory.withPayload b
        (E.allocate (.heap w.bindings.heap.addr) n' w).addr n }
      (.refilled b (E.allocate (.heap w.bindings.heap.addr) n' w).addr n)) := by
  have hhanded := hw.handed h0 fun a ha => (Source.heap.inj ha).symm
  obtain ⟨howned, hroom, hs⟩ := hw.owned_handed h0
  have hb' : (ledger (E.handed (.heap w.bindings.heap.addr) n' w).host).Live b := by
    rw [ledger_handed h0]
    exact hb
  have hheader : (E.handed (.heap w.bindings.heap.addr) n' w).memory.header b =
      w.memory.header b := hw.header_granted (.inl hb.1) _ n'
  have hk' : ((E.handed (.heap w.bindings.heap.addr) n' w).memory.header b).kind =
      .resizable := by
    rw [hheader]
    exact hk
  have hfits : n.toNat ≤ (ledger (E.handed (.heap w.bindings.heap.addr) n' w).host).room
      (E.allocate (.heap w.bindings.heap.addr) n' w).addr := by
    rw [hroom]
    omega
  exact hhanded.trans (hhanded.1.exchanged hb' hk' fun _ => ⟨howned, hs, hfits⟩)

/-- A handle of fixed size is turned away before anything happens. -/
lemma requireResizable_fixed {operation : String} (hk : (w.memory.header b).kind ≠ .resizable) :
    Handle.requireResizable operation b w =
      .error (.violation (.notResizable operation)) w := by
  rw [requireResizable_run, if_neg hk]

/-- An attempt to get a new payload: it is there and only needs to be written down, or nothing has
changed. -/
def Refills (E : Environment) (b : Handle) (n : Word) (w : World History)
    (r : Except AllocError Addr) (w' : World History) : Prop :=
  match r with
  | .ok p => E.Reaches w (w'.noted (.refilled b p n))
  | .error _ => E.Reaches w w'

lemma resizableAlloc_ends (hw : E.Steady w) (hb : (ledger w.host).Live b) (n : Word) :
    E.Ends (Handle.resizableAlloc (E.hostOver play) b n).run w (Refills E b n w) := by
  by_cases hk : (w.memory.header b).kind = .resizable
  · have hrun := resizableAlloc_run play hw.sound.correct hk n
    by_cases h0 : (E.allocate (.heap w.bindings.heap.addr) (w.bindings.heap.asked n) w).addr = 0
    · rw [if_pos h0] at hrun
      exact Ends.of_ok hrun (hw.granted_null h0)
    · rw [if_neg h0] at hrun
      exact Ends.of_ok hrun (hw.replaced hb hk (HeapObject.le_asked _ n) h0)
  · have hrun : (Handle.resizableAlloc (E.hostOver play) b n).run w =
        .error (.violation (.notResizable "varsize_alloc")) w := by
      rw [Handle.resizableAlloc, Attempt.lift_bind_apply, requireResizable_fixed hk]
    exact Ends.of_error hrun hw.recorded

lemma resizableRealloc_ends (hw : E.Steady w) (hb : (ledger w.host).Live b) (n : Word) :
    E.Ends (Handle.resizableRealloc (E.hostOver play) b n).run w (Refills E b n w) := by
  by_cases hk : (w.memory.header b).kind = .resizable
  · have hrun := resizableRealloc_run play hw.sound.correct hk n
    by_cases hp : (w.memory.header b).payload = 0
    · rw [if_pos hp] at hrun
      by_cases h0 : (E.allocate (.heap w.bindings.heap.addr) (w.bindings.heap.asked n) w).addr = 0
      · rw [if_pos h0] at hrun
        exact Ends.of_ok hrun (hw.granted_null h0)
      · rw [if_neg h0] at hrun
        exact Ends.of_ok hrun (hw.replaced hb hk (HeapObject.le_asked _ n) h0)
    · rw [if_neg hp] at hrun
      by_cases h0 : (E.reallocate (.heap w.bindings.heap.addr) (w.memory.header b).payload
          (w.bindings.heap.asked n) w).addr = 0
      · rw [if_pos h0] at hrun
        exact Ends.of_ok hrun (hw.regranted_null (hw.payload hb.1 hk hp).1 h0)
      · rw [if_neg h0] at hrun
        exact Ends.of_ok hrun (hw.reallocated hb hk rfl hp (HeapObject.le_asked _ n) h0)
  · have hrun : (Handle.resizableRealloc (E.hostOver play) b n).run w =
        .error (.violation (.notResizable "varsize_realloc")) w := by
      rw [Handle.resizableRealloc, Attempt.lift_bind_apply, Machine.bind_apply,
        requireResizable_fixed hk]
    exact Ends.of_error hrun hw.recorded

/-- What a caller may free through a handle: nothing, the payload of a resizable handle, or a block
of the default heap that is his. -/
lemma resizableFree_ends (hw : E.Steady w) (hb : (ledger w.host).Live b)
    (hp : p = 0 ∨ (w.memory.header b).kind = .resizable ∧ p = (w.memory.header b).payload ∨
      (ledger w.host).Owned w.memory p ∧
        (ledger w.host).source p = .heap w.bindings.heap.addr) :
    E.Ends (Handle.resizableFree (E.hostOver play) b p) w fun _ w' =>
      E.Reaches w (w'.noted (.discarded b p)) := by
  refine Ends.of_ok (resizableFree_run play hw.sound.correct p) ?_
  have hdata := (hw.sound.reported b hb).1
  by_cases h0 : p = 0
  · rw [if_pos h0]
    have hnone : (ledger w.host).discard b p = ledger w.host :=
      (ledger w.host).discard_eq_self fun _ => h0
    by_cases he : p = (w.memory.header b).payload
    · rw [if_pos he]
      have hmemory := hw.withMemory (m := w.memory.setWord (b + Field.payload.offset) 0)
        fun c hc => by
          by_cases hne : c = b
          · subst hne
            rw [Memory.header_setField _ .payload 0 (hw.room_le hb.1).2, ← h0, he]
            rfl
          · exact hw.header_setField_of_ne w.memory hb.1 hc hne .payload 0
      exact hmemory.trans (hmemory.1.noted (e := .discarded b p) hnone trivial trivial)
    · rw [if_neg he]
      exact hw.noted (e := .discarded b p) hnone trivial trivial
  rw [if_neg h0]
  by_cases hk : (w.memory.header b).kind = .resizable ∧ p = (w.memory.header b).payload
  · obtain ⟨hk, rfl⟩ := hk
    have hbereft := hw.bereft hb.1 hk h0
    rw [hbereft.headers b hb.1, if_pos rfl]
    exact hw.cleared hb hbereft
  obtain ⟨howned, hs⟩ := (hp.resolve_left h0).resolve_left hk
  have hback := hw.handedBack howned hs
  have hheader : (E.handedBack (.heap w.bindings.heap.addr) p w).memory.header b =
      w.memory.header b :=
    hw.header_freed ⟨howned.1, hs⟩ (.inl hb.1) fun he => howned.2.1 (he ▸ hb.1)
  have hlive : (ledger (E.handedBack (.heap w.bindings.heap.addr) p w).host).Live b :=
    ⟨Finset.mem_erase.2 ⟨fun hbp => howned.2.1 (hbp ▸ hb.1), hb.1⟩, hb.2⟩
  by_cases he : p = (w.memory.header b).payload
  · have hne : p ≠ b := fun hpb => howned.2.1 (hpb ▸ hb.1)
    have hempty : (ledger w.host).own b = true → (w.memory.header b).size = 0 :=
      hw.size_eq_zero_of_payload hb.1 (he ▸ howned.1) (he ▸ hne)
    have hforgotten := hback.1.forgotten hlive (by rw [hheader]; exact fun h => hk ⟨h, he⟩)
      (by rw [hheader]; exact hempty)
    rw [hheader, ← he] at hforgotten
    rw [hheader, if_pos he]
    exact hback.trans hforgotten
  · rw [hheader, if_neg he]
    refine hback.trans (hback.1.noted (e := .discarded b p)
      (Ledger.discard_eq_self _ fun hp' => ?_) trivial trivial)
    exact absurd (hp'.trans hdata.symm) he

end Ends

end Environment

end CountedHeap
