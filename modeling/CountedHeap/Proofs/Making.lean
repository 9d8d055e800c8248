/-
Making handles

Every way to make a handle ends in one of two states: the attempt failed and nothing is left of it,
or there is a new handle whose header, block and count agree. The block of header and payload is
followed from the request for it to the header in it (`Roomy`, `Suits`).

* `alignOffset_lt`: the payload moves by less than its alignment, so it stays in its block;
* `Environment.allocateCombined_ends`, `Environment.allocateCombinedAligned_ends`: the block;
* `Environment.initWith_ends`: the header;
* `Environment.make_ends`: every request.
-/
import CountedHeap.Proofs.Exchange

namespace CountedHeap

open Memory (AgreeOn Apart)

/-! ### Alignment -/

lemma one_le_effectiveAlign (align : Word) : 1 ≤ (effectiveAlign align).toNat := by
  show 1 ≤ (if align ≤ 1 then 1 else align).toNat
  split
  · exact le_rfl
  · next h =>
    rw [UInt64.le_iff_toNat_le] at h
    have h1 : (1 : UInt64).toNat = 1 := rfl
    omega

lemma alignRemainder_lt (addr : Addr) {align : Word} (ha : 1 ≤ align.toNat) :
    (alignRemainder addr align).toNat < align.toNat := by
  unfold alignRemainder
  split
  · have hle : (addr &&& (align - 1)).toNat ≤ (align - 1).toNat := by
      rw [UInt64.toNat_and]
      exact Nat.and_le_right
    have hsub : (align - 1).toNat = align.toNat - 1 :=
      UInt64.toNat_sub_of_le _ _ (UInt64.le_iff_toNat_le.2 ha)
    omega
  · rw [UInt64.toNat_mod]
    exact Nat.mod_lt _ ha

/-- The next aligned address is less than an alignment away. -/
lemma alignOffset_lt (addr align : Word) :
    (alignOffset addr align).toNat < (effectiveAlign align).toNat := by
  have ha := one_le_effectiveAlign align
  have hr := alignRemainder_lt addr ha
  unfold alignOffset
  simp only
  split
  · exact ha
  · next h0 =>
    have hpos : (alignRemainder addr (effectiveAlign align)).toNat ≠ 0 :=
      fun h => h0 (UInt64.toNat_inj.1 h)
    rw [UInt64.toNat_sub_of_le _ _ (UInt64.le_iff_toNat_le.2 hr.le)]
    omega

lemma effectiveAlign_effectiveAlign (align : Word) :
    effectiveAlign (effectiveAlign align) = effectiveAlign align := by
  have ha := one_le_effectiveAlign align
  show (if effectiveAlign align ≤ 1 then 1 else effectiveAlign align) = _
  split
  · next h => exact UInt64.le_antisymm (UInt64.le_iff_toNat_le.2 ha) h
  · rfl

/-- Memory with another destructor and info word in a header. -/
def Memory.withDestructor (m : Memory) (b : Handle) (destructor info : Addr) :
    Memory :=
  (m.setWord (b + Field.destructor.offset) destructor).setWord (b + Field.info.offset) info

lemma Memory.header_withDestructor (m : Memory) {b : Handle} (destructor info : Addr)
    (hb : b.toNat + 56 ≤ UInt64.size) :
    (m.withDestructor b destructor info).header b =
      { m.header b with destructor := destructor, info := info } := by
  rw [withDestructor, header_setField _ .info info hb, header_setField _ .destructor _ hb]
  rfl

/-- A handle whose payload is not exchanged can have any destructor that does not need to know where
the payload is, beside all the others. -/
lemma Headed.redirect {E : Environment} {L : Ledger} {o : Addr} {b : Handle}
    {D D' : Handle → Header} (h : Headed E L o D) (hb : b ∈ L.handles)
    (hfixed : (D b).kind ≠ .resizable) {destructor info : Addr}
    (hd : destructor ≠ Adapter.resizable.addr ∧ destructor ≠ Adapter.customSafe.addr ∧
      destructor ≠ Adapter.safe.addr)
    (hself : D' b = { D b with destructor := destructor, info := info })
    (hD : ∀ c ∈ L.handles, c ≠ b → D' c = D c) : Headed E L o D' := by
  have hplace : ∀ c ∈ L.handles, (D' c).kind = (D c).kind ∧ (D' c).payload = (D c).payload := by
    intro c hc
    by_cases hne : c = b
    · rw [hne, hself]
      exact ⟨rfl, rfl⟩
    · rw [hD c hc hne]
      exact ⟨rfl, rfl⟩
  refine ⟨fun c hc => ?_, fun c hc c' hc' => ?_⟩
  · by_cases hne : c = b
    · subst hne
      have hs := h.header c hc
      rw [hself]
      refine ⟨hs.out, hs.room, hs.source, hs.counted,
        ⟨fun he => absurd he hd.1, fun he => absurd he hfixed⟩, hs.exchange, ?_,
        fun he => absurd he hd.2.2, hs.contained⟩
      rintro (he | he)
      · exact absurd he hd.2.1
      · exact absurd he hd.2.2
    · rw [hD c hc hne]
      exact h.header c hc
  · rw [(hplace c hc).1, (hplace c hc).2, (hplace c' hc').1, (hplace c' hc').2]
    exact h.single c hc c' hc'

namespace Environment

variable {E : Environment} {w : World History}
  (play : (World History → Program) → Machine History Unit)

/-! ### Blocks for handles -/

/-- A request for storage fails, or its caller has a block of the right size and source. -/
lemma allocateFrom_ends (hw : E.Steady w) (ext : Addr) (n : Word) :
    E.Ends (Storage.allocateFrom (E.hostOver play) ext n).run w fun r w' =>
      E.Reaches w w' ∧ ∀ p, r = .ok p → (ledger w'.host).Owned w'.memory p ∧
        n.toNat ≤ (ledger w'.host).room p ∧
        (ledger w'.host).source p = E.sourceAt w'.bindings.heap.addr ext := by
  rcases allocateFrom_cases play hw.sound.correct ext n with
    hrun | ⟨n', hn, ⟨h0, hrun⟩ | ⟨h0, hrun⟩⟩
  · exact Ends.of_ok hrun ⟨hw.refl, by simp⟩
  · exact Ends.of_ok hrun ⟨hw.granted_null h0, by simp⟩
  · refine Ends.of_ok hrun ⟨hw.handed h0 fun a ha => Steady.sourceAt_heap ha, fun p hp => ?_⟩
    obtain rfl := Except.ok.inj hp
    obtain ⟨howned, hroom, hs⟩ := hw.owned_handed h0
    exact ⟨howned, by rw [hroom]; omega, hs⟩

/-- A block of the caller's with room for a header and a payload behind it. -/
structure Roomy (E : Environment) (w : World History) (ext size : Word) (c : Combined) : Prop where
  owned : (ledger w.host).Owned w.memory c.header
  source : (ledger w.host).source c.header = E.sourceAt w.bindings.heap.addr ext
  payload : ∃ k, 56 ≤ k ∧ k + size.toNat ≤ (ledger w.host).room c.header ∧
    c.payload = c.header + UInt64.ofNat k

/-- An attempt to get such a block. -/
def Provides (E : Environment) (w : World History) (ext size : Word)
    (r : Except AllocError Combined) (w' : World History) : Prop :=
  E.Reaches w w' ∧ ∀ c, r = .ok c → Roomy E w' ext size c

lemma allocateCombined_ends (hw : E.Steady w) (size ext : Word) :
    E.Ends (allocateCombined (E.hostOver play) size ext).run w (Provides E w ext size) := by
  unfold allocateCombined
  cases hadd : Word.add? size headerSize with
  | none => exact Ends.of_ok rfl ⟨hw.refl, by simp⟩
  | some total =>
    have htotal : total.toNat = size.toNat + 56 := Word.ofNat?_eq_some_iff.1 hadd
    refine (allocateFrom_ends play hw ext total).attempt_bind (fun p w' h => ?_) (fun e w' h => ?_)
    · obtain ⟨hreach, hp⟩ := h
      obtain ⟨howned, hroom, hs⟩ := hp p rfl
      refine Ends.of_ok rfl ⟨hreach, fun c hc => ?_⟩
      obtain rfl := Except.ok.inj hc
      exact ⟨howned, hs, 56, le_rfl, by simp only; omega, rfl⟩
    · exact ⟨h.1, by simp⟩

lemma allocateCombinedAligned_ends (hw : E.Steady w) (size align ext : Word) :
    E.Ends (allocateCombinedAligned (E.hostOver play) size align ext).run w
      (Provides E w ext size) := by
  unfold allocateCombinedAligned
  cases hpad : paddedSize? size (effectiveAlign align) with
  | none =>
    simp only [hpad]
    exact Ends.of_ok rfl ⟨hw.refl, by simp⟩
  | some padded =>
    simp only [hpad]
    have hpadded : padded.toNat = size.toNat + 2 * (effectiveAlign align).toNat := by
      simp only [paddedSize?, Option.bind_eq_bind, Option.bind_eq_some_iff] at hpad
      obtain ⟨twice, hmul, hadd⟩ := hpad
      have h1 : twice.toNat = (effectiveAlign align).toNat * 2 := Word.ofNat?_eq_some_iff.1 hmul
      have h2 : padded.toNat = size.toNat + twice.toNat := Word.ofNat?_eq_some_iff.1 hadd
      omega
    refine (allocateCombined_ends play hw padded ext).attempt_bind (fun c w' h => ?_)
      (fun e w' h => ?_)
    · obtain ⟨hreach, hc⟩ := h
      obtain ⟨howned, hs, k, hk, hroom, hpay⟩ := hc c rfl
      refine Ends.of_ok rfl ⟨hreach, fun c' hc' => ?_⟩
      obtain rfl := Except.ok.inj hc'
      have hoff := alignOffset_lt c.payload (effectiveAlign align)
      rw [effectiveAlign_effectiveAlign] at hoff
      refine ⟨howned, hs, k + (alignOffset c.payload (effectiveAlign align)).toNat, by omega,
        by simp only; omega, ?_⟩
      simp only [hpay, UInt64.ofNat_add, UInt64.ofNat_toNat, UInt64.add_assoc]
    · exact ⟨h.1, by simp⟩

/-- The payload is poisoned before there is a handle. -/
lemma Steady.poisoned (hw : E.Steady w) {ext size : Word} {c : Combined}
    (hc : Roomy E w ext size c) (v : UInt8) :
    E.Reaches w { w with memory := w.memory.fill c.payload size.toNat v } ∧
      Roomy E { w with memory := w.memory.fill c.payload size.toNat v } ext size c := by
  obtain ⟨k, hk, hroom, hpay⟩ := hc.payload
  have hheader : ∀ b, E.Keeps w.host b →
      (w.memory.fill c.payload size.toNat v).header b = w.memory.header b := by
    intro b hb
    obtain ⟨hfitb, hapart⟩ := hw.apart_kept hb
    have hd := hapart _ hc.owned.1 (hw.ne_kept hc.owned.1 hc.owned.2.1 hb)
    have hfit := (hw.sound.laid.fits _ hc.owned.1).2.2
    exact Memory.header_fill_of_apart _ v hfitb fun _ =>
      Memory.contained_apart hroom hfit hpay hd
  refine ⟨hw.withMemory hheader, ⟨hc.owned.1, hc.owned.2.1, fun b hb hkb => ?_⟩, hc.source,
    hc.payload⟩
  simp only [hheader b (.inl hb)] at hkb ⊢
  exact hc.owned.2.2 b hb hkb

/-! ### Headers -/

lemma initWith_run (hc : E.Correct w.bindings.incDec) (b : Handle) (data : Addr) (size : Word)
    (destructor info ext : Addr) (kind : Kind) :
    Handle.initWith (E.hostOver play) b data size destructor info ext kind w =
      .ok () { w with
        memory := w.memory.write b (Header.bytes ⟨1, destructor, info, data, size, ext, kind⟩)
        stats := w.stats.bump .handleAlloc } := by
  simp only [Handle.initWith, Machine.bind_apply, Machine.modify_apply, trace_run]
  exact count_run play (w := { w with
    memory := w.memory.write b (Header.bytes ⟨1, destructor, info, data, size, ext, kind⟩) }) hc _

/-- A header that is written into a block of the caller's touches no other header. -/
lemma Steady.header_write_of_owned (hw : E.Steady w) {b c : Handle}
    (hb : (ledger w.host).Owned w.memory b) (hroom : 56 ≤ (ledger w.host).room b)
    (hc : E.Keeps w.host c) (d : Header) :
    (w.memory.write b d.bytes).header c = w.memory.header c := by
  have hfit := (hw.sound.laid.fits b hb.1).2.2
  obtain ⟨hfitc, hd⟩ := hw.apart_kept hc
  have hapart := hd b hb.1 (hw.ne_kept hb.1 hb.2.1 hc)
  exact Memory.header_write_header _ d (by omega) hfitc (hapart.mono_left hroom)

/-- A header that suits a block makes it a handle. -/
lemma Suits.reaches {b : Handle} {own : Bool} {d : Header} (hd : Suits E w b own d)
    (hw : E.Steady w) :
    E.Reaches w (World.noted { w with
      memory := w.memory.write b d.bytes, stats := w.stats.bump .handleAlloc }
      (.madeIn (w.memory.write b d.bytes) b own)) := by
  have hfit := (hw.sound.laid.fits b hd.owned.1).2.2
  have hroom := hd.room
  have hself := Memory.header_write w.memory (b := b) d (by omega)
  exact hw.make (hself.symm ▸ hd) fun c hc => hw.header_write_of_owned hd.owned hroom hc d

lemma initWith_ends (hw : E.Steady w) {b : Handle} {own : Bool} {data : Addr} {size : Word}
    {destructor info ext : Addr} {kind : Kind}
    (hd : Suits E w b own ⟨1, destructor, info, data, size, ext, kind⟩) :
    E.Ends (Handle.initWith (E.hostOver play) b data size destructor info ext kind) w fun _ w' =>
      E.Reaches w (w'.noted (.madeIn w'.memory b own)) :=
  Ends.of_ok (initWith_run play hw.sound.correct b data size destructor info ext kind)
    (hd.reaches hw)

lemma IsForeign.ne_addr {destructor : Addr} (h : IsForeign destructor) (a : Adapter) :
    destructor ≠ a.addr := by
  rintro rfl
  rw [IsForeign, Adapter.ofAddr?_addr] at h
  cases h

/-- A block with room for both becomes a handle with its payload behind the header. -/
lemma Roomy.suits {ext size : Word} {c : Combined} (hc : Roomy E w ext size c)
    {destructor info : Addr} (hd : destructor ≠ Adapter.resizable.addr)
    (hs : destructor = Adapter.safe.addr → info = size) :
    Suits E w c.header true ⟨1, destructor, info, c.payload, size, ext, .fixed⟩ := by
  obtain ⟨k, hk, hroom, hpay⟩ := hc.payload
  exact ⟨hc.owned, by omega, rfl, hc.source, ⟨fun h => absurd h hd, nofun⟩, nofun, fun _ => rfl, hs,
    fun _ => ⟨k, hk, hroom, hpay⟩⟩

/-- An attempt to make a handle: the new one is there and only needs to be written down, or nothing
is left behind. -/
def Makes (E : Environment) (own : Bool) (w : World History) (r : Except AllocError Handle)
    (w' : World History) : Prop :=
  match r with
  | .ok b => E.Reaches w (w'.noted (.madeIn w'.memory b own))
  | .error _ => E.Reaches w w'

/-- What was reached on the way to a new handle counts as reached with it. -/
lemma Makes.of_reaches {own : Bool} {w' w'' : World History} {r : Except AllocError Handle}
    (h : E.Reaches w w') (hm : Makes E own w' r w'') : Makes E own w r w'' := by
  cases r with
  | ok b => exact h.trans hm
  | error e => exact h.trans hm

section Combined

variable {ext size : Word} {x : Attempt History Combined} {destructor info : Addr}

lemma ofCombined_ends (hw : E.Steady w) {c : Combined} (hc : Roomy E w ext size c)
    (hd : destructor ≠ Adapter.resizable.addr)
    (hs : destructor = Adapter.safe.addr → info = size) :
    E.Ends (liftM (Handle.ofCombined (E.hostOver play) c size destructor info ext) :
      Attempt History Handle).run w (Makes E true w) := by
  refine Ends.lift ((initWith_ends play hw (hc.suits hd hs)).bind fun _ w' h => ?_)
  exact Ends.of_ok rfl h

/-- Header and payload in one block. -/
lemma combined_ends (hx : E.Ends x.run w (Provides E w ext size)) (t : Combined → Trace)
    (hd : destructor ≠ Adapter.resizable.addr)
    (hs : destructor = Adapter.safe.addr → info = size) :
    E.Ends (do
      let c ← x
      (E.hostOver play).trace (t c)
      Handle.ofCombined (E.hostOver play) c size destructor info ext :
      Attempt History Handle).run w (Makes E true w) := by
  refine hx.attempt_bind (fun c w' h => ?_) fun e w' h => h.1
  obtain ⟨hreach, hc⟩ := h
  refine Ends.lift_run (E.trace_run play w' _) ?_
  exact (ofCombined_ends play hreach.1 (hc c rfl) hd hs).mono fun _ _ => Makes.of_reaches hreach

/-- Header and payload in one block, with the payload poisoned. -/
lemma combined_poisoned_ends (hx : E.Ends x.run w (Provides E w ext size)) (v : UInt8)
    (t : Combined → Trace) (hd : destructor ≠ Adapter.resizable.addr)
    (hs : destructor = Adapter.safe.addr → info = size) :
    E.Ends (do
      let c ← x
      (Machine.fill c.payload size v : Machine History Unit)
      (E.hostOver play).trace (t c)
      Handle.ofCombined (E.hostOver play) c size destructor info ext :
      Attempt History Handle).run w (Makes E true w) := by
  refine hx.attempt_bind (fun c w' h => ?_) fun e w' h => h.1
  obtain ⟨hreach, hc⟩ := h
  obtain ⟨hfill, hc'⟩ := hreach.1.poisoned (hc c rfl) v
  refine Ends.lift_run rfl (Ends.lift_run (E.trace_run play _ _) ?_)
  exact (ofCombined_ends play hfill.1 hc' hd hs).mono fun _ _ =>
    Makes.of_reaches (hreach.trans hfill)

end Combined

/-! ### Handles on memory of the caller's -/

/-- A block that was asked for as a header is large enough for one. -/
lemma new_ends (hw : E.Steady w) (data : Addr) (size : Word) {destructor : Addr} (info : Addr)
    (hd : ∀ a : Adapter, a ≠ .managed → destructor ≠ a.addr) :
    E.Ends (Handle.new (E.hostOver play) data size destructor info).run w (Makes E false w) := by
  refine (allocateFrom_ends play hw 0 headerSize).attempt_bind (fun b w' h => ?_) fun e w' h => h.1
  obtain ⟨hreach, hb⟩ := h
  obtain ⟨howned, hroom, hs⟩ := hb b rfl
  refine Ends.lift_run (E.trace_run play w' _) ?_
  have hsuits : Suits E w' b false ⟨1, destructor, info, data, size, 0, .fixed⟩ := by
    refine ⟨howned, hroom, rfl, hs, ⟨fun h => absurd h (hd _ nofun), nofun⟩, nofun, ?_, ?_, nofun⟩
    · rintro (h | h)
      · exact absurd h (hd _ nofun)
      · exact absurd h (hd _ nofun)
    · exact fun h => absurd h (hd _ nofun)
  refine Ends.lift_bind (initWith_ends play hreach.1 hsuits) fun _ w'' h => ?_
  exact Ends.of_ok rfl (hreach.trans h)

/-! ### Resizable handles -/

/-- Payload and header are asked for one after the other, and the payload goes back if there is no
room for the header. -/
lemma newResizableWith_run (hc : E.Correct w.bindings.incDec) (size : Word) (finalizer : Addr) :
    let s := Source.heap w.bindings.heap.addr
    let n₁ := w.bindings.heap.asked size
    let n₂ := w.bindings.heap.asked headerSize
    let data := (E.allocate s n₁ w).addr
    let w₁ := E.handed s n₁ w
    let b := (E.allocate s n₂ w₁).addr
    (Handle.newResizableWith (E.hostOver play) size finalizer).run w =
      if data = 0 then .ok (.error (.outOfMemory size)) (E.granted s n₁ w)
      else if b = 0 then
        .ok (.error (.outOfMemory headerSize)) (E.handedBack s data (E.granted s n₂ w₁))
      else
        .ok (.ok b) { E.handed s n₂ w₁ with
          memory := (E.handed s n₂ w₁).memory.write b
            (Header.bytes ⟨1, Adapter.resizable.addr, finalizer, data, size, 0, .resizable⟩)
          stats := (E.handed s n₂ w₁).stats.bump .handleAlloc } := by
  intro s n₁ n₂ data w₁ b
  by_cases h0 : data = 0
  · have hdata : (Storage.allocate (E.hostOver play) size).run w =
        .ok (.error (.outOfMemory size)) (E.granted s n₁ w) :=
      (allocate_run play hc size).trans (if_pos h0)
    rw [if_pos h0, Handle.newResizableWith, Attempt.bind_apply, hdata]
  have hdata : (Storage.allocate (E.hostOver play) size).run w = .ok (.ok data) w₁ :=
    (allocate_run play hc size).trans (if_neg h0)
  rw [if_neg h0, Handle.newResizableWith, Attempt.bind_apply, hdata]
  by_cases hb : b = 0
  · have hheader : (Storage.allocate (E.hostOver play) headerSize).run w₁ =
        .ok (.error (.outOfMemory headerSize)) (E.granted s n₂ w₁) :=
      (allocate_run play (w := w₁) hc headerSize).trans (if_pos hb)
    have hfree : Storage.free (E.hostOver play) data (E.granted s n₂ w₁) =
        .ok () (E.handedBack s data (E.granted s n₂ w₁)) := by
      rw [free_run play (w := E.granted s n₂ w₁) hc data, if_neg h0]
      rfl
    simp only [Attempt.bind_apply, Attempt.tryCatch_apply, Attempt.lift_apply, hheader, hfree,
      Attempt.throw_apply, if_pos hb]
  · have hheader : (Storage.allocate (E.hostOver play) headerSize).run w₁ =
        .ok (.ok b) (E.handed s n₂ w₁) :=
      (allocate_run play (w := w₁) hc headerSize).trans (if_neg hb)
    have hinit := initWith_run play (w := E.handed s n₂ w₁) hc b data size
      Adapter.resizable.addr finalizer 0 .resizable
    simp only [Attempt.bind_apply, Attempt.tryCatch_apply, Attempt.lift_apply, hheader, hinit,
      trace_run, Attempt.pure_apply, if_neg hb]

/-- A failed request takes nothing away from a caller. -/
lemma Steady.owned_of_granted_null (hw : E.Steady w) {s : Source} {n : Word}
    (h0 : (E.allocate s n w).addr = 0) {q : Addr} (hq : (ledger w.host).Owned w.memory q) :
    (ledger (E.granted s n w).host).Owned (E.granted s n w).memory q ∧
      (ledger (E.granted s n w).host).source q = (ledger w.host).source q := by
  have hL : ledger (E.granted s n w).host = ledger w.host := by
    simp [granted, Ledger.after, h0]
  rw [hL]
  refine ⟨⟨hq.1, hq.2.1, fun b hb hk => ?_⟩, rfl⟩
  have hheader : (E.granted s n w).memory.header b = w.memory.header b :=
    hw.header_granted (.inl hb) s n
  rw [hheader] at hk ⊢
  exact hq.2.2 b hb hk

lemma newResizableWith_ends (hw : E.Steady w) (size : Word) (finalizer : Addr) :
    E.Ends (Handle.newResizableWith (E.hostOver play) size finalizer).run w (Makes E false w) := by
  have hrun := newResizableWith_run play hw.sound.correct size finalizer
  simp only at hrun
  set s := Source.heap w.bindings.heap.addr
  set n₁ := w.bindings.heap.asked size
  set n₂ := w.bindings.heap.asked headerSize
  set data := (E.allocate s n₁ w).addr
  set w₁ := E.handed s n₁ w
  set b := (E.allocate s n₂ w₁).addr
  have hheap : ∀ a, s = .heap a → a = w.bindings.heap.addr := fun a ha => (Source.heap.inj ha).symm
  by_cases h0 : data = 0
  · rw [if_pos h0] at hrun
    exact Ends.of_ok hrun (hw.granted_null h0)
  rw [if_neg h0] at hrun
  have hw₁ : E.Reaches w w₁ := hw.handed h0 hheap
  obtain ⟨howned, hroom, hs⟩ := hw.owned_handed h0
  by_cases hb : b = 0
  · rw [if_pos hb] at hrun
    have hw₂ := hw₁.1.granted_null hb
    obtain ⟨howned', hs'⟩ := hw₁.1.owned_of_granted_null hb howned
    exact Ends.of_ok hrun ((hw₁.trans hw₂).trans (hw₂.1.handedBack howned' (hs'.trans hs)))
  · rw [if_neg hb] at hrun
    have hw₂ := hw₁.1.handed hb hheap
    obtain ⟨hownedb, hroomb, hsb⟩ := hw₁.1.owned_handed hb
    obtain ⟨howned', hne, hroom', hs'⟩ := hw₁.1.owned_of_handed hb howned
    have hcustom : Adapter.resizable.addr ≠ Adapter.customSafe.addr :=
      Adapter.addr_ne (by decide)
    have hsafe : Adapter.resizable.addr ≠ Adapter.safe.addr := Adapter.addr_ne (by decide)
    have hsuits : Suits E (E.handed s n₂ w₁) b false
        ⟨1, Adapter.resizable.addr, finalizer, data, size, 0, .resizable⟩ := by
      refine ⟨hownedb, ?_, rfl, hsb, ⟨fun _ => rfl, fun _ => rfl⟩, fun _ => ⟨rfl, rfl, fun _ => ?_⟩,
        ?_, ?_, nofun⟩
      · rw [hroomb]
        exact (HeapObject.le_asked w.bindings.heap headerSize).trans (le_max_left _ _)
      · refine ⟨howned', hne, hs'.trans hs, ?_⟩
        rw [hroom', hroom]
        exact (HeapObject.le_asked w.bindings.heap size).trans (le_max_left _ _)
      · rintro (h | h)
        · exact absurd h hcustom
        · exact absurd h hsafe
      · exact fun h => absurd h hsafe
    exact Ends.of_ok hrun ((hw₁.trans hw₂).trans (hsuits.reaches hw₂.1))

/-! ### Handles with closures -/

/-- A program that is called from inside keeps states steady. -/
def Obeys (E : Environment) (play : (World History → Program) → Machine History Unit) : Prop :=
  ∀ p w, E.Steady w → E.Ends (play p) w fun _ w' => E.Reaches w w'

/-- The boxes of closures are of no account to handles and blocks. -/
lemma Steady.withBoxes (hw : E.Steady w) (boxes : Boxes) :
    E.Reaches w { w with boxes := boxes } :=
  ⟨⟨⟨hw.sound.laid, hw.sound.headed, hw.sound.reported, hw.sound.tallied, hw.sound.correct⟩,
    hw.recorded, hw.recalled⟩, fun _ hb => ⟨hb, rfl⟩⟩

/-- A closure is given up, whatever that makes its owner do. -/
lemma dropClosure_ends (hplay : Obeys E play) (hw : E.Steady w) (c : Nat) :
    E.Ends ((E.hostOver play).dropClosure c) w fun _ w' => E.Reaches w w' := by
  have hnoted : E.Reaches w (w.noted (.closureDropped c)) := hw.noted rfl trivial trivial
  refine Ends.bind_run (record_run w _) ?_
  exact (hplay _ _ hnoted.1).mono fun _ _ h => hnoted.trans h

/-- A handle whose payload lies in its own block gets another destructor before anyone has seen its
header, and not one that needs to know where the payload is. -/
lemma Steady.redirected (hw : E.Steady w) {b : Handle} (hb : (ledger w.host).Live b)
    (hnew : ∀ d, ¬ Seen b d w.host) (hown : (ledger w.host).own b = true) {destructor : Addr}
    (info : Addr)
    (hd : destructor ≠ Adapter.resizable.addr ∧ destructor ≠ Adapter.customSafe.addr ∧
      destructor ≠ Adapter.safe.addr) :
    E.Reaches w { w with memory := w.memory.withDestructor b destructor info } := by
  obtain ⟨-, hfit⟩ := hw.room_le hb.1
  have hs := hw.sound.headed.header b hb.1
  have hfixed : (w.memory.header b).kind ≠ .resizable := fun hk => by
    have hfar := (hs.exchange hk).1
    rw [hown] at hfar
    cases hfar
  set m := w.memory.withDestructor b destructor info
  have hself : m.header b = { w.memory.header b with destructor := destructor, info := info } :=
    w.memory.header_withDestructor destructor info hfit
  have hkept : ∀ c, E.Keeps w.host c → c ≠ b → m.header c = w.memory.header c := by
    intro c hc hne
    show (w.memory.withDestructor b destructor info).header c = _
    rw [Memory.withDestructor, hw.header_setField_of_ne _ hb.1 hc hne .info,
      hw.header_setField_of_ne _ hb.1 hc hne .destructor]
  have hbeside : ∀ c ∈ (ledger w.host).handles, c ≠ b → m.header c = w.memory.header c :=
    fun c hc => hkept c (.inl hc)
  have hrecalled : E.Recalled w.host m := by
    refine hw.recalled.alter fun c hc => ?_
    by_cases hcb : c = b
    · exact .inr ⟨hcb ▸ hb, fun d hd => absurd hd (hcb ▸ hnew d)⟩
    · exact .inl (hkept c hc hcb)
  have hheaded := hw.sound.headed.redirect hb.1 hfixed hd hself hbeside
  refine ⟨⟨⟨hw.sound.laid, hheaded, hw.sound.reported.transfer fun c hc => ⟨hc, rfl, rfl, ?_⟩,
    hw.sound.tallied, hw.sound.correct⟩, hw.recorded, hrecalled⟩,
    fun c hc => ⟨hc, hbeside c hc.1 (hc.ne hb)⟩⟩
  show (m.header c).payload = _ ∧ (m.header c).size = _
  by_cases hne : c = b
  · rw [hne, hself]
    exact ⟨rfl, rfl⟩
  · rw [hbeside c hc.1 hne]
    exact ⟨rfl, rfl⟩

lemma alloc_ends (hw : E.Steady w) (size : Word) :
    E.Ends (Handle.alloc (E.hostOver play) size).run w (Makes E true w) :=
  combined_ends play (allocateCombined_ends play hw size 0)
    (fun c => .payloadAllocated "alloc" c.payload) (Ne.symm (Adapter.addr_ne_zero _))
    fun h => absurd h.symm (Adapter.addr_ne_zero _)

/-- The closure waits in a box while its handle is made. If that fails, it is given up. -/
lemma allocClosure_ends (hplay : Obeys E play) (hw : E.Steady w) (size : Word) (closure : Nat) :
    E.Ends (Handle.allocClosure (E.hostOver play) size closure).run w (Makes E true w) := by
  set box := (w.boxes.make closure).1
  have hboxed := hw.withBoxes (w.boxes.make closure).2
  refine Ends.lift_run (a := box) rfl ?_
  have halloc := (alloc_ends play hboxed.1 size).mono fun _ _ => Makes.of_reaches hboxed
  refine Ends.attempt_bind (P := Makes E true w) (halloc.attempt_catch (fun b w' h => h)
    fun e w' h => ?_) (fun b w' h => ?_) fun e w' h => h
  · have hempty := h.1.withBoxes (w'.boxes.erase box)
    refine Ends.lift_run (a := w'.boxes.find? box) rfl ?_
    cases w'.boxes.find? box with
    | none => exact Ends.of_ok rfl (h.trans hempty)
    | some c =>
      refine Ends.lift_bind (dropClosure_ends play hplay hempty.1 c) fun _ w'' h' => ?_
      exact Ends.of_ok rfl ((h.trans hempty).trans h')
  · set e := Event.madeIn w'.memory b true
    have hlive : (ledger (w'.noted e).host).Live b := by
      refine ⟨Finset.mem_insert_self _ _, ?_⟩
      show 1 ≤ Function.update (ledger w'.host).refs b 1 b
      rw [Function.update_self]
    have hown : (ledger (w'.noted e).host).own b = true := Function.update_self _ _ _
    have hfit := (h.1.room_le hlive.1).2
    have hnew : ∀ d, ¬ Seen b d (w'.noted e).host := by
      rintro d (hd | ⟨hd, -⟩)
      · exact hd
      · exact hd rfl
    have hset := h.1.redirected hlive hnew hown box
      ⟨Adapter.addr_ne (a := .boxed) (by decide), Adapter.addr_ne (a := .boxed) (by decide),
        Adapter.addr_ne (a := .boxed) (by decide)⟩
    set m := w'.memory.withDestructor b Adapter.boxed.addr box
    have hsame : Event.madeIn m b true = e := by
      rw [Event.madeIn, Memory.header_withDestructor _ _ _ hfit]
      rfl
    refine Ends.lift_run rfl (Ends.of_ok rfl ?_)
    show E.Reaches w (World.noted { w' with memory := m } (.madeIn m b true))
    rw [hsame]
    exact h.trans hset

/-! ### All requests -/

/-- Every request makes a sound handle, or leaves nothing behind. -/
lemma make_ends (hplay : Obeys E play) (hw : E.Steady w) (r : Request) (hr : r.Plain) :
    E.Ends (r.make (E.hostOver play)).run w (Makes E r.combined w) := by
  have hcustom : Adapter.custom.addr ≠ Adapter.resizable.addr := Adapter.addr_ne (by decide)
  have hcustom' : Adapter.custom.addr ≠ Adapter.safe.addr := Adapter.addr_ne (by decide)
  have hpoison : Adapter.customSafe.addr ≠ Adapter.resizable.addr := Adapter.addr_ne (by decide)
  have hpoison' : Adapter.customSafe.addr ≠ Adapter.safe.addr := Adapter.addr_ne (by decide)
  have hsafe : Adapter.safe.addr ≠ Adapter.resizable.addr := Adapter.addr_ne (by decide)
  have hnone : (0 : Addr) ≠ Adapter.resizable.addr := Ne.symm (Adapter.addr_ne_zero _)
  have hnone' : (0 : Addr) ≠ Adapter.safe.addr := Ne.symm (Adapter.addr_ne_zero _)
  cases r with
  | new data size destructor info =>
    exact new_ends play hw data size info fun a _ => IsForeign.ne_addr hr a
  | alloc size => exact alloc_ends play hw size
  | allocExternal size ext =>
    exact combined_ends play (allocateCombined_ends play hw size ext)
      (fun c => .payloadAllocated "alloc_external" c.payload) hnone fun h => absurd h hnone'
  | allocSafe size =>
    exact combined_poisoned_ends play (allocateCombined_ends play hw size 0) _
      (fun c => .payloadSized "alloc_dtor_safe" c.payload size) hpoison fun h => absurd h hpoison'
  | allocDestructor size destructor =>
    exact combined_ends play (allocateCombined_ends play hw size 0)
      (fun c => .payloadSized "alloc_dtor" c.payload size) hcustom fun h => absurd h hcustom'
  | allocDestructorSafe size destructor =>
    exact combined_poisoned_ends play (allocateCombined_ends play hw size 0) _
      (fun c => .payloadSized "alloc_dtor_safe" c.payload size) hpoison fun h => absurd h hpoison'
  | allocAligned size align =>
    exact combined_ends play (allocateCombinedAligned_ends play hw size align 0)
      (fun c => .payloadAllocated "alloc_aligned" c.payload) hnone fun h => absurd h hnone'
  | allocSafeAligned size align =>
    exact combined_poisoned_ends play (allocateCombinedAligned_ends play hw size align 0) _
      (fun c => .payloadSized "alloc_safe_aligned" c.payload size) hsafe fun _ => rfl
  | allocSafeAlignedExternal size align ext =>
    exact combined_poisoned_ends play (allocateCombinedAligned_ends play hw size align ext) _
      (fun c => .payloadSized "alloc_safe_aligned" c.payload size) hsafe fun _ => rfl
  | allocClosure size closure => exact allocClosure_ends play hplay hw size closure
  | manage data finalizer =>
    exact new_ends play hw data 0 finalizer fun a ha => Adapter.addr_ne (Ne.symm ha)
  | newResizable size => exact newResizableWith_ends play hw size 0
  | newResizableWith size finalizer => exact newResizableWith_ends play hw size finalizer

end Environment

end CountedHeap
