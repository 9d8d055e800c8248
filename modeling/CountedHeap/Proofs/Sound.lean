/-
What the ledger and the runtime have in common

The ledger is read off the history and knows nothing of memory, bindings or counters. Between two
steps of a caller it agrees with all three of them, and this module says how: blocks are laid out
apart from each other and belong to the heap that is bound (`Ledger.Laid`), every handle has a
header that fits its block, its allocator and its references (`Headed`), live handles report the
payloads and sizes that they got last (`Reported`), and the counters count what the ledger lists
(`Ledger.Tallied`). `Environment.Sound` is all of it.

Each part has one lemma for each way in which a ledger changes; the memory enters only through the
headers that can be read in it.
-/
import CountedHeap.Proofs.Callers

namespace CountedHeap

open Memory (Apart)

/-! ### Blocks -/

namespace Ledger

/-- Blocks lie in memory, apart from each other, and those of a default heap belong to the one that
is bound. -/
structure Laid (L : Ledger) (o : Addr) : Prop where
  fits : ∀ p ∈ L.blocks, p ≠ 0 ∧ 1 ≤ L.room p ∧ p.toNat + L.room p ≤ UInt64.size
  apart : ∀ p ∈ L.blocks, ∀ q ∈ L.blocks, p ≠ q → Apart p (L.room p) q (L.room q)
  bound : ∀ p ∈ L.blocks, ∀ a, L.source p = .heap a → a = o

variable {L : Ledger} {o : Addr} {s : Source} {n : Word} {p q : Addr}

/-- A new block lies where no block was. -/
lemma Fresh.not_mem (h : L.Fresh p (max n.toNat 1)) (hL : L.Laid o) : p ∉ L.blocks := by
  intro hp
  have hfit := hL.fits p hp
  have hd := h.2.2 p hp
  unfold Apart at hd
  omega

namespace Laid

lemma grant (hL : L.Laid o) (hp : L.Fresh p (max n.toNat 1)) (hs : ∀ a, s = .heap a → a = o) :
    (L.grant s n p).Laid o := by
  have hnew := hp.not_mem hL
  have hne : ∀ q ∈ L.blocks, q ≠ p := fun q hq he => hnew (he ▸ hq)
  obtain ⟨hp0, hfit, hd⟩ := hp
  refine ⟨?_, ?_, ?_⟩
  · intro q hq
    rcases Finset.mem_insert.1 hq with rfl | hq'
    · refine ⟨hp0, ?_, ?_⟩
      all_goals simp only [Ledger.grant, Function.update_self]; omega
    · simpa only [Ledger.grant, Function.update_of_ne (hne q hq')] using hL.fits q hq'
  · intro q hq r hr hqr
    rcases Finset.mem_insert.1 hq with rfl | hq' <;> rcases Finset.mem_insert.1 hr with rfl | hr'
    · exact absurd rfl hqr
    · simpa only [Ledger.grant, Function.update_self, Function.update_of_ne (hne r hr')] using
        hd r hr'
    · simpa only [Ledger.grant, Function.update_self, Function.update_of_ne (hne q hq')] using
        Apart.symm (hd q hq')
    · simpa only [Ledger.grant, Function.update_of_ne (hne q hq'),
        Function.update_of_ne (hne r hr')] using hL.apart q hq' r hr' hqr
  · intro q hq a ha
    rcases Finset.mem_insert.1 hq with rfl | hq'
    · exact hs a (by simpa only [Ledger.grant, Function.update_self] using ha)
    · simp only [Ledger.grant, Function.update_of_ne (hne q hq')] at ha
      exact hL.bound q hq' a ha

lemma without (hL : L.Laid o) (p : Addr) : (L.without p).Laid o :=
  ⟨fun q hq => hL.fits q (Finset.mem_of_mem_erase hq),
    fun q hq r hr => hL.apart q (Finset.mem_of_mem_erase hq) r (Finset.mem_of_mem_erase hr),
    fun q hq => hL.bound q (Finset.mem_of_mem_erase hq)⟩

/-- Where no block is out, any heap may be bound. -/
lemma rebind (hL : L.Laid o) (h : L.blocks = ∅) (o' : Addr) : L.Laid o' :=
  ⟨hL.fits, hL.apart, by simp [h]⟩

lemma refill (hL : L.Laid o) (b : Handle) (p : Addr) (n : Word) : (L.refill b p n).Laid o :=
  ⟨hL.fits, hL.apart, hL.bound⟩

/-- There are fewer blocks than addresses, since none lies at the null address. -/
lemma card_lt (hL : L.Laid o) : L.blocks.card < UInt64.size := by
  have hinj : Set.InjOn UInt64.toNat (L.blocks : Set Addr) :=
    fun p _ q _ h => UInt64.toNat_inj.1 h
  have hsub : L.blocks.image UInt64.toNat ⊆ (Finset.range UInt64.size).erase 0 := by
    intro i hi
    obtain ⟨p, hp, rfl⟩ := Finset.mem_image.1 hi
    have hp0 : p.toNat ≠ 0 := fun h => (hL.fits p hp).1 (UInt64.toNat_inj.1 h)
    exact Finset.mem_erase.2 ⟨hp0, Finset.mem_range.2 p.toNat_lt_size⟩
  calc L.blocks.card = (L.blocks.image UInt64.toNat).card := (Finset.card_image_of_injOn hinj).symm
    _ ≤ ((Finset.range UInt64.size).erase 0).card := Finset.card_le_card hsub
    _ < (Finset.range UInt64.size).card :=
        Finset.card_erase_lt_of_mem (Finset.mem_range.2 (by decide))
    _ = UInt64.size := Finset.card_range _

end Laid

end Ledger

/-! ### Headers -/

/-- No two adapters have the same address. -/
lemma Adapter.addr_injective : Function.Injective Adapter.addr := by
  intro a a' h
  have ha := Adapter.ofAddr?_addr a
  rw [h, Adapter.ofAddr?_addr] at ha
  exact (Option.some.inj ha).symm

lemma Adapter.addr_ne {a a' : Adapter} (h : a ≠ a') : a.addr ≠ a'.addr :=
  fun he => h (Adapter.addr_injective he)

/-- A header that fits its block, its allocator and its references. A header whose handle is
already ending says nothing about references any more. -/
structure HeaderSound (E : Environment) (L : Ledger) (o : Addr) (b : Handle) (d : Header) :
    Prop where
  out : b ∈ L.blocks
  room : 56 ≤ L.room b
  source : L.source b = E.sourceAt o d.external
  counted : 0 < L.refs b → L.refs b ≤ UInt64.size ∧ d.refcount = UInt64.ofNat (L.refs b)
  adapter : d.destructor = Adapter.resizable.addr ↔ d.kind = .resizable
  /-- The payload of a resizable handle is a block of the default heap that nobody else has. -/
  exchange : d.kind = .resizable → L.own b = false ∧ d.external = 0 ∧ (d.payload ≠ 0 →
    L.Holds (.heap o) d.payload ∧ d.payload ∉ L.handles ∧ d.size.toNat ≤ L.room d.payload)
  /-- What is poisoned lies in the handle's own block, behind the header. -/
  poisoned : d.destructor = Adapter.customSafe.addr ∨ d.destructor = Adapter.safe.addr →
    L.own b = true
  sized : d.destructor = Adapter.safe.addr → d.info = d.size
  contained : L.own b = true → d.size ≠ 0 ∨ d.payload ≠ 0 →
    ∃ k, 56 ≤ k ∧ k + d.size.toNat ≤ L.room b ∧ d.payload = b + UInt64.ofNat k

/-- All handles have sound headers, and no two resizable handles have the same payload. -/
structure Headed (E : Environment) (L : Ledger) (o : Addr) (D : Handle → Header) : Prop where
  header : ∀ b ∈ L.handles, HeaderSound E L o b (D b)
  single : ∀ b ∈ L.handles, ∀ c ∈ L.handles, (D b).kind = .resizable → (D c).kind = .resizable →
    (D b).payload ≠ 0 → (D b).payload = (D c).payload → b = c

section Headers

variable {E : Environment} {L L' : Ledger} {o : Addr} {b : Handle} {d : Header}
  {D D' : Handle → Header} {s : Source} {n : Word} {p : Addr}

/-- A header stays sound as long as its own block and its payload's stay as they are. -/
lemma HeaderSound.transfer (h : HeaderSound E L o b d)
    (hblock : ∀ p ∈ L.blocks, p = b ∨ d.kind = .resizable ∧ p = d.payload →
      p ∈ L'.blocks ∧ L'.room p = L.room p ∧ L'.source p = L.source p)
    (hpayload : d.kind = .resizable → d.payload ≠ 0 → d.payload ∉ L.handles →
      d.payload ∉ L'.handles)
    (hrefs : L'.refs b = L.refs b) (hown : L'.own b = L.own b) : HeaderSound E L' o b d := by
  obtain ⟨hout, hroom, hsource⟩ := hblock b h.out (.inl rfl)
  refine ⟨hout, hroom ▸ h.room, hsource.trans h.source, ?_, h.adapter, ?_, ?_, h.sized, ?_⟩
  · rw [hrefs]
    exact h.counted
  · intro hk
    obtain ⟨hfar, hext, hpay⟩ := h.exchange hk
    refine ⟨hown.trans hfar, hext, fun h0 => ?_⟩
    obtain ⟨⟨hin, hs⟩, hnot, hsize⟩ := hpay h0
    obtain ⟨hin', hroom', hs'⟩ := hblock _ hin (.inr ⟨hk, rfl⟩)
    exact ⟨⟨hin', hs'.trans hs⟩, hpayload hk h0 hnot, hroom' ▸ hsize⟩
  · rw [hown]
    exact h.poisoned
  · rw [hown, hroom]
    exact h.contained

namespace Headed

lemma congr (h : Headed E L o D) (hD : ∀ b ∈ L.handles, D' b = D b) : Headed E L o D' := by
  refine ⟨fun b hb => ?_, fun b hb c hc => ?_⟩
  · rw [hD b hb]
    exact h.header b hb
  · rw [hD b hb, hD c hc]
    exact h.single b hb c hc

/-- Where there is no handle, there is no header that could be wrong. -/
lemma of_empty (h : L.handles = ∅) : Headed E L o D := by
  constructor
  all_goals simp [h]

lemma grant (h : Headed E L o D) (hp : p ∉ L.blocks) : Headed E (L.grant s n p) o D := by
  refine ⟨fun b hb => (h.header b hb).transfer (fun q hq _ => ?_) (fun _ _ hn => hn) rfl rfl,
    h.single⟩
  have hne : q ≠ p := fun he => hp (he ▸ hq)
  exact ⟨Finset.mem_insert_of_mem hq, Function.update_of_ne hne _ _,
    Function.update_of_ne hne _ _⟩

/-- A block that is nobody's payload may go, and if it is a handle, the handle goes with it. -/
lemma without (h : Headed E L o D)
    (hpay : ∀ b ∈ L.handles, (D b).kind = .resizable → (D b).payload ≠ p) :
    Headed E (L.without p) o D := by
  have hmem : ∀ b ∈ (L.without p).handles, b ∈ L.handles := fun b hb => Finset.mem_of_mem_erase hb
  refine ⟨fun b hb => (h.header b (hmem b hb)).transfer (fun q hq hq' => ?_)
    (fun _ _ hn hn' => hn (hmem _ hn')) rfl rfl,
    fun b hb c hc => h.single b (hmem b hb) c (hmem c hc)⟩
  refine ⟨Finset.mem_erase.2 ⟨?_, hq⟩, rfl, rfl⟩
  rcases hq' with rfl | ⟨hk, rfl⟩
  · exact (Finset.mem_erase.1 hb).1
  · exact hpay b (hmem b hb) hk

/-- No handle is the payload of another. -/
lemma payload_ne (h : Headed E L o D) (hb : b ∈ L.handles) {c : Handle} (hc : c ∈ L.handles)
    (hk : (D c).kind = .resizable) (h0 : b ≠ 0) : (D c).payload ≠ b := by
  rintro rfl
  exact ((h.header c hc).exchange hk).2.2 h0 |>.2.1 hb

lemma abandon (h : Headed E L o D) (b : Handle) : Headed E (L.abandon b) o D := by
  have hmem : ∀ c ∈ (L.abandon b).handles, c ∈ L.handles := fun c hc => Finset.mem_of_mem_erase hc
  exact ⟨fun c hc => (h.header c (hmem c hc)).transfer (fun q hq _ => ⟨hq, rfl, rfl⟩)
    (fun _ _ hn hn' => hn (hmem _ hn')) rfl rfl,
    fun c hc c' hc' => h.single c (hmem c hc) c' (hmem c' hc')⟩

/-- A block of the caller's becomes a handle. -/
lemma make (h : Headed E L o D) {own : Bool} (hb : b ∉ L.handles)
    (hpay : ∀ c ∈ L.handles, (D c).kind = .resizable → (D c).payload ≠ b)
    (hD : ∀ c ∈ L.handles, D' c = D c) {data : Addr} {size : Word}
    (hnew : HeaderSound E (L.make b own data size) o b (D' b))
    (hsingle : ∀ c ∈ L.handles, (D' b).kind = .resizable → (D c).kind = .resizable →
      (D' b).payload ≠ 0 → (D' b).payload ≠ (D c).payload) :
    Headed E (L.make b own data size) o D' := by
  have hne : ∀ c ∈ L.handles, c ≠ b := fun c hc he => hb (he ▸ hc)
  refine ⟨?_, ?_⟩
  · intro c hc
    rcases Finset.mem_insert.1 hc with rfl | hc'
    · exact hnew
    rw [hD c hc']
    refine (h.header c hc').transfer (fun q hq _ => ⟨hq, rfl, rfl⟩) ?_
      (Function.update_of_ne (hne c hc') _ _) (Function.update_of_ne (hne c hc') _ _)
    intro hk _ hn hn'
    rcases Finset.mem_insert.1 hn' with he | hn'
    · exact hpay c hc' hk he
    · exact hn hn'
  · intro c hc c' hc' hk hk' h0 he
    rcases Finset.mem_insert.1 hc with rfl | hin <;> rcases Finset.mem_insert.1 hc' with rfl | hin'
    · rfl
    · rw [hD c' hin'] at hk' he
      exact absurd he (hsingle c' hin' hk hk' h0)
    · rw [hD c hin] at hk he h0
      exact absurd he.symm (hsingle c hin hk' hk (he ▸ h0))
    · rw [hD c hin] at hk he h0
      rw [hD c' hin'] at hk' he
      exact h.single c hin c' hin' hk hk' h0 he

/-- The references of a handle change, and the count with them. -/
lemma setRefs (h : Headed E L o D) {k : Nat} (hk : k ≤ UInt64.size)
    (hself : 0 < k → D' b = { D b with refcount := UInt64.ofNat k })
    (hzero : ∃ v, D' b = { D b with refcount := v })
    (hD : ∀ c ∈ L.handles, c ≠ b → D' c = D c) : Headed E (L.setRefs b k) o D' := by
  have hsame : ∀ c ∈ L.handles, ∃ v, D' c = { D c with refcount := v } := by
    intro c hc
    by_cases he : c = b
    · exact he ▸ hzero
    · exact ⟨_, hD c hc he⟩
  refine ⟨fun c hc => ?_, fun c hc c' hc' => ?_⟩
  · have hcs := h.header c hc
    obtain ⟨v, hv⟩ := hsame c hc
    refine ⟨hcs.out, hcs.room, ?_, ?_, ?_, ?_, ?_, ?_, ?_⟩
    · rw [hv]
      exact hcs.source
    · intro hpos
      by_cases he : c = b
      · subst he
        simp only [Ledger.setRefs, Function.update_self] at hpos ⊢
        exact ⟨hk, by rw [hself hpos]⟩
      · simp only [Ledger.setRefs, Function.update_of_ne he] at hpos ⊢
        rw [hD c hc he]
        exact hcs.counted hpos
    all_goals rw [hv]
    · exact hcs.adapter
    · exact hcs.exchange
    · exact hcs.poisoned
    · exact hcs.sized
    · exact hcs.contained
  · obtain ⟨v, hv⟩ := hsame c hc
    obtain ⟨v', hv'⟩ := hsame c' hc'
    rw [hv, hv']
    exact h.single c hc c' hc'

/-- Headers are sound whatever handles report. -/
lemma refill (h : Headed E L o D) (b : Handle) (p : Addr) (n : Word) :
    Headed E (L.refill b p n) o D :=
  ⟨fun c hc => (h.header c hc).transfer (fun _ hq _ => ⟨hq, rfl, rfl⟩) (fun _ _ hn => hn) rfl rfl,
    h.single⟩

/-- A handle on a block of the caller's loses sight of it. Where the payload lies in the handle's
own block, this takes an empty one. -/
lemma forget (h : Headed E L o D) (hb : b ∈ L.handles) (hk : (D b).kind ≠ .resizable)
    (hempty : L.own b = true → (D b).size = 0) (hself : D' b = { D b with payload := 0 })
    (hD : ∀ c ∈ L.handles, c ≠ b → D' c = D c) : Headed E L o D' := by
  have hkind : ∀ c ∈ L.handles, (D' c).kind = (D c).kind := by
    intro c hc
    by_cases he : c = b
    · rw [he, hself]
    · rw [hD c hc he]
  have hpay : ∀ c ∈ L.handles, (D' c).kind = .resizable → D' c = D c := by
    intro c hc hkc
    refine hD c hc fun he => ?_
    rw [hkind c hc, he] at hkc
    exact hk hkc
  refine ⟨fun c hc => ?_, fun c hc c' hc' hkc hkc' => ?_⟩
  · by_cases he : c = b
    · subst he
      have hcs := h.header c hc
      rw [hself]
      refine ⟨hcs.out, hcs.room, hcs.source, hcs.counted, hcs.adapter, fun hk' => absurd hk' hk,
        hcs.poisoned, hcs.sized, fun hown hne => ?_⟩
      rcases hne with hne | hne
      · exact absurd (hempty hown) hne
      · exact absurd rfl hne
    · rw [hD c hc he]
      exact h.header c hc
  · rw [hpay c hc hkc, hpay c' hc' hkc']
    rw [hkind c hc] at hkc
    rw [hkind c' hc'] at hkc'
    exact h.single c hc c' hc' hkc hkc'

/-- A resizable handle gets another payload, or none. -/
lemma setPayload (h : Headed E L o D) (hb : b ∈ L.handles) (hk : (D b).kind = .resizable)
    (hself : ∃ q m, D' b = { D b with payload := q, size := m } ∧ (q ≠ 0 →
      L.Holds (.heap o) q ∧ q ∉ L.handles ∧ m.toNat ≤ L.room q ∧
        ∀ c ∈ L.handles, c ≠ b → (D c).kind = .resizable → (D c).payload ≠ q))
    (hD : ∀ c ∈ L.handles, c ≠ b → D' c = D c) : Headed E L o D' := by
  obtain ⟨q, m, hq, hfit⟩ := hself
  refine ⟨fun c hc => ?_, ?_⟩
  · by_cases he : c = b
    · subst he
      have hcs := h.header c hc
      rw [hq]
      refine ⟨hcs.out, hcs.room, hcs.source, hcs.counted, hcs.adapter, ?_, hcs.poisoned, ?_, ?_⟩
      · intro _
        refine ⟨(hcs.exchange hk).1, (hcs.exchange hk).2.1, fun h0 => ?_⟩
        obtain ⟨h1, h2, h3, -⟩ := hfit h0
        exact ⟨h1, h2, h3⟩
      · intro hs
        have hr := hcs.adapter.2 hk
        simp only at hs
        rw [hr] at hs
        exact absurd (Adapter.addr_injective hs) nofun
      · rw [(hcs.exchange hk).1]
        intro hf
        cases hf
    · rw [hD c hc he]
      exact h.header c hc
  · intro c hc c' hc' hkc hkc' h0 he
    by_cases hcb : c = b <;> by_cases hcb' : c' = b
    · rw [hcb, hcb']
    · subst hcb
      rw [hD c' hc' hcb'] at hkc' he
      rw [hq] at h0 he
      exact absurd he.symm ((hfit h0).2.2.2 c' hc' hcb' hkc')
    · subst hcb'
      rw [hD c hc hcb] at hkc he h0
      rw [hq] at he
      have h0' : q ≠ 0 := fun hz => h0 (he.trans hz)
      exact absurd he ((hfit h0').2.2.2 c hc hcb hkc)
    · rw [hD c hc hcb] at hkc he h0
      rw [hD c' hc' hcb'] at hkc' he
      exact h.single c hc c' hc' hkc hkc' h0 he

end Headed

end Headers

/-! ### Payloads -/

/-- Every live handle reports the payload and the size that it got last. -/
def Reported (L : Ledger) (D : Handle → Header) : Prop :=
  ∀ b, L.Live b → (D b).payload = L.data b ∧ (D b).size = L.size b

section Payloads

variable {L L' : Ledger} {D D' : Handle → Header} {b : Handle}

/-- What live handles report does not change unless their headers or their payloads do. -/
lemma Reported.transfer (h : Reported L D)
    (hsame : ∀ c, L'.Live c → L.Live c ∧ L'.data c = L.data c ∧ L'.size c = L.size c ∧
      (D' c).payload = (D c).payload ∧ (D' c).size = (D c).size) : Reported L' D' := by
  intro c hc
  obtain ⟨hlive, hdata, hsize, hpay, hsz⟩ := hsame c hc
  rw [hdata, hsize, hpay, hsz]
  exact h c hlive

lemma Reported.congr (h : Reported L D) (hD : ∀ c ∈ L.handles, D' c = D c) : Reported L D' :=
  h.transfer fun c hc => by
    rw [hD c hc.1]
    exact ⟨hc, rfl, rfl, rfl, rfl⟩

/-- The same where one handle reports something new, and the ledger knows it. -/
lemma Reported.update (h : Reported L D)
    (hself : L'.Live b → (D' b).payload = L'.data b ∧ (D' b).size = L'.size b)
    (hsame : ∀ c ≠ b, L'.Live c → L.Live c ∧ L'.data c = L.data c ∧ L'.size c = L.size c ∧
      D' c = D c) : Reported L' D' := by
  intro c hc
  by_cases he : c = b
  · subst he
    exact hself hc
  · obtain ⟨hlive, hdata, hsize, hheader⟩ := hsame c he hc
    rw [hdata, hsize, hheader]
    exact h c hlive

lemma Reported.without (h : Reported L D) (p : Addr) : Reported (L.without p) D :=
  fun c hc => h c ⟨Finset.mem_of_mem_erase hc.1, hc.2⟩

lemma Reported.abandon (h : Reported L D) (b : Handle) : Reported (L.abandon b) D :=
  fun c hc => h c ⟨Finset.mem_of_mem_erase hc.1, hc.2⟩

/-- A handle gets another payload, and reports it. -/
lemma Reported.refill (h : Reported L D) {p : Addr} {n : Word}
    (hself : (D' b).payload = p ∧ (D' b).size = n)
    (hD : ∀ c ∈ L.handles, c ≠ b → D' c = D c) : Reported (L.refill b p n) D' := by
  refine h.update (b := b) (fun _ => ?_) fun c hne hc => ?_
  · simpa only [Ledger.refill, Function.update_self] using hself
  · exact ⟨hc, Function.update_of_ne hne _ _, Function.update_of_ne hne _ _, hD c hc.1 hne⟩

/-- References are of no account to what a handle reports, as long as it has one. -/
lemma Reported.setRefs (h : Reported L D) {k : Nat} (hlive : 0 < k → L.Live b)
    (hD : ∀ c ∈ L.handles, ∃ v, D' c = { D c with refcount := v }) :
    Reported (L.setRefs b k) D' := by
  refine h.transfer fun c hc => ?_
  obtain ⟨v, hv⟩ := hD c hc.1
  rw [hv]
  refine ⟨?_, rfl, rfl, rfl, rfl⟩
  by_cases he : c = b
  · subst he
    have hpos : 1 ≤ k := by simpa only [Ledger.setRefs, Function.update_self] using hc.2
    exact hlive hpos
  · exact ⟨hc.1, by simpa only [Ledger.setRefs, Function.update_of_ne he] using hc.2⟩

end Payloads

/-! ### Counters -/

/-- One more event is counted. -/
def Stats.bump (s : Stats) (k : Counter) : Stats := s.set (s.get k + 1) k

namespace Ledger

/-- The counters count what the ledger lists, modulo what a word can hold. -/
structure Tallied (L : Ledger) (s : Stats) : Prop where
  blocks : s.outstandingBlocks = UInt64.ofNat L.blocks.card
  handles : s.outstandingHandles = UInt64.ofNat (L.handles.card + L.abandoned)

namespace Tallied

variable {L : Ledger} {st : Stats} {s : Source} {n : Word} {p : Addr} {b : Handle} {o : Addr}

lemma grant (h : L.Tallied st) (hp : p ∉ L.blocks) : (L.grant s n p).Tallied (st.bump .alloc) := by
  refine ⟨?_, h.handles⟩
  have hb := h.blocks
  simp only [Ledger.grant, Finset.card_insert_of_notMem hp, UInt64.ofNat_add, ← hb]
  simp only [Stats.outstandingBlocks, Stats.bump, Stats.set, Stats.get]
  grind

lemma without (h : L.Tallied st) (hp : p ∈ L.blocks) (hb : p ∉ L.handles) :
    (L.without p).Tallied (st.bump .free) := by
  refine ⟨?_, ?_⟩
  · have hcard := h.blocks
    rw [← Finset.card_erase_add_one hp, UInt64.ofNat_add] at hcard
    simp only [Stats.outstandingBlocks] at hcard
    simp only [Stats.outstandingBlocks, Stats.bump, Stats.set, Stats.get, Ledger.without]
    grind
  · simp only [Ledger.without, Finset.erase_eq_of_notMem hb]
    exact h.handles

/-- The storage of a handle goes and the handle is counted as ended. -/
lemma end_handle (h : L.Tallied st) (hp : b ∈ L.blocks) (hb : b ∈ L.handles) :
    (L.without b).Tallied ((st.bump .free).bump .handleFree) := by
  refine ⟨?_, ?_⟩
  · have hcard := h.blocks
    rw [← Finset.card_erase_add_one hp, UInt64.ofNat_add] at hcard
    simp only [Stats.outstandingBlocks] at hcard
    simp only [Stats.outstandingBlocks, Stats.bump, Stats.set, Stats.get, Ledger.without]
    grind
  · have hcard := h.handles
    rw [← Finset.card_erase_add_one hb, UInt64.ofNat_add, UInt64.ofNat_add] at hcard
    simp only [Stats.outstandingHandles] at hcard
    simp only [Stats.outstandingHandles, Stats.bump, Stats.set, Stats.get, Ledger.without,
      UInt64.ofNat_add]
    grind

lemma make (h : L.Tallied st) {own : Bool} {data : Addr} {size : Word} (hb : b ∉ L.handles) :
    (L.make b own data size).Tallied (st.bump .handleAlloc) := by
  refine ⟨h.blocks, ?_⟩
  have hcard := h.handles
  simp only [UInt64.ofNat_add, Stats.outstandingHandles] at hcard
  simp only [Ledger.make, Finset.card_insert_of_notMem hb, UInt64.ofNat_add,
    Stats.outstandingHandles, Stats.bump, Stats.set, Stats.get]
  grind

lemma refill (h : L.Tallied st) (b : Handle) (p : Addr) (n : Word) : (L.refill b p n).Tallied st :=
  ⟨h.blocks, h.handles⟩

/-- Storage that is given back without ending its handle leaves the handle counted for good. -/
lemma abandon (h : L.Tallied st) (hb : b ∈ L.handles) : (L.abandon b).Tallied st := by
  refine ⟨h.blocks, ?_⟩
  have hcard := Finset.card_erase_add_one hb
  have hsame : (L.handles.erase b).card + (L.abandoned + 1) = L.handles.card + L.abandoned := by
    omega
  simp only [Ledger.abandon, hsame]
  exact h.handles

/-- Balanced counters mean that no block is out, since there are too few addresses for the counters
to come around. -/
lemma blocks_eq_empty (h : L.Tallied st) (hL : L.Laid o) (hbal : st.isBalanced = true) :
    L.blocks = ∅ := by
  have h0 := ((Stats.isBalanced_iff st).1 hbal).1
  rw [h.blocks] at h0
  have hlt := hL.card_lt
  have hcard : L.blocks.card = 0 := by
    have := congrArg UInt64.toNat h0
    rwa [UInt64.toNat_ofNat_of_lt' hlt] at this
  exact Finset.card_eq_zero.1 hcard

end Tallied

end Ledger

/-! ### All of it -/

/-- The ledger and the state of the runtime agree. -/
structure Environment.Sound {σ : Type} (E : Environment) (L : Ledger) (w : World σ) : Prop where
  laid : L.Laid w.bindings.heap.addr
  headed : Headed E L w.bindings.heap.addr w.memory.header
  reported : Reported L w.memory.header
  tallied : L.Tallied w.stats
  correct : E.Correct w.bindings.incDec

end CountedHeap
