/-
Every handle in its own place

Where a program is between two steps, headers and payloads lie in blocks that are out, and no two
handles share one. The header of a handle is the start of a block; a payload that the runtime
allocated lies behind the header in the same block, or, if it can be exchanged, in a block of its
own; and no byte belongs to two of them.

* `Header.blocks`: the blocks that a handle has to itself;
* `Ledger.Inside`: bytes that lie in a block, and `Ledger.Inside.apart`;
* `Contained`: every handle is in its own place;
* `payload_contained`: so it is throughout every run.
-/
import CountedHeap.Proofs.Session

namespace CountedHeap

open Memory (Apart)

/-! ### Blocks of handles -/

/-- The blocks that the handle `b` with this header has to itself: the one of its header, and the
payload, if it can be exchanged and is there. -/
def Header.blocks (d : Header) (b : Handle) : Finset Addr :=
  if d.kind = .resizable ∧ d.payload ≠ 0 then {b, d.payload} else {b}

namespace Header

variable {d : Header} {b : Handle} {q : Addr}

lemma mem_blocks :
    q ∈ d.blocks b ↔ q = b ∨ d.kind = .resizable ∧ d.payload ≠ 0 ∧ q = d.payload := by
  unfold blocks
  split
  · next h => simp [h]
  · next h =>
    simp only [Finset.mem_singleton]
    exact ⟨.inl, fun hq => hq.resolve_right fun hq => h ⟨hq.1, hq.2.1⟩⟩

lemma self_mem_blocks (d : Header) (b : Handle) : b ∈ d.blocks b := mem_blocks.2 (.inl rfl)

/-- The count says nothing about blocks. -/
lemma blocks_recount (d : Header) (v : Word) (b : Handle) :
    blocks { d with refcount := v } b = d.blocks b := rfl

end Header

namespace Ledger

variable {L : Ledger} {o p p' q q' : Addr} {n n' : Nat}

/-- The `n` bytes from `p` on lie in the block at `q`. -/
def Inside (L : Ledger) (p : Addr) (n : Nat) (q : Addr) : Prop :=
  q ∈ L.blocks ∧ q.toNat ≤ p.toNat ∧ p.toNat + n ≤ q.toNat + L.room q

/-- What lies in different blocks has no byte in common. -/
lemma Inside.apart (h : L.Inside p n q) (h' : L.Inside p' n' q') (hL : L.Laid o) (hne : q ≠ q') :
    Apart p n p' n' := by
  obtain ⟨hq, hlow, hhigh⟩ := h
  obtain ⟨hq', hlow', hhigh'⟩ := h'
  have hd := hL.apart q hq q' hq' hne
  unfold Apart at *
  omega

/-- The runtime allocated a payload for the handle, and it is there. -/
def Allocated (L : Ledger) (b : Handle) (d : Header) : Prop :=
  (L.own b = true ∨ d.kind = .resizable) ∧ d.payload ≠ 0

end Ledger

/-- Every handle is in its own place in memory, where `o` is the default heap. -/
structure Contained (L : Ledger) (o : Addr) (m : Memory) : Prop where
  /-- Every header is the start of a block. -/
  header : ∀ b ∈ L.handles, L.Inside b 56 b
  /-- Every payload of the runtime's lies in a block of its handle, behind the header if it is the
  same block. -/
  payload : ∀ b ∈ L.handles, L.Allocated b (m.header b) → ∃ q ∈ (m.header b).blocks b,
    L.Inside (m.header b).payload (m.header b).size.toNat q ∧
      (q = b → b.toNat + 56 ≤ (m.header b).payload.toNat)
  /-- Blocks of handles are out, are not the callers', and are those of no other handle. -/
  out : ∀ b ∈ L.handles, ∀ q ∈ (m.header b).blocks b, q ∈ L.blocks ∧ ¬ L.Owned m q
  alone : ∀ b ∈ L.handles, ∀ c ∈ L.handles, b ≠ c →
    Disjoint ((m.header b).blocks b) ((m.header c).blocks c)
  headers : ∀ b ∈ L.handles, ∀ c ∈ L.handles, b ≠ c → Apart b 56 c 56
  beside : ∀ b ∈ L.handles, ∀ c ∈ L.handles, L.Allocated c (m.header c) →
    Apart b 56 (m.header c).payload (m.header c).size.toNat
  payloads : ∀ b ∈ L.handles, ∀ c ∈ L.handles, b ≠ c → L.Allocated b (m.header b) →
    L.Allocated c (m.header c) → Apart (m.header b).payload (m.header b).size.toNat
      (m.header c).payload (m.header c).size.toNat
  /-- A payload that can be exchanged is a block of the default heap, apart from the header. -/
  exchange : ∀ b ∈ L.handles, (m.header b).kind = .resizable → (m.header b).external = 0 ∧
    ((m.header b).payload ≠ 0 →
      L.Holds (.heap o) (m.header b).payload ∧ (m.header b).payload ≠ b)

namespace Contained

variable {E : Environment} {L : Ledger} {o : Addr} {D : Handle → Header} {b c : Handle} {q : Addr}

/-- The header of a handle is the start of its block. -/
lemma inside_header (h : Headed E L o D) (hb : b ∈ L.handles) : L.Inside b 56 b := by
  have hs := h.header b hb
  have hroom := hs.room
  exact ⟨hs.out, le_rfl, by omega⟩

/-- A payload of the runtime's lies in a block of its handle. -/
lemma inside_payload (h : Headed E L o D) (hL : L.Laid o) (hb : b ∈ L.handles)
    (ha : L.Allocated b (D b)) : ∃ q ∈ (D b).blocks b,
      L.Inside (D b).payload (D b).size.toNat q ∧ (q = b → b.toNat + 56 ≤ (D b).payload.toNat) := by
  have hs := h.header b hb
  obtain ⟨hkind, h0⟩ := ha
  rcases hkind with hown | hkind
  · obtain ⟨k, hk, hroom, hpay⟩ := hs.contained hown (.inr h0)
    have hfit := (hL.fits b hs.out).2.2
    have hne : (D b).payload.toNat ≠ 0 := fun hz => h0 (UInt64.toNat_inj.1 hz)
    have hplace := (Memory.toNat_contained hroom hfit hpay).resolve_right fun hz => hne hz.1
    exact ⟨b, (D b).self_mem_blocks b, ⟨hs.out, by omega, by omega⟩, fun _ => by omega⟩
  · obtain ⟨⟨hout, -⟩, hnot, hsize⟩ := (hs.exchange hkind).2.2 h0
    refine ⟨(D b).payload, Header.mem_blocks.2 (.inr ⟨hkind, h0, rfl⟩), ⟨hout, le_rfl, by omega⟩,
      fun he => ?_⟩
    rw [he] at hnot
    exact absurd hb hnot

/-- Different handles have different blocks. -/
lemma disjoint_blocks (h : Headed E L o D) (hb : b ∈ L.handles) (hc : c ∈ L.handles)
    (hne : b ≠ c) : Disjoint ((D b).blocks b) ((D c).blocks c) := by
  refine Finset.disjoint_left.2 fun q hq hq' => ?_
  rcases Header.mem_blocks.1 hq with rfl | ⟨hk, h0, rfl⟩ <;>
    rcases Header.mem_blocks.1 hq' with he | ⟨hk', h0', he⟩
  · exact hne he
  · exact (((h.header c hc).exchange hk').2.2 h0').2.1 (he ▸ hb)
  · exact (((h.header b hb).exchange hk).2.2 h0).2.1 (he ▸ hc)
  · exact hne (h.single b hb c hc hk hk' h0 he)

/-- Blocks of different handles are different. -/
lemma ne_of_mem_blocks {q' : Addr} (h : Headed E L o D) (hb : b ∈ L.handles) (hc : c ∈ L.handles)
    (hne : b ≠ c) (hq : q ∈ (D b).blocks b) (hq' : q' ∈ (D c).blocks c) : q ≠ q' := by
  rintro rfl
  exact Finset.disjoint_left.1 (disjoint_blocks h hb hc hne) hq hq'

/-- Blocks of handles are out, and are not the callers'. -/
lemma out_of_mem_blocks {m : Memory} (h : Headed E L o m.header) (hb : b ∈ L.handles)
    (hq : q ∈ (m.header b).blocks b) : q ∈ L.blocks ∧ ¬ L.Owned m q := by
  rcases Header.mem_blocks.1 hq with rfl | ⟨hk, h0, rfl⟩
  · exact ⟨(h.header q hb).out, fun howned => howned.2.1 hb⟩
  · exact ⟨(((h.header b hb).exchange hk).2.2 h0).1.1, fun howned => howned.2.2 b hb hk rfl⟩

/-- No payload of the runtime's lies in a header, be it that of the same handle. -/
lemma header_apart_payload (h : Headed E L o D) (hL : L.Laid o) (hb : b ∈ L.handles)
    (hc : c ∈ L.handles) (ha : L.Allocated c (D c)) :
    Apart b 56 (D c).payload (D c).size.toNat := by
  obtain ⟨q, hq, hin, hbehind⟩ := inside_payload h hL hc ha
  by_cases hbq : b = q
  · -- The payload lies in the block of the header, so the handles are the same.
    have hbc : b = c := by
      by_contra hbc
      exact ne_of_mem_blocks h hb hc hbc ((D b).self_mem_blocks b) hq hbq
    exact .inl (hbc ▸ hbehind (hbq.symm.trans hbc))
  · exact (inside_header h hb).apart hin hL hbq

/-- Sound headers put every handle in its own place. -/
lemma of_headed {m : Memory} (h : Headed E L o m.header) (hL : L.Laid o) : Contained L o m where
  header b hb := inside_header h hb
  payload b hb ha := inside_payload h hL hb ha
  out b hb q hq := out_of_mem_blocks h hb hq
  alone b hb c hc hne := disjoint_blocks h hb hc hne
  headers b hb c hc hne := (inside_header h hb).apart (inside_header h hc) hL hne
  beside b hb c hc ha := header_apart_payload h hL hb hc ha
  payloads b hb c hc hne ha ha' := by
    obtain ⟨q, hq, hin, -⟩ := inside_payload h hL hb ha
    obtain ⟨q', hq', hin', -⟩ := inside_payload h hL hc ha'
    exact hin.apart hin' hL (ne_of_mem_blocks h hb hc hne hq hq')
  exchange b hb hk := by
    obtain ⟨-, hext, hpay⟩ := (h.header b hb).exchange hk
    refine ⟨hext, fun h0 => ⟨(hpay h0).1, fun he => (hpay h0).2.1 ?_⟩⟩
    rw [he]
    exact hb

end Contained

/-- **Containment.** At every boundary of every run, whatever the allocators answered and whatever
became of payloads that were exchanged, all handles are in their own places. -/
theorem payload_contained (E : Environment) (depth : Nat) (p : Program) (w : World History) :
    Throughout (fun e past => ∀ s, e = .boundary s →
      Contained (ledger past) s.bindings.heap.addr s.memory) (E.history depth p w) := by
  rintro e past hsuffix s rfl
  obtain ⟨hw, -⟩ := Environment.steady_of_boundary ((E.lawful_history depth p w).suffix hsuffix)
  exact Contained.of_headed hw.sound.headed hw.sound.laid

end CountedHeap
