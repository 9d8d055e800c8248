/-
Two runs that differ in who allocates

One run asks the default heap for the blocks of its handles, the other has the sample allocator ask
for some of them. What is kept in a header is the address of the allocator, so the memories of the
two runs differ in that word of some headers. When such a block goes back, what is left of the word
may come up in the next block that the heap makes of the same memory, until somebody writes there.
Everything else is the same: bindings, counters, boxes, every byte that was written, and every event
of the two histories.

* `Sampled`, `Header.Sampled`: an allocator in whose place the sample allocator may stand;
* `blank`, `furnished`, `unwritten`: the bytes that nobody wrote;
* `Masked`: memories that differ in no bytes but these and the words that name allocators;
* `Memory.Writes`, `Masked.put`: what both runs write in the same way is the same afterwards;
* `Matching`: histories that tell the same;
* `Twin`, `Twins`: states that are alike in all of this;
* `Paired`: computations that come to the same answer, or to the same fault, and leave twins.
-/
import CountedHeap.Proofs.Footprints

namespace CountedHeap

open Memory (Apart range mem_range)

/-! ### Headers -/

/-- An allocator, and the one in its place: the sample allocator may take the place of the default
heap. -/
inductive Sampled : Addr → Addr → Prop
  | same (ext : Addr) : Sampled ext ext
  | sample : Sampled 0 ExternalAllocator.sampleAddr

/-- Two headers that say the same, except perhaps of their allocator. -/
structure Header.Sampled (d d' : Header) : Prop where
  others : d' = { d with external := d'.external }
  external : CountedHeap.Sampled d.external d'.external

lemma Header.Sampled.refl (d : Header) : d.Sampled d := ⟨rfl, .same _⟩

/-- The bytes of a header before and after the address of its allocator. -/
lemma Header.bytes_around_external (d : Header) : ∃ pre post, pre.length = 40 ∧
    ∀ ext, Header.bytes { d with external := ext } = pre ++ littleEndian 8 ext.toNat ++ post := by
  refine ⟨[d.refcount, d.destructor, d.info, d.payload, d.size].flatMap
    fun w => littleEndian 8 w.toNat, [d.kind.toByte], by simp, fun ext => ?_⟩
  simp [bytes, List.append_assoc]

/-- Headers that differ in their allocator have all other bytes in common. -/
lemma Header.getElem?_bytes_external (d : Header) (ext : Addr) {i : Nat} (hi : i < 40 ∨ 48 ≤ i) :
    (Header.bytes { d with external := ext })[i]? = d.bytes[i]? := by
  obtain ⟨pre, post, hpre, hbytes⟩ := d.bytes_around_external
  have hself : d.bytes = Header.bytes { d with external := d.external } := rfl
  rw [hself, hbytes, hbytes, List.append_assoc, List.append_assoc]
  rcases hi with hi | hi
  · rw [List.getElem?_append_left (by omega), List.getElem?_append_left (by omega)]
  · have hword : ∀ v : Word, (pre ++ littleEndian 8 v.toNat).length = 48 := fun v => by
      rw [List.length_append, hpre, length_littleEndian]
    rw [← List.append_assoc, ← List.append_assoc,
      List.getElem?_append_right (by rw [hword]; omega),
      List.getElem?_append_right (by rw [hword]; omega), hword, hword]

namespace Memory

/-- Whatever memory was before, the `n` bytes from `a` on are then the same, and all others are as
they were. -/
structure Writes (a : Addr) (n : Nat) (f : Memory → Memory) : Prop where
  inside : ∀ m m' x, x < UInt64.size → x ∈ range a n → (f m).byte x = (f m').byte x
  beside : ∀ m x, x < UInt64.size → x ∉ range a n → (f m).byte x = m.byte x

namespace Writes

variable {a : Addr} {n : Nat}

lemma write {bs : List UInt8} (h : a.toNat + bs.length ≤ UInt64.size) :
    Writes a bs.length (·.write a bs) where
  inside m m' x hx hin := by
    rw [mem_range] at hin
    have hlt : x - a.toNat < bs.length := by omega
    simp only [byte_write _ _ _ h hx, if_pos hin.1, List.getElem?_eq_getElem hlt, Option.getD_some]
  beside m x hx hout := byte_write_of_not_mem m h hx hout

/-- Filling a range writes it. -/
lemma fill (a : Addr) (n : Nat) (b : UInt8) : Writes a n (·.fill a n b) where
  inside m m' x hx hin := by
    rw [mem_range] at hin
    simp only [byte_fill _ _ _ _ hx, if_pos hin]
  beside m x hx hout := by
    rw [mem_range] at hout
    simp only [byte_fill _ _ _ _ hx, if_neg hout]

/-- A word that is replaced is written. -/
lemma setWord (h : a.toNat + 8 ≤ UInt64.size) (v : Word) : Writes a 8 (·.setWord a v) := by
  have hlen : (littleEndian 8 v.toNat).length = 8 := length_littleEndian _ _
  have hfit : a.toNat + (littleEndian 8 v.toNat).length ≤ UInt64.size := by rwa [hlen]
  have hwrite := write hfit
  rwa [hlen] at hwrite

end Writes

end Memory

/-! ### Bytes that nobody wrote -/

/-- Bytes that no caller has written to since they last changed hands, from an allocator to a caller
or back. A block of another size keeps what was written to the old one, as far as it has room. -/
def blank : History → Set Nat
  | [] => ∅
  | .given _ n p :: past => if p = 0 then blank past else blank past ∪ range p (max n.toNat 1)
  | .resized _ p n q :: past =>
    if q = 0 then blank past
    else
      {x | x ∈ range q (max n.toNat 1) ∧
        ((ledger past).room p ≤ x - q.toNat ∨ p.toNat + (x - q.toNat) ∈ blank past)} ∪
      ((blank past ∪ range p ((ledger past).room p)) \ range q (max n.toNat 1))
  | .takenBack _ p :: past => blank past ∪ range p ((ledger past).room p)
  | .poked a bytes :: past => blank past \ range a bytes.length
  | _ :: past => blank past

/-- The bytes in the block of the handle `b` that the runtime wrote: the header, and the payload if
it is poisoned. -/
def furnished (b : Handle) (w : World History) : Set Nat :=
  {x | x ∈ range b ((ledger w.host).room b) ∧
    (x < b.toNat + 49 ∨ (w.memory.header b).Poisons ∧ x ∈ (w.memory.header b).span)}

/-- An answer of an allocator, or a block that one is given back. -/
def Event.Allots : Event → Prop
  | .given .. | .resized .. | .takenBack .. => True
  | _ => False

/-- Bytes for whose contents the allocators answer, although no caller wrote to them: the books that
they keep in blocks that were given back, and memory that they clear. They come to answer for more
only when it is their turn. -/
structure Vouched where
  bytes : History → Set Nat
  bytes_cons : ∀ e past, ¬ e.Allots → bytes (e :: past) ⊆ bytes past

/-- Allocators that answer for nothing. -/
def Vouched.none : Vouched := ⟨fun _ => ∅, fun _ _ _ => subset_rfl⟩

/-- Bytes that nobody wrote, neither a caller nor the runtime, and for which no allocator
answers. -/
def unwritten (V : Vouched) (w : World History) : Set Nat :=
  {x | x ∈ blank w.host ∧ x ∉ V.bytes w.host ∧ ∀ b ∈ (ledger w.host).handles, x ∉ furnished b w}

section Unwritten

variable {V : Vouched} {w w' : World History} {b : Handle} {F : Set Nat}

/-- The runtime wrote the whole header. -/
lemma header_subset_furnished (hroom : 56 ≤ (ledger w.host).room b) :
    range b 49 ⊆ furnished b w := by
  intro x hx
  rw [mem_range] at hx
  refine ⟨?_, .inl hx.2⟩
  rw [mem_range]
  omega

/-- Where the runtime wrote before, it wrote no less if the handle still has its block, and is
poisoned only where it was. -/
lemma furnished_subset (hroom : (ledger w'.host).room b = (ledger w.host).room b)
    (hspan : (w'.memory.header b).Poisons → (w.memory.header b).Poisons ∧
      (w'.memory.header b).span ⊆ (w.memory.header b).span) : furnished b w' ⊆ furnished b w := by
  rintro x ⟨hin, hx⟩
  rw [hroom] at hin
  refine ⟨hin, hx.imp id fun hx => ?_⟩
  obtain ⟨hp, hsub⟩ := hspan hx.1
  exact ⟨hp, hsub hx.2⟩

/-- Of a handle that keeps its block and its header, the same was written before. -/
lemma furnished_of_header (hroom : (ledger w'.host).room b = (ledger w.host).room b)
    (hheader : w'.memory.header b = w.memory.header b) : furnished b w' ⊆ furnished b w :=
  furnished_subset hroom fun hp => by
    rw [hheader] at hp ⊢
    exact ⟨hp, subset_rfl⟩

/-- Of a block with the header `d`, the runtime wrote no more than the header and what is
poisoned. -/
lemma furnished_laid {d : Header} (hd : w.memory.header b = d) :
    furnished b w ⊆ range b 49 ∪ {x | d.Poisons ∧ x ∈ d.span} := by
  rintro x ⟨hin, hx⟩
  rw [hd] at hx
  exact hx.imp (fun hlow => ⟨hin.1, hlow⟩) id

/-- What nobody wrote, and what nobody has written since, is still not written. -/
lemma unwritten_subset (hblank : blank w.host \ F ⊆ blank w'.host)
    (hV : V.bytes w'.host ⊆ V.bytes w.host)
    (hS : ∀ b ∈ (ledger w'.host).handles,
      b ∈ (ledger w.host).handles ∧ furnished b w' ⊆ furnished b w ∨ furnished b w' ⊆ F) :
    unwritten V w \ F ⊆ unwritten V w' := by
  rintro x ⟨⟨hx, hVx, hall⟩, hF⟩
  refine ⟨hblank ⟨hx, hF⟩, fun h => hVx (hV h), fun b hb h => ?_⟩
  rcases hS b hb with ⟨hold, hsub⟩ | hsub
  · exact hall b hold (hsub h)
  · exact hF (hsub h)

/-- Nor is it written when nobody writes, and headers stay as they are. -/
lemma unwritten_mono (hblank : blank w.host ⊆ blank w'.host)
    (hV : V.bytes w'.host ⊆ V.bytes w.host)
    (hS : ∀ b ∈ (ledger w'.host).handles, b ∈ (ledger w.host).handles ∧
      (ledger w'.host).room b = (ledger w.host).room b ∧
      w'.memory.header b = w.memory.header b) : unwritten V w ⊆ unwritten V w' := by
  have hsub : unwritten V w \ ∅ ⊆ unwritten V w' :=
    unwritten_subset (Set.sdiff_subset.trans hblank) hV fun b hb =>
      .inl ⟨(hS b hb).1, furnished_of_header (hS b hb).2.1 (hS b hb).2.2⟩
  rwa [Set.sdiff_empty] at hsub

/-- A header was written into the block at `b`, and what is poisoned of the block before. -/
lemma unwritten_laid {d : Header} (hhost : w'.host = w.host) (hd : w'.memory.header b = d)
    (hspan : d.Poisons → d.span ⊆ F)
    (hothers : ∀ c ∈ (ledger w.host).handles, w'.memory.header c = w.memory.header c) :
    (unwritten V w \ F) \ range b 49 ⊆ unwritten V w' \ furnished b w' := by
  rintro x ⟨⟨⟨hx, hV, hall⟩, hF⟩, hhead⟩
  refine ⟨⟨by rwa [hhost], by rwa [hhost], fun c hc hin => ?_⟩, fun hin => ?_⟩
  · rw [hhost] at hc
    exact hall c hc (furnished_of_header (by rw [hhost]) (hothers c hc) hin)
  · rcases furnished_laid hd hin with hin | ⟨hp, hin⟩
    · exact hhead hin
    · exact hF (hspan hp hin)

end Unwritten

/-! ### Memory -/

/-- Two memories that differ only in the bytes of `U`, and in the allocators that the handles `D`
name: the default heap in the one memory, the sample allocator in the other. -/
structure Masked (U : Set Nat) (D : Finset Handle) (m m' : Memory) : Prop where
  bytes : ∀ x < UInt64.size, x ∉ U → (∀ b ∈ D, x < b.toNat + 40 ∨ b.toNat + 48 ≤ x) →
    m'.byte x = m.byte x
  external : ∀ b ∈ D, (m.header b).external = 0 ∧
    (m'.header b).external = ExternalAllocator.sampleAddr

/-- Blocks that have room for a header. -/
def Ledger.Housing (L : Ledger) (D : Finset Handle) : Prop := ∀ b ∈ D, b ∈ L.blocks ∧ 56 ≤ L.room b

namespace Ledger.Housing

variable {L : Ledger} {D : Finset Handle} {p : Addr}

/-- A new block takes none of them away. -/
lemma grant (h : L.Housing D) (hp : p ∉ L.blocks) (s : Source) (n : Word) :
    (L.grant s n p).Housing D := by
  intro b hb
  obtain ⟨hout, hroom⟩ := h b hb
  refine ⟨Finset.mem_insert_of_mem hout, ?_⟩
  show 56 ≤ Function.update L.room p _ b
  rwa [Function.update_of_ne (ne_of_mem_of_not_mem hout hp)]

/-- They are out still when another block goes. -/
lemma without (h : L.Housing D) (hp : p ∉ D) : (L.without p).Housing D := fun b hb =>
  ⟨Finset.mem_erase.2 ⟨ne_of_mem_of_not_mem hb hp, (h b hb).1⟩, (h b hb).2⟩

lemma erase (h : L.Housing D) (p : Addr) : L.Housing (D.erase p) := fun b hb =>
  h b (Finset.mem_of_mem_erase hb)

end Ledger.Housing

/-- Their headers lie inside memory. -/
lemma Ledger.Housing.fit {L : Ledger} {D : Finset Handle} {b : Handle} {o : Addr}
    (hD : L.Housing D) (hL : L.Laid o) (hb : b ∈ D) : b.toNat + 56 ≤ UInt64.size := by
  have hfit := (hL.fits b (hD b hb).1).2.2
  have hroom := (hD b hb).2
  omega

/-- Their headers lie apart from all other blocks. -/
lemma Ledger.Housing.apart {L : Ledger} {D : Finset Handle} {b c : Handle} {o : Addr}
    (hD : L.Housing D) (hL : L.Laid o) (hb : b ∈ L.blocks) (hc : c ∈ D) (hne : b ≠ c) :
    Apart b (L.room b) c 56 :=
  (hL.apart b hb c (hD c hc).1 hne).mono_right (hD c hc).2

/-- So does the word by which they name their allocator. -/
lemma Ledger.Housing.external_apart {L : Ledger} {D : Finset Handle} {b c : Handle} {o : Addr}
    (hD : L.Housing D) (hL : L.Laid o) (hb : b ∈ L.blocks) (hc : c ∈ D) (hne : b ≠ c) {x : Nat}
    (hx : x ∈ range b (L.room b)) : x < c.toNat + 40 ∨ c.toNat + 48 ≤ x := by
  have hapart := hD.apart hL hb hc hne
  rw [mem_range] at hx
  unfold Memory.Apart at hapart
  omega

namespace Masked

variable {U U' : Set Nat} {D : Finset Handle} {m m' : Memory} {L : Ledger} {b : Handle}
  {o a : Addr} {n : Nat}

lemma refl (U : Set Nat) (m : Memory) : Masked U ∅ m m :=
  ⟨fun _ _ _ _ => rfl, fun _ hb => absurd hb (Finset.notMem_empty _)⟩

/-- The more bytes nobody wrote, the less is said of the two memories. -/
lemma mono (h : Masked U D m m') (hU : U ⊆ U') : Masked U' D m m' :=
  ⟨fun x hx hout => h.bytes x hx fun hin => hout (hU hin), h.external⟩

/-- The headers of blocks say the same if they were written, except perhaps of their allocator. -/
lemma header (h : Masked U D m m') (hD : L.Housing D) (hL : L.Laid o) (hb : b ∈ L.blocks)
    (hroom : 56 ≤ L.room b) (hU : ∀ x ∈ range b 49, x ∉ U) :
    (m.header b).Sampled (m'.header b) := by
  have hfit : b.toNat + 56 ≤ UInt64.size := by
    have hfit := (hL.fits b hb).2.2
    omega
  have hbyte : ∀ i < 49, (b ∈ D → i < 40 ∨ 48 ≤ i) →
      m'.byte (b.toNat + i) = m.byte (b.toNat + i) := by
    intro i hi hsame
    have hin : b.toNat + i ∈ range b (L.room b) := by
      rw [mem_range]
      omega
    refine h.bytes _ (by omega) (hU _ (by rw [mem_range]; omega)) fun c hc => ?_
    by_cases hbc : b = c
    · subst hbc
      have hi' := hsame hc
      omega
    · exact hD.external_apart hL hb hc hbc hin
  have hword : ∀ f : Field, (b ∈ D → f ≠ .external) → (m'.header b).get f = (m.header b).get f := by
    intro f hf
    rw [Memory.get_header, Memory.get_header]
    refine Memory.word_congr fun i hi => ?_
    have hoffset := f.offset_le
    rw [toNat_add_offset f hfit, Nat.add_assoc]
    refine hbyte _ (by omega) fun hb => ?_
    have hapart := Field.offset_apart (hf hb)
    have h40 : Field.external.offset.toNat = 40 := rfl
    omega
  have hexternal : Sampled (m.header b).external (m'.header b).external := by
    by_cases hbD : b ∈ D
    · obtain ⟨h0, hsample⟩ := h.external b hbD
      rw [h0, hsample]
      exact .sample
    · have hsame : (m'.header b).external = (m.header b).external := by
        have hget := hword .external fun hb => absurd hb hbD
        rwa [Header.get, Header.get] at hget
      rw [hsame]
      exact .same _
  have hkind : (m'.header b).kind = (m.header b).kind := by
    have h48 := hbyte 48 (by omega) fun _ => .inr le_rfl
    rw [← toNat_add_kind hfit] at h48
    exact congrArg Kind.ofByte h48
  generalize m.header b = d at hword hkind hexternal
  generalize m'.header b = d' at hword hkind hexternal
  refine ⟨?_, hexternal⟩
  show d' = d.set d'.external .external
  refine Header.ext_get (fun f => ?_) (by rw [hkind, Header.kind_set])
  rw [Header.get_set]
  split
  · next hf =>
    subst hf
    rfl
  · next hf => exact hword f fun _ he => hf he.symm

/-- What is written in the same way to both memories is the same afterwards. -/
lemma put (h : Masked U D m m') (hD : ∀ b ∈ D, b.toNat + 56 ≤ UInt64.size)
    {f : Memory → Memory} (hf : Memory.Writes a n f)
    (hapart : ∀ b ∈ D, n ≠ 0 → b.toNat + 48 ≤ a.toNat ∨ a.toNat + n ≤ b.toNat + 40) :
    Masked (U \ range a n) D (f m) (f m') := by
  refine ⟨fun x hx hU hout => ?_, fun b hb => ?_⟩
  · by_cases hin : x ∈ range a n
    · exact hf.inside _ _ _ hx hin
    · rw [hf.beside _ _ hx hin, hf.beside _ _ hx hin]
      exact h.bytes x hx (fun hxU => hU ⟨hxU, hin⟩) hout
  · have hkept : ∀ m : Memory, ((f m).header b).external = (m.header b).external := by
      intro m
      refine Memory.word_congr fun i hi => hf.beside _ _ ?_ ?_ <;>
        rw [toNat_add_offset .external (hD b hb)] <;>
        have hexternal : Field.external.offset.toNat = 40 := rfl
      · have hfit := hD b hb
        omega
      · have hd := hapart b hb
        rw [mem_range]
        omega
    rw [hkept, hkept]
    exact h.external b hb

/-- A header is written that names the default heap in the one memory, and the sample allocator in
the other. -/
lemma outsource (h : Masked U D m m') (hD : ∀ c ∈ D, c.toNat + 56 ≤ UInt64.size ∧ Apart b 56 c 56)
    (hb : b.toNat + 56 ≤ UInt64.size) {d : Header} (h0 : d.external = 0) :
    Masked (U \ range b 49) (insert b D) (m.write b d.bytes)
      (m'.write b (Header.bytes { d with external := ExternalAllocator.sampleAddr })) := by
  set d' : Header := { d with external := ExternalAllocator.sampleAddr }
  have hlen : ∀ d : Header, b.toNat + d.bytes.length ≤ UInt64.size := fun d => by
    rw [Header.length_bytes]
    omega
  refine ⟨fun x hx hU hout => ?_, fun c hc => ?_⟩
  · by_cases hin : x ∈ range b 49
    · have hself := hout b (Finset.mem_insert_self b D)
      rw [mem_range] at hin
      have hlt : ∀ d : Header, x - b.toNat < d.bytes.length := fun d => by
        rw [Header.length_bytes]
        omega
      have hat : d'.bytes[x - b.toNat]? = d.bytes[x - b.toNat]? :=
        d.getElem?_bytes_external _ (by omega)
      rw [List.getElem?_eq_getElem (hlt d'), List.getElem?_eq_getElem (hlt d)] at hat
      rw [Memory.byte_write _ _ _ (hlen d') hx, Memory.byte_write _ _ _ (hlen d) hx, if_pos hin.1,
        if_pos hin.1, List.getElem?_eq_getElem (hlt d'), List.getElem?_eq_getElem (hlt d), hat]
      rfl
    · have hbeside : ∀ (m : Memory) (d : Header), (m.write b d.bytes).byte x = m.byte x :=
        fun m d => Memory.byte_write_of_not_mem m (hlen d) hx (by rwa [Header.length_bytes])
      rw [hbeside, hbeside]
      exact h.bytes x hx (fun hxU => hU ⟨hxU, hin⟩) fun c hc => hout c (Finset.mem_insert_of_mem hc)
  · rcases Finset.mem_insert.1 hc with rfl | hc
    · rw [Memory.header_write _ _ hb, Memory.header_write _ _ hb]
      exact ⟨h0, rfl⟩
    · obtain ⟨hfit, hapart⟩ := hD c hc
      rw [Memory.header_write_header _ _ hb hfit hapart,
        Memory.header_write_header _ _ hb hfit hapart]
      exact h.external c hc

end Masked

/-! ### Histories -/

/-- No block comes or goes, no caller writes, and no state is written down. -/
def Event.KeepsStorage : Event → Prop
  | .given .. | .resized .. | .takenBack .. | .poked .. | .started | .boundary _ => False
  | _ => True

namespace Event.KeepsStorage

variable {e : Event} (he : e.KeepsStorage) {H : History}
include he

lemma not_allots : ¬ e.Allots := by
  cases e <;> first | exact he.elim | exact not_false

/-- The bytes that no caller wrote are the same as before. -/
lemma blank_eq : blank (e :: H) = blank H := by
  cases e <;> first | exact he.elim | rfl

lemma room_eq : (ledger (e :: H)).room = (ledger H).room := by
  cases e <;> first | exact he.elim | rfl

/-- The blocks are the same as before. -/
lemma housing {D : Finset Handle} : (ledger (e :: H)).Housing D ↔ (ledger H).Housing D := by
  cases e <;> first | exact he.elim | exact Iff.rfl

end Event.KeepsStorage

/-- Two histories that tell the same. Where a state is written down, its memory may be masked. -/
inductive Matching (V : Vouched) : History → History → Prop
  | nil : Matching V [] []
  | cons {H H' : History} (e : Event) (he : ∀ s, e ≠ .boundary s) :
      Matching V H H' → Matching V (e :: H) (e :: H')
  | boundary {H H' : History} {s : Snapshot} {m : Memory} {D : Finset Handle}
      (hD : D ⊆ (ledger H).handles) (hm : Masked (unwritten V (s.resume H)) D s.memory m) :
      Matching V H H' → Matching V (.boundary s :: H) (.boundary { s with memory := m } :: H')

namespace Matching

variable {V : Vouched} {H H' : History}

/-- What is out is the same in both. -/
lemma ledger_eq (h : Matching V H H') : ledger H' = ledger H := by
  induction h with
  | nil => rfl
  | cons e he h ih => rw [ledger_cons, ledger_cons, ih]
  | boundary hD hm h ih => exact ih

/-- What was seen in the one run at some time was seen in the other at the same time. -/
lemma suffix (h : Matching V H H') {e : Event} {past : History} (he : e :: past <:+ H) :
    ∃ e' past', e' :: past' <:+ H' ∧ Matching V (e :: past) (e' :: past') := by
  induction h with
  | nil => simp at he
  | cons e' he' h ih =>
    rcases List.suffix_cons_iff.1 he with he | he
    · obtain ⟨rfl, rfl⟩ := List.cons.inj he
      exact ⟨_, _, List.suffix_rfl, .cons _ he' h⟩
    · obtain ⟨e'', past', hsuffix, hmatch⟩ := ih he
      exact ⟨e'', past', hsuffix.trans (List.suffix_cons _ _), hmatch⟩
  | boundary hD hm h ih =>
    rcases List.suffix_cons_iff.1 he with he | he
    · obtain ⟨rfl, rfl⟩ := List.cons.inj he
      exact ⟨_, _, List.suffix_rfl, .boundary hD hm h⟩
    · obtain ⟨e'', past', hsuffix, hmatch⟩ := ih he
      exact ⟨e'', past', hsuffix.trans (List.suffix_cons _ _), hmatch⟩

end Matching

/-! ### States -/

/-- Two states that differ in the bytes of `U`, in the allocator that the headers of `D` name, and
in nothing else. -/
structure Twin (V : Vouched) (U : Set Nat) (D : Finset Handle) (w v : World History) : Prop where
  masked : Masked U D w.memory v.memory
  housing : (ledger w.host).Housing D
  headed : (ledger w.host).Housing (ledger w.host).handles
  history : Matching V w.host v.host
  bindings : v.bindings = w.bindings
  shuttingDown : v.shuttingDown = w.shuttingDown
  stats : v.stats = w.stats
  interned : v.interned = w.interned
  boxes : v.boxes = w.boxes
  tracing : v.tracing = w.tracing

/-- Two states that differ in the allocator that some handles name, and in nothing else that anybody
wrote. -/
def Twins (V : Vouched) (w v : World History) : Prop :=
  ∃ D ⊆ (ledger w.host).handles, Twin V (unwritten V w) D w v

namespace Twin

variable {V : Vouched} {U U' : Set Nat} {D : Finset Handle} {w v : World History} {b : Handle}
  {a : Addr} {n : Nat}

lemma mono (h : Twin V U D w v) (hU : U ⊆ U') : Twin V U' D w v :=
  { h with masked := h.masked.mono hU }

lemma ledger_eq (h : Twin V U D w v) : ledger v.host = ledger w.host := h.history.ledger_eq

/-- Both take down the same event. -/
lemma noted (h : Twin V U D w v) {e : Event} (he : e.KeepsStorage)
    (hheaded : (ledger (w.noted e).host).Housing (ledger (w.noted e).host).handles) :
    Twin V U D (w.noted e) (v.noted e) :=
  { h with
    housing := he.housing.2 h.housing
    headed := hheaded
    history := .cons e (fun s hs => by
      subst hs
      exact he) h.history }

/-- Both runs write the same to the same place. -/
lemma put (h : Twin V U D w v) {o : Addr} (hL : (ledger w.host).Laid o) {f : Memory → Memory}
    (hf : Memory.Writes a n f)
    (hapart : ∀ b ∈ D, n ≠ 0 → b.toNat + 48 ≤ a.toNat ∨ a.toNat + n ≤ b.toNat + 40) :
    Twin V (U \ range a n) D { w with memory := f w.memory } { v with memory := f v.memory } :=
  { h with
    masked := h.masked.put (fun _ hb => h.housing.fit hL hb) hf hapart }

/-- The same where no header of `D` is written to. -/
lemma put_apart (h : Twin V U D w v) {o : Addr} (hL : (ledger w.host).Laid o)
    {f : Memory → Memory} (hf : Memory.Writes a n f)
    (hapart : ∀ b ∈ D, n ≠ 0 → Apart a n b 56) :
    Twin V (U \ range a n) D { w with memory := f w.memory } { v with memory := f v.memory } := by
  refine h.put hL hf fun b hb hn => ?_
  have hd := hapart b hb hn
  unfold Memory.Apart at hd
  omega

/-- Both runs replace the same word of a header. -/
lemma setField (h : Twin V U D w v) {o : Addr} (hL : (ledger w.host).Laid o)
    (hb : b ∈ (ledger w.host).blocks) (hroom : 56 ≤ (ledger w.host).room b) {f : Field}
    (hf : f ≠ .external) (x : Word) :
    Twin V U D { w with memory := w.memory.setWord (b + f.offset) x }
      { v with memory := v.memory.setWord (b + f.offset) x } := by
  have hfit : b.toNat + 56 ≤ UInt64.size := by
    have hfit := (hL.fits b hb).2.2
    omega
  have hoffset := f.offset_le
  have haddr := toNat_add_offset f hfit
  refine (h.put hL (Memory.Writes.setWord (by omega) x) fun c hc _ => ?_).mono
    Set.sdiff_subset
  by_cases hbc : b = c
  · subst hbc
    have hapart := Field.offset_apart hf
    have hexternal : Field.external.offset.toNat = 40 := rfl
    omega
  · obtain ⟨hc', hroom'⟩ := h.housing c hc
    have hd := hL.apart b hb c hc' hbc
    unfold Memory.Apart at hd
    omega

/-- Both count the same. -/
lemma withStats (h : Twin V U D w v) (f : Stats → Stats) :
    Twin V U D { w with stats := f w.stats } { v with stats := f v.stats } :=
  { h with stats := congrArg f h.stats }

/-- Both runs count the same event. -/
lemma bump (h : Twin V U D w v) (k : Counter) :
    Twin V U D { w with stats := w.stats.bump k } { v with stats := v.stats.bump k } :=
  h.withStats (·.bump k)

/-- A header is written into a block that has none yet. -/
lemma lay (h : Twin V U D w v) {o : Addr} (hL : (ledger w.host).Laid o)
    (hb : b ∈ (ledger w.host).blocks) (hroom : 56 ≤ (ledger w.host).room b) (hnot : b ∉ D)
    {d d' : Header} (hd : d.Sampled d') : ∃ D' ⊆ insert b D,
      Twin V (U \ range b 49) D' { w with memory := w.memory.write b d.bytes }
        { v with memory := v.memory.write b d'.bytes } := by
  have hfit := (hL.fits b hb).2.2
  have hapart : ∀ c ∈ D, c.toNat + 56 ≤ UInt64.size ∧ Apart b 56 c 56 := fun c hc => by
    have hne : b ≠ c := fun he => hnot (he ▸ hc)
    exact ⟨h.housing.fit hL hc, (h.housing.apart hL hb hc hne).mono_left hroom⟩
  obtain ⟨hothers, hexternal⟩ := hd
  generalize hext : d.external = ext at hexternal
  generalize d'.external = ext' at hothers hexternal
  subst hothers
  cases hexternal with
  | same =>
    subst hext
    have hlen : b.toNat + d.bytes.length ≤ UInt64.size := by
      rw [Header.length_bytes]
      omega
    have hput := h.put_apart hL (Memory.Writes.write hlen) fun c hc _ => by
      rw [Header.length_bytes]
      exact (hapart c hc).2.mono_left (by omega)
    rw [Header.length_bytes] at hput
    exact ⟨D, Finset.subset_insert b D, hput⟩
  | sample =>
    refine ⟨insert b D, subset_rfl, { h with
      masked := h.masked.outsource hapart (by omega) hext
      housing := fun c hc => ?_ }⟩
    rcases Finset.mem_insert.1 hc with rfl | hc
    · exact ⟨hb, hroom⟩
    · exact h.housing c hc

end Twin

namespace Twins

variable {V : Vouched} {w v : World History}

/-- What is out is the same in both. -/
lemma ledger_eq (h : Twins V w v) : ledger v.host = ledger w.host := by
  obtain ⟨D, -, h⟩ := h
  exact h.ledger_eq

/-- The states are written down. -/
lemma marked (h : Twins V w v) : Twins V w.marked v.marked := by
  obtain ⟨D, hD, h⟩ := h
  have hsnapshot : v.snapshot = { w.snapshot with memory := v.memory } := by
    simp only [World.snapshot, h.bindings, h.shuttingDown, h.stats, h.interned, h.boxes, h.tracing]
  have hmasked : Masked (unwritten V w.marked) D w.memory v.memory :=
    h.masked.mono (unwritten_mono subset_rfl (V.bytes_cons (.boundary w.snapshot) w.host not_false)
      fun b hb => ⟨hb, rfl, rfl⟩)
  have hhistory : Matching V w.marked.host v.marked.host := by
    show Matching V (.boundary w.snapshot :: w.host) (.boundary v.snapshot :: v.host)
    rw [hsnapshot]
    exact .boundary hD hmasked h.history
  exact ⟨D, hD, { h with masked := hmasked, history := hhistory }⟩

/-- Both runs write down the same event, which makes and ends no handle. -/
lemma noted (h : Twins V w v) {e : Event} (he : e.KeepsStorage)
    (hL : ∀ L : Ledger, (L.after e).handles = L.handles) : Twins V (w.noted e) (v.noted e) := by
  obtain ⟨D, hD, h⟩ := h
  have hhandles : (ledger (w.noted e).host).handles = (ledger w.host).handles := hL _
  have hU : unwritten V w ⊆ unwritten V (w.noted e) :=
    unwritten_mono he.blank_eq.ge (V.bytes_cons e w.host he.not_allots) fun b hb =>
      ⟨hhandles ▸ hb, congrFun he.room_eq b, rfl⟩
  refine ⟨D, by rwa [hhandles], (h.noted he ?_).mono hU⟩
  rw [hhandles]
  exact he.housing.2 h.headed

lemma bindings (h : Twins V w v) : v.bindings = w.bindings := by
  obtain ⟨D, -, h⟩ := h
  exact h.bindings

lemma shuttingDown (h : Twins V w v) : v.shuttingDown = w.shuttingDown := by
  obtain ⟨D, -, h⟩ := h
  exact h.shuttingDown

lemma stats (h : Twins V w v) : v.stats = w.stats := by
  obtain ⟨D, -, h⟩ := h
  exact h.stats

lemma interned (h : Twins V w v) : v.interned = w.interned := by
  obtain ⟨D, -, h⟩ := h
  exact h.interned

lemma boxes (h : Twins V w v) : v.boxes = w.boxes := by
  obtain ⟨D, -, h⟩ := h
  exact h.boxes

lemma bump (h : Twins V w v) (k : Counter) :
    Twins V { w with stats := w.stats.bump k } { v with stats := v.stats.bump k } := by
  obtain ⟨D, hD, h⟩ := h
  exact ⟨D, hD, h.bump k⟩

/-- Both install the same. -/
lemma withBindings (h : Twins V w v) (f : Bindings → Bindings) :
    Twins V { w with bindings := f w.bindings } { v with bindings := f v.bindings } := by
  obtain ⟨D, hD, h⟩ := h
  exact ⟨D, hD, { h with bindings := congrArg f h.bindings }⟩

lemma withInterned (h : Twins V w v) (f : Interned → Interned) :
    Twins V { w with interned := f w.interned } { v with interned := f v.interned } := by
  obtain ⟨D, hD, h⟩ := h
  exact ⟨D, hD, { h with interned := congrArg f h.interned }⟩

/-- Both shut down. -/
lemma down (h : Twins V w v) :
    Twins V { w with shuttingDown := true } { v with shuttingDown := true } := by
  obtain ⟨D, hD, h⟩ := h
  exact ⟨D, hD, { h with shuttingDown := rfl }⟩

/-- A fresh start, when nothing is out, makes the states alike. -/
lemma started (h : Twins V w v) (hempty : (ledger w.host).handles = ∅) :
    Twins V (World.noted { w with bindings := {}, shuttingDown := false, stats := {} } .started)
      (World.noted { v with bindings := {}, shuttingDown := false, stats := {} } .started) := by
  obtain ⟨D, hD, h⟩ := h
  obtain rfl := Finset.subset_empty.1 (hempty ▸ hD)
  exact ⟨∅, Finset.empty_subset _, { h with
    masked := h.masked.mono (unwritten_mono subset_rfl (V.bytes_cons .started w.host not_false)
      fun b hb => absurd hb (Finset.notMem_empty b))
    housing := fun b hb => absurd hb (Finset.notMem_empty b)
    headed := fun b hb => absurd hb (Finset.notMem_empty b)
    history := .cons .started (by intro s hs; cases hs) h.history
    bindings := rfl
    shuttingDown := rfl
    stats := rfl }⟩

lemma withBoxes (h : Twins V w v) (f : Boxes → Boxes) :
    Twins V { w with boxes := f w.boxes } { v with boxes := f v.boxes } := by
  obtain ⟨D, hD, h⟩ := h
  exact ⟨D, hD, { h with boxes := congrArg f h.boxes }⟩

/-- Both callers write the same to the same place, which is no header. -/
lemma poked (h : Twins V w v) {o : Addr} (hL : (ledger w.host).Laid o) {bytes : List UInt8}
    {a : Addr} (ha : a.toNat + bytes.length ≤ UInt64.size)
    (hapart : ∀ b ∈ (ledger w.host).handles, Apart a bytes.length b 56) :
    Twins V (World.noted { w with memory := w.memory.write a bytes } (.poked a bytes))
      (World.noted { v with memory := v.memory.write a bytes } (.poked a bytes)) := by
  obtain ⟨D, hD, h⟩ := h
  have hput := h.put_apart hL (.write ha) fun b hb _ => hapart b (hD hb)
  refine ⟨D, hD, { hput with
    masked := hput.masked.mono (unwritten_subset subset_rfl ?_ fun b hb => .inl ⟨hb, ?_⟩)
    history := .cons (.poked a bytes) (by intro s hs; cases hs) h.history }⟩
  · exact V.bytes_cons (.poked a bytes) w.host not_false
  · have hfit := h.headed.fit hL hb
    exact furnished_of_header rfl (Memory.header_write_of_apart _ _ ha hfit (hapart b hb))

end Twins

/-! ### Computations -/

/-- Two computations come to the same answer and leave states that are as `Q` says, or they end by
the same fault and leave twins. -/
inductive Paired (V : Vouched) {α : Type} (Q : α → World History → World History → Prop) :
    EStateM.Result Fault (World History) α → EStateM.Result Fault (World History) α → Prop
  | ok {a : α} {w v : World History} (h : Q a w v) : Paired V Q (.ok a w) (.ok a v)
  | error {e : Fault} {w v : World History} (h : Twins V w v) :
      Paired V Q (.error e w) (.error e v)

namespace Paired

variable {V : Vouched} {α β : Type} {w v : World History}
  {P Q : α → World History → World History → Prop} {R : β → World History → World History → Prop}

/-- What is said of the two states may be weakened. -/
lemma mono {r r' : EStateM.Result Fault (World History) α} (h : Paired V P r r')
    (hPQ : ∀ a w v, P a w v → Q a w v) : Paired V Q r r' := by
  cases h with
  | ok h => exact .ok (hPQ _ _ _ h)
  | error h => exact .error h

/-- One computation after another, whose second parts are paired wherever the first ones lead. -/
lemma bind {x y : Machine History α} {f g : α → Machine History β} (hxy : Paired V P (x w) (y v))
    (hfg : ∀ a w' v', x w = .ok a w' → y v = .ok a v' → P a w' v' → Paired V R (f a w') (g a v')) :
    Paired V R ((x >>= f) w) ((y >>= g) v) := by
  rw [Machine.bind_apply, Machine.bind_apply]
  generalize hx : x w = r at hxy hfg
  generalize hy : y v = r' at hxy hfg
  cases hxy with
  | ok h => exact hfg _ _ _ rfl rfl h
  | error h => exact .error h

/-- A panic gets out of neither of two C functions. -/
lemma withoutUnwinding {x y : Machine History α} (hxy : Paired V P (x w) (y v)) :
    Paired V P (Machine.withoutUnwinding x w) (Machine.withoutUnwinding y v) := by
  rw [Machine.withoutUnwinding_apply, Machine.withoutUnwinding_apply]
  generalize x w = r at hxy
  generalize y v = r' at hxy
  cases hxy with
  | ok h => exact .ok h
  | error h => exact .error h

/-- The same for attempts, where a failure is told at once. -/
lemma attempt_bind {x y : Attempt History α} {f g : α → Attempt History β}
    {P : Except AllocError α → World History → World History → Prop}
    {R : Except AllocError β → World History → World History → Prop}
    (hxy : Paired V P (x.run w) (y.run v))
    (hok : ∀ a w' v', P (.ok a) w' v' → Paired V R ((f a).run w') ((g a).run v'))
    (herr : ∀ e w' v', P (.error e) w' v' → R (.error e) w' v') :
    Paired V R ((x >>= f).run w) ((y >>= g).run v) := by
  rw [Attempt.bind_apply, Attempt.bind_apply]
  generalize x.run w = r at hxy
  generalize y.run v = r' at hxy
  cases hxy with
  | @ok a w' v' h =>
    cases a with
    | ok a => exact hok a w' v' h
    | error e => exact .ok (herr e w' v' h)
  | error h => exact .error h

/-- The same where the first part cannot fail to get storage. -/
lemma lift_bind {x y : Machine History α} {f g : α → Attempt History β}
    {R : Except AllocError β → World History → World History → Prop}
    (hxy : Paired V P (x w) (y v))
    (hfg : ∀ a w' v', P a w' v' → Paired V R ((f a).run w') ((g a).run v')) :
    Paired V R (((liftM x : Attempt History α) >>= f).run w)
      (((liftM y : Attempt History α) >>= g).run v) := by
  rw [Attempt.lift_bind_apply, Attempt.lift_bind_apply]
  generalize x w = r at hxy
  generalize y v = r' at hxy
  cases hxy with
  | ok h => exact hfg _ _ _ h
  | error h => exact .error h

/-- The same where a failure is caught. -/
lemma attempt_catch {x y : Attempt History α} {f g : AllocError → Attempt History α}
    {P R : Except AllocError α → World History → World History → Prop}
    (hxy : Paired V P (x.run w) (y.run v)) (hok : ∀ a w' v', P (.ok a) w' v' → R (.ok a) w' v')
    (herr : ∀ e w' v', x.run w = .ok (.error e) w' → y.run v = .ok (.error e) v' →
      P (.error e) w' v' → Paired V R ((f e).run w') ((g e).run v')) :
    Paired V R ((tryCatch x f).run w) ((tryCatch y g).run v) := by
  rw [Attempt.tryCatch_apply, Attempt.tryCatch_apply]
  generalize x.run w = r at hxy herr
  generalize y.run v = r' at hxy herr
  cases hxy with
  | @ok a w' v' h =>
    cases a with
    | ok a => exact .ok (hok a w' v' h)
    | error e => exact herr e w' v' rfl rfl h
  | error h => exact .error h

/-- A step that tells its caller nothing. -/
lemma silently {x y : Machine History Unit} (hxy : Paired V (fun _ => Twins V) (x w) (y v)) :
    Paired V (fun _ => Twins V) ((Call.silently x).run w) ((Call.silently y).run v) := by
  rw [Call.silently, Call.silently, Attempt.lift_bind_apply, Attempt.lift_bind_apply]
  generalize x w = r at hxy
  generalize y v = r' at hxy
  cases hxy with
  | ok h => exact .ok h
  | error h => exact .error h

end Paired

end CountedHeap
