/-
What comes of giving up references

A handle ends when the last of its references is given up, whichever that is. Where nobody who is
called at the end of a handle meddles with the runtime or with other handles, all that comes of
giving up references can be said without saying in which order they are given up: which handles end,
who is called, what is given back, what the counters say, and what is left of headers and payloads.

* `World.ended`, `World.farewell`: the handles that end, and what is seen of that;
* `Leftover`: what is left of a byte;
* `Along`: all that comes of it;
* `Along.trans`: more references are given up;
* `Forsaken`: a handle that nobody has a reference to, before its storage goes;
* `Environment.Steady.released_along`, `Environment.Steady.ended_along`: one reference is given up.
-/
import CountedHeap.Proofs.Partings

namespace CountedHeap

open Memory (AgreeOn range mem_range)

/-! ### What comes of it -/

lemma Header.exists_recount (d : Header) : ∃ k, d = { d with refcount := k } := ⟨d.refcount, rfl⟩

namespace World

variable (w : World History)

/-- The handles that end when the references in `S` are given up: those that have no others. -/
def ended (S : Multiset Handle) : Finset Handle :=
  S.toFinset.filter fun b => S.count b = (ledger w.host).refs b

/-- What is seen of the end of the handle `b`: somebody is called, unless the runtime is shutting
down, and blocks are given back. -/
def farewell (b : Handle) : Multiset Event :=
  ((if w.shuttingDown then [] else (w.memory.header b).parting w.boxes : List Event) :
    Multiset Event) +
    (w.spoils b).val.map fun q => .takenBack ((ledger w.host).source q) q

/-- The header of the handle `b` when the references in `S` are given up. -/
def reduced (S : Multiset Handle) (b : Handle) : Header :=
  if b ∈ S then
    { w.memory.header b with refcount := .ofNat ((ledger w.host).refs b - S.count b) }
  else w.memory.header b

/-- Among the handles in `S`, no two wait for the same closure. -/
def Unboxes (S : Multiset Handle) : Prop :=
  ∀ b ∈ S, ∀ c ∈ S, (w.memory.header b).destructor = Adapter.boxed.addr →
    (w.memory.header c).destructor = Adapter.boxed.addr →
    (w.memory.header b).info = (w.memory.header c).info → b = c

variable {w} {S : Multiset Handle} {b : Handle}

lemma mem_ended : b ∈ w.ended S ↔ b ∈ S ∧ S.count b = (ledger w.host).refs b := by
  rw [ended, Finset.mem_filter, Multiset.mem_toFinset]

lemma reduced_of_notMem (hb : b ∉ S) : w.reduced S b = w.memory.header b := if_neg hb

/-- Nothing but the count of a header is reduced. -/
lemma exists_reduced (w : World History) (S : Multiset Handle) (b : Handle) :
    ∃ k, w.reduced S b = { w.memory.header b with refcount := k } := by
  unfold reduced
  split
  · exact ⟨_, rfl⟩
  · exact (w.memory.header b).exists_recount

end World

section Recounted

variable {w v : World History} {b : Handle} {k : Word} {i : Nat}

/-- Nothing that is done at the end of a handle depends on its count. -/
lemma World.spoils_of_recount (hdown : v.shuttingDown = w.shuttingDown)
    (hheader : v.memory.header b = { w.memory.header b with refcount := k }) :
    v.spoils b = w.spoils b := by
  rw [spoils, spoils, hdown, hheader, Header.blocks_recount]

lemma World.wipes_of_recount (hdown : v.shuttingDown = w.shuttingDown)
    (hheader : v.memory.header b = { w.memory.header b with refcount := k }) :
    v.Wipes b i ↔ w.Wipes b i := by
  rw [Wipes, Wipes, hdown, hheader, Header.poisons_recount, Header.span_recount]

/-- The call depends on the box besides. -/
lemma Header.summoned_of_recount {d : Header} {boxes boxes' : Boxes}
    (hbox : d.destructor = Adapter.boxed.addr → boxes'.find? d.info = boxes.find? d.info) :
    { d with refcount := k }.summoned boxes' = d.summoned boxes := by
  unfold summoned
  refine if_congr .rfl rfl ?_
  rw [call?_recount]
  unfold call?
  cases ha : Adapter.ofAddr? d.destructor with
  | none => rfl
  | some a =>
    cases a with
    | boxed =>
      dsimp only
      rw [hbox (Adapter.eq_of_ofAddr? ha)]
    | _ => rfl

/-- What comes of the end of a handle does not depend on its count. -/
lemma Header.parting_of_recount {d : Header} {boxes boxes' : Boxes}
    (hbox : d.destructor = Adapter.boxed.addr → boxes'.find? d.info = boxes.find? d.info) :
    { d with refcount := k }.parting boxes' = d.parting boxes := by
  rw [parting, summoned_of_recount hbox, parting]

end Recounted

/-- The byte `i` of a count that was written down as `n`. -/
def countByte (b : Handle) (n : Word) (i : Nat) : UInt8 :=
  (Memory.zero.setWord (b + Field.refcount.offset) n).byte i

/-- It does not depend on the rest of memory. -/
lemma byte_withCount {w : World History} {b : Handle} (n : Word) {i : Nat}
    (hb : b.toNat + 56 ≤ UInt64.size) (hi : i ∈ Field.refcount.bytes b) :
    (w.withCount b n).memory.byte i = countByte b n i := by
  have ho := toNat_add_offset .refcount hb
  have hf := Field.refcount.offset_le
  rw [Field.bytes, mem_range] at hi
  have hlen : (littleEndian 8 n.toNat).length = 8 := length_littleEndian _ _
  have hfit : (b + Field.refcount.offset).toNat + (littleEndian 8 n.toNat).length ≤
      UInt64.size := by omega
  have hin : i - (b + Field.refcount.offset).toNat < (littleEndian 8 n.toNat).length := by omega
  unfold countByte World.withCount Memory.setWord
  rw [Memory.byte_write _ _ _ hfit (by omega), Memory.byte_write _ _ _ hfit (by omega),
    if_pos hi.1, if_pos hi.1, List.getElem?_eq_getElem hin]
  rfl

/-- When the references in `S` have been given up since the state `w`, the byte `x` is left at `i`,
if memory is still in use there: part of a count, or poison, or what was there before. -/
structure Leftover (w : World History) (S : Multiset Handle) (i : Nat) (x : UInt8) : Prop where
  counted : ∀ b ∈ S, i ∈ Field.refcount.bytes b →
    x = countByte b (.ofNat ((ledger w.host).refs b - S.count b)) i
  poisoned : (∀ b ∈ S, i ∉ Field.refcount.bytes b) → ∀ b ∈ w.ended S, w.Wipes b i →
    x = Poison.freed
  kept : (∀ b ∈ S, i ∉ Field.refcount.bytes b) → (∀ b ∈ w.ended S, ¬ w.Wipes b i) →
    x = w.memory.byte i

lemma Leftover.unique {w : World History} {S : Multiset Handle} {i : Nat} {x y : UInt8}
    (hx : Leftover w S i x) (hy : Leftover w S i y) : x = y := by
  by_cases hcount : ∃ b ∈ S, i ∈ Field.refcount.bytes b
  · obtain ⟨b, hb, hi⟩ := hcount
    exact (hx.counted b hb hi).trans (hy.counted b hb hi).symm
  have hnone : ∀ b ∈ S, i ∉ Field.refcount.bytes b := fun b hb hi => hcount ⟨b, hb, hi⟩
  by_cases hwipe : ∃ b ∈ w.ended S, w.Wipes b i
  · obtain ⟨b, hb, hw⟩ := hwipe
    exact (hx.poisoned hnone b hb hw).trans (hy.poisoned hnone b hb hw).symm
  · have hkept : ∀ b ∈ w.ended S, ¬ w.Wipes b i := fun b hb hw => hwipe ⟨b, hb, hw⟩
    exact (hx.kept hnone hkept).trans (hy.kept hnone hkept).symm

/-- The references in `S` were given up since the state `w`, and this came of it. -/
structure Along (E : Environment) (w : World History) (S : Multiset Handle) (v : World History) :
    Prop where
  steady : E.Steady v
  owned : ∀ b ∈ S, b ∈ (ledger w.host).handles ∧ S.count b ≤ (ledger w.host).refs b
  rest : v = { w with memory := v.memory, stats := v.stats, boxes := v.boxes, host := v.host }
  shows : Shows w.host v.host (S.map .released + ∑ b ∈ w.ended S, w.farewell b)
  stats : v.stats =
    { w.stats with
      free := w.stats.free + .ofNat (∑ b ∈ w.ended S, (w.spoils b).card)
      handleFree := w.stats.handleFree + .ofNat (w.ended S).card }
  books : ledger v.host =
    { ledger w.host with
      blocks := (ledger w.host).blocks \ (w.ended S).biUnion w.spoils
      handles := (ledger w.host).handles \ w.ended S
      refs := fun b => (ledger w.host).refs b - S.count b }
  boxes : ∀ a, (∀ b ∈ w.ended S, (w.memory.header b).destructor = Adapter.boxed.addr →
    a ≠ (w.memory.header b).info) → v.boxes.find? a = w.boxes.find? a
  header : ∀ c ∈ (ledger v.host).handles, v.memory.header c = w.reduced S c
  bytes : ∀ i < UInt64.size, Steadfast E (ledger v.host) i →
    (∃ c ∈ (ledger v.host).handles, i ∈ (w.memory.header c).span) →
    Leftover w S i (v.memory.byte i)

namespace Environment

variable {E : Environment} {w : World History} {b c : Handle} {i : Nat}

/-- No two counts have a byte in common. -/
lemma Steady.eq_of_mem_refcount (hw : E.Steady w) (hb : b ∈ (ledger w.host).handles)
    (hc : c ∈ (ledger w.host).handles) (hi : i ∈ Field.refcount.bytes b)
    (hi' : i ∈ Field.refcount.bytes c) : b = c := by
  by_contra hne
  have hfit := hw.room_le hb
  have hfit' := hw.room_le hc
  have hapart := (hw.sound.laid.apart b (hw.mem_blocks hb) c (hw.mem_blocks hc) hne).mono_left
    hfit.1 |>.mono_right hfit'.1
  exact hapart.not_mem (Memory.range_field_subset _ hfit.2 hi)
    (Memory.range_field_subset _ hfit'.2 hi')

/-- No count has a byte in common with a payload that is poisoned in the end. -/
lemma Steady.not_poisoned (hw : E.Steady w) (hb : b ∈ (ledger w.host).handles)
    (hc : c ∈ (ledger w.host).handles) (hi : i ∈ Field.refcount.bytes b)
    (hp : (w.memory.header c).Poisons) (hi' : i ∈ (w.memory.header c).span) : False := by
  have hfit := hw.room_le hb
  have hheader := Memory.range_field_subset .refcount hfit.2 hi
  obtain ⟨-, hin, hout⟩ := hw.poisons hc hp hi'
  by_cases hne : b = c
  · exact hout (hne ▸ hheader)
  · have hapart := (hw.sound.laid.apart b (hw.mem_blocks hb) c (hw.mem_blocks hc) hne).mono_left
      hfit.1
    exact hapart.not_mem hheader hin

end Environment

namespace Along

variable {E : Environment} {w v u : World History} {S T : Multiset Handle} {b c : Handle} {i : Nat}

/-! ### Nothing was given up yet -/

/-- Where the state is the same but for what was written down, nothing came of anything. -/
lemma of_unchanged (hv : E.Steady v) (hmemory : v.memory = w.memory)
    (hrest : v = { w with host := v.host }) (hshows : Shows w.host v.host 0)
    (hbooks : ledger v.host = ledger w.host) : Along E w 0 v := by
  have hnone : w.ended 0 = ∅ := rfl
  refine ⟨hv, fun b hb => absurd hb (Multiset.notMem_zero b), ?_, ?_, ?_, ?_, fun a _ => ?_,
    fun c _ => ?_, fun i _ _ _ => ⟨fun b hb => absurd hb (Multiset.notMem_zero b),
      fun _ b hb => absurd hb (Finset.notMem_empty b), fun _ _ => by rw [hmemory]⟩⟩
  · rw [hrest]
  · simpa [hnone] using hshows
  · rw [hrest, hnone]
    simp
  · rw [hbooks, hnone]
    simp
  · rw [hrest]
  · rw [hmemory, World.reduced_of_notMem (Multiset.notMem_zero c)]

/-- The state is written down. -/
lemma marked (hw : E.Steady w) : Along E w 0 w.marked :=
  of_unchanged hw.marked.1 rfl rfl (.cons_private rfl) rfl

/-! ### More is given up -/

section Trans

/-- Nobody gives up more references than there are. -/
lemma count_le (h : Along E w S v) (c : Handle) : S.count c ≤ (ledger w.host).refs c := by
  by_cases hc : c ∈ S
  · exact (h.owned c hc).2
  · rw [Multiset.count_eq_zero_of_notMem hc]
    exact Nat.zero_le _

/-- The references that were given up are missing. -/
lemma refs (h : Along E w S v) (c : Handle) :
    (ledger v.host).refs c = (ledger w.host).refs c - S.count c := by
  rw [h.books]

/-- The handles that ended are missing. -/
lemma mem_handles (h : Along E w S v) :
    c ∈ (ledger v.host).handles ↔ c ∈ (ledger w.host).handles ∧ c ∉ w.ended S := by
  rw [h.books]
  exact Finset.mem_sdiff

lemma shuttingDown (h : Along E w S v) : v.shuttingDown = w.shuttingDown := by
  rw [h.rest]

/-- Of the handles that are left, only the counts are others. -/
lemma exists_header (h : Along E w S v) (hc : c ∈ (ledger v.host).handles) :
    ∃ k, v.memory.header c = { w.memory.header c with refcount := k } := by
  rw [h.header c hc]
  exact w.exists_reduced S c

lemma spoils (h : Along E w S v) (hc : c ∈ (ledger v.host).handles) : v.spoils c = w.spoils c := by
  obtain ⟨k, hk⟩ := h.exists_header hc
  exact World.spoils_of_recount h.shuttingDown hk

lemma wipes (h : Along E w S v) (hc : c ∈ (ledger v.host).handles) :
    v.Wipes c i ↔ w.Wipes c i := by
  obtain ⟨k, hk⟩ := h.exists_header hc
  exact World.wipes_of_recount h.shuttingDown hk

lemma span (h : Along E w S v) (hc : c ∈ (ledger v.host).handles) :
    (v.memory.header c).span = (w.memory.header c).span := by
  obtain ⟨k, hk⟩ := h.exists_header hc
  rw [hk, Header.span_recount]

lemma reduced_add (h : Along E w S v) (hc : c ∈ (ledger v.host).handles) :
    v.reduced T c = w.reduced (S + T) c := by
  have hheader := h.header c hc
  unfold World.reduced at hheader ⊢
  rw [h.refs, Nat.sub_sub, ← Multiset.count_add, hheader]
  by_cases hS : c ∈ S
  · rw [if_pos hS, if_pos (Multiset.mem_add.2 (.inl hS))]
    by_cases hcT : c ∈ T
    · rw [if_pos hcT]
    · rw [if_neg hcT, Multiset.count_add, Multiset.count_eq_zero_of_notMem hcT, Nat.add_zero]
  · by_cases hcT : c ∈ T
    · rw [if_neg hS, if_pos hcT, if_pos (Multiset.mem_add.2 (.inr hcT))]
    · rw [if_neg hS, if_neg hcT, if_neg fun hin => (Multiset.mem_add.1 hin).elim hS hcT]

variable (h : Along E w S v) (hT : ∀ b ∈ T, b ∈ (ledger v.host).handles ∧
  T.count b ≤ (ledger v.host).refs b)

include h hT

/-- The handles that end are those that ended before, and those that end now. -/
lemma ended_add : w.ended (S + T) = w.ended S ∪ v.ended T := by
  ext b
  have hle := h.count_le b
  rw [Finset.mem_union, World.mem_ended, World.mem_ended, World.mem_ended, h.refs,
    Multiset.count_add, Multiset.mem_add]
  by_cases hb : b ∈ T
  · have hin := (h.mem_handles.1 (hT b hb).1).2
    rw [World.mem_ended] at hin
    have hnone : b ∉ S → S.count b = 0 := Multiset.count_eq_zero_of_notMem
    have hpos := Multiset.count_pos.2 hb
    have hless := (hT b hb).2
    rw [h.refs] at hless
    by_cases hS : b ∈ S
    · simp only [hS, hb, true_and, or_true]
      omega
    · simp only [hS, hb, false_and, or_true, true_and, false_or]
      omega
  · have hzero := Multiset.count_eq_zero_of_notMem hb
    simp only [hb, or_false, false_and, hzero, Nat.add_zero]

/-- No handle ends twice. -/
lemma disjoint_ended : Disjoint (w.ended S) (v.ended T) := by
  refine Finset.disjoint_left.2 fun b hb hb' => ?_
  exact (h.mem_handles.1 (hT b (World.mem_ended.1 hb').1).1).2 hb

/-- Nobody else has taken the closure of a handle that ends now. -/
lemma box (hboxes : w.Unboxes (S + T)) (hb : b ∈ v.ended T)
    (hd : (w.memory.header b).destructor = Adapter.boxed.addr) :
    v.boxes.find? (w.memory.header b).info = w.boxes.find? (w.memory.header b).info := by
  have hbT := (World.mem_ended.1 hb).1
  refine h.boxes _ fun c hc hd' he => ?_
  have hcS := (World.mem_ended.1 hc).1
  obtain rfl := hboxes b (Multiset.mem_add.2 (.inr hbT)) c (Multiset.mem_add.2 (.inl hcS)) hd hd' he
  exact (h.mem_handles.1 (hT b hbT).1).2 hc

/-- What is seen of a handle that ends now would have been seen before as well. -/
lemma farewell (hboxes : w.Unboxes (S + T)) (hb : b ∈ v.ended T) :
    v.farewell b = w.farewell b := by
  obtain ⟨hin, -⟩ := hT b (World.mem_ended.1 hb).1
  obtain ⟨k, hk⟩ := h.exists_header hin
  have hsource : (ledger v.host).source = (ledger w.host).source := by rw [h.books]
  rw [World.farewell, World.farewell, h.shuttingDown, hk,
    Header.parting_of_recount (h.box hT hboxes hb), h.spoils hin, hsource]

/-- What is given back goes through the same hands. -/
lemma biUnion_spoils : (w.ended (S + T)).biUnion w.spoils =
    (w.ended S).biUnion w.spoils ∪ (v.ended T).biUnion v.spoils := by
  have hsame : (v.ended T).biUnion v.spoils = (v.ended T).biUnion w.spoils :=
    Finset.biUnion_congr rfl fun b hb => h.spoils (hT b (World.mem_ended.1 hb).1).1
  rw [h.ended_add hT, Finset.union_biUnion, hsame]

/-- A byte that is left of more releases. Counts have no byte in common, and poison has none in
common with any count. -/
lemma leftover_add (hw : E.Steady w) {x y : UInt8} (hx : Leftover w S i x)
    (hx' : v.memory.byte i = x) (hy : Leftover v T i y) : Leftover w (S + T) i y := by
  have hin : ∀ b ∈ T, b ∈ (ledger w.host).handles := fun b hb => (h.mem_handles.1 (hT b hb).1).1
  have hwipes : ∀ b ∈ v.ended T, v.Wipes b i ↔ w.Wipes b i := fun b hb =>
    h.wipes (hT b (World.mem_ended.1 hb).1).1
  have hcount : ∀ b ∈ (ledger w.host).handles, ∀ c ∈ (ledger w.host).handles,
      i ∈ Field.refcount.bytes b → w.Wipes c i → False := fun b hb c hc hib hic =>
    hw.not_poisoned hb hc hib hic.2.1 hic.2.2
  have hsingle : ∀ b ∈ (ledger w.host).handles, ∀ c ∈ (ledger w.host).handles,
      i ∈ Field.refcount.bytes b → i ∈ Field.refcount.bytes c → b = c := fun b hb c hc =>
    hw.eq_of_mem_refcount hb hc
  refine ⟨fun b hb hi => ?_, fun hnone b hb hwipe => ?_, fun hnone hkept => ?_⟩
  · by_cases hbT : b ∈ T
    · rw [hy.counted b hbT hi, h.refs, Nat.sub_sub, Multiset.count_add]
    · -- The count was written before, and nothing that comes later reaches it.
      have hbS : b ∈ S := (Multiset.mem_add.1 hb).resolve_right hbT
      have hbw := (h.owned b hbS).1
      have hsame : y = v.memory.byte i := hy.kept
        (fun c hc hic => hbT (hsingle b hbw c (hin c hc) hi hic ▸ hc))
        fun c hc hwipe => hcount b hbw c (hin c (World.mem_ended.1 hc).1) hi
          ((hwipes c hc).1 hwipe)
      rw [hsame, hx', hx.counted b hbS hi, Multiset.count_add,
        Multiset.count_eq_zero_of_notMem hbT, Nat.add_zero]
  all_goals
    have hnoneS : ∀ b ∈ S, i ∉ Field.refcount.bytes b := fun b hb =>
      hnone b (Multiset.mem_add.2 (.inl hb))
    have hnoneT : ∀ b ∈ T, i ∉ Field.refcount.bytes b := fun b hb =>
      hnone b (Multiset.mem_add.2 (.inr hb))
    rw [h.ended_add hT] at *
  · by_cases hnow : ∃ c ∈ v.ended T, v.Wipes c i
    · obtain ⟨c, hc, hwipe⟩ := hnow
      exact hy.poisoned hnoneT c hc hwipe
    have hbefore : b ∈ w.ended S := (Finset.mem_union.1 hb).resolve_right fun hb =>
      hnow ⟨b, hb, (hwipes b hb).2 hwipe⟩
    rw [hy.kept hnoneT fun c hc hwipe => hnow ⟨c, hc, hwipe⟩, hx']
    exact hx.poisoned hnoneS b hbefore hwipe
  · rw [hy.kept hnoneT fun c hc hwipe =>
      hkept c (Finset.mem_union.2 (.inr hc)) ((hwipes c hc).1 hwipe), hx']
    exact hx.kept hnoneS fun c hc => hkept c (Finset.mem_union.2 (.inl hc))

end Trans

/-- First these references are given up, and then those. -/
theorem trans (h : Along E w S v) (h' : Along E v T u) (hw : E.Steady w)
    (hboxes : w.Unboxes (S + T)) : Along E w (S + T) u := by
  have hended := h.ended_add h'.owned
  have hdisjoint := h.disjoint_ended h'.owned
  have hin : ∀ b ∈ v.ended T, b ∈ (ledger v.host).handles := fun b hb =>
    (h'.owned b (World.mem_ended.1 hb).1).1
  refine ⟨h'.steady, fun b hb => ⟨?_, ?_⟩, ?_, ?_, ?_, ?_, fun a ha => ?_, fun c hc => ?_,
    fun i hi hs hspan => ?_⟩
  · exact (Multiset.mem_add.1 hb).elim (fun hb => (h.owned b hb).1)
      fun hb => (h.mem_handles.1 (h'.owned b hb).1).1
  · have hless := h'.count_le b
    have hless' := h.count_le b
    rw [h.refs] at hless
    rw [Multiset.count_add]
    omega
  · rw [h'.rest, h.rest]
  · have hsame : ∑ b ∈ v.ended T, v.farewell b = ∑ b ∈ v.ended T, w.farewell b :=
      Finset.sum_congr rfl fun b => h.farewell h'.owned hboxes
    have hboth := h.shows.trans h'.shows
    rwa [hsame, add_add_add_comm, ← Multiset.map_add, ← Finset.sum_union hdisjoint,
      ← hended] at hboth
  · have hsame : ∑ b ∈ v.ended T, (v.spoils b).card = ∑ b ∈ v.ended T, (w.spoils b).card :=
      Finset.sum_congr rfl fun b hb => by rw [h.spoils (hin b hb)]
    rw [h'.stats, h.stats, hended, Finset.sum_union hdisjoint,
      Finset.card_union_of_disjoint hdisjoint, UInt64.ofNat_add, UInt64.ofNat_add,
      ← UInt64.add_assoc, ← UInt64.add_assoc, hsame]
  · have hrefs : (fun b => (ledger w.host).refs b - S.count b - T.count b) =
        fun b => (ledger w.host).refs b - (S + T).count b := by
      funext b
      rw [Nat.sub_sub, Multiset.count_add]
    have hblocks : ((ledger w.host).blocks \ (w.ended S).biUnion w.spoils) \
        (v.ended T).biUnion v.spoils =
        (ledger w.host).blocks \ (w.ended (S + T)).biUnion w.spoils := by
      rw [h.biUnion_spoils h'.owned, sdiff_sdiff_left, Finset.sup_eq_union]
    have hhandles : ((ledger w.host).handles \ w.ended S) \ v.ended T =
        (ledger w.host).handles \ w.ended (S + T) := by
      rw [hended, sdiff_sdiff_left, Finset.sup_eq_union]
    rw [h'.books, h.books, ← hblocks, ← hhandles, ← hrefs]
  · refine (h'.boxes a fun b hb hd => ?_).trans (h.boxes a fun b hb => ha b ?_)
    · obtain ⟨k, hk⟩ := h.exists_header (hin b hb)
      rw [hk] at hd ⊢
      exact ha b (hended ▸ Finset.mem_union.2 (.inr hb)) hd
    · exact hended ▸ Finset.mem_union.2 (.inl hb)
  · rw [h'.header c hc]
    exact h.reduced_add (h'.mem_handles.1 hc).1
  · obtain ⟨c, hc, hspan⟩ := hspan
    have hcv := (h'.mem_handles.1 hc).1
    have hsv : Steadfast E (ledger v.host) i := by
      refine hs.mono ?_ ?_ <;> rw [h'.books]
      exact Finset.sdiff_subset
    exact h.leftover_add h'.owned hw (h.bytes i hi hsv ⟨c, hcv, hspan⟩) rfl
      (h'.bytes i hi hs ⟨c, hc, by rwa [h.span hcv]⟩)

end Along

/-! ### One release -/

lemma Ledger.setRefs_pred (L : Ledger) (b : Handle) : L.setRefs b (L.refs b - 1) =
    { L with refs := fun c => L.refs c - Multiset.count c {b} } := by
  have hrefs : Function.update L.refs b (L.refs b - 1) =
      fun c => L.refs c - Multiset.count c {b} := by
    funext c
    rw [Multiset.count_singleton]
    by_cases hc : c = b
    · rw [hc, Function.update_self, if_pos rfl]
    · rw [Function.update_of_ne hc, if_neg hc, Nat.sub_zero]
  rw [setRefs, hrefs]

namespace Environment

variable {E : Environment} {w u v : World History} {b : Handle}

/-- A reference that is not the only one is given up. -/
lemma Steady.released_along (hw : E.Steady w) (hb : (ledger w.host).Live b)
    (h1 : (ledger w.host).refs b ≠ 1) :
    Along E w {b} ((w.noted (.released b)).withCount b (.ofNat ((ledger w.host).refs b - 1))) := by
  have hnone : w.ended {b} = ∅ := by
    refine Finset.eq_empty_of_forall_notMem fun c hc => ?_
    obtain ⟨hc, hcount⟩ := World.mem_ended.1 hc
    obtain rfl := Multiset.mem_singleton.1 hc
    rw [Multiset.count_singleton_self] at hcount
    exact h1 hcount.symm
  have hfit := (hw.room_le hb.1).2
  have hbooks : ledger ((w.noted (.released b)).withCount b
      (.ofNat ((ledger w.host).refs b - 1))).host =
      (ledger w.host).setRefs b ((ledger w.host).refs b - 1) := rfl
  refine ⟨?_, fun c hc => ?_, rfl, ?_, ?_, ?_, fun _ _ => rfl, fun c hc => ?_,
    fun i hi _ _ => ⟨fun c hc hin => ?_, fun _ c hc => ?_, fun hnot _ => ?_⟩⟩
  · rw [World.noted_withCount]
    exact (hw.recount hb ((Nat.sub_le _ _).trans (hw.refcount hb).1) rfl (.inr rfl)).1
  · obtain rfl := Multiset.mem_singleton.1 hc
    rw [Multiset.count_singleton_self]
    exact hb
  · rw [hnone, Multiset.map_singleton, Finset.sum_empty, add_zero]
    exact .cons rfl
  · rw [hnone]
    simp [World.noted, World.withCount]
  · rw [hbooks, hnone, Ledger.setRefs_pred, Finset.biUnion_empty, Finset.sdiff_empty,
      Finset.sdiff_empty]
  · by_cases hcb : c = b
    · rw [hcb, World.reduced, if_pos (Multiset.mem_singleton_self b),
        Multiset.count_singleton_self]
      exact Memory.header_setField w.memory .refcount _ hfit
    · rw [World.reduced_of_notMem (mt Multiset.mem_singleton.1 hcb)]
      exact hw.header_setField_of_ne w.memory hb.1 (.inl hc) hcb .refcount _
  · obtain rfl := Multiset.mem_singleton.1 hc
    rw [Multiset.count_singleton_self]
    exact byte_withCount _ hfit hin
  · rw [hnone] at hc
    exact absurd hc (Finset.notMem_empty c)
  · exact Memory.byte_setField_of_not_mem _ .refcount _ hfit hi
      (hnot b (Multiset.mem_singleton_self b))

/-- When the last reference was given up and the runtime is not shutting down, somebody may be
called, and nothing else has happened. -/
lemma Steady.released_called (hw : E.Steady w) (hb : (ledger w.host).Sole b)
    (hup : w.shuttingDown = false) : Called E w b ((w.noted (.released b)).withCount b 0) := by
  obtain ⟨hsteady, hdying⟩ := hw.released_last hb
  have hfit := (hw.room_le hb.1).2
  have hheader : ((w.noted (.released b)).withCount b 0).memory.header b =
      { w.memory.header b with refcount := 0 } :=
    Memory.header_setField w.memory .refcount 0 hfit
  refine ⟨hsteady, rfl, hup, hdying, hheader, fun c hc => ⟨hc, ?_⟩, Finset.Subset.refl _, rfl,
    fun i hi _ _ h => ?_⟩
  · by_cases hcb : c = b
    · rw [hcb]
      exact ⟨0, hheader⟩
    · have hsame : ((w.noted (.released b)).withCount b 0).memory.header c = w.memory.header c :=
        hw.header_setField_of_ne w.memory hb.1 (.inl hc) hcb .refcount 0
      rw [hsame]
      exact (w.memory.header c).exists_recount
  · exact Memory.byte_setField_of_not_mem _ .refcount _ hfit hi (h b hb.1).1

end Environment

/-- The only reference to the handle `b` was given up in the state `w`, and somebody may have been
called since. The blocks of `b` are still out. -/
structure Forsaken (w : World History) (b : Handle) (x : World History) : Prop where
  rest : x = { w with memory := x.memory, boxes := x.boxes, host := x.host }
  shows : Shows w.host x.host ({.released b} +
    ((if w.shuttingDown then [] else (w.memory.header b).parting w.boxes : List Event) :
      Multiset Event))
  books : ledger x.host =
    { ledger w.host with refs := fun c => (ledger w.host).refs c - Multiset.count c {b} }
  boxes : ∀ a, ((w.memory.header b).destructor = Adapter.boxed.addr →
    a ≠ (w.memory.header b).info) → x.boxes.find? a = w.boxes.find? a
  header : x.memory.header b = { w.memory.header b with refcount := 0 }
  others : ∀ c ∈ (ledger w.host).handles, c ≠ b → x.memory.header c = w.memory.header c
  bytes : ∀ i < UInt64.size, Elsewhere b w i → x.memory.byte i = (w.withCount b 0).memory.byte i

namespace Forsaken

variable {E : Environment} {w x u : World History} {b c : Handle} {i : Nat}

lemma shuttingDown (h : Forsaken w b x) : x.shuttingDown = w.shuttingDown := by rw [h.rest]

lemma stats (h : Forsaken w b x) : x.stats = w.stats := by rw [h.rest]

lemma spoils (h : Forsaken w b x) : x.spoils b = w.spoils b :=
  World.spoils_of_recount h.shuttingDown h.header

lemma wipes (h : Forsaken w b x) : x.Wipes b i ↔ w.Wipes b i :=
  World.wipes_of_recount h.shuttingDown h.header

/-- The handles that are left once `b` is gone were there before. -/
lemma left (h : Forsaken w b x) (hgone : Vanished E b x u) (hc : c ∈ (ledger u.host).handles) :
    c ∈ (ledger w.host).handles ∧ c ≠ b := by
  rw [hgone.books, h.books] at hc
  exact (Finset.mem_erase.1 hc).symm

end Forsaken

namespace Environment

variable {E : Environment} {w x u : World History} {b : Handle} {i : Nat}

/-- Where the reference is the only one, its handle ends, and no other does. -/
lemma ended_of_sole (hb : (ledger w.host).Sole b) : w.ended {b} = {b} := by
  ext c
  rw [World.mem_ended, Finset.mem_singleton, Multiset.mem_singleton]
  refine and_iff_left_of_imp fun hc => ?_
  rw [hc, Multiset.count_singleton_self, hb.2]

/-- Whoever is called keeps to himself, and so only the count was written in what belongs to
handles. -/
lemma Steady.forsaken (hw : E.Steady w) (hb : (ledger w.host).Sole b)
    (haside : Aside b (if w.shuttingDown then [] else (w.memory.header b).parting w.boxes)
      ((w.noted (.released b)).withCount b 0) x) : Forsaken w b x := by
  have hset : ((w.noted (.released b)).withCount b 0).memory.header b =
      { w.memory.header b with refcount := 0 } :=
    Memory.header_setField w.memory .refcount 0 (hw.room_le hb.1).2
  have hother : ∀ c ∈ (ledger w.host).handles, c ≠ b →
      ((w.noted (.released b)).withCount b 0).memory.header c = w.memory.header c := fun c hc hne =>
    hw.header_setField_of_ne w.memory hb.1 (.inl hc) hne .refcount 0
  refine ⟨?_, Shows.trans (.cons rfl) haside.shows, ?_, fun a ha => ?_, ?_, fun c hc hne => ?_,
    fun i hi helse => ?_⟩
  · rw [haside.rest]
    rfl
  · rw [haside.books, ← Ledger.setRefs_pred]
    rfl
  · exact haside.boxes a (by rwa [hset])
  · exact (haside.header b hb.1).trans hset
  · exact (haside.header c hc).trans (hother c hc hne)
  · obtain ⟨c, hc, hne, hspan⟩ := helse
    exact haside.others i hi ⟨c, hc, hne, by rwa [hother c hc hne]⟩

/-- In payloads that are left nothing but the count and the poison of `b` is new. -/
lemma Steady.forsaken_leftover (hw : E.Steady w) (hb : (ledger w.host).Sole b)
    (h : Forsaken w b x) (hgone : Vanished E b x u) (hi : i < UInt64.size)
    (hs : Steadfast E (ledger u.host) i)
    (hspan : ∃ c ∈ (ledger u.host).handles, i ∈ (w.memory.header c).span) :
    Leftover w {b} i (u.memory.byte i) := by
  have hfit := (hw.room_le hb.1).2
  have hmem := Multiset.mem_singleton_self b
  obtain ⟨c, hc, hspan⟩ := hspan
  obtain ⟨hc, hne⟩ := h.left hgone hc
  have hcount : x.memory.byte i = (w.withCount b 0).memory.byte i :=
    h.bytes i hi ⟨c, hc, hne, hspan⟩
  refine ⟨fun b' hb' hin => ?_, fun _ b' hb' hwipe => ?_, fun hnot hkept => ?_⟩
  · obtain rfl := Multiset.mem_singleton.1 hb'
    have hnot : ¬ x.Wipes b' i := fun hwipe =>
      have hwipe := h.wipes.1 hwipe
      hw.not_poisoned hb.1 hb.1 hin hwipe.2.1 hwipe.2.2
    rw [hgone.kept i hi hs hnot, hcount, Multiset.count_singleton_self, hb.2]
    exact byte_withCount _ hfit hin
  · rw [ended_of_sole hb] at hb'
    obtain rfl := Finset.mem_singleton.1 hb'
    exact hgone.wiped i hi hs (h.wipes.2 hwipe)
  · have hended : b ∈ w.ended {b} := (ended_of_sole hb).symm ▸ Finset.mem_singleton_self b
    have hnot' : ¬ x.Wipes b i := fun hwipe => hkept b hended (h.wipes.1 hwipe)
    rw [hgone.kept i hi hs hnot', hcount]
    exact Memory.byte_setField_of_not_mem _ .refcount _ hfit hi (hnot b hmem)

/-- The last reference is given up, and the handle ends. -/
lemma Steady.ended_along (hw : E.Steady w) (hb : (ledger w.host).Sole b) (hu : E.Steady u)
    (haside : Aside b (if w.shuttingDown then [] else (w.memory.header b).parting w.boxes)
      ((w.noted (.released b)).withCount b 0) x) (hgone : Vanished E b x u) : Along E w {b} u := by
  have h := hw.forsaken hb haside
  have hended := ended_of_sole hb
  refine ⟨hu, fun c hc => ?_, ?_, ?_, ?_, ?_, fun a ha => ?_, fun c hc => ?_,
    fun i hi hs hspan => hw.forsaken_leftover hb h hgone hi hs hspan⟩
  · obtain rfl := Multiset.mem_singleton.1 hc
    rw [Multiset.count_singleton_self]
    exact ⟨hb.1, hb.2.ge⟩
  · rw [hgone.rest, h.rest]
  · have hsource : (ledger x.host).source = (ledger w.host).source := by rw [h.books]
    have hall := h.shows.trans hgone.shows
    rw [h.spoils, hsource, add_assoc] at hall
    rw [Multiset.map_singleton, hended, Finset.sum_singleton]
    exact hall
  · rw [hgone.stats, h.stats, h.spoils, hended, Finset.sum_singleton, Finset.card_singleton]
    rfl
  · rw [hgone.books, h.books, h.spoils, hended, Finset.singleton_biUnion,
      Finset.sdiff_singleton_eq_erase]
  · have hkept : u.boxes = x.boxes := by rw [hgone.rest]
    rw [hkept]
    exact h.boxes a (ha b (hended ▸ Finset.mem_singleton_self b))
  · obtain ⟨hc, hne⟩ := h.left hgone hc
    have hcx : c ∈ (ledger x.host).handles := by rwa [h.books]
    rw [World.reduced_of_notMem (mt Multiset.mem_singleton.1 hne), hgone.header c hcx hne,
      h.others c hc hne]

end Environment

end CountedHeap
