/-
While handles only end

A destructor may do nothing but give up the references that its handle owns. While that is all that
happens, nothing comes into being, and memory stays as it is but for the counts in headers; so what
a destructor finds when it is called is what was there when the first reference was given up.

* `Undisturbed`: nothing happened since but that references were given up and handles ended;
* `GivesUp`, `Yields`: programs that give up references one after the other, and handles whose end
  does no more than that;
* `Ownership`: a set of handles whose references are accounted for;
* `Environment.During`: a state on the way, in terms of the references that are left.
-/
import CountedHeap.Proofs.Ownership
import CountedHeap.Proofs.Session

namespace CountedHeap

open Memory (AgreeOn Apart)

/-! ### Nothing comes into being -/

/-- Events by which references are given up and handles end, and nothing else. -/
def Event.Wanes : Event → Prop
  | .released _ | .takenBack .. | .destructor .. | .closure .. | .closureDropped _
  | .boundary _ => True
  | _ => False

lemma Event.Wanes.after {e : Event} (he : e.Wanes) (L : Ledger) :
    (L.after e).blocks ⊆ L.blocks ∧ (L.after e).handles ⊆ L.handles ∧
      (L.after e).room = L.room := by
  cases e with
  | takenBack s p => exact ⟨Finset.erase_subset _ _, Finset.erase_subset _ _, rfl⟩
  | released b => exact ⟨subset_rfl, subset_rfl, rfl⟩
  | destructor fn data size info => exact ⟨subset_rfl, subset_rfl, rfl⟩
  | closure c data size => exact ⟨subset_rfl, subset_rfl, rfl⟩
  | closureDropped c => exact ⟨subset_rfl, subset_rfl, rfl⟩
  | boundary s => exact ⟨subset_rfl, subset_rfl, rfl⟩
  | _ => exact he.elim

/-- From `H` to `H'`, references were given up and handles ended, and nothing else happened. -/
def Waned (H H' : History) : Prop := ∃ new, H' = new ++ H ∧ ∀ e ∈ new, e.Wanes

namespace Waned

variable {H H' H'' : History} {e : Event}

lemma refl : Waned H H := ⟨[], rfl, fun _ he => absurd he List.not_mem_nil⟩

lemma single (he : e.Wanes) : Waned H (e :: H) :=
  ⟨[e], rfl, fun _ he' => List.mem_singleton.1 he' ▸ he⟩

lemma trans (h : Waned H H') (h' : Waned H' H'') : Waned H H'' := by
  obtain ⟨new, rfl, hnew⟩ := h
  obtain ⟨new', rfl, hnew'⟩ := h'
  exact ⟨new' ++ new, (List.append_assoc new' new H).symm,
    fun e he => (List.mem_append.1 he).elim (hnew' e) (hnew e)⟩

/-- What is out was out before, with the room that it had. -/
lemma subset (h : Waned H H') : (ledger H').blocks ⊆ (ledger H).blocks ∧
    (ledger H').handles ⊆ (ledger H).handles ∧ (ledger H').room = (ledger H).room := by
  obtain ⟨new, rfl, hnew⟩ := h
  induction new with
  | nil => exact ⟨subset_rfl, subset_rfl, rfl⟩
  | cons e new ih =>
    obtain ⟨hblocks, hhandles, hroom⟩ := ih fun e' he' => hnew e' (List.mem_cons_of_mem e he')
    obtain ⟨hblocks', hhandles', hroom'⟩ :=
      (hnew e List.mem_cons_self).after (ledger (new ++ H))
    exact ⟨hblocks'.trans hblocks, hhandles'.trans hhandles, hroom'.trans hroom⟩

/-- What was given back is not out any more. -/
lemma not_mem_blocks {new : List Event} (hnew : ∀ e ∈ new, e.Wanes) {s : Source} {p : Addr}
    (hp : .takenBack s p ∈ new) : p ∉ (ledger (new ++ H)).blocks := by
  induction new with
  | nil => exact absurd hp List.not_mem_nil
  | cons e new ih =>
    rcases List.mem_cons.1 hp with rfl | hp
    · exact Finset.notMem_erase p _
    · have hrest := ih (fun e' he' => hnew e' (List.mem_cons_of_mem e he')) hp
      exact fun hin => hrest (((hnew e List.mem_cons_self).after _).1 hin)

end Waned

/-- Since `w`, nothing happened but that references were given up and handles ended. What is out
still has the bytes that it had, but for the counts of handles. -/
structure Undisturbed (w v : World History) : Prop where
  bindings : v.bindings = w.bindings
  shuttingDown : v.shuttingDown = w.shuttingDown
  waned : Waned w.host v.host
  kept : ∀ q ∈ (ledger v.host).blocks, ∀ i, q.toNat ≤ i →
    i < q.toNat + (ledger w.host).room q → (q ∈ (ledger w.host).handles → q.toNat + 8 ≤ i) →
    v.memory.byte i = w.memory.byte i

namespace Undisturbed

variable {E : Environment} {w v v' : World History} {b : Handle} {e : Event}

lemma refl : Undisturbed w w := ⟨rfl, rfl, .refl, fun _ _ _ _ _ _ => rfl⟩

lemma trans (h : Undisturbed w v) (h' : Undisturbed v v') : Undisturbed w v' := by
  refine ⟨h'.bindings.trans h.bindings, h'.shuttingDown.trans h.shuttingDown,
    h.waned.trans h'.waned, fun q hq i hlow hhigh hcount => ?_⟩
  obtain ⟨-, hhandles, hroom⟩ := h.waned.subset
  refine (h'.kept q hq i hlow (hroom ▸ hhigh) fun hin => hcount (hhandles hin)).trans ?_
  exact h.kept q (h'.waned.subset.1 hq) i hlow hhigh hcount

/-- One more line in the history. -/
lemma noted (he : e.Wanes) : Undisturbed w (w.noted e) :=
  ⟨rfl, rfl, .single he, fun _ _ _ _ _ _ => rfl⟩

lemma withBoxes (boxes : Boxes) : Undisturbed w { w with boxes := boxes } :=
  ⟨rfl, rfl, .refl, fun _ _ _ _ _ _ => rfl⟩

/-- Another count in a header. -/
lemma withCount (hw : E.Steady w) (hb : b ∈ (ledger w.host).handles) (k : Word) :
    Undisturbed w (w.withCount b k) := by
  refine ⟨rfl, rfl, .refl, fun q hq i hlow hhigh hcount => ?_⟩
  obtain ⟨hroom, hfit⟩ := hw.room_le hb
  have hfit' := hw.sound.laid.fits q hq
  have hbeside : i < b.toNat ∨ b.toNat + 8 ≤ i := by
    by_cases hqb : q = b
    · subst hqb
      exact .inr (hcount hb)
    · have hapart := hw.sound.laid.apart q hq b (hw.mem_blocks hb) hqb
      unfold Apart at hapart
      omega
  have hstart : (b + Field.refcount.offset).toNat = b.toNat := toNat_add_offset .refcount hfit
  have hi : (UInt64.ofNat i).toNat = i := UInt64.toNat_ofNat_of_lt' (by omega)
  exact Memory.agreeOn_setWord (p := UInt64.ofNat i) (n := 1) w.memory k (by omega) (by omega)
    (by unfold Apart; omega) i (by omega) (by omega)

/-- The storage of a handle goes, and the handle is counted as ended. -/
lemma destroyed {s : Source} (hb : (ledger w.host).Holds s b) :
    Undisturbed w (E.destroyed s b w) := by
  refine ⟨rfl, rfl, .single (e := .takenBack s b) trivial, fun q hq i hlow hhigh _ => ?_⟩
  obtain ⟨hne, hq⟩ := Finset.mem_erase.1 hq
  exact E.free_frame s b w hb q hq hne i hlow hhigh

/-- Headers stay as they are, but for the count. -/
lemma header (h : Undisturbed w v) (hv : E.Steady v) (hb : b ∈ (ledger v.host).handles) :
    v.memory.header b =
      { w.memory.header b with refcount := (v.memory.header b).refcount } := by
  obtain ⟨hroom, hfit⟩ := hv.room_le hb
  rw [h.waned.subset.2.2] at hroom
  have hstart : (b + Field.destructor.offset).toNat = b.toNat + 8 :=
    toNat_add_offset .destructor hfit
  have hagree : w.memory.AgreeOn v.memory (b + Field.destructor.offset) 48 := fun i hlow hhigh =>
    h.kept b (hv.mem_blocks hb) i (by omega) (by omega) fun _ => by omega
  exact Memory.header_recount hagree hfit

end Undisturbed

/-! ### Ends that give up references -/

/-- The program gives up the references in the list one after the other, by hand or as an owner, and
does nothing else. What it finds when it goes on may be anything that is undisturbed since `w`. -/
inductive GivesUp (w : World History) : List Handle → Program → Prop where
  | done : GivesUp w [] .done
  | release {c : Handle} {cs : List Handle} {next : Answer → World History → Program}
      (h : ∀ v, Undisturbed w v → GivesUp w cs (next (.ok 0) v)) :
      GivesUp w (c :: cs) (.step (.release c) next)
  | drop {c : Handle} {cs : List Handle} {next : Answer → World History → Program}
      (h : ∀ v, Undisturbed w v → GivesUp w cs (next (.ok 0) v)) :
      GivesUp w (c :: cs) (.step (.drop (.ofHandle c)) next)

lemma GivesUp.mono {w w' : World History} {cs : List Handle} {p : Program} (h : GivesUp w cs p)
    (hw : Undisturbed w w') : GivesUp w' cs p := by
  induction h with
  | done => exact .done
  | release _ ih => exact .release fun v hv => ih v (hw.trans hv)
  | drop _ ih => exact .drop fun v hv => ih v (hw.trans hv)

/-- The end of the handle `b` gives up the references in the list, and does nothing else. A closure
gives some of them up when it is called, and the others when it is dropped afterwards. -/
inductive Yields (E : Environment) (w : World History) (b : Handle) (cs : List Handle) : Prop where
  /-- There is no destructor, and nothing to give up. -/
  | bare (hd : (w.memory.header b).destructor = 0) (hcs : cs = [])
  | destructor (h0 : (w.memory.header b).destructor ≠ 0)
      (hd : IsForeign (w.memory.header b).destructor)
      (h : ∀ v, Undisturbed w v → GivesUp w cs (E.destructor (w.memory.header b).destructor
        (w.memory.header b).payload (w.memory.header b).size (w.memory.header b).info v))
  | closure (c : Nat) (called dropped : List Handle) (hcs : cs = called ++ dropped)
      (hd : (w.memory.header b).destructor = Adapter.boxed.addr)
      (hc : w.boxes.find? (w.memory.header b).info = some c)
      (h : ∀ v, Undisturbed w v → GivesUp w called
        (E.closure c (w.memory.header b).payload (w.memory.header b).size v))
      (h' : ∀ v, Undisturbed w v → GivesUp w dropped (E.dropClosure c v))

/-- The end of a handle does later what it does now, if its header and its closure are the same. -/
lemma Yields.mono {E : Environment} {w w' : World History} {b : Handle} {cs : List Handle}
    {k : Word} (h : Yields E w b cs) (hw : Undisturbed w w')
    (hheader : w'.memory.header b = { w.memory.header b with refcount := k })
    (hbox : (w.memory.header b).destructor = Adapter.boxed.addr →
      w'.boxes.find? (w.memory.header b).info = w.boxes.find? (w.memory.header b).info) :
    Yields E w' b cs := by
  cases h with
  | bare hd hcs => exact .bare (by rw [hheader]; exact hd) hcs
  | destructor h0 hd h =>
    refine .destructor (by rw [hheader]; exact h0) (by rw [hheader]; exact hd) fun v hv => ?_
    rw [hheader]
    exact (h v (hw.trans hv)).mono hw
  | closure c called dropped hcs hd hc h h' =>
    refine .closure c called dropped hcs (by rw [hheader]; exact hd) ?_ (fun v hv => ?_)
      fun v hv => (h' v (hw.trans hv)).mono hw
    · rw [hheader]
      exact (hbox hd).trans hc
    · rw [hheader]
      exact (h v (hw.trans hv)).mono hw

/-- A resizable handle does more at its end than to give up references. -/
lemma Yields.ne_resizable {E : Environment} {w : World History} {b : Handle} {cs : List Handle}
    (h : Yields E w b cs) :
    (w.memory.header b).destructor ≠ Adapter.resizable.addr := by
  cases h with
  | bare hd =>
    rw [hd]
    exact (Adapter.addr_ne_zero _).symm
  | destructor _ hd => exact Environment.IsForeign.ne_addr hd _
  | closure _ _ _ _ hd =>
    rw [hd]
    exact Adapter.addr_ne nofun

/-- The handles of `S` own references to each other, each handle `b` those in `owns b`, and give
them up when they end. All references to them are owned by one of them or are among the `ext b`
that are held from outside, and each closure waits in a box of its own. -/
structure Ownership (E : Environment) (w : World History) (S : Finset Handle)
    (owns : Handle → List Handle) (ext : Handle → Nat) : Prop where
  live : ∀ b ∈ S, (ledger w.host).Live b
  closed : ∀ a ∈ S, ∀ c ∈ owns a, c ∈ S
  small : ∀ b ∈ S, (ledger w.host).refs b < UInt64.size
  counted : ∀ b ∈ S, (w.memory.header b).refcount.toNat = ext b + ∑ a ∈ S, (owns a).count b
  yields : ∀ b ∈ S, Yields E w b (owns b)
  boxes : ∀ b ∈ S, ∀ c ∈ S, (w.memory.header b).destructor = Adapter.boxed.addr →
    (w.memory.header c).destructor = Adapter.boxed.addr →
    (w.memory.header b).info = (w.memory.header c).info → b = c

namespace Environment

variable {E : Environment} {w v : World History} {S : Finset Handle} {owns : Handle → List Handle}
  {ext ext' n : Handle → Nat} {b : Handle} {e : Event}

/-- The word in the header of a handle counts its references, if a word can hold them. -/
lemma Steady.refcount_toNat (hw : E.Steady w) (hb : (ledger w.host).Live b)
    (hsmall : (ledger w.host).refs b < UInt64.size) :
    (w.memory.header b).refcount.toNat = (ledger w.host).refs b := by
  rw [(hw.refcount hb).2, UInt64.toNat_ofNat_of_lt' hsmall]

/-- What is counted is balanced. -/
lemma balanced_of_ownership (hw : E.Steady w) (h : Ownership E w S owns ext) :
    Balanced S owns ext (ledger w.host).refs := by
  have hall : S.filter (fun c => (ledger w.host).refs c ≠ 0) = S :=
    Finset.filter_true_of_mem fun c hc => Nat.one_le_iff_ne_zero.1 (h.live c hc).2
  intro x hx
  rw [hall, ← h.counted x hx, hw.refcount_toNat (h.live x hx) (h.small x hx)]

/-! ### On the way -/

/-- A state on the way from `w`, where each handle `x` of `S` has `n x` references left. -/
structure During (E : Environment) (w : World History) (S : Finset Handle) (n : Handle → Nat)
    (v : World History) : Prop where
  steady : E.Steady v
  undisturbed : Undisturbed w v
  alive : ∀ x ∈ S, n x ≠ 0 → x ∈ (ledger v.host).handles ∧ (ledger v.host).refs x = n x
  small : ∀ x ∈ S, n x < UInt64.size
  boxes : ∀ x ∈ S, n x ≠ 0 → (w.memory.header x).destructor = Adapter.boxed.addr →
    v.boxes.find? (w.memory.header x).info = w.boxes.find? (w.memory.header x).info

namespace During

lemma live (h : During E w S n v) (hb : b ∈ S) (hn : n b ≠ 0) : (ledger v.host).Live b := by
  obtain ⟨hin, hrefs⟩ := h.alive b hb hn
  exact ⟨hin, by omega⟩

lemma header (h : During E w S n v) (hb : b ∈ S) (hn : n b ≠ 0) :
    v.memory.header b = { w.memory.header b with refcount := UInt64.ofNat (n b) } := by
  have hlive := h.live hb hn
  have hcount := (h.steady.refcount hlive).2
  rw [(h.alive b hb hn).2] at hcount
  rw [← hcount]
  exact h.undisturbed.header h.steady hlive.1

/-- A line in the history that means nothing to the ledger. -/
lemma noted (h : During E w S n v) (he : (ledger v.host).after e = ledger v.host) (hquiet : e.Quiet)
    (hwanes : e.Wanes) (hlaw : E.Lawful e v.host) : During E w S n (v.noted e) := by
  refine ⟨(h.steady.noted he hquiet hlaw).1, h.undisturbed.trans (.noted hwanes), ?_, h.small,
    h.boxes⟩
  rw [World.noted, ledger_cons, he]
  exact h.alive

/-- The state is written down between two steps. -/
lemma marked (h : During E w S n v) : During E w S n v.marked :=
  ⟨h.steady.marked.1, h.undisturbed.trans (.noted trivial), h.alive, h.small, h.boxes⟩

/-- A reference is given up. -/
lemma released (h : During E w S n v) (hb : b ∈ S) (hn : n b ≠ 0) :
    E.Reaches v ((v.withCount b (UInt64.ofNat (n b - 1))).noted (.released b)) ∧
      During E w S (lose n b)
        ((v.withCount b (UInt64.ofNat (n b - 1))).noted (.released b)) := by
  obtain ⟨hin, hrefs⟩ := h.alive b hb hn
  have hsmall := h.small b hb
  have hreach := h.steady.recount (k := n b - 1) (e := .released b) (h.live hb hn) (by omega)
    (congrArg (fun k => (ledger v.host).setRefs b (k - 1)) hrefs) (.inr rfl)
  refine ⟨hreach, hreach.1, ?_, fun x hx hnx => ?_, fun x hx => ?_, fun x hx hnx => ?_⟩
  · exact (h.undisturbed.trans (.withCount h.steady hin _)).trans (.noted trivial)
  · have hle : lose n b x ≤ n x := Cascade.lose_le
    obtain ⟨hinx, hrefsx⟩ := h.alive x hx (by omega)
    refine ⟨hinx, ?_⟩
    show Function.update (ledger v.host).refs b ((ledger v.host).refs b - 1) x = lose n b x
    rw [hrefs]
    by_cases hxb : x = b
    · rw [hxb, Function.update_self, Cascade.lose_self]
    · rw [Function.update_of_ne hxb, Cascade.lose_of_ne hxb, hrefsx]
  · exact (Cascade.lose_le).trans_lt (h.small x hx)
  · have hle : lose n b x ≤ n x := Cascade.lose_le
    exact h.boxes x hx (by omega)

/-- A closure is taken out of its box, and each of the others waits in one of its own. -/
lemma unboxed (h : During E w S n v)
    (hother : ∀ x ∈ S, n x ≠ 0 → (w.memory.header x).destructor = Adapter.boxed.addr →
      (w.memory.header x).info ≠ (w.memory.header b).info) :
    During E w S n { v with boxes := v.boxes.erase (w.memory.header b).info } :=
  ⟨(h.steady.withBoxes _).1, h.undisturbed.trans (.withBoxes _), h.alive, h.small,
    fun x hx hn hd => (v.boxes.find?_erase_of_ne (hother x hx hn hd)).trans (h.boxes x hx hn hd)⟩

/-- A handle that has no references left is gone. -/
lemma destroyed {s : Source} (h : During E w S n v) (hdying : (ledger v.host).Dying b)
    (hs : (ledger v.host).source b = s) (hn : n b = 0) : During E w S n (E.destroyed s b v) := by
  refine ⟨(h.steady.ended hdying hs).1,
    h.undisturbed.trans (.destroyed ⟨h.steady.mem_blocks hdying.1, hs⟩), fun x hx hnx => ?_,
    h.small, h.boxes⟩
  obtain ⟨hinx, hrefsx⟩ := h.alive x hx hnx
  exact ⟨Finset.mem_erase.2 ⟨fun hxb => hnx (hxb ▸ hn), hinx⟩, hrefsx⟩

end During

/-- Before anything happens, each handle has the references that it has. -/
lemma during_of_ownership (hw : E.Steady w) (h : Ownership E w S owns ext) :
    During E w S (ledger w.host).refs w :=
  ⟨hw, .refl, fun x hx _ => ⟨(h.live x hx).1, rfl⟩, h.small, fun _ _ _ _ => rfl⟩

/-- The handles that are left own what they owned, and all references to them are accounted for. -/
lemma ownership_of_during (h : Ownership E w S owns ext) (hv : During E w S n v)
    (hbal : Balanced S owns ext' n) :
    Ownership E v (S.filter fun x => n x ≠ 0) owns ext' := by
  have hboth : ∀ x ∈ S.filter fun x => n x ≠ 0, x ∈ S ∧ n x ≠ 0 := fun x hx =>
    Finset.mem_filter.1 hx
  have hheader : ∀ x ∈ S.filter fun x => n x ≠ 0, v.memory.header x =
      { w.memory.header x with refcount := UInt64.ofNat (n x) } := fun x hx =>
    hv.header (hboth x hx).1 (hboth x hx).2
  refine ⟨fun x hx => ?_, fun a ha c hc => ?_, fun x hx => ?_, fun x hx => ?_, fun x hx => ?_,
    fun x hx y hy => ?_⟩
  · exact hv.live (hboth x hx).1 (hboth x hx).2
  · obtain ⟨haS, hna⟩ := hboth a ha
    have hcS := h.closed a haS c hc
    exact Finset.mem_filter.2 ⟨hcS, hbal.alive_of_owns ⟨haS, hc⟩ hcS hna⟩
  · rw [(hv.alive x (hboth x hx).1 (hboth x hx).2).2]
    exact hv.small x (hboth x hx).1
  · rw [hheader x hx, UInt64.toNat_ofNat_of_lt' (hv.small x (hboth x hx).1)]
    exact hbal x (hboth x hx).1
  · exact (h.yields x (hboth x hx).1).mono hv.undisturbed (hheader x hx)
      (hv.boxes x (hboth x hx).1 (hboth x hx).2)
  · rw [hheader x hx, hheader y hy]
    exact h.boxes x (hboth x hx).1 y (hboth y hy).1

end Environment

end CountedHeap
