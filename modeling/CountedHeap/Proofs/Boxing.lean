/-
Closures in their boxes

A closure is handed over once. From then on it lies in a box; the box is in the info word of one
handle; and when the end of this handle calls it, it is taken out of the box, and is dropped after
the call. If there is no handle to be had for it, it is dropped at once. If its handle ends without
a call, nobody knows of the box any more, and the closure stays there for good.

So it is at every stage of a course whose callers hand over only closures that nobody has heard of,
one stride at a time.

* `Boxes.find?_next`: a new box lies where there is none;
* `Unheard`: a closure that may be handed over;
* `Consigned`: where the closures are, and what was told of them;
* `Stride.consigned`, `Course.consigned`: so it stays;
* `Forgotten`: a closure in a box of which no handle knows, and `Course.forgotten`;
* `Course.find?`: as long as a handle is there, its closure stays in its box.
-/
import CountedHeap.Proofs.Passage

namespace CountedHeap

/-! ### Boxes -/

namespace Boxes

variable {b : Boxes} {a : Addr} {c : Nat}

/-- Places that are not too many apart are different. -/
lemma place_injective {m i j : Nat} (hi : i < 2 ^ 60) (hj : j < 2 ^ 60)
    (h : base + 16 * UInt64.ofNat (m + i) = base + 16 * UInt64.ofNat (m + j)) : i = j := by
  have hsame := congrArg UInt64.toNat h
  simp only [UInt64.toNat_add, UInt64.toNat_mul, UInt64.toNat_ofNat', UInt64.toNat_ofNat] at hsame
  omega

/-- A new box lies where there is none, as long as there is room for it: of the places that are
looked at, one more than there are boxes, not all can be taken. -/
theorem find?_next (hroom : b.live.length < 2 ^ 60) : b.find? b.next = none := by
  set places := (List.range (b.live.length + 1)).map fun i =>
    base + 16 * UInt64.ofNat (b.made + i) with hplaces
  have hnext : b.next = (places.find? fun a => (b.find? a).isNone).getD base := rfl
  cases hfind : places.find? fun a => (b.find? a).isNone with
  | some a =>
    have hnone : (b.find? a).isNone = true := by simpa using List.find?_some hfind
    rw [hnext, hfind, Option.getD_some]
    exact Option.isNone_iff_eq_none.1 hnone
  | none =>
    exfalso
    have htaken : places ⊆ b.live.map Prod.fst := by
      intro a ha
      have hsome := List.find?_eq_none.1 hfind a ha
      by_contra hnot
      refine hsome (Option.isNone_iff_eq_none.2 (List.lookup_eq_none_iff.2 fun e he => ?_))
      have hne : a ≠ e.1 := by
        rintro rfl
        exact hnot (List.mem_map_of_mem he)
      simpa using hne
    have hnodup : places.Nodup := by
      refine List.Nodup.map_on (fun i hi j hj h => ?_) List.nodup_range
      have hi' := List.mem_range.1 hi
      have hj' := List.mem_range.1 hj
      exact place_injective (by omega) (by omega) h
    have hlength := (List.subperm_of_subset hnodup htaken).length_le
    simp only [hplaces, List.length_map, List.length_range] at hlength
    omega

lemma find?_make_of_ne (h : a ≠ b.next) : (b.make c).2.find? a = b.find? a := by
  have hne : (a == b.next) = false := beq_false_of_ne h
  simp [find?, make, List.lookup_cons, hne]

/-- A box that is made and taken away again leaves nothing behind. -/
lemma find?_make_erase (hroom : b.live.length < 2 ^ 60) (a : Addr) (c : Nat) :
    ((b.make c).2.erase (b.make c).1).find? a = b.find? a := by
  by_cases h : a = b.next
  · rw [h, find?_next hroom]
    exact find?_erase _ _
  · have hne : a ≠ (b.make c).1 := h
    rw [find?_erase_of_ne _ hne, find?_make_of_ne h]

end Boxes

/-! ### What is told of a closure -/

/-- An event that tells of the closure `c`: it was called, or dropped. -/
def Event.Tells (c : Nat) : Event → Prop
  | .closure k .. | .closureDropped k => k = c
  | _ => False

/-- Nothing was told of the closure `c`. -/
def Untold (c : Nat) (H : History) : Prop := ∀ e ∈ H, ¬ e.Tells c

/-- A closure is called before anything else is told of it, and is dropped once. -/
def Event.OnlyOnce : Event → History → Prop
  | .closure c .., past => Untold c past
  | .closureDropped c, past => .closureDropped c ∉ past
  | _, _ => True

/-- A closure that nobody has heard of, and that may be handed over: it is in no box, nothing was
told of it, and there is room for its box. -/
structure Unheard (w : World History) (c : Nat) : Prop where
  unboxed : ∀ a, w.boxes.find? a ≠ some c
  untold : Untold c w.host
  room : w.boxes.live.length < 2 ^ 60

section Telling

variable {c : Nat} {e : Event} {new : List Event} {H : History}

lemma Untold.append (hnew : Untold c new) (hH : Untold c H) : Untold c (new ++ H) :=
  List.forall_mem_append.2 ⟨hnew, hH⟩

lemma Untold.of_append (h : Untold c (new ++ H)) : Untold c new ∧ Untold c H :=
  List.forall_mem_append.1 h

lemma Event.Plain.not_tells (h : e.Plain) (c : Nat) : ¬ e.Tells c := by
  cases e <;> first | exact not_false | exact h.elim

/-- These events tell of no closure. -/
def Silent (new : List Event) : Prop := ∀ e ∈ new, ∀ c, ¬ e.Tells c

namespace Silent

lemma of_plain (h : ∀ e ∈ new, e.Plain) : Silent new := fun e he => (h e he).not_tells

/-- What tells of no closure happens as often as it likes. -/
lemma onlyOnce (hnew : Silent new) (hH : Throughout Event.OnlyOnce H) :
    Throughout Event.OnlyOnce (new ++ H) := by
  induction new with
  | nil => exact hH
  | cons e new ih =>
    refine Throughout.cons_iff.2 ⟨?_, ih fun e' he' => hnew e' (List.mem_cons_of_mem _ he')⟩
    cases e with
    | closure c data size => exact absurd rfl (hnew _ List.mem_cons_self c)
    | closureDropped c => exact absurd rfl (hnew _ List.mem_cons_self c)
    | _ => trivial

lemma untold_iff (hnew : Silent new) : Untold c (new ++ H) ↔ Untold c H :=
  ⟨fun h => h.of_append.2, Untold.append fun e he => hnew e he c⟩

lemma dropped_iff (hnew : Silent new) :
    Event.closureDropped c ∈ new ++ H ↔ Event.closureDropped c ∈ H := by
  refine List.mem_append.trans ⟨fun h => h.resolve_left fun h => hnew _ h c rfl, .inr⟩

end Silent

/-- Only a destructor that is a closure's calls one. -/
lemma Header.CallsFor.of_not_boxed {d : Header} {boxes : Boxes} (h : d.CallsFor boxes e)
    (hnone : e.closure? = none) : d.destructor ≠ Adapter.boxed.addr ∧ ∀ c, ¬ e.Tells c := by
  cases e with
  | destructor fn data size info =>
    refine ⟨?_, fun _ => not_false⟩
    obtain ⟨-, -, ⟨hforeign, -⟩ | ⟨hd | hd, -⟩⟩ := h
    · exact Environment.IsForeign.ne_addr hforeign .boxed
    · exact hd ▸ Adapter.addr_ne (by decide)
    · exact hd ▸ Adapter.addr_ne (by decide)
  | finalizer fn data =>
    refine ⟨?_, fun _ => not_false⟩
    obtain ⟨hd | hd, -⟩ := h
    · exact hd ▸ Adapter.addr_ne (by decide)
    · exact hd ▸ Adapter.addr_ne (by decide)
  | closure c data size => cases hnone
  | _ => exact h.elim

end Telling

/-! ### Where closures are -/

/-- The closures that were called and not dropped yet. -/
def Stage.inHand (S : Stage) : List Nat := S.unfinished.filterMap Unfinished.closure?

/-- Closures are where they should be. No two boxes hold the same one, nothing was told of one that
is in a box, and one that was called and not dropped is in nobody else's hand. Every handle that is
to call a closure has it in its box, and no other handle has the same box. -/
structure Consigned (S : Stage) : Prop where
  once : Throughout Event.OnlyOnce S.world.host
  uniq : ∀ a a' c, S.world.boxes.find? a = some c → S.world.boxes.find? a' = some c → a = a'
  untold : ∀ a c, S.world.boxes.find? a = some c → Untold c S.world.host
  called : ∀ c ∈ S.inHand, ¬ Untold c S.world.host ∧ .closureDropped c ∉ S.world.host
  apart : S.inHand.Nodup
  borne : ∀ b a, Bears S.world b a → ∃ c, S.world.boxes.find? a = some c
  single : ∀ b b' a, Bears S.world b a → Bears S.world b' a → b = b'

/-- From one state to another no closure comes and goes, nothing is told of any, and handles are
told of none. -/
structure Leaves (w v : World History) : Prop where
  boxes : ∀ a, v.boxes.find? a = w.boxes.find? a
  host : ∃ new, v.host = new ++ w.host ∧ Silent new
  bears : ∀ b a, Bears v b a → Bears w b a

namespace Consigned

variable {w v : World History} {st st' : List Unfinished} {b : Handle} {c : Nat}

lemma of_leaves (h : Consigned ⟨w, st⟩) (hv : Leaves w v)
    (hst : Stage.inHand ⟨v, st'⟩ = Stage.inHand ⟨w, st⟩) : Consigned ⟨v, st'⟩ := by
  obtain ⟨hboxes, ⟨new, hhost, hnew⟩, hbears⟩ := hv
  refine ⟨?_, fun a a' c ha ha' => ?_, fun a c ha => ?_, fun c hc => ?_, ?_, fun b a hb => ?_,
    fun b b' a hb hb' => h.single b b' a (hbears b a hb) (hbears b' a hb')⟩
  · show Throughout _ v.host
    rw [hhost]
    exact hnew.onlyOnce h.once
  · exact h.uniq a a' c ((hboxes a).symm.trans ha) ((hboxes a').symm.trans ha')
  · show Untold c v.host
    rw [hhost, hnew.untold_iff]
    exact h.untold a c ((hboxes a).symm.trans ha)
  · show ¬ Untold c v.host ∧ _ ∉ v.host
    rw [hhost, hnew.untold_iff, hnew.dropped_iff]
    exact h.called c (hst ▸ hc)
  · rw [hst]
    exact h.apart
  · obtain ⟨c, hc⟩ := h.borne b a (hbears b a hb)
    exact ⟨c, (hboxes a).trans hc⟩

/-- A closure that lies in no box is dropped. -/
lemma of_dropped (h : Consigned ⟨w, st⟩) (hunboxed : ∀ a, w.boxes.find? a ≠ some c)
    (hundropped : .closureDropped c ∉ w.host) (hhand : c ∉ Stage.inHand ⟨w, st⟩) :
    Consigned ⟨w.noted (.closureDropped c), st⟩ := by
  have hother : ∀ c', Untold c' w.host → c' ≠ c → Untold c' (w.noted (.closureDropped c)).host :=
    fun c' hc' hne => List.forall_mem_cons.2 ⟨fun h => hne (Eq.symm h), hc'⟩
  have hbears : ∀ b a, Bears (w.noted (.closureDropped c)) b a → Bears w b a :=
    fun b a hb => ⟨hb.live, hb.boxed, hb.info⟩
  refine ⟨Throughout.cons_iff.2 ⟨hundropped, h.once⟩, h.uniq, fun a c' ha => ?_,
    fun c' hc' => ⟨fun hv => ?_, fun hv => ?_⟩, h.apart, fun b a hb => h.borne b a (hbears b a hb),
    fun b b' a hb hb' => h.single b b' a (hbears b a hb) (hbears b' a hb')⟩
  · refine hother c' (h.untold a c' ha) ?_
    rintro rfl
    exact hunboxed a ha
  · exact (h.called c' hc').1 (List.forall_mem_cons.1 hv).2
  · rcases List.mem_cons.1 hv with hv | hv
    · obtain rfl := Event.closureDropped.inj hv
      exact hhand hc'
    · exact (h.called c' hc').2 hv

end Consigned

/-! ### Handles that end -/

section Ends

variable {E : Environment} {w w' : World History} {b c : Handle} {a : Addr}

/-- Of the handles that somebody has a reference to, the others stay. -/
lemma Begins.bears (h : Begins w b w') (hw : E.Steady w) (hb : (ledger w.host).Sole b)
    (hbears : Bears w' c a) : c ≠ b ∧ Bears w c a := by
  obtain ⟨-, hdying, hledger⟩ := h.steady hw hb
  obtain ⟨⟨hmem, hpos⟩, hboxed, hinfo⟩ := hbears
  have hne : c ≠ b := by
    rintro rfl
    rw [hdying.2] at hpos
    omega
  rw [hledger] at hmem hpos
  have hrefs : ((ledger w.host).setRefs b 0).refs c = (ledger w.host).refs c :=
    Function.update_of_ne hne _ _
  have hheader : w'.memory.header c = w.memory.header c := by
    cases h with
    | released => exact hw.header_setField_of_ne w.memory hb.1 (.inl hmem) hne .refcount 0
    | ending => rfl
  rw [hheader] at hboxed hinfo
  exact ⟨hne, ⟨hmem, hrefs ▸ hpos⟩, hboxed, hinfo⟩

/-- A call by itself changes nothing about them. -/
lemma Header.CallsFor.bears {d : Header} {boxes boxes' : Boxes} {e : Event}
    (h : d.CallsFor boxes e) (hbears : Bears (World.noted { w with boxes := boxes' } e) c a) :
    Bears w c a := by
  obtain ⟨hlive, hboxed, hinfo⟩ := hbears
  have hledger : ledger (World.noted { w with boxes := boxes' } e).host = ledger w.host :=
    h.quiet.2 (ledger w.host)
  rw [hledger] at hlive
  exact ⟨hlive, hboxed, hinfo⟩

namespace Environment

/-- When the rest of a destructor is done and the storage goes, the other handles stay. -/
lemma Steady.over_bears (hw : E.Steady w) (hb : b ∈ (ledger w.host).handles)
    (hbears : Bears (E.destroyed ((ledger w.host).source b) b
      (E.completed (w.memory.header b) w)) c a) : c ≠ b ∧ Bears w c a := by
  have hcleared := hw.completed_cleared hb
  generalize E.completed (w.memory.header b) w = v at hcleared hbears
  obtain ⟨⟨hmem, hpos⟩, hboxed, hinfo⟩ := hbears
  obtain ⟨hne, hmem⟩ : c ≠ b ∧ c ∈ (ledger v.host).handles := Finset.mem_erase.1 hmem
  have hrefs : (ledger w.host).refs c = (ledger v.host).refs c := by rw [hcleared.refs]
  rw [hcleared.handles] at hmem
  have hholds : (ledger v.host).Holds ((ledger w.host).source b) b :=
    ⟨(hcleared.blocks b).2 ⟨hw.mem_blocks hb, fun _ => rfl⟩, by rw [hcleared.source]⟩
  have hout : c ∈ (ledger v.host).blocks := by
    refine (hcleared.blocks c).2 ⟨hw.mem_blocks hmem, fun hin => ?_⟩
    have hapart : c ≠ c := Contained.ne_of_mem_blocks hw.sound.headed hmem hb hne
      (Header.self_mem_blocks _ c) hin
    exact absurd rfl hapart
  have hheader : (E.destroyed ((ledger w.host).source b) b v).memory.header c =
      w.memory.header c := by
    have hfit := hw.room_le hmem
    have hframe := E.free_frame _ _ _ hholds c hout hne
    rw [hcleared.room] at hframe
    exact (Memory.header_congr (hframe.mono hfit.1) hfit.2).trans (hcleared.headers c hmem)
  rw [hheader] at hboxed hinfo
  exact ⟨hne, ⟨hmem, hrefs ▸ hpos⟩, hboxed, hinfo⟩

end Environment

end Ends

/-! ### One stride -/

namespace Environment

variable {E : Environment} {S S' : Stage} {w w' v : World History} {st : List Unfinished}
  {b : Handle} {c : Nat} {a : Addr}

lemma leaves_marked (w : World History) : Leaves w w.marked :=
  ⟨fun _ => rfl, ⟨[.boundary w.snapshot], rfl, by simp [Silent, Event.Tells]⟩,
    fun _ _ hb => ⟨hb.live, hb.boxed, hb.info⟩⟩

/-- A box that is made and taken away again leaves nothing behind. -/
lemma leaves_refused (hc : Unheard w c)
    (h : Plainly { w with boxes := (w.boxes.make c).2.erase (w.boxes.make c).1 } v) :
    Leaves w v := by
  obtain ⟨new, hrecords⟩ := h.events
  refine ⟨fun a => ?_, ⟨new, hrecords.host, .of_plain hrecords.plain⟩, fun b a hb => ?_⟩
  · rw [h.boxes]
    exact Boxes.find?_make_erase hc.room a c
  · obtain ⟨hlive, hboxed, hinfo⟩ := h.bears b a hb
    exact ⟨hlive, hboxed, hinfo⟩

/-- The end of a handle begins that calls no closure. -/
lemma leaves_called (hw : E.Steady w) (hb : (ledger w.host).Sole b) (hbegins : Begins w b w')
    {d : Header} {e : Event} (hcalls : d.CallsFor w'.boxes e) (hnone : e.closure? = none) :
    Leaves w (World.noted { w' with boxes := d.emptied w'.boxes } e) := by
  obtain ⟨e', he', hhost⟩ := hbegins.host
  obtain ⟨hd, hnot⟩ := hcalls.of_not_boxed hnone
  rw [Header.emptied_of_ne hd]
  refine ⟨fun a => ?_, ⟨[e, e'], congrArg (e :: ·) hhost, ?_⟩, fun b' a hb' => ?_⟩
  · exact congrArg (Boxes.find? · a) hbegins.kept.1
  · refine List.forall_mem_cons.2 ⟨hnot, List.forall_mem_singleton.2 ?_⟩
    rcases he' with rfl | rfl <;> exact fun _ => not_false
  · exact (hbegins.bears hw hb (hcalls.bears hb')).2

/-- The end of a handle is over. -/
lemma Steady.leaves_over (hw : E.Steady w) (hb : b ∈ (ledger w.host).handles) :
    Leaves w (E.destroyed ((ledger w.host).source b) b (E.completed (w.memory.header b) w)) := by
  obtain ⟨hboxes, gone, hgone, hall⟩ := completed_host (E := E) (w.memory.header b) w
  refine ⟨fun a => ?_, ⟨.takenBack ((ledger w.host).source b) b :: gone,
    congrArg (_ :: ·) hgone, List.forall_mem_cons.2 ⟨fun _ => not_false, fun e he => ?_⟩⟩,
    fun c a hc => (hw.over_bears hb hc).2⟩
  · have hkept : ∀ v : World History, v.boxes = w.boxes →
        (E.destroyed ((ledger w.host).source b) b v).boxes.find? a = w.boxes.find? a :=
      fun _ h => congrArg (Boxes.find? · a) h
    exact hkept _ hboxes
  · obtain ⟨-, -, s, rfl⟩ := hall e he
    exact fun _ => not_false

end Environment

/-- What happens without a call leaves all closures where they are. -/
lemma Plainly.leaves {w v : World History} (h : Plainly w v) : Leaves w v := by
  obtain ⟨new, hrecords⟩ := h.events
  exact ⟨fun _ => by rw [h.boxes], ⟨new, hrecords.host, .of_plain hrecords.plain⟩, h.bears⟩

namespace Environment

variable {E : Environment} {S S' : Stage} {w w' v : World History} {st : List Unfinished}
  {b : Handle} {c : Nat} {a : Addr}

/-- A closure is put into a box, and a handle is told of it. -/
lemma consigned_boxed (h : Consigned ⟨w, st⟩) (hc : Unheard w c) (hv : Boxed w v c b) :
    Consigned ⟨v, st⟩ := by
  obtain ⟨new, hrecords⟩ := hv.events
  have hnew : Silent new := .of_plain hrecords.plain
  have hnone : w.boxes.find? w.boxes.next = none := Boxes.find?_next hc.room
  have hfresh : v.boxes.find? w.boxes.next = some c := by
    rw [hv.boxes]
    exact Boxes.find?_make _ c
  have hold : ∀ a, a ≠ w.boxes.next → v.boxes.find? a = w.boxes.find? a := fun a ha => by
    rw [hv.boxes]
    exact Boxes.find?_make_of_ne ha
  -- What is in a box was in it before, or is the new closure.
  have hcases : ∀ a c', v.boxes.find? a = some c' →
      a = w.boxes.next ∧ c' = c ∨ w.boxes.find? a = some c' := by
    intro a c' ha
    by_cases hne : a = w.boxes.next
    · rw [hne, hfresh] at ha
      exact .inl ⟨hne, (Option.some.inj ha).symm⟩
    · exact .inr ((hold a hne).symm.trans ha)
  have hplace : ∀ a, Bears v b a → a = w.boxes.next := fun a hb =>
    hb.info.symm.trans hv.bears.info
  have hother : ∀ b' a, b' ≠ b → Bears v b' a → a ≠ w.boxes.next := by
    rintro b' _ hne hb' rfl
    obtain ⟨c', hc'⟩ := h.borne b' _ (hv.others b' _ hne hb')
    exact absurd (hnone.symm.trans hc') nofun
  refine ⟨?_, fun a a' c' ha ha' => ?_, fun a c' ha => ?_, fun c' hc' => ?_, h.apart,
    fun b' a hb' => ?_, fun b' b'' a hb' hb'' => ?_⟩
  · show Throughout _ v.host
    rw [hrecords.host]
    exact hnew.onlyOnce h.once
  · obtain ⟨rfl, rfl⟩ | ha := hcases a c' ha
    · obtain ⟨rfl, -⟩ | ha' := hcases a' c' ha'
      · rfl
      · exact absurd ha' (hc.unboxed a')
    · obtain ⟨rfl, rfl⟩ | ha' := hcases a' c' ha'
      · exact absurd ha (hc.unboxed a)
      · exact h.uniq a a' c' ha ha'
  · show Untold c' v.host
    rw [hrecords.host, hnew.untold_iff]
    obtain ⟨-, rfl⟩ | ha := hcases a c' ha
    · exact hc.untold
    · exact h.untold a c' ha
  · show ¬ Untold c' v.host ∧ _ ∉ v.host
    rw [hrecords.host, hnew.untold_iff, hnew.dropped_iff]
    exact h.called c' hc'
  · by_cases hne : b' = b
    · subst hne
      rw [hplace a hb']
      exact ⟨c, hfresh⟩
    · obtain ⟨c', hc'⟩ := h.borne b' a (hv.others b' a hne hb')
      exact ⟨c', (hold a (hother b' a hne hb')).trans hc'⟩
  · by_cases hne : b' = b
    · subst hne
      by_contra hne'
      exact hother b'' a (Ne.symm hne') hb'' (hplace a hb')
    · have hne' : b'' ≠ b := by
        rintro rfl
        exact hother b' a hne hb' (hplace a hb'')
      exact h.single b' b'' a (hv.others b' a hne hb') (hv.others b'' a hne' hb'')

/-- A closure is taken out of its box and called. -/
lemma consigned_called (h : Consigned ⟨w, st⟩) (hw : E.Steady w)
    (hb : (ledger w.host).Sole b) (hbegins : Begins w b w')
    (hboxed : (w.memory.header b).destructor = Adapter.boxed.addr)
    (hfind : w.boxes.find? (w.memory.header b).info = some c) {data : Addr} {size : Word} :
    Consigned ⟨World.noted { w' with boxes := w.boxes.erase (w.memory.header b).info }
      (.closure c data size), ⟨b, some c⟩ :: st⟩ := by
  obtain ⟨e, he, hhost⟩ := hbegins.host
  have hsilent : Silent [e] := by
    rcases he with rfl | rfl <;> simp [Silent, Event.Tells]
  have huntold : Untold c w.host := h.untold _ c hfind
  have hhost' : w'.host = [e] ++ w.host := hhost
  -- What is left in the boxes lies in others, and is something else.
  have hleft : ∀ a c', (w.boxes.erase (w.memory.header b).info).find? a = some c' →
      w.boxes.find? a = some c' ∧ c' ≠ c := by
    intro a c' ha
    by_cases hne : a = (w.memory.header b).info
    · rw [hne, Boxes.find?_erase] at ha
      cases ha
    · rw [Boxes.find?_erase_of_ne _ hne] at ha
      refine ⟨ha, ?_⟩
      rintro rfl
      exact hne (h.uniq a _ _ ha hfind)
  have hbears : ∀ b' a, Bears (World.noted
      { w' with boxes := w.boxes.erase (w.memory.header b).info } (.closure c data size)) b' a →
      b' ≠ b ∧ Bears w b' a := fun b' a hb' =>
    hbegins.bears hw hb ⟨hb'.live, hb'.boxed, hb'.info⟩
  have hself : Bears w b (w.memory.header b).info := ⟨hb.live, hboxed, rfl⟩
  refine ⟨Throughout.cons_iff.2 ⟨?_, ?_⟩, fun a a' c' ha ha' => ?_, fun a c' ha => ?_,
    fun c' hc' => ?_, List.nodup_cons.2 ⟨fun hin => (h.called c hin).1 huntold, h.apart⟩,
    fun b' a hb' => ?_, fun b' b'' a hb' hb'' => ?_⟩
  · show Untold c w'.host
    rw [hhost', hsilent.untold_iff]
    exact huntold
  · show Throughout _ w'.host
    rw [hhost']
    exact hsilent.onlyOnce h.once
  · exact h.uniq a a' c' (hleft a c' ha).1 (hleft a' c' ha').1
  · obtain ⟨ha, hne⟩ := hleft a c' ha
    refine List.forall_mem_cons.2 ⟨fun h => hne (Eq.symm h), ?_⟩
    rw [hhost']
    exact hsilent.untold_iff.2 (h.untold a c' ha)
  · rcases List.mem_cons.1 hc' with rfl | hc'
    · refine ⟨fun hall => hall _ List.mem_cons_self rfl, fun hin => ?_⟩
      have hin' : Event.closureDropped c' ∈ w'.host := (List.mem_cons.1 hin).resolve_left nofun
      rw [hhost', hsilent.dropped_iff] at hin'
      exact huntold _ hin' rfl
    · obtain ⟨htold, hundropped⟩ := h.called c' hc'
      refine ⟨fun hall => htold ?_, fun hin => hundropped ?_⟩
      · have hall' : Untold c' w'.host := (List.forall_mem_cons.1 hall).2
        rwa [hhost', hsilent.untold_iff] at hall'
      · have hin' : Event.closureDropped c' ∈ w'.host := (List.mem_cons.1 hin).resolve_left nofun
        rwa [hhost', hsilent.dropped_iff] at hin'
  · obtain ⟨hne, hb'⟩ := hbears b' a hb'
    obtain ⟨c', hc'⟩ := h.borne b' a hb'
    refine ⟨c', (Boxes.find?_erase_of_ne _ fun ha => hne ?_).trans hc'⟩
    exact h.single b' b a hb' (ha ▸ hself)
  · exact h.single b' b'' a (hbears b' a hb').2 (hbears b'' a hb'').2

/-- **Closures stay where they should be**, whatever stride is taken. -/
theorem Stride.consigned (h : E.Stride Unheard S S') (hS : Consigned S) : Consigned S' := by
  cases h with
  | @marked w => exact hS.of_leaves (leaves_marked w) rfl
  | plain hw h => exact hS.of_leaves h.leaves rfl
  | boxed hw hc h => exact consigned_boxed hS hc h
  | @refused w v st c hw hc h =>
    have hleaves := leaves_refused hc h
    have hkept : Consigned ⟨v, st⟩ := hS.of_leaves hleaves rfl
    have huntold : Untold c v.host := by
      obtain ⟨new, hhost, hsilent⟩ := hleaves.host
      rw [hhost]
      exact hsilent.untold_iff.2 hc.untold
    refine hkept.of_dropped (fun a => ?_) (fun hv => huntold _ hv rfl) fun hin => ?_
    · rw [hleaves.boxes]
      exact hc.unboxed a
    · exact (hkept.called c hin).1 huntold
  | @called w w' st b e hw hm hb hup hbegins hcalls =>
    obtain ⟨n, hheader⟩ := hbegins.header hw hb.1
    cases hclosure : e.closure? with
    | none => exact hS.of_leaves (leaves_called hw hb hbegins hcalls hclosure) rfl
    | some c =>
      obtain ⟨hboxed, hfind, rfl⟩ := hcalls.boxed hclosure
      rw [Header.emptied, if_pos hboxed, hbegins.kept.1, hheader]
      rw [hheader] at hboxed hfind
      rw [hbegins.kept.1] at hfind
      exact consigned_called hS hw hb hbegins hboxed hfind
  | @dropped w st b c hw =>
    have hin : c ∈ Stage.inHand ⟨w, ⟨b, some c⟩ :: st⟩ := List.mem_cons_self
    obtain ⟨htold, hundropped⟩ := hS.called c hin
    obtain ⟨hnot, hapart⟩ := List.nodup_cons.1 hS.apart
    have hnext : Consigned ⟨w, ⟨b, none⟩ :: st⟩ :=
      ⟨hS.once, hS.uniq, hS.untold, fun c' hc' => hS.called c' (List.mem_cons_of_mem _ hc'), hapart,
        hS.borne, hS.single⟩
    exact hnext.of_dropped (fun a ha => htold (hS.untold a c ha)) hundropped hnot
  | ended hw hb => exact hS.of_leaves (hw.leaves_over hb.1) rfl

/-- So they do by a whole course. -/
theorem Course.consigned (h : E.Course Unheard S S') (hS : Consigned S) : Consigned S' := by
  induction h with
  | refl => exact hS
  | tail _ hstride ih => exact hstride.consigned ih

end Environment

/-! ### Boxes of which no handle knows -/

/-- The closure `c` is in the box at `a`, of which no handle knows that somebody has a reference
to. -/
structure Forgotten (w : World History) (a : Addr) (c : Nat) : Prop where
  boxed : w.boxes.find? a = some c
  unborne : ∀ b, ¬ Bears w b a

lemma Forgotten.of_leaves {w v : World History} {a : Addr} {c : Nat} (h : Forgotten w a c)
    (hv : Leaves w v) : Forgotten v a c :=
  ⟨(hv.boxes a).trans h.boxed, fun b hb => h.unborne b (hv.bears b a hb)⟩

namespace Environment

variable {E : Environment} {S S' : Stage} {a : Addr} {c : Nat}

/-- A closure that is forgotten is forgotten for good. -/
lemma Stride.forgotten (h : E.Stride Unheard S S') (hf : Forgotten S.world a c) :
    Forgotten S'.world a c := by
  cases h with
  | @marked w => exact hf.of_leaves (leaves_marked w)
  | plain hw h => exact hf.of_leaves h.leaves
  | @boxed w v st c' b hw hc h =>
    have hne : a ≠ w.boxes.next := by
      rintro rfl
      exact absurd ((Boxes.find?_next hc.room).symm.trans hf.boxed) nofun
    have hfind : v.boxes.find? a = w.boxes.find? a := by
      rw [h.boxes]
      exact Boxes.find?_make_of_ne hne
    refine ⟨hfind.trans hf.boxed, fun b' hb' => hf.unborne b' (h.others b' a ?_ hb')⟩
    rintro rfl
    exact hne (hb'.info.symm.trans h.bears.info)
  | @refused w v st c' hw hc h =>
    have hv : Forgotten v a c := hf.of_leaves (leaves_refused hc h)
    exact ⟨hv.boxed, fun b hb => hv.unborne b ⟨hb.live, hb.boxed, hb.info⟩⟩
  | @called w w' st b e hw hm hb hup hbegins hcalls =>
    obtain ⟨n, hheader⟩ := hbegins.header hw hb.1
    have hfind : (World.noted { w' with
        boxes := (w'.memory.header b).emptied w'.boxes } e).boxes.find? a = w.boxes.find? a := by
      rw [World.noted, hbegins.kept.1, hheader, Header.emptied]
      split
      · next hboxed =>
        refine Boxes.find?_erase_of_ne _ ?_
        rintro rfl
        exact hf.unborne b ⟨hb.live, hboxed, rfl⟩
      · rfl
    exact ⟨hfind.trans hf.boxed,
      fun b' hb' => hf.unborne b' (hbegins.bears hw hb (hcalls.bears hb')).2⟩
  | dropped => exact ⟨hf.boxed, fun b hb => hf.unborne b ⟨hb.live, hb.boxed, hb.info⟩⟩
  | ended hw hb => exact hf.of_leaves (hw.leaves_over hb.1)

/-- Nothing is ever told of it. -/
theorem Course.forgotten (h : E.Course Unheard S S') (hS : Consigned S)
    (hf : Forgotten S.world a c) : Untold c S'.world.host := by
  have hkept : Forgotten S'.world a c := by
    induction h with
    | refl => exact hf
    | tail _ hstride ih => exact hstride.forgotten ih
  exact (h.consigned hS).untold a c hkept.boxed

end Environment

/-! ### Boxes of handles that stay -/

namespace Environment

variable {E : Environment} {S S' : Stage} {b : Handle} {a : Addr}

/-- A handle that has a box has had it all the time since it was made. -/
lemma Stride.bears (h : E.Stride Unheard S S') (hb : Bears S'.world b a)
    (hno : ∀ new, S'.world.host = new ++ S.world.host → ∀ e ∈ new, ¬ e.Makes b) :
    Bears S.world b a := by
  cases h with
  | @marked w => exact (leaves_marked w).bears b a hb
  | plain hw h => exact h.bears b a hb
  | @boxed w v st c b' hw hc h =>
    refine h.others b a ?_ hb
    rintro rfl
    obtain ⟨new, hrecords⟩ := h.events
    have hmem : b ∈ (ledger v.host).handles := hb.live.1
    rw [hrecords.host] at hmem
    exact h.made (mem_handles_of_append (hno new hrecords.host) hmem).1
  | refused hw hc h => exact (leaves_refused hc h).bears b a ⟨hb.live, hb.boxed, hb.info⟩
  | called hw hm hb' hup hbegins hcalls => exact (hbegins.bears hw hb' (hcalls.bears hb)).2
  | dropped => exact ⟨hb.live, hb.boxed, hb.info⟩
  | ended hw hb' => exact (hw.over_bears hb'.1 hb).2

/-- And what is in it has been in it. -/
lemma Stride.find? (h : E.Stride Unheard S S') (hS : Consigned S) (hb : Bears S.world b a)
    (hb' : Bears S'.world b a) : S'.world.boxes.find? a = S.world.boxes.find? a := by
  obtain ⟨c, hfind⟩ := hS.borne b a hb
  cases h with
  | @marked w => rfl
  | plain hw h => exact h.leaves.boxes a
  | @boxed w v st c' b' hw hc h =>
    have hne : a ≠ w.boxes.next := by
      rintro rfl
      exact absurd ((Boxes.find?_next hc.room).symm.trans hfind) nofun
    dsimp only
    rw [h.boxes]
    exact Boxes.find?_make_of_ne hne
  | refused hw hc h => exact (leaves_refused hc h).boxes a
  | @called w w' st b₁ e hw hm hb₁ hup hbegins hcalls =>
    obtain ⟨hne, -⟩ := hbegins.bears hw hb₁ (hcalls.bears hb')
    obtain ⟨n, hheader⟩ := hbegins.header hw hb₁.1
    dsimp only [World.noted]
    rw [hbegins.kept.1, hheader, Header.emptied]
    split
    · next hboxed =>
      refine Boxes.find?_erase_of_ne _ ?_
      rintro rfl
      exact hne (hS.single b b₁ _ hb ⟨hb₁.live, hboxed, rfl⟩)
    · rfl
  | dropped => rfl
  | ended hw hb₁ => exact (hw.leaves_over hb₁.1).boxes a

/-- So it is by a whole course. -/
theorem Course.find? (h : E.Course Unheard S S') (hS : Consigned S) :
    ∃ new, S'.world.host = new ++ S.world.host ∧ ((∀ e ∈ new, ¬ e.Makes b) →
      Bears S'.world b a → Bears S.world b a ∧
        S'.world.boxes.find? a = S.world.boxes.find? a) := by
  induction h with
  | refl => exact ⟨[], rfl, fun _ hb => ⟨hb, rfl⟩⟩
  | @tail Y Z hcourse hstride ih =>
    obtain ⟨new, hhost, hkept⟩ := ih
    obtain ⟨new', hhost'⟩ := hstride.grows
    refine ⟨new' ++ new, by rw [hhost', hhost, List.append_assoc], fun hno hZ => ?_⟩
    obtain ⟨hno', hno⟩ := List.forall_mem_append.1 hno
    have hY : Bears Y.world b a := hstride.bears hZ fun new₁ h₁ => by
      obtain rfl : new₁ = new' := List.append_cancel_right (h₁.symm.trans hhost')
      exact hno'
    obtain ⟨hX, hfind⟩ := hkept hno hY
    exact ⟨hX, (hstride.find? (Course.consigned hcourse hS) hY hZ).trans hfind⟩

end Environment

end CountedHeap
