/-
Releases in any order

What comes of giving up references is the same in whatever order they are given up, and so every
order leads to the same end. All that is asked is that whoever gives up a reference has it, and that
whoever is called at the end of a handle keeps to himself.

* `Expendable`: references that can be given up, and what becomes of the others then;
* `Environment.Steady.release_along`: one release;
* `Environment.Steady.releaseAll_run`, `Environment.Steady.releaseAll_stops`: one after the other;
* `SameOutcome`: two ends that differ in nothing that matters;
* `releases_commute`: any two orders.
-/
import CountedHeap.Proofs.Closures
import CountedHeap.Proofs.Releases

namespace CountedHeap

open Memory (AgreeOn mem_range)

/-! ### References that can be given up -/

/-- Whoever gives up the references in `S` has them, and whoever is called when handles end by that
keeps to himself. -/
structure Expendable (E : Environment) (w : World History) (S : Multiset Handle) : Prop where
  owned : ∀ b ∈ S, b ∈ (ledger w.host).handles ∧ S.count b ≤ (ledger w.host).refs b
  harmless : w.shuttingDown = false → ∀ b ∈ w.ended S, Harmless E w b
  boxes : w.Unboxes S

section Expendable

variable {E : Environment} {w v u : World History} {S T : Multiset Handle} {b : Handle} {i : Nat}

lemma Expendable.mono (h : Expendable E w (S + T)) : Expendable E w S := by
  have hin : ∀ b ∈ S, b ∈ S + T := fun b hb => Multiset.mem_add.2 (.inl hb)
  have hcount : ∀ b ∈ S, S.count b + T.count b ≤ (ledger w.host).refs b := fun b hb =>
    Multiset.count_add b S T ▸ (h.owned b (hin b hb)).2
  refine ⟨fun b hb => ⟨(h.owned b (hin b hb)).1, (Nat.le_add_right _ _).trans (hcount b hb)⟩,
    fun hup b hb => h.harmless hup b ?_, fun b hb c hc => h.boxes b (hin b hb) c (hin c hc)⟩
  obtain ⟨hb, hall⟩ := World.mem_ended.1 hb
  have hle := hcount b hb
  rw [World.mem_ended, Multiset.count_add]
  exact ⟨hin b hb, by omega⟩

lemma Undisputed.after (h : Undisputed w b i) (hv : Along E w S v) : Undisputed v b i := by
  intro c hc
  obtain ⟨k, hk⟩ := hv.exists_header hc
  obtain ⟨hcount, hpoison⟩ := h c (hv.mem_handles.1 hc).1
  rw [hk, Header.poisons_recount, Header.span_recount]
  exact ⟨hcount, hpoison⟩

/-- Whoever is called after references were given up could as well have been called with nothing
known but the state before. -/
lemma Called.before (hu : Called E v b u) (hv : Along E w S v)
    (hb : b ∈ (ledger v.host).handles) : Called E w b u := by
  have hblocks : (ledger v.host).blocks ⊆ (ledger w.host).blocks := by
    rw [hv.books]
    exact Finset.sdiff_subset
  have hroom : (ledger v.host).room = (ledger w.host).room := by rw [hv.books]
  have hbindings : v.bindings = w.bindings := by rw [hv.rest]
  refine ⟨hu.steady, hu.bindings.trans hbindings, hu.up, hu.dying, ?_, fun c hc => ?_,
    hu.blocks.trans hblocks, hu.room.trans hroom, fun i hi hspan hs hund => ?_⟩
  · obtain ⟨k, hk⟩ := hv.exists_header hb
    rw [hu.header, hk]
  · obtain ⟨hcv, k, hk⟩ := hu.others c hc
    obtain ⟨k', hk'⟩ := hv.exists_header hcv
    rw [hk, hk']
    exact ⟨(hv.mem_handles.1 hcv).1, k, rfl⟩
  · have hleft := hv.bytes i hi (hs.mono hu.blocks hu.room) ⟨b, hb, hspan⟩
    have hkept : v.memory.byte i = w.memory.byte i := by
      refine hleft.kept (fun c hc => (hund c (hv.owned c hc).1).1) fun c hc hwipe => ?_
      have hcS := (World.mem_ended.1 hc).1
      refine (hund c (hv.owned c hcS).1).2 ?_ hwipe.2.1 hwipe.2.2
      rintro rfl
      exact (hv.mem_handles.1 hb).2 hc
    rw [← hkept]
    exact hu.payload i hi (by rwa [hv.span hb]) hs (hund.after hv)

/-- A handle whose box is left alone stays harmless. -/
lemma Harmless.after (h : Harmless E w b) (hv : Along E w S v)
    (hb : b ∈ (ledger v.host).handles)
    (hbox : (w.memory.header b).destructor = Adapter.boxed.addr →
      v.boxes.find? (w.memory.header b).info = w.boxes.find? (w.memory.header b).info) :
    Harmless E v b := by
  intro e he u hu
  obtain ⟨k, hk⟩ := hv.exists_header hb
  rw [hk, Header.summoned_of_recount hbox] at he
  exact h e he u (hu.before hv hb)

/-- Other references can still be given up afterwards. -/
lemma Expendable.after (h : Expendable E w (S + T)) (hv : Along E w S v) : Expendable E v T := by
  have hin : ∀ b ∈ T, b ∈ S + T := fun b hb => Multiset.mem_add.2 (.inr hb)
  have howned : ∀ b ∈ T, b ∈ (ledger v.host).handles ∧ T.count b ≤ (ledger v.host).refs b := by
    intro b hb
    obtain ⟨hbw, hcount⟩ := h.owned b (hin b hb)
    have hpos := Multiset.count_pos.2 hb
    rw [Multiset.count_add] at hcount
    rw [hv.mem_handles, hv.refs, World.mem_ended]
    exact ⟨⟨hbw, fun hall => by omega⟩, by omega⟩
  refine ⟨howned, fun hup b hb => ?_, fun b hb c hc hd hd' he => ?_⟩
  · have hbT := (World.mem_ended.1 hb).1
    have hended : b ∈ w.ended (S + T) := by
      rw [hv.ended_add howned]
      exact Finset.mem_union.2 (.inr hb)
    exact (h.harmless (hv.shuttingDown ▸ hup) b hended).after hv (howned b hbT).1
      (hv.box howned h.boxes hb)
  · obtain ⟨k, hk⟩ := hv.exists_header (howned b hb).1
    obtain ⟨k', hk'⟩ := hv.exists_header (howned c hc).1
    rw [hk] at hd he
    rw [hk'] at hd' he
    exact h.boxes b (hin b hb) c (hin c hc) hd hd' he

end Expendable

/-! ### Many releases -/

namespace Environment

variable {E : Environment} {w : World History} {S : Multiset Handle} {b : Handle} {bs : List Handle}

/-- One reference is given up. -/
lemma Steady.release_along (hw : E.Steady w) (hm : Marked w) (h : Expendable E w {b})
    (hsmall : (ledger w.host).refs b < UInt64.size) (depth : Nat) :
    ∃ u, ((Call.release b).perform (E.host (depth + 1))).run w = .ok (.ok 0) u ∧
      Along E w {b} u := by
  obtain ⟨hin, hcount⟩ := h.owned b (Multiset.mem_singleton_self b)
  rw [Multiset.count_singleton_self] at hcount
  have hlive : (ledger w.host).Live b := ⟨hin, hcount⟩
  by_cases h1 : (ledger w.host).refs b = 1
  · have hsole : (ledger w.host).Sole b := ⟨hin, h1⟩
    obtain ⟨hreleased, hdying⟩ := hw.released_last hsole
    have hended : b ∈ w.ended {b} := by
      rw [World.mem_ended, Multiset.count_singleton_self, h1]
      exact ⟨Multiset.mem_singleton_self b, rfl⟩
    have hcalled : w.shuttingDown = false → Called E w b ((w.noted (.released b)).withCount b 0) ∧
        Begun b ((w.noted (.released b)).withCount b 0) ∧ w.boxes = w.boxes ∧ Harmless E w b :=
      fun hup =>
        have hcalled := hw.released_called hsole hup
        ⟨hcalled, begun_of_marked hm hsole hup (.inl rfl) rfl rfl hcalled.header, rfl,
          h.harmless hup b hended⟩
    obtain ⟨x, hx, haside, hrun⟩ := callDestructor_departs hreleased hdying hcalled depth
    have hgone := hx.vanishes (haside.books.symm ▸ hdying.1)
    have hrelease := (record_bind_run (.released b) _ w).trans ((hw.release_last hsole).trans hrun)
    have hu := ((release_ends (obeys_playing depth) hw hm hlive).post hrelease).1
    exact ⟨_, Call.silently_run hrelease, hw.ended_along hsole hu haside hgone⟩
  · have h0 : (w.memory.header b).refcount ≠ 0 := fun h0 =>
      hsmall.ne ((hw.refcount_eq_zero_iff hlive).1 h0)
    have hrun := hw.release_shared (E.playing depth) hlive h1
    rw [if_neg h0] at hrun
    exact ⟨_, Call.silently_run ((record_bind_run (.released b) _ w).trans hrun),
      hw.released_along hlive h1⟩

/-- A step that the contract allows and that stops the program. -/
lemma step_stops {h : Host History} {c : Call} {next : Answer → World History → Program}
    {f : Fault} {v : World History} (hc : c.Permitted E w.marked)
    (hrun : (c.perform h).run w.marked = .error f v) :
    (Program.step c next).run E h w = .error f v := by
  have hmark : Program.mark w = .ok () w.marked := rfl
  rw [Program.run, Machine.bind_apply, hmark]
  simp only [Machine.bind_apply, Machine.get_apply, if_pos hc, hrun]

/-- The first of many references is given up. -/
lemma Steady.releaseAll_step (hw : E.Steady w) (h : Expendable E w ({b} + S))
    (hsmall : (ledger w.host).refs b < UInt64.size) (depth : Nat) :
    ∃ u, Along E w {b} u ∧ ∀ bs, (Program.releaseAll (b :: bs)).run E (E.host (depth + 1)) w =
      (Program.releaseAll bs).run E (E.host (depth + 1)) u := by
  have hmark := Along.marked hw
  have hlive : (ledger w.host).Live b := by
    obtain ⟨hin, hcount⟩ := h.mono.owned b (Multiset.mem_singleton_self b)
    exact ⟨hin, Multiset.count_singleton_self b ▸ hcount⟩
  have h' : Expendable E w.marked {b} := by
    refine Expendable.after (S := 0) ?_ hmark
    rw [zero_add]
    exact h.mono
  obtain ⟨u, hrun, hu⟩ := hmark.steady.release_along ⟨w.host, rfl⟩ h' hsmall depth
  have hboth := hmark.trans hu hw (by rw [zero_add]; exact h.mono.boxes)
  rw [zero_add] at hboth
  exact ⟨u, hboth, fun bs => step_run hlive hrun⟩

/-- References are given up one after the other. -/
theorem Steady.releaseAll_run (hw : E.Steady w) (h : Expendable E w bs)
    (hsmall : ∀ b ∈ bs, (ledger w.host).refs b < UInt64.size) (depth : Nat) :
    ∃ v, (Program.releaseAll bs).run E (E.host (depth + 1)) w = .ok () v ∧ Along E w bs v := by
  -- After each release the others are still expendable, and what comes of them adds up.
  induction bs generalizing w with
  | nil => exact ⟨w.marked, rfl, .marked hw⟩
  | cons b bs ih =>
    rw [← Multiset.cons_coe, ← Multiset.singleton_add] at h ⊢
    obtain ⟨u, hu, hstep⟩ := hw.releaseAll_step h (hsmall b List.mem_cons_self) depth
    have hsmall' : ∀ c ∈ bs, (ledger u.host).refs c < UInt64.size := fun c hc => by
      rw [hu.refs]
      exact (Nat.sub_le _ _).trans_lt (hsmall c (List.mem_cons_of_mem b hc))
    obtain ⟨v, hrun, hv⟩ := ih hu.steady (h.after hu) hsmall'
    exact ⟨v, (hstep bs).trans hrun, hu.trans hv hw h.boxes⟩

/-- Where one of the counts came around to zero, it stops the program when its turn comes. -/
theorem Steady.releaseAll_stops (hw : E.Steady w) (h : Expendable E w bs)
    (hfull : ∃ b ∈ bs, (ledger w.host).refs b = UInt64.size) (depth : Nat) :
    ∃ v, (Program.releaseAll bs).run E (E.host (depth + 1)) w =
      .error (.violation (.refcountUnderflow "release")) v := by
  induction bs generalizing w with
  | nil => exact absurd hfull (by simp)
  | cons b bs ih =>
    rw [← Multiset.cons_coe, ← Multiset.singleton_add] at h
    have hin : b ∈ ({b} + bs : Multiset Handle) :=
      Multiset.mem_add.2 (.inl (Multiset.mem_singleton_self b))
    have hlive : (ledger w.host).Live b :=
      ⟨(h.owned b hin).1, (Multiset.count_pos.2 hin).trans_le (h.owned b hin).2⟩
    by_cases hb : (ledger w.host).refs b = UInt64.size
    · have hword : (w.marked.memory.header b).refcount = 0 := (hw.refcount_eq_zero_iff hlive).2 hb
      have h1 : (ledger w.marked.host).refs b ≠ 1 := fun h1 => absurd (hb.symm.trans h1) (by decide)
      have hrun := hw.marked.1.release_shared (E.playing depth) hlive h1
      rw [if_pos hword] at hrun
      exact ⟨_, step_stops hlive (Call.silently_run_error
        ((record_bind_run (.released b) _ w.marked).trans hrun))⟩
    · have hless : (ledger w.host).refs b < UInt64.size :=
        lt_of_le_of_ne (hw.refcount hlive).1 hb
      obtain ⟨u, hu, hstep⟩ := hw.releaseAll_step h hless depth
      obtain ⟨c, hc, hfull⟩ := hfull
      have hne : c ≠ b := fun he => hb (he ▸ hfull)
      obtain ⟨v, hrun⟩ := ih hu.steady (h.after hu)
        ⟨c, (List.mem_cons.1 hc).resolve_left hne, by
          rw [hu.refs, Multiset.count_eq_zero_of_notMem (mt Multiset.mem_singleton.1 hne)]
          exact hfull⟩
      exact ⟨v, (hstep bs).trans hrun⟩

end Environment

/-! ### Two orders -/

/-- What the runtime allocated for a handle lies in a block that is out. -/
lemma Environment.Steady.steadfast {E : Environment} {v : World History} {c : Handle} {i : Nat}
    (hv : E.Steady v) (hc : c ∈ (ledger v.host).handles)
    (ha : (ledger v.host).Allocated c (v.memory.header c)) (hi : i ∈ (v.memory.header c).span) :
    i < UInt64.size ∧ Steadfast E (ledger v.host) i := by
  obtain ⟨q, -, ⟨hq, hlow, hhigh⟩, -⟩ :=
    Contained.inside_payload hv.sound.headed hv.sound.laid hc ha
  have hfit := (hv.sound.laid.fits q hq).2.2
  rw [Header.span, mem_range] at hi
  exact ⟨by omega, .inr ⟨q, hq, by rw [mem_range]; omega⟩⟩

/-- Two runs from the state `w` end in states `v` and `v'` that differ in nothing that matters. The
same was seen, if not in the same order; the same blocks and handles are left, and the counters say
the same; and so do the headers that are left, and the payloads, but for bytes that an allocator may
do with as he likes. -/
structure SameOutcome (E : Environment) (w v v' : World History) : Prop where
  seen : ∃ es, Shows w.host v.host es ∧ Shows w.host v'.host es
  books : ledger v'.host = ledger v.host
  rest : v' = { v with memory := v'.memory, boxes := v'.boxes, host := v'.host }
  header : ∀ c ∈ (ledger v.host).handles, v'.memory.header c = v.memory.header c
  payload : ∀ c ∈ (ledger v.host).handles, ∀ i < UInt64.size, i ∈ (v.memory.header c).span →
    Steadfast E (ledger v.host) i → v'.memory.byte i = v.memory.byte i
  /-- Payloads that the runtime allocated have no other bytes. -/
  allocated : ∀ c ∈ (ledger v.host).handles, (ledger v.host).Allocated c (v.memory.header c) →
    AgreeOn v.memory v'.memory (v.memory.header c).payload (v.memory.header c).size.toNat

/-- Nothing that comes of releases depends on their order. -/
lemma Along.sameOutcome {E : Environment} {w v v' : World History} {S : Multiset Handle}
    (h : Along E w S v) (h' : Along E w S v') : SameOutcome E w v v' := by
  have hbooks : ledger v'.host = ledger v.host := h'.books.trans h.books.symm
  have hstats : v'.stats = v.stats := h'.stats.trans h.stats.symm
  have hpayload : ∀ c ∈ (ledger v.host).handles, ∀ i < UInt64.size,
      i ∈ (v.memory.header c).span → Steadfast E (ledger v.host) i →
        v'.memory.byte i = v.memory.byte i := by
    intro c hc i hi hspan hs
    rw [h.span hc] at hspan
    exact (h'.bytes i hi (hbooks ▸ hs) ⟨c, hbooks ▸ hc, hspan⟩).unique
      (h.bytes i hi hs ⟨c, hc, hspan⟩)
  refine ⟨⟨_, h.shows, h'.shows⟩, hbooks, ?_, fun c hc => ?_, hpayload,
    fun c hc ha i hlow hhigh => ?_⟩
  · rw [h'.rest, h.rest, hstats]
  · exact (h'.header c (hbooks ▸ hc)).trans (h.header c hc).symm
  · obtain ⟨hi, hs⟩ := h.steady.steadfast hc ha (mem_range.2 ⟨hlow, hhigh⟩)
    exact hpayload c hc i hi (mem_range.2 ⟨hlow, hhigh⟩) hs

/-- In every run in which nobody hands over a closure that somebody has heard of, no two handles
wait for the same closure. -/
theorem unboxes_of_hands (E : Environment) (hE : E.Hands Unheard) (p : Program) (w : World History)
    (hp : p.Hands Unheard w.opening) (hw : w.boxes.live = []) (depth : Nat) :
    Throughout (fun e past => ∀ s, e = .boundary s → ∀ S : Multiset Handle,
      (∀ b ∈ S, (ledger past).Live b) → (s.resume past).Unboxes S) (E.history depth p w) := by
  obtain ⟨v, st, hcourse, hhost⟩ := Environment.exists_course hE hp depth
  rw [hhost]
  rintro e past hsuffix s rfl S hS b hb c hc hd hd' he
  obtain hopening | ⟨st', hto, -⟩ := hcourse.through hsuffix
  · exact absurd hopening w.opening_unmarked
  · have hcons := Environment.Course.consigned hto (consigned_opening hw)
    exact hcons.single b c _ ⟨hS b hb, hd, rfl⟩ ⟨hS c hc, hd', he.symm⟩

/-- The references `bs` may be given up in the order of `bs'` just as well. -/
structure Commutes (E : Environment) (w : World History) (bs bs' : List Handle) : Prop where
  /-- All of them are given up, and what comes of it is the same. -/
  ends : (∀ b ∈ bs, (ledger w.host).refs b < UInt64.size) → ∀ depth, ∃ v v',
    (Program.releaseAll bs).run E (E.host (depth + 1)) w = .ok () v ∧
    (Program.releaseAll bs').run E (E.host (depth + 1)) w = .ok () v' ∧
    Along E w bs v ∧ Along E w bs v' ∧ SameOutcome E w v v'
  /-- A count that came around to zero stops the program in one order and in the other. -/
  stops : (∃ b ∈ bs, (ledger w.host).refs b = UInt64.size) → ∀ depth, ∃ v v',
    (Program.releaseAll bs).run E (E.host (depth + 1)) w =
      .error (.violation (.refcountUnderflow "release")) v ∧
    (Program.releaseAll bs').run E (E.host (depth + 1)) w =
      .error (.violation (.refcountUnderflow "release")) v'

/-- **The order of releases does not matter.** Wherever a program is between two steps, let somebody
have references to handles of whatever kinds, and let destructors, finalizers and closures that are
called when these handles end write nowhere but to the payload of their handle and to memory that
belongs to no handle. Then the references may be given up in any order: the same handles end, the
same is called, the same blocks are given back, and the same is left of everything else. -/
theorem releases_commute (E : Environment) (depth : Nat) (p : Program) (w : World History) :
    Throughout (fun e past => ∀ s, e = .boundary s → ∀ bs bs' : List Handle, bs.Perm bs' →
      Expendable E (s.resume past) bs → Commutes E (s.resume past) bs bs')
      (E.history depth p w) := by
  rintro e past hsuffix s rfl bs bs' hperm h
  obtain ⟨hw, -⟩ := Environment.steady_of_boundary ((E.lawful_history depth p w).suffix hsuffix)
  have hsame : (bs : Multiset Handle) = bs' := Multiset.coe_eq_coe.2 hperm
  have h' : Expendable E (s.resume past) bs' := hsame ▸ h
  refine ⟨fun hsmall depth' => ?_, fun hfull depth' => ?_⟩
  · obtain ⟨v, hrun, hv⟩ := hw.releaseAll_run h hsmall depth'
    obtain ⟨v', hrun', hv'⟩ :=
      hw.releaseAll_run h' (fun b hb => hsmall b (hperm.mem_iff.2 hb)) depth'
    rw [← hsame] at hv'
    exact ⟨v, v', hrun, hrun', hv, hv', hv.sameOutcome hv'⟩
  · obtain ⟨b, hb, hrefs⟩ := hfull
    obtain ⟨v, hrun⟩ := hw.releaseAll_stops h ⟨b, hb, hrefs⟩ depth'
    obtain ⟨v', hrun'⟩ := hw.releaseAll_stops h' ⟨b, hperm.mem_iff.1 hb, hrefs⟩ depth'
    exact ⟨v, v', hrun, hrun'⟩

/-! ### Handles of all kinds -/

/-- Writes to memory that nobody else uses. -/
def Program.leaveMark : Program := .step (.poke 64 [1]) fun _ _ => .done

/-- A host whose destructors and finalizers leave a mark. -/
def Environment.marking : Environment :=
  { Environment.unbounded with
    destructor := fun _ _ _ _ _ => .leaveMark
    finalizer := fun _ _ _ => .leaveMark }

/-- A caller who makes a handle that is poisoned in the end, one of an external allocator, one with
a finalizer and one that can be resized, and has two references to the first. -/
def Program.assorted : Program :=
  .step (.make (.allocDestructorSafe 16 1)) fun _ _ =>
    .step (.make (.allocExternal 8 32)) fun _ _ =>
      .step (.make (.manage 512 2)) fun _ _ =>
        .step (.make (.newResizableWith 24 3)) fun _ _ =>
          .step (.acquire 4096) fun _ _ => .done

namespace Assorted

/-- The references to the handles that are made. -/
def references : List Handle := [4096, 4168, 4096, 4232, 4312]

/-- They are there, and no handle has the place of the mark. -/
def Stands (s : Snapshot) (past : History) : Prop :=
  (∀ b ∈ references, (b ∈ (ledger past).handles ∧
    (references : Multiset Handle).count b ≤ (ledger past).refs b) ∧
    (ledger past).refs b < UInt64.size ∧ (s.memory.header b).destructor ≠ Adapter.boxed.addr) ∧
  ∀ c ∈ (ledger past).handles, 64 < c.toNat ∧
    ¬ ((s.memory.header c).payload.toNat ≤ 64 ∧
      64 < (s.memory.header c).payload.toNat + (s.memory.header c).size.toNat)

instance (s : Snapshot) (past : History) : Decidable (Stands s past) := by
  haveI each (p : Addr → Prop) [DecidablePred p] :
      Decidable (∀ c ∈ (ledger past).handles, p c) := Finset.decidableDforallFinset
  haveI listed (p : Addr → Prop) [DecidablePred p] :
      Decidable (∀ b ∈ references, p b) := List.decidableBAll p references
  unfold Stands
  infer_instance

/-- Whoever leaves the mark keeps to himself. -/
lemma harmless {s : Snapshot} {past : History} (h : Stands s past) (b : Handle) :
    Harmless .marking (s.resume past) b := by
  intro e _ v hv
  have hdone : ∀ v' : World History, Confined .marking b (fun v' => ∀ c, e.closure? = some c →
      Confined .marking b (fun _ => True)
        (Environment.marking.dropClosure c (v'.noted (.closureDropped c)))
        (v'.noted (.closureDropped c))) .done v' := fun v' => .done fun _ _ => .done trivial
  have hmark : Confined .marking b (fun v' => ∀ c, e.closure? = some c →
      Confined .marking b (fun _ => True)
        (Environment.marking.dropClosure c (v'.noted (.closureDropped c)))
        (v'.noted (.closureDropped c))) .leaveMark v := by
    refine .poke ⟨by decide, fun c hc => .inl ?_⟩ (fun i hi => ?_) (hdone _)
    · exact (h.2 c (hv.others c hc).1).1
    · rintro ⟨c, hc, -, hspan⟩
      obtain ⟨hcw, k, hk⟩ := hv.others c hc
      rw [hk, Header.span_recount, Header.span, mem_range] at hspan
      obtain rfl : 64 = i := by
        obtain ⟨hlow, hhigh⟩ := mem_range.1 hi
        exact Nat.le_antisymm hlow (Nat.le_of_lt_succ hhigh)
      exact (h.2 c hcw).2 hspan
  cases e with
  | destructor fn data size info => exact hmark
  | finalizer fn data => exact hmark
  | _ => exact hdone v

lemma expendable {s : Snapshot} {past : History} (h : Stands s past) :
    Expendable .marking (s.resume past) references :=
  ⟨fun b hb => (h.1 b hb).1, fun _ b _ => harmless h b,
    fun b hb _ _ hd => absurd hd (h.1 b hb).2.2⟩

end Assorted

/-- All of them end, whether the references are given up in this order or the other way round. -/
theorem releases_commute_assorted : ∃ s past,
    Environment.marking.history 1 .assorted { host := [] } = .boundary s :: past ∧
      Expendable .marking (s.resume past) Assorted.references ∧
      (s.resume past).ended Assorted.references = {4096, 4168, 4232, 4312} ∧
      ∀ depth, ∃ v v',
        (Program.releaseAll Assorted.references).run .marking
          (Environment.marking.host (depth + 1)) (s.resume past) = .ok () v ∧
        (Program.releaseAll Assorted.references.reverse).run .marking
          (Environment.marking.host (depth + 1)) (s.resume past) = .ok () v' ∧
        SameOutcome .marking (s.resume past) v v' := by
  have hlast : (lastBoundary (Environment.marking.history 1 .assorted { host := [] })).any
      (fun r => decide (Assorted.Stands r.1 r.2 ∧
        (r.1.resume r.2).ended Assorted.references = {4096, 4168, 4232, 4312})) = true := by
    decide +kernel
  obtain ⟨s, past, hhistory, hholds⟩ := exists_lastBoundary hlast
  obtain ⟨hstands, hended⟩ := of_decide_eq_true hholds
  have hsuffix : .boundary s :: past <:+
      Environment.marking.history 1 .assorted { host := [] } := hhistory ▸ List.suffix_rfl
  have hexpendable := Assorted.expendable hstands
  have hcommutes := releases_commute .marking 1 .assorted { host := [] } _ past hsuffix s rfl
    Assorted.references Assorted.references.reverse (List.reverse_perm _).symm hexpendable
  refine ⟨s, past, hhistory, hexpendable, hended, fun depth => ?_⟩
  obtain ⟨v, v', hrun, hrun', -, -, hsame⟩ :=
    hcommutes.ends (fun b hb => (hstands.1 b hb).2.1) depth
  exact ⟨v, v', hrun, hrun', hsame⟩

end CountedHeap
