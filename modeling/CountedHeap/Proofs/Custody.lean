/-
Payloads in custody

The payload of a resizable handle goes with the handle. As long as the handle is there, nothing but
an operation on its own payload takes the block away, whatever destructors and finalizers are
running meanwhile, the handle's own among them; and the end of the handle gives it back, once.

* `Environment.Steady.over_ends`: the state in which the storage of a handle has gone;
* `HeldBy`: a block is the payload of a handle that is there;
* `HeldBy.over`: it stays so when another handle ends;
* `Stride.held`, `Course.held`: it stays so by every stride, and so by every course;
* `Provided`, `Steady.released_once`: what is freed in the end, and how often;
* `payloads_in_custody`: so it is throughout every run.
-/
import CountedHeap.Proofs.Finalizers
import CountedHeap.Proofs.Passage

namespace CountedHeap

/-! ### What the end of another handle leaves alone -/

namespace Environment

variable {E : Environment} {w : World History} {b : Handle}

/-- When the rest of a destructor is done and the storage has gone, the state is steady. -/
lemma Steady.over_ends (hw : E.Steady w) (hb : (ledger w.host).Dying b) :
    E.Steady (E.destroyed ((ledger w.host).source b) b (E.completed (w.memory.header b) w)) ∧
      SparesBut b w
        (E.destroyed ((ledger w.host).source b) b (E.completed (w.memory.header b) w)) := by
  have hs := hw.sound.headed.header b hb.1
  have hcleared := hw.completed_cleared hb.1
  have hdestroy : Handle.destroy (E.hostOver fun _ => throw .tooDeep) b
      (E.completed (w.memory.header b) w) = _ :=
    hw.destroy_of hb.1 (hcleared.headers b hb.1) hcleared.bindings
  have hreached : E.Reaches w (E.completed (w.memory.header b) w) →
      E.Steady (E.destroyed ((ledger w.host).source b) b (E.completed (w.memory.header b) w)) ∧
        SparesBut b w
          (E.destroyed ((ledger w.host).source b) b (E.completed (w.memory.header b) w)) := by
    intro hreach
    obtain ⟨hsteady, hbut⟩ := (destroy_ends hreach.1 (hreach.2 b hb).1).post hdestroy
    exact ⟨hsteady, hreach.2.but hbut⟩
  obtain ⟨hp, he⟩ | ⟨hd, h0, he⟩ | ⟨-, -, he⟩ := E.completed_cases (w.memory.header b) w
  all_goals rw [he] at hreached hdestroy ⊢
  · exact hreached (hw.wiped hb.1 (hs.poisoned hp) Poison.freed)
  · have hbereft := hw.bereft hb.1 (hs.adapter.1 hd) h0
    exact (destroy_bereft_ends hw hb hbereft).post hdestroy
  · exact hreached hw.refl

end Environment

/-! ### Payloads that are held -/

variable {E : Environment} {w v : World History} {b : Handle} {q : Addr} {d : Header}
  {new : List Event}

/-- What a handle reports stays the same unless its payload is exchanged or it is made anew. -/
lemma data_of_append {H : History} (hnew : ∀ e ∈ new, ¬ e.Makes b ∧ ¬ e.Refits b)
    (hb : b ∈ (ledger (new ++ H)).handles) :
    (ledger (new ++ H)).data b = (ledger H).data b := by
  induction new with
  | nil => rfl
  | cons e new ih =>
    obtain ⟨hmakes, hrefits⟩ := hnew e List.mem_cons_self
    have hrest : (ledger (new ++ H)).data b = (ledger H).data b :=
      ih (fun e' he' => hnew e' (List.mem_cons_of_mem _ he')) (mem_handles_of_cons hmakes hb).1
    rw [List.cons_append, ledger_cons, ← hrest]
    cases e with
    | given s n p => rw [Ledger.after]; split <;> rfl
    | resized s p n q => rw [Ledger.after]; split <;> rfl
    | made c own data size => exact Function.update_of_ne (fun h => hmakes (Eq.symm h)) _ _
    | refilled c p n => exact Function.update_of_ne (fun h => hrefits (Eq.symm h)) _ _
    | discarded c p => exact Function.update_of_ne (fun h => hrefits (Eq.symm h)) _ _
    | started => exact absurd hb (Finset.notMem_empty b)
    | _ => rfl

/-- The block `q` is the payload of the handle `b`, whose header once was `d`. Of a live handle this
is seen in the history, and of one that is ending in its header. -/
def HeldBy (d : Header) (b : Handle) (q : Addr) (w : World History) : Prop :=
  (ledger w.host).Live b ∧ Seen b d w.host ∧ (ledger w.host).data b = q ∨
    (ledger w.host).Dying b ∧ (w.memory.header b).kind = .resizable ∧
      (w.memory.header b).payload = q

namespace HeldBy

lemma mem_handles (h : HeldBy d b q w) : b ∈ (ledger w.host).handles := by
  obtain ⟨⟨hmem, -⟩, -⟩ | ⟨⟨hmem, -⟩, -⟩ := h <;> exact hmem

/-- Where the state is steady, the header tells. -/
lemma header (h : HeldBy d b q w) (hw : E.Steady w) (hk : d.kind = .resizable) :
    (w.memory.header b).kind = .resizable ∧ (w.memory.header b).payload = q := by
  obtain ⟨hlive, hseen, hdata⟩ | ⟨-, hheader⟩ := h
  · exact ⟨(hw.recalled.seen b d hseen).kind.trans hk, (hw.sound.reported b hlive).1.trans hdata⟩
  · exact hheader

lemma mem_blocks (h : HeldBy d b q w) (hw : E.Steady w) (hk : d.kind = .resizable) (hq : q ≠ 0) :
    q ∈ (w.memory.header b).blocks b := by
  obtain ⟨hk', hp⟩ := h.header hw hk
  rw [Header.mem_blocks, hp]
  exact .inr ⟨hk', hq, rfl⟩

/-- If nothing happens to the payload of a handle, it stays. -/
lemma of_spares (h : HeldBy d b q w)
    (hspares : (ledger w.host).Dying b →
      (ledger v.host).Dying b ∧ v.memory.header b = w.memory.header b)
    (hdying : (ledger v.host).Dying b → (ledger w.host).Dying b) (hhost : v.host = new ++ w.host)
    (hno : (ledger w.host).Live b → ∀ e ∈ new, ¬ e.Makes b ∧ ¬ e.Refits b)
    (hb : b ∈ (ledger v.host).handles) : HeldBy d b q v := by
  by_cases hrefs : (ledger v.host).refs b = 0
  · obtain ⟨⟨-, hpos⟩, -⟩ | ⟨hdying', hk, hp⟩ := h
    · have hzero := (hdying ⟨hb, hrefs⟩).2
      omega
    · obtain ⟨hdying'', hheader⟩ := hspares hdying'
      refine .inr ⟨hdying'', ?_⟩
      rw [hheader]
      exact ⟨hk, hp⟩
  · obtain ⟨hlive, hseen, hdata⟩ | ⟨hdying', -⟩ := h
    · left
      rw [hhost] at hb hrefs ⊢
      refine ⟨⟨hb, by omega⟩, ?_, (data_of_append (hno hlive) hb).trans hdata⟩
      exact (mem_handles_of_append (fun e he => (hno hlive e he).1) hb).2 d hseen
    · exact absurd (hspares hdying').1.2 hrefs

/-- What is written down takes away no block of a handle that is there and as it was. -/
lemma not_takesAway (h : HeldBy d b q w) (hw : E.Steady w) (hk : d.kind = .resizable) (hq : q ≠ 0)
    (hrecords : Records w v new)
    (hno : (ledger w.host).Live b → ∀ e ∈ new, ¬ e.Makes b ∧ ¬ e.Refits b)
    (hb : b ∈ (ledger v.host).handles) : ∀ e ∈ new, ¬ e.TakesAway q := by
  intro e he htakes
  obtain ⟨hpos, hgone | ⟨e', he', hrefits⟩⟩ :=
    hrecords.custody b h.mem_handles q (h.mem_blocks hw hk hq) ⟨e, he, htakes⟩
  · exact hgone hb
  · exact (hno ⟨h.mem_handles, hpos⟩ e' he').2 hrefits

end HeldBy

/-- The end of another handle begins. -/
lemma Begins.held {b' : Handle} {w' : World History} (h : Begins w b' w') (hw : E.Steady w)
    (hb' : (ledger w.host).Sole b') (hheld : HeldBy d b q w) (hk : d.kind = .resizable) :
    HeldBy d b q w' := by
  obtain ⟨⟨-, hspares⟩, hdying, hledger⟩ := h.steady hw hb'
  obtain ⟨n, hheader⟩ := h.header hw hb'.1
  by_cases hbb : b = b'
  · subst hbb
    refine .inr ⟨hdying, ?_⟩
    rw [hheader]
    exact hheld.header hw hk
  · obtain ⟨e, he, hhost⟩ := h.host
    have hhost' : w'.host = [e] ++ w.host := hhost
    refine hheld.of_spares (hspares b) (fun hb => ?_) hhost' (fun _ => ?_) ?_
    · rw [hledger] at hb
      exact ⟨hb.1, (Function.update_of_ne hbb _ _).symm.trans hb.2⟩
    · rcases he with rfl | rfl <;> simp [Event.Makes, Event.Refits]
    · rw [hledger]
      exact hheld.mem_handles

/-- A call takes nothing away. -/
lemma Header.CallsFor.not_takesAway {d : Header} {boxes : Boxes} {e : Event}
    (h : d.CallsFor boxes e) : ¬ e.TakesAway q := by
  cases e <;> first | exact not_false | exact h.elim

lemma HeldBy.called {c : Header} {e : Event} {boxes boxes' : Boxes} (h : HeldBy d b q w)
    (hcalls : c.CallsFor boxes' e) :
    HeldBy d b q (World.noted { w with boxes := boxes } e) := by
  obtain ⟨-, hledger⟩ := hcalls.quiet
  have hsame : ledger (World.noted { w with boxes := boxes } e).host = ledger w.host :=
    hledger (ledger w.host)
  have hspares : (ledger w.host).Dying b →
      (ledger (World.noted { w with boxes := boxes } e).host).Dying b ∧
        (World.noted { w with boxes := boxes } e).memory.header b = w.memory.header b := by
    rw [hsame]
    exact fun hb => ⟨hb, rfl⟩
  have hhost : (World.noted { w with boxes := boxes } e).host = [e] ++ w.host := rfl
  refine h.of_spares hspares (fun hb => ?_) hhost (fun _ => ?_) ?_
  · rwa [hsame] at hb
  · rw [List.forall_mem_singleton]
    cases e <;> first | exact ⟨not_false, not_false⟩ | exact hcalls.elim
  · rw [hsame]
    exact h.mem_handles

/-- When the storage of another handle goes, the payload is not among what is freed. -/
lemma HeldBy.over {b' : Handle} (h : HeldBy d b q w) (hw : E.Steady w)
    (hb' : (ledger w.host).Dying b') (hk : d.kind = .resizable) (hq : q ≠ 0)
    (hv : E.destroyed ((ledger w.host).source b') b' (E.completed (w.memory.header b') w) = v)
    (hhost : v.host = new ++ w.host)
    (hno : (ledger w.host).Live b → ∀ e ∈ new, ¬ e.Makes b ∧ ¬ e.Refits b)
    (hb : b ∈ (ledger v.host).handles) :
    HeldBy d b q v ∧ ∀ e ∈ new, ¬ e.TakesAway q := by
  obtain ⟨-, gone, hgone, hall⟩ := Environment.completed_host (E := E) (w.memory.header b') w
  have hfreed : v.host = .takenBack ((ledger w.host).source b') b' :: gone ++ w.host := by
    rw [← hv]
    exact congrArg (_ :: ·) hgone
  obtain rfl := List.append_cancel_right (hhost.symm.trans hfreed)
  have hne : b ≠ b' := by
    rintro rfl
    rw [hhost, List.cons_append, ledger_cons] at hb
    exact Finset.notMem_erase b _ hb
  have hblocks : ∀ r ∈ (w.memory.header b').blocks b', q ≠ r := fun r hr =>
    Contained.ne_of_mem_blocks hw.sound.headed h.mem_handles hb'.1 hne (h.mem_blocks hw hk hq) hr
  have hs := hw.sound.headed.header b' hb'.1
  have hspares := (hw.over_ends hb').2 b hne
  rw [hv] at hspares
  refine ⟨h.of_spares hspares (fun hdying => ?_) hhost hno hb, ?_⟩
  · rw [hhost] at hdying
    refine dying_of_append (fun e he => ?_) hdying
    rcases List.mem_cons.1 he with rfl | he
    · exact not_false
    · obtain ⟨-, -, s, rfl⟩ := hall e he
      exact not_false
  · rw [List.forall_mem_cons]
    refine ⟨fun htakes => hblocks b' (Header.self_mem_blocks _ b') (Eq.symm htakes),
      fun e he htakes => ?_⟩
    obtain ⟨hres, h0, s, rfl⟩ := hall e he
    exact hblocks _ (Header.mem_blocks.2 (.inr ⟨hs.adapter.1 hres, h0, rfl⟩)) (Eq.symm htakes)

namespace Environment

variable {G : World History → Nat → Prop} {S S' : Stage}

/-- A payload stays with its handle, by whatever stride, as long as the handle is there. -/
theorem Stride.held (h : E.Stride G S S') (hheld : HeldBy d b q S.world) (hk : d.kind = .resizable)
    (hq : q ≠ 0) (hhost : S'.world.host = new ++ S.world.host)
    (hno : (ledger S.world.host).Live b → ∀ e ∈ new, ¬ e.Makes b ∧ ¬ e.Refits b)
    (hb : b ∈ (ledger S'.world.host).handles) :
    HeldBy d b q S'.world ∧ ∀ e ∈ new, ¬ e.TakesAway q := by
  have hsame : ∀ new', S'.world.host = new' ++ S.world.host → new = new' := fun _ h' =>
    List.append_cancel_right (hhost.symm.trans h')
  cases h with
  | @marked w st =>
    obtain rfl := hsame [.boundary w.snapshot] rfl
    exact ⟨hheld.of_spares (fun h => ⟨h, rfl⟩) id hhost hno hb, by simp [Event.TakesAway]⟩
  | plain hw h =>
    obtain ⟨new', hrecords⟩ := h.events
    obtain rfl := hsame _ hrecords.host
    exact ⟨hheld.of_spares (h.spares b) (h.dying b) hhost hno hb,
      hheld.not_takesAway hw hk hq hrecords hno hb⟩
  | boxed hw hc h =>
    obtain ⟨new', hrecords⟩ := h.events
    obtain rfl := hsame _ hrecords.host
    exact ⟨hheld.of_spares (h.spares b) (h.dying b) hhost hno hb,
      hheld.not_takesAway hw hk hq hrecords hno hb⟩
  | @refused w v st c hw hc h =>
    obtain ⟨new', hrecords⟩ := h.events
    obtain rfl := hsame (.closureDropped c :: new') (congrArg (_ :: ·) hrecords.host)
    have hno' := fun hlive e he => hno hlive e (List.mem_cons_of_mem _ he)
    refine ⟨hheld.of_spares (h.spares b) (h.dying b) hhost hno hb, ?_⟩
    rw [List.forall_mem_cons]
    exact ⟨not_false, HeldBy.not_takesAway (w := w) hheld hw hk hq
      ⟨hrecords.host, hrecords.plain, hrecords.custody⟩ hno' hb⟩
  | @called w w' st b' e hw hm hb' hup hbegins hcalls =>
    obtain ⟨e', he', hhost'⟩ := hbegins.host
    obtain rfl := hsame [e, e'] (congrArg (e :: ·) hhost')
    refine ⟨(hbegins.held hw hb' hheld hk).called hcalls, ?_⟩
    simp only [List.forall_mem_cons, List.not_mem_nil, false_imp_iff, implies_true, and_true]
    refine ⟨hcalls.not_takesAway, ?_⟩
    rcases he' with rfl | rfl <;> exact not_false
  | @dropped w st b' c hw =>
    obtain rfl := hsame [.closureDropped c] rfl
    exact ⟨hheld.of_spares (fun h => ⟨h, rfl⟩) id hhost hno hb, by simp [Event.TakesAway]⟩
  | @ended w st b' hw hb' =>
    dsimp only at hheld hhost hno hb ⊢
    generalize hv : E.destroyed ((ledger w.host).source b') b'
      (E.completed (w.memory.header b') w) = v at hhost hb ⊢
    exact hheld.over hw hb' hk hq hv hhost hno hb

/-- So it is by a whole course, by induction on its strides: if the handle is there in the end, and
nobody exchanged its payload, then it was there at every stage. -/
theorem Course.held (h : E.Course G S S') (hheld : HeldBy d b q S.world) (hk : d.kind = .resizable)
    (hq : q ≠ 0) : ∃ new, S'.world.host = new ++ S.world.host ∧
      ((∀ e ∈ new, ¬ e.Makes b ∧ ¬ e.Refits b) → b ∈ (ledger S'.world.host).handles →
        HeldBy d b q S'.world ∧ ∀ e ∈ new, ¬ e.TakesAway q) := by
  induction h with
  | refl => exact ⟨[], rfl, fun _ _ => ⟨hheld, by simp⟩⟩
  | @tail Y Z _ hstride ih =>
    obtain ⟨new, hhost, hkept⟩ := ih
    obtain ⟨new', hhost'⟩ := hstride.grows
    refine ⟨new' ++ new, by rw [hhost', hhost, List.append_assoc], fun hno hb => ?_⟩
    obtain ⟨hno', hno⟩ := List.forall_mem_append.1 hno
    have hthere : b ∈ (ledger Y.world.host).handles := by
      rw [hhost'] at hb
      exact (mem_handles_of_append (fun e he => (hno' e he).1) hb).1
    obtain ⟨hY, hnew⟩ := hkept hno hthere
    obtain ⟨hZ, hnew'⟩ := hstride.held hY hk hq hhost' (fun _ => hno') hb
    exact ⟨hZ, List.forall_mem_append.2 ⟨hnew', hnew⟩⟩

/-! ### While the handle is ending -/

/-- A handle whose end has begun stays so, while others end. -/
lemma Stride.dying (h : E.Stride G S S') (hb : (ledger S.world.host).Dying b)
    (hst : ∀ u ∈ S.unfinished, u.handle ≠ b) :
    (ledger S'.world.host).Dying b ∧ ∀ u ∈ S'.unfinished, u.handle ≠ b := by
  cases h with
  | marked => exact ⟨hb, hst⟩
  | plain hw h => exact ⟨(h.spares b hb).1, hst⟩
  | boxed hw hc h => exact ⟨(h.spares b hb).1, hst⟩
  | refused hw hc h => exact ⟨(h.spares b hb).1, hst⟩
  | @called w w' st b' e hw hm hb' hup hbegins hcalls =>
    obtain ⟨⟨-, hspares⟩, -, -⟩ := hbegins.steady hw hb'
    have hsame : ledger (e :: w'.host) = ledger w'.host := hcalls.quiet.2 _
    have hdying : (ledger (e :: w'.host)).Dying b := by
      rw [hsame]
      exact (hspares b hb).1
    refine ⟨hdying, List.forall_mem_cons.2 ⟨?_, hst⟩⟩
    rintro rfl
    exact absurd (hb'.2.symm.trans hb.2) one_ne_zero
  | dropped hw => exact ⟨hb, List.forall_mem_cons.2 (List.forall_mem_cons.1 hst)⟩
  | @ended w st b' hw hb' =>
    obtain ⟨hne, hst⟩ := List.forall_mem_cons.1 hst
    exact ⟨((hw.over_ends hb').2 b hne.symm hb).1, hst⟩

/-- So nothing takes away its payload. -/
theorem Course.spared (h : E.Course G S S') (hb : (ledger S.world.host).Dying b)
    (hst : ∀ u ∈ S.unfinished, u.handle ≠ b) (hk : (S.world.memory.header b).kind = .resizable)
    (hp : (S.world.memory.header b).payload = q) (hq : q ≠ 0) :
    ∃ new, S'.world.host = new ++ S.world.host ∧ ∀ e ∈ new, ¬ e.TakesAway q := by
  have hall : ∃ new, S'.world.host = new ++ S.world.host ∧ (∀ e ∈ new, ¬ e.TakesAway q) ∧
      (ledger S'.world.host).Dying b ∧ (∀ u ∈ S'.unfinished, u.handle ≠ b) ∧
      HeldBy (S.world.memory.header b) b q S'.world := by
    induction h with
    | refl => exact ⟨[], rfl, by simp, hb, hst, .inr ⟨hb, hk, hp⟩⟩
    | @tail Y Z _ hstride ih =>
      obtain ⟨new, hhost, hnew, hY, hstY, hheld⟩ := ih
      obtain ⟨new', hhost'⟩ := hstride.grows
      obtain ⟨hZ, hstZ⟩ := hstride.dying hY hstY
      obtain ⟨hheld', hnew'⟩ := hstride.held hheld hk hq hhost'
        (fun hlive => absurd hlive.2 (by rw [hY.2]; decide)) hZ.1
      exact ⟨new' ++ new, by rw [hhost', hhost, List.append_assoc],
        List.forall_mem_append.2 ⟨hnew', hnew⟩, hZ, hstZ, hheld'⟩
  obtain ⟨new, hhost, hnew, -⟩ := hall
  exact ⟨new, hhost, hnew⟩

/-- While the finalizer of a payload runs, nothing takes the payload away. -/
lemma Steady.finalizer_spares (hw : E.Steady w) (hb : (ledger w.host).Dying b) {f : Addr}
    (hk : (w.memory.header b).kind = .resizable) (hp : (w.memory.header b).payload = q)
    (hq : q ≠ 0) (hlaw : E.Lawful (.finalizer f q) w.host) (depth : Nat)
    (hrun : (E.host depth).finalizer f q w = .ok () v) :
    ∃ new, v.host = new ++ w.host ∧ ∀ e ∈ new, ¬ e.TakesAway q := by
  have hE : E.Hands fun _ _ => True := fun e w => (E.response e w).hands_any w
  obtain ⟨play, hhost, -, hfollows⟩ := follows_host hE depth
  have hnoted : E.Reaches w (w.noted (.finalizer f q)) := hw.noted rfl trivial hlaw
  have hplay : play (E.finalizer f q) (w.noted (.finalizer f q)) = .ok () v := by
    rw [hhost] at hrun
    exact hrun
  have hcourse := (hfollows (E.finalizer f q) (hE (.finalizer f q)) _ hnoted.1).ok hplay []
  obtain ⟨new, hgrown, hnew⟩ :=
    Course.spared hcourse (hnoted.2 b hb).1 (by simp) hk hp hq
  refine ⟨new ++ [.finalizer f q], by rw [hgrown, List.append_assoc]; rfl, ?_⟩
  exact List.forall_mem_append.2 ⟨hnew, by simp [Event.TakesAway]⟩

end Environment

/-! ### Once -/

/-- Among these events the block `q` went back to the default heap, and otherwise nothing happened
to it. -/
def TakenBackOnce (q : Addr) (new : List Event) : Prop :=
  ∃ after before o, new = after ++ .takenBack (.heap o) q :: before ∧
    ∀ e ∈ after ++ before, ¬ e.TakesAway q

/-- What becomes of the payload `q` of the resizable handle `b` in the state `w`: the last release
of the handle gives it back once, unless the finalizer ends the run before; and so does the
operation by which it is freed. -/
structure Provided (E : Environment) (b : Handle) (q : Addr) (w : World History) : Prop where
  released : (ledger w.host).Sole b → w.shuttingDown = false → ∀ depth,
    (∃ v new, Handle.release (E.host depth) b (w.noted (.released b)) = .ok () v ∧
      v.host = new ++ w.host ∧ TakenBackOnce q new) ∨
    (w.memory.header b).info ≠ 0 ∧ ∃ e u,
      (E.host depth).finalizer (w.memory.header b).info q
        ((w.noted (.released b)).withCount b 0) = .error e u ∧
      Handle.release (E.host depth) b (w.noted (.released b)) = .error e.barred u
  freed : ∀ depth, ∃ v new,
    ((Call.resizableFree b q).perform (E.host depth)).run w = .ok (.ok 0) v ∧
    v.host = new ++ w.host ∧ TakenBackOnce q new ∧ (v.memory.header b).payload = 0

namespace Environment

section Provided

variable (hw : E.Steady w) (hb : (ledger w.host).Live b)
  (hk : (w.memory.header b).kind = .resizable) (hp : (w.memory.header b).payload = q)
  (hq : q ≠ 0)
include hw hb hk hp hq

/-- The last release shows the payload to the finalizer, gives it back, and then the storage. -/
lemma Steady.released_once (hm : Marked w) (h1 : (ledger w.host).refs b = 1)
    (hup : w.shuttingDown = false) (depth : Nat) :
    (∃ v new, Handle.release (E.host depth) b (w.noted (.released b)) = .ok () v ∧
      v.host = new ++ w.host ∧ TakenBackOnce q new) ∨
    (w.memory.header b).info ≠ 0 ∧ ∃ e u,
      (E.host depth).finalizer (w.memory.header b).info q
        ((w.noted (.released b)).withCount b 0) = .error e u ∧
      Handle.release (E.host depth) b (w.noted (.released b)) = .error e.barred u := by
  have hsole : (ledger w.host).Sole b := ⟨hb.1, h1⟩
  have hpay : (w.memory.header b).payload ≠ 0 := by rwa [hp]
  have hne : b ≠ q := by
    rintro rfl
    have hnot := (hw.payload hb.1 hk hpay).2.1
    rw [hp] at hnot
    exact hnot hb.1
  have hbegins : Begins w b ((w.noted (.released b)).withCount b 0) := .released
  have hparts := hw.parts hm hsole hk hup hbegins
  obtain ⟨⟨hw', -⟩, hdying, -⟩ := hbegins.steady hw hsole
  obtain ⟨n, hheader⟩ := hbegins.header hw hb.1
  obtain ⟨play, hhost, -⟩ := E.obeys_host depth
  have hrelease : Handle.release (E.host depth) b (w.noted (.released b)) =
      Handle.callDestructor (E.host depth) b ((w.noted (.released b)).withCount b 0) := by
    rw [hhost]
    exact hw.release_last hsole
  rw [hrelease]
  by_cases hf : (w.memory.header b).info = 0
  · obtain ⟨v, hrun, hgone⟩ := hparts.freed hpay hf play
    rw [← hhost] at hrun
    rw [hp] at hgone
    have hgone' : v.host = [.takenBack _ b, .takenBack _ q, .released b] ++ w.host := hgone
    refine .inl ⟨v, _, hrun, hgone', [.takenBack _ b], [.released b], _, rfl, ?_⟩
    simp [Event.TakesAway, hne]
  · cases hrun : (E.host depth).finalizer (w.memory.header b).info q
      ((w.noted (.released b)).withCount b 0) with
    | error e u =>
      rw [hhost, ← hp] at hrun
      rw [hhost]
      exact .inr ⟨hf, e, u, rfl, hparts.stopped hpay hf play e u hrun⟩
    | ok _ u =>
      have hbegun := hbegins.begun hw hm hsole hup
      have hlaw : E.Lawful (.finalizer (w.memory.header b).info q)
          ((w.noted (.released b)).withCount b 0).host :=
        lawful_of_begun hbegun (by
          rw [hheader]
          exact ⟨.inr (hw.resizable hb.1 hk).1, rfl, hp.symm⟩)
      obtain ⟨new, hgrown, hnew⟩ := hw'.finalizer_spares hdying (by rw [hheader]; exact hk)
        (by rw [hheader]; exact hp) hq hlaw depth hrun
      rw [← hp] at hrun
      obtain ⟨-, -, v, hall, hgone, -⟩ := hparts.kept hpay hf depth u hrun
      rw [hp, hgrown] at hgone
      set o := u.bindings.heap.addr
      have hstart : ((w.noted (.released b)).withCount b 0).host = .released b :: w.host := rfl
      have hgone' : v.host = ([.takenBack (.heap o) b] ++
          .takenBack (.heap o) q :: (new ++ [.released b])) ++ w.host := by
        rw [hgone, hstart]
        simp
      refine .inl ⟨v, _, hall, hgone', [.takenBack _ b], new ++ [.released b], _, rfl, ?_⟩
      simp only [List.forall_mem_append, List.forall_mem_singleton]
      exact ⟨hne, hnew, not_false⟩

/-- The operation by which it is freed leaves none behind. -/
lemma Steady.freed_once (depth : Nat) : ∃ v new,
    ((Call.resizableFree b q).perform (E.host depth)).run w = .ok (.ok 0) v ∧
    v.host = new ++ w.host ∧ TakenBackOnce q new ∧ (v.memory.header b).payload = 0 := by
  obtain ⟨play, hhost, -⟩ := E.obeys_host depth
  have hturn := free_takesTurn play hw hb hk (.inr (.inl ⟨hk, hp.symm⟩))
  obtain ⟨B, hB⟩ : ∃ B, (ledger w.host).buffer b = B := ⟨_, rfl⟩
  have hdata : q = B.data := by
    rw [← hB, ← hp]
    exact (hw.sound.reported b hb).1
  rw [hB] at hturn
  obtain ⟨q', v, hrun, hbecomes, -⟩ := hturn
  have hevents : B.turn w.bindings.heap b q' (.free q) =
      ⟨.ok 0, [.discarded b q, .takenBack (.heap w.bindings.heap.addr) q], [.free]⟩ := if_neg hq
  rw [hevents] at hrun hbecomes
  rw [hhost]
  refine ⟨v, _, hrun, hbecomes.events, ⟨[.discarded b q], [], _, rfl, ?_⟩, ?_⟩
  · simp [Event.TakesAway]
  · rw [hbecomes.header, Buffer.after, if_pos hdata]

end Provided

end Environment

/-! ### Throughout a run -/

/-- The payload `q` of the resizable handle `b` is in custody in the state `w`, in a run that ends
up with the history `H`: at every boundary that comes, and in the end, if the handle is there and
its payload was not exchanged, no event took the block away, and at a boundary it is its payload
still; and when it is given back, this is done once. -/
structure InCustody (E : Environment) (b : Handle) (q : Addr) (w : World History) (H : History) :
    Prop extends Provided E b q w where
  lasts : ∀ s new, .boundary s :: new ++ w.host <:+ H →
    (∀ e ∈ new, ¬ e.Makes b ∧ ¬ e.Refits b) → b ∈ (ledger (new ++ w.host)).handles →
      (s.memory.header b).payload = q ∧ ∀ e ∈ new, ¬ e.TakesAway q
  ends : ∀ new, new ++ w.host = H → (∀ e ∈ new, ¬ e.Makes b ∧ ¬ e.Refits b) →
    b ∈ (ledger (new ++ w.host)).handles → ∀ e ∈ new, ¬ e.TakesAway q

/-- **Payloads are in custody.** At every boundary of every run, so is the payload of every
resizable handle that somebody has a reference to. -/
theorem payloads_in_custody (E : Environment) (depth : Nat) (p : Program) (w : World History) :
    Throughout (fun e past => ∀ s, e = .boundary s → ∀ b, (ledger past).Live b →
      (s.memory.header b).kind = .resizable → (s.memory.header b).payload ≠ 0 →
        InCustody E b (s.memory.header b).payload (s.resume past) (E.history depth p w))
      (E.history depth p w) := by
  rintro e past hsuffix s rfl b hb hk hq
  have hE : E.Hands fun _ _ => True := fun e w => (E.response e w).hands_any w
  have hlawful := E.lawful_history depth p w
  obtain ⟨hw, hm⟩ := Environment.steady_of_boundary (hlawful.suffix hsuffix)
  obtain ⟨v, st, hcourse, hhost⟩ :=
    Environment.exists_course (w := w) hE (p.hands_any _) depth
  have hheld : HeldBy (s.memory.header b) b (s.memory.header b).payload (s.resume past) :=
    .inl ⟨hb, .inl ⟨hb.1, rfl⟩, (hw.sound.reported b hb).1.symm⟩
  rw [hhost] at hsuffix hlawful ⊢
  obtain hstart | ⟨st', -, hfrom⟩ := hcourse.through hsuffix
  · exact absurd hstart w.opening_unmarked
  · have hprovided : Provided E b (s.memory.header b).payload (s.resume past) :=
      ⟨fun hsole hup => hw.released_once hb hk rfl hq hm hsole.2 hup,
        hw.freed_once hb hk rfl hq⟩
    refine ⟨hprovided, fun s' new hs' hno hmem => ?_, fun new hnew hno hmem => ?_⟩
    · obtain ⟨st'', hto, -⟩ := Environment.Course.onward hfrom hs'
      obtain ⟨new', hgrown, hkept⟩ := Environment.Course.held hto hheld hk hq
      obtain rfl : .boundary s' :: new = new' := List.append_cancel_right hgrown
      have hno' : ∀ e ∈ Event.boundary s' :: new, ¬ e.Makes b ∧ ¬ e.Refits b :=
        List.forall_mem_cons.2 ⟨⟨not_false, not_false⟩, hno⟩
      obtain ⟨hheld', hnone⟩ := hkept hno' hmem
      obtain ⟨hw', -⟩ := Environment.steady_of_boundary (hlawful.suffix hs')
      exact ⟨(hheld'.header hw' hk).2, (List.forall_mem_cons.1 hnone).2⟩
    · obtain ⟨new', hgrown, hkept⟩ := Environment.Course.held hfrom hheld hk hq
      have hsame : new ++ (s.resume past).host = new' ++ (s.resume past).host := hnew.trans hgrown
      obtain rfl := List.append_cancel_right hsame
      exact (hkept hno (hgrown ▸ hmem)).2

end CountedHeap
