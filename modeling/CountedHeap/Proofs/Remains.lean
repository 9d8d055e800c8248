/-
What is left of handles

The ledger knows what is out. Here is what a history says of the rest: which handles lost their last
reference, which blocks were given back, and what the headers of handles were earlier on. Memory
bears witness to all of it. A handle that is ending has the count zero; if the allocators never use
a block twice, the count stays zero after the handle is gone; and a header that was seen once has
its kind, its destructor and its allocator for as long as the handle is there.

* `Spent`: a handle whose last reference was given up;
* `retired`, `Environment.Retires`: blocks that were given back, and allocators that leave them be;
* `LeftAlone`: callers that leave the header of a spent handle be;
* `Seen`, `Header.Endures`: what a header keeps as long as its handle is there;
* `Environment.Recalled`: memory bears witness, and goes on to with every event.
-/
import CountedHeap.Proofs.Requests

namespace CountedHeap

open Memory (AgreeOn Apart)

/-! ### Spent handles -/

/-- An event by which the last reference of `b` is given up. -/
def Event.Spends (b : Handle) (past : History) : Event → Prop
  | .released c => c = b ∧ (ledger past).Sole b
  | _ => False

/-- An event by which a handle comes into being at `b`. -/
def Event.Makes (b : Handle) : Event → Prop
  | .made c _ _ _ => c = b
  | _ => False

/-- The last reference of the handle `b` was given up, and no other handle was made there since. -/
def Spent (b : Handle) : History → Prop
  | [] => False
  | e :: past => e.Spends b past ∨ ¬ e.Makes b ∧ Spent b past

instance (b : Handle) (past : History) (e : Event) : Decidable (e.Spends b past) := by
  cases e <;> unfold Event.Spends <;> infer_instance

instance (b : Handle) (e : Event) : Decidable (e.Makes b) := by
  cases e <;> unfold Event.Makes <;> infer_instance

instance Spent.decidable (b : Handle) : (H : History) → Decidable (Spent b H)
  | [] => inferInstanceAs (Decidable False)
  | e :: past =>
    haveI := Spent.decidable b past
    inferInstanceAs (Decidable (e.Spends b past ∨ ¬ e.Makes b ∧ Spent b past))

/-- The blocks that an event gives back, with the room they had. -/
def Event.retires (past : History) : Event → List (Addr × Nat)
  | .takenBack _ p => [(p, (ledger past).room p)]
  | _ => []

/-- The blocks that were given back, each with the room that it had. -/
def retired : History → List (Addr × Nat)
  | [] => []
  | e :: past => e.retires past ++ retired past

/-- Allocators that neither hand out nor overwrite what was given back to any of them. -/
structure Environment.Retires (E : Environment) : Prop where
  allocate_unused : ∀ s n (w : World History), (E.allocate s n w).addr ≠ 0 →
    ∀ r ∈ retired w.host, Apart r.1 r.2 (E.allocate s n w).addr (max n.toNat 1)
  allocate_kept : ∀ s n (w : World History), ∀ r ∈ retired w.host,
    w.memory.AgreeOn (E.allocate s n w).memory r.1 r.2
  reallocate_unused : ∀ s p n (w : World History), (ledger w.host).Holds s p →
    (E.reallocate s p n w).addr ≠ 0 →
    ∀ r ∈ retired w.host, Apart r.1 r.2 (E.reallocate s p n w).addr (max n.toNat 1)
  reallocate_kept : ∀ s p n (w : World History), (ledger w.host).Holds s p →
    ∀ r ∈ retired w.host, w.memory.AgreeOn (E.reallocate s p n w).memory r.1 r.2
  free_kept : ∀ s p (w : World History), (ledger w.host).Holds s p →
    ∀ r ∈ (p, (ledger w.host).room p) :: retired w.host, w.memory.AgreeOn (E.free s p w) r.1 r.2

/-- A caller who wrote to memory left the header of `b` as it was, if `b` was spent. -/
def Event.LeavesAlone (b : Handle) : Event → History → Prop
  | .boundary s', .poked _ _ :: .boundary s :: before =>
    Spent b before → s'.memory.header b = s.memory.header b
  | _, _ => True

/-- No caller wrote to the header of `b` once its last reference was given up. -/
def LeftAlone (b : Handle) : History → Prop
  | [] => True
  | e :: past => e.LeavesAlone b past ∧ LeftAlone b past

instance (b : Handle) (e : Event) (past : History) : Decidable (e.LeavesAlone b past) := by
  unfold Event.LeavesAlone
  split <;> infer_instance

instance LeftAlone.decidable (b : Handle) : (H : History) → Decidable (LeftAlone b H)
  | [] => inferInstanceAs (Decidable True)
  | e :: past =>
    haveI := LeftAlone.decidable b past
    inferInstanceAs (Decidable (e.LeavesAlone b past ∧ LeftAlone b past))

/-! ### Headers that were seen -/

/-- What a header keeps as long as its handle is there. A handle of fixed size keeps its size as
well, and its payload unless it loses sight of it. -/
structure Header.Endures (d d' : Header) : Prop where
  kind : d'.kind = d.kind
  destructor : d'.destructor = d.destructor
  info : d'.info = d.info
  external : d'.external = d.external
  size : d.kind ≠ .resizable → d'.size = d.size
  payload : d.kind ≠ .resizable → d'.payload = d.payload ∨ d'.payload = 0

namespace Header.Endures

variable {d d' d'' : Header}

lemma refl (d : Header) : d.Endures d := ⟨rfl, rfl, rfl, rfl, fun _ => rfl, fun _ => .inl rfl⟩

lemma trans (h : d.Endures d') (h' : d'.Endures d'') : d.Endures d'' := by
  refine ⟨h'.kind.trans h.kind, h'.destructor.trans h.destructor, h'.info.trans h.info,
    h'.external.trans h.external, fun hk => ?_, fun hk => ?_⟩
  · exact (h'.size (h.kind ▸ hk)).trans (h.size hk)
  · rcases h'.payload (h.kind ▸ hk) with he | h0
    · exact he ▸ h.payload hk
    · exact .inr h0

/-- The count is not for keeps. -/
lemma recount (d : Header) (v : Word) : d.Endures { d with refcount := v } :=
  ⟨rfl, rfl, rfl, rfl, fun _ => rfl, fun _ => .inl rfl⟩

/-- A resizable handle may get any payload. -/
lemma refill (hk : d.kind = .resizable) (p : Addr) (n : Word) :
    d.Endures { d with payload := p, size := n } :=
  ⟨rfl, rfl, rfl, rfl, fun h => absurd hk h, fun h => absurd hk h⟩

/-- Every handle may lose sight of its payload. -/
lemma forget (d : Header) : d.Endures { d with payload := 0 } :=
  ⟨rfl, rfl, rfl, rfl, fun _ => rfl, fun _ => .inr rfl⟩

end Header.Endures

/-- An event after which `b` is not the handle any more that it was. -/
def Event.Disposes (b : Handle) : Event → Prop
  | .made c _ _ _ => c = b
  | .takenBack _ p => p = b
  | .resized _ p _ q => p = b ∧ q ≠ 0
  | .abandoned c => c = b
  | .started => True
  | _ => False

/-- A boundary at which the header of the handle `b` is `d`. -/
def Event.Shows (b : Handle) (d : Header) (past : History) : Event → Prop
  | .boundary s => b ∈ (ledger past).handles ∧ s.memory.header b = d
  | _ => False

/-- The header of `b` was `d` at some boundary, and `b` is the same handle still. -/
def Seen (b : Handle) (d : Header) : History → Prop
  | [] => False
  | e :: past => e.Shows b d past ∨ ¬ e.Disposes b ∧ Seen b d past

/-- Events that tell nothing of handles that are spent or made, of blocks that are given back, and
of headers. -/
def Event.Quiet : Event → Prop
  | .released _ | .takenBack .. | .made .. | .boundary _ => False
  | _ => True

namespace Event.Quiet

variable {e : Event} {H : History}

lemma spends (h : e.Quiet) (c : Handle) : ¬ e.Spends c H := by
  cases e <;> first | exact not_false | exact h.elim

lemma shows (h : e.Quiet) (c : Handle) (d : Header) : ¬ e.Shows c d H := by
  cases e <;> first | exact not_false | exact h.elim

lemma retires (h : e.Quiet) : e.retires H = [] := by
  cases e <;> first | rfl | exact h.elim

end Event.Quiet

/-- What is a handle stays one until it is disposed of. -/
lemma mem_handles_cons {b : Handle} {e : Event} {H : History} (he : ¬ e.Disposes b)
    (hb : b ∈ (ledger H).handles) : b ∈ (ledger (e :: H)).handles := by
  rw [ledger_cons]
  cases e with
  | given s n p =>
    by_cases hp : p = 0
    · simpa only [Ledger.after, hp, if_true] using hb
    · simpa only [Ledger.after, hp, if_false, Ledger.grant] using hb
  | resized s p n q =>
    by_cases hq : q = 0
    · simpa only [Ledger.after, hq, if_true] using hb
    · simp only [Ledger.after, hq, if_false]
      exact Finset.mem_erase.2 ⟨fun hbp => he ⟨hbp.symm, hq⟩, hb⟩
  | takenBack s p => exact Finset.mem_erase.2 ⟨fun hbp => he (Eq.symm hbp), hb⟩
  | abandoned c => exact Finset.mem_erase.2 ⟨fun hbc => he (Eq.symm hbc), hb⟩
  | made c own data size => exact Finset.mem_insert_of_mem hb
  | started => exact absurd trivial he
  | _ => exact hb

lemma Seen.mem_handles {b : Handle} {d : Header} {H : History} (h : Seen b d H) :
    b ∈ (ledger H).handles := by
  induction H with
  | nil => exact h.elim
  | cons e past ih =>
    rcases h with h | ⟨he, h⟩
    · cases e with
      | boundary s => exact h.1
      | _ => exact h.elim
    · exact mem_handles_cons he (ih h)

/-! ### What memory has of it -/

namespace Environment

/-- The handles whose headers matter: those that are there, and those that are spent, if the
allocators leave them be. -/
def Keeps (E : Environment) (H : History) (b : Handle) : Prop :=
  b ∈ (ledger H).handles ∨ E.Retires ∧ Spent b H

/-- Memory bears witness to what a history says of handles that are spent and of headers that were
seen. -/
structure Recalled (E : Environment) (H : History) (m : Memory) : Prop where
  /-- A spent handle that is there still is ending. -/
  ending : ∀ b, Spent b H → b ∈ (ledger H).handles →
    (ledger H).refs b = 0 ∧ (m.header b).refcount = 0
  seen : ∀ b d, Seen b d H → d.Endures (m.header b)
  unused : E.Retires → ∀ r ∈ retired H, r.1 ≠ 0 ∧ r.1.toNat + r.2 ≤ UInt64.size ∧
    ∀ q ∈ (ledger H).blocks, Apart r.1 r.2 q ((ledger H).room q)
  buried : E.Retires → ∀ b, Spent b H → b ∉ (ledger H).handles →
    ∃ n, 56 ≤ n ∧ (b, n) ∈ retired H
  gone : E.Retires → ∀ b, Spent b H → b ∉ (ledger H).handles → LeftAlone b H →
    (m.header b).refcount = 0

namespace Recalled

variable {E : Environment} {H : History} {m m' : Memory} {b c : Handle} {p : Addr} {s : Source}
  {o : Addr} {w : World History}

lemma nil : E.Recalled [] m :=
  ⟨fun _ h => h.elim, fun _ _ h => h.elim, fun _ _ h => absurd h List.not_mem_nil,
    fun _ _ h => h.elim, fun _ _ h => h.elim⟩

/-- Who has references is not spent. -/
lemma not_spent (h : E.Recalled H m) (hb : (ledger H).Live b) : ¬ Spent b H := by
  intro hs
  have h0 := (h.ending b hs hb.1).1
  have h1 := hb.2
  omega

/-- What is spent and gone is none of the blocks that are out. -/
lemma not_mem_blocks (h : E.Recalled H m) (hL : (ledger H).Laid o) (hE : E.Retires)
    (hs : Spent c H) (hc : c ∉ (ledger H).handles) : c ∉ (ledger H).blocks := by
  intro hout
  obtain ⟨n, hn, hr⟩ := h.buried hE c hs hc
  have hd := (h.unused hE _ hr).2.2 c hout
  have h1 := (hL.fits c hout).2.1
  unfold Apart at hd
  simp only at hd
  omega

/-- Memory may change, as long as headers keep what was seen of them. Only handles with references
may have anything changed at all. -/
lemma alter (h : E.Recalled H m) (hm : ∀ c, E.Keeps H c → m'.header c = m.header c ∨
    (ledger H).Live c ∧ ∀ d, Seen c d H → d.Endures (m.header c) → d.Endures (m'.header c)) :
    E.Recalled H m' := by
  refine ⟨fun c hs hc => ?_, fun c d hd => ?_, h.unused, h.buried, fun hE c hs hc halone => ?_⟩
  · have hending := h.ending c hs hc
    rcases hm c (.inl hc) with he | ⟨hlive, -⟩
    · rwa [he]
    · exact absurd hs (h.not_spent hlive)
  · have hseen := h.seen c d hd
    rcases hm c (.inl hd.mem_handles) with he | ⟨-, hkept⟩
    · rwa [he]
    · exact hkept d hd hseen
  · rcases hm c (.inr ⟨hE, hs⟩) with he | ⟨hlive, -⟩
    · rw [he]
      exact h.gone hE c hs hc halone
    · exact absurd hlive.1 hc

/-- The same where only one header changes. -/
lemma alter_one (h : E.Recalled H m) (hb : (ledger H).Live b)
    (hself : (m.header b).Endures (m'.header b))
    (hbeside : ∀ c, E.Keeps H c → c ≠ b → m'.header c = m.header c) : E.Recalled H m' := by
  refine h.alter fun c hc => ?_
  by_cases hcb : c = b
  · refine .inr ⟨hcb ▸ hb, fun d _ hd => ?_⟩
    rw [hcb] at hd ⊢
    exact hd.trans hself
  · exact .inl (hbeside c hc hcb)

/-- An event that spends no handle and gives nothing back. Blocks that it brings lie where nothing
was given back, and the handles that are spent are none the better for it. -/
lemma cons (h : E.Recalled H m) {e : Event} (hspends : ∀ c, ¬ e.Spends c H)
    (hshows : ∀ c d, ¬ e.Shows c d H) (hretires : e.retires H = [])
    (hblocks : E.Retires → ∀ q ∈ ((ledger H).after e).blocks,
      q ∈ (ledger H).blocks ∧ ((ledger H).after e).room q = (ledger H).room q ∨
        ∀ r ∈ retired H, Apart r.1 r.2 q (((ledger H).after e).room q))
    (hhandles : ∀ c, Spent c H → ¬ e.Makes c →
      (c ∈ ((ledger H).after e).handles ↔ c ∈ (ledger H).handles))
    (hrefs : ∀ c ∈ (ledger H).handles, (ledger H).refs c = 0 → ¬ e.Makes c →
      ((ledger H).after e).refs c = 0) : E.Recalled (e :: H) m := by
  have hspent : ∀ c, Spent c (e :: H) → ¬ e.Makes c ∧ Spent c H := fun c hc =>
    hc.resolve_left (hspends c)
  have hretired : retired (e :: H) = retired H := by
    rw [retired, hretires, List.nil_append]
  refine ⟨fun c hs hc => ?_, fun c d hd => ?_, fun hE r hr => ?_, fun hE c hs hc => ?_,
    fun hE c hs hc halone => ?_⟩
  · obtain ⟨hnew, hs⟩ := hspent c hs
    have hc' : c ∈ (ledger H).handles := (hhandles c hs hnew).1 hc
    obtain ⟨h0, hword⟩ := h.ending c hs hc'
    exact ⟨hrefs c hc' h0 hnew, hword⟩
  · exact h.seen c d (hd.resolve_left (hshows c d)).2
  · rw [hretired] at hr
    obtain ⟨h0, hfit, hapart⟩ := h.unused hE r hr
    refine ⟨h0, hfit, fun q hq => ?_⟩
    rcases hblocks hE q hq with ⟨hq', hroom⟩ | hnew
    · rw [ledger_cons, hroom]
      exact hapart q hq'
    · exact hnew r hr
  · obtain ⟨hnew, hs⟩ := hspent c hs
    rw [hretired]
    exact h.buried hE c hs fun hc' => hc ((hhandles c hs hnew).2 hc')
  · obtain ⟨hnew, hs⟩ := hspent c hs
    exact h.gone hE c hs (fun hc' => hc ((hhandles c hs hnew).2 hc')) halone.2

/-- A line in the history that means nothing to blocks, handles and references. -/
lemma noted (h : E.Recalled H m) {e : Event} (he : e.Quiet)
    (hL : ∃ data size, (ledger H).after e = { ledger H with data := data, size := size }) :
    E.Recalled (e :: H) m := by
  obtain ⟨data, size, hL⟩ := hL
  refine h.cons he.spends he.shows he.retires (fun _ q hq => .inl ?_) (fun c _ _ => by rw [hL])
    fun c _ h0 _ => ?_
  · rw [hL] at hq ⊢
    exact ⟨hq, rfl⟩
  · rw [hL]
    exact h0

/-- A block is given out, maybe in the place of another, where nothing was given back. -/
lemma granted (h : E.Recalled H m) {e : Event} (hquiet : e.Quiet) {L : Ledger} {n : Word}
    (he : (ledger H).after e = L.grant s n p) (hblocks : L.blocks ⊆ (ledger H).blocks)
    (hroom : L.room = (ledger H).room) (hhandles : L.handles = (ledger H).handles)
    (hrefs : L.refs = (ledger H).refs) (hp : p ∉ L.blocks)
    (hunused : E.Retires → ∀ r ∈ retired H, Apart r.1 r.2 p (max n.toNat 1)) :
    E.Recalled (e :: H) m := by
  refine h.cons hquiet.spends hquiet.shows hquiet.retires (fun hE q hq => ?_) (fun c _ _ => ?_)
    fun c _ h0 _ => ?_
  · rw [he] at hq ⊢
    rcases Finset.mem_insert.1 hq with rfl | hq
    · refine .inr ?_
      simpa only [Ledger.grant, Function.update_self] using hunused hE
    · have hne : q ≠ p := fun hqp => hp (hqp ▸ hq)
      exact .inl ⟨hblocks hq, (Function.update_of_ne hne _ _).trans (congrFun hroom q)⟩
  · rw [he, Ledger.grant, hhandles]
  · rw [he, Ledger.grant, hrefs]
    exact h0

/-- A block is given back. If it was a spent handle, its header is the last that was seen of it. -/
lemma takenBack (h : E.Recalled H m) (hL : (ledger H).Laid o) (hp : p ∈ (ledger H).blocks)
    (hroom : p ∈ (ledger H).handles → 56 ≤ (ledger H).room p)
    (hm : ∀ c, E.Keeps H c → c ≠ p → m'.header c = m.header c)
    (hself : E.Retires → p ∈ (ledger H).handles → m'.header p = m.header p) :
    E.Recalled (.takenBack s p :: H) m' := by
  have hspent : ∀ c, Spent c (.takenBack s p :: H) → Spent c H := fun c hc =>
    (hc.resolve_left not_false).2
  have hleft : ∀ c, c ∉ (ledger (.takenBack s p :: H)).handles →
      c ∉ (ledger H).handles ∨ c = p ∧ p ∈ (ledger H).handles := by
    intro c hc
    by_cases hcp : c = p
    · by_cases hin : p ∈ (ledger H).handles
      · exact .inr ⟨hcp, hin⟩
      · exact .inl (hcp ▸ hin)
    · exact .inl fun hin => hc (Finset.mem_erase.2 ⟨hcp, hin⟩)
  have hgone : E.Retires → ∀ c ∉ (ledger H).handles, Spent c H → c ≠ p := fun hE c hc hs he =>
    h.not_mem_blocks hL hE hs hc (he ▸ hp)
  refine ⟨fun c hs hc => ?_, fun c d hd => ?_, fun hE r hr => ?_, fun hE c hs hc => ?_,
    fun hE c hs hc halone => ?_⟩
  · obtain ⟨hne, hc'⟩ := Finset.mem_erase.1 hc
    rw [hm c (.inl hc') hne]
    exact h.ending c (hspent c hs) hc'
  · obtain ⟨hne, hd⟩ := hd.resolve_left not_false
    rw [hm c (.inl hd.mem_handles) (Ne.symm hne)]
    exact h.seen c d hd
  · rcases List.mem_cons.1 hr with rfl | hr
    · refine ⟨(hL.fits p hp).1, (hL.fits p hp).2.2, fun q hq => ?_⟩
      obtain ⟨hne, hq⟩ := Finset.mem_erase.1 hq
      exact hL.apart p hp q hq (Ne.symm hne)
    · obtain ⟨h0, hfit, hapart⟩ := h.unused hE r hr
      exact ⟨h0, hfit, fun q hq => hapart q (Finset.mem_of_mem_erase hq)⟩
  · rcases hleft c hc with hc' | ⟨rfl, hin⟩
    · obtain ⟨n, hn, hr⟩ := h.buried hE c (hspent c hs) hc'
      exact ⟨n, hn, List.mem_cons_of_mem _ hr⟩
    · exact ⟨_, hroom hin, List.mem_cons_self⟩
  · rcases hleft c hc with hc' | ⟨rfl, hin⟩
    · rw [hm c (.inr ⟨hE, hspent c hs⟩) (hgone hE c hc' (hspent c hs))]
      exact h.gone hE c (hspent c hs) hc' halone.2
    · rw [hself hE hin]
      exact (h.ending c (hspent c hs) hin).2

/-- A header stays when a block goes, if the block is another one or is not used again. -/
lemma header_freed (h : E.Recalled w.host w.memory) (hL : (ledger w.host).Laid o)
    (hroom : ∀ b ∈ (ledger w.host).handles,
      b ∈ (ledger w.host).blocks ∧ 56 ≤ (ledger w.host).room b)
    (hp : (ledger w.host).Holds s p) (hc : E.Keeps w.host c) (hne : c ≠ p ∨ E.Retires) :
    (E.freed s p w).memory.header c = w.memory.header c := by
  by_cases hin : c ∈ (ledger w.host).handles
  · obtain ⟨hout, hroomc⟩ := hroom c hin
    have hfit := (hL.fits c hout).2.2
    refine Memory.header_congr (AgreeOn.mono (n := (ledger w.host).room c) ?_ hroomc) (by omega)
    by_cases hcp : c = p
    · subst hcp
      have hE := hne.resolve_left (not_not.2 rfl)
      exact hE.free_kept s c w hp _ List.mem_cons_self
    · exact E.free_frame s p w hp c hout hcp
  · obtain ⟨hE, hs⟩ := hc.resolve_left hin
    obtain ⟨n, hn, hr⟩ := h.buried hE c hs hin
    have hfit : c.toNat + n ≤ UInt64.size := (h.unused hE _ hr).2.1
    have hkept := hE.free_kept s p w hp _ (List.mem_cons_of_mem _ hr)
    exact Memory.header_congr (hkept.mono hn) (by omega)

/-- Nothing is forgotten when an allocator takes a block back. -/
lemma freed (h : E.Recalled w.host w.memory) (hL : (ledger w.host).Laid o)
    (hroom : ∀ b ∈ (ledger w.host).handles,
      b ∈ (ledger w.host).blocks ∧ 56 ≤ (ledger w.host).room b)
    (hp : (ledger w.host).Holds s p) :
    E.Recalled (E.freed s p w).host (E.freed s p w).memory :=
  h.takenBack hL hp.1 (fun hin => (hroom p hin).2)
    (fun _ hc hne => h.header_freed hL hroom hp hc (.inl hne))
    fun hE hin => h.header_freed hL hroom hp (.inl hin) (.inr hE)

/-- A handle is made. What was spent in its place before is past. -/
lemma made (h : E.Recalled H m) (b : Handle) (own : Bool) (data : Addr) (size : Word) :
    E.Recalled (.made b own data size :: H) m := by
  refine h.cons (fun _ => not_false) (fun _ _ => not_false) rfl (fun _ q hq => .inl ⟨hq, rfl⟩)
    (fun c _ hne => ?_) fun c _ h0 hne => ?_
  · have hcb : c ≠ b := Ne.symm hne
    simp [Ledger.after, Ledger.make, hcb]
  · have hcb : c ≠ b := Ne.symm hne
    exact (Function.update_of_ne hcb _ _).trans h0

/-- Another reference is taken. -/
lemma acquired (h : E.Recalled H m) (hb : (ledger H).Live b) : E.Recalled (.acquired b :: H) m := by
  refine h.cons (fun _ => not_false) (fun _ _ => not_false) rfl (fun _ q hq => .inl ⟨hq, rfl⟩)
    (fun _ _ _ => Iff.rfl) fun c hc h0 _ => ?_
  have hcb : c ≠ b := Ledger.Dying.ne ⟨hc, h0⟩ hb
  exact (Function.update_of_ne hcb _ _).trans h0

/-- A handle is ended by the holder of its only reference, who does not give it up. -/
lemma ended (h : E.Recalled H m) (b : Handle) : E.Recalled (.ending b :: H) m := by
  refine h.cons (fun _ => not_false) (fun _ _ => not_false) rfl (fun _ q hq => .inl ⟨hq, rfl⟩)
    (fun _ _ _ => Iff.rfl) fun c _ h0 _ => ?_
  by_cases hcb : c = b
  · simp [Ledger.after, Ledger.setRefs, hcb]
  · exact (Function.update_of_ne hcb _ _).trans h0

/-- A handle is a mere block again. -/
lemma abandoned (h : E.Recalled H m) (hb : (ledger H).Live b) :
    E.Recalled (.abandoned b :: H) m := by
  refine h.cons (fun _ => not_false) (fun _ _ => not_false) rfl (fun _ q hq => .inl ⟨hq, rfl⟩)
    (fun c hs _ => ?_) fun _ _ h0 _ => h0
  have hcb : c ≠ b := fun he => h.not_spent hb (he ▸ hs)
  simp [Ledger.after, Ledger.abandon, hcb]

/-- The runtime is started afresh, while nothing is out. -/
lemma started (h : E.Recalled H m) (hempty : (ledger H).handles = ∅) :
    E.Recalled (.started :: H) m := by
  refine h.cons (fun _ => not_false) (fun _ _ => not_false) rfl
    (fun _ q hq => absurd hq (Finset.notMem_empty q)) (fun c _ _ => ?_) fun _ _ _ _ => rfl
  rw [hempty]
  rfl

/-- A reference is about to be given up. The last one leaves a count of zero behind. -/
lemma released (h : E.Recalled H m) (hb : (ledger H).Live b)
    (hword : (ledger H).Sole b → (m.header b).refcount = 0) :
    E.Recalled (.released b :: H) m := by
  have hspent : ∀ c, Spent c (.released b :: H) → c = b ∧ (ledger H).Sole b ∨ Spent c H := by
    rintro c (⟨rfl, hsole⟩ | ⟨-, hs⟩)
    · exact .inl ⟨rfl, hsole⟩
    · exact .inr hs
  refine ⟨fun c hs hc => ?_, fun c d hd => h.seen c d (hd.resolve_left not_false).2, h.unused,
    fun hE c hs hc => ?_, fun hE c hs hc halone => ?_⟩
  · rw [ledger_cons]
    rcases hspent c hs with ⟨rfl, hsole⟩ | hs
    · exact ⟨by simp [Ledger.after, Ledger.setRefs, hsole.2], hword hsole⟩
    · obtain ⟨h0, hcount⟩ := h.ending c hs hc
      have hne : c ≠ b := fun he => h.not_spent hb (he ▸ hs)
      exact ⟨(Function.update_of_ne hne _ _).trans h0, hcount⟩
  · rcases hspent c hs with ⟨rfl, -⟩ | hs
    · exact absurd hb.1 hc
    · exact h.buried hE c hs hc
  · rcases hspent c hs with ⟨rfl, -⟩ | hs
    · exact absurd hb.1 hc
    · exact h.gone hE c hs hc halone.2

/-- The state is written down. Since the last event, callers may have written to memory. -/
lemma marked (h : E.Recalled H m) {st : Snapshot} (hm : st.memory = m')
    (hheader : ∀ c ∈ (ledger H).handles, m'.header c = m.header c)
    (hspent : ∀ c, Spent c H → LeftAlone c (.boundary st :: H) → m'.header c = m.header c) :
    E.Recalled (.boundary st :: H) m' := by
  have hold : ∀ c, Spent c (.boundary st :: H) → Spent c H := fun c hc =>
    (hc.resolve_left not_false).2
  refine ⟨fun c hs hc => ?_, fun c d hd => ?_, h.unused, fun hE c hs hc => ?_,
    fun hE c hs hc halone => ?_⟩
  · rw [hheader c hc]
    exact h.ending c (hold c hs) hc
  · rcases hd with ⟨-, rfl⟩ | ⟨-, hd⟩
    · rw [hm]
      exact Header.Endures.refl _
    · rw [hheader c hd.mem_handles]
      exact h.seen c d hd
  · exact h.buried hE c (hold c hs) hc
  · rw [hspent c (hold c hs) halone]
    exact h.gone hE c (hold c hs) hc halone.2

end Recalled

end Environment

end CountedHeap
