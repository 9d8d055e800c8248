/-
Every reference is somebody's

A reference belongs to a `Ref`, or to somebody who holds it by hand. `Holdings` says who has which,
and `Held` how this changes with what happens: a clone is owned like its original, a reference that
was taken by hand is held by hand, and whoever gives one up must have it. Between two events a
`Ref` may be turned into a bare handle, and a handle that is held by hand into a `Ref`, as often as
anyone likes. None of this is written to memory but the count, and the count is always the number
of all references to the handle.

Callers may do nothing but count here. They may begin anywhere, with any references that are there
already in anyone's hands.

* `Holdings`, `Held`: who has which references, after which history;
* `Held.cover`: all of them together are what the ledger counts;
* `Accounted`: what they mean between two steps;
* `references_owned`: so it is throughout every run of such callers, and nothing is left in the end;
* `references_owned_chain`: a handle that owns another, and the references to both.
-/
import Mathlib.Algebra.BigOperators.Group.Finset.Piecewise
import CountedHeap.Proofs.Cascade
import CountedHeap.Proofs.Counting
import CountedHeap.Proofs.Swapping

namespace CountedHeap

/-! ### Who has references -/

/-- The references that somebody has: those that values of type `Ref` own, and those that are held
by hand. -/
structure Holdings where
  owners : Multiset Ref
  byHand : Multiset Handle

@[simp] lemma Ref.handle_ofHandle (b : Handle) : (Ref.ofHandle b).handle = b := rfl

namespace Holdings

/-- Nobody has any. -/
def none : Holdings := ⟨0, 0⟩

variable (h : Holdings) (b c : Handle) (r : Ref)

/-- How many references to the handle there are. -/
def total : Nat := h.owners.count (.ofHandle b) + h.byHand.count b

/-- Another `Ref`. -/
def own : Holdings := { h with owners := r ::ₘ h.owners }

/-- A `Ref` less. -/
def disown : Holdings := { h with owners := h.owners.erase r }

/-- Another reference that is held by hand. -/
def take : Holdings := { h with byHand := b ::ₘ h.byHand }

/-- A reference less that is held by hand. -/
def give : Holdings := { h with byHand := h.byHand.erase b }

variable {h b c r}

lemma total_own : (h.own r).total c = h.total c + if c = r.handle then 1 else 0 := by
  have hr : Ref.ofHandle c = r ↔ c = r.handle := by
    cases r
    simp [Ref.ofHandle]
  simp only [total, own, Multiset.count_cons, hr]
  omega

lemma total_take : (h.take b).total c = h.total c + if c = b then 1 else 0 := by
  simp only [total, take, Multiset.count_cons]
  omega

/-- What was owned and is given up is what is missing. -/
lemma total_disown (hr : r ∈ h.owners) :
    (h.disown r).total c + (if c = r.handle then 1 else 0) = h.total c := by
  rw [← total_own]
  simp only [own, disown, Multiset.cons_erase hr]

lemma total_give (hb : b ∈ h.byHand) :
    (h.give b).total c + (if c = b then 1 else 0) = h.total c := by
  rw [← total_take]
  simp only [take, give, Multiset.cons_erase hb]

/-- Whoever has a reference is counted. -/
lemma one_le_total : 1 ≤ h.total b ↔ .ofHandle b ∈ h.owners ∨ b ∈ h.byHand := by
  rw [← Multiset.count_pos, ← Multiset.count_pos (a := b), total]
  omega

end Holdings

/-- Events that no reference has a part in. -/
def Event.Unrelated : Event → Prop
  | .given .. | .takenBack .. | .destructor .. | .finalizer .. | .closure .. | .closureDropped _
  | .poked .. | .boundary _ => True
  | _ => False

/-- Who may have which references after a history, if it was `h₀` who had them in the beginning. -/
inductive Held (start : History) (h₀ : Holdings) : History → Holdings → Prop where
  | now : Held start h₀ start h₀
  /-- A new handle comes as a `Ref`. -/
  | made {past : History} {h : Holdings} (hh : Held start h₀ past h) (b : Handle) (own : Bool)
      (data : Addr) (size : Word) :
      Held start h₀ (.made b own data size :: past) (h.own (.ofHandle b))
  | cloned {past : History} {h : Holdings} (hh : Held start h₀ past h) {r : Ref}
      (hr : r ∈ h.owners) : Held start h₀ (.acquired r.handle :: past) (h.own r)
  | dropped {past : History} {h : Holdings} (hh : Held start h₀ past h) {r : Ref}
      (hr : r ∈ h.owners) : Held start h₀ (.released r.handle :: past) (h.disown r)
  /-- A reference is taken by hand, while there is one. -/
  | acquired {past : History} {h : Holdings} (hh : Held start h₀ past h) {b : Handle}
      (hb : 1 ≤ h.total b) : Held start h₀ (.acquired b :: past) (h.take b)
  | released {past : History} {h : Holdings} (hh : Held start h₀ past h) {b : Handle}
      (hb : b ∈ h.byHand) : Held start h₀ (.released b :: past) (h.give b)
  /-- A `Ref` becomes a bare handle, which happens unseen. -/
  | intoHandle {past : History} {h : Holdings} (hh : Held start h₀ past h) {r : Ref}
      (hr : r ∈ h.owners) : Held start h₀ past ((h.disown r).take r.intoHandle)
  | ofHandle {past : History} {h : Holdings} (hh : Held start h₀ past h) {b : Handle}
      (hb : b ∈ h.byHand) : Held start h₀ past ((h.give b).own (.ofHandle b))
  | unrelated {past : History} {h : Holdings} (hh : Held start h₀ past h) {e : Event}
      (he : e.Unrelated) : Held start h₀ (e :: past) h

/-! ### What the ledger counts -/

namespace Ledger

variable {L : Ledger} {b c : Handle}

/-- The references to a handle that is there. -/
def count (L : Ledger) (b : Handle) : Nat := if b ∈ L.handles then L.refs b else 0

lemma count_of_mem (hb : b ∈ L.handles) : L.count b = L.refs b := if_pos hb

lemma one_le_count : 1 ≤ L.count b ↔ L.Live b := by
  rw [count, Live]
  split <;> simp_all

lemma count_make (hb : b ∉ L.handles) (own : Bool) (data : Addr) (size : Word) :
    (L.make b own data size).count c = L.count c + if c = b then 1 else 0 := by
  by_cases hc : c = b
  · subst hc
    simp [count, make, hb]
  · simp [count, make, hc]

lemma count_setRefs (hb : b ∈ L.handles) (k : Nat) :
    (L.setRefs b k).count c = if c = b then k else L.count c := by
  by_cases hc : c = b
  · subst hc
    simp [count, setRefs, hb]
  · simp [count, setRefs, hc]

/-- Who takes a reference has one more. -/
lemma count_acquired (hb : L.Live b) :
    (L.setRefs b (L.refs b + 1)).count c = L.count c + if c = b then 1 else 0 := by
  rw [count_setRefs hb.1]
  by_cases hc : c = b
  · rw [if_pos hc, if_pos hc, hc, count_of_mem hb.1]
  · rw [if_neg hc, if_neg hc, Nat.add_zero]

/-- Who gives one up had one more. -/
lemma count_released (hb : L.Live b) :
    (L.setRefs b (L.refs b - 1)).count c + (if c = b then 1 else 0) = L.count c := by
  have h1 := hb.2
  rw [count_setRefs hb.1]
  by_cases hc : c = b
  · rw [if_pos hc, if_pos hc, hc, count_of_mem hb.1]
    omega
  · rw [if_neg hc, if_neg hc, Nat.add_zero]

/-- A block that goes takes no references with it. -/
lemma count_without (hb : b ∈ L.handles → L.refs b = 0) : (L.without b).count c = L.count c := by
  by_cases hc : c = b
  · subst hc
    by_cases hin : c ∈ L.handles <;> simp [count, without, hin, hb]
  · simp [count, without, hc]

end Ledger

/-- The references that somebody has are those that the ledger counts. -/
def Holdings.Cover (h : Holdings) (L : Ledger) : Prop := ∀ b, h.total b = L.count b

namespace Holdings.Cover

variable {h : Holdings} {L : Ledger} {b : Handle}

/-- A handle is alive as long as somebody has a reference to it. -/
lemma live (hcover : h.Cover L) : 1 ≤ h.total b ↔ L.Live b := by
  rw [hcover b, Ledger.one_le_count]

lemma refs (hcover : h.Cover L) (hb : L.Live b) : h.total b = L.refs b := by
  rw [hcover b, Ledger.count_of_mem hb.1]

end Holdings.Cover

/-- All references can be held by hand. -/
lemma Ledger.exists_cover (L : Ledger) : ∃ h : Holdings, h.Cover L := by
  refine ⟨⟨0, ∑ c ∈ L.handles, Multiset.replicate (L.refs c) c⟩, fun b => ?_⟩
  simp only [Holdings.total, Multiset.count_zero, Multiset.count_sum', Multiset.count_replicate,
    Finset.sum_ite_eq', Nat.zero_add]
  rfl

namespace Held

variable {E : Environment} {start : World History} {past H : History} {h₀ h : Holdings}
  {b : Handle}

lemma suffix {start : History} (hh : Held start h₀ H h) : start <:+ H := by
  induction hh with
  | now => exact List.suffix_rfl
  | intoHandle _ _ ih => exact ih
  | ofHandle _ _ ih => exact ih
  | _ => exact List.IsSuffix.trans ‹_› (List.suffix_cons _ _)

/-- An event that no reference has a part in changes no count. -/
lemma count_unrelated {e : Event} (he : e.Unrelated) (hlaw : E.Lawful e past) :
    (ledger (e :: past)).count b = (ledger past).count b := by
  cases e with
  | given s n p =>
    rw [ledger_cons, Ledger.after]
    split <;> rfl
  | takenBack s p => exact Ledger.count_without hlaw.2
  | resized | made | acquired | released | ending | abandoned | refilled | discarded | started =>
    exact he.elim
  | _ => rfl

/-- The references that somebody has are those that the ledger counts, and nobody has one to a
handle that is gone. -/
lemma cover (hh : Held start.host h₀ H h) (h₀cover : h₀.Cover (ledger start.host))
    (htame : TameSince start H) (hlaw : Throughout E.Lawful H) : h.Cover (ledger H) := by
  intro b
  induction hh with
  | now => exact h₀cover b
  | intoHandle hh hr ih =>
    rw [Holdings.total_take, Ref.intoHandle, Holdings.total_disown hr]
    exact ih htame hlaw
  | ofHandle hh hb ih =>
    rw [Holdings.total_own, Ref.handle_ofHandle, Holdings.total_give hb]
    exact ih htame hlaw
  | made hh c own data size ih =>
    obtain ⟨hpast, hnew⟩ := htame.tame hh.suffix
    rw [Holdings.total_own, Ref.handle_ofHandle, ih hpast (Throughout.cons_iff.1 hlaw).2]
    exact (Ledger.count_make hnew own data size).symm
  | @cloned past h hh r hr ih =>
    obtain ⟨hpast, -⟩ := htame.tame hh.suffix
    obtain ⟨hlive, hlaw⟩ := Throughout.cons_iff.1 hlaw
    rw [Holdings.total_own, ih hpast hlaw]
    exact (Ledger.count_acquired hlive).symm
  | @acquired past h hh c hc ih =>
    obtain ⟨hpast, -⟩ := htame.tame hh.suffix
    obtain ⟨hlive, hlaw⟩ := Throughout.cons_iff.1 hlaw
    rw [Holdings.total_take, ih hpast hlaw]
    exact (Ledger.count_acquired hlive).symm
  | @dropped past h hh r hr ih =>
    obtain ⟨hpast, -⟩ := htame.tame hh.suffix
    obtain ⟨hlive, hlaw⟩ := Throughout.cons_iff.1 hlaw
    have hless := (Holdings.total_disown hr).trans (ih hpast hlaw)
    exact Nat.add_right_cancel (hless.trans (Ledger.count_released hlive).symm)
  | @released past h hh c hc ih =>
    obtain ⟨hpast, -⟩ := htame.tame hh.suffix
    obtain ⟨hlive, hlaw⟩ := Throughout.cons_iff.1 hlaw
    have hless := (Holdings.total_give hc).trans (ih hpast hlaw)
    exact Nat.add_right_cancel (hless.trans (Ledger.count_released hlive).symm)
  | unrelated hh he ih =>
    obtain ⟨hpast, -⟩ := htame.tame hh.suffix
    obtain ⟨he', hlaw⟩ := Throughout.cons_iff.1 hlaw
    exact (ih hpast hlaw).trans (count_unrelated he he').symm

end Held

/-- Whatever happened, every reference is somebody's. -/
lemma exists_held {E : Environment} {start : World History} {H : History} {h₀ : Holdings}
    (h₀cover : h₀.Cover (ledger start.host)) (htame : TameSince start H)
    (hlaw : Throughout E.Lawful H) : ∃ h, Held start.host h₀ H h := by
  induction htame with
  | now => exact ⟨h₀, .now⟩
  | @cons e past hpast he ih =>
    obtain ⟨he', hlaw⟩ := Throughout.cons_iff.1 hlaw
    obtain ⟨h, hh⟩ := ih hlaw
    have hcover := hh.cover h₀cover hpast hlaw
    cases e with
    | made b own data size => exact ⟨_, hh.made b own data size⟩
    | acquired b =>
      have hb : 1 ≤ h.total b := hcover.live.2 he'
      exact ⟨_, hh.acquired hb⟩
    | released b =>
      have hb : 1 ≤ h.total b := hcover.live.2 he'
      rcases Holdings.one_le_total.1 hb with hr | hb
      · exact ⟨_, hh.dropped hr⟩
      · exact ⟨_, hh.released hb⟩
    | resized | ending | abandoned | refilled | discarded | started => exact he.elim
    | _ => exact ⟨h, hh.unrelated trivial⟩

/-! ### Between two steps -/

/-- Ways to give up a reference: by hand, or with the `Ref` that owns it. -/
def Yielding (h : Host History) (b : Handle) (x : Machine History Unit) : Prop :=
  x = Handle.release h b ∨ x = Ref.drop h (.ofHandle b)

/-- The handle was there until its storage was given back, which was the last thing to happen. -/
def Gone (b : Handle) (H : History) : Prop :=
  ∃ s before, H = .takenBack s b :: before ∧ b ∈ (ledger before).handles ∧ b ∉ (ledger H).handles

/-- At some time somebody had more references to a handle than fit in a word. -/
def Exceeds (start : History) (h₀ : Holdings) (H : History) : Prop :=
  ∃ past h b, past <:+ H ∧ Held start h₀ past h ∧ UInt64.size ≤ h.total b

/-- What it means between two steps that somebody has the references `h`, and that they are not too
many. Counts are exact, no operation fails that a holder may call, and a handle goes with the last
reference, be it owned or held by hand. -/
structure Accounted (E : Environment) (start : History) (h₀ : Holdings) (w : World History)
    (h : Holdings) : Prop where
  live : ∀ b, 1 ≤ h.total b ↔ (ledger w.host).Live b
  word : ∀ b, (ledger w.host).Live b → (w.memory.header b).refcount.toNat = h.total b
  clone : ∀ r ∈ h.owners, ∀ depth, Ref.clone (E.host depth) r w =
    .ok r (w.withCount r.handle (UInt64.ofNat (h.total r.handle + 1)))
  acquire : ∀ b, 1 ≤ h.total b → ∀ depth, Handle.acquire (E.host depth) b w =
    .ok () (w.withCount b (UInt64.ofNat (h.total b + 1)))
  yield : ∀ b, 2 ≤ h.total b → ∀ depth x, Yielding (E.host depth) b x → x (w.noted (.released b)) =
    .ok () ((w.noted (.released b)).withCount b (UInt64.ofNat (h.total b - 1)))
  last : ∀ b, h.total b = 1 → ∀ depth x, Yielding (E.host depth) b x →
    x (w.noted (.released b)) = finish (E.host depth) b (w.memory.header b) w.shuttingDown
      ((w.noted (.released b)).withCount b 0) ∧
    ∀ w', x (w.noted (.released b)) = .ok () w' → Gone b w'.host
  /-- Every step of such a caller is done, unless too many calls are nested. -/
  step : ∀ c : Call, c.Counting → c.Permitted E w → ∀ depth e w',
    (c.perform (E.host depth)).run w = .error e w' → e = .tooDeep ∨ Exceeds start h₀ w'.host

namespace Environment

variable {E : Environment} {start w : World History} {b : Handle} {h₀ h : Holdings}

/-- Too many references are somebody's, too. -/
lemma exceeds_of_overrun {H : History} (hover : Overrun start H)
    (h₀cover : h₀.Cover (ledger start.host)) (htame : TameSince start H)
    (hlaw : Throughout E.Lawful H) : Exceeds start.host h₀ H := by
  obtain ⟨past, hstart, hpast, b, hlive, hrefs⟩ := hover
  have htame' := htame.of_suffix hpast hstart
  obtain ⟨h, hh⟩ := exists_held h₀cover htame' (hlaw.suffix hpast)
  refine ⟨past, h, b, hpast, hh, ?_⟩
  rw [(hh.cover h₀cover htame' (hlaw.suffix hpast)).refs hlive]
  exact hrefs

/-! The references that somebody has, as the header shows them. -/

section Held

variable (hw : E.Steady w) (hcover : h.Cover (ledger w.host)) (hfew : h.total b < UInt64.size)

include hw hcover

lemma Steady.refcount_held (hb : (ledger w.host).Live b) :
    (w.memory.header b).refcount = UInt64.ofNat (h.total b) := by
  rw [(hw.refcount hb).2, hcover.refs hb]

include hfew

lemma Steady.refcount_held_ne_zero (hb : (ledger w.host).Live b) :
    (w.memory.header b).refcount ≠ 0 := by
  intro h0
  have hfull := (hw.refcount_eq_zero_iff hb).1 h0
  rw [← hcover.refs hb] at hfull
  omega

lemma Steady.acquire_held (hb : 1 ≤ h.total b) (depth : Nat) :
    Handle.acquire (E.host depth) b w =
      .ok () (w.withCount b (UInt64.ofNat (h.total b + 1))) := by
  obtain ⟨play, hhost, -⟩ := E.obeys_host depth
  have hlive := hcover.live.1 hb
  rw [hhost, acquire_run play hw.sound.correct,
    if_neg (hw.refcount_held_ne_zero hcover hfew hlive), hw.refcount_held hcover hlive,
    UInt64.ofNat_add]
  rfl

/-- A reference is given up while there is another. -/
lemma Steady.yield_held (hb : 2 ≤ h.total b) {depth : Nat} {x : Machine History Unit}
    (hx : Yielding (E.host depth) b x) : x (w.noted (.released b)) =
      .ok () ((w.noted (.released b)).withCount b (UInt64.ofNat (h.total b - 1))) := by
  have hrelease : x = Handle.release (E.host depth) b := by rcases hx with rfl | rfl <;> rfl
  obtain ⟨play, hhost, -⟩ := E.obeys_host depth
  have hpos : 1 ≤ h.total b := by omega
  have hlive := hcover.live.1 hpos
  have hrefs := hcover.refs hlive
  rw [hrelease, hhost, hw.release_shared play hlive (by omega),
    if_neg (hw.refcount_held_ne_zero hcover hfew hlive), hrefs]

end Held

namespace Tidy

/-- Where every block belonged to a handle, and no handle is left, the counters are balanced. -/
lemma isBalanced (hw : E.Tidy start w) (hempty : (ledger w.host).handles = ∅)
    (hstart : Neat start) (habandoned : (ledger start.host).abandoned = 0) :
    w.stats.isBalanced = true := by
  have hblocks : (ledger w.host).blocks = ∅ := by
    refine Finset.eq_empty_of_forall_notMem fun q hq => ?_
    obtain ⟨b, hb, -⟩ := (hw.neat hstart).housed q hq
    rw [hempty] at hb
    exact Finset.notMem_empty b hb
  refine hw.steady.isBalanced_iff.2 ?_
  rintro (hout | hout)
  · rw [hblocks] at hout
    exact Finset.not_nonempty_empty hout
  · rw [Ledger.unended, hempty, hw.tame.abandoned, habandoned] at hout
    exact hout rfl

/-- The last reference is given up, by whichever way, and the handle goes with it. -/
lemma yield_last (hE : E.Counting) (hw : E.Tidy start w) (hm : Marked w)
    (hsole : (ledger w.host).Sole b) {depth : Nat} {x : Machine History Unit}
    (hx : Yielding (E.host depth) b x) :
    x (w.noted (.released b)) = finish (E.host depth) b (w.memory.header b) w.shuttingDown
        ((w.noted (.released b)).withCount b 0) ∧
      ∀ w', x (w.noted (.released b)) = .ok () w' → Gone b w'.host := by
  have hrelease : x = Handle.release (E.host depth) b := by rcases hx with rfl | rfl <;> rfl
  obtain ⟨play, hhost, hplay, hminds⟩ := minds_host hE start depth
  have hgoes := release_last_goes hE hplay hminds hw hm hsole
  have hfinish := release_eq_finish hplay hw.steady hm hsole
  rw [← hhost] at hgoes hfinish
  rw [hrelease]
  refine ⟨hfinish, fun w' hrun => ?_⟩
  obtain ⟨s, before, hbefore, hin⟩ := (hgoes.post hrun).gone
  refine ⟨s, before, hbefore, hin, ?_⟩
  rw [hbefore]
  exact Finset.notMem_erase b _

/-- A step of a caller who counts fails for no other reason than nesting and counts. -/
lemma step_fault (hE : E.Counting) (hw : E.Tidy start w) (hm : Marked w)
    (h₀cover : h₀.Cover (ledger start.host)) {c : Call} (hcounting : c.Counting)
    (hc : c.Permitted E w) {depth : Nat} {e : Fault} {w' : World History}
    (hrun : (c.perform (E.host depth)).run w = .error e w') :
    e = .tooDeep ∨ Exceeds start.host h₀ w'.host := by
  obtain ⟨play, hhost, hplay, hminds⟩ := minds_host hE start depth
  rw [hhost] at hrun
  obtain ⟨htame, he⟩ := (perform_goes hE hplay hminds hw hm hc hcounting).fault hrun
  have hlaw := (perform_ends hplay hw.steady hm hc).fault hrun
  exact he.imp_right fun hover => exceeds_of_overrun hover h₀cover htame hlaw

lemma accounted (hE : E.Counting) (hw : E.Tidy start w) (hm : Marked w)
    (h₀cover : h₀.Cover (ledger start.host)) (hh : Held start.host h₀ w.host h)
    (hfew : ∀ b, h.total b < UInt64.size) : Accounted E start.host h₀ w h := by
  have hcover := hh.cover h₀cover hw.tame hw.steady.recorded
  refine ⟨fun b => hcover.live, fun b hb => ?_, fun r hr depth => ?_,
    fun b hb depth => hw.steady.acquire_held hcover (hfew b) hb depth,
    fun b hb depth x hx => hw.steady.yield_held hcover (hfew b) hb hx,
    fun b hb depth x hx => hw.yield_last hE hm ?_ hx,
    fun c hcounting hc depth e w' hrun => hw.step_fault hE hm h₀cover hcounting hc hrun⟩
  · rw [hw.steady.refcount_held hcover hb, UInt64.toNat_ofNat_of_lt' (hfew b)]
  · have hb : 1 ≤ h.total r.handle := Holdings.one_le_total.2 (.inl hr)
    rw [Ref.clone, Machine.bind_apply, hw.steady.acquire_held hcover (hfew _) hb]
    rfl
  · have hlive := hcover.live.1 hb.ge
    exact ⟨hlive.1, (hcover.refs hlive).symm.trans hb⟩

end Tidy

end Environment

/-! ### Whole runs -/

/-- What is true of an event since `start`, given what came before. -/
structure Followed (E : Environment) (start : World History) (h₀ : Holdings) (e : Event)
    (past : History) : Prop where
  /-- Every reference is somebody's, -/
  held : ∃ h, Held start.host h₀ past h
  /-- and whoever has one has it to a handle that is there. -/
  live : ∀ h, Held start.host h₀ past h → ∀ b, 1 ≤ h.total b → (ledger past).Live b
  /-- Storage goes once, to where it came from, and that of a handle goes when nobody has a
  reference to it any more. -/
  gone : ∀ s b, e = .takenBack s b → (ledger past).Holds s b ∧
    (b ∈ (ledger past).handles → ∀ h, Held start.host h₀ past h → h.total b = 0)
  between : ∀ s, e = .boundary s → ∀ h, Held start.host h₀ past h →
    (∀ b, h.total b < UInt64.size) → Accounted E start.host h₀ (s.resume past) h
  balanced : Neat start → (ledger start.host).abandoned = 0 → ∀ s, e = .boundary s →
    (ledger past).handles = ∅ → s.stats.isBalanced = true

/-- What is true of a computation from the state `w` on, where the references are `h₀`. -/
structure Owned (E : Environment) (h₀ : Holdings) (w : World History)
    (x : Machine History Unit) : Prop where
  followed : Throughout (fun e past => w.host <:+ past → Followed E w h₀ e past)
    (Machine.after x w).host
  /-- Nothing ends it early, unless too many calls are nested or a count is exceeded. -/
  fault : ∀ e w', x w = .error e w' → e = .tooDeep ∨ Exceeds w.host h₀ w'.host
  /-- In the end every reference is somebody's, the handles without one are those whose end had
  begun before, and if there are no others, nothing is left. -/
  left : ∀ w', x w = .ok () w' → (∃ h, Held w.host h₀ w'.host h) ∧
    ∀ h, Held w.host h₀ w'.host h →
      (∀ b, b ∈ (ledger w'.host).handles ↔ 1 ≤ h.total b ∨ (ledger w.host).Dying b) ∧
      (Neat w → (ledger w.host).abandoned = 0 → (∀ b, ¬ (ledger w.host).Dying b) →
        (∀ b, h.total b = 0) → w'.stats.isBalanced = true)

namespace Environment

variable {E : Environment} {start w : World History} {past : History} {e : Event}
  {h₀ : Holdings}

lemma followed (hE : E.Counting) (h₀cover : h₀.Cover (ledger start.host))
    (hstart : start.host <:+ past) (hsince : TameSince start (e :: past))
    (hlaw : Throughout E.Lawful (e :: past)) : Followed E start h₀ e past := by
  obtain ⟨hpast, htame⟩ := hsince.tame hstart
  obtain ⟨he, hlawpast⟩ := Throughout.cons_iff.1 hlaw
  have hcover := fun h (hh : Held start.host h₀ past h) => hh.cover h₀cover hpast hlawpast
  have htidy : ∀ s, e = .boundary s → E.Tidy start (s.resume past) ∧ Marked (s.resume past) := by
    rintro s rfl
    obtain ⟨hw, hm⟩ := steady_of_boundary hlaw
    exact ⟨⟨hw, hsince, htame⟩, hm⟩
  refine ⟨exists_held h₀cover hpast hlawpast, fun h hh b hb => (hcover h hh).live.1 hb, ?_, ?_, ?_⟩
  · rintro s b rfl
    refine ⟨he.1, fun hb h hh => ?_⟩
    rw [hcover h hh, Ledger.count_of_mem hb]
    exact he.2 hb
  · rintro s rfl h hh hfew
    obtain ⟨hw, hm⟩ := htidy s rfl
    exact hw.accounted hE hm h₀cover (hh.unrelated (e := .boundary s) trivial) hfew
  · rintro hneat habandoned s rfl hempty
    exact (htidy s rfl).1.isBalanced hempty hneat habandoned

/-- A program that does nothing but count. -/
lemma Steady.owned (hE : E.Counting) (hw : E.Steady w) (h₀cover : h₀.Cover (ledger w.host))
    (depth : Nat) {q : Program} (hq : q.Counting) : Owned E h₀ w (q.run E (E.host depth)) := by
  have htidy : E.Tidy w w := ⟨hw, .now, id⟩
  obtain ⟨play, hhost, hplay, hminds⟩ := minds_host hE w depth
  have hgoes := run_goes hE hplay hminds hq htidy
  have hends := run_ends hplay q hw
  rw [← hhost] at hgoes hends
  refine ⟨fun e past hsuffix hstart => ?_, fun e w' hrun => ?_, fun w' hrun => ?_⟩
  · have hwhole : TameSince w (Machine.after (q.run E (E.host depth)) w).host ∧
        Throughout E.Lawful (Machine.after (q.run E (E.host depth)) w).host := by
      unfold Machine.after
      cases hrun : q.run E (E.host depth) w with
      | ok a w' => exact ⟨(hgoes.post hrun).tidy.tame, (hends.post hrun).1.recorded⟩
      | error e w' => exact ⟨(hgoes.fault hrun).1, hends.fault hrun⟩
    exact followed hE h₀cover hstart
      (hwhole.1.of_suffix hsuffix (hstart.trans (List.suffix_cons e past)))
      (hwhole.2.suffix hsuffix)
  · obtain ⟨htame, he⟩ := hgoes.fault hrun
    exact he.imp_right fun hover => exceeds_of_overrun hover h₀cover htame (hends.fault hrun)
  · obtain ⟨hlast, hspares, hdying⟩ := hgoes.post hrun
    refine ⟨exists_held h₀cover hlast.tame hlast.steady.recorded, fun h hh => ?_⟩
    have hleft : ∀ b, b ∈ (ledger w'.host).handles ↔
        1 ≤ h.total b ∨ (ledger w.host).Dying b := fun b => by
      rw [(hh.cover h₀cover hlast.tame hlast.steady.recorded).live]
      refine ⟨fun hb => ?_, fun hb => hb.elim (·.1) fun hb => (hspares b hb).1.1⟩
      by_cases h0 : (ledger w'.host).refs b = 0
      · exact .inr (hdying b ⟨hb, h0⟩)
      · exact .inl ⟨hb, Nat.pos_of_ne_zero h0⟩
    refine ⟨hleft, fun hneat habandoned hnone hzero => hlast.isBalanced ?_ hneat habandoned⟩
    refine Finset.eq_empty_of_forall_notMem fun b hb => ?_
    rcases (hleft b).1 hb with hpos | hb
    · rw [hzero b] at hpos
      omega
    · exact hnone b hb

end Environment

/-- **Every reference is somebody's.** Wherever a run is between two steps, and whoever has the
references that are there, let a caller go on who does nothing but make handles, take and give up
references to them, and write to memory outside their headers, and let destructors, finalizers and
closures do nothing else. Then, however the references pass from one to the other, counts are exact
between any two steps, a handle goes with the last reference to it and never before, and nothing
fails unless a count is exceeded. If the runtime was up and every block belonged to a handle,
nothing is left once all references are given up. -/
theorem references_owned (E : Environment) (hE : E.Counting) (depth : Nat) (p : Program)
    (w : World History) :
    Throughout (fun e past => ∀ s, e = .boundary s → (∃ h₀ : Holdings, h₀.Cover (ledger past)) ∧
      ∀ h₀ : Holdings, h₀.Cover (ledger past) → ∀ (d : Nat) (q : Program), q.Counting →
        Owned E h₀ (s.resume past) (q.run E (E.host d))) (E.history depth p w) := by
  rintro e past hsuffix s rfl
  obtain ⟨hw, -⟩ := Environment.steady_of_boundary ((E.lawful_history depth p w).suffix hsuffix)
  exact ⟨Ledger.exists_cover _, fun h₀ h₀cover d q hq => hw.owned hE h₀cover d hq⟩

/-! ### A chain -/

lemma Program.releaseAll_counting (cs : List Handle) : (releaseAll cs).Counting := by
  induction cs with
  | nil => exact .done
  | cons c cs ih => exact .step trivial fun _ _ => ih

/-- Where destructors do no more than give up handles, everyone does nothing but count. -/
lemma Environment.owners_counting : Environment.owners.Counting where
  destructor _ _ _ _ _ := Program.releaseAll_counting _
  finalizer _ _ _ := .done
  closure _ _ _ _ := .done
  dropClosure _ _ := .done

/-- A caller who makes a handle and another one that owns it. He takes two more references to the
owner, one by hand, and gives up all three. -/
def Program.chain : Program :=
  .step (.make (.new 0 0 1 0)) fun _ _ =>
    .step (.make (.new 4096 0 1 0)) fun _ _ =>
      .step (.clone (.ofHandle 4152)) fun _ _ =>
        .step (.acquire 4152) fun _ _ =>
          .step (.drop (.ofHandle 4152)) fun _ _ => .releaseAll [4152, 4152]

lemma Program.chain_counting : Program.chain.Counting :=
  .step trivial fun _ _ => .step trivial fun _ _ => .step trivial fun _ _ =>
    .step trivial fun _ _ => .step trivial fun _ _ => releaseAll_counting _

/-- Whether a computation ends well, and with nothing out. -/
def Machine.settles {σ : Type} (x : Machine σ Unit) (w : World σ) : Bool :=
  match x w with
  | .ok _ w' => w'.stats.isBalanced
  | .error _ _ => false

/-- From a fresh start nobody has a reference, and in the end nobody has one again. -/
theorem references_owned_chain : Environment.owners.Counting ∧ Program.chain.Counting ∧
    ∃ s past, Environment.owners.history 0 .done { host := [] } = .boundary s :: past ∧
      Owned .owners .none (s.resume past) (Program.chain.run .owners (Environment.owners.host 2)) ∧
      (Program.chain.run .owners (Environment.owners.host 2)).settles (s.resume past) = true := by
  have hlast : (lastBoundary (Environment.owners.history 0 .done { host := [] })).any
      (fun r => decide ((ledger r.2).handles = ∅ ∧
        (Program.chain.run .owners (Environment.owners.host 2)).settles (r.1.resume r.2) = true)) =
      true := by
    decide +kernel
  obtain ⟨s, past, hhistory, hholds⟩ := exists_lastBoundary hlast
  obtain ⟨hempty, hsettles⟩ := of_decide_eq_true hholds
  have hcover : Holdings.none.Cover (ledger past) := fun b => by
    rw [Ledger.count, hempty]
    rfl
  have hsuffix : .boundary s :: past <:+
      Environment.owners.history 0 .done { host := [] } := hhistory ▸ List.suffix_rfl
  have howned := (references_owned .owners Environment.owners_counting 0 .done { host := [] } _ past
    hsuffix s rfl).2 .none hcover 2 .chain Program.chain_counting
  exact ⟨Environment.owners_counting, Program.chain_counting, s, past, hhistory, howned, hsettles⟩

end CountedHeap
