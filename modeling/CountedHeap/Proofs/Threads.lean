/-
Threads

Several threads take and give up references at the same time. What one thread does is cut into
points: a report to the debug trace, the check of the count, the atomic change of the count, and,
where that change left zero, the points of the handle's end. Between any two points of one thread,
any others may be carried out. While a thread is inside a destructor it runs host code, which may
call the runtime again.

* `Point.code`: what is done at a point, and which points follow;
* `Point.follow_acquire`, `Point.follow_release`: point after point, that is the operation;
* `Scene`: the world, what each thread is doing, and which references it owns;
* `Scene.Step`, `Scene.Course`: what may happen next, and the moments of a whole run;
* `Scene.Start`: threads that are about to share some handles.
-/
import Mathlib.Tactic.Lemma
import Mathlib.Algebra.BigOperators.Group.Finset.Piecewise
import Mathlib.Algebra.Order.BigOperators.Group.Finset
import CountedHeap.Handle.Ending

namespace CountedHeap

variable {σ ι : Type} (h : Host σ)

/-! ### Points -/

/-- Whether a reference is taken or given up. -/
inductive Way where
  | acquire
  | release
  deriving DecidableEq, Repr

namespace Way

/-- The operation's name in a violation. -/
def name : Way → String
  | acquire => "acquire"
  | release => "release"

/-- The operation's line in the debug trace. -/
def trace (b : Handle) (n : Word) : Way → Trace
  | acquire => .acquire b n
  | release => .release b n

/-- The operation as a whole. -/
def operation (b : Handle) : Way → Machine σ Unit
  | acquire => Handle.acquire h b
  | release => Handle.release h b

end Way

/-- A point at which other threads may come in: what a thread does next. -/
inductive Point where
  /-- an operation begins and is reported -/
  | report (way : Way) (b : Handle)
  /-- the count is loaded and must not be zero -/
  | check (way : Way) (b : Handle)
  /-- the count is changed -/
  | update (way : Way) (b : Handle)
  /-- the last reference is gone, and the header is read -/
  | ending (b : Handle)
  /-- the destructor is called with what the header held -/
  | destructor (b : Handle) (fn data : Addr) (size : Word) (info : Addr)
  /-- the allocator of the block is read -/
  | dealloc (b : Handle)
  /-- the block is given back to its allocator, or to the default heap for null -/
  | giveBack (b : Handle) (ext : Addr)
  /-- the end of a handle is counted -/
  | tally (b : Handle) (k : Counter)
  deriving DecidableEq, Repr

namespace Point

/-- The handle that a point is about. -/
def handle : Point → Handle
  | report _ b | check _ b | update _ b | ending b | destructor b _ _ _ _ | dealloc b
  | giveBack b _ | tally b _ => b

/-- Whether a point belongs to an acquire or to the part of a release that every release has. -/
def counting : Point → Bool
  | report .. | check .. | update .. => true
  | _ => false

/-- Whether a point calls a destructor. -/
def isDestructor : Point → Bool
  | destructor .. => true
  | _ => false

/-- The call of the destructor that a header asks for, if there is one and it may still run. -/
def due (b : Handle) (w : World σ) : List Point :=
  let fn := w.memory.word (b + Field.destructor.offset)
  if fn ≠ 0 ∧ w.shuttingDown = false then
    [.destructor b fn (w.memory.word (b + Field.payload.offset))
      (w.memory.word (b + Field.size.offset)) (w.memory.word (b + Field.info.offset))]
  else []

/-- What is done at a point, and which points the thread comes to then. -/
def code : Point → Machine σ (List Point)
  | report way b => do
    h.trace (way.trace b (← Machine.read b.cell))
    return [check way b]
  | check way b => do
    Handle.checkLive way.name b
    return [update way b]
  | update .acquire b => do
    let _ ← increment h b.cell
    return []
  | update .release b => do
    return if (← decrement h b.cell) = 0 then [ending b] else []
  | ending b => do
    h.trace (.destructorDue b)
    return due b (← get) ++ [dealloc b]
  | destructor _ fn data size info => do
    callDestructorAt h fn data size info
    return []
  | dealloc b => do
    let ext ← Handle.external b
    h.trace (.dealloc b ext)
    return [giveBack b ext, tally b .free, tally b .handleFree]
  | giveBack b ext => do
    if ext ≠ 0 then ((ExternalAllocator.lookup h ext).allocator h).free b
    else
      h.trace (.freed b)
      (defaultHeap h).free b
    return []
  | tally _ k => do
    count h k
    return []

/-- What a thread does that nobody interrupts: at most `n` points, one after the other. -/
def follow : ℕ → List Point → Machine σ Unit
  | 0, _ => return ()
  | _ + 1, [] => return ()
  | n + 1, p :: rest => do follow n ((← p.code h) ++ rest)

lemma follow_nil (n : ℕ) : follow h n [] = (return () : Machine σ Unit) := by
  cases n <;> rfl

lemma follow_cons (n : ℕ) (p : Point) (rest : List Point) :
    follow h (n + 1) (p :: rest) = (p.code h >>= fun next => follow h n (next ++ rest)) := rfl

/-- An acquire that nobody interrupts. -/
theorem follow_acquire (n : ℕ) (b : Handle) :
    follow h (n + 3) [report .acquire b] = Handle.acquire h b := by
  simp only [follow_cons, follow_nil, code, Way.trace, Way.name, Handle.acquire, bind_assoc,
    pure_bind, List.append_nil]

/-- Giving back the block of a handle that nobody interrupts. -/
lemma follow_dealloc (n : ℕ) {b : Handle} (hb : b ≠ 0) :
    follow h (n + 4) [dealloc b] = Handle.destroy h b := by
  have hcounts : follow h (n + 2) [tally b .free, tally b .handleFree] = (do
      count h .free
      count h .handleFree) := by
    simp only [follow_cons, follow_nil, code, bind_assoc, pure_bind, List.nil_append,
      bind_pure_unit]
  simp only [follow_cons h (n + 3), follow_cons h (n + 2), code, Handle.destroy, Handle.dealloc,
    bind_assoc, pure_bind, List.nil_append, List.cons_append]
  congr 1
  funext ext
  by_cases hext : ext = 0
  · simp only [hext, ne_eq, not_true_eq_false, if_false, Storage.free, hb, not_false_eq_true,
      if_true, bind_assoc, pure_bind, List.nil_append, hcounts]
  · simp only [ne_eq, hext, not_false_eq_true, if_true, bind_assoc, pure_bind, List.nil_append,
      hcounts]

/-- The end of a handle that nobody interrupts. -/
lemma follow_ending (n : ℕ) {b : Handle} (hb : b ≠ 0) :
    follow h (n + 6) [ending b] = Handle.callDestructor h b := by
  rw [follow_cons h (n + 5)]
  simp only [code, Handle.callDestructor, bind_assoc, pure_bind, List.append_nil]
  refine bind_congr fun _ => ?_
  funext w
  simp only [Machine.bind_apply, Machine.get_apply, Handle.field, Handle.payload, Handle.size,
    Handle.info, Machine.load_apply]
  by_cases hfn : w.memory.word (b + Field.destructor.offset) = 0
  · rw [if_neg (not_not.2 hfn), due, if_neg fun hdue => hdue.1 hfn, List.nil_append,
      follow_dealloc h (n + 1) hb]
  rw [if_pos hfn, Machine.bind_apply, Machine.get_apply]
  cases hdown : w.shuttingDown with
  | true =>
    simp only [due, hdown, Bool.true_eq_false, and_false, if_false, List.nil_append,
      not_true_eq_false]
    rw [follow_dealloc h (n + 1) hb]
  | false =>
    simp only [due, hdown, ne_eq, hfn, not_false_eq_true, and_self, if_true,
      Bool.false_eq_true, List.cons_append, List.nil_append, follow_cons h (n + 4), code,
      bind_assoc, pure_bind, follow_dealloc h n hb]

/-- A release that nobody interrupts. -/
theorem follow_release (n : ℕ) {b : Handle} (hb : b ≠ 0) :
    follow h (n + 9) [report .release b] = Handle.release h b := by
  simp only [follow_cons h (n + 8), follow_cons h (n + 7), follow_cons h (n + 6), code, Way.trace,
    Way.name, Handle.release, bind_assoc, pure_bind, List.append_nil]
  refine bind_congr fun _ => bind_congr fun _ => bind_congr fun _ => bind_congr fun v => ?_
  by_cases hv : v = 0
  · rw [if_pos hv, if_pos hv, follow_ending h n hb]
  · rw [if_neg hv, if_neg hv, follow_nil]

end Point

/-! ### What a point does to the world -/

namespace World

/-- The world after the host was told of an event. -/
def told (w : World σ) (t : Trace) : World σ :=
  if w.tracing then { w with host := h.note t w.host } else w

/-- The reference count of a handle. -/
def references (w : World σ) (b : Handle) : Word := w.memory.word (b + Field.refcount.offset)

/-- The world with another reference count of one handle. -/
def withReferences (w : World σ) (b : Handle) (n : Word) : World σ :=
  { w with memory := w.memory.setWord (b + Field.refcount.offset) n }

/-- The allocator that a header names. -/
def external (w : World σ) (b : Handle) : Addr := w.memory.word (b + Field.external.offset)

variable (w : World σ) (t : Trace)

@[simp] lemma memory_told : (w.told h t).memory = w.memory := by
  unfold told
  split <;> rfl

@[simp] lemma bindings_told : (w.told h t).bindings = w.bindings := by
  unfold told
  split <;> rfl

@[simp] lemma stats_told : (w.told h t).stats = w.stats := by
  unfold told
  split <;> rfl

@[simp] lemma shuttingDown_told : (w.told h t).shuttingDown = w.shuttingDown := by
  unfold told
  split <;> rfl

@[simp] lemma references_told (b : Handle) : (w.told h t).references b = w.references b := by
  simp [references]

lemma offset_refcount (b : Handle) : b + Field.refcount.offset = b := UInt64.add_zero b

/-- A count that was set is what is read. -/
lemma references_withReferences {b : Handle} (hb : b.toNat + 8 ≤ UInt64.size) (n : Word) :
    (w.withReferences b n).references b = n := by
  rw [references, withReferences, offset_refcount]
  exact Memory.word_setWord _ _ _ hb

lemma references_withReferences_of_disjoint {b c : Handle} (hb : b.toNat + 8 ≤ UInt64.size)
    (hc : c.toNat + 8 ≤ UInt64.size)
    (hbc : b.toNat + 8 ≤ c.toNat ∨ c.toNat + 8 ≤ b.toNat) (n : Word) :
    (w.withReferences b n).references c = w.references c := by
  rw [references, withReferences, references, offset_refcount, offset_refcount]
  exact Memory.word_setWord_of_disjoint _ _ hb hc hbc

end World

namespace Point

variable {h} {w : World σ}

/-- A line of the trace does not bear on what is due. -/
lemma due_told (b : Handle) (t : Trace) : due b (w.told h t) = due b w := by
  simp [due]

/-- A report is a line of the trace, with the count as it is. -/
lemma code_report (way : Way) (b : Handle) :
    (report way b).code h w = .ok [check way b] (w.told h (way.trace b (w.references b))) := rfl

/-- A check passes exactly when the count is not zero, and changes nothing. -/
lemma checkLive_apply (op : String) (b : Handle) :
    Handle.checkLive op b w =
      if w.references b = 0 then .error (.violation (.refcountUnderflow op)) w else .ok () w := by
  rw [Handle.checkLive, Machine.bind_apply, Machine.read_apply]
  dsimp only [Handle.cell]
  by_cases hb : w.memory.word (b + Field.refcount.offset) = 0
  · rw [if_pos hb, World.references, if_pos hb, Machine.violate, Machine.throw_apply]
  · rw [if_neg hb, World.references, if_neg hb, Machine.pure_apply]

/-- Who meets a count of zero stops; who does not goes on to the update. -/
lemma code_check (way : Way) (b : Handle) :
    (check way b).code h w =
      if w.references b = 0 then .error (.violation (.refcountUnderflow way.name)) w
      else .ok [update way b] w := by
  rw [code, Machine.bind_apply, checkLive_apply]
  by_cases hb : w.references b = 0
  · rw [if_pos hb, if_pos hb]
  · rw [if_neg hb, if_neg hb]
    rfl

variable (hn : w.bindings.incDec = .native)
include hn

/-- The primitives for many threads add one. -/
lemma increment_native (c : Cell) : increment h c w = addTo c 1 w := by
  rw [increment, Machine.bind_apply, Machine.get_apply]
  simp only [hn]
  rfl

lemma decrement_native (c : Cell) : decrement h c w = addTo c (-1) w := by
  rw [decrement, Machine.bind_apply, Machine.get_apply]
  simp only [hn]
  rfl

/-- Nothing comes after the count is one higher. -/
lemma code_acquire (b : Handle) :
    (update .acquire b).code h w = .ok [] (w.withReferences b (w.references b + 1)) := by
  rw [code, Machine.bind_apply, increment_native hn]
  rfl

/-- The answer of the decrement in a release. -/
lemma decrement_cell (b : Handle) :
    decrement h b.cell w =
      .ok (w.references b - 1) (w.withReferences b (w.references b - 1)) := by
  rw [decrement_native hn, UInt64.sub_eq_add_neg]
  rfl

/-- The end of the handle comes after the count is zero. -/
lemma code_release (b : Handle) :
    (update .release b).code h w =
      .ok (if w.references b - 1 = 0 then [ending b] else [])
        (w.withReferences b (w.references b - 1)) := by
  rw [code, Machine.bind_apply, decrement_cell hn]
  rfl

lemma code_tally (b : Handle) (k : Counter) :
    (tally b k).code h w = .ok [] { w with stats := w.stats.set (w.stats.get k + 1) k } := by
  rw [code, Machine.bind_apply, count, Machine.bind_apply, increment_native hn]
  rfl

omit hn

/-- The header says whether a destructor is due. -/
lemma code_ending (b : Handle) :
    (ending b).code h w = .ok (due b w ++ [dealloc b]) (w.told h (.destructorDue b)) := by
  rw [← due_told b (.destructorDue b) (h := h)]
  rfl

/-- The header says who gets the storage. -/
lemma code_dealloc (b : Handle) :
    (dealloc b).code h w =
      .ok [giveBack b (w.external b), tally b .free, tally b .handleFree]
        (w.told h (.dealloc b (w.external b))) := rfl

end Point

/-! ### Threads that share handles -/

/-- A moment of a run: a thread carries out a point, or host code of its own. -/
structure Moment (ι σ : Type) where
  thread : ι
  /-- the point, or nothing for host code -/
  point : Option Point
  /-- the world when it began -/
  before : World σ
  /-- what was counted meanwhile -/
  counted : List Counter

/-- What several threads share, and where each of them is. -/
structure Scene (ι σ : Type) where
  world : World σ
  /-- the points that each thread still has to come to, the next one first -/
  doing : ι → List Point
  /-- how many references to a handle each thread owns -/
  owns : ι → Handle → ℕ

/-- References when one thread has one more to one handle. -/
def gain [DecidableEq ι] (t : ι) (b : Handle) (owns : ι → Handle → ℕ) : ι → Handle → ℕ :=
  fun u c => owns u c + if u = t ∧ c = b then 1 else 0

/-- References when one thread has one less to one handle. -/
def cede [DecidableEq ι] (t : ι) (b : Handle) (owns : ι → Handle → ℕ) : ι → Handle → ℕ :=
  fun u c => owns u c - if u = t ∧ c = b then 1 else 0

/-- The references after a thread has carried out a point. -/
def Point.settle [DecidableEq ι] (t : ι) (owns : ι → Handle → ℕ) : Point → ι → Handle → ℕ
  | .update .acquire b => gain t b owns
  | .update .release b => cede t b owns
  | _ => owns

section References

variable [DecidableEq ι] (t : ι) (owns : ι → Handle → ℕ) (b : Handle)

/-- A reference that was taken away and given back. -/
lemma gain_cede (ht : 0 < owns t b) : gain t b (cede t b owns) = owns := by
  funext u c
  by_cases huc : u = t ∧ c = b
  · obtain ⟨rfl, rfl⟩ := huc
    simp only [gain, cede, and_self, if_true]
    omega
  · simp [gain, cede, huc]

variable [Fintype ι]

/-- All threads together have one reference more. -/
lemma sum_gain (c : Handle) :
    ∑ u, gain t b owns u c = (∑ u, owns u c) + if c = b then 1 else 0 := by
  simp only [gain, Finset.sum_add_distrib]
  congr 1
  by_cases hc : c = b
  · simp [hc]
  · simp [hc]

/-- And one less, if the thread has one to give. -/
lemma sum_cede (ht : 0 < owns t b) (c : Handle) :
    (∑ u, cede t b owns u c) + (if c = b then 1 else 0) = ∑ u, owns u c := by
  rw [← sum_gain t, gain_cede t owns b ht]

end References

namespace Scene

variable [Fintype ι]

/-- All references to a handle. -/
def total (s : Scene ι σ) (b : Handle) : ℕ := ∑ t, s.owns t b

/-- The thread runs host code: it is in no operation, or inside a destructor. -/
def AtLarge (s : Scene ι σ) (t : ι) : Prop := ∀ p ∈ (s.doing t).head?, p.isDestructor

/-- What host code may do to the world between two points: it leaves the primitives alone, and the
counts of handles to which someone owns a reference; and the statistics only count. -/
structure Tolerates (s : Scene ι σ) (w : World σ) (counted : List Counter) : Prop where
  incDec : w.bindings.incDec = s.world.bindings.incDec
  references : ∀ b, 0 < s.total b → w.references b = s.world.references b
  stats : ∀ k, w.stats.get k = s.world.stats.get k + UInt64.ofNat (counted.count k)

/-- What is asked of a point that is carried out. An acquire must find room for one more reference;
destructors and allocators are host code; the rest is the runtime's own code, of which only the
points that count an end count. -/
def Permits (s : Scene ι σ) (w : World σ) (counted : List Counter) : Point → Prop
  | .update .acquire b => s.total b + 1 < UInt64.size ∧ counted = []
  | .destructor .. | .giveBack .. => s.Tolerates w counted
  | .tally _ k => counted = [k]
  | _ => counted = []

variable [DecidableEq ι]

/-- After a thread has carried out its next point. -/
def advance (s : Scene ι σ) (t : ι) (p : Point) (next : List Point) (w : World σ) : Scene ι σ where
  world := w
  doing := Function.update s.doing t (next ++ (s.doing t).tail)
  owns := p.settle t s.owns

/-- After a thread has entered an operation. -/
def enter (s : Scene ι σ) (t : ι) (way : Way) (b : Handle) : Scene ι σ :=
  { s with doing := Function.update s.doing t (.report way b :: s.doing t) }

/-- After a thread has handed a reference to another one. -/
def hand (s : Scene ι σ) (t u : ι) (b : Handle) : Scene ι σ :=
  { s with owns := gain u b (cede t b s.owns) }

/-- What may happen next, with the moment that it makes, if any. -/
inductive Step (h : Host σ) (s : Scene ι σ) : List (Moment ι σ) → Scene ι σ → Prop
  /-- A thread acquires or releases a handle to which it owns a reference. -/
  | begins (t : ι) (way : Way) (b : Handle) (hfree : s.AtLarge t) (howns : 0 < s.owns t b) :
      Step h s [] (s.enter t way b)
  /-- A thread carries out its next point. -/
  | runs (t : ι) (p : Point) (rest next : List Point) (w : World σ) (counted : List Counter)
      (hdoing : s.doing t = p :: rest) (hcode : p.code h s.world = .ok next w)
      (hpermits : s.Permits w counted p) :
      Step h s [⟨t, some p, s.world, counted⟩] (s.advance t p next w)
  /-- A destructor whose body was carried out bit by bit returns. -/
  | returns (t : ι) (p : Point) (rest : List Point) (hdoing : s.doing t = p :: rest)
      (hp : p.isDestructor) :
      Step h s [⟨t, some p, s.world, []⟩] (s.advance t p [] s.world)
  /-- A thread runs a bit of host code. -/
  | works (t : ι) (w : World σ) (counted : List Counter) (hfree : s.AtLarge t)
      (hw : s.Tolerates w counted) :
      Step h s [⟨t, none, s.world, counted⟩] { s with world := w }
  /-- A thread hands a reference that it owns to another thread. -/
  | hands (t u : ι) (b : Handle) (hfree : s.AtLarge t) (howns : 0 < s.owns t b) :
      Step h s [] (s.hand t u b)

/-- A run from a scene: its moments, the first one first, and the scene to which it leads. -/
inductive Course (h : Host σ) (s₀ : Scene ι σ) : List (Moment ι σ) → Scene ι σ → Prop
  | start : Course h s₀ [] s₀
  | step {log past : List (Moment ι σ)} {s s' : Scene ι σ} (hcourse : Course h s₀ log s)
      (hstep : Step h s past s') : Course h s₀ (log ++ past) s'

section Lemmas

variable {s : Scene ι σ} {h : Host σ} {t : ι} {p : Point} {rest next : List Point} {w : World σ}
  {counted : List Counter}

omit [Fintype ι] in
lemma advance_doing_self (hdoing : s.doing t = p :: rest) :
    (s.advance t p next w).doing t = next ++ rest := by
  simp [advance, hdoing]

omit [Fintype ι] in
lemma advance_doing_of_ne {u : ι} (hu : u ≠ t) : (s.advance t p next w).doing u = s.doing u :=
  Function.update_of_ne hu ..

omit [Fintype ι] in
lemma enter_doing_self (way : Way) (b : Handle) :
    (s.enter t way b).doing t = .report way b :: s.doing t := Function.update_self ..

omit [Fintype ι] in
lemma enter_doing_of_ne {u : ι} (hu : u ≠ t) (way : Way) (b : Handle) :
    (s.enter t way b).doing u = s.doing u := Function.update_of_ne hu ..

omit [DecidableEq ι] in
/-- Where there is a reference, some thread has it. -/
lemma total_pos_iff {b : Handle} : 0 < s.total b ↔ ∃ t, 0 < s.owns t b := by
  simp [total, Nat.pos_iff_ne_zero, Finset.sum_eq_zero_iff]

omit [DecidableEq ι] in
/-- What the runtime reports to the host changes nothing that matters here. -/
lemma tolerates_told (t : Trace) : s.Tolerates (s.world.told h t) [] where
  incDec := by rw [World.bindings_told]
  references b _ := World.references_told ..
  stats k := by simp

omit [DecidableEq ι] in
lemma tolerates_self : s.Tolerates s.world [] := ⟨rfl, fun _ _ => rfl, fun k => by simp⟩

omit [DecidableEq ι] in
/-- Apart from a change of a count, whatever is permitted at a point is tolerated. -/
lemma Permits.tolerates (hpermits : s.Permits w counted p)
    (hn : s.world.bindings.incDec = .native) (hcode : p.code h s.world = .ok next w)
    (hp : ∀ way b, p ≠ .update way b) : s.Tolerates w counted := by
  cases p with
  | report way b =>
    obtain rfl : counted = [] := hpermits
    rw [Point.code_report] at hcode
    rw [← (EStateM.Result.ok.inj hcode).2]
    exact tolerates_told _
  | check way b =>
    obtain rfl : counted = [] := hpermits
    rw [Point.code_check] at hcode
    by_cases hb : s.world.references b = 0
    · rw [if_pos hb] at hcode
      cases hcode
    · rw [if_neg hb] at hcode
      rw [← (EStateM.Result.ok.inj hcode).2]
      exact tolerates_self
  | update way b => exact absurd rfl (hp way b)
  | ending b =>
    obtain rfl : counted = [] := hpermits
    rw [Point.code_ending] at hcode
    rw [← (EStateM.Result.ok.inj hcode).2]
    exact tolerates_told _
  | dealloc b =>
    obtain rfl : counted = [] := hpermits
    rw [Point.code_dealloc] at hcode
    rw [← (EStateM.Result.ok.inj hcode).2]
    exact tolerates_told _
  | tally b k =>
    obtain rfl : counted = [k] := hpermits
    rw [Point.code_tally hn] at hcode
    rw [← (EStateM.Result.ok.inj hcode).2]
    refine ⟨rfl, fun _ _ => rfl, fun k' => ?_⟩
    by_cases hk : k = k'
    · subst hk
      simp [Stats.get_set]
    · simp [Stats.get_set, hk]
  | destructor => exact hpermits
  | giveBack => exact hpermits

end Lemmas

/-- Threads that are about to share some handles: the machine's primitives are installed, nobody is
in the middle of an operation, the handles are those to which someone owns a reference, their counts
are words apart from each other, and each count is the number of references. -/
structure Start (s : Scene ι σ) (handles : Finset Handle) : Prop where
  native : s.world.bindings.incDec = .native
  idle : ∀ t, s.doing t = []
  owned : ∀ b, b ∈ handles ↔ 0 < s.total b
  fits : ∀ b ∈ handles, b.toNat + 8 ≤ UInt64.size
  apart : ∀ b ∈ handles, ∀ c ∈ handles, b ≠ c →
    b.toNat + 8 ≤ c.toNat ∨ c.toNat + 8 ≤ b.toNat
  small : ∀ b ∈ handles, s.total b < UInt64.size
  counted : ∀ b ∈ handles, s.world.references b = UInt64.ofNat (s.total b)

end Scene

end CountedHeap
