/-
The last release is final

Once the last reference of a handle was given up, its count is zero, and it stays zero: while the
handle is ending, in destructors that are called from its own, and, if no allocator uses storage
twice, ever after. So nobody can take a reference to it or give one up again. Whoever tries stops
the program, and neither does a handle come back to life nor does its end begin a second time.

* `Refuses`: what becomes of those who try;
* `spent_refuses`: spent handles refuse, wherever a program is between two steps.
-/
import CountedHeap.Proofs.Hosts
import CountedHeap.Surface.Entry

namespace CountedHeap

/-- The count of `b` is zero, and whoever takes or gives up a reference, by whatever way, breaks the
contract: the program stops in the state it is in. -/
structure Refuses (E : Environment) (w : World History) (b : Handle) : Prop where
  word : (w.memory.header b).refcount = 0
  acquire : ∀ depth, Handle.acquire (E.host depth) b w =
    .error (.violation (.refcountUnderflow "acquire")) w
  release : ∀ depth, Handle.release (E.host depth) b w =
    .error (.violation (.refcountUnderflow "release")) w
  clone : ∀ depth, Ref.clone (E.host depth) (.ofHandle b) w =
    .error (.violation (.refcountUnderflow "acquire")) w
  drop : ∀ depth, Ref.drop (E.host depth) (.ofHandle b) w =
    .error (.violation (.refcountUnderflow "release")) w
  entryAcquire : ∀ depth, Entry.acquire (E.host depth) b w =
    .error (.violation (.refcountUnderflow "acquire")) w
  entryRelease : ∀ depth, Entry.release (E.host depth) b w =
    .error (.violation (.refcountUnderflow "release")) w

namespace Environment

variable {E : Environment} {w : World History} {b : Handle}

/-- An entry point of the C surface lets a broken contract pass. -/
lemma unlessNull_violation {α : Type} {other : α} {x : Machine History α} {v : Violation}
    (h0 : b ≠ 0) (hx : x w = .error (.violation v) w) :
    Entry.unlessNull b other x w = .error (.violation v) w := by
  rw [Entry.unlessNull, Entry.guarded, if_neg h0, Machine.tryCatch_apply, hx]
  rfl

/-- A count of zero is a dead end. -/
lemma Steady.refuses_of_word (hw : E.Steady w) (h0 : b ≠ 0)
    (hword : (w.memory.header b).refcount = 0) : Refuses E w b := by
  have hacquire : ∀ depth, Handle.acquire (E.host depth) b w =
      .error (.violation (.refcountUnderflow "acquire")) w := fun depth => by
    obtain ⟨play, hhost, -⟩ := E.obeys_host depth
    rw [hhost, acquire_run play hw.sound.correct, if_pos hword]
  have hrelease : ∀ depth, Handle.release (E.host depth) b w =
      .error (.violation (.refcountUnderflow "release")) w := fun depth => by
    obtain ⟨play, hhost, -⟩ := E.obeys_host depth
    rw [hhost, release_run play hw.sound.correct, if_pos hword]
  refine ⟨hword, hacquire, hrelease, fun depth => ?_, hrelease,
    fun depth => unlessNull_violation h0 (hacquire depth),
    fun depth => unlessNull_violation h0 (hrelease depth)⟩
  rw [Ref.clone, Machine.bind_apply]
  simp only [Ref.ofHandle, hacquire]

/-- A spent handle refuses as long as it is there, and ever after if nothing is used twice. -/
lemma Steady.refuses (hw : E.Steady w) (hE : E.Retires) (hs : Spent b w.host)
    (hleft : b ∈ (ledger w.host).handles ∨ LeftAlone b w.host) : Refuses E w b := by
  by_cases hin : b ∈ (ledger w.host).handles
  · exact hw.refuses_of_word (hw.ne_zero hin) (hw.recalled.ending b hs hin).2
  · obtain ⟨n, hn, hr⟩ := hw.recalled.buried hE b hs hin
    exact hw.refuses_of_word (hw.recalled.unused hE _ hr).1
      (hw.recalled.gone hE b hs hin (hleft.resolve_left hin))

end Environment

/-- **The last release is final.** If allocators neither hand out nor overwrite what they were given
back, then wherever a program is between two steps, those of destructors and finalizers included,
every handle whose last reference was given up at any time before refuses. Once its storage is gone,
this takes callers who leave its header alone. -/
theorem spent_refuses (E : Environment) (hE : E.Retires) (depth : Nat) (p : Program)
    (w : World History) :
    Throughout (fun e past => ∀ s, e = .boundary s → ∀ b, Spent b past →
      b ∈ (ledger past).handles ∨ LeftAlone b (e :: past) → Refuses E (s.resume past) b)
      (E.history depth p w) := by
  rintro e past hsuffix s rfl b hs hleft
  obtain ⟨hw, -⟩ := Environment.steady_of_boundary ((E.lawful_history depth p w).suffix hsuffix)
  exact hw.refuses hE (.inr ⟨not_false, hs⟩) hleft

/-! ### A handle that is made and given up -/

/-- A caller who makes a handle with a destructor, gives it up, and makes another. -/
def Program.once : Program :=
  .step (.make (.new 0 0 1 0)) fun a _ =>
    .step (.release (a.toOption.getD 0)) fun _ _ => .step (.make (.allocSafe 16)) fun _ _ => .done

/-- After such a run the first handle is spent and gone, and it refuses. -/
theorem spent_refuses_once : Environment.quarantine.Retires ∧
    ∃ s past, Environment.quarantine.history 1 .once { host := [] } = .boundary s :: past ∧
      Spent 4096 past ∧ 4096 ∉ (ledger past).handles ∧
      Refuses .quarantine (s.resume past) 4096 := by
  have hlast : (lastBoundary (Environment.quarantine.history 1 .once { host := [] })).any
      (fun r => decide (Spent 4096 r.2 ∧ 4096 ∉ (ledger r.2).handles ∧
        LeftAlone 4096 (.boundary r.1 :: r.2))) = true := by decide +kernel
  obtain ⟨s, past, hhistory, hholds⟩ := exists_lastBoundary hlast
  obtain ⟨hs, hgone, halone⟩ := of_decide_eq_true hholds
  have hsuffix : .boundary s :: past <:+
      Environment.quarantine.history 1 .once { host := [] } := hhistory ▸ List.suffix_rfl
  exact ⟨Environment.quarantine_retires, s, past, hhistory, hs, hgone,
    spent_refuses .quarantine Environment.quarantine_retires 1 .once { host := [] } _ past hsuffix s
      rfl 4096 hs (.inr halone)⟩

end CountedHeap
