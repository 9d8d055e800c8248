/-
A workload that leaves nothing behind

A workload makes handles with several owners each and drops all of them in the end, or as soon as
there is no storage for the next handle. While it runs it has blocks of its own beside all that was
out before, and in each of them a header whose count is the number of its owners. Whatever the heap
answers, all these blocks go back to it, and nothing else happens to anybody.

* `Ledger.Beside`: blocks that are out beside those of before;
* `Churn.Stocked`: the state while a workload has handles, with the number of owners of each;
* `Churn.Stocked.share_run`, `Churn.Stocked.fillUp_run`, `Churn.Stocked.dropAll_run`: its loops;
* `Churn.Makes`: the handles that could be had;
* `Churned`, `churn_exact`: what a whole workload comes to, whichever request is refused.
-/
import CountedHeap.Proofs.Lifetimes
import CountedHeap.Churn

namespace CountedHeap

open Memory (AgreeOn Apart range)

/-! ### Blocks beside those of before -/

/-- Beside what `L` lists the blocks `bs` are out, which `s` gave out with room for a header. -/
structure Ledger.Beside (L : Ledger) (bs : List Addr) (s : Source) (L' : Ledger) : Prop where
  mem_blocks : ∀ q, q ∈ L'.blocks ↔ q ∈ L.blocks ∨ q ∈ bs
  new : ∀ b ∈ bs, b ∉ L.blocks
  nodup : bs.Nodup
  room : ∀ q ∈ L.blocks, L'.room q = L.room q
  source : ∀ q ∈ L.blocks, L'.source q = L.source q
  granted : ∀ b ∈ bs, 56 ≤ L'.room b ∧ L'.source b = s
  rest : L' = { L with blocks := L'.blocks, room := L'.room, source := L'.source }

namespace Ledger.Beside

variable {L L' : Ledger} {bs : List Addr} {s : Source} {n : Word} {p b : Addr}

lemma refl (L : Ledger) (s : Source) : L.Beside [] s L :=
  ⟨by simp, by simp, .nil, fun _ _ => rfl, fun _ _ => rfl, by simp, rfl⟩

lemma grant (h : L.Beside bs s L') (hp : p ∉ L'.blocks) (hn : 56 ≤ n.toNat) :
    L.Beside (bs ++ [p]) s (L'.grant s n p) := by
  have hold : ∀ q, q ∈ L.blocks ∨ q ∈ bs → q ≠ p := fun q hq he =>
    hp (he ▸ (h.mem_blocks q).2 hq)
  refine ⟨fun q => ?_, fun b hb => ?_, ?_, fun q hq => ?_, fun q hq => ?_, fun b hb => ?_, ?_⟩
  · show q ∈ insert p L'.blocks ↔ _
    rw [Finset.mem_insert, h.mem_blocks, List.mem_append, List.mem_singleton, or_comm, or_assoc]
  · rcases List.mem_append.1 hb with hb | hb
    · exact h.new b hb
    · obtain rfl := List.mem_singleton.1 hb
      exact fun hout => hp ((h.mem_blocks b).2 (.inl hout))
  · refine List.nodup_append.2 ⟨h.nodup, List.nodup_singleton p, fun c hc d hd => ?_⟩
    obtain rfl := List.mem_singleton.1 hd
    exact hold c (.inr hc)
  · exact (Function.update_of_ne (hold q (.inl hq)) _ _).trans (h.room q hq)
  · exact (Function.update_of_ne (hold q (.inl hq)) _ _).trans (h.source q hq)
  · show 56 ≤ Function.update L'.room p (max n.toNat 1) b ∧ Function.update L'.source p s b = s
    rcases List.mem_append.1 hb with hb | hb
    · rw [Function.update_of_ne (hold b (.inr hb)), Function.update_of_ne (hold b (.inr hb))]
      exact h.granted b hb
    · obtain rfl := List.mem_singleton.1 hb
      rw [Function.update_self, Function.update_self]
      exact ⟨hn.trans (le_max_left _ _), rfl⟩
  · rw [h.rest]
    rfl

lemma without (h : L.Beside (b :: bs) s L') (hb : b ∉ L.handles) :
    L.Beside bs s (L'.without b) := by
  obtain ⟨hnot, hnodup⟩ := List.nodup_cons.1 h.nodup
  have hnew := h.new b List.mem_cons_self
  refine ⟨fun q => ?_, fun c hc => h.new c (List.mem_cons_of_mem _ hc), hnodup, h.room, h.source,
    fun c hc => h.granted c (List.mem_cons_of_mem _ hc), ?_⟩
  · show q ∈ L'.blocks.erase b ↔ _
    rw [Finset.mem_erase, h.mem_blocks, List.mem_cons]
    constructor
    · rintro ⟨hne, hq | rfl | hq⟩
      · exact .inl hq
      · exact absurd rfl hne
      · exact .inr hq
    · rintro (hq | hq)
      · exact ⟨ne_of_mem_of_not_mem hq hnew, .inl hq⟩
      · exact ⟨ne_of_mem_of_not_mem hq hnot, .inr (.inr hq)⟩
  · have hhandles : L'.handles = L.handles := by rw [h.rest]
    have hkeep : L.handles.erase b = L.handles := Finset.erase_eq_of_notMem hb
    rw [Ledger.without, hhandles, hkeep, h.rest]

end Ledger.Beside

namespace Churn

/-- What is asked for each handle of a workload: a header and a payload. -/
def order (size : Word) : Order := { size, line := fun c => .payloadAllocated "alloc" c.payload }

/-- The heap that a workload asks. -/
def source (w : World History) : Source := .heap w.bindings.heap.addr

/-- How much it asks for at a time. -/
def request (size : Word) (w : World History) : Word :=
  w.bindings.heap.asked (UInt64.ofNat (order size).total)

/-- The requests for blocks at the addresses `ps`, the last one first. -/
def gifts (size : Word) (w : World History) (ps : List Addr) : History :=
  (ps.map (.given (source w) (request size w))).reverse

/-- The blocks that it gave back, the last one first. -/
def returns (w : World History) (bs : List Handle) : History :=
  (bs.map (.takenBack (source w))).reverse

/-- What it is told if there is no storage for the next handle: its size does not fit, or the heap
cannot serve the request. -/
def failure (size : Word) : AllocError :=
  if (order size).total < UInt64.size then .outOfMemory (UInt64.ofNat (order size).total)
  else .sizeOverflow size headerSize

/-- What the heap has answered then: null, if it was asked. -/
def unserved (size : Word) : List Addr := if (order size).total < UInt64.size then [0] else []

/-- The counters after `n` handles were made and `k` were ended. -/
def counted (s : Stats) (n k : Nat) : Stats where
  alloc := s.alloc + .ofNat n
  free := s.free + .ofNat k
  handleAlloc := s.handleAlloc + .ofNat n
  handleFree := s.handleFree + .ofNat k

lemma counted_made (s : Stats) (n k : Nat) :
    ((counted s n k).bump .alloc).bump .handleAlloc = counted s (n + 1) k := by
  simp [counted, Stats.bump, Stats.set, Stats.get, UInt64.add_assoc]

lemma counted_ended (s : Stats) (n k : Nat) :
    ((counted s n k).bump .free).bump .handleFree = counted s n (k + 1) := by
  simp [counted, Stats.bump, Stats.set, Stats.get, UInt64.add_assoc]

/-- In the course of a workload that began in the state `w` there are the handles `bs`, each with
the given number of owners, and those in `gone` are there no more. `null` are the answers of an
allocator that could not serve a request. -/
structure Stocked (E : Environment) (size : Word) (w : World History) (null : List Addr)
    (gone bs : List Handle) (owners : Handle → Nat) (u : World History) : Prop where
  rest : u = { w with memory := u.memory, stats := u.stats, host := u.host }
  seen : u.host = returns w gone ++ (gifts size w (gone ++ bs ++ null) ++ w.host)
  stats : u.stats = counted w.stats (gone ++ bs).length gone.length
  laid : (ledger u.host).Laid w.bindings.heap.addr
  beside : (ledger w.host).Beside bs (source w) (ledger u.host)
  kept : ∀ q ∈ (ledger w.host).blocks, w.memory.AgreeOn u.memory q ((ledger w.host).room q)
  foreign : ∀ i < UInt64.size, E.Ignores i → (∀ b ∈ gone ++ bs, i ∉ range b 56) →
    u.memory.byte i = w.memory.byte i
  header : ∀ b ∈ bs, u.memory.header b =
    { (order size).header b with refcount := UInt64.ofNat (owners b) }

variable {E : Environment} {size : Word} {w u : World History} {null : List Addr}
  {gone bs : List Handle} {b : Handle} {owners owners' : Handle → Nat}
  {play : (World History → Program) → Machine History Unit}

namespace Stocked

/-! ### One step of a workload -/

/-- At first there is nothing. -/
lemma start (hw : (ledger w.host).Laid w.bindings.heap.addr) (owners : Handle → Nat) :
    Stocked E size w [] [] [] owners w where
  rest := rfl
  seen := rfl
  stats := by simp [counted]
  laid := hw
  beside := .refl _ _
  kept _ _ := .refl
  foreign _ _ _ _ := rfl
  header := by simp

lemma congr (h : Stocked E size w null gone bs owners u) (ho : ∀ b ∈ bs, owners' b = owners b) :
    Stocked E size w null gone bs owners' u :=
  { h with header := fun b hb => by rw [ho b hb]; exact h.header b hb }

lemma bindings (h : Stocked E size w null gone bs owners u) : u.bindings = w.bindings := by
  rw [h.rest]

lemma out (h : Stocked E size w null gone bs owners u) (hb : b ∈ bs) :
    b ∈ (ledger u.host).blocks := (h.beside.mem_blocks b).2 (.inr hb)

/-- A handle of the workload has room for its header. -/
lemma fits (h : Stocked E size w null gone bs owners u) (hb : b ∈ bs) :
    b ≠ 0 ∧ b.toNat + 56 ≤ UInt64.size := by
  obtain ⟨h0, -, hfit⟩ := h.laid.fits b (h.out hb)
  have hroom := (h.beside.granted b hb).1
  exact ⟨h0, by omega⟩

/-- Where memory is as it was but for one block that is new, what was there before is as it was, and
so are the other headers. -/
lemma spared (h : Stocked E size w null gone bs owners u) {m : Memory} {p : Addr}
    (hp : p ∉ (ledger w.host).blocks)
    (hm : ∀ q ∈ (ledger u.host).blocks, q ≠ p →
      u.memory.AgreeOn m q ((ledger u.host).room q)) :
    (∀ q ∈ (ledger w.host).blocks, w.memory.AgreeOn m q ((ledger w.host).room q)) ∧
      ∀ c ∈ bs, c ≠ p → m.header c = u.memory.header c := by
  refine ⟨fun q hq => ?_, fun c hc hne => ?_⟩
  · have hsame := hm q ((h.beside.mem_blocks q).2 (.inl hq)) (ne_of_mem_of_not_mem hq hp)
    rw [h.beside.room q hq] at hsame
    exact (h.kept q hq).trans hsame
  · exact Memory.header_congr ((hm c (h.out hc) hne).mono (h.beside.granted c hc).1) (h.fits hc).2

/-- A request that cannot be served. -/
lemma refused (h : Stocked E size w [] [] bs owners u)
    (h0 : (E.allocate (source w) (request size w) u).addr = 0) :
    Stocked E size w [0] [] bs owners (E.granted (source w) (request size w) u) := by
  have hledger : ledger (E.granted (source w) (request size w) u).host = ledger u.host := by
    rw [Environment.granted, ledger_cons, h0]
    rfl
  have hnull : (0 : Addr) ∉ (ledger w.host).blocks := fun hin =>
    (h.laid.fits 0 ((h.beside.mem_blocks 0).2 (.inl hin))).1 rfl
  obtain ⟨hkept, hheader⟩ := h.spared hnull fun q hq _ =>
    E.allocate_frame (source w) (request size w) u q hq
  refine ⟨?_, ?_, h.stats, ?_, ?_, hkept, fun i hi hE hout => ?_, fun b hb => ?_⟩
  · rw [Environment.granted, h.rest]
  · rw [Environment.granted, h0, h.seen]
    simp [gifts, returns]
  · rw [hledger]
    exact h.laid
  · rw [hledger]
    exact h.beside
  · exact (hE.allocate _ _ _).trans (h.foreign i hi hE hout)
  · exact (hheader b hb (h.fits hb).1).trans (h.header b hb)

/-- A handle is made, with one owner. -/
lemma made {p : Addr} (h : Stocked E size w [] [] bs owners u)
    (hp : (E.allocate (source w) (request size w) u).addr = p) (h0 : p ≠ 0)
    (hsize : 56 ≤ (request size w).toNat) :
    Stocked E size w [] [] (bs ++ [p]) (Function.update owners p 1)
      ((order size).made p (E.granted (source w) (request size w) u)) := by
  have hfresh := E.allocate_fresh (source w) (request size w) u (hp ▸ h0)
  rw [hp] at hfresh
  have hledger : ledger (E.granted (source w) (request size w) u).host =
      (ledger u.host).grant (source w) (request size w) p := by
    rw [Environment.granted, ledger_cons, hp]
    exact if_neg h0
  have hnew := hfresh.not_mem h.laid
  obtain ⟨-, hfit, hapart⟩ := hfresh
  obtain ⟨hkept, hheader⟩ := h.spared (m := (order size).written p
      (E.granted (source w) (request size w) u).memory)
    (fun hin => hnew ((h.beside.mem_blocks p).2 (.inl hin))) fun q hq _ =>
      (E.allocate_frame _ _ u q hq).trans (Memory.agreeOn_write _ _ (by simp; omega)
        (h.laid.fits q hq).2.2 ((hapart q hq).mono_left (by simp; omega)))
  refine ⟨?_, ?_, ?_, ?_, ?_, hkept, fun i hi hE hout => ?_, fun b hb => ?_⟩
  · rw [Order.made, Environment.granted, h.rest]
  · show Event.given _ _ (E.allocate _ _ u).addr :: u.host = _
    rw [hp, h.seen]
    simp [gifts, returns]
  · show (u.stats.bump .alloc).bump .handleAlloc = _
    rw [h.stats, counted_made]
    simp
  · show (ledger (E.granted _ _ u).host).Laid _
    rw [hledger]
    refine h.laid.grant ⟨h0, hfit, hapart⟩ fun a ha => ?_
    exact (Source.heap.inj ha).symm
  · show (ledger w.host).Beside _ _ (ledger (E.granted _ _ u).host)
    rw [hledger]
    exact h.beside.grant hnew hsize
  · have hout' : i ∉ range p ((order size).header p).bytes.length := fun hin =>
      hout p (by simp) (Memory.range_mono (by simp) hin)
    refine (Memory.byte_write_of_not_mem _ (by simp; omega) hi hout').trans ?_
    refine (hE.allocate _ _ _).trans (h.foreign i hi hE fun b hb => hout b ?_)
    simp only [List.nil_append] at hb ⊢
    exact List.mem_append_left _ hb
  · rcases List.mem_append.1 hb with hb | hb
    · have hne : b ≠ p := fun he => hnew (he ▸ h.out hb)
      rw [Function.update_of_ne hne]
      exact (hheader b hb hne).trans (h.header b hb)
    · obtain rfl := List.mem_singleton.1 hb
      rw [Function.update_self]
      exact (order size).header_written (by omega) _

/-- A handle gets another number of owners. -/
lemma recount (h : Stocked E size w null gone bs owners u) (hb : b ∈ bs) (k : Nat) :
    Stocked E size w null gone bs (Function.update owners b k)
      (u.withCount b (UInt64.ofNat k)) := by
  obtain ⟨-, hfit⟩ := h.fits hb
  obtain ⟨hkept, hheader⟩ := h.spared (h.beside.new b hb) fun q hq hne =>
    Memory.agreeOn_setField u.memory .refcount (UInt64.ofNat k) hfit (h.laid.fits q hq).2.2
      ((h.laid.apart b (h.out hb) q hq hne.symm).mono_left (h.beside.granted b hb).1)
  refine ⟨?_, h.seen, h.stats, h.laid, h.beside, hkept, fun i hi hE hout => ?_, fun c hc => ?_⟩
  · rw [World.withCount, h.rest]
  · have hout' : i ∉ range (b + Field.refcount.offset) 8 := fun hin =>
      hout b (List.mem_append_right _ hb) (Memory.range_field_subset .refcount hfit hin)
    exact (Memory.byte_setField_of_not_mem _ _ _ hfit hi hout').trans (h.foreign i hi hE hout)
  · by_cases hcb : c = b
    · subst hcb
      rw [Function.update_self]
      refine (Memory.header_setField u.memory .refcount _ hfit).trans ?_
      rw [h.header c hb]
      rfl
    · rw [Function.update_of_ne hcb]
      exact (hheader c hc hcb).trans (h.header c hc)

/-- The first of the handles is given back. -/
lemma destroyed (h : Stocked E size w null gone (b :: bs) owners u)
    (hb : b ∉ (ledger w.host).handles) :
    Stocked E size w null (gone ++ [b]) bs owners (E.destroyed (source w) b u) := by
  have hhead : b ∈ b :: bs := List.mem_cons_self
  have hsplit : gone ++ b :: bs = gone ++ [b] ++ bs := by simp
  obtain ⟨hnot, -⟩ := List.nodup_cons.1 h.beside.nodup
  obtain ⟨hkept, hheader⟩ := h.spared (h.beside.new b hhead) fun q hq hne =>
    E.free_frame (source w) b u ⟨h.out hhead, (h.beside.granted b hhead).2⟩ q hq hne
  refine ⟨?_, ?_, ?_, h.laid.without b, h.beside.without hb, hkept, fun i hi hE hout => ?_,
    fun c hc => ?_⟩
  · rw [Environment.destroyed, Environment.freed, h.rest]
  · show Event.takenBack _ b :: u.host = _
    rw [h.seen, hsplit]
    simp [returns]
  · show (u.stats.bump .free).bump .handleFree = _
    rw [h.stats, counted_ended, hsplit]
    simp
  · exact (hE.free _ _ _).trans (h.foreign i hi hE (hsplit ▸ hout))
  · have hne : c ≠ b := fun he => hnot (he ▸ hc)
    exact (hheader c (List.mem_cons_of_mem _ hc) hne).trans (h.header c (List.mem_cons_of_mem _ hc))

/-! ### The loops of a workload -/

lemma refcount (h : Stocked E size w null gone bs owners u) (hb : b ∈ bs) :
    (u.memory.header b).refcount = UInt64.ofNat (owners b) := by rw [h.header b hb]

variable (play)

/-- Further owners of a handle. -/
lemma share_run (hc : E.Correct w.bindings.incDec) (n : Nat)
    (h : Stocked E size w null gone bs owners u) (hb : b ∈ bs) (h1 : 1 ≤ owners b)
    (hn : owners b + n < UInt64.size) :
    ∃ u', Stocked E size w null gone bs (Function.update owners b (owners b + n)) u' ∧
      ∀ rs, share (E.hostOver play) ⟨b⟩ n rs u = .ok (List.replicate n ⟨b⟩ ++ rs) u' := by
  induction n generalizing owners u with
  | zero =>
    refine ⟨u, ?_, fun _ => rfl⟩
    rwa [Nat.add_zero, Function.update_eq_self]
  | succ n ih =>
    have hne : UInt64.ofNat (owners b) ≠ 0 := fun h0 => by
      have htoNat : (UInt64.ofNat (owners b)).toNat = owners b :=
        UInt64.toNat_ofNat_of_lt' (by omega)
      rw [h0, UInt64.toNat_zero] at htoNat
      omega
    have hacquire : Ref.clone (E.hostOver play) ⟨b⟩ u =
        .ok ⟨b⟩ (u.withCount b (UInt64.ofNat (owners b + 1))) := by
      rw [Ref.clone, Machine.bind_apply, Environment.acquire_run play (h.bindings ▸ hc),
        h.refcount hb, if_neg hne, UInt64.ofNat_add]
      rfl
    obtain ⟨u', hu', hrun⟩ := ih (h.recount hb (owners b + 1))
      (by rw [Function.update_self]; omega) (by rw [Function.update_self]; omega)
    rw [Function.update_idem, Function.update_self, Nat.add_assoc, Nat.add_comm 1 n] at hu'
    refine ⟨u', hu', fun rs => ?_⟩
    rw [share, Machine.bind_apply, hacquire]
    refine (hrun (⟨b⟩ :: rs)).trans ?_
    rw [List.replicate_succ', List.append_assoc]
    rfl

/-- The last owner of the first handle is dropped, and the handle ends. -/
lemma drop_last (hc : E.Correct w.bindings.incDec) (hb : b ∉ (ledger w.host).handles)
    (h : Stocked E size w null gone (b :: bs) owners u) (ho : owners b = 1) :
    ∃ u', Ref.drop (E.hostOver play) ⟨b⟩ u = .ok () u' ∧
      Stocked E size w null (gone ++ [b]) bs owners u' := by
  have hhead : b ∈ b :: bs := List.mem_cons_self
  have hzero := h.recount hhead 0
  have hheader := hzero.header b hhead
  have hdestroy := Environment.destroy_run play (hzero.bindings ▸ hc) (hzero.fits hhead).1
  have hcount : (u.memory.header b).refcount = 1 := by rw [h.refcount hhead, ho]; rfl
  refine ⟨_, ?_, (hzero.destroyed hb).congr fun c hc' => ?_⟩
  · rw [Ref.drop, Environment.release_run play (h.bindings ▸ hc), hcount, if_neg (by decide),
      if_pos rfl]
    refine (Environment.callDestructor_run play b).trans ?_
    rw [hheader, hzero.bindings] at hdestroy
    rw [show UInt64.ofNat 0 = 0 from rfl] at hheader hdestroy
    rw [hheader]
    exact hdestroy
  · exact (Function.update_of_ne
      (ne_of_mem_of_not_mem hc' (List.nodup_cons.1 h.beside.nodup).1) _ _).symm

/-- An owner that is not the last is dropped. -/
lemma drop_other (hc : E.Correct w.bindings.incDec)
    (h : Stocked E size w null gone bs owners u) (hb : b ∈ bs) {n : Nat} (ho : owners b = n + 2)
    (hn : n + 2 < UInt64.size) :
    ∃ u', Ref.drop (E.hostOver play) ⟨b⟩ u = .ok () u' ∧
      Stocked E size w null gone bs (Function.update owners b (n + 1)) u' := by
  have hcount : (u.memory.header b).refcount.toNat = n + 2 := by
    rw [h.refcount hb, ho, UInt64.toNat_ofNat_of_lt' hn]
  have hless : (u.memory.header b).refcount - 1 = UInt64.ofNat (n + 1) := by
    have hsum : UInt64.ofNat (n + 2) = UInt64.ofNat (n + 1) + 1 := UInt64.ofNat_add (n + 1) 1
    rw [h.refcount hb, ho, hsum, UInt64.add_sub_cancel]
  refine ⟨_, ?_, h.recount hb (n + 1)⟩
  rw [Ref.drop, Environment.release_run play (h.bindings ▸ hc), if_neg, if_neg, hless]
  all_goals
    intro he
    rw [he] at hcount
    simp at hcount

/-- All owners of the first handle are dropped. -/
lemma dropAll_head (hc : E.Correct w.bindings.incDec) (hb : b ∉ (ledger w.host).handles) (n : Nat)
    (h : Stocked E size w null gone (b :: bs) owners u) (ho : owners b = n + 1)
    (hn : n + 1 < UInt64.size) : ∃ u', Stocked E size w null (gone ++ [b]) bs owners u' ∧
      ∀ rs, dropAll (E.hostOver play) (List.replicate (n + 1) ⟨b⟩ ++ rs) u =
        dropAll (E.hostOver play) rs u' := by
  induction n generalizing owners u with
  | zero =>
    obtain ⟨u', hrun, hu'⟩ := h.drop_last play hc hb ho
    refine ⟨u', hu', fun rs => ?_⟩
    rw [List.replicate_one, List.singleton_append, dropAll, Machine.bind_apply, hrun]
  | succ n ih =>
    obtain ⟨u₁, hrun, hu₁⟩ := h.drop_other play hc List.mem_cons_self ho hn
    obtain ⟨u', hu', hrest⟩ := ih hu₁ (Function.update_self _ _ _) (by omega)
    refine ⟨u', hu'.congr fun c hc' => ?_, fun rs => ?_⟩
    · exact (Function.update_of_ne
        (ne_of_mem_of_not_mem hc' (List.nodup_cons.1 h.beside.nodup).1) _ _).symm
    · rw [List.replicate_succ, List.cons_append, dropAll, Machine.bind_apply, hrun]
      exact hrest rs

end Stocked

/-- The owners of the handles `bs`, handle after handle. -/
def owned (shares : Nat) (bs : List Handle) : List Ref :=
  bs.flatMap fun b => List.replicate (shares + 1) ⟨b⟩

lemma owned_concat (shares : Nat) (bs : List Handle) (b : Handle) :
    (owned shares (bs ++ [b])).reverse =
      ⟨b⟩ :: (List.replicate shares ⟨b⟩ ++ (owned shares bs).reverse) := by
  rw [owned, List.flatMap_append, List.flatMap_singleton, List.reverse_append,
    List.reverse_replicate, List.replicate_succ, List.cons_append]
  rfl

lemma length_owned (shares : Nat) (bs : List Handle) :
    (owned shares bs).length = bs.length * (shares + 1) := by
  simp [owned]

section Loops

variable {h : Host History} {shares n : Nat} {p : Handle} {e : AllocError} {rs rs' : List Ref}
  {u₁ u₂ : World History}

/-- A handle could be had. -/
lemma fillUp_of_ok (halloc : (Handle.alloc h size).run u = .ok (.ok p) u₁)
    (hshare : share h ⟨p⟩ shares rs u₁ = .ok rs' u₂) :
    (fillUp h size shares (n + 1) rs).run u = (fillUp h size shares n (⟨p⟩ :: rs')).run u₂ := by
  have hnew : (Ref.ofNew (Handle.alloc h size)).run u = .ok (.ok ⟨p⟩) u₁ := by
    rw [Ref.ofNew, map_eq_pure_bind, Attempt.bind_apply, halloc]
    rfl
  rw [fillUp, Attempt.bind_apply, Attempt.tryCatch_apply, hnew]
  simp only [Attempt.lift_bind_apply, hshare]

/-- No handle could be had. -/
lemma fillUp_of_error (halloc : (Handle.alloc h size).run u = .ok (.error e) u₁)
    (hdrop : dropAll h rs.reverse u₁ = .ok () u₂) :
    (fillUp h size shares (n + 1) rs).run u = .ok (.error e) u₂ := by
  have hnew : (Ref.ofNew (Handle.alloc h size)).run u = .ok (.error e) u₁ := by
    rw [Ref.ofNew, map_eq_pure_bind, Attempt.bind_apply, halloc]
  rw [fillUp, Attempt.bind_apply, Attempt.tryCatch_apply, hnew]
  simp only [Attempt.lift_bind_apply, hdrop, Attempt.throw_apply]

/-- From the state `u` on the handles `bs` are made one after the other, each with `shares` further
owners, and none of them fails. -/
inductive Makes (h : Host History) (size : Word) (shares : Nat) :
    World History → List Handle → World History → Prop
  | nil {u : World History} : Makes h size shares u [] u
  | cons {u u₁ u₂ v : World History} {p : Handle} {bs : List Handle} {rs : List Ref}
      (halloc : (Handle.alloc h size).run u = .ok (.ok p) u₁)
      (hshare : share h ⟨p⟩ shares [] u₁ = .ok rs u₂)
      (hrest : Makes h size shares u₂ bs v) : Makes h size shares u (p :: bs) v

end Loops

namespace Stocked

variable {shares : Nat}

variable (play) in
/-- All owners of all handles are dropped, and nothing of the workload is left. -/
lemma dropAll_run (hc : E.Correct w.bindings.incDec)
    (hhandles : (ledger w.host).handles ⊆ (ledger w.host).blocks)
    (hshares : shares + 1 < UInt64.size)
    (h : Stocked E size w null gone bs (fun _ => shares + 1) u) :
    ∃ v, dropAll (E.hostOver play) (owned shares bs) u = .ok () v ∧
      Stocked E size w null (gone ++ bs) [] (fun _ => shares + 1) v := by
  induction bs generalizing gone u with
  | nil => exact ⟨u, rfl, by rwa [List.append_nil]⟩
  | cons b bs ih =>
    have hb : b ∉ (ledger w.host).handles := fun hin =>
      h.beside.new b List.mem_cons_self (hhandles hin)
    obtain ⟨u', hu', hrest⟩ := h.dropAll_head play hc hb shares rfl hshares
    obtain ⟨v, hrun, hv⟩ := ih hu'
    rw [List.append_assoc, List.singleton_append] at hv
    exact ⟨v, (hrest (owned shares bs)).trans hrun, hv⟩

/-- The owners see the payloads of their handles. -/
lemma totalSize_run (h : Stocked E size w null gone bs owners u) (rs : List Ref)
    (hrs : ∀ r ∈ rs, r.handle ∈ bs) :
    totalSize rs u = .ok (UInt64.ofNat (rs.length * size.toNat)) u := by
  induction rs with
  | nil => rw [List.length_nil, Nat.zero_mul]; rfl
  | cons r rs ih =>
    have hsize : r.handle.size u = .ok size u := by
      rw [Handle.size, Environment.field_run, h.header r.handle (hrs r List.mem_cons_self)]
      rfl
    rw [totalSize, Machine.bind_apply, hsize]
    simp only [Machine.bind_apply, ih fun r' hr' => hrs r' (List.mem_cons_of_mem _ hr')]
    rw [List.length_cons, Nat.succ_mul, Nat.add_comm, UInt64.ofNat_add, UInt64.ofNat_toNat]
    rfl

variable (play) in
/-- The next handle is made, or there is none because its size does not fit or because the heap
cannot serve the request. -/
lemma alloc_cases (hc : E.Correct w.bindings.incDec) (h : Stocked E size w [] [] bs owners u) :
    (∃ p u', (Handle.alloc (E.hostOver play) size).run u = .ok (.ok p) u' ∧
      Stocked E size w [] [] (bs ++ [p]) (Function.update owners p 1) u') ∨
    ∃ u', (Handle.alloc (E.hostOver play) size).run u = .ok (.error (failure size)) u' ∧
      Stocked E size w (unserved size) [] bs owners u' := by
  have hmake : Handle.alloc (E.hostOver play) size = (order size).make (E.hostOver play) := rfl
  rw [hmake, failure, unserved]
  by_cases hd : (order size).total < UInt64.size
  · have hasked : w.bindings.heap.asked (UInt64.ofNat (order size).total) = request size w := rfl
    have hat : (allocatorAt (E.hostOver play) (order size).ext).allocate
        (UInt64.ofNat (order size).total) u = .ok (E.allocate (source w) (request size w) u).addr
          (E.granted (source w) (request size w) u) := by
      refine (E.heap_allocate_run play u _).trans ?_
      rw [h.bindings, hasked]
      rfl
    rw [Order.make_of_fits _ _ hd, Attempt.lift_bind_apply, hat, if_pos hd, if_pos hd]
    by_cases h0 : (E.allocate (source w) (request size w) u).addr = 0
    · exact .inr ⟨_, by simp only [if_pos h0]; rfl, h.refused h0⟩
    · have hc' : E.Correct (E.granted (source w) (request size w) u).bindings.incDec := by
        show E.Correct u.bindings.incDec
        rwa [h.bindings]
      have hlay : (order size).lay (E.hostOver play) _ _ = _ :=
        Environment.lay_run hc' (E.allocate (source w) (request size w) u).addr
      have hsize : 56 ≤ (request size w).toNat := by
        have hle := HeapObject.le_asked w.bindings.heap (UInt64.ofNat (order size).total)
        rw [UInt64.toNat_ofNat_of_lt' hd] at hle
        exact (Nat.le_add_left 56 size.toNat).trans hle
      refine .inl ⟨_, _, ?_, h.made rfl h0 hsize⟩
      simp only [if_neg h0, Attempt.lift_apply, hlay]
  · rw [Order.make_of_overflow _ _ (Nat.le_of_not_lt hd), if_neg hd, if_neg hd]
    exact .inr ⟨u, rfl, h⟩

variable (play) in
/-- Handles are made until there are enough of them, or until one cannot be had. Then all that were
made are dropped. -/
lemma fillUp_run (hc : E.Correct w.bindings.incDec)
    (hhandles : (ledger w.host).handles ⊆ (ledger w.host).blocks)
    (hshares : shares + 1 < UInt64.size) (n : Nat)
    (h : Stocked E size w [] [] bs (fun _ => shares + 1) u) :
    ∃ new u', Makes (E.hostOver play) size shares u new u' ∧
      (new.length = n ∧ Stocked E size w [] [] (bs ++ new) (fun _ => shares + 1) u' ∧
          (fillUp (E.hostOver play) size shares n (owned shares bs).reverse).run u =
            .ok (.ok (owned shares (bs ++ new)).reverse) u' ∨
        new.length < n ∧ ∃ u'' v,
          (Handle.alloc (E.hostOver play) size).run u' = .ok (.error (failure size)) u'' ∧
          Stocked E size w (unserved size) (bs ++ new) [] (fun _ => shares + 1) v ∧
          (fillUp (E.hostOver play) size shares n (owned shares bs).reverse).run u =
            .ok (.error (failure size)) v) := by
  induction n generalizing bs u with
  | zero => exact ⟨[], u, .nil, .inl ⟨rfl, by rwa [List.append_nil], by rw [List.append_nil]; rfl⟩⟩
  | succ n ih =>
    rcases h.alloc_cases play hc with ⟨p, u₁, halloc, hu₁⟩ | ⟨u₁, halloc, hu₁⟩
    · have hone : Function.update (fun _ => shares + 1) p 1 p = 1 := Function.update_self _ _ _
      have hp : p ∈ bs ++ [p] := List.mem_append_right _ (List.mem_singleton_self p)
      obtain ⟨u₂, hu₂, hshare⟩ := hu₁.share_run play hc shares hp hone.ge (by omega)
      have hfill := fillUp_of_ok (n := n) halloc (hshare (owned shares bs).reverse)
      rw [← owned_concat] at hfill
      have hall : Stocked E size w [] [] (bs ++ [p]) (fun _ => shares + 1) u₂ := by
        refine hu₂.congr fun c _ => ?_
        by_cases hcp : c = p
        · rw [hcp, Function.update_self, Function.update_self, Nat.add_comm]
        · rw [Function.update_of_ne hcp, Function.update_of_ne hcp]
      obtain ⟨new, u', hmakes, hcases⟩ := ih hall
      rw [← hfill, List.append_assoc, List.singleton_append] at hcases
      refine ⟨p :: new, u', .cons halloc (hshare []) hmakes, ?_⟩
      rcases hcases with ⟨hlen, hrest⟩ | ⟨hlen, hrest⟩
      · exact .inl ⟨congrArg Nat.succ hlen, hrest⟩
      · exact .inr ⟨Nat.succ_lt_succ hlen, hrest⟩
    · obtain ⟨v, hdrop, hv⟩ := hu₁.dropAll_run play hc hhandles hshares
      rw [← List.reverse_reverse (owned shares bs)] at hdrop
      refine ⟨[], u, .nil, .inr ⟨n.succ_pos, u₁, v, halloc, ?_, fillUp_of_error halloc hdrop⟩⟩
      rwa [List.append_nil]

end Stocked

/-- Enough room is made for the owners beforehand. -/
lemma room_le {count shares : Nat} (hcapacity : count * (shares + 1) ≤ capacity) :
    (room count shares).toNat ≤ capacity := by
  rw [room, ← UInt64.ofNat_one, ← UInt64.ofNat_add, ← UInt64.ofNat_mul, UInt64.toNat_ofNat']
  exact (Nat.mod_le _ _).trans hcapacity

section

variable {h : Host History} {count shares : Nat} {rs : List Ref} {v : World History}

lemma churn_of_fits (hcapacity : count * (shares + 1) ≤ capacity) :
    churn h count size shares = (do
      let owners ← fillUp h size shares count []
      let bytes ← (totalSize owners.reverse : Machine History Word)
      dropAll h owners.reverse
      return bytes) := if_neg (Nat.not_lt.2 (room_le hcapacity))

/-- What comes after the last handle was made. -/
lemma churn_of_ok (hcapacity : count * (shares + 1) ≤ capacity)
    (hfill : (fillUp h size shares count []).run w = .ok (.ok rs.reverse) u) {bytes : Word}
    (htotal : totalSize rs u = .ok bytes u) (hdrop : dropAll h rs u = .ok () v) :
    (churn h count size shares).run w = .ok (.ok bytes) v := by
  rw [churn_of_fits hcapacity, Attempt.bind_apply, hfill]
  simp only [List.reverse_reverse, Attempt.lift_bind_apply, htotal, hdrop, Attempt.pure_apply]

/-- Nothing comes after a failure. -/
lemma churn_of_error (hcapacity : count * (shares + 1) ≤ capacity) {e : AllocError}
    (hfill : (fillUp h size shares count []).run w = .ok (.error e) v) :
    (churn h count size shares).run w = .ok (.error e) v := by
  rw [churn_of_fits hcapacity, Attempt.bind_apply, hfill]

end

end Churn

/-! ### Whole workloads -/

/-- A workload makes the handles `bs`, which takes it from the state `w` to the state `u`, and it is
over in the state `v`. It has answered `r`, and what was there before it is there as it was. -/
structure Churned (E : Environment) (h : Host History) (count : Nat) (size : Word) (shares : Nat)
    (w : World History) (r : Except AllocError Word) (bs : List Handle) (u v : World History) :
    Prop where
  run : (churn h count size shares).run w = .ok r v
  made : Churn.Makes h size shares w bs u
  le : bs.length ≤ count
  /-- All handles were made, and their owners saw all of their payloads. -/
  full : bs.length = count →
    ∃ bytes, r = .ok bytes ∧ bytes.toNat = count * (shares + 1) * size.toNat
  /-- The next handle could not be had, and this is what the caller is told. -/
  short : bs.length < count → r = .error (Churn.failure size) ∧
    ∃ u', (Handle.alloc h size).run u = .ok (.error (Churn.failure size)) u'
  /-- Blocks and handles were counted when they came, and as many when they went. -/
  stats : v.stats = Churn.counted w.stats bs.length bs.length
  /-- The heap was asked for each block, once more if a handle could not be had, and then it was
  given back each of the blocks; nobody else was asked or called. -/
  seen : v.host = Churn.returns w bs ++ (Churn.gifts size w
    (bs ++ if bs.length = count then [] else Churn.unserved size) ++ w.host)
  rest : v = { w with memory := v.memory, stats := v.stats, host := v.host }
  /-- The same blocks are out, and the same handles are live. -/
  ledger : ledger v.host =
    { ledger w.host with room := (ledger v.host).room, source := (ledger v.host).source }
  blocks : ∀ q ∈ (CountedHeap.ledger w.host).blocks,
    (CountedHeap.ledger v.host).room q = (CountedHeap.ledger w.host).room q ∧
    (CountedHeap.ledger v.host).source q = (CountedHeap.ledger w.host).source q ∧
    w.memory.AgreeOn v.memory q ((CountedHeap.ledger w.host).room q)
  header : ∀ b ∈ (CountedHeap.ledger w.host).handles, v.memory.header b = w.memory.header b
  /-- Memory that is none of the heap's is written only where the workload had its headers. -/
  foreign : ∀ i < UInt64.size, E.Ignores i → (∀ b ∈ bs, i ∉ range b 56) →
    v.memory.byte i = w.memory.byte i

namespace Environment

variable {E : Environment} {w : World History} {count shares : Nat} {size : Word}
  {play : (World History → Program) → Machine History Unit}

/-- When a workload is over, it has left nothing behind. -/
lemma Steady.churned (hw : E.Steady w) {r : Except AllocError Word} {bs : List Handle}
    {u v : World History} (hle : bs.length ≤ count)
    (hv : Churn.Stocked E size w (if bs.length = count then [] else Churn.unserved size) bs []
      (fun _ => shares + 1) v)
    (hrun : (churn (E.hostOver play) count size shares).run w = .ok r v)
    (hmade : Churn.Makes (E.hostOver play) size shares w bs u)
    (hfull : bs.length = count →
      ∃ bytes, r = .ok bytes ∧ bytes.toNat = count * (shares + 1) * size.toNat)
    (hshort : bs.length < count → r = .error (Churn.failure size) ∧
      ∃ u', (Handle.alloc (E.hostOver play) size).run u = .ok (.error (Churn.failure size)) u') :
    Churned E (E.hostOver play) count size shares w r bs u v where
  run := hrun
  made := hmade
  le := hle
  full := hfull
  short := hshort
  stats := by rw [hv.stats, List.append_nil]
  seen := by rw [hv.seen, List.append_nil]
  rest := hv.rest
  ledger := by
    have hblocks : (ledger v.host).blocks = (ledger w.host).blocks := by
      ext q
      rw [hv.beside.mem_blocks, List.mem_nil_iff, or_false]
    have hrest := hv.beside.rest
    rwa [hblocks] at hrest
  blocks q hq := ⟨hv.beside.room q hq, hv.beside.source q hq, hv.kept q hq⟩
  header b hb := Memory.header_congr
    ((hv.kept b (hw.mem_blocks hb)).mono (hw.room_le hb).1) (hw.room_le hb).2
  foreign i hi hE hout := hv.foreign i hi hE (by rwa [List.append_nil])

variable (play) in
/-- A workload makes its handles and drops them all. -/
lemma Steady.churn_run (hw : E.Steady w) (hshares : shares + 1 < UInt64.size)
    (hcapacity : count * (shares + 1) ≤ Churn.capacity)
    (hbytes : count * (shares + 1) * size.toNat < UInt64.size) :
    ∃ r bs u v, Churned E (E.hostOver play) count size shares w r bs u v := by
  have hc := hw.sound.correct
  have hhandles : (ledger w.host).handles ⊆ (ledger w.host).blocks := fun _ => hw.mem_blocks
  have hstart : Churn.Stocked E size w [] [] [] (fun _ => shares + 1) w :=
    .start hw.sound.laid _
  obtain ⟨bs, u, hmade, ⟨hlen, hu, hfill⟩ | ⟨hlen, u', v, halloc, hv, hfill⟩⟩ :=
    hstart.fillUp_run play hc hhandles hshares count
  · rw [List.nil_append] at hfill
    obtain ⟨v, hdrop, hv⟩ := hu.dropAll_run play hc hhandles hshares
    have htotal := hu.totalSize_run (Churn.owned shares bs) fun r hr => by
      obtain ⟨b, hb, hr⟩ := List.mem_flatMap.1 hr
      rwa [List.eq_of_mem_replicate hr]
    rw [Churn.length_owned, hlen] at htotal
    refine ⟨_, bs, u, v, hw.churned hlen.le ?_ (Churn.churn_of_ok hcapacity hfill htotal hdrop)
      hmade (fun _ => ⟨_, rfl, UInt64.toNat_ofNat_of_lt' hbytes⟩) fun h => absurd hlen h.ne⟩
    rwa [if_pos hlen]
  · refine ⟨_, bs, u, v, hw.churned hlen.le ?_ (Churn.churn_of_error hcapacity hfill) hmade
      (fun h => absurd h hlen.ne) fun _ => ⟨rfl, u', halloc⟩⟩
    rwa [if_neg hlen.ne]

end Environment

/-- **Workloads leave nothing behind.** Wherever a program is between two steps, a workload whose
owners can be counted, held and added up makes its handles until there are enough of them or until
one cannot be had. It answers the sum of the sizes that all owners saw, or the failure of just this
allocation; it has given back every block that it got, once each, and counted as many handles that
ended as it made; and the blocks and handles of before are there as they were. -/
theorem churn_exact {count shares : Nat} {size : Word} (hshares : shares + 1 < UInt64.size)
    (hcapacity : count * (shares + 1) ≤ Churn.capacity)
    (hbytes : count * (shares + 1) * size.toNat < UInt64.size) (E : Environment) (depth : Nat)
    (p : Program) (w : World History) :
    Throughout (fun e past => ∀ s, e = .boundary s → ∀ depth', ∃ r bs u v,
      Churned E (E.host depth') count size shares (s.resume past) r bs u v)
      (E.history depth p w) := by
  rintro e past hsuffix s rfl depth'
  obtain ⟨hw, -⟩ := Environment.steady_of_boundary ((E.lawful_history depth p w).suffix hsuffix)
  obtain ⟨play, hhost, -⟩ := E.obeys_host depth'
  rw [hhost]
  exact hw.churn_run play hshares hcapacity hbytes

/-- Three handles with three owners each, on a heap that always has room. -/
theorem churn_exact_small : 2 + 1 < UInt64.size ∧ 3 * (2 + 1) ≤ Churn.capacity ∧
    3 * (2 + 1) * (16 : Word).toNat < UInt64.size ∧
    Throughout (fun e past => ∀ s, e = .boundary s → ∀ depth', ∃ r bs u v,
      Churned .unbounded (Environment.unbounded.host depth') 3 16 2 (s.resume past) r bs u v)
      (Environment.unbounded.history 0 (.step (.make (.alloc 8)) fun _ _ => .done)
        { host := [] }) :=
  ⟨by decide, by decide, by decide,
    churn_exact (by decide) (by decide) (by decide) .unbounded 0 _ { host := [] }⟩

end CountedHeap
