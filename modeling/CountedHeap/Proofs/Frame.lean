/-
Handles do not get in each other's way

An operation has to do with the handle that it is called on and with the block that it is handed.
All other blocks stay as they are, byte by byte, be they headers and payloads of other handles or
blocks of the callers, as long as the programs that are called back keep to themselves. The runtime
itself writes headers, and of payloads only those that it poisons: that of a safe handle when it is
made and when it ends.

* `Call.subject`, `Call.Passes`, `Call.Concerns`: what an operation has to do with;
* `Framed`: what it leaves alone;
* `operations_framed`: every operation in every run.
-/
import CountedHeap.Proofs.Footprints

namespace CountedHeap

open Memory (AgreeOn Apart range mem_range)

/-! ### What an operation has to do with -/

namespace Call

/-- The handle that an operation is called on. -/
def subject : Call → Option Handle
  | acquire b | release b | callDestructor b | destroy b | dealloc b | resizableAlloc b _
  | resizableRealloc b _ | resizableFree b _ => some b
  | clone r | drop r => some r.handle
  | _ => none

/-- The block at `q` is handed to the runtime, to be freed, resized, or made a handle. -/
def Passes (q : Addr) : Call → Prop
  | reallocate p _ | free p | resizableFree _ p => q = p
  | init b .. => q = b
  | _ => False

/-- The block at `q` is handed to the runtime, or belongs to the handle that the operation is called
on. -/
def Concerns (w : World History) (c : Call) (q : Addr) : Prop :=
  c.Passes q ∨ ∃ b, c.subject = some b ∧ q ∈ (w.memory.header b).blocks b

/-- The state after an operation, whatever way it ends. -/
def result (h : Host History) (w : World History) (c : Call) : World History :=
  Machine.after (c.perform h).run w

/-- The operation takes a reference to `b`, or gives one up that is not the last. -/
def Counts (w : World History) (b : Handle) : Call → Prop
  | acquire b' => b' = b
  | clone r => r.handle = b
  | release b' => b' = b ∧ 2 ≤ (ledger w.host).refs b
  | drop r => r.handle = b ∧ 2 ≤ (ledger w.host).refs b
  | _ => False

/-- The operation exchanges the payload of `b`. -/
def Exchanges (b : Handle) : Call → Prop
  | resizableAlloc b' _ | resizableRealloc b' _ | resizableFree b' _ => b' = b
  | _ => False

/-- The operation ends `b` and calls its destructor. -/
def Ends (w : World History) (b : Handle) : Call → Prop
  | release b' | callDestructor b' => b' = b ∧ (ledger w.host).Sole b
  | drop r => r.handle = b ∧ (ledger w.host).Sole b
  | _ => False

end Call

/-- What the operation `c` leaves alone in the state `w`. -/
structure Framed (E : Environment) (h : Host History) (w : World History) (c : Call) : Prop where
  moves : E.Moves h (c.footprint h w) w (c.result h w)
  /-- The runtime writes in the blocks that the operation has to do with, and where no block was. -/
  written : ∀ i ∈ (c.footprint h w).writes, ∃ q n, i ∈ range q n ∧
    (q ∈ (ledger w.host).blocks ∧ n = (ledger w.host).room q ∧ c.Concerns w q ∨
      (ledger w.host).Fresh q n)
  given : ∀ q ∈ (c.footprint h w).gives, q ∈ (ledger w.host).blocks → c.Concerns w q
  /-- Every other block stays as it is, but for the bytes that are touched by those who are
  called back. -/
  kept : ∀ T, E.Discreet h (c.footprint h w) w T →
    ∀ q ∈ (ledger w.host).blocks, ¬ c.Concerns w q →
      ∀ i ∈ range q ((ledger w.host).room q), i ∉ T → Stays q i w (c.result h w)
  /-- So does memory that is none of the allocators'. -/
  foreign : ∀ i < UInt64.size, E.Ignores i → E.Respects h (c.footprint h w) w i →
    i ∉ (c.footprint h w).writes → (c.result h w).memory.byte i = w.memory.byte i
  /-- All other handles keep their headers and their payloads. -/
  others : ∀ T, E.Discreet h (c.footprint h w) w T →
    ∀ b ∈ (ledger w.host).handles, c.subject ≠ some b →
      (∀ q ∈ (w.memory.header b).blocks b, ∀ i ∈ range q ((ledger w.host).room q), i ∉ T) →
      (c.result h w).memory.header b = w.memory.header b ∧
      (∀ q ∈ (w.memory.header b).blocks b,
        w.memory.AgreeOn (c.result h w).memory q ((ledger w.host).room q)) ∧
      ((ledger w.host).Allocated b (w.memory.header b) →
        w.memory.AgreeOn (c.result h w).memory (w.memory.header b).payload
          (w.memory.header b).size.toNat)
  /-- Blocks of the callers' have to do with an operation only if they are handed to it. -/
  owned : ∀ q, (ledger w.host).Owned w.memory q → ¬ c.Passes q → ¬ c.Concerns w q
  /-- Taking a reference, and giving one up that is not the last, changes the count and nothing
  else. -/
  counted : ∀ b, c.Counts w b → ∃ m H, c.result h w = { w with memory := m, host := H } ∧
    ∀ i < UInt64.size, i ∉ Field.refcount.bytes b → m.byte i = w.memory.byte i
  exchanged : ∀ b, c.Exchanges b → ∃ p n,
    (c.result h w).memory.header b = { w.memory.header b with payload := p, size := n }
  /-- Whoever makes a handle writes its header and, if it is safe, the bytes of its payload. The
  payload of any other handle is not written. -/
  made : ∀ r b v, c = .make r → (r.make h).run w = .ok (.ok b) v →
    (c.footprint h w).writes = {i | i ∈ range b 56 ∨ r.Safe ∧ i ∈ (v.memory.header b).span} ∧
    (¬ r.Safe → ∀ i ∈ (v.memory.header b).span,
      ((ledger (c.result h w).host).Allocated b (v.memory.header b) ∨
        ∃ q ∈ (ledger w.host).blocks, i ∈ range q ((ledger w.host).room q)) →
      i ∉ (c.footprint h w).writes)
  /-- No payload that the runtime allocated is written but at the end of a safe handle. -/
  poisoned : ∀ b ∈ (ledger w.host).handles, (ledger w.host).Allocated b (w.memory.header b) →
    ∀ i ∈ (w.memory.header b).span, i ∈ (c.footprint h w).writes →
      c.Ends w b ∧ (w.memory.header b).Poisons ∧ w.shuttingDown = false
  /-- A handle on memory of the caller's has nothing but its header written and given back. -/
  outer : ∀ b, c.subject = some b → (ledger w.host).own b = false →
    (w.memory.header b).kind = .fixed →
      (c.footprint h w).writes ⊆ range b 56 ∧
      ∀ q ∈ (c.footprint h w).gives, q = b ∨ c.Passes q

namespace Environment

variable {E : Environment} {h : Host History} {w v : World History} {b : Handle} {c : Call}
  {q : Addr} {play : (World History → Program) → Machine History Unit}

/-! ### Blocks that are handed over -/

/-- Operations are called on handles. -/
lemma mem_handles_of_subject (hc : c.Permitted E w) (hs : c.subject = some b) :
    b ∈ (ledger w.host).handles := by
  cases c with
  | acquire b' | release b' | resizableAlloc b' _ | resizableRealloc b' _ =>
    obtain rfl := Option.some.inj hs
    exact hc.1
  | clone r | drop r | callDestructor b' | destroy b' | dealloc b' =>
    obtain rfl := Option.some.inj hs
    exact hc.1
  | resizableFree b' p =>
    obtain rfl := Option.some.inj hs
    exact hc.1.1
  | _ => cases hs

/-- A block that is handed to the runtime is its caller's, or the payload of the handle that the
operation is called on. -/
lemma Steady.passes_cases (hw : E.Steady w) (hc : c.Permitted E w) (hp : c.Passes q)
    (hq : q ∈ (ledger w.host).blocks) : (ledger w.host).Owned w.memory q ∨
      ∃ b, c.subject = some b ∧ q ∈ (w.memory.header b).blocks b := by
  have hne : q ≠ 0 := (hw.sound.laid.fits q hq).1
  cases c with
  | reallocate p size => exact .inl (hp ▸ hc.1)
  | free p =>
    obtain rfl : q = p := hp
    exact .inl (hc.resolve_left hne).1
  | init b data size destructor info ext => exact .inl (hp ▸ hc.1)
  | resizableFree b p =>
    obtain rfl : q = p := hp
    rcases hc.2.resolve_left hne with ⟨hk, he⟩ | ⟨howned, -⟩
    · exact .inr ⟨b, rfl, Header.mem_blocks.2 (.inr ⟨hk, he ▸ hne, he⟩)⟩
    · exact .inl howned
  | _ => exact hp.elim

/-- The blocks of other handles are not concerned. -/
lemma Steady.not_concerns_of_handle (hw : E.Steady w) (hc : c.Permitted E w)
    (hb : b ∈ (ledger w.host).handles) (hs : c.subject ≠ some b)
    (hq : q ∈ (w.memory.header b).blocks b) : ¬ c.Concerns w q := by
  obtain ⟨hout, hnot⟩ := Contained.out_of_mem_blocks hw.sound.headed hb hq
  have hother : ¬ ∃ b', c.subject = some b' ∧ q ∈ (w.memory.header b').blocks b' := by
    rintro ⟨b', hs', hq'⟩
    have hne : b ≠ b' := fun he => hs (he ▸ hs')
    exact Contained.ne_of_mem_blocks hw.sound.headed hb (mem_handles_of_subject hc hs') hne hq hq'
      rfl
  rintro (hp | hown)
  · exact (hw.passes_cases hc hp hout).elim hnot hother
  · exact hother hown

/-- Neither are those blocks of the callers' that are not handed over. -/
lemma Steady.not_concerns_of_owned (hw : E.Steady w) (hc : c.Permitted E w)
    (hq : (ledger w.host).Owned w.memory q) (hp : ¬ c.Passes q) : ¬ c.Concerns w q := by
  rintro (hp' | ⟨b, hs, hq'⟩)
  · exact hp hp'
  · exact (Contained.out_of_mem_blocks hw.sound.headed (mem_handles_of_subject hc hs) hq').2 hq

/-! ### Where the runtime writes -/

/-- What is poisoned at the end of a handle lies in its block, behind the header. -/
lemma Steady.poisons (hw : E.Steady w) (hb : b ∈ (ledger w.host).handles)
    (hp : (w.memory.header b).Poisons) {i : Nat} (hi : i ∈ (w.memory.header b).span) :
    (ledger w.host).own b = true ∧ i ∈ range b ((ledger w.host).room b) ∧ i ∉ range b 56 := by
  have hs := hw.sound.headed.header b hb
  have hown := hs.poisoned hp
  have hfit := (hw.sound.laid.fits b hs.out).2.2
  rw [Header.span, mem_range] at hi
  have hsize : (w.memory.header b).size ≠ 0 := fun h0 => by
    rw [h0, UInt64.toNat_zero] at hi
    omega
  obtain ⟨k, hk, hroom, hpay⟩ := hs.contained hown (.inl hsize)
  have hcases := Memory.toNat_contained hroom hfit hpay
  rw [mem_range, mem_range]
  exact ⟨hown, by omega, by omega⟩

/-- On a handle the runtime writes its header, and its payload if that is poisoned in the end. -/
lemma Steady.writes_cases (hw : E.Steady w) (hc : c.Permitted E w) (hs : c.subject = some b)
    {i : Nat} (hi : i ∈ (c.footprint h w).writes) : i ∈ range b 56 ∨
      c.Ends w b ∧ (w.memory.header b).Poisons ∧ w.shuttingDown = false ∧
        i ∈ (w.memory.header b).span := by
  have hfit := (hw.room_le (mem_handles_of_subject hc hs)).2
  have hfield : ∀ f : Field, i ∈ f.bytes b → i ∈ range b 56 := fun f hf =>
    Memory.range_field_subset f hfit hf
  have hlast : (ledger w.host).Live b → i ∈ (Call.footprint.lastly w b).writes →
      i ∈ range b 56 ∨ (ledger w.host).Sole b ∧ (w.memory.header b).Poisons ∧
        w.shuttingDown = false ∧ i ∈ (w.memory.header b).span := by
    rintro hb (hi | ⟨hone, hup, hp, hi⟩)
    · exact .inl (hfield _ hi)
    · exact .inr ⟨⟨hb.1, (hw.refcount_eq_one_iff hb).1 hone⟩, hp, hup, hi⟩
  cases c with
  | acquire b' | clone r =>
    obtain rfl := Option.some.inj hs
    exact .inl (hfield _ hi)
  | release b' | drop r =>
    obtain rfl := Option.some.inj hs
    exact (hlast hc hi).imp_right fun ⟨hsole, hrest⟩ => ⟨⟨rfl, hsole⟩, hrest⟩
  | callDestructor b' =>
    obtain rfl := Option.some.inj hs
    obtain ⟨hup, hp, hi⟩ := hi
    exact .inr ⟨⟨rfl, hc⟩, hp, hup, hi⟩
  | destroy b' | dealloc b' => exact hi.elim
  | resizableAlloc b' n | resizableRealloc b' n =>
    obtain rfl := Option.some.inj hs
    exact .inl (hi.elim (hfield _) (hfield _))
  | resizableFree b' p =>
    obtain rfl := Option.some.inj hs
    exact .inl (hfield _ hi)
  | _ => cases hs

/-- The runtime writes in the blocks that the operation has to do with, and where no block was. -/
lemma Steady.footprint_written (hw : E.Steady w) (hc : c.Permitted E w) {i : Nat}
    (hi : i ∈ (c.footprint (E.hostOver play) w).writes) : ∃ q n, i ∈ range q n ∧
      (q ∈ (ledger w.host).blocks ∧ n = (ledger w.host).room q ∧ c.Concerns w q ∨
        (ledger w.host).Fresh q n) := by
  cases hs : c.subject with
  | some b =>
    have hb := mem_handles_of_subject hc hs
    refine ⟨b, _, ?_, .inl ⟨hw.mem_blocks hb, rfl, .inr ⟨b, hs, Header.self_mem_blocks _ b⟩⟩⟩
    rcases hw.writes_cases hc hs hi with hi | ⟨-, hp, -, hi⟩
    · exact Memory.range_mono (hw.room_le hb).1 hi
    · exact (hw.poisons hb hp hi).2.1
  | none =>
    cases c with
    | init b data size destructor info ext =>
      exact ⟨b, _, Memory.range_mono hc.2.1 hi, .inl ⟨hc.1.1, rfl, .inl rfl⟩⟩
    | make r =>
      rw [Call.footprint] at hi
      cases hrun : (r.make (E.hostOver play)).run w with
      | ok a v =>
        rw [hrun] at hi
        cases a with
        | ok b =>
          obtain ⟨n, hfresh, hplace⟩ := ((make_answers hw r).lays b v hrun).place
          exact ⟨b, n, hplace hi, .inr hfresh⟩
        | error e => exact hi.elim
      | error e v =>
        rw [hrun] at hi
        exact hi.elim
    | _ => first | exact hi.elim | cases hs

/-- Nothing is written in blocks that the operation has nothing to do with. -/
lemma Steady.not_written (hw : E.Steady w) (hc : c.Permitted E w)
    (hq : q ∈ (ledger w.host).blocks) (hnot : ¬ c.Concerns w q) {i : Nat}
    (hi : i ∈ range q ((ledger w.host).room q)) :
    i ∉ (c.footprint (E.hostOver play) w).writes := by
  intro hwrites
  obtain ⟨p, n, hp, ⟨hout, rfl, hconcerns⟩ | hfresh⟩ := hw.footprint_written hc hwrites
  · have hne : p ≠ q := fun he => hnot (he ▸ hconcerns)
    exact (hw.sound.laid.apart p hout q hq hne).not_mem hp hi
  · exact (hfresh.2.2 q hq).not_mem hp hi

/-! ### What the runtime gives up -/

/-- The end of a handle gives up its own blocks. -/
lemma Steady.ending_gives (hw : E.Steady w) (hb : b ∈ (ledger w.host).handles)
    (hq : q ∈ ((w.memory.header b).ending b w).gives) : q ∈ (w.memory.header b).blocks b := by
  rcases hq with rfl | ⟨-, hd, h0, rfl⟩
  · exact Header.self_mem_blocks _ q
  · exact Header.mem_blocks.2 (.inr ⟨(hw.sound.headed.header b hb).adapter.1 hd, h0, rfl⟩)

/-- An operation on a handle gives up blocks of this handle, and what it is handed. -/
lemma Steady.gives_cases (hw : E.Steady w) (hc : c.Permitted E w) (hs : c.subject = some b)
    (hq : q ∈ (c.footprint h w).gives) : c.Passes q ∨ q ∈ (w.memory.header b).blocks b := by
  have hb := mem_handles_of_subject hc hs
  cases c with
  | acquire b' | clone r | resizableAlloc b' n => exact hq.elim
  | release b' | drop r =>
    obtain rfl := Option.some.inj hs
    exact .inr (hw.ending_gives hb hq.2)
  | callDestructor b' =>
    obtain rfl := Option.some.inj hs
    exact .inr (hw.ending_gives hb hq)
  | destroy b' | dealloc b' =>
    obtain rfl := Option.some.inj hs
    exact .inr (hq ▸ Header.self_mem_blocks _ _)
  | resizableRealloc b' n =>
    obtain rfl := Option.some.inj hs
    exact .inr (Header.mem_blocks.2 (.inr hq))
  | resizableFree b' p => exact .inl hq
  | _ => cases hs

lemma Steady.footprint_given (hw : E.Steady w) (hc : c.Permitted E w)
    (hq : q ∈ (c.footprint h w).gives) (hout : q ∈ (ledger w.host).blocks) : c.Concerns w q := by
  cases hs : c.subject with
  | some b => exact (hw.gives_cases hc hs hq).imp_right fun hown => ⟨b, hs, hown⟩
  | none =>
    cases c with
    | reallocate p n => exact .inl hq
    | free p => exact .inl hq
    | make r =>
      rw [Call.footprint] at hq
      cases hrun : (r.make h).run w with
      | ok a v =>
        rw [hrun] at hq
        cases a with
        | ok b => exact hq.elim
        | error e => exact absurd hout hq
      | error e v =>
        rw [hrun] at hq
        exact absurd hout hq
    | _ => first | exact hq.elim | cases hs

/-! ### What stays -/

/-- The blocks that an operation has nothing to do with stay. -/
lemma Steady.block_stays (hplay : Obeys E play) (hw : E.Steady w) (hm : Marked w)
    (hc : c.Permitted E w) (hpoke : ∀ a bytes, c ≠ .poke a bytes) {T : Set Nat}
    (hcalls : E.Discreet (E.hostOver play) (c.footprint (E.hostOver play) w) w T)
    (hq : q ∈ (ledger w.host).blocks) (hnot : ¬ c.Concerns w q) {i : Nat}
    (hi : i ∈ range q ((ledger w.host).room q)) (hT : i ∉ T) :
    Stays q i w (c.result (E.hostOver play) w) := by
  have hfit := (hw.sound.laid.fits q hq).2.2
  have hlt : i < UInt64.size := by
    rw [mem_range] at hi
    omega
  exact (perform_within hplay hw hm hc hpoke).stays hcalls hq
    (fun hg => hnot (hw.footprint_given hc hg hq)) hlt hi (hw.not_written hc hq hnot hi) hT

/-- Handles that an operation is not called on keep header and payload. -/
lemma Steady.others_framed (hplay : Obeys E play) (hw : E.Steady w) (hm : Marked w)
    (hc : c.Permitted E w) (hpoke : ∀ a bytes, c ≠ .poke a bytes) {T : Set Nat}
    (hcalls : E.Discreet (E.hostOver play) (c.footprint (E.hostOver play) w) w T)
    (hb : b ∈ (ledger w.host).handles) (hs : c.subject ≠ some b)
    (hT : ∀ q ∈ (w.memory.header b).blocks b, ∀ i ∈ range q ((ledger w.host).room q), i ∉ T) :
    (c.result (E.hostOver play) w).memory.header b = w.memory.header b ∧
      (∀ q ∈ (w.memory.header b).blocks b,
        w.memory.AgreeOn (c.result (E.hostOver play) w).memory q ((ledger w.host).room q)) ∧
      ((ledger w.host).Allocated b (w.memory.header b) →
        w.memory.AgreeOn (c.result (E.hostOver play) w).memory (w.memory.header b).payload
          (w.memory.header b).size.toNat) := by
  have hblocks : ∀ q ∈ (w.memory.header b).blocks b,
      w.memory.AgreeOn (c.result (E.hostOver play) w).memory q ((ledger w.host).room q) := by
    intro q hq
    have hout := (Contained.out_of_mem_blocks hw.sound.headed hb hq).1
    have hnot := hw.not_concerns_of_handle hc hb hs hq
    exact Memory.agreeOn_of_mem fun i hi =>
      (hw.block_stays hplay hm hc hpoke hcalls hout hnot hi (hT q hq i hi)).2.2
  refine ⟨?_, hblocks, fun ha => ?_⟩
  · exact Memory.header_congr ((hblocks b (Header.self_mem_blocks _ b)).mono (hw.room_le hb).1)
      (hw.room_le hb).2
  · obtain ⟨q, hq, ⟨-, hlow, hhigh⟩, -⟩ :=
      Contained.inside_payload hw.sound.headed hw.sound.laid hb ha
    exact fun i hi hi' => hblocks q hq i (by omega) (by omega)

/-! ### References and payloads -/

/-- What a caller is not told of a step does not matter to where the step ends. -/
lemma after_silently (x : Machine History Unit) (w : World History) :
    Machine.after (Call.silently x).run w = Machine.after x w := by
  rw [Machine.after, Machine.after, Call.silently, Attempt.lift_bind_apply]
  cases x w <;> rfl

/-- Taking a reference counts a word up, or stops the program. -/
lemma acquire_counted (hw : E.Steady w) (hb : b ∈ (ledger w.host).handles) (e : Event) :
    ∃ m H, Machine.after (do Handle.acquire (E.hostOver play) b; record e) w =
        { w with memory := m, host := H } ∧
      ∀ i < UInt64.size, i ∉ Field.refcount.bytes b → m.byte i = w.memory.byte i := by
  have hrun := acquire_run play hw.sound.correct b
  rw [Machine.after, Machine.bind_apply]
  by_cases h0 : (w.memory.header b).refcount = 0
  · rw [if_pos h0] at hrun
    rw [hrun]
    exact ⟨_, _, rfl, fun _ _ _ => rfl⟩
  · rw [if_neg h0] at hrun
    rw [hrun]
    exact ⟨_, _, rfl, fun _ hi hnot =>
      Memory.byte_setField_of_not_mem _ .refcount _ (hw.room_le hb).2 hi hnot⟩

/-- Giving up a reference that is not the last counts a word down. -/
lemma release_counted (hw : E.Steady w) (hb : (ledger w.host).Live b)
    (h2 : 2 ≤ (ledger w.host).refs b) :
    ∃ m H, Machine.after (do record (.released b); Handle.release (E.hostOver play) b) w =
        { w with memory := m, host := H } ∧
      ∀ i < UInt64.size, i ∉ Field.refcount.bytes b → m.byte i = w.memory.byte i := by
  have hrun := hw.release_shared play hb (by omega)
  rw [Machine.after, record_bind_run]
  by_cases h0 : (w.memory.header b).refcount = 0
  · rw [if_pos h0] at hrun
    rw [hrun]
    exact ⟨_, _, rfl, fun _ _ _ => rfl⟩
  · rw [if_neg h0] at hrun
    rw [hrun]
    exact ⟨_, _, rfl, fun _ hi hnot =>
      Memory.byte_setField_of_not_mem _ .refcount _ (hw.room_le hb.1).2 hi hnot⟩

/-- The calls that count are told by what they do. -/
lemma counts_cases (h : Host History) (hc : c.Permitted E w) (hcount : c.Counts w b) :
    (c.perform h = Call.silently (do Handle.acquire h b; record (.acquired b)) ∨
      2 ≤ (ledger w.host).refs b ∧
        c.perform h = Call.silently (do record (.released b); Handle.release h b)) ∧
      (ledger w.host).Live b := by
  cases c with
  | acquire b' =>
    obtain rfl := hcount
    exact ⟨.inl rfl, hc⟩
  | clone r =>
    obtain rfl := hcount
    exact ⟨.inl (congrArg Call.silently (clone_recorded _ r)), hc⟩
  | release b' | drop r =>
    obtain ⟨rfl, h2⟩ := hcount
    exact ⟨.inr ⟨h2, rfl⟩, hc⟩
  | _ => exact hcount.elim

lemma Steady.counts_only (hw : E.Steady w) (hc : c.Permitted E w) (hcount : c.Counts w b) :
    ∃ m H, c.result (E.hostOver play) w = { w with memory := m, host := H } ∧
      ∀ i < UInt64.size, i ∉ Field.refcount.bytes b → m.byte i = w.memory.byte i := by
  obtain ⟨hdoes | ⟨h2, hdoes⟩, hb⟩ := counts_cases (E.hostOver play) hc hcount
  · rw [Call.result, hdoes, after_silently]
    exact acquire_counted hw hb.1 _
  · rw [Call.result, hdoes, after_silently]
    exact release_counted hw hb h2

/-- A header of which all but payload and size is the same. -/
lemma header_eq_exchanged {d d' : Header}
    (h : ∀ f, f ≠ Field.payload → f ≠ Field.size → d'.get f = d.get f) (hk : d'.kind = d.kind) :
    d' = { d with payload := d'.payload, size := d'.size } := by
  refine Header.ext_get (fun f => ?_) hk
  cases f with
  | payload | size => rfl
  | _ => exact h _ nofun nofun

/-- A header is read off its words, and those that were not written are what they were. -/
lemma header_exchanged {m m' : Memory} (hfit : b.toNat + 56 ≤ UInt64.size)
    (hm : ∀ i ∈ range b 56, i ∉ Field.payload.bytes b ∪ Field.size.bytes b →
      m'.byte i = m.byte i) :
    ∃ p n, m'.header b = { m.header b with payload := p, size := n } := by
  have hop := toNat_add_offset .payload hfit
  have hon := toNat_add_offset .size hfit
  refine ⟨_, _, header_eq_exchanged (fun f hp hn => ?_) ?_⟩
  · have ho := toNat_add_offset f hfit
    have hf := f.offset_le
    have hfp := Field.offset_apart hp
    have hfn := Field.offset_apart hn
    rw [Memory.get_header, Memory.get_header]
    refine Memory.word_congr fun i hi => hm _ ?_ ?_
    · rw [mem_range]
      omega
    · rintro (hin | hin) <;> rw [Field.bytes, mem_range] at hin <;> omega
  · have hk := toNat_add_kind hfit
    have hp := Field.payload.offset_le
    have hn := Field.size.offset_le
    have hbyte : m'.byte (b + 48).toNat = m.byte (b + 48).toNat := by
      refine hm _ ?_ ?_
      · rw [mem_range]
        omega
      · rintro (hin | hin) <;> rw [Field.bytes, mem_range] at hin <;> omega
    simp only [Memory.header, hbyte]

/-- Whatever becomes of a payload that is exchanged, the rest of the header stays. -/
lemma Steady.exchanges_only (hplay : Obeys E play) (hw : E.Steady w) (hm : Marked w)
    (hc : c.Permitted E w) (hexchange : c.Exchanges b) :
    ∃ p n, (c.result (E.hostOver play) w).memory.header b =
      { w.memory.header b with payload := p, size := n } := by
  have hs : c.subject = some b ∧ (∀ a bytes, c ≠ .poke a bytes) ∧
      (c.footprint (E.hostOver play) w).writes ⊆ Field.payload.bytes b ∪ Field.size.bytes b ∧
      (c.footprint (E.hostOver play) w).calls = ∅ := by
    cases c with
    | resizableAlloc b' n | resizableRealloc b' n =>
      obtain rfl := hexchange
      exact ⟨rfl, nofun, subset_rfl, rfl⟩
    | resizableFree b' p =>
      obtain rfl := hexchange
      exact ⟨rfl, nofun, Set.subset_union_left, rfl⟩
    | _ => exact hexchange.elim
  obtain ⟨hs, hpoke, hwrites, hcalls⟩ := hs
  have hb := mem_handles_of_subject hc hs
  obtain ⟨hroom, hfit⟩ := hw.room_le hb
  -- the block of the header is not what is given back, since that is a payload or the caller's
  have hgives : b ∉ (c.footprint (E.hostOver play) w).gives := by
    cases c with
    | resizableAlloc b' n => exact not_false
    | resizableRealloc b' n =>
      obtain rfl := hexchange
      rintro ⟨hk, h0, he⟩
      exact (hw.payload hb hk h0).2.1 (he ▸ hb)
    | resizableFree b' p =>
      obtain rfl := hexchange
      rintro (rfl : b' = p)
      rcases hc.2 with h0 | ⟨hk, he⟩ | ⟨howned, -⟩
      · exact hw.ne_zero hb h0
      · exact (hw.payload hb hk (he ▸ hw.ne_zero hb)).2.1 (he ▸ hb)
      · exact howned.2.1 hb
    | _ => exact hexchange.elim
  refine header_exchanged hfit fun i hi hnot => ?_
  have hlt : i < UInt64.size := by
    rw [mem_range] at hi
    omega
  have hdiscreet : E.Discreet (E.hostOver play) (c.footprint (E.hostOver play) w) w ∅ := by
    rw [Discreet, hcalls]
    exact nofun
  have hstays := (perform_within hplay hw hm hc hpoke).stays hdiscreet (hw.mem_blocks hb) hgives hlt
    (Memory.range_mono hroom hi) (fun hin => hnot (hwrites hin)) (Set.notMem_empty i)
  exact hstays.2.2

/-- A request that is met ends with the new handle being noted. -/
lemma result_make {r : Request} (hrun : (r.make (E.hostOver play)).run w = .ok (.ok b) v) :
    (Call.make r).result (E.hostOver play) w = v.noted (.madeIn v.memory b r.combined) := by
  have hnote : ((Call.make r).perform (E.hostOver play)).run w =
      .ok (.ok b) (v.noted (.madeIn v.memory b r.combined)) := by
    rw [Call.perform, Attempt.bind_apply, hrun]
    exact Attempt.lift_bind_apply v _ _
  rw [Call.result, Machine.after, hnote]

/-- Whoever makes a handle writes no payload but that of the handle, if it is safe. -/
lemma Steady.made_framed (hplay : Obeys E play) (hw : E.Steady w) {r : Request}
    (hc : (Call.make r).Permitted E w)
    (hrun : (r.make (E.hostOver play)).run w = .ok (.ok b) v) :
    ((Call.make r).footprint (E.hostOver play) w).writes =
      {i | i ∈ range b 56 ∨ r.Safe ∧ i ∈ (v.memory.header b).span} ∧
    (¬ r.Safe → ∀ i ∈ (v.memory.header b).span,
      ((ledger ((Call.make r).result (E.hostOver play) w).host).Allocated b (v.memory.header b) ∨
        ∃ q ∈ (ledger w.host).blocks, i ∈ range q ((ledger w.host).room q)) →
      i ∉ ((Call.make r).footprint (E.hostOver play) w).writes) := by
  have hwrites : (Call.make r).footprint (E.hostOver play) w = r.met b (v.memory.header b) := by
    rw [Call.footprint, hrun]
    rfl
  rw [hwrites]
  refine ⟨rfl, fun hsafe i hi hplace hin => ?_⟩
  have hheader : i ∈ range b 56 := hin.resolve_right fun h => hsafe h.1
  rcases hplace with ha | ⟨q, hq, hiq⟩
  · -- after the request is met, header and payload are in their places
    rw [result_make hrun] at ha
    have hmade := make_ends play hplay hw r hc
    have hv : E.Steady (v.noted (.madeIn v.memory b r.combined)) := (hmade.post hrun).1
    have hb : b ∈ (ledger (v.noted (.madeIn v.memory b r.combined)).host).handles :=
      Finset.mem_insert_self _ _
    have hapart := Contained.header_apart_payload hv.sound.headed hv.sound.laid hb hb ha
    exact hapart.not_mem hheader hi
  · obtain ⟨n, hfresh, hsub⟩ := ((make_answers hw r).lays b v hrun).place
    exact (hfresh.2.2 q hq).not_mem (hsub (.inl hheader)) hiq

/-- A payload that the runtime allocated is written only when it is poisoned in the end. -/
lemma Steady.poisoned_framed (hw : E.Steady w) (hc : c.Permitted E w)
    (hb : b ∈ (ledger w.host).handles) (ha : (ledger w.host).Allocated b (w.memory.header b))
    {i : Nat} (hi : i ∈ (w.memory.header b).span)
    (hwrites : i ∈ (c.footprint (E.hostOver play) w).writes) :
    c.Ends w b ∧ (w.memory.header b).Poisons ∧ w.shuttingDown = false := by
  by_cases hs : c.subject = some b
  · rcases hw.writes_cases hc hs hwrites with hheader | ⟨hends, hp, hup, -⟩
    · have hapart := Contained.header_apart_payload hw.sound.headed hw.sound.laid hb hb ha
      exact absurd hi (hapart.not_mem hheader)
    · exact ⟨hends, hp, hup⟩
  · obtain ⟨q, hq, ⟨hout, hlow, hhigh⟩, -⟩ :=
      Contained.inside_payload hw.sound.headed hw.sound.laid hb ha
    have hin : i ∈ range q ((ledger w.host).room q) := by
      rw [Header.span, mem_range] at hi
      rw [mem_range]
      omega
    exact absurd hwrites (hw.not_written hc hout (hw.not_concerns_of_handle hc hb hs hq) hin)

/-- On a handle on memory of the caller's there is nothing to do but with its header. -/
lemma Steady.outer_framed (hw : E.Steady w) (hc : c.Permitted E w) (hs : c.subject = some b)
    (hown : (ledger w.host).own b = false) (hk : (w.memory.header b).kind = .fixed) :
    (c.footprint (E.hostOver play) w).writes ⊆ range b 56 ∧
      ∀ q ∈ (c.footprint (E.hostOver play) w).gives, q = b ∨ c.Passes q := by
  have hb := mem_handles_of_subject hc hs
  refine ⟨fun i hi => ?_, fun q hq => ?_⟩
  · refine (hw.writes_cases hc hs hi).resolve_right fun ⟨_, hp, _, hspan⟩ => ?_
    rw [(hw.poisons hb hp hspan).1] at hown
    cases hown
  · refine (hw.gives_cases hc hs hq).symm.imp_left fun hq' => ?_
    refine (Header.mem_blocks.1 hq').resolve_right fun ⟨hk', _⟩ => ?_
    rw [hk] at hk'
    cases hk'

/-- What an operation leaves alone. -/
lemma Steady.framed (hplay : Obeys E play) (hw : E.Steady w) (hm : Marked w)
    (hc : c.Permitted E w) (hpoke : ∀ a bytes, c ≠ .poke a bytes) :
    Framed E (E.hostOver play) w c where
  moves := perform_within hplay hw hm hc hpoke
  written _ hi := hw.footprint_written hc hi
  given _ hq hout := hw.footprint_given hc hq hout
  kept _ hcalls _ hq hnot _ hi hT := hw.block_stays hplay hm hc hpoke hcalls hq hnot hi hT
  foreign _ hlt hignored hcalls hnot :=
    (perform_within hplay hw hm hc hpoke).foreign hignored hcalls hlt hnot
  others _ hcalls _ hb hs hT := hw.others_framed hplay hm hc hpoke hcalls hb hs hT
  owned _ hq hp := hw.not_concerns_of_owned hc hq hp
  counted _ hcount := hw.counts_only hc hcount
  exchanged _ hexchange := hw.exchanges_only hplay hm hc hexchange
  made r b v he hrun := by
    subst he
    exact hw.made_framed hplay hc hrun
  poisoned _ hb ha _ hi hwrites := hw.poisoned_framed hc hb ha hi hwrites
  outer _ hs hown hk := hw.outer_framed hc hs hown hk

end Environment

/-- **Frames.** At every boundary of every run, every operation that the contract allows leaves
alone what it has nothing to do with, whatever the layout of the blocks that are out. -/
theorem operations_framed (E : Environment) (depth : Nat) (p : Program) (w : World History) :
    Throughout (fun e past => ∀ s, e = .boundary s → ∀ c, c.Permitted E (s.resume past) →
      (∀ a bytes, c ≠ .poke a bytes) → ∀ depth', Framed E (E.host depth') (s.resume past) c)
      (E.history depth p w) := by
  rintro e past hsuffix s rfl c hc hpoke depth'
  obtain ⟨hw, hm⟩ := Environment.steady_of_boundary ((E.lawful_history depth p w).suffix hsuffix)
  obtain ⟨play, hhost, hplay⟩ := E.obeys_host depth'
  rw [hhost]
  exact hw.framed hplay hm hc hpoke

end CountedHeap
