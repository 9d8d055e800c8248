/-
The sample allocator in place of the default heap

Two programs take the same steps, but the second takes some of them by way of the sample allocator.
Step by step they come to the same answers and leave twins behind, through destructors and closures
and whatever these call in turn, to any depth of nesting. So both runs end in the same way, and
nothing that happens in the one can be told from what happens in the other, but by the word of a
header that names the allocator, and by what that word left behind in bytes that nobody wrote since.

* `Environment.Mirrors.permitted_iff`: the contract allows the same steps;
* `Environment.Mirrors.callDestructor_paired`, `Environment.Mirrors.perform_paired`: one step;
* `Environment.Mirrors.run_paired`, `Environment.Mirrors.plays_host`: programs, and those that are
  called from inside;
* `Indistinct`, `sample_indistinguishable`: two runs side by side;
* `Environment.Thrifty.mirrors`: heaps that use memory again without clearing it are among those
  that twins cannot tell apart.
-/
import CountedHeap.Proofs.Outsourcing
import CountedHeap.Proofs.Hosts

namespace CountedHeap

open Memory (Apart range mem_range)

/-! ### Twins and their handles -/

namespace Twins

variable {V : Vouched} {E : Environment} {w v : World History} {b : Handle}

lemma inHand (h : Twins V w v) (hw : E.Steady w) (hb : b ∈ (ledger w.host).handles) :
    Environment.Mirrors.InHand V b w v := .of_handle h hw.sound.laid hb

/-- The headers of handles say the same, except perhaps of their allocator. -/
lemma header (h : Twins V w v) (hw : E.Steady w) (hb : b ∈ (ledger w.host).handles) :
    (w.memory.header b).Sampled (v.memory.header b) := (h.inHand hw hb).header

/-- What a caller may do with as he likes is the same in both states. -/
lemma owned_iff (h : Twins V w v) (hw : E.Steady w) (p : Addr) :
    (ledger w.host).Owned v.memory p ↔ (ledger w.host).Owned w.memory p := by
  refine and_congr_right fun _ => and_congr_right fun _ => forall₂_congr fun b hb => ?_
  rw [(h.header hw hb).others]

lemma live_iff (h : Twins V w v) : (ledger v.host).Live b ↔ (ledger w.host).Live b := by
  rw [h.ledger_eq]

lemma sole_iff (h : Twins V w v) : (ledger v.host).Sole b ↔ (ledger w.host).Sole b := by
  rw [h.ledger_eq]

lemma dying_iff (h : Twins V w v) : (ledger v.host).Dying b ↔ (ledger w.host).Dying b := by
  rw [h.ledger_eq]

end Twins

/-- What a header asks for when its handle ends is no business of any block's. -/
lemma Header.CallsFor.keepsStorage {d : Header} {boxes : Boxes} {e : Event}
    (h : d.CallsFor boxes e) : e.KeepsStorage := by
  cases e <;> first | exact trivial | exact h.elim

/-! ### Headers with another allocator -/

namespace Header.Sampled

variable {σ : Type} {d d' : Header} (h : d.Sampled d')
include h

lemma callOut_eq (k : Host σ) : d'.callOut k = d.callOut k := by
  rw [h.others]
  simp only [callOut]

lemma aftermath_eq (k : Host σ) (c : Option Nat) : d'.aftermath k c = d.aftermath k c := by
  rw [h.others]
  simp only [aftermath]

lemma completed_eq (E : Environment) (w : World History) :
    E.completed d' w = E.completed d w := by
  rw [h.others]
  simp only [Environment.completed]

lemma callsFor {boxes : Boxes} {e : Event} (he : d.CallsFor boxes e) : d'.CallsFor boxes e := by
  rw [h.others]
  cases e <;> exact he

end Header.Sampled

namespace Environment.Mirrors

variable {V : Vouched} {E E' : Environment} {w v : World History} {b : Handle} {p : Addr}
  {d : Header}
  {play play' : (World History → Program) → Machine History Unit}

/-- The contract allows the same steps in both runs. -/
lemma permitted_iff (hE : Mirrors V E E') (hw : E.Steady w) (h : Twins V w v) {c c' : Call}
    (hc : c.Outsourced c') : c'.Permitted E' v ↔ c.Permitted E w := by
  have howned := h.owned_iff hw
  cases hc with
  | allocate size => exact Iff.rfl
  | make hr => cases hr <;> exact Iff.rfl
  | same =>
    cases c with
    | resizableFree b p =>
      simp only [Call.Permitted, h.ledger_eq, h.bindings, howned]
      refine and_congr_right fun hb => ?_
      rw [(h.header hw hb.1).others]
    | init b data size destructor info ext =>
      simp only [Call.Permitted, h.ledger_eq, h.bindings, howned, hE.sourceAt_eq _ (.same ext)]
    | setIncDec q => exact hE.correct_iff q
    | _ => simp only [Call.Permitted, h.ledger_eq, h.bindings, howned]

/-! ### Counts -/

/-- A reference is taken in both runs, or in none. -/
lemma acquire_paired (hw : E.Steady w) (hv : E'.Steady v) (h : Twins V w v)
    (hb : b ∈ (ledger w.host).handles) :
    Paired V (fun _ => Twins V) ((do Handle.acquire (E.hostOver play) b; record (.acquired b)) w)
      ((do Handle.acquire (E'.hostOver play') b; record (.acquired b)) v) := by
  have hhand := h.inHand hw hb
  have hcount : (v.memory.header b).refcount = (w.memory.header b).refcount := by
    rw [hhand.header.others]
  rw [Machine.bind_apply, Machine.bind_apply, acquire_run play hw.sound.correct,
    acquire_run play' hv.sound.correct, hcount]
  by_cases h0 : (w.memory.header b).refcount = 0
  · simp only [if_pos h0]
    exact .error h
  · simp only [if_neg h0, record_run]
    exact .ok ((hhand.recount _).noted hb trivial fun _ => rfl)

/-- A reference that is not the last one is given up in both runs, or in none. -/
lemma release_shared_paired (hw : E.Steady w) (hv : E'.Steady v) (h : Twins V w v)
    (hb : (ledger w.host).Live b) (h1 : (ledger w.host).refs b ≠ 1) :
    Paired V (fun _ => Twins V)
      (Handle.release (E.hostOver play) b (w.noted (.released b)))
      (Handle.release (E'.hostOver play') b (v.noted (.released b))) := by
  have hcount : (v.memory.header b).refcount = (w.memory.header b).refcount := by
    rw [(h.header hw hb.1).others]
  have hnoted : Twins V (w.noted (.released b)) (v.noted (.released b)) :=
    h.noted trivial fun _ => rfl
  rw [hw.release_shared play hb h1,
    hv.release_shared play' (h.live_iff.2 hb) (by rwa [h.ledger_eq]), hcount, h.ledger_eq]
  split
  · exact .error hnoted
  · have hL : (ledger (w.noted (.released b)).host).Laid w.bindings.heap.addr :=
      ⟨hw.sound.laid.fits, hw.sound.laid.apart, hw.sound.laid.bound⟩
    have hhand : InHand V b (w.noted (.released b)) (v.noted (.released b)) :=
      .of_handle hnoted hL hb.1
    exact .ok ((hhand.recount _).twins hb.1)

/-! ### How handles end -/

section Ends

variable (hE : Mirrors V E E')
include hE

/-- The payload is poisoned or given back in both runs. -/
lemma completed_paired (hw : E.Steady w) (h : Twins V w v) (hb : b ∈ (ledger w.host).handles) :
    Twins V (E.completed (w.memory.header b) w) (E'.completed (w.memory.header b) v) := by
  have hs := hw.sound.headed.header b hb
  obtain ⟨d, hh⟩ : ∃ d, w.memory.header b = d := ⟨_, rfl⟩
  rw [hh] at hs ⊢
  have hwiped : (ledger w.host).own b = true → Twins V
      { w with memory := w.memory.fill d.payload d.size.toNat Poison.freed }
      { v with memory := v.memory.fill d.payload d.size.toNat Poison.freed } := by
    intro hown
    subst hh
    obtain ⟨D, hD, htwin⟩ := h
    have hfill := Memory.Writes.fill (w.memory.header b).payload
      (w.memory.header b).size.toNat Poison.freed
    have hput := htwin.put_apart hw.sound.laid hfill fun c hc hn =>
      hw.apart_own_payload hb hown (.inl (hD hc)) hn
    exact ⟨D, hD, hput.mono (unwritten_subset Set.sdiff_subset subset_rfl fun c hc =>
      .inl ⟨hc, furnished_of_header rfl (hw.header_wiped hb hown _ (.inl hc))⟩)⟩
  unfold completed
  cases ha : Adapter.ofAddr? d.destructor with
  | none => exact h
  | some a =>
    have hda := Adapter.eq_of_ofAddr? ha
    cases a with
    | customSafe => exact hwiped (hs.poisoned (.inl hda))
    | safe => exact hwiped (hs.poisoned (.inr hda))
    | resizable =>
      dsimp only
      rw [h.bindings]
      by_cases h0 : d.payload = 0
      · rw [if_pos h0, if_pos h0]
        exact h
      · rw [if_neg h0, if_neg h0]
        exact hE.handedBack_twins h hw.sound.laid ((hs.exchange (hs.adapter.1 hda)).2.2 h0).1
    | _ => exact h

/-- Once the caller's part of a destructor is over, the rest is the same in both runs, where no
closure was called. -/
lemma rest_paired (hw : E.Steady w) (hv : E'.Steady v) (h : Twins V w v)
    (hb : b ∈ (ledger w.host).handles) (hh : w.memory.header b = d) :
    Paired V (fun _ => Twins V)
      ((do
        Machine.withoutUnwinding (d.aftermath (E.hostOver play) none)
        Handle.destroy (E.hostOver play) b) w)
      ((do
        Machine.withoutUnwinding (d.aftermath (E'.hostOver play') none)
        Handle.destroy (E'.hostOver play') b) v) := by
  have hb' : b ∈ (ledger v.host).handles := by rwa [h.ledger_eq]
  have hsampled := h.header hw hb
  rw [hh] at hsampled
  have hrun := aftermath_run play hw hb
  have hrun' := aftermath_run play' hv hb'
  have hcleared := hw.completed_cleared hb
  have hcleared' := hv.completed_cleared hb'
  have htwins := hE.completed_paired hw h hb
  rw [hh] at hrun hcleared htwins
  rw [hsampled.aftermath_eq, hsampled.completed_eq] at hrun'
  rw [hsampled.completed_eq] at hcleared'
  rw [Machine.bind_apply, Machine.bind_apply, Machine.withoutUnwinding_eq_ok.2 hrun,
    Machine.withoutUnwinding_eq_ok.2 hrun']
  dsimp only
  rw [hw.destroy_of hb (hcleared.headers b hb) hcleared.bindings,
    hv.destroy_of hb' (hcleared'.headers b hb') hcleared'.bindings, h.ledger_eq]
  refine .ok (hE.destroyed_twins htwins ?_ ⟨?_, congrFun hcleared.source b⟩)
  · rw [hcleared.bindings]
    exact hcleared.laid hw.sound.laid
  · exact (hcleared.blocks b).2 ⟨hw.mem_blocks hb, fun _ => rfl⟩

end Ends

section Calls

variable (hE : Mirrors V E E') (hplays : Plays V E E' play play') (hplay : Obeys E play)
  (hplay' : Obeys E' play')
include hE hplays

/-- The caller's part of a destructor is the same call in both runs, or none. -/
lemma callOut_paired (hw : E.Steady w) (hv : E'.Steady v) (h : Twins V w v) (hb : Begun b w)
    (hb' : Begun b v) (hh : w.memory.header b = d)
    (hh' : d.Sampled (v.memory.header b)) :
    Paired V (fun _ => Twins V) (d.callOut (E.hostOver play) w)
      (d.callOut (E'.hostOver play') v) := by
  rw [callOut_run, callOut_run, h.boxes]
  cases hcall : d.call? w.boxes with
  | none => exact .ok h
  | some e =>
    have hcalls := Header.callsFor_of_call? hcall
    obtain ⟨hquiet, hledger⟩ := hcalls.quiet
    have hcalls' : (v.memory.header b).CallsFor v.boxes e := by
      rw [h.boxes]
      exact hh'.callsFor hcalls
    have hlaw : E.Lawful e w.host := lawful_of_begun hb (hh ▸ hcalls)
    have hlaw' : E'.Lawful e v.host := lawful_of_begun hb' hcalls'
    have hempty := (hw.withBoxes (d.emptied w.boxes)).1
    have hempty' := (hv.withBoxes (d.emptied w.boxes)).1
    have hresponse := hE.response_paired hplays hcalls.keepsStorage hledger
      (hempty.noted (hledger _) hquiet hlaw).1 (hempty'.noted (hledger _) hquiet hlaw').1
      (h.withBoxes fun _ => d.emptied w.boxes)
    dsimp only
    rw [← bind_assoc, ← bind_assoc]
    exact hresponse.bind fun _ w' v' _ _ h' => .ok h'

include hplay hplay'

/-- A handle ends in the same way in both runs. -/
lemma callDestructor_paired (hw : E.Steady w) (hv : E'.Steady v) (h : Twins V w v)
    (hdying : (ledger w.host).Dying b)
    (hbegun : w.shuttingDown = false → Begun b w ∧ Begun b v) :
    Paired V (fun _ => Twins V) (Handle.callDestructor (E.hostOver play) b w)
      (Handle.callDestructor (E'.hostOver play') b v) := by
  have hdying' : (ledger v.host).Dying b := h.dying_iff.2 hdying
  have hdestroy : Paired V (fun _ => Twins V) (Handle.destroy (E.hostOver play) b w)
      (Handle.destroy (E'.hostOver play') b v) := by
    rw [hw.destroy_of hdying.1 rfl rfl, hv.destroy_of hdying'.1 rfl rfl, h.ledger_eq]
    exact .ok (hE.destroyed_twins h hw.sound.laid ⟨hw.mem_blocks hdying.1, rfl⟩)
  have hsampled := h.header hw hdying.1
  obtain ⟨d, hh⟩ : ∃ d, w.memory.header b = d := ⟨_, rfl⟩
  rw [hh] at hsampled
  have hd' : (v.memory.header b).destructor = d.destructor := by rw [hsampled.others]
  by_cases hcall : d.destructor ≠ 0 ∧ ¬ w.shuttingDown
  · have hup : w.shuttingDown = false := by simpa using hcall.2
    obtain ⟨hb, hb'⟩ := hbegun hup
    have hcallOut := hsampled.callOut_eq (E'.hostOver play')
    rw [callDestructor_parts hup (by rw [hh]; exact hcall.1),
      callDestructor_parts (h.shuttingDown.trans hup) (by rw [hd']; exact hcall.1), hh, hcallOut]
    refine (hE.callOut_paired hplays hw hv h hb hb' hh hsampled).withoutUnwinding.bind
      fun c w' v' hx hy h' => ?_
    obtain ⟨hreach, hboxed⟩ := (callOut_ends hplay hw hb hh).withoutUnwinding.post hx
    have hreach' := ((callOut_ends hplay' hv hb' rfl).post
      ((congrFun hcallOut v).trans (Machine.withoutUnwinding_eq_ok.1 hy))).1
    obtain ⟨hdying₁, hheader₁⟩ := hreach.2 b hdying
    cases c with
    | none =>
      rw [hsampled.aftermath_eq]
      exact hE.rest_paired hreach.1 hreach'.1 h' hdying₁.1 (hheader₁.trans hh)
    | some c =>
      have hdrop : ∀ k : Host History, d.aftermath k (some c) = k.dropClosure c := fun k => by
        unfold Header.aftermath
        rw [hboxed c rfl, Adapter.ofAddr?_addr]
      rw [hsampled.aftermath_eq, hdrop, hdrop]
      refine (hE.dropClosure_paired hplays hreach.1 hreach'.1 h' c).withoutUnwinding.bind
        fun _ w₂ v₂ hx₂ hy₂ h₂ => ?_
      have hreach₂ := (dropClosure_ends play hplay hreach.1 c).withoutUnwinding.post hx₂
      have hreach₂' := (dropClosure_ends play' hplay' hreach'.1 c).withoutUnwinding.post hy₂
      obtain ⟨hdying₂, -⟩ := hreach₂.2 b hdying₁
      have hdying₂' : (ledger v₂.host).Dying b := h₂.dying_iff.2 hdying₂
      rw [hreach₂.1.destroy_of hdying₂.1 rfl rfl, hreach₂'.1.destroy_of hdying₂'.1 rfl rfl,
        h₂.ledger_eq]
      exact .ok (hE.destroyed_twins h₂ hreach₂.1.sound.laid
        ⟨hreach₂.1.mem_blocks hdying₂.1, rfl⟩)
  · have hcall' : ¬ ((v.memory.header b).destructor ≠ 0 ∧ ¬ v.shuttingDown) := by
      rwa [hd', h.shuttingDown]
    rw [callDestructor_run, callDestructor_run, hh, if_neg hcall, if_neg hcall']
    exact hdestroy

/-- A reference is given up in both runs, and the last one ends the handle in both. -/
lemma release_paired (hw : E.Steady w) (hv : E'.Steady v) (hm : Marked w) (hm' : Marked v)
    (h : Twins V w v) (hb : (ledger w.host).Live b) :
    Paired V (fun _ => Twins V) ((do record (.released b); Handle.release (E.hostOver play) b) w)
      ((do record (.released b); Handle.release (E'.hostOver play') b) v) := by
  rw [record_bind_run, record_bind_run]
  by_cases h1 : (ledger w.host).refs b = 1
  · have hsole : (ledger w.host).Sole b := ⟨hb.1, h1⟩
    have hsole' : (ledger v.host).Sole b := h.sole_iff.2 hsole
    obtain ⟨hreleased, hdying⟩ := hw.released_last hsole
    obtain ⟨hreleased', -⟩ := hv.released_last hsole'
    have hhand := h.inHand hw hb.1
    rw [hw.release_last hsole, hv.release_last hsole']
    refine hE.callDestructor_paired hplays hplay hplay' hreleased hreleased'
      ((hhand.recount 0).noted hb.1 trivial fun _ => rfl) hdying
      fun hup => ⟨?_, ?_⟩
    · exact begun_of_marked hm hsole hup (.inl rfl) rfl rfl
        (Memory.header_setField w.memory .refcount 0 (hw.room_le hb.1).2)
    · exact begun_of_marked hm' hsole' (h.shuttingDown.trans hup) (.inl rfl) rfl rfl
        (Memory.header_setField v.memory .refcount 0 (hv.room_le hsole'.1).2)
  · exact release_shared_paired hw hv h hb h1

/-- A handle is ended by hand in both runs. -/
lemma ending_paired (hw : E.Steady w) (hv : E'.Steady v) (hm : Marked w) (hm' : Marked v)
    (h : Twins V w v) (hb : (ledger w.host).Sole b) :
    Paired V (fun _ => Twins V)
      ((do record (.ending b); Handle.callDestructor (E.hostOver play) b) w)
      ((do record (.ending b); Handle.callDestructor (E'.hostOver play') b) v) := by
  have hb' : (ledger v.host).Sole b := h.sole_iff.2 hb
  obtain ⟨hending, hdying⟩ := hw.ending_last hb
  obtain ⟨hending', -⟩ := hv.ending_last hb'
  rw [record_bind_run, record_bind_run]
  refine hE.callDestructor_paired hplays hplay hplay' hending hending'
    (h.noted trivial fun _ => rfl) hdying fun hup => ⟨?_, ?_⟩
  · exact begun_of_marked hm hb hup (.inr rfl) rfl rfl (v := (w.memory.header b).refcount) rfl
  · exact begun_of_marked hm' hb' (h.shuttingDown.trans hup) (.inr rfl) rfl rfl
      (v := (v.memory.header b).refcount) rfl

end Calls

/-! ### Steps -/

/-- A request for a handle, once the caller is told of it. -/
lemma made_paired (hE : Mirrors V E E') (hplays : Plays V E E' play play') (hw : E.Steady w)
    (hv : E'.Steady v) (h : Twins V w v) {r r' : Request} (hr : r.Outsourced r')
    (hplain : r.Plain) :
    Paired V (fun a w' v' => Twins V w' v' ∧ ∀ b, a = .ok b →
        (w'.memory.header b).external = r.external ∧ (v'.memory.header b).external = r'.external)
      (((Call.make r).perform (E.hostOver play)).run w)
      (((Call.make r').perform (E'.hostOver play')).run v) := by
  have hown : r'.combined = r.combined := by cases hr <;> rfl
  refine Paired.attempt_bind (hE.make_paired hplays hw hv h hr hplain) (fun b w' v' hborn => ?_)
    fun e w' v' h => ⟨h, nofun⟩
  simp only [Attempt.lift_bind_apply, recordMade_run, Attempt.pure_apply, hown]
  refine .ok ⟨hborn.told r.combined, fun b' hb' => ?_⟩
  obtain rfl := Except.ok.inj hb'
  exact ⟨hborn.named, hborn.named'⟩

/-- A block of the caller's becomes a handle in both runs. -/
lemma init_paired (hw : E.Steady w) (hv : E'.Steady v) (h : Twins V w v) {data : Addr} {size : Word}
    {destructor info ext : Addr} (hb : (ledger w.host).Owned w.memory b)
    (hroom : 56 ≤ (ledger w.host).room b) (hforeign : IsForeign destructor) :
    Paired V (fun _ => Twins V)
      ((do Handle.init (E.hostOver play) b data size destructor info ext
           Call.recordMade b false) w)
      ((do Handle.init (E'.hostOver play') b data size destructor info ext
           Call.recordMade b false) v) := by
  have hserved : Served V w w v := .refl h hw.sound.laid
  have hvacant : Vacant ((ledger w.host).source b) 56 b w := ⟨⟨hb.1, rfl⟩, hroom, hb.2.1⟩
  have hplain : ¬ (⟨1, destructor, info, data, size, ext, .fixed⟩ : Header).Poisons := fun hp =>
    hp.elim (IsForeign.ne_addr hforeign _) (IsForeign.ne_addr hforeign _)
  rw [Machine.bind_apply, Machine.bind_apply, Handle.init, Handle.init,
    initWith_run play hw.sound.correct, initWith_run play' hv.sound.correct]
  simp only [recordMade_run]
  exact .ok ((hserved.born hvacant le_rfl
    (.refl ⟨1, destructor, info, data, size, ext, .fixed⟩) hplain).told false)

/-- The storage of a handle goes in both runs. -/
lemma destroy_paired (hE : Mirrors V E E') (hw : E.Steady w) (hv : E'.Steady v) (h : Twins V w v)
    (hb : (ledger w.host).Sole b) :
    Paired V (fun _ => Twins V)
      ((do record (.ending b); Handle.destroy (E.hostOver play) b) w)
      ((do record (.ending b); Handle.destroy (E'.hostOver play') b) v) := by
  obtain ⟨hending, hdying⟩ := hw.ending_last hb
  obtain ⟨hending', hdying'⟩ := hv.ending_last (h.sole_iff.2 hb)
  have hnoted : Twins V (w.noted (.ending b)) (v.noted (.ending b)) :=
    h.noted trivial fun _ => rfl
  rw [record_bind_run, record_bind_run, hending.destroy_of hdying.1 rfl rfl,
    hending'.destroy_of hdying'.1 rfl rfl, hnoted.ledger_eq]
  exact .ok (hE.destroyed_twins hnoted hending.sound.laid ⟨hending.mem_blocks hdying.1, rfl⟩)

/-- So does the storage of a handle that is not ended. -/
lemma dealloc_paired (hE : Mirrors V E E') (hw : E.Steady w) (hv : E'.Steady v) (h : Twins V w v)
    (hb : (ledger w.host).Sole b) :
    Paired V (fun _ => Twins V)
      ((do record (.abandoned b); Handle.dealloc (E.hostOver play) b) w)
      ((do record (.abandoned b); Handle.dealloc (E'.hostOver play') b) v) := by
  have hsource := (hw.sound.headed.header b hb.1).source
  have hsource' := (hv.sound.headed.header b (h.sole_iff.2 hb).1).source
  rw [h.ledger_eq] at hsource'
  obtain ⟨D, hD, htwin⟩ := h
  have hnoted : Twin V (unwritten V (w.noted (.abandoned b))) D (w.noted (.abandoned b))
      (v.noted (.abandoned b)) := by
    exact (htwin.noted (e := .abandoned b) trivial (htwin.headed.erase b)).mono
      (unwritten_mono subset_rfl (V.bytes_cons (.abandoned b) w.host not_false) fun c hc =>
        ⟨Finset.mem_of_mem_erase hc, rfl, rfl⟩)
  have hL : (ledger (w.noted (.abandoned b)).host).Laid w.bindings.heap.addr :=
    ⟨hw.sound.laid.fits, hw.sound.laid.apart, hw.sound.laid.bound⟩
  have hrun := dealloc_run play (w := w.noted (.abandoned b)) hw.sound.correct (hw.ne_zero hb.1)
  have hrun' := dealloc_run play' (w := v.noted (.abandoned b)) hv.sound.correct
    (hw.ne_zero hb.1)
  rw [record_bind_run, record_bind_run, hrun, hrun']
  simp only [World.noted_memory]
  have hback := hE.handedBack hnoted hL (s := (ledger w.host).source b) ⟨hw.mem_blocks hb.1, rfl⟩
  rw [show (w.noted (.abandoned b)).bindings = w.bindings from rfl, ← hsource,
    show (v.noted (.abandoned b)).bindings = v.bindings from rfl, ← hsource']
  exact .ok ⟨D.erase b, (Finset.erase_subset_erase b hD).trans (by
    show (ledger w.host).handles.erase b ⊆ ((ledger w.host).handles.erase b).erase b
    rw [Finset.erase_idem]), hback⟩

/-- A default heap is installed in both runs, or refused in both. -/
lemma setAllocator_paired (h : Twins V w v) (o : HeapObject) :
    Paired V (fun _ => Twins V) (setAllocator (E.hostOver play) o w)
      (setAllocator (E'.hostOver play') o v) := by
  rw [setAllocator_run, setAllocator_run, h.bindings, h.stats]
  split
  · exact .error h
  · exact .ok (h.withBindings fun bs => { bs with heap := o })

/-- Both runs start afresh. -/
lemma start_paired (h : Twins V w v) (hempty : (ledger w.host).handles = ∅) :
    Paired V (fun _ => Twins V) ((do start (E.hostOver play); record .started) w)
      ((do start (E'.hostOver play'); record .started) v) := by
  simp only [start, Machine.bind_apply, Machine.modify_apply, trace_run, record_run]
  exact .ok (h.started hempty)

/-- What becomes of a request for another payload is written down. -/
lemma refilled_paired {x y : Attempt History Addr} {n : Word}
    (hxy : Paired V (Refilled V b n) (x.run w) (y.run v)) :
    Paired V (fun _ => Twins V)
      ((do let p ← x
           record (.refilled b p n)
           return p : Attempt History Addr).run w)
      ((do let p ← y
           record (.refilled b p n)
           return p : Attempt History Addr).run v) := by
  refine Paired.attempt_bind hxy (fun p w' v' h => ?_) fun e w' v' h => h
  simp only [Attempt.lift_bind_apply, record_run, Attempt.pure_apply]
  exact .ok h

/-- Every step that the contract allows comes to the same answer in both runs. -/
theorem perform_paired (hE : Mirrors V E E') (hplays : Plays V E E' play play')
    (hplay : Obeys E play) (hplay' : Obeys E' play') (hw : E.Steady w) (hv : E'.Steady v)
    (hm : Marked w) (hm' : Marked v) (h : Twins V w v) {c c' : Call} (hc : c.Outsourced c')
    (hp : c.Permitted E w) :
    Paired V (fun _ => Twins V) ((c.perform (E.hostOver play)).run w)
      ((c'.perform (E'.hostOver play')).run v) := by
  have hstorage : ∀ {ext ext' : Addr}, Sampled ext ext' → ∀ n, Paired V (fun _ => Twins V)
      ((Storage.allocateFrom (E.hostOver play) ext n).run w)
      ((Storage.allocateFrom (E'.hostOver play') ext' n).run v) := fun hext n =>
    (hE.allocateFrom_paired h hw.sound.laid hw.sound.correct hext n).mono
      fun _ _ _ hanswer => hanswer.1.twins
  cases hc with
  | allocate size => exact hstorage .sample size
  | make hr => exact (hE.made_paired hplays hw hv h hr hp).mono fun _ _ _ h => h.1
  | same =>
    cases c with
    | allocateFrom ext size => exact hstorage (.same ext) size
    | reallocate q size =>
      exact (hE.reallocate_paired h hw.sound.laid ⟨hp.1.1, hp.2⟩ hp.1.2.1 size).mono
        fun _ _ _ hresized => hresized.twins
    | free q =>
      refine Paired.silently ?_
      rw [free_run play hw.sound.correct, free_run play' hv.sound.correct, h.bindings]
      refine .ok ?_
      by_cases h0 : q = 0
      · rwa [if_pos h0, if_pos h0]
      · obtain ⟨howned, hsource⟩ := hp.resolve_left h0
        rw [if_neg h0, if_neg h0]
        exact hE.handedBack_twins h hw.sound.laid ⟨howned.1, hsource⟩
    | make r => exact (hE.made_paired hplays hw hv h (.same r) hp).mono fun _ _ _ h => h.1
    | init b data size destructor info ext =>
      exact (init_paired hw hv h hp.1 hp.2.1 hp.2.2.2).silently
    | acquire b => exact (acquire_paired hw hv h hp.1).silently
    | release b => exact (hE.release_paired hplays hplay hplay' hw hv hm hm' h hp).silently
    | callDestructor b => exact (hE.ending_paired hplays hplay hplay' hw hv hm hm' h hp).silently
    | destroy b => exact (hE.destroy_paired hw hv h hp).silently
    | dealloc b => exact (hE.dealloc_paired hw hv h hp).silently
    | clone r =>
      refine Paired.silently ?_
      rw [clone_recorded, clone_recorded]
      exact acquire_paired hw hv h hp.1
    | drop r => exact (hE.release_paired hplays hplay hplay' hw hv hm hm' h hp).silently
    | resizableAlloc b size => exact refilled_paired (hE.resizableAlloc_paired hw h hp.1 size)
    | resizableRealloc b size => exact refilled_paired (hE.resizableRealloc_paired hw h hp.1 size)
    | resizableFree b q =>
      refine Paired.silently ((hE.resizableFree_paired hw h hp).bind fun _ w' v' _ _ h' => ?_)
      exact .ok h'
    | setAllocator o => exact (setAllocator_paired h o).silently
    | installFunctions f =>
      have hintern : ∀ u : World History, (internFunctions f : Machine History HeapObject) u =
          .ok (u.interned.intern f).1 (u.withTriple f) := fun _ => rfl
      refine Paired.silently ?_
      rw [Machine.bind_apply, Machine.bind_apply, hintern, hintern, h.interned]
      exact setAllocator_paired (h.withInterned fun r => (r.intern f).2) _
    | setIncDec q => exact Paired.silently (.ok (h.withBindings fun bs => { bs with incDec := q }))
    | setCompareSwap q =>
      exact Paired.silently (.ok (h.withBindings fun bs => { bs with cas := q }))
    | shutDown =>
      refine Paired.silently ?_
      simp only [shutDown, setIncDec, setCompareSwap, Machine.bind_apply, Machine.modify_apply,
        trace_run]
      exact .ok (h.down.withBindings fun bs => { bs with incDec := .stub, cas := .stub })
    | start => exact (start_paired h (hw.handles_eq_empty hp)).silently
    | poke a bytes => exact Paired.silently (.ok (h.poked hw.sound.laid hp.1 hp.2))

/-! ### Programs -/

/-- Programs go on from twins that are steady once they are written down. -/
lemma marked_run_paired (hE : Mirrors V E E') (hplays : Plays V E E' play play')
    (hplay : Obeys E play) (hplay' : Obeys E' play') {p p' : Program} (hp : p.Outsourced V p')
    (hw : E.Steady w.marked) (hv : E'.Steady v.marked) (h : Twins V w v) :
    Paired V (fun _ => Twins V) (p.run E (E.hostOver play) w)
      (p'.run E' (E'.hostOver play') v) := by
  induction hp generalizing w v with
  | done => exact .ok h.marked
  | panic message => exact .error h.marked
  | @step c c' next next' hc hnext ih =>
    have hmark : ∀ u : World History, Program.mark u = .ok () u.marked := fun _ => rfl
    rw [Program.run, Program.run, Machine.bind_apply, Machine.bind_apply, hmark, hmark]
    dsimp only
    rw [Machine.bind_apply, Machine.bind_apply, Machine.get_apply, Machine.get_apply]
    dsimp only
    by_cases hperm : c.Permitted E w.marked
    · have hperm' := (hE.permitted_iff hw h.marked hc).2 hperm
      rw [if_pos hperm, if_pos hperm']
      have hstep := hE.perform_paired hplays hplay hplay' hw hv ⟨w.host, rfl⟩ ⟨v.host, rfl⟩
        h.marked hc hperm
      refine hstep.bind fun a w' v' hx hy h' => ?_
      have hreach := (perform_ends hplay hw ⟨w.host, rfl⟩ hperm).post hx
      have hreach' := (perform_ends hplay' hv ⟨v.host, rfl⟩ hperm').post hy
      rw [Machine.bind_apply, Machine.bind_apply, Machine.get_apply, Machine.get_apply]
      exact ih a w' v' h' hreach.1 hreach'.1 h'
    · have hperm' := mt (hE.permitted_iff hw h.marked hc).1 hperm
      rw [if_neg hperm, if_neg hperm']
      exact .ok h.marked

/-- Programs that take the same steps come to the same end. -/
theorem run_paired (hE : Mirrors V E E') (hplays : Plays V E E' play play') (hplay : Obeys E play)
    (hplay' : Obeys E' play') {p p' : Program} (hp : p.Outsourced V p') (hw : E.Steady w)
    (hv : E'.Steady v) (h : Twins V w v) :
    Paired V (fun _ => Twins V) (p.run E (E.hostOver play) w) (p'.run E' (E'.hostOver play') v) :=
  hE.marked_run_paired hplays hplay hplay' hp hw.marked.1 hv.marked.1 h

/-- So do those that are called from inside, however deep the calls are nested. -/
theorem plays_host (hE : Mirrors V E E') (depth : Nat) :
    ∃ play play', E.host depth = E.hostOver play ∧ E'.host depth = E'.hostOver play' ∧
      Obeys E play ∧ Obeys E' play' ∧ Plays V E E' play play' := by
  induction depth with
  | zero =>
    exact ⟨_, _, rfl, rfl, obeys_tooDeep, obeys_tooDeep, fun _ _ _ w v _ _ h => .error h⟩
  | succ depth ih =>
    obtain ⟨play, play', hhost, hhost', hplay, hplay', hplays⟩ := ih
    refine ⟨_, _, rfl, rfl, ?_, ?_, fun p p' hp w v hw hv h => ?_⟩
    · rw [hhost]
      exact obeys_run hplay
    · rw [hhost']
      exact obeys_run hplay'
    · rw [hhost, hhost']
      exact hE.run_paired hplays hplay hplay' (hp w v h) hw hv h

/-- Whole runs from a fresh start. -/
theorem session_paired (hE : Mirrors V E E') (depth : Nat) {p p' : Program} (hp : p.Outsourced V p')
    (w : World History) :
    Paired V (fun _ => Twins V) (E.session depth p { w with host := [] })
      (E'.session depth p' { w with host := [] }) := by
  obtain ⟨play, play', hhost, hhost', hplay, hplay', hplays⟩ := hE.plays_host depth
  have hnone : (ledger []).Housing ∅ := fun b hb => absurd hb (Finset.notMem_empty b)
  have htwins : Twins V { w with host := [] } { w with host := [] } :=
    ⟨∅, Finset.empty_subset _, .refl _ _, hnone, hnone, .nil, rfl, rfl, rfl, rfl, rfl, rfl⟩
  rw [session, session, hhost, hhost', ← bind_assoc, ← bind_assoc]
  refine (start_paired htwins rfl).bind fun _ w' v' hx hy h => ?_
  have hstarted := (started_ends Throughout.nil Recalled.nil rfl).post hx
  have hstarted' := (started_ends Throughout.nil Recalled.nil rfl).post hy
  exact hE.run_paired hplays hplay hplay' hp hstarted.1 hstarted'.1 h

end Environment.Mirrors

/-! ### Two runs side by side -/

/-- Two states between two steps that nobody can tell apart, but by the word of a header that names
the allocator and by bytes that nobody wrote. Whatever is done next by way of the sample allocator
comes to the same answer as without it, and only a handle that was asked for in this way names the
sample allocator in its place. -/
structure Indistinct (V : Vouched) (E E' : Environment) (w v : World History) : Prop where
  out : ledger v.host = ledger w.host
  bindings : v.bindings = w.bindings
  shuttingDown : v.shuttingDown = w.shuttingDown
  stats : v.stats = w.stats
  interned : v.interned = w.interned
  boxes : v.boxes = w.boxes
  headers : ∀ b ∈ (ledger w.host).handles, (w.memory.header b).Sampled (v.memory.header b)
  bytes : ∀ x < UInt64.size, x ∉ unwritten V w →
    (∀ b ∈ (ledger w.host).handles, x < b.toNat + 40 ∨ b.toNat + 48 ≤ x) →
    v.memory.byte x = w.memory.byte x
  steps : ∀ depth c c', Call.Outsourced c c' → (c'.Permitted E' v ↔ c.Permitted E w) ∧
    (c.Permitted E w → Paired V (fun _ => Twins V) ((c.perform (E.host depth)).run w)
      ((c'.perform (E'.host depth)).run v))
  named : ∀ depth r r', Request.Outsourced r r' → r.Plain →
    Paired V (fun a w' v' => ∀ b, a = .ok b →
      (w'.memory.header b).external = r.external ∧ (v'.memory.header b).external = r'.external)
    (((Call.make r).perform (E.host depth)).run w)
    (((Call.make r').perform (E'.host depth)).run v)

namespace Environment.Mirrors

variable {V : Vouched} {E E' : Environment} {w v : World History}

lemma indistinct (hE : Mirrors V E E') (hw : E.Steady w) (hv : E'.Steady v) (hm : Marked w)
    (hm' : Marked v) (h : Twins V w v) : Indistinct V E E' w v where
  out := h.ledger_eq
  bindings := h.bindings
  shuttingDown := h.shuttingDown
  stats := h.stats
  interned := h.interned
  boxes := h.boxes
  headers b hb := h.header hw hb
  bytes x hx hwritten hout := by
    obtain ⟨D, hD, htwin⟩ := h
    exact htwin.masked.bytes x hx hwritten fun b hb => hout b (hD hb)
  steps depth c c' hc := by
    obtain ⟨play, play', hhost, hhost', hplay, hplay', hplays⟩ := hE.plays_host depth
    rw [hhost, hhost']
    exact ⟨hE.permitted_iff hw h hc, hE.perform_paired hplays hplay hplay' hw hv hm hm' h hc⟩
  named depth r r' hr hplain := by
    obtain ⟨play, play', hhost, hhost', -, -, hplays⟩ := hE.plays_host depth
    rw [hhost, hhost']
    exact (hE.made_paired hplays hw hv h hr hplain).mono fun _ _ _ h => h.2

end Environment.Mirrors

/-- Where two runs that tell the same are between two steps, they are twins. -/
lemma Matching.twins {V : Vouched} {E : Environment} {s : Snapshot} {past : History} {e' : Event}
    {past' : History} (h : Matching V (.boundary s :: past) (e' :: past'))
    (hw : E.Steady (s.resume past)) :
    ∃ s', e' = .boundary s' ∧ Matching V past past' ∧
      Twins V (s.resume past) (s'.resume past') := by
  have hwhole := h
  cases h with
  | cons e he _ => exact absurd rfl (he s)
  | @boundary _ _ _ m D hD hm hpast =>
    have hheaded : (ledger past).Housing (ledger past).handles := fun b hb =>
      ⟨hw.mem_blocks hb, (hw.room_le hb).1⟩
    exact ⟨_, rfl, hpast, D, hD, hm, fun b hb => hheaded b (hD hb), hheaded, hwhole, rfl, rfl, rfl,
      rfl, rfl, rfl⟩

/-- **The sample allocator is indistinguishable from the default heap.** Two programs take the same
steps, but the second takes any of its requests for storage and for handles by way of the sample
allocator. Both runs end in the same way, with the same fault if there is one. They tell the same:
the same requests to allocators in the same order, answered by the same addresses, the same calls of
destructors, finalizers and closures, the same handles, counts and counters; and between two steps
nobody can tell them apart, unless he looks at bytes that nobody wrote. -/
theorem sample_indistinguishable {V : Vouched} {E E' : Environment} (hE : E.Mirrors V E')
    {p p' : Program} (hp : p.Outsourced V p') (depth : Nat) (w : World History) :
    Paired V (fun _ => Twins V) (E.session depth p { w with host := [] })
      (E'.session depth p' { w with host := [] }) ∧
    Matching V (E.history depth p w) (E'.history depth p' w) ∧
    Throughout (fun e past => ∀ s, e = .boundary s → ∃ s' past',
      .boundary s' :: past' <:+ E'.history depth p' w ∧ Matching V past past' ∧
      Indistinct V E E' (s.resume past) (s'.resume past')) (E.history depth p w) := by
  have hsession := hE.session_paired depth hp w
  have hmatch : Matching V (E.history depth p w) (E'.history depth p' w) := by
    rw [Environment.history, Environment.history]
    generalize E.session depth p { w with host := [] } = r at hsession
    generalize E'.session depth p' { w with host := [] } = r' at hsession
    cases hsession with
    | ok h | error h =>
      obtain ⟨D, -, htwin⟩ := h
      exact htwin.history
  refine ⟨hsession, hmatch, ?_⟩
  rintro e past hsuffix s rfl
  obtain ⟨e', past', hsuffix', hboth⟩ := hmatch.suffix hsuffix
  obtain ⟨hw, hm⟩ := Environment.steady_of_boundary ((E.lawful_history depth p w).suffix hsuffix)
  obtain ⟨s', rfl, hpast, htwins⟩ := hboth.twins hw
  obtain ⟨hv, hm'⟩ :=
    Environment.steady_of_boundary ((E'.lawful_history depth p' w).suffix hsuffix')
  exact ⟨s', past', hsuffix', hpast, hE.indistinct hw hv hm hm' htwins⟩

/-! ### Heaps that use memory again -/

/-- Allocators that use memory again as it was left. They answer by what they were asked before, do
nothing to memory when a block comes or goes, and copy what is in a block that gets another size.
Whoever is called back takes the same steps. -/
structure Environment.Thrifty (E : Environment) : Prop where
  allocate_addr : ∀ {w v : World History}, Matching .none w.host v.host → ∀ s n,
    (E.allocate s n v).addr = (E.allocate s n w).addr
  allocate_memory : ∀ s n w, (E.allocate s n w).memory = w.memory
  reallocate_addr : ∀ {w v : World History}, Matching .none w.host v.host → ∀ s p n,
    (E.reallocate s p n v).addr = (E.reallocate s p n w).addr
  reallocate_failed : ∀ s p n w, (E.reallocate s p n w).addr = 0 →
    (E.reallocate s p n w).memory = w.memory
  reallocate_copied : ∀ s p n w, (E.reallocate s p n w).addr ≠ 0 →
    (E.reallocate s p n w).memory = w.memory.write (E.reallocate s p n w).addr
      (w.memory.bytes p ((ledger w.host).shared p n))
  free_memory : ∀ s p w, E.free s p w = w.memory
  response : ∀ e {w v : World History}, Twins .none w v →
    (E.response e w).Outsourced .none (E.response e v)

namespace Environment.Thrifty

variable {E : Environment} {D : Finset Handle} {w v : World History} {s : Source} {n : Word}
  {p : Addr} (hE : E.Thrifty)
include hE

/-- What nobody wrote is not written when a block is handed out. -/
lemma unwritten_granted (h : Twin .none (unwritten .none w) D w v)
    (hL : (ledger w.host).Laid w.bindings.heap.addr) :
    unwritten .none w ⊆ unwritten .none (E.granted s n w) := by
  have hheader : ∀ b, (E.granted s n w).memory.header b = w.memory.header b := fun b =>
    congrArg (Memory.header · b) (hE.allocate_memory s n w)
  by_cases h0 : (E.allocate s n w).addr = 0
  · have hledger : ledger (E.granted s n w).host = ledger w.host := if_pos h0
    have hblank : blank (E.granted s n w).host = blank w.host := if_pos h0
    refine unwritten_mono hblank.ge subset_rfl fun b hb => ?_
    rw [hledger] at hb ⊢
    exact ⟨hb, rfl, hheader b⟩
  · have hledger : ledger (E.granted s n w).host =
        (ledger w.host).grant s n (E.allocate s n w).addr := if_neg h0
    have hblank : blank (E.granted s n w).host =
        blank w.host ∪ range (E.allocate s n w).addr (max n.toNat 1) := if_neg h0
    refine unwritten_mono (Set.subset_union_left.trans hblank.ge) subset_rfl fun b hb => ?_
    rw [hledger] at hb ⊢
    have hne : b ≠ (E.allocate s n w).addr :=
      ne_of_mem_of_not_mem (h.headed b hb).1 ((E.allocate_fresh s n w h0).not_mem hL)
    exact ⟨hb, Function.update_of_ne hne _ _, hheader b⟩

/-- Nor is it when one is given back, and then nobody has written what was in that block. -/
lemma unwritten_freed (h : Twin .none (unwritten .none w) D w v)
    (hL : (ledger w.host).Laid w.bindings.heap.addr) (hp : p ∈ (ledger w.host).blocks) :
    unwritten .none w ∪ range p ((ledger w.host).room p) ⊆ unwritten .none (E.freed s p w) := by
  refine Set.union_subset (unwritten_mono Set.subset_union_left subset_rfl fun b hb => ?_)
    fun x hx => ⟨.inr hx, Set.notMem_empty x, fun b hb hin => ?_⟩
  · exact ⟨Finset.mem_of_mem_erase hb, rfl, congrArg (Memory.header · b) (hE.free_memory s p w)⟩
  · obtain ⟨hne, hb⟩ := Finset.mem_erase.1 hb
    exact (hL.apart p hp b (h.headed b hb).1 hne.symm).not_mem hx hin.1

/-- Nor is it when no block can be had of another size. -/
lemma unwritten_refused (h0 : (E.reallocate s p n w).addr = 0) :
    unwritten .none w ⊆ unwritten .none (E.regranted s p n w) := by
  have hledger : ledger (E.regranted s p n w).host = ledger w.host := if_pos h0
  have hblank : blank (E.regranted s p n w).host = blank w.host := if_pos h0
  refine unwritten_mono hblank.ge subset_rfl fun b hb => ?_
  rw [hledger] at hb ⊢
  exact ⟨hb, rfl, congrArg (Memory.header · b) (hE.reallocate_failed s p n w h0)⟩

omit hE in
/-- Handles lie apart from a block that gets another place, and are as they were. -/
lemma beside_regranted (h : Twin .none (unwritten .none w) D w v)
    (hL : (ledger w.host).Laid w.bindings.heap.addr) (hp : (ledger w.host).Holds s p)
    (h0 : (E.reallocate s p n w).addr ≠ 0) {b : Handle}
    (hb : b ∈ (ledger (E.regranted s p n w).host).handles) :
    b ∈ (ledger w.host).handles ∧ furnished b (E.regranted s p n w) ⊆ furnished b w ∧
      Apart (E.reallocate s p n w).addr (max n.toNat 1) b ((ledger w.host).room b) := by
  have hledger := Steady.ledger_regranted h0
  have hfresh := E.reallocate_fresh s p n w hp h0
  rw [hledger] at hb
  obtain ⟨hne, hb⟩ := Finset.mem_erase.1 hb
  obtain ⟨hout, hroom⟩ := h.headed b hb
  have hstays : b ∈ ((ledger w.host).without p).blocks := Finset.mem_erase.2 ⟨hne, hout⟩
  have hnew : b ≠ (E.reallocate s p n w).addr :=
    ne_of_mem_of_not_mem hstays (hfresh.not_mem (hL.without p))
  have hagree := E.reallocate_frame s p n w hp b hout (.inl hne)
  refine ⟨hb, furnished_of_header ?_ (Memory.header_congr (hagree.mono hroom)
    (h.headed.fit hL hb)), hfresh.2.2 b hstays⟩
  rw [hledger]
  exact Function.update_of_ne hnew _ _

omit hE in
/-- A byte of the new block that nobody wrote at its old place, or for which there was no room, and
a byte beside it that nobody wrote: nobody has written them. -/
lemma unwritten_regranted (h : Twin .none (unwritten .none w) D w v)
    (hL : (ledger w.host).Laid w.bindings.heap.addr) (hp : (ledger w.host).Holds s p)
    (h0 : (E.reallocate s p n w).addr ≠ 0) {x : Nat}
    (hx : x ∈ range (E.reallocate s p n w).addr ((ledger w.host).shared p n) ∧
        p.toNat + (x - (E.reallocate s p n w).addr.toNat) ∈ blank w.host ∨
      x ∉ range (E.reallocate s p n w).addr ((ledger w.host).shared p n) ∧
        x ∈ unwritten .none w) : x ∈ unwritten .none (E.regranted s p n w) := by
  have hblank : blank (E.regranted s p n w).host = _ := if_neg h0
  have hshared : (ledger w.host).shared p n = min ((ledger w.host).room p) (max n.toNat 1) := rfl
  rcases hx with ⟨hin, hold⟩ | ⟨hout, hx, -, hall⟩
  · have hnew : x ∈ range (E.reallocate s p n w).addr (max n.toNat 1) :=
      Memory.range_mono (min_le_right _ _) hin
    refine ⟨?_, Set.notMem_empty x, fun b hb hfurnished => ?_⟩
    · rw [hblank]
      exact .inl ⟨hnew, .inr hold⟩
    · obtain ⟨-, hsub, hapart⟩ := beside_regranted h hL hp h0 hb
      exact hapart.not_mem hnew (hsub hfurnished).1
  · refine ⟨?_, Set.notMem_empty x, fun b hb hfurnished => ?_⟩
    · rw [hblank]
      by_cases hnew : x ∈ range (E.reallocate s p n w).addr (max n.toNat 1)
      · refine .inl ⟨hnew, .inl ?_⟩
        rw [mem_range] at hnew hout
        omega
      · exact .inr ⟨.inl hx, hnew⟩
    · obtain ⟨hb', hsub, -⟩ := beside_regranted h hL hp h0 hb
      exact hall b hb' (hsub hfurnished)

omit hE in
/-- What was written in the block at `p` is copied in both runs, and the rest is left alone. -/
lemma reallocate_masked (h : Twin .none (unwritten .none w) D w v)
    (hL : (ledger w.host).Laid w.bindings.heap.addr) (hp : (ledger w.host).Holds s p)
    (hnot : p ∉ D) (h0 : (E.reallocate s p n w).addr ≠ 0) :
    Masked (unwritten .none (E.regranted s p n w)) D
      (w.memory.write (E.reallocate s p n w).addr
        (w.memory.bytes p ((ledger w.host).shared p n)))
      (v.memory.write (E.reallocate s p n w).addr
        (v.memory.bytes p ((ledger w.host).shared p n))) := by
  have hunwritten := fun x => unwritten_regranted (x := x) h hL hp h0
  obtain ⟨-, hfit, hfresh⟩ := E.reallocate_fresh s p n w hp h0
  have hfitp := (hL.fits p hp.1).2.2
  have hle : (ledger w.host).shared p n ≤ max n.toNat 1 := min_le_right _ _
  have hleft : (ledger w.host).shared p n ≤ (ledger w.host).room p := min_le_left _ _
  generalize (E.reallocate s p n w).addr = q at hfit hfresh hunwritten ⊢
  generalize (ledger w.host).shared p n = k at hle hleft hunwritten ⊢
  have hlen : ∀ m : Memory, q.toNat + (m.bytes p k).length ≤ UInt64.size := fun m => by
    rw [Memory.length_bytes]
    omega
  refine ⟨fun x hx hU hout => ?_, fun b hb => ?_⟩
  · by_cases hin : x ∈ range q k
    · obtain ⟨hlow, hhigh⟩ := mem_range.1 hin
      have hold : p.toNat + (x - q.toNat) ∈ range p ((ledger w.host).room p) := by
        rw [mem_range]
        omega
      rw [Memory.byte_write_bytes _ _ (by omega) hlow hhigh,
        Memory.byte_write_bytes _ _ (by omega) hlow hhigh]
      refine h.masked.bytes _ (by omega) (fun hyU => hU (hunwritten x (.inl ⟨hin, hyU.1⟩)))
        fun b hb => h.housing.external_apart hL hp.1 hb (fun he => hnot (he ▸ hb)) hold
    · have hbeside : ∀ m : Memory, (m.write q (m.bytes p k)).byte x = m.byte x := fun m =>
        Memory.byte_write_of_not_mem m (hlen m) hx (by rwa [Memory.length_bytes])
      rw [hbeside, hbeside]
      exact h.masked.bytes x hx (fun hxU => hU (hunwritten x (.inr ⟨hin, hxU⟩))) hout
  · obtain ⟨hb', hroom⟩ := h.housing b hb
    have hfitb := h.housing.fit hL hb
    have hne : b ≠ p := fun he => hnot (he ▸ hb)
    have hapart := (hfresh b (Finset.mem_erase.2 ⟨hne, hb'⟩)).mono_right hroom
    have hkept : ∀ m : Memory, (m.write q (m.bytes p k)).header b = m.header b := fun m =>
      Memory.header_write_of_apart m _ (hlen m) hfitb (by
        rw [Memory.length_bytes]
        exact hapart.mono_left hle)
    rw [hkept, hkept]
    exact h.masked.external b hb

/-- Such allocators cannot tell twins apart. -/
theorem mirrors : E.Mirrors .none E where
  external := rfl
  change := rfl
  allocate {D w v} h hL s n := by
    refine ⟨hE.allocate_addr h.history s n, ?_⟩
    rw [hE.allocate_memory, hE.allocate_memory]
    exact h.masked.mono (hE.unwritten_granted h hL)
  reallocate {D w v} h hL s p n hp hnot := by
    have haddr := hE.reallocate_addr h.history s p n
    refine ⟨haddr, ?_⟩
    by_cases h0 : (E.reallocate s p n w).addr = 0
    · rw [hE.reallocate_failed s p n w h0, hE.reallocate_failed s p n v (haddr.trans h0)]
      exact h.masked.mono (hE.unwritten_refused h0)
    · rw [hE.reallocate_copied s p n w h0, hE.reallocate_copied s p n v (haddr ▸ h0), haddr,
        h.ledger_eq]
      exact reallocate_masked h hL hp hnot h0
  free {D w v} h hL s p hp := by
    have hkept := hE.unwritten_freed (s := s) h hL hp.1
    rw [hE.free_memory, hE.free_memory]
    refine ⟨fun x hx hU hout => ?_, fun b hb =>
      h.masked.external b (Finset.mem_of_mem_erase hb)⟩
    refine h.masked.bytes x hx (fun hin => hU (hkept (.inl hin))) fun b hb => ?_
    by_cases he : b = p
    · subst he
      have hroom := (h.housing b hb).2
      have hnot : x ∉ range b ((ledger w.host).room b) := fun hin => hU (hkept (.inr hin))
      rw [mem_range] at hnot
      omega
    · exact hout b (Finset.mem_erase.2 ⟨he, hb⟩)
  response e w v h := hE.response e h

end Environment.Thrifty

/-- The host that uses memory above all that is out does so. -/
lemma Environment.recycling_thrifty : Environment.recycling.Thrifty where
  allocate_addr h s n := by
    show (ledger _).next n = (ledger _).next n
    rw [h.ledger_eq]
  allocate_memory _ _ _ := rfl
  reallocate_addr h s p n := by
    simp only [recycling, h.ledger_eq]
    split <;> rfl
  reallocate_failed s p n w h := by
    simp only [recycling] at h ⊢
    split at h
    · next h0 => rw [if_pos h0]
    · next h0 => exact absurd h h0
  reallocate_copied s p n w h := by
    simp only [recycling] at h ⊢
    split at h
    · exact absurd rfl h
    · next h0 => rw [if_neg h0]
  free_memory _ _ _ := rfl
  response e w v h := by cases e <;> exact .done

/-- A caller asks for storage and for two handles, lets go of the second one, and asks for storage
again, which he gets where that handle was. -/
def Program.outing (ext : Addr) (r r' : Request) : Program :=
  .step (.allocateFrom ext 16) fun _ _ =>
    .step (.make r) fun _ _ =>
      .step (.make r') fun b _ =>
        .step (.release (b.toOption.getD 0)) fun _ _ =>
          .step (.allocateFrom ext 64) fun _ _ => .done

/-- All four may be asked for by way of the sample allocator. -/
lemma Program.outing_outsourced : Program.Outsourced .none
    (outing 0 (.alloc 8) (.allocSafeAligned 4 16))
    (outing ExternalAllocator.sampleAddr (.allocExternal 8 ExternalAllocator.sampleAddr)
      (.allocSafeAlignedExternal 4 16 ExternalAllocator.sampleAddr)) :=
  .step (.allocate 16) fun _ _ _ _ =>
    .step (.make (.alloc 8)) fun _ _ _ _ =>
      .step (.make (.allocSafeAligned 4 16)) fun _ _ _ _ =>
        .step (.same _) fun _ _ _ _ =>
          .step (.allocate 64) fun _ _ _ _ => .done

/-- The block that came last, in the word where a header names its allocator. -/
def newestExternal (H : History) : Option Word :=
  match lastBoundary H with
  | some (s, .given _ _ p :: _) => some (s.memory.word (p + 40))
  | _ => none

/-- The block that came last lies where the second handle was, and holds the word by which that
handle named its allocator. Nobody wrote there since. -/
theorem sample_indistinguishable_outing :
    Environment.recycling.Mirrors .none .recycling ∧
    Program.Outsourced .none (.outing 0 (.alloc 8) (.allocSafeAligned 4 16))
      (.outing ExternalAllocator.sampleAddr (.allocExternal 8 ExternalAllocator.sampleAddr)
        (.allocSafeAlignedExternal 4 16 ExternalAllocator.sampleAddr)) ∧
    Matching .none
      (Environment.recycling.history 0 (.outing 0 (.alloc 8) (.allocSafeAligned 4 16))
        { host := [] })
      (Environment.recycling.history 0 (.outing ExternalAllocator.sampleAddr
        (.allocExternal 8 ExternalAllocator.sampleAddr)
        (.allocSafeAlignedExternal 4 16 ExternalAllocator.sampleAddr)) { host := [] }) ∧
    newestExternal (Environment.recycling.history 0 (.outing 0 (.alloc 8)
      (.allocSafeAligned 4 16)) { host := [] }) = some 0 ∧
    newestExternal (Environment.recycling.history 0 (.outing ExternalAllocator.sampleAddr
      (.allocExternal 8 ExternalAllocator.sampleAddr)
      (.allocSafeAlignedExternal 4 16 ExternalAllocator.sampleAddr)) { host := [] }) =
        some ExternalAllocator.sampleAddr :=
  ⟨Environment.recycling_thrifty.mirrors, Program.outing_outsourced,
    (sample_indistinguishable Environment.recycling_thrifty.mirrors Program.outing_outsourced 0
      { host := [] }).2.1, by decide +kernel, by decide +kernel⟩

end CountedHeap
