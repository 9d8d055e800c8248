/-
Ownership among handles

Handles own references to other handles, and give them up when they end. So one reference that is
given up may bring down many handles, each of which gives up what it owns before the next reference
is given up. A `Cascade` is the tree of what happens then, and the counts of references alone decide
which cascade it is.

* `Cascade.dead`, `Cascade.freed`: the handles that end, in the order in which they begin to and in
  the order in which they are done;
* `Cascade.Follows`, `Cascade.follows_unique`: the one cascade that counts and owners make;
* `Balanced`: every reference is owned by a handle or is held from outside;
* `Balanced.exists_follows`: balanced counts lead to a cascade, and are balanced after it;
* `Balanced.alive_iff_reachable`: who is left where no handle owns itself.
-/
import Mathlib.Algebra.BigOperators.Group.Finset.Basic
import Mathlib.Order.WellFoundedSet
import CountedHeap.Handle.Header

namespace CountedHeap

/-! ### Cascades -/

/-- What comes of references that are given up one after the other. -/
inductive Cascade where
  | nil
  /-- The handle has other references. -/
  | kept (b : Handle) (rest : Cascade)
  /-- The handle ends, and what it owns is given up before the next reference is. -/
  | ended (b : Handle) (inner rest : Cascade)
  deriving DecidableEq, Repr

/-- One reference to a handle is given up. -/
def lose (n : Handle → Nat) (b : Handle) : Handle → Nat := Function.update n b (n b - 1)

namespace Cascade

/-- The references that are given up, but for those that ending handles give up. -/
def heads : Cascade → List Handle
  | nil => []
  | kept b rest => b :: rest.heads
  | ended b _ rest => b :: rest.heads

/-- The handles that end, in the order in which they begin to. -/
def dead : Cascade → List Handle
  | nil => []
  | kept _ rest => rest.dead
  | ended b inner rest => b :: (inner.dead ++ rest.dead)

/-- The handles that end, in the order in which they are done. -/
def freed : Cascade → List Handle
  | nil => []
  | kept _ rest => rest.freed
  | ended b inner rest => inner.freed ++ b :: rest.freed

/-- The handle `c` ends while `a` does, since `a` gave up a reference to it or to one that `c` ends
by in turn. -/
def Kills (a c : Handle) : Cascade → Prop
  | nil => False
  | kept _ rest => rest.Kills a c
  | ended b inner rest => b = a ∧ c ∈ inner.dead ∨ inner.Kills a c ∨ rest.Kills a c

/-- How many handles end at once, each inside the end of another. -/
def depth : Cascade → Nat
  | nil => 0
  | kept _ rest => rest.depth
  | ended _ inner rest => max (inner.depth + 1) rest.depth

/-- The counts of references that a cascade leaves behind. -/
def after : Cascade → (Handle → Nat) → Handle → Nat
  | nil, n => n
  | kept b rest, n => rest.after (lose n b)
  | ended b inner rest, n => rest.after (inner.after (lose n b))

/-- The cascade is what counts and owners make of it: a handle ends when its last reference is given
up, and gives up what it owns. -/
def Follows (owns : Handle → List Handle) : Cascade → (Handle → Nat) → Prop
  | nil, _ => True
  | kept b rest, n => 1 < n b ∧ rest.Follows owns (lose n b)
  | ended b inner rest, n =>
    n b = 1 ∧ inner.heads = owns b ∧ inner.Follows owns (lose n b) ∧
      rest.Follows owns (inner.after (lose n b))

instance Follows.decidable (owns : Handle → List Handle) :
    (f : Cascade) → (n : Handle → Nat) → Decidable (f.Follows owns n)
  | nil, _ => inferInstanceAs (Decidable True)
  | kept b rest, n =>
    haveI := Follows.decidable owns rest (lose n b)
    inferInstanceAs (Decidable (1 < n b ∧ rest.Follows owns (lose n b)))
  | ended b inner rest, n =>
    haveI := Follows.decidable owns inner (lose n b)
    haveI := Follows.decidable owns rest (inner.after (lose n b))
    inferInstanceAs (Decidable (n b = 1 ∧ inner.heads = owns b ∧ inner.Follows owns (lose n b) ∧
      rest.Follows owns (inner.after (lose n b))))

/-- More references are given up. -/
def append : Cascade → Cascade → Cascade
  | nil, g => g
  | kept b rest, g => kept b (rest.append g)
  | ended b inner rest, g => ended b inner (rest.append g)

variable {owns : Handle → List Handle} {n : Handle → Nat} {b x : Handle} {S : Finset Handle}

/-! ### Two parts of a cascade -/

lemma after_append (f g : Cascade) (n : Handle → Nat) :
    (f.append g).after n = g.after (f.after n) := by
  induction f generalizing n with
  | nil => rfl
  | kept b rest ih => exact ih _
  | ended b inner rest _ ih => exact ih _

lemma depth_append (f g : Cascade) : (f.append g).depth = max f.depth g.depth := by
  induction f with
  | nil => exact (Nat.zero_max _).symm
  | kept b rest ih => exact ih
  | ended b inner rest _ ih => rw [append, depth, ih, depth, max_assoc]

lemma follows_append {f g : Cascade} :
    (f.append g).Follows owns n ↔ f.Follows owns n ∧ g.Follows owns (f.after n) := by
  induction f generalizing n with
  | nil => exact (iff_of_eq (true_and _)).symm
  | kept b rest ih => rw [append, Follows, Follows, ih, after, and_assoc]
  | ended b inner rest _ ih =>
    rw [append, Follows, Follows, ih, after]
    simp only [and_assoc]

lemma eq_nil_of_heads {f : Cascade} (h : f.heads = []) : f = nil := by
  cases f with
  | nil => rfl
  | kept b rest => cases h
  | ended b inner rest => cases h

/-- References that are given up in two goes. -/
lemma exists_append {f : Cascade} {cs cs' : List Handle} (h : f.heads = cs ++ cs') :
    ∃ g g' : Cascade, f = g.append g' ∧ g.heads = cs ∧ g'.heads = cs' := by
  induction cs generalizing f with
  | nil => exact ⟨nil, f, rfl, rfl, h⟩
  | cons c cs ih =>
    cases f with
    | nil => cases h
    | kept b rest =>
      obtain ⟨rfl, hrest⟩ := List.cons.inj h
      obtain ⟨g, g', rfl, hg, hg'⟩ := ih hrest
      exact ⟨kept b g, g', rfl, congrArg _ hg, hg'⟩
    | ended b inner rest =>
      obtain ⟨rfl, hrest⟩ := List.cons.inj h
      obtain ⟨g, g', rfl, hg, hg'⟩ := ih hrest
      exact ⟨ended b inner g, g', rfl, congrArg _ hg, hg'⟩

/-- There is only one cascade for counts, owners and the references that are given up. -/
lemma follows_unique {f g : Cascade} (hf : f.Follows owns n) (hg : g.Follows owns n)
    (h : f.heads = g.heads) : f = g := by
  induction f generalizing g n with
  | nil => exact (eq_nil_of_heads h.symm).symm
  | kept b rest ih =>
    cases g with
    | nil => cases h
    | kept c rest' =>
      obtain ⟨rfl, hrest⟩ := List.cons.inj h
      rw [ih hf.2 hg.2 hrest]
    | ended c inner rest' =>
      obtain ⟨rfl, -⟩ := List.cons.inj h
      exact absurd hg.1 hf.1.ne'
  | ended b inner rest ihinner ihrest =>
    cases g with
    | nil => cases h
    | kept c rest' =>
      obtain ⟨rfl, -⟩ := List.cons.inj h
      exact absurd hf.1 hg.1.ne'
    | ended c inner' rest' =>
      obtain ⟨rfl, hrest⟩ := List.cons.inj h
      obtain ⟨-, hinner, hfollows, hfollows'⟩ := hf
      obtain ⟨-, hinner', hgollows, hgollows'⟩ := hg
      obtain rfl := ihinner hfollows hgollows (hinner.trans hinner'.symm)
      rw [ihrest hfollows' hgollows' hrest]

/-! ### Who ends -/

lemma lose_self : lose n b b = n b - 1 := Function.update_self _ _ _

lemma lose_of_ne (h : x ≠ b) : lose n b x = n x := Function.update_of_ne h _ _

lemma lose_le : lose n b x ≤ n x := by
  by_cases h : x = b
  · rw [h, lose_self]
    exact Nat.sub_le _ _
  · exact (lose_of_ne h).le

/-- A handle that has other references is there before and after. -/
lemma lose_eq_zero_iff (h : 1 < n b) : lose n b x = 0 ↔ n x = 0 := by
  by_cases hx : x = b
  · rw [hx, lose_self]
    omega
  · rw [lose_of_ne hx]

/-- The first reference that is given up is there. -/
lemma pos_of_heads {f : Cascade} {cs : List Handle} (h : f.Follows owns n)
    (hf : f.heads = b :: cs) : n b ≠ 0 := by
  cases f with
  | nil => cases hf
  | kept c rest =>
    obtain ⟨rfl, -⟩ := List.cons.inj hf
    have hpos := h.1
    omega
  | ended c inner rest =>
    obtain ⟨rfl, -⟩ := List.cons.inj hf
    have hpos := h.1
    omega

/-- References are given up, and none is taken. -/
lemma after_le (f : Cascade) (n : Handle → Nat) (x : Handle) : f.after n x ≤ n x := by
  induction f generalizing n with
  | nil => exact le_rfl
  | kept b rest ih => exact (ih _).trans lose_le
  | ended b inner rest ihinner ihrest => exact (ihrest _).trans ((ihinner _).trans lose_le)

/-- The handles that end are those that had references and have none any more. -/
lemma mem_dead_iff {f : Cascade} (h : f.Follows owns n) :
    x ∈ f.dead ↔ n x ≠ 0 ∧ f.after n x = 0 := by
  induction f generalizing n with
  | nil => exact ⟨fun hx => absurd hx List.not_mem_nil, fun hx => absurd hx.2 hx.1⟩
  | kept b rest ih =>
    rw [dead, after, ih h.2, Ne, lose_eq_zero_iff h.1]
  | ended b inner rest ihinner ihrest =>
    obtain ⟨hone, -, hinner, hrest⟩ := h
    have hmid := inner.after_le (lose n b) x
    have hend := rest.after_le (inner.after (lose n b)) x
    rw [dead, after, List.mem_cons, List.mem_append, ihinner hinner, ihrest hrest]
    by_cases hx : x = b
    · subst hx
      rw [lose_self] at hmid
      exact iff_of_true (.inl rfl) ⟨by omega, by omega⟩
    · rw [lose_of_ne hx] at hmid
      rw [or_iff_right hx, lose_of_ne hx]
      omega

/-- No handle ends twice. -/
lemma nodup_dead {f : Cascade} (h : f.Follows owns n) : f.dead.Nodup := by
  induction f generalizing n with
  | nil => exact List.nodup_nil
  | kept b rest ih => exact ih h.2
  | ended b inner rest ihinner ihrest =>
    obtain ⟨hone, -, hinner, hrest⟩ := h
    have hgone : lose n b b = 0 := by rw [lose_self, hone]
    have hmid := inner.after_le (lose n b) b
    refine List.nodup_cons.2 ⟨?_, List.nodup_append'.2 ⟨ihinner hinner, ihrest hrest, ?_⟩⟩
    · rw [List.mem_append, mem_dead_iff hinner, mem_dead_iff hrest]
      omega
    · intro x hx hx'
      exact ((mem_dead_iff hrest).1 hx').1 ((mem_dead_iff hinner).1 hx).2

/-- The handles that end are the ones that are done with in the end. -/
lemma freed_perm_dead (f : Cascade) : f.freed.Perm f.dead := by
  induction f with
  | nil => exact List.Perm.refl _
  | kept b rest ih => exact ih
  | ended b inner rest ihinner ihrest =>
    exact List.perm_middle.trans ((ihinner.append ihrest).cons b)

/-- A handle begins to end before those that it kills, and is done after them. -/
lemma Kills.sublist {f : Cascade} {a c : Handle} (h : f.Kills a c) :
    [a, c].Sublist f.dead ∧ [c, a].Sublist f.freed := by
  induction f with
  | nil => exact h.elim
  | kept b rest ih => exact ih h
  | ended b inner rest ihinner ihrest =>
    rcases h with ⟨rfl, hc⟩ | h | h
    · have hfreed : c ∈ inner.freed := inner.freed_perm_dead.mem_iff.2 hc
      exact ⟨.cons_cons b (List.singleton_sublist.2 (List.mem_append_left _ hc)),
        (List.singleton_sublist.2 hfreed).append (List.singleton_sublist.2 List.mem_cons_self)⟩
    · obtain ⟨hdead, hfreed⟩ := ihinner h
      exact ⟨(hdead.trans (List.sublist_append_left _ _)).cons b,
        hfreed.trans (List.sublist_append_left _ _)⟩
    · obtain ⟨hdead, hfreed⟩ := ihrest h
      exact ⟨(hdead.trans (List.sublist_append_right _ _)).cons b,
        (hfreed.cons b).trans (List.sublist_append_right _ _)⟩

/-- Handles end inside each other only as long as there are handles left to end. -/
lemma depth_le (f : Cascade) : f.depth ≤ f.dead.length := by
  induction f with
  | nil => exact le_rfl
  | kept b rest ih => exact ih
  | ended b inner rest ihinner ihrest =>
    simp only [depth, dead, List.length_cons, List.length_append]
    omega

/-- Only handles end that references are given up to. -/
lemma dead_subset {f : Cascade} (h : f.Follows owns n) (hS : ∀ a ∈ S, ∀ c ∈ owns a, c ∈ S)
    (hheads : ∀ b ∈ f.heads, b ∈ S) : ∀ x ∈ f.dead, x ∈ S := by
  induction f generalizing n with
  | nil => exact fun x hx => absurd hx List.not_mem_nil
  | kept b rest ih => exact ih h.2 fun c hc => hheads c (List.mem_cons_of_mem b hc)
  | ended b inner rest ihinner ihrest =>
    obtain ⟨-, hown, hinner, hrest⟩ := h
    have hb : b ∈ S := hheads b List.mem_cons_self
    intro x hx
    rcases List.mem_cons.1 hx with rfl | hx
    · exact hb
    rcases List.mem_append.1 hx with hx | hx
    · exact ihinner hinner (fun c hc => hS b hb c (hown ▸ hc)) x hx
    · exact ihrest hrest (fun c hc => hheads c (List.mem_cons_of_mem b hc)) x hx

/-- There are no more handles inside each other's end than there are handles. -/
lemma depth_le_card {f : Cascade} (h : f.Follows owns n) (hS : ∀ a ∈ S, ∀ c ∈ owns a, c ∈ S)
    (hheads : ∀ b ∈ f.heads, b ∈ S) : f.depth ≤ S.card :=
  calc f.depth ≤ f.dead.length := f.depth_le
    _ = f.dead.toFinset.card := (List.toFinset_card_of_nodup (nodup_dead h)).symm
    _ ≤ S.card := Finset.card_le_card fun x hx =>
        dead_subset h hS hheads x (List.mem_toFinset.1 hx)

end Cascade

/-! ### Balanced counts -/

/-- Every reference to a handle of `S` is owned by a handle of `S` that is still there, or is held
from outside. -/
def Balanced (S : Finset Handle) (owns : Handle → List Handle) (ext n : Handle → Nat) : Prop :=
  ∀ x ∈ S, n x = ext x + ∑ c ∈ S with n c ≠ 0, (owns c).count x

/-- The handle `a` owns a reference to `c`. -/
def Owns (S : Finset Handle) (owns : Handle → List Handle) (a c : Handle) : Prop :=
  a ∈ S ∧ c ∈ owns a

namespace Balanced

variable {S : Finset Handle} {owns : Handle → List Handle} {ext n : Handle → Nat} {b : Handle}

/-- A reference from outside is given up, and the handle has others. -/
lemma kept (h : Balanced S owns (fun x => ext x + [b].count x) n) (hb : 1 < n b) :
    Balanced S owns ext (lose n b) := by
  intro x hx
  have hsame : S.filter (fun c => lose n b c ≠ 0) = S.filter fun c => n c ≠ 0 :=
    Finset.filter_congr fun c _ => not_congr (Cascade.lose_eq_zero_iff hb)
  have hcount := h x hx
  beta_reduce at hcount
  rw [hsame]
  by_cases hxb : x = b
  · subst hxb
    rw [List.count_singleton_self] at hcount
    rw [Cascade.lose_self]
    omega
  · rw [List.count_singleton, if_neg (by simpa using Ne.symm hxb)] at hcount
    rw [Cascade.lose_of_ne hxb]
    exact hcount

/-- The last reference is given up. What the handle owns is now to be given up from outside. -/
lemma ended (h : Balanced S owns (fun x => ext x + [b].count x) n) (hbS : b ∈ S) (hb : n b = 1) :
    Balanced S owns (fun x => ext x + (owns b).count x) (lose n b) := by
  have hmem : b ∈ S.filter fun c => n c ≠ 0 := Finset.mem_filter.2 ⟨hbS, by omega⟩
  have hrest : S.filter (fun c => lose n b c ≠ 0) = (S.filter fun c => n c ≠ 0).erase b := by
    ext c
    by_cases hc : c = b
    · subst hc
      simp [Cascade.lose_self, hb]
    · simp [Cascade.lose_of_ne hc, hc]
  intro x hx
  have hcount := h x hx
  rw [← Finset.add_sum_erase _ _ hmem] at hcount
  beta_reduce at hcount ⊢
  rw [hrest]
  by_cases hxb : x = b
  · subst hxb
    rw [List.count_singleton_self, hb] at hcount
    rw [Cascade.lose_self, hb]
    omega
  · rw [List.count_singleton, if_neg (by simpa using Ne.symm hxb)] at hcount
    rw [Cascade.lose_of_ne hxb]
    omega

/-- Balanced counts lead to a cascade for all references that are given up from outside, and leave
balanced counts behind. Each handle that ends leaves one handle less that could end. -/
theorem exists_follows (hS : ∀ a ∈ S, ∀ c ∈ owns a, c ∈ S) {cs : List Handle}
    (hcs : ∀ c ∈ cs, c ∈ S) (h : Balanced S owns (fun x => ext x + cs.count x) n) :
    ∃ f : Cascade, f.heads = cs ∧ f.Follows owns n ∧ Balanced S owns ext (f.after n) := by
  generalize hk : (S.filter fun c => n c ≠ 0).card = k
  induction k using Nat.strong_induction_on generalizing cs ext n with
  | _ k ih =>
    induction cs generalizing n with
    | nil => exact ⟨.nil, rfl, trivial, h⟩
    | cons b cs ihcs =>
      have hb : b ∈ S := hcs b List.mem_cons_self
      have hcs' : ∀ c ∈ cs, c ∈ S := fun c hc => hcs c (List.mem_cons_of_mem b hc)
      have hfirst : Balanced S owns (fun x => ext x + cs.count x + [b].count x) n := by
        intro x hx
        have hcount := h x hx
        simp only [List.count_cons, List.count_nil] at hcount ⊢
        omega
      have hpos : 1 ≤ n b := by
        have hcount := hfirst b hb
        simp only [List.count_singleton_self] at hcount
        omega
      by_cases hone : n b = 1
      · -- One handle less is there, both for what `b` owns and for the references that follow.
        have hless : ∀ n' : Handle → Nat, (∀ x, n' x ≤ lose n b x) →
            (S.filter fun c => n' c ≠ 0).card < k := by
          intro n' hn'
          rw [← hk]
          refine Finset.card_lt_card (Finset.ssubset_iff_subset_ne.2 ⟨fun c hc => ?_, fun he => ?_⟩)
          · obtain ⟨hcS, hc⟩ := Finset.mem_filter.1 hc
            have hle := (hn' c).trans Cascade.lose_le
            exact Finset.mem_filter.2 ⟨hcS, by omega⟩
          · have hmem : b ∈ S.filter fun c => n' c ≠ 0 :=
              he ▸ Finset.mem_filter.2 ⟨hb, by omega⟩
            have hle := hn' b
            rw [Cascade.lose_self, hone] at hle
            exact (Finset.mem_filter.1 hmem).2 (by omega)
        obtain ⟨inner, hinner, hfollows, hbal⟩ :=
          ih _ (hless _ fun x => le_rfl) (hS b hb) (hfirst.ended hb hone) rfl
        obtain ⟨rest, hrest, hfollows', hbal'⟩ :=
          ih _ (hless _ fun x => inner.after_le _ x) hcs' hbal rfl
        exact ⟨.ended b inner rest, congrArg _ hrest, ⟨hone, hinner, hfollows, hfollows'⟩, hbal'⟩
      · have hmore : 1 < n b := by omega
        have hsame : (S.filter fun c => lose n b c ≠ 0).card = k := by
          rw [← hk]
          exact congrArg _ (Finset.filter_congr fun c _ =>
            not_congr (Cascade.lose_eq_zero_iff hmore))
        obtain ⟨rest, hrest, hfollows, hbal⟩ := ihcs hcs' (hfirst.kept hmore) hsame
        exact ⟨.kept b rest, congrArg _ hrest, ⟨hmore, hfollows⟩, hbal⟩

/-- Who is owned by a handle that is there is there as well. -/
lemma alive_of_owns (h : Balanced S owns ext n) {a c : Handle} (hac : Owns S owns a c)
    (hc : c ∈ S) (ha : n a ≠ 0) : n c ≠ 0 := by
  have hcount := h c hc
  rw [← Finset.add_sum_erase _ _ (Finset.mem_filter.2 ⟨hac.1, ha⟩)] at hcount
  have hpos := List.count_pos_iff.2 hac.2
  omega

/-- Where no handle owns itself, not even by way of others, those handles are there that can be
reached from a reference that is held from outside. -/
theorem alive_iff_reachable (h : Balanced S owns ext n) (hS : ∀ a ∈ S, ∀ c ∈ owns a, c ∈ S)
    (hacyclic : ∀ a, ¬ Relation.TransGen (Owns S owns) a a) {x : Handle} (hx : x ∈ S) :
    n x ≠ 0 ↔ ∃ r ∈ S, 1 ≤ ext r ∧ Relation.ReflTransGen (Owns S owns) r x := by
  constructor
  · have : IsStrictOrder Handle (Relation.TransGen (Owns S owns)) := { irrefl := hacyclic }
    have hwf : (S : Set Handle).WellFoundedOn (Relation.TransGen (Owns S owns)) := S.wellFoundedOn
    refine hwf.induction (P := fun y => n y ≠ 0 → ∃ r ∈ S, 1 ≤ ext r ∧
      Relation.ReflTransGen (Owns S owns) r y) hx fun y hy ih halive => ?_
    by_cases hext : 1 ≤ ext y
    · exact ⟨y, hy, hext, .refl⟩
    · have hcount := h y hy
      have hsum : ∑ c ∈ S with n c ≠ 0, (owns c).count y ≠ 0 := by omega
      obtain ⟨c, hc, hne⟩ := Finset.exists_ne_zero_of_sum_ne_zero hsum
      obtain ⟨hcS, hcalive⟩ := Finset.mem_filter.1 hc
      have howns : Owns S owns c y := ⟨hcS, List.count_pos_iff.1 (Nat.pos_of_ne_zero hne)⟩
      obtain ⟨r, hr, hext, hreach⟩ := ih c hcS (.single howns) hcalive
      exact ⟨r, hr, hext, hreach.tail howns⟩
  · rintro ⟨r, hr, hext, hreach⟩
    have hboth : x ∈ S ∧ n x ≠ 0 := by
      clear hx
      induction hreach with
      | refl =>
        have hcount := h r hr
        exact ⟨hr, by omega⟩
      | tail _ howns ih =>
        have hc := hS _ howns.1 _ howns.2
        exact ⟨hc, h.alive_of_owns howns hc ih.2⟩
    exact hboth.2

end Balanced

end CountedHeap
