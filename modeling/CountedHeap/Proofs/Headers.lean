/-
Headers in memory

A header is read off the 56 bytes from its address on, and nothing else in memory matters to it.

* `Memory.AgreeOn`: two memories that are the same on a range of addresses;
* `Memory.header`: the header at an address, as it can be read there;
* `Memory.header_write`, `Memory.header_setField`: a header that was written, or had one of its
  words replaced;
* `Memory.header_congr`: what happens beside a header does not change it.
-/
import CountedHeap.Handle.Resizable

namespace CountedHeap

namespace Memory

variable {m m' m'' : Memory} {p q a : Addr} {n k : Nat}

/-! ### Memories that agree on a range -/

/-- The `n` bytes from `p` on are the same in both memories. -/
def AgreeOn (m m' : Memory) (p : Addr) (n : Nat) : Prop :=
  ∀ a, p.toNat ≤ a → a < p.toNat + n → m'.byte a = m.byte a

/-- Two ranges have no byte in common. -/
def Apart (p : Addr) (n : Nat) (q : Addr) (k : Nat) : Prop :=
  p.toNat + n ≤ q.toNat ∨ q.toNat + k ≤ p.toNat

instance : Decidable (Apart p n q k) := inferInstanceAs (Decidable (_ ∨ _))

theorem Apart.symm (h : Apart p n q k) : Apart q k p n := Or.symm h

theorem Apart.mono_left {n' : Nat} (h : Apart p n q k) (hn : n' ≤ n) : Apart p n' q k := by
  unfold Apart at *
  omega

theorem Apart.mono_right {k' : Nat} (h : Apart p n q k) (hk : k' ≤ k) : Apart p n q k' :=
  (h.symm.mono_left hk).symm

namespace AgreeOn

theorem refl : AgreeOn m m p n := fun _ _ _ => rfl

theorem trans (h : AgreeOn m m' p n) (h' : AgreeOn m' m'' p n) : AgreeOn m m'' p n :=
  fun a ha ha' => (h' a ha ha').trans (h a ha ha')

theorem mono (h : AgreeOn m m' p n) (hk : k ≤ n) : AgreeOn m m' p k :=
  fun a ha ha' => h a ha (by omega)

end AgreeOn

/-- A write changes nothing outside of the range that it writes. -/
theorem agreeOn_write (m : Memory) (bs : List UInt8) (ha : a.toNat + bs.length ≤ UInt64.size)
    (hp : p.toNat + n ≤ UInt64.size) (hd : Apart a bs.length p n) :
    AgreeOn m (m.write a bs) p n := by
  intro i hi hi'
  rw [byte_write m a bs ha (by omega)]
  split
  · rw [List.getElem?_eq_none (by unfold Apart at hd; omega), Option.getD_none]
  · rfl

theorem agreeOn_setWord (m : Memory) (v : Word) (ha : a.toNat + 8 ≤ UInt64.size)
    (hp : p.toNat + n ≤ UInt64.size) (hd : Apart a 8 p n) :
    AgreeOn m (m.setWord a v) p n :=
  agreeOn_write m _ (by simpa using ha) hp (by simpa using hd)

theorem agreeOn_fill (m : Memory) (b : UInt8) (hp : p.toNat + n ≤ UInt64.size)
    (hd : k ≠ 0 → Apart a k p n) : AgreeOn m (m.fill a k b) p n := by
  intro i hi hi'
  rw [byte_fill _ _ _ _ (by omega), if_neg]
  unfold Apart at hd
  omega

/-- A word that lies in a range on which two memories agree is the same in both. -/
theorem AgreeOn.word_eq (h : AgreeOn m m' p n) (hp : p.toNat ≤ a.toNat)
    (hn : a.toNat + 8 ≤ p.toNat + n) : m'.word a = m.word a :=
  word_congr fun i hi => h (a.toNat + i) (by omega) (by omega)

/-- A word is read back out of a byte string that holds its eight bytes. -/
theorem word_write_append (m : Memory) (pre post : List UInt8) (v : Word)
    (h : p.toNat + (pre.length + 8 + post.length) ≤ UInt64.size)
    (ha : a.toNat = p.toNat + pre.length) :
    (m.write p (pre ++ littleEndian 8 v.toNat ++ post)).word a = v := by
  have hlen : p.toNat + (pre ++ littleEndian 8 v.toNat ++ post).length ≤ UInt64.size := by
    simpa [Nat.add_assoc] using h
  have hb : (m.write p (pre ++ littleEndian 8 v.toNat ++ post)).bytes a 8 =
      littleEndian 8 v.toNat := by
    apply List.ext_getElem
    · simp [bytes]
    · intro i hi hi'
      simp only [length_littleEndian] at hi'
      simp only [bytes, List.getElem_map, List.getElem_range]
      have hsub : a.toNat + i - p.toNat = pre.length + i := by omega
      rw [byte_write _ _ _ hlen (by omega), if_pos (by omega), hsub, List.append_assoc,
        List.getElem?_append_right (by omega), Nat.add_sub_cancel_left,
        List.getElem?_append_left (by simpa using hi'),
        List.getElem?_eq_getElem (by simpa using hi'), Option.getD_some]
  have hv : v.toNat < capacity 8 := v.toNat_lt
  rw [word, hb, ofLittleEndian_littleEndian, Nat.mod_eq_of_lt hv, UInt64.ofNat_toNat]

end Memory

/-! ### The fields of a header -/

theorem Field.offset_le (f : Field) : f.offset.toNat + 8 ≤ 48 := by
  cases f <;> decide

/-- Two different fields have no byte in common. -/
theorem Field.offset_apart {f g : Field} (h : f ≠ g) :
    f.offset.toNat + 8 ≤ g.offset.toNat ∨ g.offset.toNat + 8 ≤ f.offset.toNat := by
  revert h
  cases f <;> cases g <;> decide

/-- The fields of a header do not wrap around the end of memory. -/
theorem toNat_add_offset {b : Handle} (f : Field) (hb : b.toNat + 56 ≤ UInt64.size) :
    (b + f.offset).toNat = b.toNat + f.offset.toNat := by
  have hf := f.offset_le
  have hs : UInt64.size = 2 ^ 64 := rfl
  rw [UInt64.toNat_add, Nat.mod_eq_of_lt (by omega)]

/-- The kind lies behind the six words. -/
theorem toNat_add_kind {b : Handle} (hb : b.toNat + 56 ≤ UInt64.size) :
    (b + 48).toNat = b.toNat + 48 := by
  have hs : UInt64.size = 2 ^ 64 := rfl
  have h48 : (48 : UInt64).toNat = 48 := rfl
  rw [UInt64.toNat_add, h48, Nat.mod_eq_of_lt (by omega)]

namespace Header

/-- A word of a header. -/
def get (d : Header) : Field → Word
  | .refcount => d.refcount
  | .destructor => d.destructor
  | .info => d.info
  | .payload => d.payload
  | .size => d.size
  | .external => d.external

/-- A header with one word replaced. -/
def set (d : Header) (v : Word) : Field → Header
  | .refcount => { d with refcount := v }
  | .destructor => { d with destructor := v }
  | .info => { d with info := v }
  | .payload => { d with payload := v }
  | .size => { d with size := v }
  | .external => { d with external := v }

theorem get_set (d : Header) (v : Word) (f g : Field) :
    (d.set v f).get g = if f = g then v else d.get g := by
  cases f <;> cases g <;> rfl

@[simp] theorem kind_set (d : Header) (v : Word) (f : Field) : (d.set v f).kind = d.kind := by
  cases f <;> rfl

/-- A header is its six words and its kind. -/
theorem ext_get {d d' : Header} (h : ∀ f, d.get f = d'.get f) (hk : d.kind = d'.kind) :
    d = d' := by
  have h0 := h .refcount
  have h1 := h .destructor
  have h2 := h .info
  have h3 := h .payload
  have h4 := h .size
  have h5 := h .external
  cases d
  cases d'
  simp only [get] at *
  simp [*]

/-- A header takes 49 of its 56 bytes. -/
@[simp] theorem length_bytes (d : Header) : d.bytes.length = 49 := by
  simp [bytes]

/-- Every word stands at its offset in the bytes of a header. -/
theorem bytes_eq_append (d : Header) (f : Field) :
    ∃ pre post, d.bytes = pre ++ littleEndian 8 (d.get f).toNat ++ post ∧
      pre.length = f.offset.toNat := by
  have hsplit : ∃ ws vs, [d.refcount, d.destructor, d.info, d.payload, d.size, d.external] =
      ws ++ d.get f :: vs ∧
      (ws.flatMap fun w => littleEndian 8 w.toNat).length = f.offset.toNat := by
    cases f with
    | refcount => exact ⟨[], _, rfl, rfl⟩
    | destructor => exact ⟨[_], _, rfl, rfl⟩
    | info => exact ⟨[_, _], _, rfl, rfl⟩
    | payload => exact ⟨[_, _, _], _, rfl, rfl⟩
    | size => exact ⟨[_, _, _, _], _, rfl, rfl⟩
    | external => exact ⟨[_, _, _, _, _], _, rfl, rfl⟩
  obtain ⟨ws, vs, hws, hlen⟩ := hsplit
  refine ⟨ws.flatMap fun w => littleEndian 8 w.toNat,
    (vs.flatMap fun w => littleEndian 8 w.toNat) ++ [d.kind.toByte], ?_, hlen⟩
  rw [bytes, hws, List.flatMap_append, List.flatMap_cons]
  simp only [List.append_assoc]

end Header

namespace Memory

variable {m m' : Memory} {b c : Handle}

/-- The header at an address. -/
def header (m : Memory) (b : Handle) : Header where
  refcount := m.word (b + Field.refcount.offset)
  destructor := m.word (b + Field.destructor.offset)
  info := m.word (b + Field.info.offset)
  payload := m.word (b + Field.payload.offset)
  size := m.word (b + Field.size.offset)
  external := m.word (b + Field.external.offset)
  kind := .ofByte (m.byte (b + 48).toNat)

/-- The fields of a header are the words at their offsets. -/
theorem get_header (m : Memory) (b : Handle) (f : Field) :
    (m.header b).get f = m.word (b + f.offset) := by
  cases f <;> rfl

/-- A header depends on nothing but its 56 bytes. -/
theorem header_congr (h : AgreeOn m m' b 56) (hb : b.toNat + 56 ≤ UInt64.size) :
    m'.header b = m.header b := by
  refine Header.ext_get (fun f => ?_) ?_
  · have hf := f.offset_le
    have ho := toNat_add_offset f hb
    rw [get_header, get_header]
    exact h.word_eq (by omega) (by omega)
  · have ho := toNat_add_kind hb
    simp only [header]
    rw [h _ (by omega) (by omega)]

/-- A write beside a header leaves it alone. -/
theorem header_write_of_apart (m : Memory) {a : Addr} (bs : List UInt8)
    (ha : a.toNat + bs.length ≤ UInt64.size) (hb : b.toNat + 56 ≤ UInt64.size)
    (hd : Apart a bs.length b 56) : (m.write a bs).header b = m.header b :=
  header_congr (agreeOn_write m bs ha hb hd) hb

/-- So does a fill beside it. -/
theorem header_fill_of_apart (m : Memory) {a : Addr} {n : Nat} (x : UInt8)
    (hb : b.toNat + 56 ≤ UInt64.size) (hd : n ≠ 0 → Apart a n b 56) :
    (m.fill a n x).header b = m.header b :=
  header_congr (agreeOn_fill m x hb hd) hb

/-- So does another header that is written where the two have room. -/
theorem header_write_header (m : Memory) (d : Header) (hb : b.toNat + 56 ≤ UInt64.size)
    (hc : c.toNat + 56 ≤ UInt64.size) (hd : Apart b 56 c 56) :
    (m.write b d.bytes).header c = m.header c := by
  have hlen : d.bytes.length = 49 := d.length_bytes
  exact header_write_of_apart m _ (by omega) hc (by
    unfold Apart at *
    omega)

/-- What lies behind the count decides everything else in a header. -/
theorem header_recount (h : AgreeOn m m' (b + Field.destructor.offset) 48)
    (hb : b.toNat + 56 ≤ UInt64.size) :
    m'.header b = { m.header b with refcount := (m'.header b).refcount } := by
  have hstart : (b + Field.destructor.offset).toNat = b.toNat + 8 :=
    toNat_add_offset .destructor hb
  have hword : ∀ f : Field, f ≠ .refcount → m'.word (b + f.offset) = m.word (b + f.offset) := by
    intro f hf
    have hlow := Field.offset_apart hf
    have hhigh := f.offset_le
    have hrefcount : Field.refcount.offset.toNat = 0 := rfl
    have ho := toNat_add_offset f hb
    exact h.word_eq (by omega) (by omega)
  refine Header.ext_get (fun f => ?_) ?_
  · rw [get_header]
    cases f with
    | refcount => rfl
    | _ => exact hword _ nofun
  · have hk := toNat_add_kind hb
    simp only [header]
    rw [h _ (by omega) (by omega)]

/-- A header that was written is what is read back. -/
theorem header_write (m : Memory) (d : Header) (hb : b.toNat + 56 ≤ UInt64.size) :
    (m.write b d.bytes).header b = d := by
  refine Header.ext_get (fun f => ?_) ?_
  · obtain ⟨pre, post, hd, hpre⟩ := d.bytes_eq_append f
    have hlen : pre.length + 8 + post.length = 49 := by
      rw [← d.length_bytes, hd]
      simp [Nat.add_assoc]
    rw [get_header, hd]
    refine word_write_append m pre post _ (by omega) ?_
    rw [toNat_add_offset f hb, hpre]
  · have ho := toNat_add_kind hb
    have hk : d.bytes[48]? = some d.kind.toByte := by
      rw [Header.bytes, List.getElem?_append_right (by simp)]
      simp
    simp only [header]
    rw [byte_write _ _ _ (by simp; omega) (by omega), if_pos (by omega), ho,
      Nat.add_sub_cancel_left, hk, Option.getD_some, Kind.ofByte_toByte]

/-- The header after one of its words was replaced. -/
theorem header_setField (m : Memory) (f : Field) (v : Word) (hb : b.toNat + 56 ≤ UInt64.size) :
    (m.setWord (b + f.offset) v).header b = (m.header b).set v f := by
  have hf := f.offset_le
  have ho := toNat_add_offset f hb
  refine Header.ext_get (fun g => ?_) ?_
  · rw [Header.get_set, get_header, get_header]
    split
    · next h =>
      subst h
      exact word_setWord m _ v (by omega)
    · next h =>
      have hg := g.offset_le
      have hog := toNat_add_offset g hb
      have hfg := Field.offset_apart h
      exact word_setWord_of_disjoint m v (by omega) (by omega) (by omega)
  · have hok := toNat_add_kind hb
    rw [Header.kind_set]
    simp only [header]
    rw [agreeOn_setWord (p := b + 48) (n := 1) m v (by omega) (by omega)
      (by unfold Apart; omega) _ (by omega) (by omega)]

/-- Replacing a word of one header leaves what lies beside the header alone. -/
theorem agreeOn_setField (m : Memory) (f : Field) (v : Word) {p : Addr} {n : Nat}
    (hb : b.toNat + 56 ≤ UInt64.size) (hp : p.toNat + n ≤ UInt64.size) (hd : Apart b 56 p n) :
    AgreeOn m (m.setWord (b + f.offset) v) p n := by
  have hf := f.offset_le
  have ho := toNat_add_offset f hb
  refine agreeOn_setWord m v (by omega) hp ?_
  unfold Apart at *
  omega

/-! ### Payloads behind headers -/

/-- Where a payload lies that is `k` bytes behind the start of its block. One that starts where
memory ends is empty, and its address is null. -/
theorem toNat_contained {b p : Addr} {k n r : Nat} (hk : k + n ≤ r)
    (hfit : b.toNat + r ≤ UInt64.size) (hp : p = b + UInt64.ofNat k) :
    p.toNat = b.toNat + k ∨ p.toNat = 0 ∧ n = 0 := by
  have hs : UInt64.size = 2 ^ 64 := rfl
  have hp' : p.toNat = (b.toNat + k) % 2 ^ 64 := by
    rw [hp, UInt64.toNat_add, UInt64.toNat_ofNat', Nat.add_mod_mod]
  by_cases hlt : b.toNat + k < 2 ^ 64
  · exact .inl (hp'.trans (Nat.mod_eq_of_lt hlt))
  · have he : b.toNat + k = 2 ^ 64 := by omega
    rw [he, Nat.mod_self] at hp'
    exact .inr ⟨hp', by omega⟩

/-- What lies in a block is apart from what the block is apart from. -/
theorem contained_apart {b q p : Addr} {k n r j : Nat} (hk : k + n ≤ r)
    (hfit : b.toNat + r ≤ UInt64.size) (hp : p = b + UInt64.ofNat k) (hd : Apart b r q j) :
    Apart p n q j := by
  have hcases := toNat_contained hk hfit hp
  unfold Apart at *
  omega

end Memory

end CountedHeap
