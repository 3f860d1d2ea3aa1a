/-
Byte codecs over a reader with a budget: fixed-width little-endian integers, pairs, arrays and
length-prefixed sequences. A codec round-trips in two directions: decoding undoes encoding
(`Decodes`, value by value), and a decoder reads exactly the encoding of what it returns
(`Canonical`).
-/
import Sha512Circuit.Lib.Bytes
import Mathlib.Data.Vector.Basic

namespace Wire

/-- Why a decoder stops. -/
inductive Error where
  | unexpectedEof
  | sizeLimit
  | outOfRange
  | trailingBytes
  | custom (text : String)
deriving DecidableEq, Repr

/-- The unread bytes of a slice and the number of bytes that may still be read. -/
structure Reader where
  bytes : List (BitVec 8)
  limit : ℕ

/-- An encoder and a decoder of `α`. -/
structure Codec (α : Type) where
  encode : α → List (BitVec 8)
  decode : Reader → Except Error (α × Reader)

theorem bind_ok_iff {ε α β : Type} {x : Except ε α} {f : α → Except ε β} {b : β} :
    x >>= f = .ok b ↔ ∃ a, x = .ok a ∧ f a = .ok b := by
  constructor
  · intro h
    cases x with
    | error e => cases h
    | ok a => exact ⟨a, rfl, h⟩
  · rintro ⟨a, rfl, h⟩
    exact h

theorem bind_ok {ε α β : Type} {x : Except ε α} {f : α → Except ε β} {b : β} (h : x >>= f = .ok b) :
    ∃ a, x = .ok a ∧ f a = .ok b := bind_ok_iff.1 h

/-! ## Reading -/

/-- Reading `bs` from `r` leaves `r'`, and the budget pays for every byte. -/
def Reader.Reads (r : Reader) (bs : List (BitVec 8)) (r' : Reader) : Prop :=
  r.bytes = bs ++ r'.bytes ∧ r.limit = bs.length + r'.limit

theorem Reader.reads_append {r r' : Reader} {xs ys : List (BitVec 8)} :
    r.Reads (xs ++ ys) r' ↔ ∃ m, r.Reads xs m ∧ m.Reads ys r' := by
  constructor
  · rintro ⟨hb, hl⟩
    rw [List.length_append] at hl
    exact ⟨⟨ys ++ r'.bytes, ys.length + r'.limit⟩, ⟨by rw [hb, List.append_assoc], by rw [hl, Nat.add_assoc]⟩, rfl, rfl⟩
  · rintro ⟨m, ⟨hb, hl⟩, hb', hl'⟩
    exact ⟨by rw [hb, hb', List.append_assoc], by rw [hl, hl', List.length_append, Nat.add_assoc]⟩

theorem Reader.reads_nil {r r' : Reader} : r.Reads [] r' ↔ r = r' := by
  constructor
  · rintro ⟨hb, hl⟩
    cases r; cases r'
    simpa using And.intro hb hl
  · rintro rfl; exact ⟨rfl, (Nat.zero_add _).symm⟩

/-- `n` bytes at once. The budget is charged before the slice is looked at. -/
def Reader.take (n : ℕ) (r : Reader) : Except Error (List (BitVec 8) × Reader) :=
  if r.limit < n then .error .sizeLimit
  else if r.bytes.length < n then .error .unexpectedEof
  else .ok (r.bytes.take n, ⟨r.bytes.drop n, r.limit - n⟩)

theorem Reader.take_eq_ok {n : ℕ} {r r' : Reader} {bs : List (BitVec 8)} :
    r.take n = .ok (bs, r') ↔ bs.length = n ∧ r.Reads bs r' := by
  unfold Reader.take Reader.Reads
  constructor
  · intro h
    split at h
    · cases h
    · split at h
      · cases h
      · cases h
        refine ⟨List.length_take_of_le (by omega), (List.take_append_drop n r.bytes).symm, ?_⟩
        rw [List.length_take_of_le (by omega)]
        dsimp only
        omega
  · rintro ⟨rfl, hb, hl⟩
    rw [if_neg (by omega), if_neg (by rw [hb, List.length_append]; omega), hb, List.take_left, List.drop_left, hl,
      Nat.add_sub_cancel_left]

namespace Codec

variable {α β : Type}

/-- Decoding undoes encoding at `a`, whatever follows. -/
def Decodes (c : Codec α) (a : α) : Prop := ∀ r r', r.Reads (c.encode a) r' → c.decode r = .ok (a, r')

/-- Encoding undoes decoding: what is read is the encoding of what is returned. -/
def Canonical (c : Codec α) : Prop := ∀ r a r', c.decode r = .ok (a, r') → r.Reads (c.encode a) r'

/-- Encodings that decode are told apart from what follows: none is a proper prefix of another. -/
theorem Decodes.append_inj {c : Codec α} {a a' : α} {xs ys : List (BitVec 8)} (h : c.Decodes a) (h' : c.Decodes a')
    (heq : c.encode a ++ xs = c.encode a' ++ ys) : a = a' ∧ xs = ys := by
  have hr := h ⟨c.encode a ++ xs, (c.encode a).length + (c.encode a').length⟩ ⟨xs, (c.encode a').length⟩ ⟨rfl, rfl⟩
  have hr' := h' ⟨c.encode a ++ xs, (c.encode a).length + (c.encode a').length⟩ ⟨ys, (c.encode a).length⟩
    ⟨heq, Nat.add_comm _ _⟩
  have hpair := Except.ok.inj (hr.symm.trans hr')
  exact ⟨congrArg Prod.fst hpair, congrArg (fun x => x.2.bytes) hpair⟩

/-! ## Whole slices -/

/-- Decodes all of a slice under a limit; trailing bytes are rejected. -/
def decodeSlice (c : Codec α) (limit : ℕ) (bytes : List (BitVec 8)) : Except Error α := do
  let (a, r) ← c.decode ⟨bytes, limit⟩
  if r.bytes.isEmpty then return a else throw .trailingBytes

theorem decodeSlice_encode {c : Codec α} {a : α} {limit : ℕ} (hc : c.Decodes a) (hl : (c.encode a).length ≤ limit) :
    c.decodeSlice limit (c.encode a) = .ok a := by
  have h := hc ⟨c.encode a, limit⟩ ⟨[], limit - (c.encode a).length⟩
    ⟨(List.append_nil _).symm, by dsimp only; omega⟩
  unfold decodeSlice
  rw [h]
  rfl

theorem encode_of_decodeSlice {c : Codec α} {a : α} {limit : ℕ} {bytes : List (BitVec 8)} (hc : c.Canonical)
    (h : c.decodeSlice limit bytes = .ok a) : c.encode a = bytes ∧ bytes.length ≤ limit := by
  obtain ⟨⟨a', r⟩, hd, h⟩ := bind_ok h
  dsimp only at h
  split at h
  · rename_i hr
    cases h
    obtain ⟨hb, hl⟩ := hc _ _ _ hd
    rw [List.isEmpty_iff.1 hr, List.append_nil] at hb
    dsimp only at hb hl
    exact ⟨hb.symm, by rw [hb]; omega⟩
  · cases h

/-! ## Integers -/

/-- A little-endian `u64` of fixed width. -/
def u64 : Codec (BitVec 64) where
  encode w := (Bytes.toBe 8 w.toNat).reverse
  decode r := do
    let (bs, r) ← r.take 8
    return (BitVec.ofNat 64 (Bytes.ofBe bs.reverse), r)

@[simp] theorem u64_encode_length (w : BitVec 64) : (u64.encode w).length = 8 := by simp [u64]

theorem u64_decodes (w : BitVec 64) : u64.Decodes w := by
  intro r r' h
  have ht : r.take 8 = .ok (u64.encode w, r') := Reader.take_eq_ok.2 ⟨u64_encode_length w, h⟩
  have hw : BitVec.ofNat 64 (Bytes.ofBe (u64.encode w).reverse) = w := by
    apply BitVec.eq_of_toNat_eq
    show (BitVec.ofNat 64 (Bytes.ofBe (Bytes.toBe 8 w.toNat).reverse.reverse)).toNat = _
    rw [List.reverse_reverse, Bytes.ofBe_toBe, BitVec.toNat_ofNat]
    have := w.isLt
    omega
  show (r.take 8 >>= fun x => _) = _
  rw [ht]
  exact congrArg (fun v => Except.ok (v, r')) hw

theorem u64_canonical : u64.Canonical := by
  intro r w r' h
  obtain ⟨⟨bs, r⟩, ht, h⟩ := bind_ok h
  cases h
  obtain ⟨hl, hr⟩ := Reader.take_eq_ok.1 ht
  have hlr : bs.reverse.length = 8 := by rw [List.length_reverse, hl]
  have hw : u64.encode (BitVec.ofNat 64 (Bytes.ofBe bs.reverse)) = bs := by
    have hlt := Bytes.ofBe_lt bs.reverse
    have hinv := Bytes.toBe_ofBe bs.reverse
    rw [hlr] at hlt hinv
    show (Bytes.toBe 8 (BitVec.ofNat 64 (Bytes.ofBe bs.reverse)).toNat).reverse = bs
    rw [BitVec.toNat_ofNat, Nat.mod_eq_of_lt (by omega), hinv, List.reverse_reverse]
  rwa [hw]

/-- One byte. -/
def byte : Codec (BitVec 8) where
  encode b := [b]
  decode r := do
    let (bs, r) ← r.take 1
    return (bs.headD 0, r)

theorem byte_decodes (b : BitVec 8) : byte.Decodes b := by
  intro r r' h
  have ht : r.take 1 = .ok ([b], r') := Reader.take_eq_ok.2 ⟨rfl, h⟩
  show (r.take 1 >>= fun x => _) = _
  rw [ht]
  rfl

theorem byte_canonical : byte.Canonical := by
  intro r b r' h
  obtain ⟨⟨bs, r⟩, ht, h⟩ := bind_ok h
  cases h
  obtain ⟨hl, hr⟩ := Reader.take_eq_ok.1 ht
  obtain ⟨b, rfl⟩ := List.length_eq_one_iff.1 hl
  exact hr

/-! ## Refinements and bijections -/

/-- A codec that refuses the values outside `p`. -/
def refine (c : Codec α) (p : α → Bool) (e : Error) : Codec α where
  encode := c.encode
  decode r := do
    let (a, r) ← c.decode r
    if p a then return (a, r) else throw e

theorem Decodes.refine {c : Codec α} {a : α} (h : c.Decodes a) {p : α → Bool} (hp : p a = true) (e : Error) :
    (c.refine p e).Decodes a := by
  intro r r' hr
  show (c.decode r >>= fun x => _) = _
  rw [h r r' hr]
  exact if_pos hp

theorem Canonical.refine {c : Codec α} (h : c.Canonical) (p : α → Bool) (e : Error) : (c.refine p e).Canonical := by
  intro r a r' hd
  obtain ⟨⟨a', m⟩, hd, hp⟩ := bind_ok hd
  dsimp only at hp
  split at hp
  · cases hp; exact h _ _ _ hd
  · cases hp

/-- A codec seen through a bijection. -/
def map (c : Codec α) (e : α ≃ β) : Codec β where
  encode b := c.encode (e.symm b)
  decode r := do
    let (a, r) ← c.decode r
    return (e a, r)

theorem Decodes.map {c : Codec α} {e : α ≃ β} {b : β} (h : c.Decodes (e.symm b)) : (c.map e).Decodes b := by
  intro r r' hr
  show (c.decode r >>= fun x => _) = _
  rw [h r r' hr]
  exact congrArg (fun x => Except.ok (x, r')) (e.apply_symm_apply b)

theorem Canonical.map {c : Codec α} (h : c.Canonical) (e : α ≃ β) : (c.map e).Canonical := by
  intro r b r' hd
  obtain ⟨⟨a, m⟩, hd, hb⟩ := bind_ok hd
  cases hb
  show r.Reads (c.encode (e.symm (e a))) r'
  rw [e.symm_apply_apply]
  exact h _ _ _ hd

/-- A `usize` of `bits` bits, which travels as a `u64`. -/
def usize (bits : ℕ) : Codec (BitVec 64) := u64.refine (fun w => w.toNat < 2 ^ bits) .outOfRange

theorem usize_decodes {bits : ℕ} {w : BitVec 64} (h : w.toNat < 2 ^ bits) : (usize bits).Decodes w :=
  (u64_decodes w).refine (decide_eq_true h) _

theorem usize_canonical (bits : ℕ) : (usize bits).Canonical := u64_canonical.refine _ _

/-! ## Products -/

/-- Two values, one after the other. -/
def pair (c : Codec α) (d : Codec β) : Codec (α × β) where
  encode x := c.encode x.1 ++ d.encode x.2
  decode r := do
    let (a, r) ← c.decode r
    let (b, r) ← d.decode r
    return ((a, b), r)

theorem Decodes.pair {c : Codec α} {d : Codec β} {a : α} {b : β} (hc : c.Decodes a) (hd : d.Decodes b) :
    (c.pair d).Decodes (a, b) := by
  intro r r' hr
  obtain ⟨m, h1, h2⟩ := Reader.reads_append.1 hr
  show (c.decode r >>= fun x => _) = _
  rw [hc r m h1]
  show (d.decode m >>= fun x => _) = _
  rw [hd m r' h2]
  rfl

theorem Canonical.pair {c : Codec α} {d : Codec β} (hc : c.Canonical) (hd : d.Canonical) : (c.pair d).Canonical := by
  rintro r ⟨a, b⟩ r' h
  obtain ⟨⟨a', m⟩, h1, h⟩ := bind_ok h
  obtain ⟨⟨b', m'⟩, h2, h⟩ := bind_ok h
  cases h
  exact Reader.reads_append.2 ⟨m, hc _ _ _ h1, hd _ _ _ h2⟩

/-! ## Sequences -/

/-- `n` values in a row. -/
def items (c : Codec α) : (n : ℕ) → Reader → Except Error (List.Vector α n × Reader)
  | 0, r => return (.nil, r)
  | n + 1, r => do
    let (a, r) ← c.decode r
    let (as, r) ← items c n r
    return (.cons a as, r)

theorem items_of_reads {c : Codec α} :
    ∀ {n : ℕ} (xs : List.Vector α n), (∀ x ∈ xs.toList, c.Decodes x) → ∀ {r r' : Reader},
      r.Reads (xs.toList.flatMap c.encode) r' → c.items n r = .ok (xs, r')
  | 0, xs, _, r, r', h => by
    obtain rfl := xs.eq_nil
    obtain rfl := Reader.reads_nil.1 h
    rfl
  | n + 1, xs, hx, r, r', h => by
    obtain ⟨a, as, rfl⟩ := xs.exists_eq_cons
    rw [List.Vector.toList_cons, List.flatMap_cons] at h
    obtain ⟨m, h1, h2⟩ := Reader.reads_append.1 h
    show (c.decode r >>= fun x => _) = _
    rw [hx a (by simp) r m h1]
    show (c.items n m >>= fun x => _) = _
    rw [items_of_reads as (fun x hm => hx x (by simp [hm])) h2]
    rfl

theorem reads_of_items {c : Codec α} (hc : c.Canonical) :
    ∀ {n : ℕ} {xs : List.Vector α n} {r r' : Reader}, c.items n r = .ok (xs, r') →
      r.Reads (xs.toList.flatMap c.encode) r'
  | 0, xs, r, r', h => by
    cases h
    exact Reader.reads_nil.2 rfl
  | n + 1, xs, r, r', h => by
    obtain ⟨⟨a, m⟩, h1, h⟩ := bind_ok h
    obtain ⟨⟨as, m'⟩, h2, h⟩ := bind_ok h
    cases h
    rw [List.Vector.toList_cons, List.flatMap_cons]
    exact Reader.reads_append.2 ⟨m, hc _ _ _ h1, reads_of_items hc h2⟩

/-- `[T; n]`: the values without a length. -/
def array (c : Codec α) (n : ℕ) : Codec (Vector α n) where
  encode xs := xs.toList.flatMap c.encode
  decode r := do
    let (xs, r) ← c.items n r
    return (⟨xs.toList.toArray, by simp⟩, r)

theorem Decodes.array {c : Codec α} {n : ℕ} {xs : Vector α n} (h : ∀ x ∈ xs.toList, c.Decodes x) :
    (c.array n).Decodes xs := by
  intro r r' hr
  show (c.items n r >>= fun x => _) = _
  rw [items_of_reads (⟨xs.toList, by simp⟩ : List.Vector α n) h hr]
  rfl

theorem Canonical.array {c : Codec α} (h : c.Canonical) (n : ℕ) : (c.array n).Canonical := by
  intro r xs r' hd
  obtain ⟨⟨ys, m⟩, h1, hd⟩ := bind_ok hd
  cases hd
  exact reads_of_items h h1

/-- `Vec<T>`: the length as a `usize` of `bits` bits, then the values. -/
def vec (bits : ℕ) (c : Codec α) : Codec (List α) where
  encode xs := (usize bits).encode (BitVec.ofNat 64 xs.length) ++ xs.flatMap c.encode
  decode r := do
    let (n, r) ← (usize bits).decode r
    let (xs, r) ← c.items n.toNat r
    return (xs.toList, r)

theorem Decodes.vec {bits : ℕ} {c : Codec α} {xs : List α} (hl : xs.length < 2 ^ bits) (hl' : xs.length < 2 ^ 64)
    (h : ∀ x ∈ xs, c.Decodes x) : (vec bits c).Decodes xs := by
  intro r r' hr
  have hn : (BitVec.ofNat 64 xs.length).toNat = xs.length := by rw [BitVec.toNat_ofNat, Nat.mod_eq_of_lt hl']
  obtain ⟨m, h1, h2⟩ := Reader.reads_append.1 hr
  show ((usize bits).decode r >>= fun x => _) = _
  rw [usize_decodes (by rw [hn]; exact hl) r m h1]
  show (c.items (BitVec.ofNat 64 xs.length).toNat m >>= fun x => _) = _
  rw [items_of_reads (⟨xs, hn.symm⟩ : List.Vector α _) h h2]
  rfl

theorem Canonical.vec {c : Codec α} (h : c.Canonical) (bits : ℕ) : (vec bits c).Canonical := by
  intro r xs r' hd
  obtain ⟨⟨n, m⟩, h1, hd⟩ := bind_ok hd
  obtain ⟨⟨ys, m'⟩, h2, hd⟩ := bind_ok hd
  cases hd
  -- the length field is not free: it is the number of values that were read
  refine Reader.reads_append.2 ⟨m, ?_, reads_of_items h h2⟩
  have hn : BitVec.ofNat 64 ys.toList.length = n := by
    rw [List.Vector.toList_length, BitVec.ofNat_toNat, BitVec.setWidth_eq]
  rw [hn]
  exact usize_canonical bits _ _ _ h1

end Codec

end Wire
