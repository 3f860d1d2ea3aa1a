/-
Byte strings: big-endian naturals, exact chunks, and reads and writes of fixed-size arrays.
-/
import Sha512Circuit.Lib.Loop
import Mathlib.Data.Nat.Digits.Defs
import Mathlib.Algebra.BigOperators.Group.Finset.Basic
import Mathlib.Tactic.Ring

namespace Bytes

/-! ## Big-endian naturals -/

/-- The natural whose big-endian base-256 digits are `bs`. -/
def ofBe (bs : List (BitVec 8)) : ℕ := bs.foldl (fun acc b => acc * 256 + b.toNat) 0

/-- The `n` low base-256 digits of `x`, most significant first. -/
def toBe (n x : ℕ) : List (BitVec 8) := (List.range n).map fun i => BitVec.ofNat 8 (x / 256 ^ (n - 1 - i))

@[simp] theorem toBe_length (n x : ℕ) : (toBe n x).length = n := by simp [toBe]

@[simp] theorem ofBe_nil : ofBe [] = 0 := rfl

theorem ofBe_append_singleton (bs : List (BitVec 8)) (b : BitVec 8) :
    ofBe (bs ++ [b]) = ofBe bs * 256 + b.toNat := by
  simp [ofBe, List.foldl_append]

theorem toBe_succ (n x : ℕ) : toBe (n + 1) x = toBe n (x / 256) ++ [BitVec.ofNat 8 x] := by
  unfold toBe
  rw [List.range_succ, List.map_append, List.map_singleton]
  congr 1
  · refine List.map_congr_left fun i hi => ?_
    have hi := List.mem_range.1 hi
    rw [Nat.div_div_eq_div_mul, ← pow_succ']
    congr 3; omega
  · simp

theorem ofBe_toBe (n x : ℕ) : ofBe (toBe n x) = x % 256 ^ n := by
  induction n generalizing x with
  | zero => simp [toBe, Nat.mod_one]
  | succ n ih =>
    rw [toBe_succ, ofBe_append_singleton, ih, BitVec.toNat_ofNat,
      show 256 ^ (n + 1) = 256 * 256 ^ n from pow_succ' 256 n, @Nat.mod_mul 256 (256 ^ n) x]
    omega

/-- Byte `i` of a big-endian string, the most significant one first. -/
theorem getElem?_toBe {n i : ℕ} (x : ℕ) (hi : i < n) :
    (toBe n x)[i]? = some (BitVec.ofNat 8 (x / 256 ^ (n - 1 - i))) := by
  simp [toBe, hi]

theorem ofBe_lt (bs : List (BitVec 8)) : ofBe bs < 256 ^ bs.length := by
  induction bs using List.reverseRecOn with
  | nil => simp
  | append_singleton bs b ih =>
    rw [ofBe_append_singleton, List.length_append, List.length_singleton, pow_succ]
    have := b.isLt
    omega

theorem toBe_ofBe (bs : List (BitVec 8)) : toBe bs.length (ofBe bs) = bs := by
  induction bs using List.reverseRecOn with
  | nil => simp [toBe]
  | append_singleton bs b ih =>
    have hb := b.isLt
    rw [List.length_append, List.length_singleton, toBe_succ, ofBe_append_singleton,
      show (ofBe bs * 256 + b.toNat) / 256 = ofBe bs by omega, ih]
    congr 2
    apply BitVec.eq_of_toNat_eq
    rw [BitVec.toNat_ofNat]; omega

/-- Big-endian strings of one length are determined by their value. -/
theorem ofBe_inj {bs cs : List (BitVec 8)} (hl : bs.length = cs.length) (h : ofBe bs = ofBe cs) : bs = cs := by
  rw [← toBe_ofBe bs, ← toBe_ofBe cs, hl, h]

/-! ## Exact chunks -/

section Chunks

variable {α : Type*}

/-- `chunks_exact(n)`: the consecutive chunks of `n` elements; a remainder is dropped. -/
def chunksExact (n : ℕ) (xs : List α) : List (List α) :=
  (List.range (xs.length / n)).map fun k => (xs.drop (k * n)).take n

@[simp] theorem chunksExact_length (n : ℕ) (xs : List α) : (chunksExact n xs).length = xs.length / n := by
  simp [chunksExact]

theorem chunksExact_getElem (n : ℕ) (xs : List α) (k : ℕ) (hk : k < (chunksExact n xs).length) :
    (chunksExact n xs)[k] = (xs.drop (k * n)).take n := by
  simp [chunksExact]

theorem length_of_mem_chunksExact {n : ℕ} {xs c : List α} (h : c ∈ chunksExact n xs) : c.length = n := by
  obtain ⟨k, hk, rfl⟩ := List.mem_map.1 h
  have hk := List.mem_range.1 hk
  have : (k + 1) * n ≤ xs.length := le_trans (Nat.mul_le_mul_right n hk) (Nat.div_mul_le_self _ _)
  rw [List.length_take, List.length_drop]
  rw [Nat.add_mul, Nat.one_mul] at this
  omega

/-- Chunks of a string whose length is a multiple of `n` give it back. -/
theorem flatten_chunksExact {n : ℕ} {xs : List α} (h : n ∣ xs.length) : (chunksExact n xs).flatten = xs := by
  obtain ⟨m, hm⟩ := h
  rcases Nat.eq_zero_or_pos n with rfl | hn
  · have : xs = [] := List.length_eq_zero_iff.1 (by simpa using hm)
    subst this; simp [chunksExact]
  · have hm' : xs.length / n = m := by rw [hm, Nat.mul_div_cancel_left _ hn]
    unfold chunksExact
    rw [hm']
    have key : ∀ j ≤ m, ((List.range j).map fun k => (xs.drop (k * n)).take n).flatten = xs.take (j * n) := by
      intro j hj
      induction j with
      | zero => simp
      | succ j ih =>
        rw [List.range_succ, List.map_append, List.flatten_append, ih (by omega), Nat.add_mul, Nat.one_mul,
          List.take_add]
        simp
    rw [key m le_rfl, List.take_of_length_le (by rw [hm, mul_comm])]

/-- Chunks of a concatenation whose first part is a multiple of `n`. -/
theorem chunksExact_append {n : ℕ} {xs : List α} (h : n ∣ xs.length) (ys : List α) :
    chunksExact n (xs ++ ys) = chunksExact n xs ++ chunksExact n ys := by
  obtain ⟨m, hm⟩ := h
  rcases Nat.eq_zero_or_pos n with rfl | hn
  · simp [chunksExact]
  unfold chunksExact
  rw [List.length_append, hm, Nat.mul_add_div hn, Nat.mul_div_cancel_left _ hn, List.range_add, List.map_append,
    List.map_map]
  congr 1
  · refine List.map_congr_left fun k hk => ?_
    have hk : (k + 1) * n ≤ n * m := mul_comm m n ▸ Nat.mul_le_mul_right n (List.mem_range.1 hk)
    rw [Nat.add_mul, Nat.one_mul] at hk
    rw [List.drop_append_of_le_length (by omega), List.take_append_of_le_length (by rw [List.length_drop]; omega)]
  · refine List.map_congr_left fun k _ => ?_
    have hlen : (m + k) * n = xs.length + k * n := by rw [Nat.add_mul, hm, mul_comm m n]
    rw [Function.comp_apply, hlen, List.drop_length_add_append]

/-- Chunk `k` of a concatenation of equally long pieces is piece `k`. -/
theorem take_drop_flatMap {β : Type*} {f : β → List α} {n : ℕ} : ∀ (L : List β), (∀ x ∈ L, (f x).length = n) →
    ∀ (k : ℕ) (hk : k < L.length), ((L.flatMap f).drop (k * n)).take n = f L[k]
  | [], _, k, hk => absurd hk (Nat.not_lt_zero k)
  | x :: L, h, k, hk => by
    have hx : (f x).length = n := h x List.mem_cons_self
    rw [List.flatMap_cons]
    cases k with
    | zero =>
      rw [Nat.zero_mul, List.drop_zero, ← hx, List.take_left']
      · rfl
      · rfl
    | succ k =>
      rw [Nat.add_mul, Nat.one_mul, Nat.add_comm, ← List.drop_drop, ← hx, List.drop_left' rfl, hx]
      exact take_drop_flatMap L (fun y hy => h y (List.mem_cons_of_mem _ hy)) k (by simpa using hk)

theorem getElem?_flatMap_const {β : Type*} {f : β → List α} {n : ℕ} {L : List β} (h : ∀ x ∈ L, (f x).length = n)
    {k i : ℕ} (hk : k < L.length) (hi : i < n) : (L.flatMap f)[k * n + i]? = (f L[k])[i]? := by
  rw [← take_drop_flatMap L h k hk, List.getElem?_take_of_lt hi, List.getElem?_drop]

theorem length_flatMap_const {β : Type*} {f : β → List α} {n : ℕ} {L : List β} (h : ∀ x ∈ L, (f x).length = n) :
    (L.flatMap f).length = L.length * n := by
  rw [List.length_flatMap, List.map_congr_left h, List.map_const', List.sum_replicate, nsmul_eq_mul, Nat.cast_id]

end Chunks

/-! ## Fixed-size arrays -/

section Arrays

variable {α : Type*} [Inhabited α] {n : ℕ}

theorem getElem!_set! (xs : Vector α n) (i : ℕ) (x : α) (j : ℕ) :
    (xs.set! i x)[j]! = if i = j ∧ j < n then x else xs[j]! := by
  by_cases hj : j < n
  · rw [getElem!_pos (xs.set! i x) j hj, getElem!_pos xs j hj]
    simp only [Vector.set!_eq_setIfInBounds, Vector.getElem_setIfInBounds, hj, and_true]
  · rw [getElem!_neg (xs.set! i x) j hj, getElem!_neg xs j hj, if_neg (by omega)]

theorem ext_getElem! {xs ys : Vector α n} (h : ∀ i < n, xs[i]! = ys[i]!) : xs = ys := by
  apply Vector.ext
  intro i hi
  have := h i hi
  rwa [getElem!_pos xs i hi, getElem!_pos ys i hi] at this

/-- `for (i, x) in xs.enumerate() { v[i] = f(x) }`. -/
theorem foldl_set!_zipIdx {β : Type*} (f : β → α) (xs : List β) (v : Vector α n) {j : ℕ} (hj : j < n) :
    (xs.zipIdx.foldl (fun v c => v.set! c.2 (f c.1)) v)[j]! = (xs[j]?.map f).getD v[j]! := by
  have h := Loop.foldl_zipIdx_inv (f := fun (v : Vector α n) (c : β × ℕ) => v.set! c.2 (f c.1))
    (fun k w => ∀ j < n, w[j]! = if j < k then (xs[j]?.map f).getD v[j]! else v[j]!) xs (s := v)
    (fun j _ => rfl) fun k hk w ih j hj => ?_
  · rw [h j hj]
    split
    · rfl
    · rename_i hxs
      rw [List.getElem?_eq_none (by omega)]; rfl
  · rw [getElem!_set!, ih j hj]
    by_cases hkj : k = j
    · subst hkj
      rw [if_pos ⟨rfl, hj⟩, if_pos (Nat.lt_succ_self k), List.getElem?_eq_getElem hk]; rfl
    · rw [if_neg (by omega)]
      by_cases hjk : j < k
      · rw [if_pos hjk, if_pos (by omega)]
      · rw [if_neg hjk, if_neg (by omega)]

end Arrays

end Bytes
