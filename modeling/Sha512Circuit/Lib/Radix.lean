/-
Positional notation in a base `b`: digits, the value of a digit sequence, and the ripple of carries
when the digits of several numbers are added column by column.
-/
import Mathlib.Algebra.BigOperators.Ring.Finset
import Mathlib.Data.Nat.ModEq
import Mathlib.Tactic.Ring

namespace Radix

open Finset

/-! ## Digits and values -/

/-- Digit `l` of `x`. -/
def digit (b x l : ℕ) : ℕ := x / b ^ l % b

/-- The number with digits (or column sums) `d 0, …, d (n - 1)`. -/
def value (b : ℕ) (d : ℕ → ℕ) (n : ℕ) : ℕ := ∑ l ∈ range n, d l * b ^ l

variable {b : ℕ}

theorem digit_lt (hb : 0 < b) (x l : ℕ) : digit b x l < b := Nat.mod_lt _ hb

@[simp] theorem digit_zero (l : ℕ) : digit b 0 l = 0 := by simp [digit]

theorem digit_zero_right (x : ℕ) : digit b x 0 = x % b := by simp [digit]

theorem digit_succ (x l : ℕ) : digit b x (l + 1) = digit b (x / b) l := by
  unfold digit
  rw [Nat.div_div_eq_div_mul, ← pow_succ']

@[simp] theorem value_zero (d : ℕ → ℕ) : value b d 0 = 0 := rfl

theorem value_succ (d : ℕ → ℕ) (n : ℕ) : value b d (n + 1) = value b d n + d n * b ^ n := sum_range_succ _ _

theorem value_succ' (d : ℕ → ℕ) (n : ℕ) : value b d (n + 1) = d 0 + b * value b (fun l => d (l + 1)) n := by
  unfold value
  rw [sum_range_succ', pow_zero, mul_one, add_comm, mul_sum]
  congr 1
  refine sum_congr rfl fun l _ => ?_
  rw [pow_succ']; ring

theorem value_congr {d d' : ℕ → ℕ} {n : ℕ} (h : ∀ l < n, d l = d' l) : value b d n = value b d' n :=
  sum_congr rfl fun l hl => by rw [h l (mem_range.1 hl)]

theorem value_digit (x n : ℕ) : value b (digit b x) n = x % b ^ n := by
  induction n with
  | zero => simp [Nat.mod_one]
  | succ n ih => rw [value_succ, ih, digit, Nat.mod_pow_succ, mul_comm]

/-- Reduced digits are the digits of their value, whatever is added above them. -/
theorem digit_value_add {n : ℕ} {d : ℕ → ℕ} (hd : ∀ l < n, d l < b) (x : ℕ) :
    ∀ l < n, digit b (value b d n + x * b ^ n) l = d l := by
  induction n generalizing d with
  | zero => intro l hl; omega
  | succ n ih =>
    intro l hl
    have hb : 0 < b := by have := hd 0 (by omega); omega
    have e : value b d (n + 1) + x * b ^ (n + 1) =
        d 0 + b * (value b (fun l => d (l + 1)) n + x * b ^ n) := by
      rw [value_succ', pow_succ']; ring
    rw [e]
    cases l with
    | zero => rw [digit_zero_right, Nat.add_mul_mod_self_left, Nat.mod_eq_of_lt (hd 0 hl)]
    | succ l =>
      rw [digit_succ, Nat.add_mul_div_left _ _ hb, Nat.div_eq_of_lt (hd 0 (by omega)), zero_add]
      exact ih (fun l hl => hd (l + 1) (by omega)) l (by omega)

theorem digit_value {n : ℕ} {d : ℕ → ℕ} (hd : ∀ l < n, d l < b) : ∀ l < n, digit b (value b d n) l = d l := by
  intro l hl
  simpa using digit_value_add hd 0 l hl

theorem value_lt {n : ℕ} {d : ℕ → ℕ} (hd : ∀ l < n, d l < b) : value b d n < b ^ n := by
  rw [← value_congr (digit_value hd), value_digit]
  rcases Nat.eq_zero_or_pos n with rfl | hn
  · simp [Nat.mod_one]
  · exact Nat.mod_lt _ (Nat.pow_pos (by have := hd 0 hn; omega))

theorem digit_mod {n l : ℕ} (x : ℕ) (hl : l < n) : digit b (x % b ^ n) l = digit b x l := by
  rcases Nat.eq_zero_or_pos b with rfl | hb
  · rw [zero_pow (by omega), Nat.mod_zero]
  · rw [← value_digit]
    exact digit_value (fun l _ => digit_lt hb x l) l hl

/-- Numbers below `b ^ n` are determined by their first `n` digits. -/
theorem eq_of_digit_eq {n x y : ℕ} (hx : x < b ^ n) (hy : y < b ^ n) (h : ∀ l < n, digit b x l = digit b y l) :
    x = y := by
  rw [← Nat.mod_eq_of_lt hx, ← Nat.mod_eq_of_lt hy, ← value_digit, ← value_digit, value_congr h]

/-! ## Column addition -/

/-- The carry into column `l` when the column sums are `t`. -/
def carry (b : ℕ) (t : ℕ → ℕ) : ℕ → ℕ
  | 0 => 0
  | l + 1 => (t l + carry b t l) / b

/-- The columns of a sum: the digits of each operand added without carrying. -/
def columns (b : ℕ) (xs : List ℕ) (l : ℕ) : ℕ := (xs.map (digit b · l)).sum

theorem value_eq_carry (t : ℕ → ℕ) (n : ℕ) :
    value b t n = value b (fun l => (t l + carry b t l) % b) n + carry b t n * b ^ n := by
  induction n with
  | zero => simp [carry]
  | succ n ih =>
    have h : (t n + carry b t n) % b + b * carry b t (n + 1) = t n + carry b t n := Nat.mod_add_div _ _
    calc value b t (n + 1) = value b t n + t n * b ^ n := value_succ _ _
      _ = value b (fun l => (t l + carry b t l) % b) n + (t n + carry b t n) * b ^ n := by rw [ih]; ring
      _ = _ := by rw [← h, value_succ, pow_succ]; ring

theorem value_columns_modEq (xs : List ℕ) (n : ℕ) : value b (columns b xs) n ≡ xs.sum [MOD b ^ n] := by
  induction xs with
  | nil => simp [value, columns, Nat.ModEq.refl]
  | cons x xs ih =>
    have e : value b (columns b (x :: xs)) n = x % b ^ n + value b (columns b xs) n := by
      rw [← value_digit, value, value, value, ← sum_add_distrib]
      exact sum_congr rfl fun l _ => by simp [columns, add_mul]
    rw [e, List.sum_cons]
    exact (Nat.mod_modEq x (b ^ n)).add ih

/-- Column addition with carries computes the digits of the sum. -/
theorem digit_sum (hb : 0 < b) (xs : List ℕ) (l : ℕ) :
    digit b xs.sum l = (columns b xs l + carry b (columns b xs) l) % b := by
  rw [← digit_mod xs.sum (Nat.lt_succ_self l), ← show _ = _ from value_columns_modEq xs (l + 1),
    digit_mod _ (Nat.lt_succ_self l), value_eq_carry]
  exact digit_value_add (d := fun l => (columns b xs l + carry b (columns b xs) l) % b)
    (fun l _ => Nat.mod_lt _ hb) _ l (Nat.lt_succ_self l)

theorem columns_le (hb : 0 < b) (xs : List ℕ) (l : ℕ) : columns b xs l ≤ xs.length * (b - 1) := by
  induction xs with
  | nil => simp [columns]
  | cons x xs ih =>
    have h := digit_lt hb x l
    have e : columns b (x :: xs) l = digit b x l + columns b xs l := by simp [columns]
    rw [e, List.length_cons, Nat.succ_mul]
    omega

/-- Adding `k + 1` digits and a carry of at most `k` carries at most `k`. -/
theorem carry_le {t : ℕ → ℕ} {k : ℕ} (hb : 0 < b) (ht : ∀ l, t l ≤ (k + 1) * (b - 1)) (l : ℕ) : carry b t l ≤ k := by
  induction l with
  | zero => exact Nat.zero_le _
  | succ l ih =>
    have h := ht l
    have e : (k + 1) * b = (k + 1) * (b - 1) + (k + 1) := by
      rw [← Nat.mul_succ, Nat.succ_eq_add_one, Nat.sub_add_cancel hb]
    exact Nat.lt_succ_iff.1 ((Nat.div_lt_iff_lt_mul hb).2 (show t l + carry b t l < (k + 1) * b by omega))

theorem carry_columns_le (hb : 0 < b) (x : ℕ) (xs : List ℕ) (l : ℕ) :
    carry b (columns b (x :: xs)) l ≤ xs.length :=
  carry_le hb (columns_le hb (x :: xs)) l

/-- The carry into column `l` of a chain whose carries out of columns `0, 1, …` are `c`. -/
def carryIn {α : Type*} [Zero α] (c : ℕ → α) : ℕ → α
  | 0 => 0
  | l + 1 => c l

/-- Reduced output digits and carries that satisfy the column equations are the carry chain. -/
theorem carry_chain {t o c : ℕ → ℕ} {n : ℕ} (h : ∀ l < n, t l + carryIn c l = o l + c l * b)
    (ho : ∀ l < n, o l < b) : ∀ l < n, o l = (t l + carry b t l) % b ∧ c l = carry b t (l + 1) := by
  intro l hl
  have hin : carryIn c l = carry b t l := by
    induction l with
    | zero => rfl
    | succ l ih =>
      have e := h l (by omega)
      rw [ih (by omega)] at e
      have hb := ho l (by omega)
      show c l = (t l + carry b t l) / b
      rw [e, Nat.add_mul_div_right _ _ (by omega), Nat.div_eq_of_lt hb, zero_add]
  have e := h l hl
  have hb := ho l hl
  rw [hin] at e
  constructor
  · rw [e, Nat.add_mul_mod_self_right, Nat.mod_eq_of_lt hb]
  · show c l = (t l + carry b t l) / b
    rw [e, Nat.add_mul_div_right _ _ (by omega), Nat.div_eq_of_lt hb, zero_add]

/-- The carry chain satisfies the column equations. -/
theorem carry_chain_holds (t : ℕ → ℕ) (l : ℕ) :
    t l + carryIn (fun l => carry b t (l + 1)) l = (t l + carry b t l) % b + carry b t (l + 1) * b := by
  have hin : carryIn (fun l => carry b t (l + 1)) l = carry b t l := by cases l <;> rfl
  rw [hin, mul_comm]
  exact (Nat.mod_add_div _ _).symm

end Radix
