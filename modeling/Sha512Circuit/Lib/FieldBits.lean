/-
Booleans and small naturals inside a field of characteristic `p`: booleanity as an equation,
binary decompositions that do not wrap around, and the polynomials of Boolean functions.
-/
import Sha512Circuit.Lib.Radix
import Mathlib.Algebra.CharP.Basic
import Mathlib.Algebra.Field.Basic
import Mathlib.Data.Nat.Bitwise
import Mathlib.Tactic.NormNum
import Mathlib.Tactic.LinearCombination

namespace FieldBits

open Finset

section Casts

variable {F : Type*} [Field F] {p : ℕ} [CharP F p]

/-- Naturals below the characteristic are distinguished by the field. -/
theorem natCast_inj {a b : ℕ} (ha : a < p) (hb : b < p) : (a : F) = b ↔ a = b :=
  ⟨fun h => CharP.natCast_injOn_Iio F p ha hb h, fun h => by rw [h]⟩

end Casts

/-! ## Booleanity -/

section Bool

variable {F : Type*} [Field F]

/-- `x` is one of the two roots of `x (1 - x)`. -/
def IsBit (x : F) : Prop := x = 0 ∨ x = 1

/-- The field element of a Boolean. -/
def ofBool (b : Bool) : F := if b then 1 else 0

@[simp] theorem ofBool_false : (ofBool false : F) = 0 := rfl
@[simp] theorem ofBool_true : (ofBool true : F) = 1 := rfl

theorem isBit_iff_mul (x : F) : x * (1 - x) = 0 ↔ IsBit x := by
  unfold IsBit
  rw [mul_eq_zero, sub_eq_zero, eq_comm (a := (1 : F))]

theorem isBit_iff_mul_sub (x : F) : x * (x - 1) = 0 ↔ IsBit x := by
  unfold IsBit
  rw [mul_eq_zero, sub_eq_zero]

theorem isBit_ofBool (b : Bool) : IsBit (ofBool b : F) := by cases b <;> simp [IsBit]

theorem isBit_iff_exists (x : F) : IsBit x ↔ ∃ b, x = ofBool b := by
  constructor
  · rintro (rfl | rfl)
    exacts [⟨false, rfl⟩, ⟨true, rfl⟩]
  · rintro ⟨b, rfl⟩
    exact isBit_ofBool b

theorem ofBool_eq_natCast (b : Bool) : (ofBool b : F) = (b.toNat : F) := by cases b <;> simp

end Bool

/-! ## Binary decompositions -/

section Pack

variable {F : Type*} [Field F]

/-- The element with bits `f 0, …, f (n - 1)`, least significant first. -/
def pack (n : ℕ) (f : ℕ → F) : F := ∑ i ∈ range n, f i * ((2 ^ i : ℕ) : F)

theorem pack_succ (n : ℕ) (f : ℕ → F) : pack (n + 1) f = pack n f + f n * ((2 ^ n : ℕ) : F) := sum_range_succ _ _

theorem pack_congr {n : ℕ} {f g : ℕ → F} (h : ∀ i < n, f i = g i) : pack n f = pack n g :=
  sum_congr rfl fun i hi => by rw [h i (mem_range.1 hi)]

/-- The binary digits of `m` pack to `m` modulo `2 ^ n`. -/
theorem pack_testBit (n m : ℕ) : pack n (fun i => ofBool (m.testBit i)) = ((m % 2 ^ n : ℕ) : F) := by
  rw [← Radix.value_digit, pack, Radix.value, Nat.cast_sum]
  refine sum_congr rfl fun i _ => ?_
  rw [ofBool_eq_natCast, Nat.toNat_testBit, Radix.digit, Nat.cast_mul]

/-- A sequence of bits is the binary expansion of a natural. -/
theorem exists_testBit {n : ℕ} {f : ℕ → F} (h : ∀ i < n, IsBit (f i)) :
    ∃ m < 2 ^ n, ∀ i < n, f i = ofBool (m.testBit i) := by
  have hex : ∀ i : Fin n, ∃ b, f i = ofBool b := fun i => (isBit_iff_exists _).1 (h i i.isLt)
  choose g hg using hex
  refine ⟨Nat.ofBits g, Nat.ofBits_lt_two_pow g, fun i hi => ?_⟩
  rw [Nat.testBit_ofBits_lt g i hi]
  exact hg ⟨i, hi⟩

end Pack

/-! ## Polynomials of Boolean functions -/

section Polynomials

variable {F : Type*} [Field F]

theorem ofBool_xor (a b : Bool) : (ofBool (a ^^ b) : F) = ofBool a + ofBool b - ofBool a * ofBool b * 2 := by
  cases a <;> cases b <;> norm_num [ofBool]

theorem ofBool_ch (e f g : Bool) :
    (ofBool ((e && f) ^^ (!e && g)) : F) = ofBool e * ofBool f + (1 - ofBool e) * ofBool g := by
  cases e <;> cases f <;> cases g <;> norm_num [ofBool]

theorem ofBool_maj (a b c : Bool) :
    (ofBool ((a && b) ^^ (a && c) ^^ (b && c)) : F) =
      ofBool a * ofBool b + ofBool a * ofBool c + ofBool b * ofBool c - ofBool a * ofBool b * ofBool c * 2 := by
  cases a <;> cases b <;> cases c <;> norm_num [ofBool]

end Polynomials

end FieldBits
