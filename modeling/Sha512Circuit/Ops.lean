/-
`constants.rs` and `ops.rs`: the BabyBear field, the SHA-512 tables and the six word functions.
-/
import Mathlib.Data.BitVec
import Mathlib.NumberTheory.LucasPrimality
import Mathlib.Tactic.ReduceModChar
import Mathlib.Tactic.NormNum.Prime

namespace Sha512Circuit

/-! ## Machine words and the field -/

/-- `u8`. -/
abbrev U8 := BitVec 8
/-- `u64`, with wrapping addition. -/
abbrev U64 := BitVec 64

/-- The BabyBear modulus `2^31 - 2^27 + 1`. -/
def babyBearPrime : ℕ := 2013265921

theorem babyBearPrime_eq : babyBearPrime = 2013265921 := rfl

/-- Lucas: 31 generates the multiplicative group, whose order is `2^27 * 3 * 5`. -/
theorem babyBearPrime_prime : Nat.Prime babyBearPrime := by
  rw [babyBearPrime_eq]
  refine lucas_primality _ 31 (by reduce_mod_char) fun q hq hd => ?_
  have h : q = 2 ∨ q = 3 ∨ q = 5 := by
    rw [show 2013265921 - 1 = 2 ^ 27 * (3 * 5) by norm_num, hq.dvd_mul, hq.dvd_mul] at hd
    rcases hd with hd | hd | hd
    · exact .inl ((Nat.prime_dvd_prime_iff_eq hq Nat.prime_two).1 (hq.dvd_of_dvd_pow hd))
    · exact .inr (.inl ((Nat.prime_dvd_prime_iff_eq hq Nat.prime_three).1 hd))
    · exact .inr (.inr ((Nat.prime_dvd_prime_iff_eq hq Nat.prime_five).1 hd))
  rcases h with rfl | rfl | rfl <;> norm_num <;> reduce_mod_char <;> decide

instance : Fact (Nat.Prime babyBearPrime) := ⟨babyBearPrime_prime⟩

/-- `p3_baby_bear::BabyBear`. -/
abbrev BabyBear := ZMod babyBearPrime

/-- `BabyBear::TWO`. -/
abbrev BabyBear.two : BabyBear := 2

/-- `BabyBear::from_u64`, as `ops.rs` names it: the word reduced modulo `p`. -/
def bb (x : U64) : BabyBear := (x.toNat : BabyBear)

/-! ## Tables -/

/-- `INITIAL_STATE`. -/
def initialState : Vector U64 8 :=
  #v[0x6a09e667f3bcc908, 0xbb67ae8584caa73b, 0x3c6ef372fe94f82b, 0xa54ff53a5f1d36f1,
    0x510e527fade682d1, 0x9b05688c2b3e6c1f, 0x1f83d9abfb41bd6b, 0x5be0cd19137e2179]

/-- The round constants `K`. -/
def K : Vector U64 80 :=
  #v[0x428a2f98d728ae22, 0x7137449123ef65cd, 0xb5c0fbcfec4d3b2f, 0xe9b5dba58189dbbc,
    0x3956c25bf348b538, 0x59f111f1b605d019, 0x923f82a4af194f9b, 0xab1c5ed5da6d8118,
    0xd807aa98a3030242, 0x12835b0145706fbe, 0x243185be4ee4b28c, 0x550c7dc3d5ffb4e2,
    0x72be5d74f27b896f, 0x80deb1fe3b1696b1, 0x9bdc06a725c71235, 0xc19bf174cf692694,
    0xe49b69c19ef14ad2, 0xefbe4786384f25e3, 0x0fc19dc68b8cd5b5, 0x240ca1cc77ac9c65,
    0x2de92c6f592b0275, 0x4a7484aa6ea6e483, 0x5cb0a9dcbd41fbd4, 0x76f988da831153b5,
    0x983e5152ee66dfab, 0xa831c66d2db43210, 0xb00327c898fb213f, 0xbf597fc7beef0ee4,
    0xc6e00bf33da88fc2, 0xd5a79147930aa725, 0x06ca6351e003826f, 0x142929670a0e6e70,
    0x27b70a8546d22ffc, 0x2e1b21385c26c926, 0x4d2c6dfc5ac42aed, 0x53380d139d95b3df,
    0x650a73548baf63de, 0x766a0abb3c77b2a8, 0x81c2c92e47edaee6, 0x92722c851482353b,
    0xa2bfe8a14cf10364, 0xa81a664bbc423001, 0xc24b8b70d0f89791, 0xc76c51a30654be30,
    0xd192e819d6ef5218, 0xd69906245565a910, 0xf40e35855771202a, 0x106aa07032bbd1b8,
    0x19a4c116b8d2d0c8, 0x1e376c085141ab53, 0x2748774cdf8eeb99, 0x34b0bcb5e19b48a8,
    0x391c0cb3c5c95a63, 0x4ed8aa4ae3418acb, 0x5b9cca4f7763e373, 0x682e6ff3d6b2b8a3,
    0x748f82ee5defb2fc, 0x78a5636f43172f60, 0x84c87814a1f0ab72, 0x8cc702081a6439ec,
    0x90befffa23631e28, 0xa4506cebde82bde9, 0xbef9a3f7b2c67915, 0xc67178f2e372532b,
    0xca273eceea26619c, 0xd186b8c721c0c207, 0xeada7dd6cde0eb1e, 0xf57d4f7fee6ed178,
    0x06f067aa72176fba, 0x0a637dc5a2c898a6, 0x113f9804bef90dae, 0x1b710b35131c471b,
    0x28db77f523047d84, 0x32caab7b40c72493, 0x3c9ebe0a15c9bebc, 0x431d67c49c100d4c,
    0x4cc5d4becb3e42b6, 0x597f299cfc657e2a, 0x5fcb6fab3ad6faec, 0x6c44198c4a475817]

/-! ## Word functions -/

/-- Choose. -/
def ch (x y z : U64) : U64 := (x &&& y) ^^^ (~~~x &&& z)

/-- Majority. -/
def maj (x y z : U64) : U64 := (x &&& y) ^^^ (x &&& z) ^^^ (y &&& z)

/-- `Σ0`. -/
def bigSigma0 (x : U64) : U64 := x.rotateRight 28 ^^^ x.rotateRight 34 ^^^ x.rotateRight 39

/-- `Σ1`. -/
def bigSigma1 (x : U64) : U64 := x.rotateRight 14 ^^^ x.rotateRight 18 ^^^ x.rotateRight 41

/-- `σ0`. -/
def smallSigma0 (x : U64) : U64 := x.rotateRight 1 ^^^ x.rotateRight 8 ^^^ (x >>> 7)

/-- `σ1`. -/
def smallSigma1 (x : U64) : U64 := x.rotateRight 19 ^^^ x.rotateRight 61 ^^^ (x >>> 6)

end Sha512Circuit
