/-
SHA-512 as the standard states it (FIPS 180-4, sections 4.1.3, 5.1.2, 5.2.2 and 6.4), on bit
strings and with the recursive message schedule. Written apart from the code: only the tables `K`
and `initialState` are shared.
-/
import Sha512Circuit.Compress.Model
import Mathlib.Data.Nat.Find

namespace Sha512Circuit.Fips

/-! ## Words -/

/-- `ROTR^n`. -/
def rotr (n : ℕ) (x : U64) : U64 := (x >>> n) ||| (x <<< (64 - n))
/-- `SHR^n`. -/
def shr (n : ℕ) (x : U64) : U64 := x >>> n

def Ch (x y z : U64) : U64 := (x &&& y) ^^^ (~~~x &&& z)
def Maj (x y z : U64) : U64 := (x &&& y) ^^^ (x &&& z) ^^^ (y &&& z)
def Sigma0 (x : U64) : U64 := rotr 28 x ^^^ rotr 34 x ^^^ rotr 39 x
def Sigma1 (x : U64) : U64 := rotr 14 x ^^^ rotr 18 x ^^^ rotr 41 x
def sigma0 (x : U64) : U64 := rotr 1 x ^^^ rotr 8 x ^^^ shr 7 x
def sigma1 (x : U64) : U64 := rotr 19 x ^^^ rotr 61 x ^^^ shr 6 x

/-! ## The compression function -/

/-- The message schedule `W_t` of a block with words `M`. -/
def W (M : ℕ → U64) (t : ℕ) : U64 :=
  if t < 16 then M t
  else sigma1 (W M (t - 2)) + W M (t - 7) + sigma0 (W M (t - 15)) + W M (t - 16)
termination_by t
decreasing_by all_goals omega

/-- One round: the working variables `a … h` after round constant `k` and schedule word `w`. -/
def step (k w : U64) (v : State) : State :=
  let T1 := v.h + Sigma1 v.e + Ch v.e v.f v.g + k + w
  let T2 := Sigma0 v.a + Maj v.a v.b v.c
  #v[T1 + T2, v.a, v.b, v.c, v.d + T1, v.e, v.f, v.g]

/-- The working variables after `t` rounds from `v` with schedule `w`. -/
def rounds (w : ℕ → U64) (v : State) : ℕ → State
  | 0 => v
  | t + 1 => step K[t]! (w t) (rounds w v t)

/-- One iteration of section 6.4.2: the hash value `H` after a block with words `M`. -/
def compress (H : State) (M : ℕ → U64) : State :=
  Vector.ofFn fun i => H[i] + (rounds (W M) H 80)[i]

/-! ## Bit strings -/

/-- The bits of a word or an integer, most significant first. -/
def bits (n x : ℕ) : List Bool := (List.range n).map fun i => x.testBit (n - 1 - i)

/-- A byte string as a bit string. -/
def ofBytes (bs : List U8) : List Bool := bs.flatMap fun b => bits 8 b.toNat

/-- The integer with big-endian bits `l`. -/
def toNat (l : List Bool) : ℕ := l.foldl (fun acc b => 2 * acc + b.toNat) 0

theorem exists_zeroBits (l : ℕ) : ∃ k, (l + 1 + k) % 1024 = 896 := ⟨(1919 - l % 1024) % 1024, by omega⟩

/-- The least `k` with `l + 1 + k = 896` modulo 1024. -/
def zeroBits (l : ℕ) : ℕ := Nat.find (exists_zeroBits l)

/-- Section 5.1.2: the padded message. -/
def pad (M : List Bool) : List Bool :=
  M ++ [true] ++ List.replicate (zeroBits M.length) false ++ bits 128 M.length

/-- Section 5.2.2: word `j` of block `i` of a padded message. -/
def word (P : List Bool) (i j : ℕ) : U64 := BitVec.ofNat 64 (toNat ((P.drop (1024 * i + 64 * j)).take 64))

/-! ## The hash -/

/-- Section 6.4.2: the hash value after `i` blocks of the padded message `P`. -/
def H (P : List Bool) : ℕ → State
  | 0 => initialState
  | i + 1 => compress (H P i) (word P i)

/-- SHA-512 of a bit string, as a bit string. -/
def sha512 (M : List Bool) : List Bool :=
  let P := pad M
  (H P (P.length / 1024)).toList.flatMap fun w => bits 64 w.toNat

end Sha512Circuit.Fips
