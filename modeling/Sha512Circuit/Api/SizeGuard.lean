/-
The size guard of the message API against the two-adicity of the field: which admitted messages have
a trace whose low-degree extension fits a domain of BabyBear.
-/
import Sha512Circuit.Api.Model
import Sha512Circuit.Air.MessageSpec
import Mathlib.RingTheory.RootsOfUnity.PrimitiveRoots
import Mathlib.RingTheory.IntegralDomain
import Mathlib.FieldTheory.Finite.Basic

namespace Sha512Circuit

/-! ## Domains of the field -/

/-- A prime field has a root of unity of order `n` exactly if `n` divides the order of its
multiplicative group. -/
theorem exists_isPrimitiveRoot_iff {p n : ℕ} [Fact p.Prime] (hn : n ≠ 0) :
    (∃ ω : ZMod p, IsPrimitiveRoot ω n) ↔ n ∣ p - 1 := by
  constructor
  · rintro ⟨ω, hω⟩
    exact hω.dvd_of_pow_eq_one _ (ZMod.pow_card_sub_one_eq_one (hω.ne_zero hn))
  · rintro ⟨m, hm⟩
    obtain ⟨g, hg⟩ := IsCyclic.exists_generator (α := (ZMod p)ˣ)
    have horder : orderOf g = p - 1 := by
      rw [orderOf_eq_card_of_forall_mem_zpowers hg, Nat.card_eq_fintype_card, ZMod.card_units]
    have hroot : IsPrimitiveRoot (g : ZMod p) (p - 1) := by
      rw [IsPrimitiveRoot.coe_units_iff, ← horder]
      exact IsPrimitiveRoot.orderOf g
    have hpos : 0 < p - 1 := Nat.sub_pos_of_lt (Fact.out : p.Prime).one_lt
    exact ⟨_, hroot.pow hpos (by rw [hm, Nat.mul_comm])⟩

/-- `BabyBear::TWO_ADICITY`. -/
def twoAdicity : ℕ := 27

/-- `p - 1 = 15 * 2^27`: the field has a domain of size `2^k` exactly up to the two-adicity. -/
theorem exists_domain_iff (k : ℕ) : (∃ ω : BabyBear, IsPrimitiveRoot ω (2 ^ k)) ↔ k ≤ twoAdicity := by
  have hp : babyBearPrime - 1 = 2 ^ twoAdicity * 15 := rfl
  rw [exists_isPrimitiveRoot_iff (pow_ne_zero k two_ne_zero), hp,
    Nat.Coprime.dvd_mul_right (Nat.Coprime.pow_left k (by decide)), Nat.pow_dvd_pow_iff_le_right Nat.one_lt_two]

/-! ## Sizes -/

/-- The logarithm of the size of the low-degree extension's domain. -/
def extensionBits (settings : Sha512ProofSettings) (bundle : MessageAirBundle) : ℕ :=
  bundle.degreeBits + settings.logBlowup.toNat

/-- Under the default settings the extension has `2^10` rows for each segment. -/
theorem extensionBits_default (s : State) (message : List U8) :
    extensionBits .default (buildMessageAirBundle s message) = Nat.clog 2 (paddedBlocks message).length + 10 := by
  rw [extensionBits, bundle_degreeBits, trailingZeros_totalRows]
  rfl

/-- The extension fits the field exactly if the padded message has at most `2^17` blocks, which is
the size limit less the seventeen bytes of padding. -/
theorem extensionBits_default_le_iff (s : State) (message : List U8) :
    extensionBits .default (buildMessageAirBundle s message) ≤ twoAdicity ↔
      message.length + 17 ≤ maxMessageInstanceBytes := by
  have hlog : Nat.clog 2 (paddedBlocks message).length ≤ 17 ↔ (paddedBlocks message).length ≤ 2 ^ 17 :=
    Nat.clog_le_iff_le_pow (by decide)
  have hmax : maxMessageInstanceBytes = 2 ^ 17 * 128 := rfl
  have hadic : twoAdicity = 17 + 10 := rfl
  rw [extensionBits_default, hadic, Nat.add_le_add_iff_right, hlog, paddedBlocks_length, hmax]
  omega

/-! ## The guard -/

/-- The size guard promises a domain for the low-degree extension exactly for the messages that are
within the limit with their padding; it admits seventeen lengths above. -/
theorem validateMessageSize_domain_iff (s : State) (message : List U8) :
    (validateSettingsForProving .default = .ok () → validateMessageSize message.length = .ok () →
      extensionBits .default (buildMessageAirBundle s message) ≤ twoAdicity ∧
      ∃ ω : BabyBear, IsPrimitiveRoot ω (2 ^ extensionBits .default (buildMessageAirBundle s message))) ↔
    message.length + 17 ≤ maxMessageInstanceBytes ∨ maxMessageInstanceBytes < message.length := by
  rw [validateSettingsForProving_ok, validateMessageSize_ok, exists_domain_iff, and_self,
    extensionBits_default_le_iff]
  have := meetsMinimumVerifierPolicy_default
  constructor
  · intro h
    rcases Nat.lt_or_ge maxMessageInstanceBytes message.length with hlt | hle
    · exact .inr hlt
    · exact .inl (h this hle)
  · rintro (h | h) - hle
    · exact h
    · omega

/-- Sixteen mebibytes of zeros are admitted, and no root of unity has the order of their domain. -/
theorem validateMessageSize_admits_limit :
    validateSettingsForProving .default = .ok () ∧
    validateMessageSize (List.replicate maxMessageInstanceBytes (0 : U8)).length = .ok () ∧
    twoAdicity < extensionBits .default
      (buildMessageAirBundle initialState (List.replicate maxMessageInstanceBytes 0)) ∧
    ¬ ∃ ω : BabyBear, IsPrimitiveRoot ω (2 ^ extensionBits .default
      (buildMessageAirBundle initialState (List.replicate maxMessageInstanceBytes 0))) := by
  refine ⟨validateSettingsForProving_ok.2 meetsMinimumVerifierPolicy_default, ?_, ?_⟩
  · exact validateMessageSize_ok.2 (by rw [List.length_replicate])
  · rw [exists_domain_iff, not_le, and_self, ← not_le, extensionBits_default_le_iff, List.length_replicate]
    omega

end Sha512Circuit
