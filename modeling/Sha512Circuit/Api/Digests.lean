/-
Every digest the API reports or accepts is the hash of the message, whatever the backend answers.
-/
import Sha512Circuit.Api.Completeness

namespace Sha512Circuit

theorem hash_eq_chainState (message : List U8) :
    hash message = stateToDigest (chainState initialState (paddedBlocks message)) := rfl

/-- Byte `k` of a digest is byte `k % 8`, the most significant one first, of word `k / 8` of the state. -/
theorem digestOfState_getElem (s : State) {k : ℕ} (hk : k < 64) :
    ((digestOfState s)[k]).toNat = (s[k / 8]).toNat / 256 ^ (7 - k % 8) % 256 := by
  have hword : (stateToDigest s)[k]? = some (BitVec.ofNat 8 ((s[k / 8]).toNat / 256 ^ (7 - k % 8))) := by
    have h := Bytes.getElem?_flatMap_const (f := u64ToBeBytes) (L := s.toList) (n := 8)
      (fun w _ => Bytes.toBe_length 8 w.toNat) (k := k / 8) (i := k % 8) (by simp; omega) (by omega)
    rw [Nat.div_add_mod', Vector.getElem_toList, u64ToBeBytes, Bytes.getElem?_toBe _ (by omega)] at h
    exact h
  rw [← digestOfState_toList, Vector.getElem?_toList, Vector.getElem?_eq_getElem hk] at hword
  rw [Option.some.inj hword, BitVec.toNat_ofNat]

section Accepted

variable {B : Stark} {usizeBits : ℕ} {message : List U8} {settings : Sha512ProofSettings}

/-- The prover chains the blocks as `hash` does. -/
theorem digest_of_prove {p : Sha512MultiBlockProof B}
    (h : proveMessageWithSettings B ⟨initialState, message⟩ settings = .ok p) : p.digest.toList = hash message := by
  obtain ⟨-, -, -, hfinal, hdigest, -⟩ := proveMessageWithSettings_iff.1 h
  rw [hdigest, digestOfState_toList, hfinal, bundle_finalState, hash_eq_chainState]

/-- The verifier chains them again and compares. -/
theorem digest_of_verify {p : Sha512MultiBlockProof B}
    (h : verifyMessageProofWithSettings B ⟨initialState, message⟩ p settings = true) :
    p.digest.toList = hash message ∧ p.finalState = chainState initialState (paddedBlocks message) ∧
      stateToDigest p.finalState = p.digest.toList ∧
      ∀ (k : ℕ) (hk : k < 64), (p.digest[k]).toNat = (p.finalState[k / 8]).toNat / 256 ^ (7 - k % 8) % 256 := by
  obtain ⟨-, hfinal, hdigest, -⟩ := verifyMessageProofWithSettings_iff.1 h
  rw [hdigest, digestOfState_toList, hfinal, bundle_finalState, hash_eq_chainState]
  exact ⟨rfl, rfl, rfl, fun k hk => digestOfState_getElem _ hk⟩

/-- An accepted bundle unseals to a seed with its digest. -/
theorem digest_of_verifySeed32 {bundle : Sha512Seed32PrivateProof}
    (h : verifySeed32PrivateProofWithSettings B usizeBits bundle settings = true) :
    ∃ seed : Vector U8 32, deserializeMessageInstance usizeBits bundle.sealedInstance = .ok ⟨initialState, seed.toList⟩ ∧
      bundle.digest.toList = hash seed.toList := by
  obtain ⟨-, -, seed, p, hinst, -, hdigest, hp⟩ := verifySeed32PrivateProofWithSettings_iff.1 h
  exact ⟨seed, hinst, hdigest ▸ (digest_of_verify hp).1⟩

end Accepted

/-- Over an arbitrary backend, the digest of a proof, of an accepted proof and of an accepted sealed
bundle is the hash of the message it is about; and the final state of an accepted proof is the chained
state, of whose word `k / 8` byte `k` of the digest is byte `k % 8`, the most significant one first. -/
theorem digest_eq_hash (B : Stark) (usizeBits : ℕ) :
    (∀ (message : List U8) (settings : Sha512ProofSettings) (p : Sha512MultiBlockProof B),
      proveMessageWithSettings B ⟨initialState, message⟩ settings = .ok p → p.digest.toList = hash message) ∧
    (∀ (message : List U8) (settings : Sha512ProofSettings) (p : Sha512MultiBlockProof B),
      verifyMessageProof B ⟨initialState, message⟩ p = true ∨
        verifyMessageProofWithSettings B ⟨initialState, message⟩ p settings = true →
      p.digest.toList = hash message ∧ p.finalState = chainState initialState (paddedBlocks message) ∧
        stateToDigest p.finalState = p.digest.toList ∧
        ∀ (k : ℕ) (hk : k < 64), (p.digest[k]).toNat = (p.finalState[k / 8]).toNat / 256 ^ (7 - k % 8) % 256) ∧
    ∀ (settings : Sha512ProofSettings) (bundle : Sha512Seed32PrivateProof),
      verifySeed32PrivateProof B usizeBits bundle = true ∨
        verifySeed32PrivateProofWithSettings B usizeBits bundle settings = true →
      ∃ seed : Vector U8 32,
        deserializeMessageInstance usizeBits bundle.sealedInstance = .ok ⟨initialState, seed.toList⟩ ∧
        bundle.digest.toList = hash seed.toList := by
  refine ⟨fun message settings p h => digest_of_prove h, fun message settings p h => ?_, fun settings bundle h => ?_⟩
  · rcases h with h | h
    · exact digest_of_verify (verifyMessageProof_iff.1 h).2
    · exact digest_of_verify h
  · rcases h with h | h
    · exact digest_of_verifySeed32 (verifySeed32PrivateProof_iff.1 h).2
    · exact digest_of_verifySeed32 h

/-- The message `abc` and the zero seed, proved and accepted. -/
theorem digest_eq_hash_checking :
    (∃ p, proveMessageWithSettings .checking ⟨initialState, [0x61, 0x62, 0x63]⟩ .default = .ok p ∧
      verifyMessageProofWithSettings .checking ⟨initialState, [0x61, 0x62, 0x63]⟩ p .default = true ∧
      p.digest.toList = hash [0x61, 0x62, 0x63] ∧
      p.finalState = chainState initialState (paddedBlocks [0x61, 0x62, 0x63]) ∧
      ∀ (k : ℕ) (hk : k < 64), (p.digest[k]).toNat = (p.finalState[k / 8]).toNat / 256 ^ (7 - k % 8) % 256) ∧
    ∃ bundle, verifySeed32PrivateProofWithSettings .checking 64 bundle .default = true ∧
      ∃ seed : Vector U8 32,
        deserializeMessageInstance 64 bundle.sealedInstance = .ok ⟨initialState, seed.toList⟩ ∧
        bundle.digest.toList = hash seed.toList := by
  obtain ⟨hprove, hverify, hseed⟩ := digest_eq_hash .checking 64
  obtain ⟨p, hp⟩ := proveMessage_checking ⟨initialState, [0x61, 0x62, 0x63]⟩ (by decide)
  obtain ⟨bundle, hb⟩ := proveSeed32_checking (Vector.replicate 32 0)
  have hpv := verifyMessage_of_prove Stark.checking_complete hp
  have hbv := verifySeed32_of_prove Stark.checking_complete Wire.Codec.byte_decodes Wire.Codec.byte_decodes hb
  obtain ⟨hdigest, hstate, -, hbytes⟩ := hverify _ .default p (.inr hpv)
  exact ⟨⟨p, hp, hpv, hdigest, hstate, hbytes⟩, bundle, hbv, hseed .default bundle (.inr hbv)⟩

end Sha512Circuit
