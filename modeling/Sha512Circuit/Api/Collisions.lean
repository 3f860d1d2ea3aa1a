/-
What equal digests mean: the padded blocks of one message never end those of another, so the chains
of two statements meet only if the statements are equal or the compression function collides on the
way, at the same distance from the two ends.
-/
import Sha512Circuit.Api.Digests
import Sha512Circuit.Lib.MerkleDamgard

namespace Sha512Circuit

open MerkleDamgard (Collision)

/-- One step of the block loop. -/
def chainStep (state : State) (block : Block) : State := (compressBlock state block).outputState

theorem chainState_eq_foldl (s : State) (blocks : List Block) : chainState s blocks = blocks.foldl chainStep s := rfl

theorem stateToDigest_injective {s s' : State} (h : stateToDigest s = stateToDigest s') : s = s' := by
  have hs := readState_stateBytes s []
  have hs' := readState_stateBytes s' []
  rw [show stateBytes s = stateBytes s' from h, hs'] at hs
  exact hs.symm

theorem digestOfState_injective {s s' : State} (h : digestOfState s = digestOfState s') : s = s' :=
  stateToDigest_injective (congrArg Vector.toList h)

/-- Two statements chain to one state exactly if they are one statement or the chains collide. -/
theorem chainState_eq_iff_collision {s s' : State} {m m' : List U8} (hm : m.length < 2 ^ 64) (hm' : m'.length < 2 ^ 64) :
    chainState s (paddedBlocks m) = chainState s' (paddedBlocks m') ↔
      s = s' ∧ m = m' ∨ Collision chainStep s s' (paddedBlocks m) (paddedBlocks m') := by
  have hblocks : paddedBlocks m = paddedBlocks m' ↔ m = m' := ⟨paddedBlocks_injective, congrArg paddedBlocks⟩
  rw [chainState_eq_foldl, chainState_eq_foldl, MerkleDamgard.foldl_eq_iff_collision
    (fun h => hblocks.2 (paddedBlocks_suffix hm hm' h)) (fun h => (hblocks.2 (paddedBlocks_suffix hm' hm h).symm).symm),
    hblocks]

theorem hash_eq_iff_collision {m m' : List U8} (hm : m.length < 2 ^ 64) (hm' : m'.length < 2 ^ 64) :
    hash m = hash m' ↔
      m = m' ∨ Collision chainStep initialState initialState (paddedBlocks m) (paddedBlocks m') := by
  have hchain : chainState initialState (paddedBlocks m) = chainState initialState (paddedBlocks m') ↔ _ :=
    chainState_eq_iff_collision hm hm'
  rw [eq_self_iff_true, true_and] at hchain
  rw [hash_eq_chainState, hash_eq_chainState, ← hchain]
  exact ⟨stateToDigest_injective, congrArg stateToDigest⟩

/-- The digest of an accepted proof, for any initial state. -/
theorem digest_of_accepted {B : Stark} {inst : Sha512MessageInstance} {settings : Sha512ProofSettings}
    {p : Sha512MultiBlockProof B} (h : verifyMessageProofWithSettings B inst p settings = true) :
    p.digest = digestOfState (chainState inst.initialState (paddedBlocks inst.message)) := by
  obtain ⟨-, hfinal, hdigest, -⟩ := verifyMessageProofWithSettings_iff.1 h
  rw [hdigest, hfinal, bundle_finalState]

/-- Equal digests are equal statements or a collision of the compression function on the way: for
`hash`, and for the statements of any two accepted message proofs, whatever the backend, the settings
and the initial states. -/
theorem digest_eq_iff_collision (B : Stark) :
    (∀ m m' : List U8, m.length < 2 ^ 64 → m'.length < 2 ^ 64 →
      (hash m = hash m' ↔
        m = m' ∨ Collision chainStep initialState initialState (paddedBlocks m) (paddedBlocks m'))) ∧
    ∀ (inst inst' : Sha512MessageInstance) (p p' : Sha512MultiBlockProof B) (settings settings' : Sha512ProofSettings),
      inst.message.length < 2 ^ 64 → inst'.message.length < 2 ^ 64 →
      verifyMessageProofWithSettings B inst p settings = true →
      verifyMessageProofWithSettings B inst' p' settings' = true →
        (p.digest = p'.digest ↔
          inst = inst' ∨ Collision chainStep inst.initialState inst'.initialState (paddedBlocks inst.message)
            (paddedBlocks inst'.message)) := by
  refine ⟨fun m m' => hash_eq_iff_collision, fun inst inst' p p' settings settings' hm hm' h h' => ?_⟩
  have hinst : inst = inst' ↔ inst.initialState = inst'.initialState ∧ inst.message = inst'.message := by
    cases inst
    cases inst'
    rw [Sha512MessageInstance.mk.injEq]
  rw [digest_of_accepted h, digest_of_accepted h', hinst, ← chainState_eq_iff_collision hm hm']
  exact ⟨digestOfState_injective, congrArg digestOfState⟩

/-- Accepted proofs about the empty message and about `abc`. -/
theorem digest_eq_iff_collision_checking :
    (hash [] = hash [0x61, 0x62, 0x63] ↔ ([] : List U8) = [0x61, 0x62, 0x63] ∨
      Collision chainStep initialState initialState (paddedBlocks []) (paddedBlocks [0x61, 0x62, 0x63])) ∧
    ∃ p p' : Sha512MultiBlockProof .checking,
      verifyMessageProofWithSettings .checking ⟨initialState, []⟩ p .default = true ∧
      verifyMessageProofWithSettings .checking ⟨initialState, [0x61, 0x62, 0x63]⟩ p' .default = true ∧
      (p.digest = p'.digest ↔
        (⟨initialState, []⟩ : Sha512MessageInstance) = ⟨initialState, [0x61, 0x62, 0x63]⟩ ∨
          Collision chainStep initialState initialState (paddedBlocks []) (paddedBlocks [0x61, 0x62, 0x63])) := by
  obtain ⟨hhash, haccepted⟩ := digest_eq_iff_collision .checking
  obtain ⟨p, hp⟩ := proveMessage_checking ⟨initialState, []⟩ (by decide)
  obtain ⟨p', hp'⟩ := proveMessage_checking ⟨initialState, [0x61, 0x62, 0x63]⟩ (by decide)
  have hv := verifyMessage_of_prove Stark.checking_complete hp
  have hv' := verifyMessage_of_prove Stark.checking_complete hp'
  exact ⟨hhash _ _ (by decide) (by decide), p, p', hv, hv',
    haccepted _ _ p p' .default .default (by decide) (by decide) hv hv'⟩

end Sha512Circuit
