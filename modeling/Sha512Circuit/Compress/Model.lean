/-
`sha512.rs` and `trace.rs`: the reference hash, the recorded block compression and the word-level
validator of a recorded trace.
-/
import Sha512Circuit.Ops
import Sha512Circuit.Lib.Bytes

namespace Sha512Circuit

/-- `[u64; 8]`: a chaining or working state. -/
abbrev State := Vector U64 8

namespace State

variable (s : State)

/-! The words of a state under the names of the working variables. -/

abbrev a : U64 := s[0]
abbrev b : U64 := s[1]
abbrev c : U64 := s[2]
abbrev d : U64 := s[3]
abbrev e : U64 := s[4]
abbrev f : U64 := s[5]
abbrev g : U64 := s[6]
abbrev h : U64 := s[7]

end State

/-- `[u8; 128]`: a message block. -/
abbrev Block := Vector U8 128

/-- `BlockTrace`: the execution witness of one block compression. -/
@[ext] structure BlockTrace where
  inputState : State
  words : Vector U64 80
  roundStates : Vector State 81
  outputState : State
deriving DecidableEq

/-- `round_states[80]`: the working state after all rounds. -/
abbrev BlockTrace.lastRoundState (t : BlockTrace) : State := t.roundStates[80]

/-! ## Block compression -/

/-- `u64::from_be_bytes`. -/
def u64FromBeBytes (chunk : List U8) : U64 := BitVec.ofNat 64 (Bytes.ofBe chunk)

/-- `u64::to_be_bytes`. -/
def u64ToBeBytes (word : U64) : List U8 := Bytes.toBe 8 word.toNat

/-- The first loop of `compress_block`: sixteen big-endian words, the rest zero. -/
def parseWords (block : Block) : Vector U64 80 :=
  (Bytes.chunksExact 8 block.toList).zipIdx.foldl
    (fun words c => words.set! c.2 (u64FromBeBytes c.1)) (Vector.replicate 80 0)

/-- The right-hand side of the schedule recurrence at `i`. -/
def scheduleWord (words : Vector U64 80) (i : ℕ) : U64 :=
  smallSigma1 words[i - 2]! + words[i - 7]! + smallSigma0 words[i - 15]! + words[i - 16]!

/-- The second loop of `compress_block`: `words[16..80]` in place. -/
def expandWords (words : Vector U64 80) : Vector U64 80 :=
  (List.range' 16 64).foldl (fun words i => words.set! i (scheduleWord words i)) words

/-- The working variables of `compress_block`. -/
structure Registers where
  (a b c d e f g h : U64)
deriving DecidableEq

/-- The body of the round loop: the eight assignments in source order, then the snapshot. -/
def compressRound (words : Vector U64 80) (st : Registers × Vector State 81) (i : ℕ) :
    Registers × Vector State 81 :=
  let ⟨⟨a, b, c, d, e, f, g, h⟩, roundStates⟩ := st
  let t1 := h + bigSigma1 e + ch e f g + K[i]! + words[i]!
  let t2 := bigSigma0 a + maj a b c
  let h := g
  let g := f
  let f := e
  let e := d + t1
  let d := c
  let c := b
  let b := a
  let a := t1 + t2
  (⟨a, b, c, d, e, f, g, h⟩, roundStates.set! (i + 1) #v[a, b, c, d, e, f, g, h])

/-- `Sha512Circuit::compress_block`. -/
def compressBlock (state : State) (block : Block) : BlockTrace :=
  let words := expandWords (parseWords block)
  let roundStates := (Vector.replicate 81 (Vector.replicate 8 0)).set! 0 state
  let r : Registers :=
    ⟨state[0], state[1], state[2], state[3], state[4], state[5], state[6], state[7]⟩
  let (r, roundStates) := (List.range 80).foldl (compressRound words) (r, roundStates)
  { inputState := state
    words
    roundStates
    outputState :=
      #v[state[0] + r.a, state[1] + r.b, state[2] + r.c, state[3] + r.d,
        state[4] + r.e, state[5] + r.f, state[6] + r.g, state[7] + r.h] }

/-! ## Padding and hashing -/

/-- The `while` loop of `pad_message`. -/
def padLoop (out : List U8) : List U8 :=
  if (out.length + 16) % 128 ≠ 0 then padLoop (out ++ [0]) else out
termination_by (128 - (out.length + 16) % 128) % 128
decreasing_by simp only [List.length_append, List.length_singleton]; omega

/-- `pad_message`. The bit length is a `u128`. -/
def padMessage (message : List U8) : List U8 :=
  let bitLen : BitVec 128 := BitVec.ofNat 128 message.length * 8
  padLoop (message ++ [0x80]) ++ Bytes.toBe 16 bitLen.toNat

/-- `usize::div_ceil`. -/
def divCeil (a b : ℕ) : ℕ := if a % b > 0 then a / b + 1 else a / b

/-- The capacity `pad_message` reserves for a message of `len` bytes. -/
def padCapacity (len : ℕ) : ℕ := divCeil (len + 17) 128 * 128

/-- `try_into` of a chunk of 128 bytes. -/
def toBlock (chunk : List U8) : Block := Vector.ofFn fun j => chunk.getD j 0

/-- `Sha512Circuit::padded_blocks`. -/
def paddedBlocks (message : List U8) : List Block :=
  (Bytes.chunksExact 128 (padMessage message)).map toBlock

/-- `Sha512Circuit::state_to_digest`. -/
def stateToDigest (state : State) : List U8 := state.toList.flatMap u64ToBeBytes

/-- `Sha512Circuit::hash`. -/
def hash (message : List U8) : List U8 :=
  stateToDigest ((paddedBlocks message).foldl (fun state block => (compressBlock state block).outputState)
    initialState)

/-! ## The word-level validator -/

/-- The expected successor of `s` in round `i` of `verify_block_trace`. -/
def expectedNext (words : Vector U64 80) (s : State) (i : ℕ) : State :=
  let (a, b, c, d, e, f, g, h) := (s[0], s[1], s[2], s[3], s[4], s[5], s[6], s[7])
  let t1 := h + bigSigma1 e + ch e f g + K[i]! + words[i]!
  let t2 := bigSigma0 a + maj a b c
  #v[t1 + t2, a, b, c, d + t1, e, f, g]

/-- The feed-forward addition, word by word. -/
def feedForward (state last : State) : State :=
  #v[state[0] + last[0], state[1] + last[1], state[2] + last[2], state[3] + last[3],
    state[4] + last[4], state[5] + last[5], state[6] + last[6], state[7] + last[7]]

/-- `Sha512Circuit::verify_block_trace`. -/
def verifyBlockTrace (trace : BlockTrace) : Bool :=
  (List.range' 16 64).all (fun i => trace.words[i]! == scheduleWord trace.words i) &&
  trace.roundStates[0] == trace.inputState &&
  (List.range 80).all (fun i => trace.roundStates[i + 1]! == expectedNext trace.words trace.roundStates[i]! i) &&
  trace.outputState == feedForward trace.inputState trace.roundStates[80]

end Sha512Circuit
