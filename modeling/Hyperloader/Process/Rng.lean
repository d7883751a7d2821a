/-
Module: Hyperloader.Process.Rng
Purpose: The stateless streams of engine/src/rng and the per-sample context a
  worker installs before it runs user code.
Trusted boundary: none
Main exports:
  splitmix64, key64, philox4x32_10, RngStream, sampleRngContext,
  collateRngContext, key64_eq_iff
-/
import Mathlib.Data.BitVec

namespace Hyperloader.Process

/-- The SplitMix64 finalizer without a gamma increment. -/
def splitmix64 (value : UInt64) : UInt64 :=
  let value := value ^^^ (value >>> 30)
  let value := value * 0xBF58476D1CE4E5B9
  let value := value ^^^ (value >>> 27)
  let value := value * 0x94D049BB133111EB
  value ^^^ (value >>> 31)

/-- The epoch tag; the shift wraps, so only the low word of the epoch counts. -/
def epochTag (epoch : UInt64) : UInt64 := (epoch <<< 32) ||| 0x9E37

/-- The epoch-specific key of a root seed. -/
def key64 (rootSeed epoch : UInt64) : UInt64 :=
  splitmix64 rootSeed ^^^ splitmix64 (epochTag epoch)

/-- Four counter words. -/
structure Counter where
  word0 : UInt32
  word1 : UInt32
  word2 : UInt32
  word3 : UInt32

def PHILOX_M0 : UInt32 := 0xD2511F53

def PHILOX_M1 : UInt32 := 0xCD9E8D57

def PHILOX_W0 : UInt32 := 0x9E3779B9

def PHILOX_W1 : UInt32 := 0xBB67AE85

/-- Low and high words of a product. -/
def multiplyWords (left right : UInt32) : UInt32 × UInt32 :=
  let product := left.toUInt64 * right.toUInt64
  (product.toUInt32, (product >>> 32).toUInt32)

/-- One round, before the key is bumped. -/
def philoxRound (counter : Counter) (key : UInt32 × UInt32) : Counter :=
  let low := multiplyWords PHILOX_M0 counter.word0
  let high := multiplyWords PHILOX_M1 counter.word2
  { word0 := high.2 ^^^ counter.word1 ^^^ key.1
    word1 := high.1
    word2 := low.2 ^^^ counter.word3 ^^^ key.2
    word3 := low.1 }

/-- The rounds left to run. -/
def philoxRounds : Nat → Counter → UInt32 × UInt32 → Counter
  | 0, counter, _ => counter
  | rounds + 1, counter, key =>
      philoxRounds rounds (philoxRound counter key)
        (key.1 + PHILOX_W0, key.2 + PHILOX_W1)

/-- Philox4x32-10; the key bump after the last round is never read. -/
def philox4x32_10 (counter : Counter) (key : UInt32 × UInt32) : Counter :=
  philoxRounds 10 counter key

/-- One stream-separated block from a resolved epoch key. -/
def blockFromKey (key coord : UInt64) (drawIndex streamId : UInt32) : Counter :=
  philox4x32_10 ⟨coord.toUInt32, drawIndex, streamId, (coord >>> 32).toUInt32⟩
    (key.toUInt32, (key >>> 32).toUInt32)

def block (rootSeed epoch coord : UInt64) (drawIndex streamId : UInt32) : Counter :=
  blockFromKey (key64 rootSeed epoch) coord drawIndex streamId

def SAMPLE_STREAM : UInt32 := 0

def COLLATE_STREAM : UInt32 := 1

/-- The installed sample: torch seed, epoch key and coordinate. -/
structure RngStream where
  torchSeed : UInt64
  key : UInt64
  coordinate : UInt64

/-- The first two words of a block as one seed. -/
def seedOfBlock (words : Counter) : UInt64 :=
  words.word0.toUInt64 ||| (words.word1.toUInt64 <<< 32)

/-- A Python integer passed as a `u64`; `none` is the `OverflowError` of the
binding. -/
def asU64 (value : Nat) : Option UInt64 :=
  if value < 2 ^ 64 then some (UInt64.ofNat value) else none

/-- `_sample_rng_context` -/
def sampleRngContext (rootSeed epoch coord : Nat) : Option RngStream := do
  let rootSeed ← asU64 rootSeed
  let epoch ← asU64 epoch
  let coord ← asU64 coord
  let key := key64 rootSeed epoch
  some
    { torchSeed := seedOfBlock (blockFromKey key coord 0 SAMPLE_STREAM)
      key := key
      coordinate := coord }

/-- The batch-level context of `install_collate`: the seed of the collation
stream with the key and coordinate of the ordinal. -/
def collateRngContext (rootSeed epoch ordinal : Nat) : Option RngStream := do
  let sample ← sampleRngContext rootSeed epoch ordinal
  some
    { sample with
      torchSeed := seedOfBlock (blockFromKey sample.key sample.coordinate 0
        COLLATE_STREAM) }

/-! ### Which epochs share a key -/

theorem xorShift_injective {shift : Nat} (positive : 0 < shift) (small : shift < 64)
    {one two : BitVec 64}
    (same : one ^^^ (one >>> shift) = two ^^^ (two >>> shift)) : one = two := by
  apply BitVec.eq_of_getLsbD_eq
  -- from the top bit down: each bit is fixed by the one `shift` above it
  have bits : ∀ distance index, 64 ≤ index + distance →
      one.getLsbD index = two.getLsbD index := by
    intro distance
    induction distance using Nat.strongRecOn with
    | _ distance ih =>
        intro index reach
        by_cases beyond : 64 ≤ index
        · rw [BitVec.getLsbD_of_ge _ _ beyond, BitVec.getLsbD_of_ge _ _ beyond]
        · have above := ih (distance - shift) (by omega)
            (shift + index) (by omega)
          have here := congrArg (fun word => word.getLsbD index) same
          simp only [BitVec.getLsbD_xor, BitVec.getLsbD_ushiftRight, above] at here
          exact Bool.xor_left_inj.mp here
  intro index _
  exact bits 64 index (by omega)

theorem mul_injective (factor inverse : UInt64) (unit : factor * inverse = 1)
    {one two : UInt64} (same : one * factor = two * factor) : one = two := by
  calc one = one * factor * inverse := by rw [UInt64.mul_assoc, unit, UInt64.mul_one]
    _ = two * factor * inverse := by rw [same]
    _ = two := by rw [UInt64.mul_assoc, unit, UInt64.mul_one]

private theorem xorShiftWord_injective {shift : UInt64} (positive : 0 < shift.toNat)
    (small : shift.toNat < 64) {one two : UInt64}
    (same : one ^^^ (one >>> shift) = two ^^^ (two >>> shift)) : one = two := by
  apply UInt64.toBitVec_inj.mp
  have reduced : shift.toNat % 64 = shift.toNat := Nat.mod_eq_of_lt small
  have bits := congrArg UInt64.toBitVec same
  simp only [UInt64.toBitVec_xor, UInt64.toBitVec_shiftRight] at bits
  apply xorShift_injective positive small
  simpa [BitVec.ushiftRight_eq', BitVec.toNat_umod, reduced] using bits

/-- The finalizer loses nothing: each of its five steps is invertible. -/
theorem splitmix64_injective {one two : UInt64}
    (same : splitmix64 one = splitmix64 two) : one = two := by
  unfold splitmix64 at same
  have first := xorShiftWord_injective (by decide) (by decide) same
  have second := mul_injective 0x94D049BB133111EB 0x319642B2D24D8EC3 (by decide) first
  have third := xorShiftWord_injective (by decide) (by decide) second
  have fourth := mul_injective 0xBF58476D1CE4E5B9 0x96DE1B173F119089 (by decide) third
  exact xorShiftWord_injective (by decide) (by decide) fourth

theorem epochTag_toNat (epoch : UInt64) :
    (epochTag epoch).toNat = epoch.toNat % 2 ^ 32 * 2 ^ 32 + 0x9E37 := by
  have shifted : (epoch <<< 32).toNat = (epoch.toNat % 2 ^ 32) <<< 32 := by
    rw [UInt64.toNat_shiftLeft]
    simp only [Nat.shiftLeft_eq]
    exact Nat.mul_mod_mul_right (2 ^ 32) epoch.toNat (2 ^ 32)
  have low : (0x9E37 : UInt64).toNat < 2 ^ 32 := by decide
  rw [epochTag, UInt64.toNat_or, shifted, ← Nat.shiftLeft_add_eq_or_of_lt low,
    Nat.shiftLeft_eq]
  rfl

theorem epochTag_eq_iff (one two : UInt64) :
    epochTag one = epochTag two ↔ one.toNat % 2 ^ 32 = two.toNat % 2 ^ 32 := by
  rw [← UInt64.toNat_inj, epochTag_toNat, epochTag_toNat]
  omega

/-- Two epochs have one key exactly when they agree modulo `2 ^ 32`. -/
theorem key64_eq_iff (rootSeed one two : UInt64) :
    key64 rootSeed one = key64 rootSeed two ↔
      one.toNat % 2 ^ 32 = two.toNat % 2 ^ 32 := by
  rw [← epochTag_eq_iff]
  unfold key64
  constructor
  · intro same
    apply splitmix64_injective
    apply UInt64.toBitVec_inj.mp
    have bits := congrArg UInt64.toBitVec same
    simp only [UInt64.toBitVec_xor] at bits
    exact (BitVec.xor_right_inj _).mp bits
  · intro same
    rw [same]

end Hyperloader.Process
