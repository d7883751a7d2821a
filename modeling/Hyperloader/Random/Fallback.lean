/-
Module: Hyperloader.Random.Fallback
Purpose: The streams and permutations of fallback/rng.py on unbounded integers
  with masks, beside the binding of the native ones.
Trusted boundary: none
Main exports:
  Fallback.key64, Fallback.rngBlock, Fallback.feistelPermute,
  Fallback.materializedPermutation, Fallback.permutationIndex, streams_agree
-/
import Hyperloader.Random.Permutation
import Hyperloader.Random.Philox

namespace Hyperloader.Random

open Foundations Process

/-- What a caller in Python sees instead of a value.  The binding of the native
module refuses an integer outside its type, and a panic passes through it. -/
inductive Refusal where
  | valueError (text : String)
  | overflowError
  | panicked
deriving DecidableEq

namespace Fallback

def MASK32 : Nat := (1 <<< 32) - 1

def MASK64 : Nat := (1 <<< 64) - 1

def PHILOX_M0 : Nat := 0xD2511F53

def PHILOX_M1 : Nat := 0xCD9E8D57

def PHILOX_W0 : Nat := 0x9E3779B9

def PHILOX_W1 : Nat := 0xBB67AE85

def FEISTEL_THRESHOLD : Nat := 1 <<< 17

def splitmix64 (value : Nat) : Nat :=
  let value := value &&& MASK64
  let value := value ^^^ (value >>> 30)
  let value := (value * 0xBF58476D1CE4E5B9) &&& MASK64
  let value := value ^^^ (value >>> 27)
  let value := (value * 0x94D049BB133111EB) &&& MASK64
  value ^^^ (value >>> 31)

def key64 (rootSeed epoch : Nat) : Nat :=
  let epochTag := ((epoch <<< 32) ||| 0x9E37) &&& MASK64
  splitmix64 rootSeed ^^^ splitmix64 epochTag

structure Words where
  word0 : Nat
  word1 : Nat
  word2 : Nat
  word3 : Nat

/-- One pass of the loop, before the key is bumped. -/
def philoxRound (words : Words) (key : Nat × Nat) : Words :=
  let product0 := PHILOX_M0 * words.word0
  let product1 := PHILOX_M1 * words.word2
  { word0 := ((product1 >>> 32) ^^^ words.word1 ^^^ key.1) &&& MASK32
    word1 := product1 &&& MASK32
    word2 := ((product0 >>> 32) ^^^ words.word3 ^^^ key.2) &&& MASK32
    word3 := product0 &&& MASK32 }

def philoxRounds : Nat → Words → Nat × Nat → Words
  | 0, words, _ => words
  | rounds + 1, words, key =>
      philoxRounds rounds (philoxRound words key)
        ((key.1 + PHILOX_W0) &&& MASK32, (key.2 + PHILOX_W1) &&& MASK32)

/-- `philox4x32_10`; the key bump after the last round is never read. -/
def philox4x32_10 (counter : Words) (key : Nat × Nat) : Words :=
  philoxRounds 10
    ⟨counter.word0 &&& MASK32, counter.word1 &&& MASK32, counter.word2 &&& MASK32,
      counter.word3 &&& MASK32⟩
    (key.1 &&& MASK32, key.2 &&& MASK32)

def rngBlockFromKey (key coord drawIndex streamId : Nat) : Words :=
  philox4x32_10 ⟨coord &&& MASK32, drawIndex, streamId, (coord >>> 32) &&& MASK32⟩
    (key &&& MASK32, key >>> 32)

def rngBlock (rootSeed epoch coord drawIndex streamId : Nat) : Words :=
  rngBlockFromKey (key64 rootSeed epoch) coord drawIndex streamId

/-- `sample_rng_context`: the torch seed, the epoch key and the coordinate. -/
def sampleRngContext (rootSeed epoch coord : Nat) : Nat × Nat × Nat :=
  let key := key64 rootSeed epoch
  let words := rngBlockFromKey key coord 0 0
  (words.word0 ||| (words.word1 <<< 32), key, coord)

def permutationKey (rootSeed epoch : Nat) : Nat × Nat :=
  let folded := splitmix64 (key64 rootSeed epoch ^^^ 5)
  (folded &&& MASK32, folded >>> 32)

/-- The loop over `round_index`, for the rounds left to run. -/
def feistelLoop (key : Nat × Nat) (bits : Nat) : Nat → Nat → Nat → Nat × Nat → Nat × Nat
  | 0, _, _, halves => halves
  | rounds + 1, roundIndex, highWidth, (high, low) =>
      let mask := (1 <<< highWidth) - 1
      let function := (philox4x32_10 ⟨low, roundIndex, 3, 0⟩ key).word0 &&& mask
      feistelLoop key bits rounds (roundIndex + 1) (bits - highWidth)
        (low, (high + function) &&& mask)

/-- One pass of the walk. -/
def feistelPass (key : Nat × Nat) (bits candidate : Nat) : Nat :=
  let lowerWidth := bits / 2
  let halves := feistelLoop key bits 8 0 (bits - lowerWidth)
    (candidate >>> lowerWidth, candidate &&& ((1 <<< lowerWidth) - 1))
  (halves.1 <<< lowerWidth) ||| halves.2

def FEISTEL_REFUSED : String :=
  "the Feistel permutation requires a domain of at least 131072 and a position inside it"

def MATERIALIZED_REFUSED : String :=
  "the materialized permutation requires a domain smaller than 131072"

def POSITION_REFUSED : String := "the permutation position must be inside its domain"

/-- `feistel_permute`; `none` while the walk has not come back into the domain. -/
def feistelPermute (passes rootSeed epoch domain : Nat) (position : Int) :
    Option (Except Refusal Nat) :=
  if domain < FEISTEL_THRESHOLD ∨ ¬(0 ≤ position ∧ position < domain) then
    some (.error (.valueError FEISTEL_REFUSED))
  else
    let bits := (domain - 1).size
    let key := permutationKey rootSeed epoch
    (cycleWalk (feistelPass key bits) (fun candidate => decide (candidate < domain))
      passes position.toNat).map .ok

/-- The rejection loop: the selection and the words drawn so far. -/
def drawSelected (key : Nat × Nat) (upper limit : Nat) : Nat → Nat → Option (Nat × Nat)
  | 0, _ => none
  | passes + 1, drawOrdinal =>
      let word := (philox4x32_10 ⟨drawOrdinal, 8, 3, 0⟩ key).word0
      if word < limit then some (word % upper, drawOrdinal + 1)
      else drawSelected key upper limit passes (drawOrdinal + 1)

/-- The loop over `upper`. -/
def shuffleDown (key : Nat × Nat) (passes : Nat) :
    Nat → Array Nat → Nat → Option (Array Nat × Nat)
  | 0, permutation, drawOrdinal => some (permutation, drawOrdinal)
  | 1, permutation, drawOrdinal => some (permutation, drawOrdinal)
  | upper + 2, permutation, drawOrdinal =>
      let limit := (1 <<< 32) - ((1 <<< 32) % (upper + 2))
      match drawSelected key (upper + 2) limit passes drawOrdinal with
      | none => none
      | some (selected, drawOrdinal) =>
          shuffleDown key passes (upper + 1)
            (permutation.swapIfInBounds (upper + 1) selected) drawOrdinal

/-- The list of a small domain and the words drawn for it. -/
def materialize (passes rootSeed epoch domain : Nat) : Option (Array Nat × Nat) :=
  shuffleDown (permutationKey rootSeed epoch) passes domain (Array.range domain) 0

def materializedPermutation (passes rootSeed epoch domain : Nat) :
    Option (Except Refusal (Array Nat)) :=
  if ¬domain < FEISTEL_THRESHOLD then some (.error (.valueError MATERIALIZED_REFUSED))
  else (materialize passes rootSeed epoch domain).map fun drawn => .ok drawn.1

def permutationIndex (passes rootSeed epoch domain : Nat) (position : Int) :
    Option (Except Refusal Nat) :=
  if ¬(0 ≤ position ∧ position < domain) then some (.error (.valueError POSITION_REFUSED))
  else if domain < FEISTEL_THRESHOLD then
    (materializedPermutation passes rootSeed epoch domain).map
      (Except.map fun permutation => permutation[position.toNat]!)
  else feistelPermute passes rootSeed epoch domain position

end Fallback

/-! ### The binding of the native module -/

namespace Binding

/-- A Python integer read as an unsigned word of `bits` bits. -/
def readWord (bits : Nat) (value : Int) : Except Refusal Nat :=
  if 0 ≤ value ∧ value < 2 ^ bits then .ok value.toNat else .error .overflowError

/-- The `None` of the engine is a `ValueError` with the text given. -/
def raised (text : String) : PermutationFailure → Refusal
  | .outside => .valueError text
  | .drawOverflow => .panicked

def answered {Answer Shown : Type} (text : String) (view : Answer → Shown)
    (answer : Option (Except PermutationFailure Answer)) : Option (Except Refusal Shown) :=
  answer.map fun settled => (settled.mapError (raised text)).map view

def feistelPermute (passes : Nat) (rootSeed epoch domain : UInt64) (position : Int) :
    Option (Except Refusal Nat) :=
  match readWord 64 position with
  | .error refusal => some (.error refusal)
  | .ok position =>
      answered Fallback.FEISTEL_REFUSED UInt64.toNat
        (Random.feistelPermute passes rootSeed epoch domain (UInt64.ofNat position))

def materializedPermutation (passes : Nat) (rootSeed epoch : UInt64) (domain : Int) :
    Option (Except Refusal (Array Nat)) :=
  match readWord 32 domain with
  | .error refusal => some (.error refusal)
  | .ok domain =>
      answered Fallback.MATERIALIZED_REFUSED (Array.map UInt32.toNat)
        (Random.materializedPermutation passes rootSeed epoch (UInt32.ofNat domain))

def permutationIndex (passes : Nat) (rootSeed epoch domain : UInt64) (position : Int) :
    Option (Except Refusal Nat) :=
  match readWord 64 position with
  | .error refusal => some (.error refusal)
  | .ok position =>
      answered Fallback.POSITION_REFUSED UInt64.toNat
        (Random.permutationIndex passes rootSeed epoch domain (UInt64.ofNat position))

end Binding

/-! ### Words and masks -/

theorem and_MASK32 (value : Nat) : value &&& Fallback.MASK32 = value % 2 ^ 32 :=
  Nat.and_two_pow_sub_one_eq_mod value 32

theorem and_MASK64 (value : Nat) : value &&& Fallback.MASK64 = value % 2 ^ 64 :=
  Nat.and_two_pow_sub_one_eq_mod value 64

theorem toNat_and_MASK32 (word : UInt32) : word.toNat &&& Fallback.MASK32 = word.toNat := by
  rw [and_MASK32, Nat.mod_eq_of_lt word.toNat_lt]

theorem shiftRight_toNat (word : UInt64) {shift : UInt64} (small : shift.toNat < 64) :
    (word >>> shift).toNat = word.toNat >>> shift.toNat := by
  rw [UInt64.toNat_shiftRight, Nat.mod_eq_of_lt small]

theorem splitmix64_toNat (value : UInt64) :
    (splitmix64 value).toNat = Fallback.splitmix64 value.toNat := by
  have masked : value.toNat &&& Fallback.MASK64 = value.toNat := by
    rw [and_MASK64, Nat.mod_eq_of_lt value.toNat_lt]
  simp only [splitmix64, Fallback.splitmix64, masked, and_MASK64, UInt64.toNat_xor,
    UInt64.toNat_mul]
  rw [shiftRight_toNat _ (by decide), shiftRight_toNat _ (by decide),
    shiftRight_toNat _ (by decide)]
  simp only [UInt64.toNat_xor, UInt64.toNat_mul]
  rw [shiftRight_toNat _ (by decide), shiftRight_toNat _ (by decide)]
  simp only [UInt64.toNat_xor, UInt64.toNat_mul]
  rw [shiftRight_toNat _ (by decide)]
  rfl

/-- `key64` of both sides. -/
theorem key64_toNat (rootSeed epoch : UInt64) :
    (key64 rootSeed epoch).toNat = Fallback.key64 rootSeed.toNat epoch.toNat := by
  have tag : (epochTag epoch).toNat =
      ((epoch.toNat <<< 32) ||| 0x9E37) &&& Fallback.MASK64 := by
    have shifted : (epoch <<< 32).toNat = (epoch.toNat <<< 32) % 2 ^ 64 := by
      rw [UInt64.toNat_shiftLeft]
      rfl
    rw [and_MASK64, epochTag, UInt64.toNat_or, shifted, Nat.or_mod_two_pow]
    rfl
  have masked : ((epoch.toNat <<< 32) ||| 0x9E37) &&& Fallback.MASK64 =
      (epochTag epoch).toNat := tag.symm
  rw [key64, UInt64.toNat_xor, splitmix64_toNat, splitmix64_toNat, Fallback.key64, masked]

/-! ### Philox -/

namespace Fallback

def wordsOf (counter : Counter) : Words :=
  ⟨counter.word0.toNat, counter.word1.toNat, counter.word2.toNat, counter.word3.toNat⟩

def keyOf (key : UInt32 × UInt32) : Nat × Nat := (key.1.toNat, key.2.toNat)

end Fallback

open Hyperloader.Random.Fallback (wordsOf keyOf)

theorem multiplyWords_toNat (left right : UInt32) :
    (multiplyWords left right).1.toNat = left.toNat * right.toNat % 2 ^ 32 ∧
      (multiplyWords left right).2.toNat = (left.toNat * right.toNat) >>> 32 := by
  have product : left.toNat * right.toNat < 2 ^ 32 * 2 ^ 32 :=
    Nat.mul_lt_mul'' left.toNat_lt right.toNat_lt
  have word : left.toNat * right.toNat < 2 ^ 64 := product
  have number : (left.toUInt64 * right.toUInt64).toNat = left.toNat * right.toNat := by
    rw [UInt64.toNat_mul, UInt32.toNat_toUInt64, UInt32.toNat_toUInt64,
      Nat.mod_eq_of_lt word]
  constructor
  · rw [multiplyWords, UInt64.toNat_toUInt32, number]
  · rw [multiplyWords, UInt64.toNat_toUInt32, shiftRight_toNat _ (by decide), number]
    apply Nat.mod_eq_of_lt
    rw [Nat.shiftRight_eq_div_pow]
    exact Nat.div_lt_of_lt_mul product

theorem philoxRound_toNat (counter : Counter) (key : UInt32 × UInt32) :
    wordsOf (philoxRound counter key) = Fallback.philoxRound (wordsOf counter) (keyOf key) := by
  have masks : ∀ one two three : UInt32,
      (one.toNat ^^^ two.toNat ^^^ three.toNat) &&& Fallback.MASK32 =
        one.toNat ^^^ two.toNat ^^^ three.toNat := by
    intro one two three
    rw [← UInt32.toNat_xor, ← UInt32.toNat_xor, toNat_and_MASK32]
  obtain ⟨low0, high0⟩ := multiplyWords_toNat PHILOX_M0 counter.word0
  obtain ⟨low1, high1⟩ := multiplyWords_toNat PHILOX_M1 counter.word2
  have factor0 : PHILOX_M0.toNat = Fallback.PHILOX_M0 := rfl
  have factor1 : PHILOX_M1.toNat = Fallback.PHILOX_M1 := rfl
  rw [factor0] at low0 high0
  rw [factor1] at low1 high1
  simp only [wordsOf, keyOf, philoxRound, Fallback.philoxRound, UInt32.toNat_xor, and_MASK32,
    ← low0, ← low1, ← high0, ← high1]
  simp only [← and_MASK32, masks]

/-- One pass of the loop, with the keys kept folded. -/
theorem fallback_philoxRounds_succ (rounds : Nat) (words : Fallback.Words) (key : Nat × Nat) :
    Fallback.philoxRounds (rounds + 1) words key =
      Fallback.philoxRounds rounds (Fallback.philoxRound words key)
        ((key.1 + Fallback.PHILOX_W0) &&& Fallback.MASK32,
          (key.2 + Fallback.PHILOX_W1) &&& Fallback.MASK32) := by
  delta Fallback.philoxRounds
  rfl

theorem bump_toNat (word step : UInt32) :
    (word + step).toNat = (word.toNat + step.toNat) &&& Fallback.MASK32 := by
  rw [UInt32.toNat_add, and_MASK32]

theorem philoxRounds_toNat (rounds : Nat) (counter : Counter) (key : UInt32 × UInt32) :
    wordsOf (philoxRounds rounds counter key) =
      Fallback.philoxRounds rounds (wordsOf counter) (keyOf key) := by
  induction rounds generalizing counter key with
  | zero => rfl
  | succ rounds ih =>
      have keys : keyOf (key.1 + PHILOX_W0, key.2 + PHILOX_W1) =
          (((keyOf key).1 + Fallback.PHILOX_W0) &&& Fallback.MASK32,
            ((keyOf key).2 + Fallback.PHILOX_W1) &&& Fallback.MASK32) :=
        Prod.ext (bump_toNat key.1 PHILOX_W0) (bump_toNat key.2 PHILOX_W1)
      rw [philoxRounds_succ, ih, philoxRound_toNat, keys,
        fallback_philoxRounds_succ]

/-- The fallback masks its words, so any numbers with the same low words agree. -/
theorem philox4x32_10_toNat (word0 word1 word2 word3 key0 key1 : Nat) :
    Fallback.philox4x32_10 ⟨word0, word1, word2, word3⟩ (key0, key1) =
      wordsOf (philox4x32_10
        ⟨UInt32.ofNat word0, UInt32.ofNat word1, UInt32.ofNat word2, UInt32.ofNat word3⟩
        (UInt32.ofNat key0, UInt32.ofNat key1)) := by
  have masked : ∀ word : Nat, word &&& Fallback.MASK32 = (UInt32.ofNat word).toNat :=
    fun word => and_MASK32 word
  rw [philox4x32_10, philoxRounds_toNat, Fallback.philox4x32_10]
  simp only [masked]
  rfl

/-- The low and the high word of a number below `2 ^ 64`. -/
theorem lowWord_eq (word : UInt64) :
    UInt32.ofNat (word.toNat &&& Fallback.MASK32) = word.toUInt32 := by
  apply UInt32.toNat_inj.mp
  rw [UInt64.toNat_toUInt32, UInt32.toNat_ofNat', and_MASK32, Nat.mod_mod]

theorem highWord_eq (word : UInt64) :
    UInt32.ofNat (word.toNat >>> 32) = (word >>> 32).toUInt32 := by
  apply UInt32.toNat_inj.mp
  rw [UInt64.toNat_toUInt32, UInt32.toNat_ofNat', shiftRight_toNat _ (by decide)]
  rfl

theorem highWord_lt (word : UInt64) : word.toNat >>> 32 < 2 ^ 32 := by
  rw [Nat.shiftRight_eq_div_pow]
  exact Nat.div_lt_of_lt_mul word.toNat_lt

/-- The block of a draw. -/
theorem blockFromKey_toNat (key coord : UInt64) (drawIndex streamId : UInt32) :
    wordsOf (blockFromKey key coord drawIndex streamId) =
      Fallback.rngBlockFromKey key.toNat coord.toNat drawIndex.toNat streamId.toNat := by
  have high : (coord.toNat >>> 32) &&& Fallback.MASK32 = coord.toNat >>> 32 := by
    rw [and_MASK32, Nat.mod_eq_of_lt (highWord_lt coord)]
  rw [Fallback.rngBlockFromKey, high, philox4x32_10_toNat, lowWord_eq, highWord_eq, lowWord_eq,
    highWord_eq, UInt32.ofNat_toNat, UInt32.ofNat_toNat]
  rfl

/-- Both sides generate the same block. -/
theorem block_toNat (rootSeed epoch coord : UInt64) (drawIndex streamId : UInt32) :
    wordsOf (block rootSeed epoch coord drawIndex streamId) =
      Fallback.rngBlock rootSeed.toNat epoch.toNat coord.toNat drawIndex.toNat
        streamId.toNat := by
  rw [block, blockFromKey_toNat, key64_toNat]
  rfl

/-- The installed context of a sample. -/
theorem sampleRngContext_toNat (rootSeed epoch coord : UInt64) :
    (sampleRngContext rootSeed.toNat epoch.toNat coord.toNat).map
        (fun stream => (stream.torchSeed.toNat, stream.key.toNat, stream.coordinate.toNat)) =
      some (Fallback.sampleRngContext rootSeed.toNat epoch.toNat coord.toNat) := by
  have word : ∀ value : UInt64, asU64 value.toNat = some value := by
    intro value
    rw [asU64, if_pos value.toNat_lt, UInt64.ofNat_toNat]
  have seed : ∀ counter : Counter, (seedOfBlock counter).toNat =
      (wordsOf counter).word0 ||| ((wordsOf counter).word1 <<< 32) := by
    intro counter
    have shifted : counter.word1.toNat <<< 32 < 2 ^ 64 := by
      rw [Nat.shiftLeft_eq]
      have bound := counter.word1.toNat_lt
      omega
    rw [seedOfBlock, UInt64.toNat_or, UInt64.toNat_shiftLeft, UInt32.toNat_toUInt64,
      UInt32.toNat_toUInt64]
    exact congrArg (counter.word0.toNat ||| ·) (Nat.mod_eq_of_lt shifted)
  have words := blockFromKey_toNat (key64 rootSeed epoch) coord 0 SAMPLE_STREAM
  rw [key64_toNat] at words
  simp only [sampleRngContext, word, Option.bind_eq_bind, Option.bind_some, Option.map_some,
    seed, words, key64_toNat]
  rfl

/-- Both sides derive the same permutation key. -/
theorem permutationKey_toNat (rootSeed epoch : UInt64) :
    keyOf (permutationKey rootSeed epoch) =
      Fallback.permutationKey rootSeed.toNat epoch.toNat := by
  have tag : (PERM_TAG <<< 1) ||| 1 = 5 := by decide
  have folded : (splitmix64 (key64 rootSeed epoch ^^^ 5)).toNat =
      Fallback.splitmix64 (Fallback.key64 rootSeed.toNat epoch.toNat ^^^ 5) := by
    rw [splitmix64_toNat, UInt64.toNat_xor, key64_toNat]
    rfl
  rw [permutationKey, tag, Fallback.permutationKey, ← folded, keyOf]
  simp only [UInt64.toNat_toUInt32, and_MASK32]
  rw [shiftRight_toNat _ (by decide)]
  exact Prod.ext rfl (Nat.mod_eq_of_lt (highWord_lt _))

/-! ### Walks -/

section

variable (key : UInt32 × UInt32)

include key

/-- The word of a round, which both sides take from the low half. -/
theorem roundNumber_eq (round low : Nat) :
    (Fallback.philox4x32_10 ⟨low, round, 3, 0⟩ (keyOf key)).word0 =
      roundNumber key round low := by
  rw [keyOf, philox4x32_10_toNat, UInt32.ofNat_toNat, UInt32.ofNat_toNat]
  rfl

theorem feistelLoop_eq {bits rounds highWidth : Nat} (round : Nat) (halves : Nat × Nat)
    (le : highWidth ≤ bits) :
    Fallback.feistelLoop (keyOf key) bits rounds round highWidth halves =
      feistelRounds (roundNumber key) rounds round highWidth (bits - highWidth) halves := by
  induction rounds generalizing round highWidth halves with
  | zero => rfl
  | succ rounds ih =>
      obtain ⟨high, low⟩ := halves
      have back : bits - (bits - highWidth) = highWidth := Nat.sub_sub_self le
      have masked : (high + ((Fallback.philox4x32_10 ⟨low, round, 3, 0⟩ (keyOf key)).word0 &&&
          ((1 <<< highWidth) - 1))) &&& ((1 <<< highWidth) - 1) =
          (high + roundNumber key round low) % 2 ^ highWidth := by
        rw [Nat.one_shiftLeft, Nat.and_two_pow_sub_one_eq_mod, Nat.and_two_pow_sub_one_eq_mod,
          Nat.add_mod_mod, roundNumber_eq]
      rw [Fallback.feistelLoop]
      rw [masked, ih _ _ (Nat.sub_le _ _), back, feistelRounds]

/-- A pass of the fallback's walk is the network. -/
theorem feistelPass_eq {bits candidate : Nat} (within : candidate < 2 ^ bits) :
    Fallback.feistelPass (keyOf key) bits candidate =
      feistelNetwork (roundNumber key) (2 * 4) (bits - bits / 2) (bits / 2) candidate := by
  have low : bits - (bits - bits / 2) = bits / 2 := Nat.sub_sub_self (Nat.div_le_self _ _)
  have widths : bits - bits / 2 + bits / 2 = bits := Nat.sub_add_cancel (Nat.div_le_self _ _)
  have split : Fits (bits - bits / 2) (bits / 2)
      (candidate / 2 ^ (bits / 2), candidate % 2 ^ (bits / 2)) :=
    fits_split (by rwa [widths])
  have fits := @feistelRounds_fits (roundNumber key) 4 0 _ _ _ split
  rw [Fallback.feistelPass, feistelLoop_eq key _ _ (Nat.sub_le _ _), low, Nat.one_shiftLeft,
    Nat.and_two_pow_sub_one_eq_mod, Nat.shiftRight_eq_div_pow,
    ← Nat.shiftLeft_add_eq_or_of_lt fits.2, Nat.shiftLeft_eq, feistelNetwork]

/-- Both walks stop after the same passes, at the same value. -/
theorem walk_toNat {domain position : UInt64} (inside : position < domain) (passes : Nat) :
    (cycleWalk (fun candidate => feistelCipher candidate (domainBits domain) key)
        (fun candidate => decide (candidate < domain)) passes position).map UInt64.toNat =
      cycleWalk (Fallback.feistelPass (keyOf key) (domainBits domain))
        (fun candidate => decide (candidate < domain.toNat)) passes position.toNat := by
  have small := domainBits_le domain
  refine @cycleWalk_map _ _ _ _ _ _ UInt64.toNat
    (fun value => value.toNat < 2 ^ domainBits domain) ?_ ?_ ?_ passes _ ?_
  · intro value within
    have maps := feistelCipher_mapsTo key small value ((mem_valuesBelow small).mpr within)
    exact (mem_valuesBelow small).mp maps
  · intro value within
    rw [feistelPass_eq key within]
    exact feistelCipher_toNat key small within
  · intro value _
    rfl
  · exact lt_two_pow_domainBits inside

end

/-! ### Shuffles -/

/-- Both sides of a counted draw: the same answer after the same words, or the native
counter has overflowed and the fallback passes `2 ^ 32` words. -/
def Counted {Answer Shown : Type} (view : Answer → Shown) :
    Option (Except PermutationFailure (Answer × UInt32)) → Option (Shown × Nat) → Prop
  | none, fallback => fallback = none
  | some (.ok (answer, draws)), fallback => fallback = some (view answer, draws.toNat)
  | some (.error failure), fallback =>
      failure = .drawOverflow ∧
        ∀ shown draws, fallback = some (shown, draws) → 2 ^ 32 ≤ draws

theorem lt_of_fallback_drawSelected {key : Nat × Nat} {upper limit passes drawOrdinal : Nat}
    {selected next : Nat}
    (drawn : Fallback.drawSelected key upper limit passes drawOrdinal = some (selected, next)) :
    drawOrdinal < next := by
  induction passes generalizing drawOrdinal with
  | zero => cases drawn
  | succ passes ih =>
      rw [Fallback.drawSelected] at drawn
      split at drawn
      · cases drawn
        exact Nat.lt_succ_self _
      · exact Nat.lt_of_succ_lt (ih drawn)

theorem le_of_fallback_shuffleDown {key : Nat × Nat} {passes upper drawOrdinal : Nat}
    {permutation result : Array Nat} {draws : Nat}
    (shuffled : Fallback.shuffleDown key passes upper permutation drawOrdinal =
      some (result, draws)) : drawOrdinal ≤ draws := by
  induction upper using Nat.strongRecOn generalizing permutation drawOrdinal with
  | _ upper ih =>
      match upper with
      | 0 =>
          cases shuffled
          exact Nat.le_refl _
      | 1 =>
          cases shuffled
          exact Nat.le_refl _
      | upper + 2 =>
          rw [Fallback.shuffleDown] at shuffled
          split at shuffled
          · cases shuffled
          · rename_i selected next drawn
            have advanced := lt_of_fallback_drawSelected drawn
            have rest := ih (upper + 1) (Nat.lt_succ_self _) shuffled
            exact Nat.le_trans (Nat.le_of_lt advanced) rest

theorem drawSelected_counted (key : UInt32 × UInt32) (modulus limit : UInt64) (passes : Nat)
    (drawOrdinal : UInt32) :
    Counted id (drawSelected key modulus limit passes drawOrdinal)
      (Fallback.drawSelected (keyOf key) modulus.toNat limit.toNat passes
        drawOrdinal.toNat) := by
  induction passes generalizing drawOrdinal with
  | zero => rfl
  | succ passes ih =>
      have word : (Fallback.philox4x32_10 ⟨drawOrdinal.toNat, 8, 3, 0⟩ (keyOf key)).word0 =
          (philox4x32_10 ⟨drawOrdinal, 8, PERM_ROUND_TAG, 0⟩ key).word0.toNat := by
        rw [keyOf, philox4x32_10_toNat, UInt32.ofNat_toNat, UInt32.ofNat_toNat,
          UInt32.ofNat_toNat]
        rfl
      have below : (philox4x32_10 ⟨drawOrdinal, 8, PERM_ROUND_TAG, 0⟩ key).word0.toUInt64 <
          limit ↔ (philox4x32_10 ⟨drawOrdinal, 8, PERM_ROUND_TAG, 0⟩ key).word0.toNat <
          limit.toNat := by
        rw [UInt64.lt_iff_toNat_lt, UInt32.toNat_toUInt64]
      rw [drawSelected]
      by_cases last : drawOrdinal = 0xFFFFFFFF
      · rw [if_pos last]
        refine ⟨rfl, ?_⟩
        intro selected draws drawn
        have number : drawOrdinal.toNat = 2 ^ 32 - 1 := by
          rw [last]
          rfl
        have advanced := lt_of_fallback_drawSelected drawn
        rw [number] at advanced
        exact advanced
      · have room : drawOrdinal.toNat + 1 < 2 ^ 32 := by
          have bound := drawOrdinal.toNat_lt
          have different : drawOrdinal.toNat ≠ 2 ^ 32 - 1 := by
            intro same
            exact last (UInt32.toNat_inj.mp same)
          omega
        have next : (drawOrdinal + 1).toNat = drawOrdinal.toNat + 1 := by
          rw [UInt32.toNat_add]
          exact Nat.mod_eq_of_lt room
        rw [if_neg last, Fallback.drawSelected, word]
        by_cases accepted : (philox4x32_10 ⟨drawOrdinal, 8, PERM_ROUND_TAG, 0⟩ key).word0.toNat <
            limit.toNat
        · rw [if_pos (below.mpr accepted), if_pos accepted]
          simp only [Counted, next, UInt64.toNat_mod, UInt32.toNat_toUInt64, id]
        · rw [if_neg (fun less => accepted (below.mp less)), if_neg accepted, ← next]
          exact ih _

theorem map_swapIfInBounds (values : Array UInt32) (one two : Nat) :
    (values.swapIfInBounds one two).map UInt32.toNat =
      (values.map UInt32.toNat).swapIfInBounds one two := by
  apply Array.ext
  · simp
  · intro index below _
    simp only [Array.getElem_map, Array.getElem_swapIfInBounds, Array.size_map]
    split
    · rfl
    · split <;> rfl

/-- The two shuffles of a small domain, step by step. -/
theorem shuffleDown_counted (key : UInt32 × UInt32) (passes : Nat) {upper : Nat}
    (small : upper < 2 ^ 17) (permutation : Array UInt32) (drawOrdinal : UInt32) :
    Counted (Array.map UInt32.toNat) (shuffleDown key passes upper permutation drawOrdinal)
      (Fallback.shuffleDown (keyOf key) passes upper (permutation.map UInt32.toNat)
        drawOrdinal.toNat) := by
  induction upper using Nat.strongRecOn generalizing permutation drawOrdinal with
  | _ upper ih =>
      match upper with
      | 0 => rfl
      | 1 => rfl
      | upper + 2 =>
          have modulus : (UInt64.ofNat (upper + 2)).toNat = upper + 2 :=
            UInt64.toNat_ofNat_of_lt' (Nat.lt_trans small (by decide))
          have words : ((1 : UInt64) <<< (32 : UInt64)).toNat = 1 <<< 32 := by decide
          have limit : (((1 : UInt64) <<< (32 : UInt64)) -
              ((1 : UInt64) <<< (32 : UInt64)) % UInt64.ofNat (upper + 2)).toNat =
              (1 <<< 32) - ((1 <<< 32) % (upper + 2)) := by
            rw [UInt64.toNat_sub_of_le, UInt64.toNat_mod, modulus, words]
            rw [UInt64.le_iff_toNat_le, UInt64.toNat_mod]
            exact Nat.mod_le _ _
          have draw := drawSelected_counted key (UInt64.ofNat (upper + 2))
            (((1 : UInt64) <<< (32 : UInt64)) -
              ((1 : UInt64) <<< (32 : UInt64)) % UInt64.ofNat (upper + 2)) passes drawOrdinal
          rw [modulus, limit] at draw
          rw [shuffleDown, Fallback.shuffleDown]
          cases drawn : drawSelected key (UInt64.ofNat (upper + 2))
              (((1 : UInt64) <<< (32 : UInt64)) -
                ((1 : UInt64) <<< (32 : UInt64)) % UInt64.ofNat (upper + 2)) passes
              drawOrdinal with
          | none =>
              rw [drawn] at draw
              simp only [Counted] at draw
              rw [draw]
              rfl
          | some answer =>
              rw [drawn] at draw
              cases answer with
              | error failure =>
                  obtain ⟨overflow, counted⟩ := draw
                  refine ⟨overflow, ?_⟩
                  intro result draws shuffled
                  split at shuffled
                  · cases shuffled
                  · rename_i selected next fallbackDrawn
                    exact Nat.le_trans (counted selected next fallbackDrawn)
                      (le_of_fallback_shuffleDown shuffled)
              | ok answer =>
                  obtain ⟨selected, next⟩ := answer
                  simp only [Counted, id] at draw
                  rw [draw]
                  dsimp only
                  rw [← map_swapIfInBounds]
                  exact ih (upper + 1) (Nat.lt_succ_self _)
                    (Nat.lt_of_succ_lt small) _ next

/-! ### What a caller sees -/

/-- The result of a call, whatever the text of a refusal. -/
inductive Outcome (Answer : Type) where
  | value (answer : Answer)
  | refused
  | panicked

def outcome {Answer : Type} : Except Refusal Answer → Outcome Answer
  | .ok answer => .value answer
  | .error .panicked => .panicked
  | .error _ => .refused

/-- Both modules answer alike: the same value, both a refusal, or both still at work. -/
def Agree {Answer : Type} (one two : Option (Except Refusal Answer)) : Prop :=
  one.map outcome = two.map outcome

/-- The fallback does not return the list before its `2 ^ 32`th word. -/
def DrawsPastCounter (passes rootSeed epoch domain : Nat) : Prop :=
  ∀ permutation draws, Fallback.materialize passes rootSeed epoch domain =
    some (permutation, draws) → 2 ^ 32 ≤ draws

theorem readWord_ok {bits : Nat} {value : Int} {number : Nat}
    (accepted : Binding.readWord bits value = .ok number) : value = number ∧ number < 2 ^ bits := by
  unfold Binding.readWord at accepted
  split at accepted
  · rename_i inRange
    cases accepted
    have number : ((value.toNat : Nat) : Int) = value := Int.toNat_of_nonneg inRange.1
    refine ⟨number.symm, ?_⟩
    have below := inRange.2
    rw [← number] at below
    exact_mod_cast below
  · cases accepted

theorem readWord_error {bits : Nat} {value : Int} {refusal : Refusal}
    (refused : Binding.readWord bits value = .error refusal) :
    refusal = .overflowError ∧ ¬(0 ≤ value ∧ value < 2 ^ bits) := by
  unfold Binding.readWord at refused
  split at refused
  · cases refused
  · rename_i outside
    cases refused
    exact ⟨rfl, outside⟩

theorem threshold_toNat : FEISTEL_THRESHOLD.toNat = Fallback.FEISTEL_THRESHOLD := by decide

theorem lt_threshold_iff (domain : UInt64) :
    domain < FEISTEL_THRESHOLD ↔ domain.toNat < Fallback.FEISTEL_THRESHOLD := by
  rw [UInt64.lt_iff_toNat_lt, threshold_toNat]

/-- A position the engine sees lies in the domain exactly when the fallback says so. -/
theorem inside_iff (domain : UInt64) {position : Nat} (word : position < 2 ^ 64) :
    UInt64.ofNat position < domain ↔
      0 ≤ (position : Int) ∧ (position : Int) < domain.toNat := by
  rw [UInt64.lt_iff_toNat_lt, UInt64.toNat_ofNat_of_lt' word]
  omega

/-- The walks of a position that is a word. -/
theorem feistelPermute_toNat (passes : Nat) (rootSeed epoch domain : UInt64) {position : Nat}
    (word : position < 2 ^ 64) :
    Binding.answered Fallback.FEISTEL_REFUSED UInt64.toNat
        (feistelPermute passes rootSeed epoch domain (UInt64.ofNat position)) =
      Fallback.feistelPermute passes rootSeed.toNat epoch.toNat domain.toNat position := by
  unfold feistelPermute Fallback.feistelPermute
  by_cases allowed : FEISTEL_THRESHOLD ≤ domain ∧ UInt64.ofNat position < domain
  · have large : ¬domain < FEISTEL_THRESHOLD := UInt64.not_lt.mpr allowed.1
    have inside : ¬domain ≤ UInt64.ofNat position := UInt64.not_le.mpr allowed.2
    have positive : 0 < domain.toNat :=
      Nat.lt_of_le_of_lt (Nat.zero_le _) (UInt64.lt_iff_toNat_lt.mp allowed.2)
    rw [if_neg (not_or.mpr ⟨large, inside⟩)]
    rw [if_neg (not_or.mpr ⟨mt (lt_threshold_iff domain).mpr large,
      not_not.mpr ((inside_iff domain word).mp allowed.2)⟩)]
    have walks := walk_toNat (permutationKey rootSeed epoch) allowed.2 passes
    rw [permutationKey_toNat, UInt64.toNat_ofNat_of_lt' word, domainBits_eq positive] at walks
    rw [Int.toNat_natCast]
    dsimp only
    rw [← walks, ← domainBits_eq positive, Binding.answered, Option.map_map, Option.map_map]
    rfl
  · have nativeRefused : domain < FEISTEL_THRESHOLD ∨ domain ≤ UInt64.ofNat position := by
      rwa [not_and_or, UInt64.not_le, UInt64.not_lt] at allowed
    have refused : domain.toNat < Fallback.FEISTEL_THRESHOLD ∨
        ¬(0 ≤ (position : Int) ∧ (position : Int) < domain.toNat) := by
      rw [← lt_threshold_iff, ← inside_iff domain word, UInt64.not_lt]
      exact nativeRefused
    rw [if_pos nativeRefused, if_pos refused]
    rfl

theorem feistelPermute_agrees (passes : Nat) (rootSeed epoch domain : UInt64) (position : Int) :
    Agree (Binding.feistelPermute passes rootSeed epoch domain position)
      (Fallback.feistelPermute passes rootSeed.toNat epoch.toNat domain.toNat position) := by
  unfold Binding.feistelPermute
  cases word : Binding.readWord 64 position with
  | ok number =>
      obtain ⟨rfl, below⟩ := readWord_ok word
      rw [Agree]
      dsimp only
      rw [feistelPermute_toNat passes rootSeed epoch domain below]
  | error refusal =>
      obtain ⟨rfl, outside⟩ := readWord_error word
      have refused : ¬(0 ≤ position ∧ position < domain.toNat) := by
        intro inside
        have bound := domain.toNat_lt
        exact outside ⟨inside.1, by omega⟩
      rw [Fallback.feistelPermute, if_pos (Or.inr refused)]
      rfl

/-- The lists of a domain below the threshold. -/
theorem materializedPermutation_counted (passes : Nat) (rootSeed epoch : UInt64) {domain : Nat}
    (small : domain < Fallback.FEISTEL_THRESHOLD) :
    Counted (Array.map UInt32.toNat)
      (materializedPermutationWithDraws passes rootSeed epoch (UInt32.ofNat domain))
      (Fallback.materialize passes rootSeed.toNat epoch.toNat domain) := by
  have word : (UInt32.ofNat domain).toNat = domain :=
    UInt32.toNat_ofNat_of_lt' (Nat.lt_trans small (by decide))
  have below : ¬FEISTEL_THRESHOLD ≤ (UInt32.ofNat domain).toUInt64 := by
    rw [UInt64.not_le, lt_threshold_iff, UInt32.toNat_toUInt64, word]
    exact small
  have entries : ((Array.range domain).map UInt32.ofNat).map UInt32.toNat =
      Array.range domain := by
    rw [Array.map_map]
    apply Array.ext
    · rw [Array.size_map]
    · intro index less _
      rw [Array.size_map, Array.size_range] at less
      rw [Array.getElem_map, Array.getElem_range]
      exact UInt32.toNat_ofNat_of_lt' (Nat.lt_trans less (Nat.lt_trans small (by decide)))
  have shuffled := shuffleDown_counted (permutationKey rootSeed epoch) passes small
    ((Array.range domain).map UInt32.ofNat) 0
  rw [entries, permutationKey_toNat] at shuffled
  rw [materializedPermutationWithDraws, if_neg below, word]
  exact shuffled

theorem materializedPermutation_agrees (passes : Nat) (rootSeed epoch : UInt64) (domain : Nat) :
    Agree (Binding.materializedPermutation passes rootSeed epoch domain)
        (Fallback.materializedPermutation passes rootSeed.toNat epoch.toNat domain) ∨
      (Binding.materializedPermutation passes rootSeed epoch domain = some (.error .panicked) ∧
        domain < Fallback.FEISTEL_THRESHOLD ∧
        DrawsPastCounter passes rootSeed.toNat epoch.toNat domain) := by
  rw [Binding.materializedPermutation]
  cases word : Binding.readWord 32 domain with
  | error refusal =>
      obtain ⟨rfl, outside⟩ := readWord_error word
      have large : ¬domain < Fallback.FEISTEL_THRESHOLD := by
        intro small
        have bound : Fallback.FEISTEL_THRESHOLD ≤ 2 ^ 32 := by decide
        exact outside ⟨by omega, by omega⟩
      rw [Fallback.materializedPermutation, if_pos large]
      exact Or.inl rfl
  | ok number =>
      obtain ⟨same, below⟩ := readWord_ok word
      have number_eq : number = domain := by omega
      subst number_eq
      by_cases small : number < Fallback.FEISTEL_THRESHOLD
      · have counted := materializedPermutation_counted passes rootSeed epoch small
        rw [Fallback.materializedPermutation, if_neg (not_not.mpr small)]
        dsimp only
        rw [materializedPermutation]
        cases drawn : materializedPermutationWithDraws passes rootSeed epoch
            (UInt32.ofNat number) with
        | none =>
            rw [drawn] at counted
            simp only [Counted] at counted
            rw [counted]
            exact Or.inl rfl
        | some answer =>
            rw [drawn] at counted
            cases answer with
            | ok answer =>
                simp only [Counted] at counted
                rw [counted]
                exact Or.inl rfl
            | error failure =>
                obtain ⟨rfl, past⟩ := counted
                exact Or.inr ⟨rfl, small, past⟩
      · have large : FEISTEL_THRESHOLD ≤ (UInt32.ofNat number).toUInt64 := by
          rw [← UInt64.not_lt, lt_threshold_iff, UInt32.toNat_toUInt64,
            UInt32.toNat_ofNat_of_lt' below]
          exact small
        rw [Fallback.materializedPermutation, if_pos small]
        dsimp only
        rw [materializedPermutation, materializedPermutationWithDraws, if_pos large]
        exact Or.inl rfl

/-- An entry out of bounds reads as zero on both sides. -/
theorem getElem!_map_toNat (values : Array UInt32) (index : Nat) :
    (values.map UInt32.toNat)[index]! = values[index]!.toUInt64.toNat := by
  rw [UInt32.toNat_toUInt64]
  by_cases below : index < values.size
  · rw [getElem!_pos values index below, getElem!_pos _ index (by rwa [Array.size_map]),
      Array.getElem_map]
  · rw [getElem!_neg values index below, getElem!_neg _ index (by rwa [Array.size_map])]
    rfl

theorem permutationIndex_agrees (passes : Nat) (rootSeed epoch domain : UInt64) (position : Int) :
    Agree (Binding.permutationIndex passes rootSeed epoch domain position)
        (Fallback.permutationIndex passes rootSeed.toNat epoch.toNat domain.toNat position) ∨
      (Binding.permutationIndex passes rootSeed epoch domain position =
          some (.error .panicked) ∧
        domain.toNat < Fallback.FEISTEL_THRESHOLD ∧
        DrawsPastCounter passes rootSeed.toNat epoch.toNat domain.toNat) := by
  unfold Binding.permutationIndex
  cases word : Binding.readWord 64 position with
  | error refusal =>
      obtain ⟨rfl, outside⟩ := readWord_error word
      have refused : ¬(0 ≤ position ∧ position < domain.toNat) := by
        intro inside
        have bound := domain.toNat_lt
        exact outside ⟨inside.1, by omega⟩
      rw [Fallback.permutationIndex, if_pos refused]
      exact Or.inl rfl
  | ok number =>
      obtain ⟨rfl, below⟩ := readWord_ok word
      dsimp only
      rw [permutationIndex, Fallback.permutationIndex]
      by_cases inside : UInt64.ofNat number < domain
      · rw [if_neg (UInt64.not_le.mpr inside),
          if_neg (not_not.mpr ((inside_iff domain below).mp inside))]
        by_cases small : domain < FEISTEL_THRESHOLD
        · have smallNumber := (lt_threshold_iff domain).mp small
          have domainWord : domain.toUInt32 = UInt32.ofNat domain.toNat := rfl
          have counted := materializedPermutation_counted passes rootSeed epoch smallNumber
          rw [if_pos small, if_pos smallNumber, Fallback.materializedPermutation,
            if_neg (not_not.mpr smallNumber), materializedPermutation, domainWord]
          cases drawn : materializedPermutationWithDraws passes rootSeed epoch
              (UInt32.ofNat domain.toNat) with
          | none =>
              rw [drawn] at counted
              simp only [Counted] at counted
              rw [counted]
              exact Or.inl rfl
          | some answer =>
              rw [drawn] at counted
              cases answer with
              | ok answer =>
                  simp only [Counted] at counted
                  rw [counted, UInt64.toNat_ofNat_of_lt' below, Int.toNat_natCast]
                  apply Or.inl
                  simp only [Agree, Binding.answered, Option.map_some, Except.map,
                    Except.mapError, getElem!_map_toNat]
              | error failure =>
                  obtain ⟨rfl, past⟩ := counted
                  exact Or.inr ⟨rfl, smallNumber, past⟩
        · have large := mt (lt_threshold_iff domain).mpr small
          rw [if_neg small, if_neg large]
          apply Or.inl
          have walks := feistelPermute_toNat passes rootSeed epoch domain below
          rw [← walks]
          have refused : ¬(domain < FEISTEL_THRESHOLD ∨ domain ≤ UInt64.ofNat number) :=
            not_or.mpr ⟨small, UInt64.not_le.mpr inside⟩
          rw [feistelPermute, if_neg refused, Agree]
          simp only [Binding.answered, Option.map_map]
          rfl
      · have outside := mt (inside_iff domain below).mpr inside
        rw [if_pos (UInt64.not_lt.mp inside), if_pos outside]
        exact Or.inl rfl

/-- The fallback streams and permutations are the native ones: the same keys, blocks and
contexts, the same walks after the same passes, and the same lists and indices.  The one
difference is a shuffle that needs `2 ^ 32` words, where the native counter panics. -/
theorem streams_agree :
    (∀ rootSeed epoch : UInt64,
      (key64 rootSeed epoch).toNat = Fallback.key64 rootSeed.toNat epoch.toNat) ∧
    (∀ (rootSeed epoch coord : UInt64) (drawIndex streamId : UInt32),
      Fallback.wordsOf (block rootSeed epoch coord drawIndex streamId) =
        Fallback.rngBlock rootSeed.toNat epoch.toNat coord.toNat drawIndex.toNat
          streamId.toNat) ∧
    (∀ (key coord : UInt64) (drawIndex streamId : UInt32),
      Fallback.wordsOf (blockFromKey key coord drawIndex streamId) =
        Fallback.rngBlockFromKey key.toNat coord.toNat drawIndex.toNat streamId.toNat) ∧
    (∀ rootSeed epoch coord : UInt64,
      (sampleRngContext rootSeed.toNat epoch.toNat coord.toNat).map
          (fun stream => (stream.torchSeed.toNat, stream.key.toNat, stream.coordinate.toNat)) =
        some (Fallback.sampleRngContext rootSeed.toNat epoch.toNat coord.toNat)) ∧
    (∀ (passes : Nat) (rootSeed epoch domain : UInt64) (position : Int),
      Agree (Binding.feistelPermute passes rootSeed epoch domain position)
        (Fallback.feistelPermute passes rootSeed.toNat epoch.toNat domain.toNat position)) ∧
    (∀ (passes : Nat) (rootSeed epoch : UInt64) (domain : Nat),
      Agree (Binding.materializedPermutation passes rootSeed epoch domain)
          (Fallback.materializedPermutation passes rootSeed.toNat epoch.toNat domain) ∨
        (Binding.materializedPermutation passes rootSeed epoch domain =
            some (.error .panicked) ∧
          domain < Fallback.FEISTEL_THRESHOLD ∧
          DrawsPastCounter passes rootSeed.toNat epoch.toNat domain)) ∧
    (∀ (passes : Nat) (rootSeed epoch domain : UInt64) (position : Int),
      Agree (Binding.permutationIndex passes rootSeed epoch domain position)
          (Fallback.permutationIndex passes rootSeed.toNat epoch.toNat domain.toNat position) ∨
        (Binding.permutationIndex passes rootSeed epoch domain position =
            some (.error .panicked) ∧
          domain.toNat < Fallback.FEISTEL_THRESHOLD ∧
          DrawsPastCounter passes rootSeed.toNat epoch.toNat domain.toNat)) :=
  ⟨key64_toNat, block_toNat, blockFromKey_toNat, sampleRngContext_toNat, feistelPermute_agrees,
    materializedPermutation_agrees, permutationIndex_agrees⟩

end Hyperloader.Random
