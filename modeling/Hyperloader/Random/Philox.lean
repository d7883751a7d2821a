/-
Module: Hyperloader.Random.Philox
Purpose: Streams under one key: Philox rounds undone word by word, the packing
  of a draw into a counter, and the iterable tier's sample coordinates.
Trusted boundary: none
Main exports:
  philoxUnround, philox4x32_10_bijective, packCounter, iterableCoordinate,
  streams_separated
-/
import Hyperloader.Process.Rng

namespace Hyperloader.Random

open Process

/-! ### Philox rounds -/

/-- The multiplicative inverse of `PHILOX_M0` modulo `2 ^ 32`. -/
def UNPHILOX_M0 : UInt32 := 0x991A7CDB

/-- The multiplicative inverse of `PHILOX_M1` modulo `2 ^ 32`. -/
def UNPHILOX_M1 : UInt32 := 0x6D7CAE67

/-- The round that undoes `philoxRound`: the low halves give back the multiplied
words, and these give the high halves that mask the other two. -/
def philoxUnround (counter : Counter) (key : UInt32 × UInt32) : Counter :=
  let word0 := counter.word3 * UNPHILOX_M0
  let word2 := counter.word1 * UNPHILOX_M1
  { word0 := word0
    word1 := counter.word0 ^^^ (multiplyWords PHILOX_M1 word2).2 ^^^ key.1
    word2 := word2
    word3 := counter.word2 ^^^ (multiplyWords PHILOX_M0 word0).2 ^^^ key.2 }

theorem multiplyWords_low (left right : UInt32) : (multiplyWords left right).1 = left * right := by
  simp [multiplyWords]

theorem mul_unphilox {factor inverse : UInt32} (unit : factor * inverse = 1)
    (word : UInt32) : factor * word * inverse = word := by
  calc factor * word * inverse = factor * inverse * word := by
        rw [UInt32.mul_assoc, UInt32.mul_comm word, UInt32.mul_assoc]
    _ = word := by rw [unit, UInt32.one_mul]

theorem unphilox_mul {factor inverse : UInt32} (unit : factor * inverse = 1)
    (word : UInt32) : factor * (word * inverse) = word := by
  rw [← UInt32.mul_assoc]
  exact mul_unphilox unit word

/-- Two masks on a word come off in either order. -/
theorem xor_cancel (word high key : UInt32) : high ^^^ word ^^^ key ^^^ high ^^^ key = word := by
  apply UInt32.toBitVec_inj.mp
  simp only [UInt32.toBitVec_xor]
  ext index
  simp only [BitVec.getElem_xor]
  cases word.toBitVec[index] <;> cases high.toBitVec[index] <;>
    cases key.toBitVec[index] <;> rfl

/-- A round is undone from its output. -/
theorem philoxUnround_philoxRound (counter : Counter) (key : UInt32 × UInt32) :
    philoxUnround (philoxRound counter key) key = counter := by
  have word0 : (multiplyWords PHILOX_M0 counter.word0).1 * UNPHILOX_M0 =
      counter.word0 := by
    rw [multiplyWords_low]
    exact mul_unphilox (by decide) _
  have word2 : (multiplyWords PHILOX_M1 counter.word2).1 * UNPHILOX_M1 =
      counter.word2 := by
    rw [multiplyWords_low]
    exact mul_unphilox (by decide) _
  simp only [philoxUnround, philoxRound, word0, word2, xor_cancel]

theorem philoxRound_philoxUnround (counter : Counter) (key : UInt32 × UInt32) :
    philoxRound (philoxUnround counter key) key = counter := by
  have word1 : (multiplyWords PHILOX_M1 (counter.word1 * UNPHILOX_M1)).1 =
      counter.word1 := by
    rw [multiplyWords_low]
    exact unphilox_mul (by decide) _
  have word3 : (multiplyWords PHILOX_M0 (counter.word3 * UNPHILOX_M0)).1 =
      counter.word3 := by
    rw [multiplyWords_low]
    exact unphilox_mul (by decide) _
  have unmask : ∀ word high key : UInt32, high ^^^ (word ^^^ high ^^^ key) ^^^ key = word := by
    intro word high key
    rw [← UInt32.xor_assoc, ← UInt32.xor_assoc]
    rw [UInt32.xor_comm high word, UInt32.xor_assoc word, UInt32.xor_self, UInt32.xor_zero,
      UInt32.xor_assoc, UInt32.xor_self, UInt32.xor_zero]
  simp only [philoxRound, philoxUnround, word1, word3, unmask]

/-- One round of the loop.  `delta` keeps the kernel from comparing the two keys,
which unfolds their sums of words. -/
theorem philoxRounds_succ (rounds : Nat) (counter : Counter) (key : UInt32 × UInt32) :
    philoxRounds (rounds + 1) counter key =
      philoxRounds rounds (philoxRound counter key)
        (key.1 + PHILOX_W0, key.2 + PHILOX_W1) := by
  delta philoxRounds
  rfl

/-- Each round is a bijection, and so are the rounds together. -/
theorem philoxRounds_bijective (rounds : Nat) (key : UInt32 × UInt32) :
    Function.Bijective fun counter => philoxRounds rounds counter key := by
  induction rounds generalizing key with
  | zero => exact Function.bijective_id
  | succ rounds ih =>
      have first : Function.Bijective fun counter => philoxRound counter key :=
        Function.bijective_iff_has_inverse.mpr
          ⟨fun counter => philoxUnround counter key,
            fun counter => philoxUnround_philoxRound counter key,
            fun counter => philoxRound_philoxUnround counter key⟩
      have rest := ih (key.1 + PHILOX_W0, key.2 + PHILOX_W1)
      have split : (fun counter => philoxRounds (rounds + 1) counter key) =
          (fun counter =>
            philoxRounds rounds counter (key.1 + PHILOX_W0, key.2 + PHILOX_W1)) ∘
            fun counter => philoxRound counter key := by
        funext counter
        rw [philoxRounds_succ, Function.comp_apply]
      rw [split]
      exact rest.comp first

theorem philox4x32_10_bijective (key : UInt32 × UInt32) :
    Function.Bijective fun counter => philox4x32_10 counter key :=
  philoxRounds_bijective 10 key

/-! ### Packing a draw -/

/-- The counter `block_from_key` evaluates. -/
def packCounter (coord : UInt64) (drawIndex streamId : UInt32) : Counter :=
  ⟨coord.toUInt32, drawIndex, streamId, (coord >>> 32).toUInt32⟩

/-- A word of 64 bits is its two halves. -/
theorem halves_injective {one two : UInt64} (low : one.toUInt32 = two.toUInt32)
    (high : (one >>> 32).toUInt32 = (two >>> 32).toUInt32) : one = two := by
  have lows := congrArg UInt32.toNat low
  have highs := congrArg UInt32.toNat high
  have oneBound := one.toNat_lt
  have twoBound := two.toNat_lt
  have shift : (32 : UInt64).toNat % 64 = 32 := rfl
  simp only [UInt64.toNat_toUInt32, UInt64.toNat_shiftRight, shift,
    Nat.shiftRight_eq_div_pow] at lows highs
  apply UInt64.toNat_inj.mp
  omega

variable {drawIndex otherDraw streamId otherStream : UInt32}

theorem packCounter_injective {coord other : UInt64}
    (same : packCounter coord drawIndex streamId = packCounter other otherDraw otherStream) :
    coord = other ∧ drawIndex = otherDraw ∧ streamId = otherStream := by
  simp only [packCounter, Counter.mk.injEq] at same
  obtain ⟨low, draws, streams, high⟩ := same
  exact ⟨halves_injective low high, draws, streams⟩

/-- Under one key different draws read different blocks. -/
theorem blockFromKey_injective {key coord other : UInt64}
    (same : blockFromKey key coord drawIndex streamId =
      blockFromKey key other otherDraw otherStream) :
    coord = other ∧ drawIndex = otherDraw ∧ streamId = otherStream :=
  packCounter_injective ((philox4x32_10_bijective _).1 same)

/-! ### Iterable coordinates -/

/-- An argument as the validation sees it. -/
inductive Argument where
  | integer (value : Int)
  | other

inductive Rejection where
  | typeError (text : String)
  | valueError (text : String)

def RANK_LIMIT : Nat := 1 <<< 12

def LANE_LIMIT : Nat := 1 <<< 12

def ARRIVAL_LIMIT : Nat := 1 <<< 40

/-- `_bounded`; an accepted value is not negative. -/
def bounded (name : String) (value : Argument) (limit : Nat) : Except Rejection Nat :=
  match value with
  | .other => .error (.typeError s!"iterable {name} must be an integer")
  | .integer value =>
      if 0 ≤ value ∧ value < limit then .ok value.toNat
      else .error (.valueError s!"iterable {name} must be in [0, {limit})")

/-- Pack one validated iterable sample identity into a stream coordinate. -/
def iterableCoordinate (rank lane arrival : Argument) : Except Rejection Nat := do
  let rank ← bounded "rank" rank RANK_LIMIT
  let lane ← bounded "lane" lane LANE_LIMIT
  let arrival ← bounded "arrival" arrival ARRIVAL_LIMIT
  .ok ((rank <<< 52) ||| (lane <<< 40) ||| arrival)

theorem bounded_ok {name : String} {value : Argument} {limit result : Nat}
    (accepted : bounded name value limit = .ok result) :
    value = .integer result ∧ result < limit := by
  unfold bounded at accepted
  split at accepted
  · cases accepted
  · split at accepted
    · rename_i inRange
      cases accepted
      refine ⟨?_, ?_⟩
      · rw [Int.toNat_of_nonneg inRange.1]
      · omega
    · cases accepted

variable {rank lane arrival : Argument} {coordinate : Nat}

section

variable (accepted : iterableCoordinate rank lane arrival = .ok coordinate)

include accepted

/-- An accepted identity is packed as a number with three digits. -/
theorem iterableCoordinate_ok :
    ∃ rankValue laneValue arrivalValue : Nat,
      rank = .integer rankValue ∧ lane = .integer laneValue ∧
      arrival = .integer arrivalValue ∧
      rankValue < 2 ^ 12 ∧ laneValue < 2 ^ 12 ∧ arrivalValue < 2 ^ 40 ∧
      coordinate = rankValue * 2 ^ 52 + laneValue * 2 ^ 40 + arrivalValue := by
  cases rankEq : bounded "rank" rank RANK_LIMIT with
  | error => simp [iterableCoordinate, rankEq, bind, Except.bind] at accepted
  | ok rankValue =>
  cases laneEq : bounded "lane" lane LANE_LIMIT with
  | error => simp [iterableCoordinate, rankEq, laneEq, bind, Except.bind] at accepted
  | ok laneValue =>
  cases arrivalEq : bounded "arrival" arrival ARRIVAL_LIMIT with
  | error => simp [iterableCoordinate, rankEq, laneEq, arrivalEq, bind, Except.bind] at accepted
  | ok arrivalValue =>
      obtain ⟨rankIs, rankLess⟩ := bounded_ok rankEq
      obtain ⟨laneIs, laneLess⟩ := bounded_ok laneEq
      obtain ⟨arrivalIs, arrivalLess⟩ := bounded_ok arrivalEq
      simp only [iterableCoordinate, rankEq, laneEq, arrivalEq, bind, Except.bind,
        Except.ok.injEq] at accepted
      have laneLimit : laneValue < 2 ^ 12 := laneLess
      have arrivalLimit : arrivalValue < 2 ^ 40 := arrivalLess
      have laneShifted : laneValue <<< 40 < 2 ^ 52 := by
        rw [Nat.shiftLeft_eq]
        omega
      refine ⟨rankValue, laneValue, arrivalValue, rankIs, laneIs, arrivalIs, rankLess,
        laneLimit, arrivalLimit, ?_⟩
      rw [← accepted, ← Nat.shiftLeft_add_eq_or_of_lt laneShifted]
      have together : rankValue <<< 52 + laneValue <<< 40 =
          (rankValue * 2 ^ 12 + laneValue) <<< 40 := by
        simp only [Nat.shiftLeft_eq]
        omega
      rw [together, ← Nat.shiftLeft_add_eq_or_of_lt arrivalLimit]
      simp only [Nat.shiftLeft_eq]
      omega

/-- Every accepted identity names a coordinate of its own, within `u64`. -/
theorem iterableCoordinate_injective {otherRank otherLane otherArrival : Argument}
    (other : iterableCoordinate otherRank otherLane otherArrival = .ok coordinate) :
    rank = otherRank ∧ lane = otherLane ∧ arrival = otherArrival := by
  obtain ⟨r, l, a, rfl, rfl, rfl, rLess, lLess, aLess, packed⟩ :=
    iterableCoordinate_ok accepted
  obtain ⟨r', l', a', rfl, rfl, rfl, rLess', lLess', aLess', packed'⟩ :=
    iterableCoordinate_ok other
  have ranks : r = r' := by omega
  have lanes : l = l' := by omega
  have arrivals : a = a' := by omega
  exact ⟨by rw [ranks], by rw [lanes], by rw [arrivals]⟩

theorem iterableCoordinate_lt :
    coordinate < 2 ^ 64 := by
  obtain ⟨r, l, a, _, _, _, rLess, lLess, aLess, packed⟩ := iterableCoordinate_ok accepted
  omega

end

/-! ### Streams under one key -/

/-- Under every key the blocks of different draws differ: Philox is a bijection on
counters, the packing of a draw loses nothing, and neither does the packing of an
iterable sample into its coordinate. -/
theorem streams_separated :
    (∀ key : UInt32 × UInt32, Function.Bijective fun counter => philox4x32_10 counter key) ∧
    (∀ coord drawIndex streamId other otherDraw otherStream,
      packCounter coord drawIndex streamId = packCounter other otherDraw otherStream →
        (coord, drawIndex, streamId) = (other, otherDraw, otherStream)) ∧
    (∀ rank lane arrival otherRank otherLane otherArrival coordinate,
      iterableCoordinate rank lane arrival = .ok coordinate →
      iterableCoordinate otherRank otherLane otherArrival = .ok coordinate →
        (rank, lane, arrival) = (otherRank, otherLane, otherArrival)) ∧
    (∀ key coord drawIndex streamId other otherDraw otherStream,
      (coord, drawIndex, streamId) ≠ (other, otherDraw, otherStream) →
        blockFromKey key coord drawIndex streamId ≠
          blockFromKey key other otherDraw otherStream) ∧
    (∀ key rank lane arrival coordinate drawIndex streamId otherRank otherLane
        otherArrival otherCoordinate otherDraw otherStream,
      iterableCoordinate rank lane arrival = .ok coordinate →
      iterableCoordinate otherRank otherLane otherArrival = .ok otherCoordinate →
      (rank, lane, arrival, drawIndex, streamId) ≠
        (otherRank, otherLane, otherArrival, otherDraw, otherStream) →
        blockFromKey key (UInt64.ofNat coordinate) drawIndex streamId ≠
          blockFromKey key (UInt64.ofNat otherCoordinate) otherDraw otherStream) := by
  refine ⟨philox4x32_10_bijective, ?_, ?_, ?_, ?_⟩
  · intro coord drawIndex streamId other otherDraw otherStream same
    obtain ⟨rfl, rfl, rfl⟩ := packCounter_injective same
    rfl
  · intro rank lane arrival otherRank otherLane otherArrival coordinate accepted other
    obtain ⟨rfl, rfl, rfl⟩ := iterableCoordinate_injective accepted other
    rfl
  · intro key coord drawIndex streamId other otherDraw otherStream different same
    obtain ⟨rfl, rfl, rfl⟩ := blockFromKey_injective same
    exact different rfl
  · intro key rank lane arrival coordinate drawIndex streamId otherRank otherLane
      otherArrival otherCoordinate otherDraw otherStream accepted other different same
    obtain ⟨coordinates, rfl, rfl⟩ := blockFromKey_injective same
    have numbers := congrArg UInt64.toNat coordinates
    rw [UInt64.toNat_ofNat_of_lt' (iterableCoordinate_lt accepted),
      UInt64.toNat_ofNat_of_lt' (iterableCoordinate_lt other)] at numbers
    subst numbers
    obtain ⟨rfl, rfl, rfl⟩ := iterableCoordinate_injective accepted other
    exact different rfl

end Hyperloader.Random
