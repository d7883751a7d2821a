/-
Module: Hyperloader.Foundations.Feistel
Purpose: Feistel networks with additive rounds on two halves of different widths.
  The widths change places every round; an even number of rounds permutes the
  numbers below the joint width.
Trusted boundary: none
Main exports: feistelRounds, feistelNetwork, feistelNetwork_lt, feistelNetwork_inj
-/
import Mathlib.Data.Nat.ModEq
import Mathlib.Algebra.Order.Ring.Nat

namespace Hyperloader.Foundations

/-- The rounds left to run from the round given.  The low half moves up, and the
high half is masked by the word of the low one. -/
def feistelRounds (function : Nat → Nat → Nat) :
    Nat → Nat → Nat → Nat → Nat × Nat → Nat × Nat
  | 0, _, _, _, halves => halves
  | rounds + 1, round, highWidth, lowWidth, (high, low) =>
      feistelRounds function rounds (round + 1) lowWidth highWidth
        (low, (high + function round low) % 2 ^ highWidth)

/-- Split a number, run the rounds, and join the halves. -/
def feistelNetwork (function : Nat → Nat → Nat) (rounds highWidth lowWidth value : Nat) :
    Nat :=
  let halves := feistelRounds function rounds 0 highWidth lowWidth
    (value / 2 ^ lowWidth, value % 2 ^ lowWidth)
  halves.1 * 2 ^ lowWidth + halves.2

/-- Two halves that fit their widths. -/
def Fits (highWidth lowWidth : Nat) (halves : Nat × Nat) : Prop :=
  halves.1 < 2 ^ highWidth ∧ halves.2 < 2 ^ lowWidth

section Rounds

variable {function : Nat → Nat → Nat}

/-- A pair of rounds gives the widths back their places. -/
theorem feistelRounds_fits {pairs round highWidth lowWidth : Nat} {halves : Nat × Nat}
    (fits : Fits highWidth lowWidth halves) :
    Fits highWidth lowWidth
      (feistelRounds function (2 * pairs) round highWidth lowWidth halves) := by
  induction pairs generalizing round halves with
  | zero => exact fits
  | succ pairs ih =>
      apply ih
      constructor
      · exact Nat.mod_lt _ (Nat.two_pow_pos highWidth)
      · exact Nat.mod_lt _ (Nat.two_pow_pos lowWidth)

/-- A round is undone from its low half and the word it was masked by. -/
theorem feistelRounds_inj {rounds round highWidth lowWidth : Nat} {one two : Nat × Nat}
    (oneFits : Fits highWidth lowWidth one) (twoFits : Fits highWidth lowWidth two)
    (same : feistelRounds function rounds round highWidth lowWidth one =
      feistelRounds function rounds round highWidth lowWidth two) : one = two := by
  induction rounds generalizing round highWidth lowWidth one two with
  | zero => exact same
  | succ rounds ih =>
      obtain ⟨oneHigh, oneLow⟩ := one
      obtain ⟨twoHigh, twoLow⟩ := two
      have oneNext : Fits lowWidth highWidth
          (oneLow, (oneHigh + function round oneLow) % 2 ^ highWidth) :=
        ⟨oneFits.2, Nat.mod_lt _ (Nat.two_pow_pos highWidth)⟩
      have twoNext : Fits lowWidth highWidth
          (twoLow, (twoHigh + function round twoLow) % 2 ^ highWidth) :=
        ⟨twoFits.2, Nat.mod_lt _ (Nat.two_pow_pos highWidth)⟩
      have masked := ih oneNext twoNext same
      obtain ⟨lows, sums⟩ := Prod.mk.inj masked
      subst lows
      have highs : oneHigh ≡ twoHigh [MOD 2 ^ highWidth] :=
        Nat.ModEq.add_right_cancel' (function round oneLow) sums
      rw [Nat.ModEq.eq_of_lt_of_lt highs oneFits.1 twoFits.1]

theorem fits_split {highWidth lowWidth value : Nat} (small : value < 2 ^ (highWidth + lowWidth)) :
    Fits highWidth lowWidth (value / 2 ^ lowWidth, value % 2 ^ lowWidth) := by
  constructor
  · apply Nat.div_lt_of_lt_mul
    rw [Nat.mul_comm, ← Nat.pow_add]
    exact small
  · exact Nat.mod_lt _ (Nat.two_pow_pos lowWidth)

theorem fits_join {highWidth lowWidth : Nat} {halves : Nat × Nat}
    (fits : Fits highWidth lowWidth halves) :
    halves.1 * 2 ^ lowWidth + halves.2 < 2 ^ (highWidth + lowWidth) := by
  calc halves.1 * 2 ^ lowWidth + halves.2
      < halves.1 * 2 ^ lowWidth + 2 ^ lowWidth := Nat.add_lt_add_left fits.2 _
    _ = (halves.1 + 1) * 2 ^ lowWidth := (Nat.succ_mul _ _).symm
    _ ≤ 2 ^ highWidth * 2 ^ lowWidth := Nat.mul_le_mul_right _ fits.1
    _ = 2 ^ (highWidth + lowWidth) := (Nat.pow_add 2 _ _).symm

theorem join_inj {width oneHigh oneLow twoHigh twoLow : Nat}
    (oneFits : oneLow < 2 ^ width) (twoFits : twoLow < 2 ^ width)
    (same : oneHigh * 2 ^ width + oneLow = twoHigh * 2 ^ width + twoLow) :
    oneHigh = twoHigh ∧ oneLow = twoLow := by
  have lows := congrArg (· % 2 ^ width) same
  simp only [Nat.mul_add_mod_self_right, Nat.mod_eq_of_lt oneFits,
    Nat.mod_eq_of_lt twoFits] at lows
  subst lows
  exact ⟨Nat.eq_of_mul_eq_mul_right (Nat.two_pow_pos width) (Nat.add_right_cancel same), rfl⟩

variable {pairs highWidth lowWidth : Nat}

theorem feistelNetwork_lt {value : Nat} (small : value < 2 ^ (highWidth + lowWidth)) :
    feistelNetwork function (2 * pairs) highWidth lowWidth value <
      2 ^ (highWidth + lowWidth) :=
  fits_join (feistelRounds_fits (fits_split small))

/-- The network loses nothing, whatever the words of its rounds are. -/
theorem feistelNetwork_inj {one two : Nat} (oneSmall : one < 2 ^ (highWidth + lowWidth))
    (twoSmall : two < 2 ^ (highWidth + lowWidth))
    (same : feistelNetwork function (2 * pairs) highWidth lowWidth one =
      feistelNetwork function (2 * pairs) highWidth lowWidth two) : one = two := by
  have oneFits := fits_split oneSmall
  have twoFits := fits_split twoSmall
  obtain ⟨highs, lows⟩ := join_inj (feistelRounds_fits oneFits).2
    (feistelRounds_fits twoFits).2 same
  have halves := feistelRounds_inj oneFits twoFits (Prod.ext highs lows)
  obtain ⟨quotients, remainders⟩ := Prod.mk.inj halves
  rw [← Nat.div_add_mod one (2 ^ lowWidth), ← Nat.div_add_mod two (2 ^ lowWidth),
    quotients, remainders]

end Rounds

end Hyperloader.Foundations
