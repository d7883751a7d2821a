/-
Module: Hyperloader.Random.Permutation
Purpose: The permutations of engine/src/rng/permutation.rs: the cycle-walked
  Feistel network of large domains and the materialised shuffle of small ones.
Trusted boundary: none
Main exports:
  feistelCipher, feistelPermute, materializedPermutation, permutationIndex,
  permutationIndex_bijective
-/
import Mathlib.Data.Nat.Size
import Mathlib.Data.List.Perm.Basic
import Mathlib.Logic.Equiv.Defs
import Hyperloader.Foundations.CycleWalk
import Hyperloader.Foundations.Feistel
import Hyperloader.Process.Rng

namespace Hyperloader.Random

open Foundations Process

def PERM_TAG : UInt64 := 2

def PERM_ROUND_TAG : UInt32 := 3

/-- The first domain size that uses the stateless Feistel permutation. -/
def FEISTEL_THRESHOLD : UInt64 := 1 <<< (17 : UInt64)

def lowMask (width : Nat) : UInt32 :=
  if width = 32 then 0xFFFFFFFF else (1 <<< UInt32.ofNat width) - 1

def permutationKey (rootSeed epoch : UInt64) : UInt32 × UInt32 :=
  let folded := splitmix64 (key64 rootSeed epoch ^^^ ((PERM_TAG <<< 1) ||| 1))
  (folded.toUInt32, (folded >>> 32).toUInt32)

/-- The word of one round. -/
def roundWord (key : UInt32 × UInt32) (round low : UInt32) : UInt32 :=
  (philox4x32_10 ⟨low, round, PERM_ROUND_TAG, 0⟩ key).word0

/-- The loop of `feistel_cipher`, for the rounds left to run. -/
def feistelCipherRounds (key : UInt32 × UInt32) :
    Nat → UInt32 → Nat → Nat → UInt32 × UInt32 → UInt32 × UInt32
  | 0, _, _, _, halves => halves
  | rounds + 1, round, highWidth, lowWidth, (high, low) =>
      let function := roundWord key round low &&& lowMask highWidth
      feistelCipherRounds key rounds (round + 1) lowWidth highWidth
        (low, (high + function) &&& lowMask highWidth)

def feistelCipher (value : UInt64) (bits : Nat) (key : UInt32 × UInt32) : UInt64 :=
  let lowerWidth := bits / 2
  let halves := feistelCipherRounds key 8 0 (bits - lowerWidth) lowerWidth
    ((value >>> UInt64.ofNat lowerWidth).toUInt32, value.toUInt32 &&& lowMask lowerWidth)
  (halves.1.toUInt64 <<< UInt64.ofNat lowerWidth) ||| halves.2.toUInt64

/-- The zero bits above the top bit. -/
def leadingZeros (value : UInt64) : Nat := 64 - value.toNat.size

/-- What a permutation answers besides a value: the position or domain is refused,
or the draw counter passes its last value. -/
inductive PermutationFailure where
  | outside
  | drawOverflow

/-- `feistel_permute`; `none` while the walk has not come back into the domain. -/
def feistelPermute (passes : Nat) (rootSeed epoch domain position : UInt64) :
    Option (Except PermutationFailure UInt64) :=
  if domain < FEISTEL_THRESHOLD ∨ domain ≤ position then
    some (.error .outside)
  else
    let bits := 64 - leadingZeros (domain - 1)
    let key := permutationKey rootSeed epoch
    (cycleWalk (fun candidate => feistelCipher candidate bits key)
      (fun candidate => decide (candidate < domain)) passes position).map .ok

/-- The rejection loop: words are drawn until one lies below the limit. -/
def drawSelected (key : UInt32 × UInt32) (modulus limit : UInt64) :
    Nat → UInt32 → Option (Except PermutationFailure (Nat × UInt32))
  | 0, _ => none
  | passes + 1, drawOrdinal =>
      let word := (philox4x32_10 ⟨drawOrdinal, 8, PERM_ROUND_TAG, 0⟩ key).word0
      if drawOrdinal = 0xFFFFFFFF then some (.error .drawOverflow)
      else if word.toUInt64 < limit then
        some (.ok ((word.toUInt64 % modulus).toNat, drawOrdinal + 1))
      else drawSelected key modulus limit passes (drawOrdinal + 1)

/-- The shuffle from the upper end down. -/
def shuffleDown (key : UInt32 × UInt32) (passes : Nat) :
    Nat → Array UInt32 → UInt32 → Option (Except PermutationFailure (Array UInt32 × UInt32))
  | 0, permutation, drawOrdinal => some (.ok (permutation, drawOrdinal))
  | 1, permutation, drawOrdinal => some (.ok (permutation, drawOrdinal))
  | upper + 2, permutation, drawOrdinal =>
      let modulus := UInt64.ofNat (upper + 2)
      let words : UInt64 := 1 <<< (32 : UInt64)
      match drawSelected key modulus (words - words % modulus) passes drawOrdinal with
      | none => none
      | some (.error failure) => some (.error failure)
      | some (.ok (selected, drawOrdinal)) =>
          shuffleDown key passes (upper + 1)
            (permutation.swapIfInBounds (upper + 1) selected) drawOrdinal

def materializedPermutationWithDraws (passes : Nat) (rootSeed epoch : UInt64)
    (domain : UInt32) : Option (Except PermutationFailure (Array UInt32 × UInt32)) :=
  if FEISTEL_THRESHOLD ≤ domain.toUInt64 then some (.error .outside)
  else
    shuffleDown (permutationKey rootSeed epoch) passes domain.toNat
      ((Array.range domain.toNat).map UInt32.ofNat) 0

/-- `materialized_permutation` -/
def materializedPermutation (passes : Nat) (rootSeed epoch : UInt64) (domain : UInt32) :
    Option (Except PermutationFailure (Array UInt32)) :=
  (materializedPermutationWithDraws passes rootSeed epoch domain).map
    (Except.map Prod.fst)

/-- `permutation_index`, on either side of the threshold. -/
def permutationIndex (passes : Nat) (rootSeed epoch domain position : UInt64) :
    Option (Except PermutationFailure UInt64) :=
  if domain ≤ position then some (.error .outside)
  else if domain < FEISTEL_THRESHOLD then
    (materializedPermutation passes rootSeed epoch domain.toUInt32).map
      (Except.map fun permutation => permutation[position.toNat]!.toUInt64)
  else feistelPermute passes rootSeed epoch domain position

/-! ### The network in numbers -/

theorem lowMask_toNat {width : Nat} (small : width ≤ 32) :
    (lowMask width).toNat = 2 ^ width - 1 := by
  unfold lowMask
  split
  · rename_i full
    rw [full]
    rfl
  · have less : width < 32 := Nat.lt_of_le_of_ne small ‹_›
    have power : 2 ^ width < 2 ^ 32 := Nat.pow_lt_pow_right (by decide) less
    have shifted : ((1 : UInt32) <<< UInt32.ofNat width).toNat = 2 ^ width := by
      have word : width < UInt32.size := Nat.lt_trans less (by decide)
      rw [UInt32.toNat_shiftLeft, UInt32.toNat_ofNat_of_lt' word, UInt32.toNat_one,
        Nat.mod_eq_of_lt less, Nat.one_shiftLeft, Nat.mod_eq_of_lt power]
    rw [UInt32.toNat_sub_of_le, shifted]
    · rfl
    · rw [UInt32.le_iff_toNat_le, shifted]
      exact Nat.one_le_two_pow

theorem and_lowMask {width : Nat} (small : width ≤ 32) (word : UInt32) :
    (word &&& lowMask width).toNat = word.toNat % 2 ^ width := by
  rw [UInt32.toNat_and, lowMask_toNat small, Nat.and_two_pow_sub_one_eq_mod]

theorem mod_two_pow_mod {width full : Nat} (small : width ≤ full) (value : Nat) :
    value % 2 ^ full % 2 ^ width = value % 2 ^ width :=
  Nat.mod_mod_of_dvd value (Nat.pow_dvd_pow 2 small)

/-- The words of the rounds, as numbers. -/
def roundNumber (key : UInt32 × UInt32) (round low : Nat) : Nat :=
  (roundWord key (UInt32.ofNat round) (UInt32.ofNat low)).toNat

def halvesToNat (halves : UInt32 × UInt32) : Nat × Nat := (halves.1.toNat, halves.2.toNat)

theorem feistelCipherRounds_toNat (key : UInt32 × UInt32) {rounds highWidth lowWidth : Nat}
    (highSmall : highWidth ≤ 32) (lowSmall : lowWidth ≤ 32) (round : Nat)
    (halves : UInt32 × UInt32) :
    halvesToNat
        (feistelCipherRounds key rounds (UInt32.ofNat round) highWidth lowWidth halves) =
      feistelRounds (roundNumber key) rounds round highWidth lowWidth (halvesToNat halves) := by
  induction rounds generalizing round highWidth lowWidth halves with
  | zero => rfl
  | succ rounds ih =>
      obtain ⟨high, low⟩ := halves
      have next : UInt32.ofNat round + 1 = UInt32.ofNat (round + 1) := by
        rw [UInt32.ofNat_add]
        rfl
      have masked : ((high + (roundWord key (UInt32.ofNat round) low &&& lowMask highWidth)) &&&
          lowMask highWidth).toNat =
          (high.toNat + roundNumber key round low.toNat) % 2 ^ highWidth := by
        rw [and_lowMask highSmall, UInt32.toNat_add, mod_two_pow_mod highSmall,
          and_lowMask highSmall, Nat.add_mod_mod, roundNumber, UInt32.ofNat_toNat]
      rw [feistelCipherRounds, next, ih lowSmall highSmall]
      simp only [halvesToNat, masked, feistelRounds]

variable {bits : Nat}

/-- On the values of its width the cipher is the network. -/
theorem feistelCipher_toNat (key : UInt32 × UInt32) (small : bits ≤ 64) {value : UInt64}
    (within : value.toNat < 2 ^ bits) :
    (feistelCipher value bits key).toNat =
      feistelNetwork (roundNumber key) (2 * 4) (bits - bits / 2) (bits / 2) value.toNat := by
  have lowSmall : bits / 2 ≤ 32 := by omega
  have highSmall : bits - bits / 2 ≤ 32 := by omega
  have widths : bits - bits / 2 + bits / 2 = bits := by omega
  have split : Fits (bits - bits / 2) (bits / 2)
      (value.toNat / 2 ^ (bits / 2), value.toNat % 2 ^ (bits / 2)) :=
    fits_split (by rwa [widths])
  have shift : (UInt64.ofNat (bits / 2)).toNat % 64 = bits / 2 := by
    have word : bits / 2 < UInt64.size := Nat.lt_of_le_of_lt lowSmall (by decide)
    rw [UInt64.toNat_ofNat_of_lt' word]
    omega
  have start : halvesToNat ((value >>> UInt64.ofNat (bits / 2)).toUInt32,
      value.toUInt32 &&& lowMask (bits / 2)) =
      (value.toNat / 2 ^ (bits / 2), value.toNat % 2 ^ (bits / 2)) := by
    have highBound : value.toNat / 2 ^ (bits / 2) < 2 ^ 32 :=
      Nat.lt_of_lt_of_le split.1 (Nat.pow_le_pow_right (by decide) highSmall)
    rw [halvesToNat, UInt64.toNat_toUInt32, UInt64.toNat_shiftRight, shift,
      Nat.shiftRight_eq_div_pow, Nat.mod_eq_of_lt highBound, and_lowMask lowSmall,
      UInt64.toNat_toUInt32, mod_two_pow_mod lowSmall]
  have rounds := @feistelCipherRounds_toNat key 8 _ _ highSmall lowSmall 0
    ((value >>> UInt64.ofNat (bits / 2)).toUInt32, value.toUInt32 &&& lowMask (bits / 2))
  rw [start] at rounds
  have fits := @feistelRounds_fits (roundNumber key) 4 0 _ _ _ split
  have joined := fits_join fits
  rw [feistelNetwork]
  rw [← rounds] at fits joined ⊢
  have bounded : 2 ^ (bits - bits / 2 + bits / 2) ≤ 2 ^ 64 :=
    Nat.pow_le_pow_right (by decide) (by omega)
  have room : ∀ high low : UInt32, low.toNat < 2 ^ (bits / 2) →
      high.toNat * 2 ^ (bits / 2) + low.toNat < 2 ^ 64 →
      ((high.toUInt64 <<< UInt64.ofNat (bits / 2)) ||| low.toUInt64).toNat =
        high.toNat * 2 ^ (bits / 2) + low.toNat := by
    intro high low lowLess total
    have highLess : high.toNat * 2 ^ (bits / 2) < 2 ^ 64 := by omega
    rw [UInt64.toNat_or, UInt64.toNat_shiftLeft, shift, UInt32.toNat_toUInt64,
      UInt32.toNat_toUInt64, Nat.shiftLeft_eq, Nat.mod_eq_of_lt highLess,
      ← Nat.shiftLeft_eq, ← Nat.shiftLeft_add_eq_or_of_lt lowLess]
  exact room _ _ fits.2 (Nat.lt_of_lt_of_le joined bounded)

/-! ### Large domains -/

/-- The width of the positions of a domain. -/
def domainBits (domain : UInt64) : Nat := 64 - leadingZeros (domain - 1)

theorem domainBits_le (domain : UInt64) : domainBits domain ≤ 64 := Nat.sub_le _ _

variable {domain : UInt64}

theorem domainBits_eq (positive : 0 < domain.toNat) :
    domainBits domain = (domain.toNat - 1).size := by
  have last : (domain - 1).toNat = domain.toNat - 1 := by
    apply UInt64.toNat_sub_of_le
    rw [UInt64.le_iff_toNat_le]
    exact positive
  have sizes : (domain.toNat - 1).size ≤ 64 :=
    Nat.size_le.mpr (Nat.lt_of_le_of_lt (Nat.sub_le _ _) domain.toNat_lt)
  rw [domainBits, leadingZeros, last]
  exact Nat.sub_sub_self sizes

/-- Every position of the domain fits the width. -/
theorem lt_two_pow_domainBits {domain position : UInt64} (inside : position < domain) :
    position.toNat < 2 ^ domainBits domain := by
  have less : position.toNat < domain.toNat := inside
  rw [domainBits_eq (Nat.lt_of_le_of_lt (Nat.zero_le _) less)]
  exact Nat.lt_of_le_of_lt (Nat.le_sub_one_of_lt less) (Nat.lt_size_self _)

/-- The values of a width, as words. -/
def valuesBelow (bits : Nat) : Finset UInt64 := (Finset.range (2 ^ bits)).image UInt64.ofNat

theorem mem_valuesBelow (small : bits ≤ 64) {value : UInt64} :
    value ∈ valuesBelow bits ↔ value.toNat < 2 ^ bits := by
  have bounded : 2 ^ bits ≤ 2 ^ 64 := Nat.pow_le_pow_right (by decide) small
  unfold valuesBelow
  rw [Finset.mem_image]
  constructor
  · rintro ⟨number, member, rfl⟩
    have less := Finset.mem_range.mp member
    rw [UInt64.toNat_ofNat_of_lt' (Nat.lt_of_lt_of_le less bounded)]
    exact less
  · intro less
    exact ⟨value.toNat, Finset.mem_range.mpr less, UInt64.ofNat_toNat⟩

theorem card_valuesBelow_le (small : bits ≤ 64) : (valuesBelow bits).card ≤ 2 ^ 64 := by
  calc (valuesBelow bits).card ≤ (Finset.range (2 ^ bits)).card := Finset.card_image_le
    _ = 2 ^ bits := Finset.card_range _
    _ ≤ 2 ^ 64 := Nat.pow_le_pow_right (by decide) small

/-- The cipher permutes the values of its width. -/
theorem feistelCipher_mapsTo (key : UInt32 × UInt32) (small : bits ≤ 64) :
    ∀ value ∈ valuesBelow bits, feistelCipher value bits key ∈ valuesBelow bits := by
  intro value member
  have within := (mem_valuesBelow small).mp member
  have widths : bits - bits / 2 + bits / 2 = bits := by omega
  rw [mem_valuesBelow small, feistelCipher_toNat key small within]
  have fits : feistelNetwork (roundNumber key) (2 * 4) (bits - bits / 2) (bits / 2)
      value.toNat < 2 ^ (bits - bits / 2 + bits / 2) :=
    feistelNetwork_lt (by rwa [widths])
  rwa [widths] at fits

/-- The cipher maps no two values of its width to one. -/
theorem feistelCipher_injOn (key : UInt32 × UInt32) (small : bits ≤ 64) :
    Set.InjOn (fun value => feistelCipher value bits key) (valuesBelow bits) := by
  intro one oneMember two twoMember same
  have oneWithin := (mem_valuesBelow small).mp oneMember
  have twoWithin := (mem_valuesBelow small).mp twoMember
  have widths : bits - bits / 2 + bits / 2 = bits := by omega
  have numbers := congrArg UInt64.toNat same
  simp only [feistelCipher_toNat key small oneWithin,
    feistelCipher_toNat key small twoWithin] at numbers
  apply UInt64.toNat_inj.mp
  exact feistelNetwork_inj (by rwa [widths]) (by rwa [widths]) numbers

/-- Injective answers inside a domain are a permutation of it. -/
theorem exists_perm_of_answers {domain : UInt64} {answer : UInt64 → UInt64}
    (maps : ∀ position < domain, answer position < domain)
    (injective : ∀ one < domain, ∀ two < domain, answer one = answer two → one = two) :
    ∃ σ : Equiv.Perm (Fin domain.toNat), ∀ index : Fin domain.toNat,
      answer (UInt64.ofNat index) = UInt64.ofNat (σ index) := by
  have word : ∀ index : Fin domain.toNat, (UInt64.ofNat index).toNat = index := by
    intro index
    exact UInt64.toNat_ofNat_of_lt' (Nat.lt_trans index.isLt domain.toNat_lt)
  have inside : ∀ index : Fin domain.toNat, UInt64.ofNat index < domain := by
    intro index
    rw [UInt64.lt_iff_toNat_lt, word]
    exact index.isLt
  let permute : Fin domain.toNat → Fin domain.toNat := fun index =>
    ⟨(answer (UInt64.ofNat index)).toNat, maps _ (inside index)⟩
  have permuteInjective : Function.Injective permute := by
    intro one two same
    have numbers : (permute one).val = (permute two).val := by rw [same]
    have answers := UInt64.toNat_inj.mp numbers
    have words := injective _ (inside one) _ (inside two) answers
    apply Fin.ext
    rw [← word one, ← word two, words]
  refine ⟨Equiv.ofBijective permute (Finite.injective_iff_bijective.mp permuteInjective), ?_⟩
  intro index
  exact UInt64.ofNat_toNat.symm

/-- On a large domain every walk ends, and the walks together permute the domain. -/
theorem feistelPermute_perm (rootSeed epoch : UInt64) (large : FEISTEL_THRESHOLD ≤ domain) :
    ∃ σ : Equiv.Perm (Fin domain.toNat), ∀ passes, 2 ^ 64 ≤ passes →
      ∀ index : Fin domain.toNat,
        feistelPermute passes rootSeed epoch domain (UInt64.ofNat index) =
          some (.ok (UInt64.ofNat (σ index))) := by
  let key := permutationKey rootSeed epoch
  let walk := cycleWalk (fun candidate => feistelCipher candidate (domainBits domain) key)
    (fun candidate => decide (candidate < domain))
  have small := domainBits_le domain
  have member : ∀ position < domain, position ∈ valuesBelow (domainBits domain) :=
    fun position inside => (mem_valuesBelow small).mpr (lt_two_pow_domainBits inside)
  have ends : ∀ position < domain, ∃ result, walk (2 ^ 64) position = some result := by
    intro position inside
    have within : ∃ result, walk (valuesBelow (domainBits domain)).card position = some result :=
      cycleWalk_isSome (feistelCipher_mapsTo key small) (feistelCipher_injOn key small)
        (member position inside) (decide_eq_true inside)
    obtain ⟨result, ended⟩ := within
    exact ⟨result, cycleWalk_mono (card_valuesBelow_le small) ended⟩
  have answered : ∀ position < domain,
      walk (2 ^ 64) position = some ((walk (2 ^ 64) position).getD 0) := by
    intro position inside
    obtain ⟨result, ended⟩ := ends position inside
    rw [ended]
    rfl
  have maps : ∀ position < domain, (walk (2 ^ 64) position).getD 0 < domain := by
    intro position inside
    obtain ⟨_, _, _, stopped, _⟩ := cycleWalk_eq_some_iff.mp (answered position inside)
    exact of_decide_eq_true stopped
  have apart : ∀ one < domain, ∀ two < domain,
      (walk (2 ^ 64) one).getD 0 = (walk (2 ^ 64) two).getD 0 → one = two := by
    intro one oneInside two twoInside same
    have oneEnd := answered one oneInside
    have twoEnd := answered two twoInside
    rw [same] at oneEnd
    exact cycleWalk_inj (feistelCipher_mapsTo key small) (feistelCipher_injOn key small)
      (member one oneInside) (member two twoInside) (decide_eq_true oneInside)
      (decide_eq_true twoInside) oneEnd twoEnd
  obtain ⟨σ, agree⟩ := exists_perm_of_answers maps apart
  refine ⟨σ, ?_⟩
  intro passes enough index
  have inside : UInt64.ofNat index < domain := by
    rw [UInt64.lt_iff_toNat_lt,
      UInt64.toNat_ofNat_of_lt' (Nat.lt_trans index.isLt domain.toNat_lt)]
    exact index.isLt
  have refused : ¬(domain < FEISTEL_THRESHOLD ∨ domain ≤ UInt64.ofNat index) := by
    rw [not_or, UInt64.not_lt, UInt64.not_le]
    exact ⟨large, inside⟩
  have ended : walk passes (UInt64.ofNat index) = some (UInt64.ofNat (σ index)) := by
    rw [← agree index]
    exact cycleWalk_mono enough (answered _ inside)
  rw [feistelPermute, if_neg refused]
  exact congrArg (Option.map Except.ok) ended

/-! ### Small domains -/

variable {key : UInt32 × UInt32}

theorem drawSelected_mono {modulus limit : UInt64} {passes more : Nat} {drawOrdinal : UInt32}
    {result : Except PermutationFailure (Nat × UInt32)} (le : passes ≤ more)
    (drawn : drawSelected key modulus limit passes drawOrdinal = some result) :
    drawSelected key modulus limit more drawOrdinal = some result := by
  induction passes generalizing more drawOrdinal with
  | zero => cases drawn
  | succ passes ih =>
      obtain ⟨more, rfl⟩ := Nat.exists_eq_succ_of_ne_zero (Nat.ne_zero_of_lt le)
      rw [drawSelected] at drawn ⊢
      split
      · rename_i overflow
        rwa [if_pos overflow] at drawn
      · rename_i inRange
        rw [if_neg inRange] at drawn
        split
        · rename_i accepted
          rwa [if_pos accepted] at drawn
        · rename_i rejected
          rw [if_neg rejected] at drawn
          exact ih (Nat.le_of_succ_le_succ le) drawn

theorem swapIfInBounds_perm {Value : Type*} (values : Array Value) (one two : Nat) :
    (values.swapIfInBounds one two).Perm values := by
  rw [Array.swapIfInBounds_def]
  split
  · split
    · exact Array.swap_perm _ _
    · exact Array.Perm.refl values
  · exact Array.Perm.refl values

/-- The shuffle only exchanges entries. -/
theorem shuffleDown_perm {passes upper : Nat} {permutation result : Array UInt32}
    {drawOrdinal draws : UInt32} (shuffled : shuffleDown key passes upper permutation drawOrdinal =
      some (.ok (result, draws))) : result.Perm permutation := by
  induction upper using Nat.strongRecOn generalizing permutation drawOrdinal with
  | _ upper ih =>
      match upper with
      | 0 =>
          cases shuffled
          exact Array.Perm.refl result
      | 1 =>
          cases shuffled
          exact Array.Perm.refl result
      | upper + 2 =>
          rw [shuffleDown] at shuffled
          split at shuffled
          · cases shuffled
          · cases shuffled
          · exact (ih (upper + 1) (Nat.lt_succ_self _) shuffled).trans
              (swapIfInBounds_perm permutation _ _)

variable {permutation : Array UInt32}

/-- More passes give the same shuffle. -/
theorem shuffleDown_mono {passes more upper : Nat} {drawOrdinal : UInt32}
    {result : Except PermutationFailure (Array UInt32 × UInt32)} (le : passes ≤ more)
    (shuffled : shuffleDown key passes upper permutation drawOrdinal = some result) :
    shuffleDown key more upper permutation drawOrdinal = some result := by
  induction upper using Nat.strongRecOn generalizing permutation drawOrdinal with
  | _ upper ih =>
      match upper with
      | 0 => exact shuffled
      | 1 => exact shuffled
      | upper + 2 =>
          rw [shuffleDown] at shuffled ⊢
          split at shuffled
          · cases shuffled
          · rename_i failure drawn
            rw [drawSelected_mono le drawn]
            exact shuffled
          · rename_i selected next drawn
            rw [drawSelected_mono le drawn]
            exact ih (upper + 1) (Nat.lt_succ_self _) shuffled

/-- More passes change nothing once the list is there. -/
theorem materializedPermutation_mono {passes more : Nat} {rootSeed epoch : UInt64}
    {domain : UInt32} {result : Except PermutationFailure (Array UInt32)} (le : passes ≤ more)
    (returned : materializedPermutation passes rootSeed epoch domain = some result) :
    materializedPermutation more rootSeed epoch domain = some result := by
  unfold materializedPermutation materializedPermutationWithDraws at returned ⊢
  split
  · rename_i refused
    rwa [if_pos refused] at returned
  · rename_i allowed
    rw [if_neg allowed] at returned
    obtain ⟨shuffled, answered, rfl⟩ := Option.map_eq_some_iff.mp returned
    rw [shuffleDown_mono le answered]
    rfl

/-- A materialised list is a permutation of the domain. -/
theorem materializedPermutation_perm {passes : Nat} {rootSeed epoch : UInt64} {domain : UInt32}
    (returned : materializedPermutation passes rootSeed epoch domain =
      some (.ok permutation)) :
    (permutation.toList.map UInt32.toNat).Perm (List.range domain.toNat) := by
  unfold materializedPermutation materializedPermutationWithDraws at returned
  split at returned
  · cases returned
  · obtain ⟨shuffled, answered, mapped⟩ := Option.map_eq_some_iff.mp returned
    cases shuffled with
    | error failure => cases mapped
    | ok shuffled =>
        cases mapped
        have entries := (Array.perm_iff_toList_perm.mp (shuffleDown_perm answered)).map
          UInt32.toNat
        have counted : (((Array.range domain.toNat).map UInt32.ofNat).toList.map
            UInt32.toNat) = List.range domain.toNat := by
          rw [Array.toList_map, Array.toList_range, List.map_map]
          conv_rhs => rw [← List.map_id (List.range domain.toNat)]
          apply List.map_congr_left
          intro number member
          have less := List.mem_range.mp member
          exact UInt32.toNat_ofNat_of_lt' (Nat.lt_trans less domain.toNat_lt)
        rwa [counted] at entries

/-- Reading a materialised list permutes the domain. -/
theorem exists_perm_of_list
    (perm : (permutation.toList.map UInt32.toNat).Perm (List.range domain.toNat)) :
    ∃ σ : Equiv.Perm (Fin domain.toNat), ∀ index : Fin domain.toNat,
      permutation[(UInt64.ofNat index).toNat]!.toUInt64 = UInt64.ofNat (σ index) := by
  have size : permutation.size = domain.toNat := by
    have lengths := perm.length_eq
    rwa [List.length_map, List.length_range, Array.length_toList] at lengths
  have entry : ∀ position < domain, ∃ less : position.toNat < permutation.size,
      permutation[position.toNat]!.toUInt64.toNat = permutation[position.toNat].toNat := by
    intro position inside
    have less : position.toNat < permutation.size := by
      rw [size]
      exact inside
    exact ⟨less, by rw [getElem!_pos permutation position.toNat less, UInt32.toNat_toUInt64]⟩
  refine @exists_perm_of_answers domain
    (fun position => permutation[position.toNat]!.toUInt64) ?_ ?_
  · intro position inside
    obtain ⟨less, number⟩ := entry position inside
    rw [UInt64.lt_iff_toNat_lt, number]
    apply List.mem_range.mp
    apply perm.mem_iff.mp
    exact List.mem_map_of_mem (Array.getElem_mem_toList less)
  · intro one oneInside two twoInside same
    obtain ⟨oneLess, oneNumber⟩ := entry one oneInside
    obtain ⟨twoLess, twoNumber⟩ := entry two twoInside
    have numbers := congrArg UInt64.toNat same
    simp only [oneNumber, twoNumber] at numbers
    have distinct := perm.nodup_iff.mpr List.nodup_range
    have length : (permutation.toList.map UInt32.toNat).length = permutation.size := by
      rw [List.length_map, Array.length_toList]
    have oneBound := length.symm ▸ oneLess
    have twoBound := length.symm ▸ twoLess
    have entries : (permutation.toList.map UInt32.toNat)[one.toNat] =
        (permutation.toList.map UInt32.toNat)[two.toNat] := by
      rw [List.getElem_map, List.getElem_map]
      exact numbers
    apply UInt64.toNat_inj.mp
    exact (List.Nodup.getElem_inj_iff distinct).mp entries

/-- `permutation_index` is a bijection of the domain.  On a large domain every walk
ends; on a small one the list is a permutation whenever the shuffle returns. -/
theorem permutationIndex_bijective (rootSeed epoch domain : UInt64) :
    (FEISTEL_THRESHOLD ≤ domain →
      ∃ σ : Equiv.Perm (Fin domain.toNat), ∀ passes, 2 ^ 64 ≤ passes →
        ∀ index : Fin domain.toNat,
          permutationIndex passes rootSeed epoch domain (UInt64.ofNat index) =
            some (.ok (UInt64.ofNat (σ index)))) ∧
    (domain < FEISTEL_THRESHOLD → ∀ passes permutation,
      materializedPermutation passes rootSeed epoch domain.toUInt32 =
        some (.ok permutation) →
      (permutation.toList.map UInt32.toNat).Perm (List.range domain.toNat) ∧
      ∃ σ : Equiv.Perm (Fin domain.toNat), ∀ more, passes ≤ more →
        ∀ index : Fin domain.toNat,
          permutationIndex more rootSeed epoch domain (UInt64.ofNat index) =
            some (.ok (UInt64.ofNat (σ index)))) := by
  have inside : ∀ index : Fin domain.toNat, ¬domain ≤ UInt64.ofNat index := by
    intro index
    rw [UInt64.not_le, UInt64.lt_iff_toNat_lt,
      UInt64.toNat_ofNat_of_lt' (Nat.lt_trans index.isLt domain.toNat_lt)]
    exact index.isLt
  constructor
  · intro large
    obtain ⟨σ, walks⟩ := feistelPermute_perm rootSeed epoch large
    refine ⟨σ, ?_⟩
    intro passes enough index
    rw [permutationIndex, if_neg (inside index), if_neg (UInt64.not_lt.mpr large)]
    exact walks passes enough index
  · intro small passes permutation returned
    have number : domain.toUInt32.toNat = domain.toNat := by
      have less : domain.toNat < FEISTEL_THRESHOLD.toNat := small
      have word : FEISTEL_THRESHOLD.toNat ≤ 2 ^ 32 := by decide
      rw [UInt64.toNat_toUInt32]
      exact Nat.mod_eq_of_lt (Nat.lt_of_lt_of_le less word)
    have perm := materializedPermutation_perm returned
    rw [number] at perm
    obtain ⟨σ, reads⟩ := exists_perm_of_list perm
    refine ⟨perm, σ, ?_⟩
    intro more le index
    rw [permutationIndex, if_neg (inside index), if_pos small,
      materializedPermutation_mono le returned]
    exact congrArg (fun word => some (Except.ok word)) (reads index)

end Hyperloader.Random
