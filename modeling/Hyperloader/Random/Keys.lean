/-
Module: Hyperloader.Random.Keys
Purpose: Which epochs and which root seeds share a key: the permutation key and the sample
  streams of an epoch, natively and in the fallback.
Trusted boundary: none
Main exports: key64_seed_iff, permutationKey_eq_iff, keys_apart
-/
import Hyperloader.Random.Fallback
import Hyperloader.Random.Philox
import Hyperloader.Random.Surfaces

namespace Hyperloader.Random

open Process

/-- In one epoch every root seed has its own key. -/
theorem key64_seed_iff (one two epoch : UInt64) : key64 one epoch = key64 two epoch ↔ one = two := by
  constructor
  · intro same
    apply splitmix64_injective
    apply UInt64.toBitVec_inj.mp
    have bits := congrArg UInt64.toBitVec same
    simp only [key64, UInt64.toBitVec_xor] at bits
    exact (BitVec.xor_left_inj _).mp bits
  · rintro rfl
    rfl

/-- A permutation key tells the epoch key it was folded from. -/
theorem permutationKey_eq_iff (rootSeed one two : UInt64) :
    permutationKey rootSeed one = permutationKey rootSeed two ↔
      key64 rootSeed one = key64 rootSeed two := by
  constructor
  · intro same
    obtain ⟨low, high⟩ := Prod.mk.inj same
    have folded := splitmix64_injective (halves_injective low high)
    apply UInt64.toBitVec_inj.mp
    have bits := congrArg UInt64.toBitVec folded
    simp only [UInt64.toBitVec_xor] at bits
    exact (BitVec.xor_left_inj _).mp bits
  · intro same
    rw [permutationKey, permutationKey, same]

/-- The stream installed for a coordinate tells its epoch key. -/
theorem sampleRngContext_eq_iff (rootSeed one two coordinate : UInt64) :
    sampleRngContext rootSeed.toNat one.toNat coordinate.toNat =
        sampleRngContext rootSeed.toNat two.toNat coordinate.toNat ↔
      key64 rootSeed one = key64 rootSeed two := by
  rw [sampleRngContext_eq, sampleRngContext_eq]
  constructor
  · intro same
    exact congrArg RngStream.key (Option.some.inj same)
  · intro same
    rw [sampleStream, sampleStream, same]

/-- Two epochs have keys, permutation keys and sample streams of their own exactly when they
differ modulo 2^32, and in every epoch two root seeds have keys of their own. -/
theorem keys_apart (rootSeed otherSeed one two : UInt64) :
    (key64 rootSeed one ≠ key64 rootSeed two ↔ one.toNat % 2 ^ 32 ≠ two.toNat % 2 ^ 32) ∧
    (permutationKey rootSeed one ≠ permutationKey rootSeed two ↔
      one.toNat % 2 ^ 32 ≠ two.toNat % 2 ^ 32) ∧
    (∀ coordinate : UInt64,
      sampleRngContext rootSeed.toNat one.toNat coordinate.toNat ≠
          sampleRngContext rootSeed.toNat two.toNat coordinate.toNat ↔
        one.toNat % 2 ^ 32 ≠ two.toNat % 2 ^ 32) ∧
    (Fallback.key64 rootSeed.toNat one.toNat ≠ Fallback.key64 rootSeed.toNat two.toNat ↔
      one.toNat % 2 ^ 32 ≠ two.toNat % 2 ^ 32) ∧
    (key64 rootSeed one ≠ key64 otherSeed one ↔ rootSeed ≠ otherSeed) ∧
    (Fallback.key64 rootSeed.toNat one.toNat ≠ Fallback.key64 otherSeed.toNat one.toNat ↔
      rootSeed ≠ otherSeed) := by
  have keys := key64_eq_iff rootSeed one two
  have seeds := key64_seed_iff rootSeed otherSeed one
  refine ⟨not_congr keys, not_congr ((permutationKey_eq_iff ..).trans keys),
    fun coordinate => not_congr ((sampleRngContext_eq_iff ..).trans keys), not_congr ?_,
    not_congr seeds, not_congr ?_⟩
  · rw [← key64_toNat, ← key64_toNat, UInt64.toNat_inj]
    exact keys
  · rw [← key64_toNat, ← key64_toNat, UInt64.toNat_inj]
    exact seeds

/-- Epochs 0 and 2^32 have one key. -/
theorem epochs_share_key :
    ¬ ∀ rootSeed one two : UInt64, one ≠ two → key64 rootSeed one ≠ key64 rootSeed two :=
  fun apart => apart 0 0 4294967296 (by decide) (by decide)

end Hyperloader.Random
