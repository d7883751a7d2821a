/-
Module: Hyperloader.Telemetry.Percentile
Purpose: What a percentile of the engine's latency histogram says about the latencies it has
  observed: the bucket of the one of nearest rank, and so its size to within a factor of two.
Trusted boundary: observations come one after the other, in any order.
Main exports:
  LatencyHistogram.observed, NearestRank, isGreatest_bucketUpperBound, percentile_nearest_rank
-/
import Mathlib.Order.Bounds.Basic
import Hyperloader.Telemetry.Histogram

namespace Hyperloader.Instruments

open Foundations

namespace LatencyHistogram

/-- The histogram of some observations. -/
def observed (observations : List UInt64) : LatencyHistogram := observations.foldl observe new

/-- `percentile` of a histogram's counts and their total. -/
def percentile (histogram : LatencyHistogram) (percent : UInt64) : UInt64 :=
  Instruments.percentile histogram.counts histogram.counts.sum percent

theorem Tracks.foldl {histogram : LatencyHistogram} {latencies : List UInt64}
    (tracks : histogram.Tracks latencies) (observations : List UInt64) :
    (observations.foldl LatencyHistogram.observe histogram).Tracks (latencies ++ observations) := by
  induction observations generalizing histogram latencies with
  | nil =>
      rw [List.append_nil]
      exact tracks
  | cons observation observations ih =>
      have later := ih (tracks.observe observation)
      rw [List.append_assoc, List.singleton_append] at later
      exact later

theorem tracks_observed (observations : List UInt64) :
    (observed observations).Tracks observations := tracks_new.foldl observations

end LatencyHistogram

open LatencyHistogram

/-! ### Upper bounds -/

/-- The bit length of a number, of any size. -/
def bitCount (number : Nat) : Nat := if number = 0 then 0 else number.log2 + 1

theorem bits_eq_bitCount (value : UInt64) : bits value = bitCount value.toNat := by
  unfold bits bitCount
  exact if_congr UInt64.toNat_inj.symm rfl rfl

theorem bitCount_mono {one two : Nat} (order : one ≤ two) : bitCount one ≤ bitCount two := by
  unfold bitCount
  split
  · exact Nat.zero_le _
  · rename_i nonzero
    have positive : two ≠ 0 := fun zero => nonzero (Nat.le_zero.mp (zero ▸ order))
    rw [if_neg positive]
    exact Nat.succ_le_succ ((Nat.le_log2 positive).mpr (Nat.le_trans (Nat.log2_self_le nonzero) order))

/-- A bit length is an interval between powers of two. -/
theorem bits_eq_iff {value : UInt64} {width : Nat} (nonzero : value ≠ 0) :
    bits value = width + 1 ↔ 2 ^ width ≤ value.toNat ∧ value.toNat < 2 ^ (width + 1) := by
  have positive : value.toNat ≠ 0 := fun zero => nonzero (UInt64.toNat_inj.mp zero)
  unfold bits
  rw [if_neg nonzero, ← Nat.log2_eq_iff positive]
  exact Nat.succ_inj

theorem bits_eq_zero_iff {value : UInt64} : bits value = 0 ↔ value = 0 := by
  unfold bits
  split
  · rename_i zero
    exact iff_of_true rfl zero
  · rename_i nonzero
    exact iff_of_false (Nat.succ_ne_zero _) nonzero

theorem toNat_lt_two_pow_bits (value : UInt64) : value.toNat < 2 ^ bits value := by
  by_cases zero : value = 0
  · rw [zero]
    decide
  · obtain ⟨width, same⟩ := Nat.exists_eq_succ_of_ne_zero fun none => zero (bits_eq_zero_iff.mp none)
    rw [same]
    exact ((bits_eq_iff zero).mp same).2

theorem bits_mono {one two : UInt64} (order : one ≤ two) : bits one ≤ bits two := by
  rw [bits_eq_bitCount, bits_eq_bitCount]
  exact bitCount_mono (UInt64.le_iff_toNat_le.mp order)

/-- The upper bound of a bucket is the greatest value in it. -/
theorem isGreatest_bucketUpperBound (value : UInt64) :
    IsGreatest {other | bucket other = bucket value} (bucketUpperBound (bucket value)) := by
  simp only [bucket_eq]
  have bound := toNat_bucketUpperBound (bits_le value)
  constructor
  · change bits _ = bits value
    cases same : bits value with
    | zero => rfl
    | succ width =>
        rw [same] at bound
        have power := Nat.one_le_two_pow (n := width)
        have double := Nat.pow_succ 2 width
        have nonzero : bucketUpperBound (width + 1) ≠ 0 := by
          intro zero
          rw [zero] at bound
          change 0 = _ at bound
          omega
        rw [bits_eq_iff nonzero, bound]
        omega
  · intro other inside
    have below := toNat_lt_two_pow_bits other
    rw [show bits other = bits value from inside] at below
    rw [UInt64.le_iff_toNat_le, bound]
    exact Nat.le_sub_one_of_lt below

/-- The upper bound of a positive value's bucket is less than twice the value. -/
theorem bucketUpperBound_lt_double {value : UInt64} (nonzero : value ≠ 0) :
    (bucketUpperBound (bucket value)).toNat < 2 * value.toNat := by
  obtain ⟨width, same⟩ := Nat.exists_eq_succ_of_ne_zero fun none => nonzero (bits_eq_zero_iff.mp none)
  have low := ((bits_eq_iff nonzero).mp same).1
  have bound := toNat_bucketUpperBound (bits_le value)
  have power := Nat.one_le_two_pow (n := width)
  have double := Nat.pow_succ 2 width
  rw [bucket_eq, bound, same]
  change 2 ^ (width + 1) - 1 < _
  omega

theorem bucketUpperBound_mono {one two : UInt64} (order : one ≤ two) :
    bucketUpperBound (bucket one) ≤ bucketUpperBound (bucket two) := by
  rw [UInt64.le_iff_toNat_le, bucket_eq, bucket_eq, toNat_bucketUpperBound (bits_le one),
    toNat_bucketUpperBound (bits_le two)]
  exact Nat.sub_le_sub_right (Nat.pow_le_pow_right (by decide) (bits_mono order)) 1

/-! ### Nearest ranks -/

/-- The observation of nearest rank: of the least rank, counted from one, that is not below
`percent` hundredths of the observations. -/
def NearestRank (observations : List UInt64) (percent : Nat) (value : UInt64) : Prop :=
  ∃ rank, IsLeast {least | percent * observations.length ≤ 100 * least} (rank + 1) ∧
    ranked (observations.map UInt64.toNat) rank = some value.toNat

section Ranks

variable {observations : List UInt64} {percent : Nat} {value : UInt64}

theorem NearestRank.ranked (nearest : NearestRank observations percent value) :
    ranked (observations.map UInt64.toNat) (engineRank percent observations.length) =
      some value.toNat := by
  obtain ⟨rank, ⟨enough, least⟩, there⟩ := nearest
  have short : ¬ percent * observations.length ≤ 100 * rank := fun under =>
    absurd (least under) (Nat.not_succ_le_self rank)
  change percent * observations.length ≤ 100 * (rank + 1) at enough
  have same : engineRank percent observations.length = rank := by
    unfold engineRank
    omega
  rw [same]
  exact there

theorem NearestRank.nonempty (nearest : NearestRank observations percent value) :
    observations ≠ [] := by
  rintro rfl
  exact absurd (mem_of_ranked nearest.ranked) List.not_mem_nil

/-- Of some latencies there is a nearest rank. -/
theorem exists_nearestRank (nonempty : observations ≠ []) (positive : 0 < percent)
    (most : percent ≤ 100) : ∃ value, NearestRank observations percent value := by
  have many : 0 < observations.length := List.length_pos_iff.mpr nonempty
  have some_ : 0 < percent * observations.length := Nat.mul_pos positive many
  have product := Nat.mul_le_mul_right observations.length most
  have inside : engineRank percent observations.length < (observations.map UInt64.toNat).length := by
    rw [List.length_map]
    unfold engineRank
    omega
  obtain ⟨number, there⟩ := ranked_isSome inside
  obtain ⟨value, -, rfl⟩ := List.mem_map.mp (mem_of_ranked there)
  refine ⟨value, _, ⟨?_, fun least enough => ?_⟩, there⟩
  · change percent * observations.length ≤ 100 * (engineRank percent observations.length + 1)
    unfold engineRank
    omega
  · change percent * observations.length ≤ 100 * least at enough
    unfold engineRank
    omega

theorem engineRank_mono {one two few many : Nat} (percents : one ≤ two) (counts : few ≤ many) :
    engineRank one few ≤ engineRank two many := by
  have product := Nat.mul_le_mul percents counts
  unfold engineRank
  omega

/-- A larger percentage has no smaller nearest rank. -/
theorem NearestRank.mono {larger : Nat} {upper : UInt64}
    (nearest : NearestRank observations percent value) (order : percent ≤ larger)
    (other : NearestRank observations larger upper) : value ≤ upper :=
  UInt64.le_iff_toNat_le.mpr
    (ranked_mono (engineRank_mono order (Nat.le_refl _)) nearest.ranked other.ranked)

/-- Observations not below the one of nearest rank do not lower it. -/
theorem NearestRank.append {added : List UInt64} {upper : UInt64}
    (nearest : NearestRank observations percent value)
    (above : ∀ observation ∈ added, value ≤ observation)
    (other : NearestRank (observations ++ added) percent upper) : value ≤ upper := by
  have further := other.ranked
  rw [List.map_append] at further
  refine UInt64.le_iff_toNat_le.mpr (ranked_append ?_ ?_ nearest.ranked further)
  · rw [List.length_append]
    exact engineRank_mono (Nat.le_refl _) (Nat.le_add_right _ _)
  · intro number member
    obtain ⟨observation, inside, rfl⟩ := List.mem_map.mp member
    exact UInt64.le_iff_toNat_le.mp (above observation inside)

end Ranks

/-! ### Percentiles of observations -/

section Percentiles

variable {observations : List UInt64} {percent value : UInt64}

/-- Without observations every percentile is zero. -/
theorem percentile_observed_nil (percent : UInt64) : (observed []).percentile percent = 0 := by
  unfold LatencyHistogram.percentile Instruments.percentile
  rw [(tracks_observed []).total]
  exact if_pos rfl

/-- A percentile is the upper bound of the bucket of the observation of nearest rank. -/
theorem percentile_eq_bucket (small : observations.length * 100 < 2 ^ 64) (positive : 1 ≤ percent)
    (most : percent ≤ 100) (nearest : NearestRank observations percent.toNat value) :
    (observed observations).percentile percent = bucketUpperBound (bucket value) := by
  have there : ranked (observations.map bits) (engineRank percent.toNat observations.length) =
      some (bits value) := by
    have widths : observations.map bits = (observations.map UInt64.toNat).map bitCount := by
      rw [List.map_map]
      exact List.map_congr_left fun observation _ => bits_eq_bitCount observation
    rw [widths, ranked_map (fun _ _ order => bitCount_mono order), nearest.ranked,
      bits_eq_bitCount]
    rfl
  rw [bucket_eq]
  exact percentile_eq (tracks_observed observations) small nearest.nonempty
    (UInt64.le_iff_toNat_le.mp positive) (UInt64.le_iff_toNat_le.mp most) there

/-- A larger percent has no smaller percentile. -/
theorem percentile_mono (small : observations.length * 100 < 2 ^ 64) (positive : 1 ≤ percent)
    {larger : UInt64} (order : percent ≤ larger) (most : larger ≤ 100) :
    (observed observations).percentile percent ≤ (observed observations).percentile larger := by
  by_cases nonempty : observations = []
  · subst nonempty
    rw [percentile_observed_nil, percentile_observed_nil]
    exact UInt64.le_refl 0
  have under : percent ≤ 100 := UInt64.le_trans order most
  have above : 1 ≤ larger := UInt64.le_trans positive order
  obtain ⟨lower, nearest⟩ := exists_nearestRank nonempty (UInt64.le_iff_toNat_le.mp positive)
    (UInt64.le_iff_toNat_le.mp under)
  obtain ⟨upper, other⟩ := exists_nearestRank nonempty (UInt64.le_iff_toNat_le.mp above)
    (UInt64.le_iff_toNat_le.mp most)
  rw [percentile_eq_bucket small positive under nearest,
    percentile_eq_bucket small above most other]
  exact bucketUpperBound_mono (nearest.mono (UInt64.le_iff_toNat_le.mp order) other)

/-- Observations not below the one of nearest rank do not lower the percentile. -/
theorem percentile_append {added : List UInt64}
    (small : (observations ++ added).length * 100 < 2 ^ 64) (positive : 1 ≤ percent)
    (most : percent ≤ 100) (above : ∀ value, NearestRank observations percent.toNat value →
      ∀ observation ∈ added, value ≤ observation) :
    (observed observations).percentile percent ≤
      (observed (observations ++ added)).percentile percent := by
  by_cases nonempty : observations = []
  · subst nonempty
    rw [percentile_observed_nil]
    exact UInt64.le_iff_toNat_le.mpr (Nat.zero_le _)
  have fewer : observations.length * 100 < 2 ^ 64 := by
    rw [List.length_append] at small
    omega
  have positive' := UInt64.le_iff_toNat_le.mp positive
  have most' := UInt64.le_iff_toNat_le.mp most
  obtain ⟨lower, nearest⟩ := exists_nearestRank nonempty positive' most'
  obtain ⟨upper, other⟩ := @exists_nearestRank (observations ++ added) percent.toNat
    (fun none => nonempty (List.append_eq_nil_iff.mp none).1) positive' most'
  rw [percentile_eq_bucket fewer positive most nearest,
    percentile_eq_bucket small positive most other]
  exact bucketUpperBound_mono (nearest.append (above lower nearest) other)

/-- What a percentile of some observations says: the greatest value as long as the observation of
nearest rank, so less than twice that, which larger percents and observations not below it do not
lower. -/
structure NearestRanked (observations : List UInt64) (percent : UInt64) : Prop where
  empty : observations = [] → (observed observations).percentile percent = 0
  nearest : observations ≠ [] → ∃ value, NearestRank observations percent.toNat value
  bucket : ∀ value, NearestRank observations percent.toNat value →
    (observed observations).percentile percent = bucketUpperBound (Instruments.bucket value)
  greatest : ∀ value, NearestRank observations percent.toNat value →
    IsGreatest {other | Instruments.bucket other = Instruments.bucket value}
      ((observed observations).percentile percent)
  bounds : ∀ value, NearestRank observations percent.toNat value →
    value ≤ (observed observations).percentile percent ∧
      (value ≠ 0 → ((observed observations).percentile percent).toNat < 2 * value.toNat) ∧
      (value = 0 → (observed observations).percentile percent = 0)
  percents : ∀ larger, percent ≤ larger → larger ≤ 100 →
    (observed observations).percentile percent ≤ (observed observations).percentile larger
  ranked : ∀ added : List UInt64, (observations ++ added).length * 100 < 2 ^ 64 →
    (∀ value, NearestRank observations percent.toNat value → ∀ other ∈ added, value ≤ other) →
    (observed observations).percentile percent ≤
      (observed (observations ++ added)).percentile percent
  added : ∀ added : List UInt64, (observations ++ added).length * 100 < 2 ^ 64 →
    (∀ other ∈ added, (observed observations).percentile percent ≤ other) →
    (observed observations).percentile percent ≤
      (observed (observations ++ added)).percentile percent

/-- Every percentile of every list of observations that can be counted in hundredths. -/
theorem percentile_nearest_rank (small : observations.length * 100 < 2 ^ 64)
    (positive : 1 ≤ percent) (most : percent ≤ 100) : NearestRanked observations percent := by
  have same := fun value nearest => @percentile_eq_bucket _ _ value small positive most nearest
  have greatest : ∀ value, NearestRank observations percent.toNat value →
      IsGreatest {other | bucket other = bucket value}
        ((observed observations).percentile percent) := by
    intro value nearest
    rw [same value nearest]
    exact isGreatest_bucketUpperBound value
  refine ⟨?_, ?_, same, greatest, fun value nearest => ⟨(greatest value nearest).2 rfl, ?_, ?_⟩,
    fun larger => percentile_mono small positive, fun added fits => percentile_append fits positive most,
    fun added fits above => ?_⟩
  · rintro rfl
    exact percentile_observed_nil percent
  · intro nonempty
    exact exists_nearestRank nonempty (UInt64.le_iff_toNat_le.mp positive)
      (UInt64.le_iff_toNat_le.mp most)
  · intro nonzero
    rw [same value nearest]
    exact bucketUpperBound_lt_double nonzero
  · rintro rfl
    rw [same 0 nearest]
    rfl
  · -- an observation not below the percentile is not below the one of nearest rank
    refine percentile_append fits positive most fun value nearest other inside => ?_
    exact UInt64.le_trans ((greatest value nearest).2 rfl) (above other inside)

/-- The median of five latencies, zero and the largest among them. -/
theorem percentile_nearest_rank_median :
    [5, 0, 18446744073709551615, 4, 4].length * 100 < 2 ^ 64 ∧ (1 : UInt64) ≤ 50 ∧
      (50 : UInt64) ≤ 100 ∧ NearestRanked [5, 0, 18446744073709551615, 4, 4] 50 :=
  ⟨by decide, by decide, by decide,
    percentile_nearest_rank (by decide) (by decide) (by decide)⟩

end Percentiles

end Hyperloader.Instruments
