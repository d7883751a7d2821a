/-
Module: Hyperloader.Telemetry.Histogram
Purpose: Delivery latencies: the power-of-two histogram of engine/src/telemetry/histogram.rs and
  the sorted buckets of fallback/telemetry.py, and when their percentiles agree.
Trusted boundary: none
Main exports:
  LatencyHistogram, LatencyHistogram.percentiles, Fallback.quantile, RanksAgree,
  percentiles_agree_iff
-/
import Mathlib.Data.UInt
import Hyperloader.Foundations.OrderStatistic

namespace Hyperloader.Instruments

open Foundations

/-! ### Engine -/

def BUCKETS : Nat := 65

/-- `u64::leading_zeros` -/
def leadingZeros (value : UInt64) : Nat :=
  if value = 0 then 64 else 63 - value.toNat.log2

def bucket (value : UInt64) : Nat :=
  if value = 0 then 0 else 64 - leadingZeros value

/-- The largest latency of a bucket. -/
def bucketUpperBound (index : Nat) : UInt64 :=
  match index with
  | 0 => 0
  | 64 => UInt64.ofNat (2 ^ 64 - 1)
  | _ => (1 <<< UInt64.ofNat index) - 1

/-- `u64::saturating_mul` -/
def saturatingMul (left right : UInt64) : UInt64 :=
  if left.toNat * right.toNat < 2 ^ 64 then left * right else UInt64.ofNat (2 ^ 64 - 1)

/-- `u64::div_ceil` -/
def divCeil (left right : UInt64) : UInt64 :=
  if left % right = 0 then left / right else left / right + 1

/-- The loop of `percentile`. -/
def percentileFrom (target : UInt64) : List UInt64 → (index : Nat) → (cumulative : UInt64) → UInt64
  | [], _, _ => UInt64.ofNat (2 ^ 64 - 1)
  | count :: counts, index, cumulative =>
      let cumulative := cumulative + count
      if target ≤ cumulative then bucketUpperBound index
      else percentileFrom target counts (index + 1) cumulative

/-- The end of the first bucket at which the counts reach the rank. -/
def percentile (counts : List UInt64) (total percent : UInt64) : UInt64 :=
  if total = 0 then 0
  else
    let target := divCeil (saturatingMul total percent) 100
    percentileFrom target counts 0 0

/-- How many latencies fell into each bucket. -/
structure LatencyHistogram where
  counts : List UInt64
  sized : counts.length = BUCKETS

namespace LatencyHistogram

def new : LatencyHistogram :=
  { counts := List.replicate BUCKETS 0
    sized := List.length_replicate }

def observe (histogram : LatencyHistogram) (value : UInt64) : LatencyHistogram :=
  { counts := histogram.counts.modify (bucket value) (· + 1)
    sized := (List.length_modify _ _ _).trans histogram.sized }

def percentiles (histogram : LatencyHistogram) : List UInt64 :=
  let total := histogram.counts.sum
  [50, 95, 99].map fun percent => percentile histogram.counts total percent

end LatencyHistogram

/-! ### Fallback -/

namespace Fallback

/-- `int.bit_length` of a positive value -/
def bitLength (value : Nat) : Nat := value.log2 + 1

/-- `_latency_bucket` -/
def latencyBucket (value : Int) : Nat :=
  if value ≤ 0 then 0 else (1 <<< bitLength value.toNat) - 1

/-- `quantile`, with the fraction a number of hundredths. -/
def quantile (latencies : List Nat) (percent : Nat) : Nat :=
  if latencies = [] then 0
  else
    let ordered := latencies.mergeSort (· ≤ ·)
    let index := min (ordered.length - 1) (percent * ordered.length / 100)
    ordered.getD index 0

end Fallback

/-! ### Buckets -/

/-- The bit length of a latency: zero has none. -/
def bits (value : UInt64) : Nat := if value = 0 then 0 else value.toNat.log2 + 1

theorem bits_le (value : UInt64) : bits value ≤ 64 := by
  unfold bits
  split
  · exact Nat.zero_le 64
  · rename_i nonzero
    have positive : value.toNat ≠ 0 := fun zero => nonzero (UInt64.toNat_inj.mp zero)
    exact (Nat.log2_lt positive).mpr value.toNat_lt

/-- The leading zeros name the bit length. -/
theorem bucket_eq (value : UInt64) : bucket value = bits value := by
  have wide := bits_le value
  unfold bucket leadingZeros bits at *
  by_cases zero : value = 0
  · rw [if_pos zero, if_pos zero]
  · rw [if_neg zero] at wide
    rw [if_neg zero, if_neg zero, if_neg zero]
    omega

/-- A bucket ends one below a power of two. -/
theorem toNat_bucketUpperBound {index : Nat} (inside : index ≤ 64) :
    (bucketUpperBound index).toNat = 2 ^ index - 1 := by
  unfold bucketUpperBound
  split
  · rfl
  · rfl
  · rename_i _ top
    have small : index < 64 := Nat.lt_of_le_of_ne inside fun same => top same
    have power : 2 ^ index < 2 ^ 64 := Nat.pow_lt_pow_right (by decide) small
    have shifted : (1 <<< UInt64.ofNat index : UInt64).toNat = 2 ^ index := by
      have held : (UInt64.ofNat index).toNat = index :=
        UInt64.toNat_ofNat_of_lt' (Nat.lt_trans small (by decide))
      rw [UInt64.toNat_shiftLeft, held, Nat.mod_eq_of_lt small]
      exact (congrArg (· % 2 ^ 64) (Nat.one_shiftLeft index)).trans (Nat.mod_eq_of_lt power)
    have one : (1 : UInt64) ≤ 1 <<< UInt64.ofNat index := by
      rw [UInt64.le_iff_toNat_le, shifted]
      exact Nat.one_le_two_pow
    rw [UInt64.toNat_sub_of_le _ _ one, shifted]
    rfl

/-- The fallback keeps the end of the bucket itself. -/
theorem latencyBucket_eq (value : UInt64) :
    Fallback.latencyBucket (value.toNat : Int) = 2 ^ bits value - 1 := by
  unfold Fallback.latencyBucket Fallback.bitLength bits
  by_cases zero : value = 0
  · subst zero
    rfl
  · have positive : value.toNat ≠ 0 := fun same => zero (UInt64.toNat_inj.mp same)
    rw [if_neg (by omega), if_neg zero, Int.toNat_natCast, Nat.shiftLeft_eq, Nat.one_mul]

/-! ### The histogram of some latencies -/

/-- The histogram holds the latencies' counts, modulo the width of its counters. -/
def LatencyHistogram.Tracks (histogram : LatencyHistogram) (latencies : List UInt64) : Prop :=
  histogram.counts = (countTable (latencies.map bits) BUCKETS).map UInt64.ofNat

namespace LatencyHistogram

theorem tracks_new : LatencyHistogram.new.Tracks [] := rfl

/-- One more latency is counted in its bucket. -/
theorem Tracks.observe {histogram : LatencyHistogram} {latencies : List UInt64}
    (tracks : histogram.Tracks latencies) (latency : UInt64) :
    (histogram.observe latency).Tracks (latencies ++ [latency]) := by
  unfold Tracks LatencyHistogram.observe countTable at *
  dsimp only
  rw [tracks, bucket_eq, List.map_map, List.map_map]
  refine List.ext_getElem? fun index => ?_
  rw [List.getElem?_modify, List.getElem?_map, List.getElem?_map]
  by_cases inside : index < BUCKETS
  · rw [List.getElem?_range inside]
    simp only [Option.map_some, Function.comp_apply, List.map_append, List.map_cons, List.map_nil,
      List.count_append, List.count_singleton]
    by_cases same : bits latency = index
    · simp [same]
    · simp [same]
  · rw [List.getElem?_eq_none (by simpa using inside)]
    simp

theorem sum_map_ofNat (counts : List Nat) :
    (counts.map UInt64.ofNat).sum = UInt64.ofNat counts.sum := by
  induction counts with
  | nil => rfl
  | cons count counts ih =>
      rw [List.map_cons, List.sum_cons, List.sum_cons, ih, UInt64.ofNat_add]

theorem sum_countTable_bits (latencies : List UInt64) :
    (countTable (latencies.map bits) BUCKETS).sum = latencies.length := by
  rw [sum_countTable, List.countP_map]
  exact List.countP_eq_length.mpr fun latency _ =>
    decide_eq_true (Nat.lt_succ_of_le (bits_le latency))

/-- The counts add up to the number of latencies, modulo `2^64`. -/
theorem Tracks.total {histogram : LatencyHistogram} {latencies : List UInt64}
    (tracks : histogram.Tracks latencies) :
    histogram.counts.sum = UInt64.ofNat latencies.length := by
  rw [tracks, sum_map_ofNat, sum_countTable_bits]

end LatencyHistogram

/-! ### Percentiles -/

/-- Where the running count cannot overflow, the loop is the search for the target. -/
theorem percentileFrom_eq {target : UInt64} {counts : List Nat} {index cumulative found : Nat}
    (small : cumulative + counts.sum < 2 ^ 64)
    (reached : firstReaching target.toNat counts index cumulative = some found) :
    percentileFrom target (counts.map UInt64.ofNat) index (UInt64.ofNat cumulative) =
      bucketUpperBound found := by
  induction counts generalizing index cumulative with
  | nil => cases reached
  | cons count counts ih =>
      rw [List.sum_cons, ← Nat.add_assoc] at small
      unfold firstReaching at reached
      rw [List.map_cons, percentileFrom]
      have held : (UInt64.ofNat (cumulative + count)).toNat = cumulative + count :=
        UInt64.toNat_ofNat_of_lt' (Nat.lt_of_le_of_lt (Nat.le_add_right _ _) small)
      rw [← UInt64.ofNat_add]
      by_cases now : target.toNat ≤ cumulative + count
      · rw [if_pos now] at reached
        cases reached
        exact if_pos (UInt64.le_iff_toNat_le.mpr (held.symm ▸ now))
      · rw [if_neg now] at reached
        rw [if_neg fun le => now (held ▸ UInt64.le_iff_toNat_le.mp le)]
        exact ih small reached

/-- The rank of a percentile in the engine, from zero. -/
def engineRank (percent count : Nat) : Nat := (percent * count + 99) / 100 - 1

theorem toNat_divCeil (value : UInt64) : (divCeil value 100).toNat = (value.toNat + 99) / 100 := by
  have bound := value.toNat_lt
  have remainder : value % 100 = 0 ↔ value.toNat % 100 = 0 := by
    rw [← UInt64.toNat_inj, UInt64.toNat_mod]
    rfl
  unfold divCeil
  by_cases exact_ : value % 100 = 0
  · have whole := remainder.mp exact_
    rw [if_pos exact_, UInt64.toNat_div]
    change value.toNat / 100 = _
    omega
  · have part : value.toNat % 100 ≠ 0 := fun zero => exact_ (remainder.mpr zero)
    rw [if_neg exact_, UInt64.toNat_add, UInt64.toNat_div]
    change (value.toNat / 100 + 1) % 2 ^ 64 = _
    omega

/-- Below the saturation the target is the rank rounded up. -/
theorem toNat_target {percent : UInt64} {count : Nat} (most : percent.toNat ≤ 100)
    (small : count * 100 < 2 ^ 64) :
    (divCeil (saturatingMul (UInt64.ofNat count) percent) 100).toNat =
      (percent.toNat * count + 99) / 100 := by
  have narrow : count < 2 ^ 64 := by omega
  have held : (UInt64.ofNat count).toNat = count := UInt64.toNat_ofNat_of_lt' narrow
  have product : count * percent.toNat < 2 ^ 64 :=
    Nat.lt_of_le_of_lt (Nat.mul_le_mul_left count most) small
  have saturated : (saturatingMul (UInt64.ofNat count) percent).toNat = count * percent.toNat := by
    unfold saturatingMul
    rw [held, if_pos product, UInt64.toNat_mul, held]
    exact Nat.mod_eq_of_lt product
  rw [toNat_divCeil, saturated, Nat.mul_comm]

variable {histogram : LatencyHistogram} {latencies : List UInt64}

/-- The engine reports the end of the bucket that holds its rank. -/
theorem percentile_eq (tracks : histogram.Tracks latencies)
    (small : latencies.length * 100 < 2 ^ 64) (nonempty : latencies ≠ []) {percent : UInt64}
    (positive : 0 < percent.toNat) (most : percent.toNat ≤ 100) {value : Nat}
    (there : ranked (latencies.map bits) (engineRank percent.toNat latencies.length) = some value) :
    percentile histogram.counts histogram.counts.sum percent = bucketUpperBound value := by
  have many : 0 < latencies.length := List.length_pos_iff.mpr nonempty
  have narrow : latencies.length < 2 ^ 64 := by omega
  have held : (UInt64.ofNat latencies.length).toNat = latencies.length :=
    UInt64.toNat_ofNat_of_lt' narrow
  have some_ : UInt64.ofNat latencies.length ≠ 0 := by
    intro zero
    rw [zero] at held
    exact Nat.ne_of_lt many held
  have positiveTarget : 0 < percent.toNat * latencies.length := Nat.mul_pos positive many
  have target := toNat_target most small
  have inside : engineRank percent.toNat latencies.length < (latencies.map bits).length := by
    have product := Nat.mul_le_mul_right latencies.length most
    rw [List.length_map]
    unfold engineRank
    omega
  have reached : firstReaching
      (divCeil (saturatingMul (UInt64.ofNat latencies.length) percent) 100).toNat
      (countTable (latencies.map bits) BUCKETS) 0 0 = some value := by
    have next : (percent.toNat * latencies.length + 99) / 100 =
        engineRank percent.toNat latencies.length + 1 := by
      unfold engineRank
      omega
    rw [target, next, firstReaching_countTable ?_ inside, there]
    intro width member
    obtain ⟨latency, -, rfl⟩ := List.mem_map.mp member
    exact Nat.lt_succ_of_le (bits_le latency)
  unfold percentile
  rw [tracks.total, if_neg some_, tracks]
  refine percentileFrom_eq ?_ reached
  rw [LatencyHistogram.sum_countTable_bits, Nat.zero_add]
  exact narrow

/-! ### Quantiles of the fallback -/

/-- The rank of a percentile in the fallback, from zero. -/
def fallbackRank (percent count : Nat) : Nat := percent * count / 100

/-- The fallback reports the end of the bucket that holds its own rank. -/
theorem quantile_eq (nonempty : latencies ≠ []) {percent : Nat} (below : percent < 100)
    {value : Nat}
    (there : ranked (latencies.map bits) (fallbackRank percent latencies.length) = some value) :
    Fallback.quantile (latencies.map fun latency => Fallback.latencyBucket latency.toNat) percent =
      2 ^ value - 1 := by
  have many : 0 < latencies.length := List.length_pos_iff.mpr nonempty
  have buckets : (latencies.map fun latency => Fallback.latencyBucket (latency.toNat : Int)) =
      (latencies.map bits).map fun width => 2 ^ width - 1 := by
    rw [List.map_map]
    exact List.map_congr_left fun latency _ => latencyBucket_eq latency
  have monotone : ∀ one two : Nat, decide (one ≤ two) =
      decide (2 ^ one - 1 ≤ 2 ^ two - 1) := by
    intro one two
    have onePositive := Nat.one_le_two_pow (n := one)
    have twoPositive := Nat.one_le_two_pow (n := two)
    refine decide_eq_decide.mpr ?_
    rw [← Nat.pow_le_pow_iff_right (a := 2) (by decide)]
    omega
  unfold Fallback.quantile
  rw [if_neg (by simpa using nonempty), buckets,
    ← List.map_mergeSort fun one _ two _ => monotone one two]
  dsimp only
  rw [List.length_map, List.length_mergeSort, List.length_map, Nat.min_eq_right ?_]
  · unfold ranked fallbackRank at there
    rw [List.getD_eq_getElem?_getD, List.getElem?_map, there]
    rfl
  · have product := Nat.mul_le_mul_right latencies.length (Nat.le_of_lt_succ below)
    omega

/-! ### Agreement -/

/-- Where a percentile falls between two ranks, the latencies of both have the same bit length. -/
def RanksAgree (latencies : List UInt64) (percent : Nat) : Prop :=
  ∀ rank, 0 < rank → percent * latencies.length = 100 * rank →
    ranked (latencies.map bits) (rank - 1) = ranked (latencies.map bits) rank

theorem two_pow_sub_one_inj {one two : Nat} (same : 2 ^ one - 1 = 2 ^ two - 1) : one = two := by
  have onePositive := Nat.one_le_two_pow (n := one)
  have twoPositive := Nat.one_le_two_pow (n := two)
  exact Nat.pow_right_injective (by decide) (by omega : 2 ^ one = 2 ^ two)

theorem percentile_agrees_iff (tracks : histogram.Tracks latencies)
    (small : latencies.length * 100 < 2 ^ 64) {percent : UInt64} (positive : 0 < percent.toNat)
    (below : percent.toNat < 100) :
    (percentile histogram.counts histogram.counts.sum percent).toNat =
      Fallback.quantile (latencies.map fun latency => Fallback.latencyBucket latency.toNat)
        percent.toNat ↔
      RanksAgree latencies percent.toNat := by
  by_cases nonempty : latencies = []
  · subst nonempty
    refine iff_of_true ?_ fun rank rankPositive same => ?_
    · rw [tracks.total]
      rfl
    · rw [List.length_nil, Nat.mul_zero] at same
      omega
  have many : 0 < latencies.length := List.length_pos_iff.mpr nonempty
  have product := Nat.mul_le_mul_right latencies.length (Nat.le_of_lt_succ below)
  have some_ : 0 < percent.toNat * latencies.length := Nat.mul_pos positive many
  have engineInside : engineRank percent.toNat latencies.length < (latencies.map bits).length := by
    rw [List.length_map]
    unfold engineRank
    omega
  have fallbackInside : fallbackRank percent.toNat latencies.length < (latencies.map bits).length := by
    rw [List.length_map]
    unfold fallbackRank
    omega
  obtain ⟨engine, engineThere⟩ := ranked_isSome engineInside
  obtain ⟨fallback, fallbackThere⟩ := ranked_isSome fallbackInside
  have narrow : engine ≤ 64 := by
    obtain ⟨latency, -, rfl⟩ := List.mem_map.mp (mem_of_ranked engineThere)
    exact bits_le latency
  rw [percentile_eq tracks small nonempty positive below.le engineThere,
    quantile_eq nonempty below fallbackThere, toNat_bucketUpperBound narrow]
  unfold engineRank at engineThere
  unfold fallbackRank at fallbackThere
  constructor
  · intro same rank rankPositive between
    rw [between] at engineThere fallbackThere
    have below_ : (100 * rank + 99) / 100 - 1 = rank - 1 := by omega
    have here : 100 * rank / 100 = rank := by omega
    rw [below_] at engineThere
    rw [here] at fallbackThere
    rw [engineThere, fallbackThere, two_pow_sub_one_inj same]
  · intro agrees
    have same : ranked (latencies.map bits) ((percent.toNat * latencies.length + 99) / 100 - 1) =
        ranked (latencies.map bits) (percent.toNat * latencies.length / 100) := by
      by_cases between : percent.toNat * latencies.length % 100 = 0
      · have rank := agrees (percent.toNat * latencies.length / 100) (by omega) (by omega)
        rw [← rank]
        congr 1
        omega
      · congr 1
        omega
    rw [engineThere, fallbackThere] at same
    rw [Option.some.inj same]

theorem percentiles_agree_iff (tracks : histogram.Tracks latencies)
    (small : latencies.length * 100 < 2 ^ 64) :
    (histogram.percentiles.map UInt64.toNat =
      [50, 95, 99].map (Fallback.quantile
        (latencies.map fun latency => Fallback.latencyBucket latency.toNat))) ↔
      ∀ percent ∈ [50, 95, 99], RanksAgree latencies percent := by
  have agree : ∀ percent : UInt64, 0 < percent.toNat → percent.toNat < 100 →
      ((percentile histogram.counts histogram.counts.sum percent).toNat = Fallback.quantile
        (latencies.map fun latency => Fallback.latencyBucket latency.toNat) percent.toNat ↔
        RanksAgree latencies percent.toNat) :=
    fun _ positive below => percentile_agrees_iff tracks small positive below
  have first := agree 50 (by decide) (by decide)
  have second := agree 95 (by decide) (by decide)
  have third := agree 99 (by decide) (by decide)
  unfold LatencyHistogram.percentiles
  simp only [List.map_cons, List.map_nil, List.cons.injEq, and_true, List.forall_mem_cons,
    List.not_mem_nil, false_implies, implies_true]
  exact and_congr first (and_congr second third)

end Hyperloader.Instruments
