/-
Module: Hyperloader.Distributed.Ranks
Purpose: `rank_placements` of fallback/rng.py, which places a rank as the engine does, and
  the partition of the epoch the ranks make up, whichever module places each of them.
Trusted boundary: none
Main exports:
  Fallback.rankPlacements, fallback_rankPlacements_cases, epochLength,
  rankPlacements_partition
-/
import Hyperloader.Distributed.Placement

namespace Hyperloader.Distributed

open Foundations Hyperloader.Random

/-! ### The placement of the fallback -/

namespace Fallback

/-- What the fallback raises: a refusal, or a list read behind its end. -/
inductive PlacementRaised where
  | refusal (refusal : Refusal)
  | indexError
deriving DecidableEq

def PLACEMENT_REFUSED : String := "invalid placement configuration"

/-- The list of a small dataset; `none` inside for a large one. -/
def smallPermutation (passes rootSeed epoch datasetLen : Nat) :
    Option (Except PlacementRaised (Option (Array Nat))) :=
  if datasetLen < Random.Fallback.FEISTEL_THRESHOLD then
    (Random.Fallback.materializedPermutation passes rootSeed epoch datasetLen).map fun answer =>
      match answer with
      | .ok permutation => .ok (some permutation)
      | .error refusal => .error (.refusal refusal)
  else some (.ok none)

def mapIndex (passes rootSeed epoch datasetLen : Nat) (permutation : Option (Array Nat))
    (position : Nat) : Option (Except PlacementRaised Nat) :=
  match permutation with
  | some permutation =>
      match permutation[position]? with
      | some index => some (.ok index)
      | none => some (.error .indexError)
  | none =>
      (Random.Fallback.feistelPermute passes rootSeed epoch datasetLen position).map fun answer =>
        match answer with
        | .ok index => .ok index
        | .error refusal => .error (.refusal refusal)

/-- `rank_placements`; `none` while a loop has not ended within the passes given. -/
def rankPlacements (passes rootSeed epoch datasetLen : Nat) (batchSize worldSize rank : Int)
    (dropLast exactCount : Bool) : Option (Except PlacementRaised (List PlacedSample)) :=
  if batchSize ≤ 0 ∨ worldSize ≤ 0 ∨ ¬(0 ≤ rank ∧ rank < worldSize) then
    some (.error (.refusal (.valueError PLACEMENT_REFUSED)))
  else if datasetLen = 0 then some (.ok [])
  else
    let batch := batchSize.toNat
    let world := worldSize.toNat
    let rank := rank.toNat
    match smallPermutation passes rootSeed epoch datasetLen with
    | none => none
    | some (.error raised) => some (.error raised)
    | some (.ok permutation) =>
        let globalBatch := batch * world
        let fullEnd := datasetLen / globalBatch * globalBatch
        let regularEnd :=
          if dropLast || exactCount then fullEnd
          else (datasetLen + globalBatch - 1) / globalBatch * globalBatch
        let starts := List.range' 0 (divCeil regularEnd globalBatch) globalBatch
        let regular := starts.flatMap fun batchStart =>
          List.range' (batchStart + rank * batch) batch
        let tail :=
          if exactCount && !dropLast then
            let tailSize := datasetLen - fullEnd
            let rankStart := fullEnd + rank * tailSize / world
            let rankEnd := fullEnd + (rank + 1) * tailSize / world
            List.range' rankStart (rankEnd - rankStart)
          else []
        place (mapIndex passes rootSeed epoch datasetLen permutation)
          (regular.map (fun position => (position, sourcePosition datasetLen position)) ++
            tail.map fun position => (position, position))

end Fallback

/-- Adding all but one rounds up. -/
theorem divCeil_eq {value divisor : Nat} (positive : 0 < divisor) :
    (value + divisor - 1) / divisor = divCeil value divisor := by
  have split := Nat.div_add_mod' value divisor
  have below := Nat.mod_lt value positive
  unfold divCeil
  split
  · rename_i whole
    apply Nat.div_eq_of_lt_le
    · omega
    · rw [Nat.succ_mul]
      omega
  · apply Nat.div_eq_of_lt_le
    · rw [Nat.succ_mul]
      omega
    · rw [Nat.succ_mul, Nat.succ_mul]
      omega

theorem divCeil_mul {count divisor : Nat} (positive : 0 < divisor) :
    divCeil (count * divisor) divisor = count := by
  rw [divCeil, if_pos (Nat.mul_mod_left _ _), Nat.mul_div_cancel _ positive]

/-- The starts of the blocks. -/
theorem range'_step (count step : Nat) :
    List.range' 0 count step = (List.range' 0 count).map (· * step) := by
  induction count with
  | zero => rfl
  | succ count ih =>
      rw [List.range'_concat, List.range'_1_concat, List.map_append, ← ih,
        List.map_singleton, Nat.zero_add, Nat.zero_add, Nat.mul_comm]

section Samples

variable {rootSeed epoch datasetLen : UInt64}
  (selection : Selection rootSeed epoch datasetLen)

theorem fallback_mapIndex_eq {passes : Nat} {small : Option (Array Nat)} {position : Nat}
    (settled : Fallback.smallPermutation passes rootSeed.toNat epoch.toNat datasetLen.toNat =
      some (.ok small)) (inside : position < datasetLen.toNat) :
    Fallback.mapIndex passes rootSeed.toNat epoch.toNat datasetLen.toNat small position =
        some (.ok (selection.select position)) ∨
      Fallback.mapIndex passes rootSeed.toNat epoch.toNat datasetLen.toNat small position =
        none ∧ ¬2 ^ 64 ≤ passes := by
  unfold Fallback.smallPermutation at settled
  split at settled
  · obtain ⟨answer, returned, same⟩ := Option.map_eq_some_iff.mp settled
    cases answer with
    | error refusal => cases same
    | ok permutation =>
        cases same
        rw [Fallback.mapIndex, selection.listed passes permutation returned position inside]
        exact Or.inl rfl
  · rename_i above
    cases settled
    have large : FEISTEL_THRESHOLD ≤ datasetLen :=
      UInt64.not_lt.mp (mt (lt_threshold_iff datasetLen).mp above)
    have number : (UInt64.ofNat (selection.select position)).toNat =
        selection.select position :=
      UInt64.toNat_ofNat_of_lt'
        (Nat.lt_trans (selection.below position inside) datasetLen.toNat_lt)
    rw [Fallback.mapIndex, ← feistelPermute_toNat passes rootSeed epoch datasetLen
      (Nat.lt_trans inside datasetLen.toNat_lt)]
    cases walked : feistelPermute passes rootSeed epoch datasetLen (UInt64.ofNat position) with
    | none =>
        refine Or.inr ⟨rfl, fun enough => ?_⟩
        rw [selection.walked large passes enough position inside] at walked
        cases walked
    | some answer =>
        rw [selection.large large inside walked]
        exact Or.inl (congrArg (fun index => some (Except.ok index)) number)

variable {batch world : Nat} (batchPositive : 0 < batch) (worldPositive : 0 < world)

/-- What the fallback can end as: the samples of the rank, or nothing while the passes
do not suffice. -/
theorem fallback_rankPlacements_cases (dropLast exactCount : Bool) {rank : Nat}
    (rankLt : rank < world) (filled : datasetLen ≠ 0) (passes : Nat) :
    Fallback.rankPlacements passes rootSeed.toNat epoch.toNat datasetLen.toNat batch world rank
        dropLast exactCount =
        some (.ok (placedSamples selection.select
          (shardingOf datasetLen.toNat batch world dropLast exactCount batchPositive
            worldPositive) datasetLen.toNat rank)) ∨
      Fallback.rankPlacements passes rootSeed.toNat epoch.toNat datasetLen.toNat batch world
          rank dropLast exactCount = none ∧
        (2 ^ 64 ≤ passes → datasetLen < FEISTEL_THRESHOLD ∧
          ∀ permutation, Fallback.materializedPermutation passes rootSeed.toNat epoch.toNat
            datasetLen.toNat ≠ some (.ok permutation)) := by
  have globalPositive := Nat.mul_pos batchPositive worldPositive
  have valid : ¬((batch : Int) ≤ 0 ∨ (world : Int) ≤ 0 ∨
      ¬(0 ≤ (rank : Int) ∧ (rank : Int) < world)) := by omega
  have nonempty : ¬datasetLen.toNat = 0 := fun zero => filled (UInt64.toNat_inj.mp zero)
  have regular : (List.range' 0 (divCeil
      (if dropLast || exactCount then datasetLen.toNat / (batch * world) * (batch * world)
        else (datasetLen.toNat + batch * world - 1) / (batch * world) * (batch * world))
        (batch * world)) (batch * world)).flatMap
          (fun batchStart => List.range' (batchStart + rank * batch) batch) =
      (shardingOf datasetLen.toNat batch world dropLast exactCount batchPositive
        worldPositive).regular rank := by
    have ends : (if dropLast || exactCount then
          datasetLen.toNat / (batch * world) * (batch * world)
        else (datasetLen.toNat + batch * world - 1) / (batch * world) * (batch * world)) =
        (shardingOf datasetLen.toNat batch world dropLast exactCount batchPositive
          worldPositive).blocks * (batch * world) := by
      rw [divCeil_eq globalPositive, shardingOf]
      split <;> rfl
    rw [ends, divCeil_mul globalPositive, range'_step, List.flatMap_map]
    rfl
  have tail : (if exactCount && !dropLast then
        List.range' (datasetLen.toNat / (batch * world) * (batch * world) +
            rank * (datasetLen.toNat - datasetLen.toNat / (batch * world) * (batch * world)) /
              world)
          (datasetLen.toNat / (batch * world) * (batch * world) +
            (rank + 1) * (datasetLen.toNat - datasetLen.toNat / (batch * world) *
              (batch * world)) / world -
            (datasetLen.toNat / (batch * world) * (batch * world) +
              rank * (datasetLen.toNat - datasetLen.toNat / (batch * world) *
                (batch * world)) / world))
      else []) =
      (shardingOf datasetLen.toNat batch world dropLast exactCount batchPositive
        worldPositive).tailShare rank := by
    have divided := Nat.div_add_mod' datasetLen.toNat (batch * world)
    have size : datasetLen.toNat - datasetLen.toNat / (batch * world) * (batch * world) =
        datasetLen.toNat % (batch * world) := by omega
    rw [shardingOf_tailShare, size, Nat.add_sub_add_left]
  rw [Fallback.rankPlacements, if_neg valid, if_neg nonempty]
  dsimp only
  simp only [Int.toNat_natCast]
  cases settled : Fallback.smallPermutation passes rootSeed.toNat epoch.toNat
    datasetLen.toNat with
  | none =>
      refine Or.inr ⟨rfl, fun _ => ?_⟩
      unfold Fallback.smallPermutation at settled
      split at settled
      · rename_i below
        refine ⟨(lt_threshold_iff datasetLen).mpr below, fun permutation returned => ?_⟩
        rw [returned] at settled
        cases settled
      · cases settled
  | some answer =>
      cases answer with
      | error raised =>
          unfold Fallback.smallPermutation at settled
          split at settled
          · rename_i below
            rw [Random.Fallback.materializedPermutation, if_neg (not_not.mpr below),
              Option.map_map] at settled
            obtain ⟨drawn, _, same⟩ := Option.map_eq_some_iff.mp settled
            cases same
          · cases settled
      | ok small =>
          have sources := @shardingOf_tail_source datasetLen.toNat batch world dropLast
            exactCount batchPositive worldPositive rank rankLt
          have length : 0 < datasetLen.toNat := Nat.pos_of_ne_zero nonempty
          dsimp only
          rw [regular, tail, sources, ← List.map_append, ← Sharding.positions_eq_append]
          have placed := @place_eq _ (Fallback.mapIndex passes rootSeed.toNat epoch.toNat
              datasetLen.toNat small) selection.select (2 ^ 64 ≤ passes)
            (((shardingOf datasetLen.toNat batch world dropLast exactCount batchPositive
              worldPositive).positions rank).map fun position =>
                (position, sourcePosition datasetLen.toNat position))
            (by
              intro pair member
              obtain ⟨position, _, rfl⟩ := List.mem_map.mp member
              exact fallback_mapIndex_eq selection settled (sourcePosition_lt position length))
          rw [List.map_map] at placed
          rcases placed with placed | ⟨waiting, short⟩
          · exact Or.inl placed
          · exact Or.inr ⟨waiting, fun enough => absurd enough short⟩

end Samples

/-! ### The ranks together -/

/-- Where the positions of an epoch end. -/
def epochLength (datasetLen globalBatch : Nat) (dropLast exactCount : Bool) : Nat :=
  if dropLast then datasetLen / globalBatch * globalBatch
  else if exactCount then datasetLen
  else divCeil datasetLen globalBatch * globalBatch

section Ranks

variable {datasetLen batch world : Nat} {dropLast exactCount : Bool}
  {batchPositive : 0 < batch} {worldPositive : 0 < world}

theorem shardingOf_total :
    (shardingOf datasetLen batch world dropLast exactCount batchPositive worldPositive).total =
      epochLength datasetLen (batch * world) dropLast exactCount := by
  unfold shardingOf Sharding.total Sharding.globalBatch epochLength
  cases dropLast with
  | true =>
      simp only [Bool.true_or, Bool.not_true, Bool.and_false, Bool.false_eq_true, if_true,
        if_false, Nat.add_zero]
  | false =>
      cases exactCount with
      | true =>
          simp only [Bool.false_or, Bool.not_false, Bool.and_true, Bool.false_eq_true, if_true,
            if_false]
          exact Nat.div_add_mod' _ _
      | false =>
          simp only [Bool.false_or, Bool.false_and, Bool.false_eq_true, if_false, Nat.add_zero]

variable {select : Nat → Nat}

theorem placedSamples_positions (sharding : Sharding) (rank : Nat) :
    (placedSamples select sharding datasetLen rank).map PlacedSample.position =
      sharding.positions rank := by
  rw [placedSamples, List.map_map]
  exact List.map_id _

theorem placedSamples_indices (sharding : Sharding) (rank : Nat) :
    (placedSamples select sharding datasetLen rank).map PlacedSample.index =
      (sharding.positions rank).map fun position =>
        select (sourcePosition datasetLen position) := by
  rw [placedSamples, List.map_map]
  rfl

/-- The indices of all ranks are those of the positions in order, up to their order. -/
theorem indices_perm (sharding : Sharding) :
    ((List.range sharding.world).flatMap fun rank =>
        (placedSamples select sharding datasetLen rank).map PlacedSample.index).Perm
      ((List.range sharding.total).map fun position =>
        select (sourcePosition datasetLen position)) := by
  have perm := (@Sharding.positions_perm sharding).map fun position =>
    select (sourcePosition datasetLen position)
  rw [List.map_flatMap, ← List.range_eq_range', ← List.range_eq_range'] at perm
  simp only [placedSamples_indices]
  exact perm

/-- Below the dataset every position reads itself. -/
theorem map_source_of_le {total : Nat} (le : total ≤ datasetLen) :
    ((List.range total).map fun position => select (sourcePosition datasetLen position)) =
      (List.range total).map select := by
  apply List.map_congr_left
  intro position member
  rw [sourcePosition, if_pos (Nat.lt_of_lt_of_le (List.mem_range.mp member) le)]

end Ranks

/-- The request of one rank. -/
def requestOf (rootSeed epoch datasetLen batchSize worldSize : UInt64)
    (dropLast exactCount : Bool) (rank : Nat) : PlacementRequest :=
  ⟨rootSeed, epoch, datasetLen, batchSize, worldSize, UInt64.ofNat rank, dropLast, exactCount⟩

/-- `rankPlacements_cases` with the rank as a number. -/
theorem requestOf_cases {rootSeed epoch datasetLen batchSize worldSize : UInt64}
    (selection : Selection rootSeed epoch datasetLen) (dropLast exactCount : Bool)
    (batchPositive : 0 < batchSize.toNat) (worldPositive : 0 < worldSize.toNat) {rank : Nat}
    (less : rank < worldSize.toNat) (exact : ExactProducts
      (requestOf rootSeed epoch datasetLen batchSize worldSize dropLast exactCount rank))
    (passes : Nat) :
    rankPlacements passes
        (requestOf rootSeed epoch datasetLen batchSize worldSize dropLast exactCount rank) =
        some (.ok (placedSamples selection.select
          (shardingOf datasetLen.toNat batchSize.toNat worldSize.toNat dropLast exactCount
            batchPositive worldPositive) datasetLen.toNat rank)) ∨
      (rankPlacements passes
          (requestOf rootSeed epoch datasetLen batchSize worldSize dropLast exactCount rank) =
          none ∨
        rankPlacements passes
          (requestOf rootSeed epoch datasetLen batchSize worldSize dropLast exactCount rank) =
          some (.error .panicked)) ∧
        (2 ^ 64 ≤ passes → datasetLen < FEISTEL_THRESHOLD ∧
          ∀ permutation, materializedPermutation passes rootSeed epoch
            datasetLen.toUInt32 ≠ some (.ok permutation)) := by
  have member : (UInt64.ofNat rank).toNat = rank :=
    UInt64.toNat_ofNat_of_lt' (Nat.lt_trans less worldSize.toNat_lt)
  have cases := @rankPlacements_cases
    (requestOf rootSeed epoch datasetLen batchSize worldSize dropLast exactCount rank)
    selection batchPositive worldPositive exact (lt_of_eq_of_lt member less) passes
  have rank_eq : (requestOf rootSeed epoch datasetLen batchSize worldSize dropLast exactCount
      rank).rank.toNat = rank := member
  rwa [rank_eq] at cases

/-- The ranks partition the epoch.  With enough passes both modules return the samples of
every rank (a small dataset needs its shuffle to return).  Whichever of them places each
rank, the positions of all ranks are those below the padded length, the dataset length or
the last full global batch; exact counts use every index once, dropped tails repeat none,
padding leaves none out; and the batches of one ordinal cover an interval that only the
global batch decides. -/
theorem rankPlacements_partition (rootSeed epoch datasetLen batchSize worldSize : UInt64)
    (dropLast exactCount : Bool) (filled : datasetLen ≠ 0) (batchSome : batchSize ≠ 0)
    (worldSome : worldSize ≠ 0) (exact : ∀ rank < worldSize.toNat, ExactProducts
      (requestOf rootSeed epoch datasetLen batchSize worldSize dropLast exactCount rank)) :
    (∀ passes, 2 ^ 64 ≤ passes →
      (datasetLen < FEISTEL_THRESHOLD → ∃ permutation,
        materializedPermutation passes rootSeed epoch datasetLen.toUInt32 =
          some (.ok permutation)) →
      ∀ rank < worldSize.toNat, ∃ samples,
        rankPlacements passes
          (requestOf rootSeed epoch datasetLen batchSize worldSize dropLast exactCount rank) =
            some (.ok samples) ∧
        Fallback.rankPlacements passes rootSeed.toNat epoch.toNat datasetLen.toNat
          batchSize.toNat worldSize.toNat rank dropLast exactCount = some (.ok samples)) ∧
    ∀ samples : Nat → List PlacedSample,
      (∀ rank < worldSize.toNat, ∃ passes,
        rankPlacements passes
          (requestOf rootSeed epoch datasetLen batchSize worldSize dropLast exactCount rank) =
            some (.ok (samples rank)) ∨
        Fallback.rankPlacements passes rootSeed.toNat epoch.toNat datasetLen.toNat
          batchSize.toNat worldSize.toNat rank dropLast exactCount =
            some (.ok (samples rank))) →
      (∀ one < worldSize.toNat, ∀ two < worldSize.toNat, one ≠ two →
        List.Disjoint ((samples one).map PlacedSample.position)
          ((samples two).map PlacedSample.position)) ∧
      ((List.range worldSize.toNat).flatMap fun rank =>
          (samples rank).map PlacedSample.position).Perm
        (List.range (epochLength datasetLen.toNat (batchSize.toNat * worldSize.toNat)
          dropLast exactCount)) ∧
      (dropLast = false → exactCount = true →
        ((List.range worldSize.toNat).flatMap fun rank =>
          (samples rank).map PlacedSample.index).Perm (List.range datasetLen.toNat)) ∧
      (dropLast = true →
        ((List.range worldSize.toNat).flatMap fun rank =>
          (samples rank).map PlacedSample.index).Nodup) ∧
      (dropLast = false → exactCount = false → ∀ index < datasetLen.toNat,
        ∃ rank < worldSize.toNat, index ∈ (samples rank).map PlacedSample.index) ∧
      ∀ ordinal position,
        (∃ rank < worldSize.toNat, position ∈
          (((samples rank).map PlacedSample.position).drop
            (ordinal * batchSize.toNat)).take batchSize.toNat) ↔
        ordinal * (batchSize.toNat * worldSize.toNat) ≤ position ∧
          position < min ((ordinal + 1) * (batchSize.toNat * worldSize.toNat))
            (epochLength datasetLen.toNat (batchSize.toNat * worldSize.toNat)
              dropLast exactCount) := by
  obtain ⟨selection⟩ := exists_selection rootSeed epoch datasetLen
  have batchPositive : 0 < batchSize.toNat :=
    Nat.pos_of_ne_zero fun zero => batchSome (UInt64.toNat_inj.mp zero)
  have worldPositive : 0 < worldSize.toNat :=
    Nat.pos_of_ne_zero fun zero => worldSome (UInt64.toNat_inj.mp zero)
  let sharding := shardingOf datasetLen.toNat batchSize.toNat worldSize.toNat dropLast
    exactCount batchPositive worldPositive
  have native := fun rank (less : rank < worldSize.toNat) passes =>
    requestOf_cases selection dropLast exactCount batchPositive worldPositive less
      (exact rank less) passes
  have fallback := fun rank (less : rank < worldSize.toNat) passes =>
    fallback_rankPlacements_cases selection batchPositive worldPositive dropLast exactCount less
      filled passes
  constructor
  · intro passes enough shuffled rank less
    refine ⟨placedSamples selection.select sharding datasetLen.toNat rank, ?_, ?_⟩
    · rcases native rank less passes with placed | ⟨_, blocked⟩
      · exact placed
      · obtain ⟨below, never⟩ := blocked enough
        obtain ⟨permutation, returned⟩ := shuffled below
        exact absurd returned (never permutation)
    · rcases fallback rank less passes with placed | ⟨_, blocked⟩
      · exact placed
      · obtain ⟨below, never⟩ := blocked enough
        obtain ⟨permutation, returned⟩ := shuffled below
        exact absurd (fallback_list below returned) (never _)
  · intro samples returned
    have placed : ∀ rank < sharding.world,
        samples rank = placedSamples selection.select sharding datasetLen.toNat rank := by
      intro rank less
      obtain ⟨passes, ended | ended⟩ := returned rank less
      · rcases native rank less passes with same | ⟨waiting | panicked, _⟩
        · rw [ended] at same
          exact Except.ok.inj (Option.some.inj same)
        · rw [ended] at waiting
          cases waiting
        · rw [ended] at panicked
          cases panicked
      · rcases fallback rank less passes with same | ⟨waiting, _⟩
        · rw [ended] at same
          exact Except.ok.inj (Option.some.inj same)
        · rw [ended] at waiting
          cases waiting
    have positions : ∀ rank < sharding.world,
        (samples rank).map PlacedSample.position = sharding.positions rank := by
      intro rank less
      rw [placed rank less, placedSamples_positions]
    have total : sharding.total = epochLength datasetLen.toNat
        (batchSize.toNat * worldSize.toNat) dropLast exactCount := shardingOf_total
    have joined : ((List.range worldSize.toNat).flatMap fun rank =>
        (samples rank).map PlacedSample.position) =
          (List.range' 0 sharding.world).flatMap sharding.positions := by
      rw [← List.range_eq_range']
      apply List.flatMap_congr
      intro rank less
      exact positions rank (List.mem_range.mp less)
    have indices : ((List.range worldSize.toNat).flatMap fun rank =>
        (samples rank).map PlacedSample.index).Perm
          ((List.range sharding.total).map fun position =>
            selection.select (sourcePosition datasetLen.toNat position)) := by
      have perm := @indices_perm datasetLen.toNat selection.select sharding
      refine List.Perm.trans (List.Perm.of_eq (List.flatMap_congr ?_)) perm
      intro rank less
      rw [placed rank (List.mem_range.mp less)]
    have perm := @Sharding.positions_perm sharding
    rw [← joined, ← List.range_eq_range', total] at perm
    refine ⟨?_, perm, ?_, ?_, ?_, ?_⟩
    · intro one oneLess two twoLess different
      rw [positions one oneLess, positions two twoLess]
      exact @Sharding.positions_disjoint sharding one two oneLess twoLess different
    · intro kept counted
      rw [total, epochLength, kept, counted] at indices
      rw [if_neg Bool.false_ne_true, if_pos rfl, map_source_of_le (Nat.le_refl _)] at indices
      exact indices.trans selection.perm
    · intro dropped
      rw [total, epochLength, dropped, if_pos rfl,
        map_source_of_le (Nat.div_mul_le_self _ _)] at indices
      apply indices.nodup_iff.mpr
      apply List.Nodup.map_on _ List.nodup_range
      intro one oneMember two twoMember same
      have bound := Nat.div_mul_le_self datasetLen.toNat (batchSize.toNat * worldSize.toNat)
      exact selection.injective
        one (Nat.lt_of_lt_of_le (List.mem_range.mp oneMember) bound)
        two (Nat.lt_of_lt_of_le (List.mem_range.mp twoMember) bound) same
    · intro kept padded index inside
      have reached := selection.perm.mem_iff.mpr (List.mem_range.mpr inside)
      obtain ⟨position, less, same⟩ := List.mem_map.mp reached
      have within : position < sharding.total := by
        rw [total, epochLength, kept, padded, if_neg Bool.false_ne_true,
          if_neg Bool.false_ne_true]
        exact Nat.lt_of_lt_of_le (List.mem_range.mp less)
          (divCeil_mul_ge _ (Nat.mul_pos batchPositive worldPositive))
      have listed := indices.mem_iff.mpr (List.mem_map_of_mem (List.mem_range.mpr within))
      rw [sourcePosition, if_pos (List.mem_range.mp less), same] at listed
      obtain ⟨rank, rankLess, found⟩ := List.mem_flatMap.mp listed
      exact ⟨rank, List.mem_range.mp rankLess, found⟩
    · intro ordinal position
      rw [← total]
      refine Iff.trans ?_ (@Sharding.mem_localBatch_iff sharding ordinal position)
      apply exists_congr
      intro rank
      apply and_congr_right
      intro less
      rw [positions rank less, ← Sharding.localBatch_eq]
      rfl

/-- Two ranks share seven samples exactly. -/
theorem rankPlacements_partition_seven :
    ((List.range 2).flatMap fun rank =>
        (if rank = 0 then [⟨0, 1⟩, ⟨1, 6⟩, ⟨4, 0⟩]
          else [⟨2, 3⟩, ⟨3, 2⟩, ⟨5, 5⟩, ⟨6, 4⟩] : List PlacedSample).map
            PlacedSample.index).Perm (List.range 7) := by
  have ranks : ∀ rank < (2 : UInt64).toNat, rank = 0 ∨ rank = 1 := by
    intro rank less
    have less : rank < 2 := less
    omega
  have partition := rankPlacements_partition 7 0 7 2 2 false true (by decide) (by decide)
    (by decide) (by
      intro rank less
      rcases ranks rank less with rfl | rfl
      · exact ⟨by decide, by decide, by decide⟩
      · exact ⟨by decide, by decide, by decide⟩)
  refine (partition.2 (fun rank => if rank = 0 then [⟨0, 1⟩, ⟨1, 6⟩, ⟨4, 0⟩]
    else [⟨2, 3⟩, ⟨3, 2⟩, ⟨5, 5⟩, ⟨6, 4⟩]) ?_).2.2.1 rfl rfl
  intro rank less
  rcases ranks rank less with rfl | rfl
  · exact ⟨8, Or.inl (by decide +kernel)⟩
  · exact ⟨8, Or.inr (by decide +kernel)⟩

end Hyperloader.Distributed
