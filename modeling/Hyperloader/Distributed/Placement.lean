/-
Module: Hyperloader.Distributed.Placement
Purpose: `rank_placements` of engine/src/rng/placement.rs: the blocks and the tail of one
  rank and the permuted index of every position, against the sharding they amount to.
Trusted boundary: none
Main exports:
  PlacementRequest, rankPlacements, ExactProducts, shardingOf, placedSamples,
  rankPlacements_cases
-/
import Hyperloader.Foundations.Sharding
import Hyperloader.Random.Selection

namespace Hyperloader.Distributed

open Foundations Hyperloader.Random

/-! ### The native placement -/

/-- One delivered dataset index and the position that owns its stream. -/
structure PlacedSample where
  position : Nat
  index : Nat
deriving DecidableEq

structure PlacementRequest where
  rootSeed : UInt64
  epoch : UInt64
  datasetLen : UInt64
  batchSize : UInt64
  worldSize : UInt64
  rank : UInt64
  dropLast : Bool
  exactCount : Bool

inductive PlacementError where
  | zeroBatchSize
  | zeroWorldSize
  | rankOutOfRange
  | coordinateOverflow
deriving DecidableEq

/-- Why a request has no placement: it is refused, or an `expect` fails. -/
inductive PlacementStop where
  | refused (error : PlacementError)
  | panicked
deriving DecidableEq

/-- An unchecked `u64` result. -/
def wrap (value : Nat) : Nat := value % 2 ^ 64

def checkedMul (one two : Nat) : Except PlacementError Nat :=
  if one * two < 2 ^ 64 then .ok (one * two) else .error .coordinateOverflow

def divCeil (value divisor : Nat) : Nat :=
  if value % divisor = 0 then value / divisor else value / divisor + 1

def paddedLen (datasetLen globalBatch : Nat) : Except PlacementError Nat :=
  if datasetLen = 0 then .ok 0 else checkedMul (divCeil datasetLen globalBatch) globalBatch

/-- The position of the permutation a global position reads. -/
def sourcePosition (datasetLen position : Nat) : Nat :=
  if position < datasetLen then position else (position - datasetLen) % datasetLen

/-- The list of a small dataset, which is built once; `none` inside for a large one. -/
def smallPermutation (passes : Nat) (request : PlacementRequest) :
    Option (Except PlacementStop (Option (Array UInt32))) :=
  if request.datasetLen < FEISTEL_THRESHOLD then
    (materializedPermutation passes request.rootSeed request.epoch
      request.datasetLen.toUInt32).map fun answer =>
        match answer with
        | .ok permutation => .ok (some permutation)
        | .error _ => .error .panicked
  else some (.ok none)

def mapIndex (passes : Nat) (request : PlacementRequest) (small : Option (Array UInt32))
    (position : Nat) : Option (Except PlacementStop Nat) :=
  match small with
  | some permutation =>
      match permutation[position]? with
      | some index => some (.ok index.toNat)
      | none => some (.error .panicked)
  | none =>
      (feistelPermute passes request.rootSeed request.epoch request.datasetLen
        (UInt64.ofNat position)).map fun answer =>
          match answer with
          | .ok index => .ok index.toNat
          | .error _ => .error .panicked

/-- The loop over `batch_start`. -/
def regularPositions (request : PlacementRequest) (globalBatch regularEnd : Nat) :
    Nat → Nat → Option (List Nat)
  | 0, _ => none
  | passes + 1, batchStart =>
      if batchStart < regularEnd then
        let rankStart := wrap (batchStart + wrap (request.rank.toNat * request.batchSize.toNat))
        let rankEnd := wrap (rankStart + request.batchSize.toNat)
        (regularPositions request globalBatch regularEnd passes
          (wrap (batchStart + globalBatch))).map
            (List.range' rankStart (rankEnd - rankStart) ++ ·)
      else some []

/-- The positions of the uneven tail. -/
def tailPositions (request : PlacementRequest) (fullEnd : Nat) : List Nat :=
  if request.exactCount && !request.dropLast then
    let tailSize := request.datasetLen.toNat - fullEnd
    let rankStart := wrap (fullEnd +
      wrap (request.rank.toNat * tailSize) / request.worldSize.toNat)
    let rankEnd := wrap (fullEnd +
      wrap (wrap (request.rank.toNat + 1) * tailSize) / request.worldSize.toNat)
    List.range' rankStart (rankEnd - rankStart)
  else []

/-- Push one sample for every position and its source. -/
def place {Stop : Type} (index : Nat → Option (Except Stop Nat)) :
    List (Nat × Nat) → Option (Except Stop (List PlacedSample))
  | [] => some (.ok [])
  | (position, source) :: rest =>
      match index source with
      | none => none
      | some (.error stop) => some (.error stop)
      | some (.ok index') =>
          (place index rest).map (Except.map (⟨position, index'⟩ :: ·))

/-- `rank_placements`; `none` while a loop has not ended within the passes given. -/
def rankPlacements (passes : Nat) (request : PlacementRequest) :
    Option (Except PlacementStop (List PlacedSample)) :=
  if request.batchSize = 0 then some (.error (.refused .zeroBatchSize))
  else if request.worldSize = 0 then some (.error (.refused .zeroWorldSize))
  else if request.worldSize ≤ request.rank then some (.error (.refused .rankOutOfRange))
  else if request.datasetLen = 0 then some (.ok [])
  else
    match checkedMul request.batchSize.toNat request.worldSize.toNat with
    | .error error => some (.error (.refused error))
    | .ok globalBatch =>
        let datasetLen := request.datasetLen.toNat
        let fullEnd := datasetLen / globalBatch * globalBatch
        match (if request.dropLast || request.exactCount then .ok fullEnd
          else paddedLen datasetLen globalBatch) with
        | .error error => some (.error (.refused error))
        | .ok regularEnd =>
            match smallPermutation passes request with
            | none => none
            | some (.error stop) => some (.error stop)
            | some (.ok small) =>
                match regularPositions request globalBatch regularEnd passes 0 with
                | none => none
                | some regular =>
                    place (mapIndex passes request small)
                      (regular.map (fun position =>
                          (position, sourcePosition datasetLen position)) ++
                        (tailPositions request fullEnd).map fun position =>
                          (position, position))

/-! ### The sharding of a request -/

theorem divCeil_mul_ge {divisor : Nat} (value : Nat) (positive : 0 < divisor) :
    value ≤ divCeil value divisor * divisor := by
  have split := Nat.div_add_mod' value divisor
  have below := Nat.mod_lt value positive
  unfold divCeil
  split
  · omega
  · rw [Nat.succ_mul]
    omega

/-- The blocks and the tail of a dataset under the two flags. -/
def shardingOf (datasetLen batch world : Nat) (dropLast exactCount : Bool)
    (batchPositive : 0 < batch) (worldPositive : 0 < world) : Sharding where
  batch := batch
  world := world
  blocks :=
    if dropLast || exactCount then datasetLen / (batch * world)
    else divCeil datasetLen (batch * world)
  tail := if exactCount && !dropLast then datasetLen % (batch * world) else 0
  batchPositive := batchPositive
  worldPositive := worldPositive
  tailFits := by
    have positive := Nat.mul_pos batchPositive worldPositive
    split
    · exact Nat.mod_lt _ positive
    · exact positive

section Shardings

variable {datasetLen batch world : Nat} {dropLast exactCount : Bool}
  {batchPositive : 0 < batch} {worldPositive : 0 < world}

/-- The tail of exact counts is the share of the rank; otherwise nothing is left over. -/
theorem shardingOf_tailShare (rank : Nat) :
    (shardingOf datasetLen batch world dropLast exactCount batchPositive
        worldPositive).tailShare rank =
      if exactCount && !dropLast then
        List.range' (datasetLen / (batch * world) * (batch * world) +
            rank * (datasetLen % (batch * world)) / world)
          ((rank + 1) * (datasetLen % (batch * world)) / world -
            rank * (datasetLen % (batch * world)) / world)
      else [] := by
  by_cases uneven : (exactCount && !dropLast) = true
  · obtain ⟨counted, kept⟩ : exactCount = true ∧ dropLast = false := by
      simpa only [Bool.and_eq_true, Bool.not_eq_true'] using uneven
    subst counted kept
    rfl
  · rw [if_neg uneven]
    apply Sharding.tailShare_of_even
    exact if_neg uneven

/-- The share of a rank lies in the dataset: only padding lies behind it. -/
theorem shardingOf_tail_source {rank : Nat} (rankLt : rank < world) :
    ((shardingOf datasetLen batch world dropLast exactCount batchPositive
        worldPositive).tailShare rank).map (fun position => (position, position)) =
      ((shardingOf datasetLen batch world dropLast exactCount batchPositive
        worldPositive).tailShare rank).map
          fun position => (position, sourcePosition datasetLen position) := by
  apply List.map_congr_left
  intro position member
  by_cases uneven : (exactCount && !dropLast) = true
  · obtain ⟨counted, kept⟩ : exactCount = true ∧ dropLast = false := by
      simpa only [Bool.and_eq_true, Bool.not_eq_true'] using uneven
    subst counted kept
    have inside := Sharding.lt_total_of_mem_tailShare rankLt member
    have whole : (shardingOf datasetLen batch world false true batchPositive
        worldPositive).total = datasetLen := Nat.div_add_mod' datasetLen (batch * world)
    rw [whole] at inside
    rw [sourcePosition, if_pos inside]
  · rw [shardingOf_tailShare, if_neg uneven] at member
    cases member

end Shardings

/-- The products of a request, computed exactly, are below `2 ^ 64`. -/
structure ExactProducts (request : PlacementRequest) : Prop where
  globalBatch : request.datasetLen ≠ 0 →
    request.batchSize.toNat * request.worldSize.toNat < 2 ^ 64
  padded : request.dropLast = false → request.exactCount = false →
    divCeil request.datasetLen.toNat (request.batchSize.toNat * request.worldSize.toNat) *
      (request.batchSize.toNat * request.worldSize.toNat) < 2 ^ 64
  tail : request.exactCount = true → request.dropLast = false →
    (request.rank.toNat + 1) *
      (request.datasetLen.toNat % (request.batchSize.toNat * request.worldSize.toNat)) < 2 ^ 64

/-! ### Positions of one rank -/

section OneRank

variable {request : PlacementRequest}

theorem ne_zero_of_toNat_pos {word : UInt64} (positive : 0 < word.toNat) : ¬word = 0 := by
  intro zero
  rw [zero] at positive
  exact Nat.lt_irrefl _ positive

theorem wrap_eq {value : Nat} (small : value < 2 ^ 64) : wrap value = value :=
  Nat.mod_eq_of_lt small

/-- The loop over the blocks left: one pass for each and one to see the end. -/
theorem regularPositions_eq {globalBatch blocks : Nat}
    (whole : globalBatch = request.batchSize.toNat * request.worldSize.toNat)
    (rankLt : request.rank.toNat < request.worldSize.toNat)
    (batchPositive : 0 < request.batchSize.toNat) (bound : blocks * globalBatch < 2 ^ 64)
    (passes : Nat) {ordinal : Nat} (le : ordinal ≤ blocks) :
    regularPositions request globalBatch (blocks * globalBatch) passes
        (ordinal * globalBatch) =
      if blocks - ordinal < passes then
        some ((List.range' ordinal (blocks - ordinal)).flatMap fun block =>
          List.range' (block * globalBatch + request.rank.toNat * request.batchSize.toNat)
            request.batchSize.toNat)
      else none := by
  have globalPositive : 0 < globalBatch := by
    rw [whole]
    exact Nat.mul_pos batchPositive (Nat.lt_of_le_of_lt (Nat.zero_le _) rankLt)
  induction passes generalizing ordinal with
  | zero =>
      rw [regularPositions, if_neg (Nat.not_lt_zero _)]
  | succ passes ih =>
      rw [regularPositions]
      by_cases within : ordinal < blocks
      · have before : ordinal * globalBatch < blocks * globalBatch :=
          (Nat.mul_lt_mul_right globalPositive).mpr within
        have next : (ordinal + 1) * globalBatch ≤ blocks * globalBatch :=
          Nat.mul_le_mul_right _ within
        have offset : (request.rank.toNat + 1) * request.batchSize.toNat ≤ globalBatch := by
          rw [whole, Nat.mul_comm]
          exact Nat.mul_le_mul_left _ rankLt
        rw [Nat.succ_mul] at next offset
        have count : blocks - ordinal = (blocks - (ordinal + 1)) + 1 := by omega
        have advance : ordinal * globalBatch + globalBatch = (ordinal + 1) * globalBatch :=
          (Nat.succ_mul _ _).symm
        rw [if_pos before]
        dsimp only
        simp (disch := omega) only [wrap_eq]
        rw [advance, ih within, Nat.add_sub_cancel_left]
        by_cases enough : blocks - (ordinal + 1) < passes
        · rw [if_pos enough, if_pos (by omega), count, List.range'_succ, List.flatMap_cons]
          rfl
        · rw [if_neg enough, if_neg (by omega)]
          rfl
      · have last : ordinal = blocks := Nat.le_antisymm le (Nat.le_of_not_lt within)
        subst last
        rw [if_neg (Nat.lt_irrefl _), Nat.sub_self, if_pos (Nat.succ_pos _), List.range'_zero,
          List.flatMap_nil]

variable (batchPositive : 0 < request.batchSize.toNat)
  (worldPositive : 0 < request.worldSize.toNat)

/-- The sharding a request describes. -/
def PlacementRequest.sharding (request : PlacementRequest)
    (batchPositive : 0 < request.batchSize.toNat)
    (worldPositive : 0 < request.worldSize.toNat) : Sharding :=
  shardingOf request.datasetLen.toNat request.batchSize.toNat request.worldSize.toNat
    request.dropLast request.exactCount batchPositive worldPositive

section

variable (exact : ExactProducts request)

include exact

/-- The words of the tail do not overflow. -/
theorem tailPositions_eq (rankLt : request.rank.toNat < request.worldSize.toNat) :
    tailPositions request (request.datasetLen.toNat /
        (request.batchSize.toNat * request.worldSize.toNat) *
          (request.batchSize.toNat * request.worldSize.toNat)) =
      (request.sharding batchPositive worldPositive).tailShare request.rank.toNat := by
  have lengthWord := request.datasetLen.toNat_lt
  have worldWord := request.worldSize.toNat_lt
  have divided := Nat.div_add_mod' request.datasetLen.toNat
    (request.batchSize.toNat * request.worldSize.toNat)
  rw [PlacementRequest.sharding, shardingOf_tailShare, tailPositions]
  by_cases uneven : (request.exactCount && !request.dropLast) = true
  · obtain ⟨counted, kept⟩ : request.exactCount = true ∧ request.dropLast = false := by
      simpa only [Bool.and_eq_true, Bool.not_eq_true'] using uneven
    have product := exact.tail counted kept
    have tailSize : request.datasetLen.toNat - request.datasetLen.toNat /
        (request.batchSize.toNat * request.worldSize.toNat) *
          (request.batchSize.toNat * request.worldSize.toNat) =
        request.datasetLen.toNat % (request.batchSize.toNat * request.worldSize.toNat) := by
      omega
    have last : (request.rank.toNat + 1) * (request.datasetLen.toNat %
        (request.batchSize.toNat * request.worldSize.toNat)) / request.worldSize.toNat ≤
        request.datasetLen.toNat % (request.batchSize.toNat * request.worldSize.toNat) := by
      apply Nat.div_le_of_le_mul
      exact Nat.mul_le_mul_right _ rankLt
    have first : request.rank.toNat * (request.datasetLen.toNat %
        (request.batchSize.toNat * request.worldSize.toNat)) / request.worldSize.toNat ≤
        (request.rank.toNat + 1) * (request.datasetLen.toNat %
        (request.batchSize.toNat * request.worldSize.toNat)) / request.worldSize.toNat :=
      Nat.div_le_div_right (Nat.mul_le_mul_right _ (Nat.le_succ _))
    have smaller : request.rank.toNat * (request.datasetLen.toNat %
        (request.batchSize.toNat * request.worldSize.toNat)) < 2 ^ 64 :=
      Nat.lt_of_le_of_lt (Nat.mul_le_mul_right _ (Nat.le_succ _)) product
    rw [if_pos uneven, if_pos uneven]
    dsimp only
    simp only [tailSize]
    rw [wrap_eq smaller, @wrap_eq (request.rank.toNat + 1) (by omega), wrap_eq product,
      wrap_eq (by omega), wrap_eq (by omega), Nat.add_sub_add_left]
  · rw [if_neg uneven, if_neg uneven]

/-- The end of the regular positions fits a word. -/
theorem blocks_bound :
    (request.sharding batchPositive worldPositive).blocks *
      (request.batchSize.toNat * request.worldSize.toNat) < 2 ^ 64 := by
  unfold PlacementRequest.sharding shardingOf
  dsimp only
  split
  · exact Nat.lt_of_le_of_lt (Nat.div_mul_le_self _ _) request.datasetLen.toNat_lt
  · rename_i padded
    simp only [Bool.or_eq_true, not_or, Bool.not_eq_true] at padded
    exact exact.padded padded.1 padded.2

/-- Once the list of a small dataset is there, the loops place the positions of the rank. -/
theorem rankPlacements_eq (rankLt : request.rank.toNat < request.worldSize.toNat)
    (filled : request.datasetLen ≠ 0) (passes : Nat) :
    rankPlacements passes request =
      match smallPermutation passes request with
      | none => none
      | some (.error stop) => some (.error stop)
      | some (.ok small) =>
          if (request.sharding batchPositive worldPositive).blocks < passes then
            place (mapIndex passes request small)
              (((request.sharding batchPositive worldPositive).positions request.rank.toNat).map
                fun position => (position, sourcePosition request.datasetLen.toNat position))
          else none := by
  have lengthWord := request.datasetLen.toNat_lt
  have batchSome : ¬request.batchSize = 0 := ne_zero_of_toNat_pos batchPositive
  have worldSome : ¬request.worldSize = 0 := ne_zero_of_toNat_pos worldPositive
  have member : ¬request.worldSize ≤ request.rank := UInt64.not_le.mpr rankLt
  have globalBatch := exact.globalBatch filled
  have bound := blocks_bound batchPositive worldPositive exact
  have ends : (if request.dropLast || request.exactCount then
        (.ok (request.datasetLen.toNat / (request.batchSize.toNat * request.worldSize.toNat) *
          (request.batchSize.toNat * request.worldSize.toNat)) : Except PlacementError Nat)
      else paddedLen request.datasetLen.toNat
        (request.batchSize.toNat * request.worldSize.toNat)) =
      .ok ((request.sharding batchPositive worldPositive).blocks *
        (request.batchSize.toNat * request.worldSize.toNat)) := by
    unfold PlacementRequest.sharding shardingOf at bound ⊢
    dsimp only at bound ⊢
    split
    · rfl
    · rename_i padded
      rw [if_neg padded] at bound
      have some : ¬request.datasetLen.toNat = 0 := fun zero =>
        filled (UInt64.toNat_inj.mp zero)
      rw [paddedLen, if_neg some, checkedMul, if_pos bound]
  have loop := @regularPositions_eq request _
    (request.sharding batchPositive worldPositive).blocks rfl rankLt batchPositive bound
    passes 0 (Nat.zero_le _)
  have tail := tailPositions_eq batchPositive worldPositive exact rankLt
  rw [Nat.zero_mul, Nat.sub_zero] at loop
  rw [rankPlacements, if_neg batchSome, if_neg worldSome, if_neg member, if_neg filled,
    checkedMul, if_pos globalBatch]
  dsimp only
  rw [ends]
  dsimp only
  cases smallPermutation passes request with
  | none => rfl
  | some small =>
      cases small with
      | error stop => rfl
      | ok small =>
          dsimp only
          rw [loop]
          by_cases enough : (request.sharding batchPositive worldPositive).blocks < passes
          · have sources := @shardingOf_tail_source request.datasetLen.toNat
              request.batchSize.toNat request.worldSize.toNat request.dropLast
              request.exactCount batchPositive worldPositive request.rank.toNat rankLt
            rw [if_pos enough, if_pos enough, Sharding.positions_eq_append, List.map_append,
              tail, PlacementRequest.sharding, sources]
            rfl
          · rw [if_neg enough, if_neg enough]

end

end OneRank

/-! ### The samples of one rank -/

theorem sourcePosition_lt {datasetLen : Nat} (position : Nat) (filled : 0 < datasetLen) :
    sourcePosition datasetLen position < datasetLen := by
  unfold sourcePosition
  split
  · assumption
  · exact Nat.mod_lt _ filled

/-- A loop that either answers as `select` does or waits for more passes. -/
theorem place_eq {Stop : Type} {index : Nat → Option (Except Stop Nat)}
    {select : Nat → Nat} {enough : Prop} (pairs : List (Nat × Nat))
    (each : ∀ pair ∈ pairs, index pair.2 = some (.ok (select pair.2)) ∨
      index pair.2 = none ∧ ¬enough) :
    place index pairs =
        some (.ok (pairs.map fun pair => ⟨pair.1, select pair.2⟩)) ∨
      place index pairs = none ∧ ¬enough := by
  induction pairs with
  | nil => exact Or.inl rfl
  | cons pair rest ih =>
      rw [List.forall_mem_cons] at each
      obtain ⟨here, later⟩ := each
      rw [place]
      rcases here with answered | ⟨waiting, short⟩
      · rw [answered]
        rcases ih later with placed | ⟨waiting, short⟩
        · exact Or.inl (by rw [placed]; rfl)
        · exact Or.inr ⟨by rw [waiting]; rfl, short⟩
      · exact Or.inr ⟨by rw [waiting], short⟩

section Samples

variable {request : PlacementRequest}
  (selection : Selection request.rootSeed request.epoch request.datasetLen)

/-- Inside the dataset the index is the one selected, as soon as the walk ends. -/
theorem mapIndex_eq {passes : Nat} {small : Option (Array UInt32)} {position : Nat}
    (settled : smallPermutation passes request = some (.ok small))
    (inside : position < request.datasetLen.toNat) :
    mapIndex passes request small position = some (.ok (selection.select position)) ∨
      mapIndex passes request small position = none ∧ ¬2 ^ 64 ≤ passes := by
  unfold smallPermutation at settled
  split at settled
  · rename_i below
    obtain ⟨answer, returned, same⟩ := Option.map_eq_some_iff.mp settled
    cases answer with
    | error failure => cases same
    | ok permutation =>
        cases same
        have read := selection.small below returned inside
        obtain ⟨index, found, number⟩ := Option.map_eq_some_iff.mp read
        rw [mapIndex, found, ← number]
        exact Or.inl rfl
  · rename_i above
    cases settled
    have large := UInt64.not_lt.mp above
    have number : (UInt64.ofNat (selection.select position)).toNat =
        selection.select position :=
      UInt64.toNat_ofNat_of_lt'
        (Nat.lt_trans (selection.below position inside) request.datasetLen.toNat_lt)
    rw [mapIndex]
    cases walked : feistelPermute passes request.rootSeed request.epoch request.datasetLen
      (UInt64.ofNat position) with
    | none =>
        refine Or.inr ⟨rfl, fun enough => ?_⟩
        rw [selection.walked large passes enough position inside] at walked
        cases walked
    | some answer =>
        rw [selection.large large inside walked]
        exact Or.inl (congrArg (fun index => some (Except.ok index)) number)

variable (batchPositive : 0 < request.batchSize.toNat)
  (worldPositive : 0 < request.worldSize.toNat)

/-- The samples of the rank of a request. -/
def placedSamples (select : Nat → Nat) (sharding : Sharding) (datasetLen rank : Nat) :
    List PlacedSample :=
  (sharding.positions rank).map fun position =>
    ⟨position, select (sourcePosition datasetLen position)⟩

/-- An empty dataset has no positions. -/
theorem positions_of_empty (empty : request.datasetLen = 0) (rank : Nat) :
    (request.sharding batchPositive worldPositive).positions rank = [] := by
  have blocks : (request.sharding batchPositive worldPositive).blocks = 0 := by
    simp only [PlacementRequest.sharding, shardingOf, empty, UInt64.toNat_zero, Nat.zero_div,
      divCeil, Nat.zero_mod, if_true, ite_self]
  have even : (request.sharding batchPositive worldPositive).tail = 0 := by
    simp only [PlacementRequest.sharding, shardingOf, empty, UInt64.toNat_zero, Nat.zero_mod,
      ite_self]
  rw [Sharding.positions_eq_append, Sharding.regular, blocks, Sharding.tailShare_of_even even,
    List.range'_zero, List.flatMap_nil, List.append_nil]

/-- What a request within the bounds can end as: the samples of the rank, an `expect`
of the shuffle, or nothing while the passes do not suffice. -/
theorem rankPlacements_cases (exact : ExactProducts request)
    (rankLt : request.rank.toNat < request.worldSize.toNat) (passes : Nat) :
    rankPlacements passes request =
        some (.ok (placedSamples selection.select (request.sharding batchPositive worldPositive)
          request.datasetLen.toNat request.rank.toNat)) ∨
      (rankPlacements passes request = none ∨
        rankPlacements passes request = some (.error .panicked)) ∧
        (2 ^ 64 ≤ passes → request.datasetLen < FEISTEL_THRESHOLD ∧
          ∀ permutation, materializedPermutation passes request.rootSeed request.epoch
            request.datasetLen.toUInt32 ≠ some (.ok permutation)) := by
  by_cases empty : request.datasetLen = 0
  · left
    have batchSome : ¬request.batchSize = 0 := ne_zero_of_toNat_pos batchPositive
    have worldSome : ¬request.worldSize = 0 := ne_zero_of_toNat_pos worldPositive
    have member : ¬request.worldSize ≤ request.rank := UInt64.not_le.mpr rankLt
    rw [rankPlacements, if_neg batchSome, if_neg worldSome, if_neg member, if_pos empty,
      placedSamples, positions_of_empty batchPositive worldPositive empty, List.map_nil]
  · have filled : 0 < request.datasetLen.toNat :=
      Nat.pos_of_ne_zero fun zero => empty (UInt64.toNat_inj.mp zero)
    rw [rankPlacements_eq batchPositive worldPositive exact rankLt empty]
    cases settled : smallPermutation passes request with
    | none =>
        right
        refine ⟨Or.inl rfl, fun _ => ?_⟩
        unfold smallPermutation at settled
        split at settled
        · rename_i below
          refine ⟨below, fun permutation returned => ?_⟩
          rw [returned] at settled
          cases settled
        · cases settled
    | some answer =>
        cases answer with
        | error stop =>
            right
            unfold smallPermutation at settled
            split at settled
            · rename_i below
              obtain ⟨outcome, returned, same⟩ := Option.map_eq_some_iff.mp settled
              cases outcome with
              | error failure =>
                  cases same
                  refine ⟨Or.inr rfl, fun _ => ⟨below, fun permutation listed => ?_⟩⟩
                  rw [returned] at listed
                  cases listed
              | ok permutation => cases same
            · cases settled
        | ok small =>
            dsimp only
            have bound := blocks_bound batchPositive worldPositive exact
            by_cases enough : (request.sharding batchPositive worldPositive).blocks < passes
            · rw [if_pos enough]
              have placed := @place_eq _ (mapIndex passes request small) selection.select
                (2 ^ 64 ≤ passes)
                (((request.sharding batchPositive worldPositive).positions
                  request.rank.toNat).map fun position =>
                    (position, sourcePosition request.datasetLen.toNat position))
                (by
                  intro pair member
                  obtain ⟨position, _, rfl⟩ := List.mem_map.mp member
                  exact mapIndex_eq selection settled (sourcePosition_lt position filled))
              rw [List.map_map] at placed
              rcases placed with placed | ⟨waiting, short⟩
              · exact Or.inl placed
              · exact Or.inr ⟨Or.inl waiting, fun enough => absurd enough short⟩
            · rw [if_neg enough]
              have positive := Nat.mul_pos batchPositive worldPositive
              have less : (request.sharding batchPositive worldPositive).blocks < 2 ^ 64 :=
                Nat.lt_of_le_of_lt (Nat.le_mul_of_pos_right _ positive) bound
              refine Or.inr ⟨Or.inl rfl, fun many => ?_⟩
              exact absurd (Nat.lt_of_lt_of_le less many) enough

end Samples

end Hyperloader.Distributed
