/-
Module: Hyperloader.Distributed.MapPlacement
Purpose: `MapPlacement` of distributed/map.py, which finds the coordinate of one rank-local
  position at a time, and its agreement with the placement the engine enumerates.
Trusted boundary: none
Main exports:
  MapPlacement, MapPlacement.coordinate, MapPlacement.index, coordinates_eq,
  enumerated_eq_placed
-/
import Hyperloader.Distributed.Ranks

namespace Hyperloader.Distributed

open Foundations Hyperloader.Random

/-! ### The placement of one position -/

/-- What a placement or a plan raises. -/
inductive MapRaised where
  | indexError (text : String)
  | refusal (refusal : Refusal)

/-- The fields of a map plan that decide its indices. -/
structure MapPlan where
  length : Nat
  shuffle : Bool

def PLAN_REFUSED : String := "sampler position is outside the dataset"

/-- `plan.index` -/
def MapPlan.index (passes : Nat) (plan : MapPlan) (rootSeed epoch : UInt64) (position : Int) :
    Option (Except MapRaised Nat) :=
  if ¬(0 ≤ position ∧ position < plan.length) then
    some (.error (.indexError PLAN_REFUSED))
  else if !plan.shuffle then some (.ok position.toNat)
  else
    match Binding.readWord 64 plan.length with
    | .error refusal => some (.error (.refusal refusal))
    | .ok length =>
        (Binding.permutationIndex passes rootSeed epoch (UInt64.ofNat length) position).map
          (Except.mapError .refusal)

structure MapPlacement where
  datasetLength : Nat
  batchSize : Nat
  rank : Nat
  worldSize : Nat
  dropLast : Bool
  exactCount : Bool
  enabled : Bool

def COORDINATE_REFUSED : String := "rank-local sampler position is outside the placement"

namespace MapPlacement

variable (placement : MapPlacement)

def globalBatch : Nat := placement.batchSize * placement.worldSize

def length : Nat :=
  if !placement.enabled then
    if placement.dropLast then
      placement.datasetLength - placement.datasetLength % placement.batchSize
    else placement.datasetLength
  else
    let fullBatches := placement.datasetLength / placement.globalBatch
    let tail := placement.datasetLength % placement.globalBatch
    let fullLength := fullBatches * placement.batchSize
    if placement.dropLast || tail == 0 then fullLength
    else if placement.exactCount then
      let start := placement.rank * tail / placement.worldSize
      let stop := (placement.rank + 1) * tail / placement.worldSize
      fullLength + stop - start
    else (fullBatches + 1) * placement.batchSize

/-- The coordinate of a position inside the placement. -/
def locate (position : Nat) : Nat :=
  if !placement.enabled then position
  else
    let fullBatches := placement.datasetLength / placement.globalBatch
    let tail := placement.datasetLength % placement.globalBatch
    let fullLength := fullBatches * placement.batchSize
    if position < fullLength then
      position / placement.batchSize * placement.globalBatch +
        placement.rank * placement.batchSize + position % placement.batchSize
    else if placement.exactCount && tail != 0 then
      let tailStart := placement.rank * tail / placement.worldSize
      fullBatches * placement.globalBatch + tailStart + position - fullLength
    else
      position / placement.batchSize * placement.globalBatch +
        placement.rank * placement.batchSize + position % placement.batchSize

def coordinate (position : Int) : Except MapRaised Nat :=
  if ¬(0 ≤ position ∧ position < placement.length) then
    .error (.indexError COORDINATE_REFUSED)
  else .ok (placement.locate position.toNat)

def index (passes : Nat) (plan : MapPlan) (rootSeed epoch : UInt64) (position : Int) :
    Option (Except MapRaised Nat) :=
  match placement.coordinate position with
  | .error raised => some (.error raised)
  | .ok coordinate =>
      plan.index passes rootSeed epoch (sourcePosition placement.datasetLength coordinate)

/-- Whether local positions are unchanged dataset positions. -/
def identity : Bool :=
  !placement.enabled ||
    (placement.worldSize == 1 && placement.length == placement.datasetLength)

/-- The coordinate and the index of every position given, in order. -/
def enumerate (passes : Nat) (plan : MapPlan) (rootSeed epoch : UInt64) :
    List Nat → Option (Except MapRaised (List PlacedSample))
  | [] => some (.ok [])
  | position :: rest =>
      match placement.coordinate position, placement.index passes plan rootSeed epoch position with
      | .error raised, _ => some (.error raised)
      | .ok _, none => none
      | .ok _, some (.error raised) => some (.error raised)
      | .ok coordinate, some (.ok index) =>
          (enumerate passes plan rootSeed epoch rest).map (Except.map (⟨coordinate, index⟩ :: ·))

end MapPlacement

/-! ### The indices of one loader -/

/-- What `index` returns for the positions of a placement under one seed and epoch. -/
structure MapIndices (placement : MapPlacement) (plan : MapPlan) (rootSeed epoch : UInt64) where
  index : Nat → Nat
  returns : ∀ position < placement.length, ∃ passes,
    placement.index passes plan rootSeed epoch position = some (.ok (index position))

namespace MapPlacement

variable {placement : MapPlacement} {position : Nat}

end MapPlacement

variable {plan : MapPlan} {rootSeed epoch : UInt64} {position : Nat}

/-- Dividing a local position by the batch walks through the parts of the blocks. -/
theorem map_blocks {batch : Nat} (batchPositive : 0 < batch) (stride offset blocks : Nat) :
    (List.range (blocks * batch)).map (fun position =>
        position / batch * stride + offset + position % batch) =
      (List.range' 0 blocks).flatMap fun block =>
        List.range' (block * stride + offset) batch := by
  induction blocks with
  | zero => rw [Nat.zero_mul]; rfl
  | succ blocks ih =>
      have last : ((List.range batch).map fun within => blocks * batch + within).map
          (fun position => position / batch * stride + offset + position % batch) =
          List.range' (blocks * stride + offset) batch := by
        rw [List.map_map, List.range'_eq_map_range]
        apply List.map_congr_left
        intro within member
        have less := List.mem_range.mp member
        have quotient : (blocks * batch + within) / batch = blocks := by
          rw [Nat.mul_comm, Nat.mul_add_div batchPositive, Nat.div_eq_of_lt less, Nat.add_zero]
        have remainder : (blocks * batch + within) % batch = within := by
          rw [Nat.mul_comm, Nat.mul_add_mod, Nat.mod_eq_of_lt less]
        rw [Function.comp_apply, quotient, remainder]
      rw [Nat.succ_mul, List.range_add, List.map_append, ih, last,
        List.range'_1_concat, List.flatMap_append, List.flatMap_singleton, Nat.zero_add]

namespace MapPlacement

/-- The sharding a placement walks through: its world, or the dataset in batches. -/
def sharding (placement : MapPlacement) (batchPositive : 0 < placement.batchSize)
    (worldPositive : 0 < placement.worldSize) : Sharding :=
  if placement.enabled then
    shardingOf placement.datasetLength placement.batchSize placement.worldSize
      placement.dropLast placement.exactCount batchPositive worldPositive
  else
    shardingOf placement.datasetLength placement.batchSize 1 placement.dropLast true
      batchPositive Nat.one_pos

variable {placement : MapPlacement} {batchPositive : 0 < placement.batchSize}
  {worldPositive : 0 < placement.worldSize}

/-- The local positions of the regular blocks. -/
theorem map_locate_regular {blocks : Nat} (enabled : placement.enabled = true)
    (inside : ∀ position < blocks * placement.batchSize,
      position < placement.datasetLength / placement.globalBatch * placement.batchSize ∨
        (placement.exactCount && placement.datasetLength % placement.globalBatch != 0) = false)
    (batchPositive : 0 < placement.batchSize) :
    (List.range (blocks * placement.batchSize)).map placement.locate =
      (List.range' 0 blocks).flatMap fun block =>
        List.range' (block * placement.globalBatch + placement.rank * placement.batchSize)
          placement.batchSize := by
  rw [← map_blocks batchPositive]
  apply List.map_congr_left
  intro position member
  rw [locate, enabled, if_neg (by decide)]
  dsimp only
  rcases inside position (List.mem_range.mp member) with regular | padded
  · rw [if_pos regular]
  · rw [padded, if_neg Bool.false_ne_true, ite_self]

/-- Without a tail to share, or with padding, the coordinates are those of the blocks. -/
theorem coordinates_of_blocks {blocks : Nat} (enabled : placement.enabled = true)
    (batchPositive : 0 < placement.batchSize)
    (length : placement.length = blocks * placement.batchSize)
    (inside : ∀ position < blocks * placement.batchSize,
      position < placement.datasetLength / placement.globalBatch * placement.batchSize ∨
        (placement.exactCount && placement.datasetLength % placement.globalBatch != 0) = false)
    (sharding : Sharding) (batch : sharding.batch = placement.batchSize)
    (world : sharding.world = placement.worldSize) (counted : sharding.blocks = blocks)
    (even : sharding.tail = 0) :
    (List.range placement.length).map placement.locate = sharding.positions placement.rank := by
  rw [Sharding.positions_eq_append, Sharding.tailShare_of_even even, List.append_nil, length,
    map_locate_regular enabled inside batchPositive, Sharding.regular, Sharding.globalBatch,
    counted, batch, world]
  rfl

theorem coordinates_of_enabled (enabled : placement.enabled = true) :
    (List.range placement.length).map placement.locate =
      (shardingOf placement.datasetLength placement.batchSize placement.worldSize
        placement.dropLast placement.exactCount batchPositive worldPositive).positions
          placement.rank := by
  by_cases dropped : placement.dropLast = true
  · -- the tail is discarded
    have length : placement.length =
        placement.datasetLength / placement.globalBatch * placement.batchSize := by
      rw [MapPlacement.length, enabled, dropped]
      rfl
    apply coordinates_of_blocks enabled batchPositive length (fun _ => Or.inl) _ rfl rfl
    · simp only [shardingOf, dropped, Bool.true_or, if_true]
      rfl
    · simp only [shardingOf, dropped, Bool.not_true, Bool.and_false, Bool.false_eq_true,
        if_false]
  · have kept : placement.dropLast = false := Bool.eq_false_of_not_eq_true dropped
    by_cases even : placement.datasetLength % placement.globalBatch = 0
    · have length : placement.length =
          placement.datasetLength / placement.globalBatch * placement.batchSize := by
        rw [MapPlacement.length, enabled, kept, even]
        rfl
      have divided : placement.datasetLength %
          (placement.batchSize * placement.worldSize) = 0 := even
      apply coordinates_of_blocks enabled batchPositive length (fun _ => Or.inl) _ rfl rfl
      · simp only [shardingOf, divCeil, divided, if_true, ite_self]
        rfl
      · simp only [shardingOf, divided, ite_self]
    · by_cases counted : placement.exactCount = true
      · -- the regular part, then the share of the tail
        have test : (placement.datasetLength % placement.globalBatch == 0) = false :=
          beq_false_of_ne even
        have shared : (placement.exactCount &&
            placement.datasetLength % placement.globalBatch != 0) = true := by
          rw [counted, bne, test]
          rfl
        have ordered : placement.rank * (placement.datasetLength % placement.globalBatch) /
              placement.worldSize ≤
            (placement.rank + 1) * (placement.datasetLength % placement.globalBatch) /
              placement.worldSize :=
          Nat.div_le_div_right (Nat.mul_le_mul_right _ (Nat.le_succ _))
        have length : placement.length =
            placement.datasetLength / placement.globalBatch * placement.batchSize +
              ((placement.rank + 1) * (placement.datasetLength % placement.globalBatch) /
                placement.worldSize -
              placement.rank * (placement.datasetLength % placement.globalBatch) /
                placement.worldSize) := by
          rw [MapPlacement.length, enabled, kept, counted]
          dsimp only
          rw [test, ← Nat.add_sub_assoc ordered]
          rfl
        have tail : ((List.range ((placement.rank + 1) *
              (placement.datasetLength % placement.globalBatch) / placement.worldSize -
              placement.rank * (placement.datasetLength % placement.globalBatch) /
                placement.worldSize)).map fun within =>
            placement.datasetLength / placement.globalBatch * placement.batchSize +
              within).map placement.locate =
            List.range' (placement.datasetLength / placement.globalBatch *
                placement.globalBatch +
              placement.rank * (placement.datasetLength % placement.globalBatch) /
                placement.worldSize)
              ((placement.rank + 1) * (placement.datasetLength % placement.globalBatch) /
                placement.worldSize -
              placement.rank * (placement.datasetLength % placement.globalBatch) /
                placement.worldSize) := by
          rw [List.map_map, List.range'_eq_map_range]
          apply List.map_congr_left
          intro within _
          rw [Function.comp_apply, locate, enabled, if_neg (by decide)]
          dsimp only
          rw [if_neg (Nat.not_lt.mpr (Nat.le_add_right _ _)), if_pos shared,
            Nat.add_left_comm, Nat.add_sub_cancel_left]
        rw [length, List.range_add, List.map_append, tail,
          map_locate_regular enabled (fun _ => Or.inl) batchPositive,
          Sharding.positions_eq_append, shardingOf_tailShare, kept, counted]
        rfl
      · have padded : placement.exactCount = false := Bool.eq_false_of_not_eq_true counted
        have uneven : ¬placement.datasetLength %
            (placement.batchSize * placement.worldSize) = 0 := even
        have length : placement.length =
            (placement.datasetLength / placement.globalBatch + 1) * placement.batchSize := by
          have test : (placement.datasetLength % placement.globalBatch == 0) = false :=
            beq_false_of_ne even
          rw [MapPlacement.length, enabled, kept, padded]
          dsimp only
          rw [test]
          rfl
        have shared : (placement.exactCount &&
            placement.datasetLength % placement.globalBatch != 0) = false := by
          rw [padded, Bool.false_and]
        apply coordinates_of_blocks enabled batchPositive length (fun _ _ => Or.inr shared) _
          rfl rfl
        · simp only [shardingOf, divCeil, kept, padded, uneven, Bool.or_self, if_false,
            Bool.false_eq_true]
          rfl
        · simp only [shardingOf, padded, Bool.false_and, Bool.false_eq_true, if_false]

/-- Outside a distributed world the coordinates are the positions themselves. -/
theorem coordinates_of_disabled (disabled : placement.enabled = false) :
    (List.range placement.length).map placement.locate =
      (shardingOf placement.datasetLength placement.batchSize 1 placement.dropLast true
        batchPositive Nat.one_pos).positions 0 := by
  have located : placement.locate = id := by
    funext position
    rw [locate, disabled]
    rfl
  have divided := Nat.div_add_mod' placement.datasetLength placement.batchSize
  have regular : (List.range' 0 (placement.datasetLength / placement.batchSize)).flatMap
      (fun block => List.range' (block * (placement.batchSize * 1) + 0 * placement.batchSize)
        placement.batchSize) =
      List.range (placement.datasetLength / placement.batchSize * placement.batchSize) := by
    rw [← map_blocks batchPositive]
    conv_rhs => rw [← List.map_id (List.range _)]
    apply List.map_congr_left
    intro position _
    rw [Nat.mul_one, Nat.zero_mul, Nat.add_zero, Nat.div_add_mod']
    rfl
  rw [located, List.map_id, Sharding.positions_eq_append, shardingOf_tailShare, Nat.mul_one,
    Sharding.regular, shardingOf]
  simp only [Sharding.globalBatch, Nat.mul_one, Bool.or_true, if_true, Nat.zero_mul,
    Nat.zero_add, Nat.one_mul, Nat.div_one, Nat.add_zero, Nat.sub_zero] at regular ⊢
  rw [regular, length, disabled]
  by_cases dropped : placement.dropLast = true
  · have rest : placement.datasetLength - placement.datasetLength % placement.batchSize =
        placement.datasetLength / placement.batchSize * placement.batchSize := by omega
    rw [dropped, if_pos (by decide), if_pos rfl, if_neg (by decide), rest, List.append_nil]
  · have kept : placement.dropLast = false := Bool.eq_false_of_not_eq_true dropped
    have joined := @List.range'_append_1 0
      (placement.datasetLength / placement.batchSize * placement.batchSize)
      (placement.datasetLength % placement.batchSize)
    rw [Nat.zero_add, divided] at joined
    rw [kept, if_pos (by decide), if_neg Bool.false_ne_true, if_pos (by decide),
      List.range_eq_range', List.range_eq_range', joined]

/-- The coordinates of a rank are its positions in the sharding of the placement. -/
theorem coordinates_eq (alone : placement.enabled = false → placement.rank = 0) :
    (List.range placement.length).map placement.locate =
      (placement.sharding batchPositive worldPositive).positions placement.rank := by
  unfold sharding
  by_cases enabled : placement.enabled = true
  · rw [if_pos enabled]
    exact coordinates_of_enabled enabled
  · rw [if_neg enabled, alone (Bool.eq_false_of_not_eq_true enabled)]
    exact coordinates_of_disabled (Bool.eq_false_of_not_eq_true enabled)

end MapPlacement

/-! ### Agreement with the engine -/

section Agreement

variable {rootSeed epoch datasetLen : UInt64}
  (selection : Selection rootSeed epoch datasetLen)

/-- A native index inside the dataset is the one selected, unless the shuffle of a small
dataset does not return. -/
theorem permutationIndex_cases (passes : Nat) (inside : position < datasetLen.toNat) :
    Binding.permutationIndex passes rootSeed epoch datasetLen position =
        some (.ok (selection.select position)) ∨
      (Binding.permutationIndex passes rootSeed epoch datasetLen position = none ∨
        Binding.permutationIndex passes rootSeed epoch datasetLen position =
          some (.error .panicked)) ∧
        (2 ^ 64 ≤ passes → datasetLen < FEISTEL_THRESHOLD ∧
          ∀ permutation, materializedPermutation passes rootSeed epoch
            datasetLen.toUInt32 ≠ some (.ok permutation)) := by
  have word := Nat.lt_trans inside datasetLen.toNat_lt
  have read : Binding.readWord 64 position = .ok position := by
    rw [Binding.readWord, if_pos ⟨Int.natCast_nonneg _, by exact_mod_cast word⟩,
      Int.toNat_natCast]
  have number : (UInt64.ofNat position).toNat = position := UInt64.toNat_ofNat_of_lt' word
  have within : ¬datasetLen ≤ UInt64.ofNat position := by
    rw [UInt64.not_le, UInt64.lt_iff_toNat_lt, number]
    exact inside
  rw [Binding.permutationIndex, read]
  dsimp only
  rw [permutationIndex, if_neg within]
  by_cases small : datasetLen < FEISTEL_THRESHOLD
  · rw [if_pos small]
    cases returned : materializedPermutation passes rootSeed epoch datasetLen.toUInt32 with
    | none =>
        refine Or.inr ⟨Or.inl rfl, fun _ => ⟨small, fun permutation listed => ?_⟩⟩
        cases listed
    | some answer =>
        cases answer with
        | error failure =>
            have overflow := materializedPermutation_error small returned
            subst overflow
            refine Or.inr ⟨Or.inr rfl, fun _ => ⟨small, fun permutation listed => ?_⟩⟩
            cases listed
        | ok permutation =>
            have entry := selection.small small returned inside
            obtain ⟨index, found, same⟩ := Option.map_eq_some_iff.mp entry
            obtain ⟨less, entry⟩ := Array.getElem?_eq_some_iff.mp found
            have shown : permutation[(UInt64.ofNat position).toNat]!.toUInt64.toNat =
                selection.select position := by
              rw [number, getElem!_pos permutation position less, entry,
                UInt32.toNat_toUInt64, same]
            exact Or.inl (congrArg (fun index => some (Except.ok index)) shown)
  · rw [if_neg small]
    have large := UInt64.not_lt.mp small
    cases walked : feistelPermute passes rootSeed epoch datasetLen (UInt64.ofNat position) with
    | none =>
        refine Or.inr ⟨Or.inl rfl, fun enough => ?_⟩
        rw [selection.walked large passes enough position inside] at walked
        cases walked
    | some answer =>
        rw [selection.large large inside walked]
        have shown : (UInt64.ofNat (selection.select position)).toNat =
            selection.select position :=
          UInt64.toNat_ofNat_of_lt'
            (Nat.lt_trans (selection.below position inside) datasetLen.toNat_lt)
        exact Or.inl (congrArg (fun index => some (Except.ok index)) shown)

/-- `plan.index` of a shuffled plan. -/
theorem planIndex_eq (passes : Nat) {position : Nat} (inside : position < datasetLen.toNat) :
    MapPlan.index passes ⟨datasetLen.toNat, true⟩ rootSeed epoch position =
      (Binding.permutationIndex passes rootSeed epoch datasetLen position).map
        (Except.mapError .refusal) := by
  have bound : ¬¬(0 ≤ (position : Int) ∧ (position : Int) < datasetLen.toNat) := by omega
  have read : Binding.readWord 64 datasetLen.toNat = .ok datasetLen.toNat := by
    rw [Binding.readWord, if_pos ⟨Int.natCast_nonneg _, by exact_mod_cast datasetLen.toNat_lt⟩,
      Int.toNat_natCast]
  rw [MapPlan.index, if_neg bound, read]
  dsimp only
  rw [UInt64.ofNat_toNat]
  rfl

variable {placement : MapPlacement}

/-- The enumeration of positions inside the placement. -/
theorem enumerate_cases (length : placement.datasetLength = datasetLen.toNat)
    (filled : 0 < datasetLen.toNat) (passes : Nat) (positions : List Nat)
    (inside : ∀ position ∈ positions, position < placement.length) :
    placement.enumerate passes ⟨datasetLen.toNat, true⟩ rootSeed epoch positions =
        some (.ok (positions.map fun position =>
          ⟨placement.locate position,
            selection.select (sourcePosition datasetLen.toNat (placement.locate position))⟩)) ∨
      (placement.enumerate passes ⟨datasetLen.toNat, true⟩ rootSeed epoch positions = none ∨
        placement.enumerate passes ⟨datasetLen.toNat, true⟩ rootSeed epoch positions =
          some (.error (.refusal .panicked))) ∧
        (2 ^ 64 ≤ passes → datasetLen < FEISTEL_THRESHOLD ∧
          ∀ permutation, materializedPermutation passes rootSeed epoch
            datasetLen.toUInt32 ≠ some (.ok permutation)) := by
  induction positions with
  | nil => exact Or.inl rfl
  | cons position rest ih =>
      rw [List.forall_mem_cons] at inside
      have valid : ¬¬(0 ≤ (position : Int) ∧ (position : Int) < placement.length) := by
        have less := inside.1
        omega
      have coordinate : placement.coordinate position = .ok (placement.locate position) := by
        rw [MapPlacement.coordinate, if_neg valid, Int.toNat_natCast]
      have source := sourcePosition_lt (placement.locate position) filled
      have index := @planIndex_eq rootSeed epoch datasetLen passes _ source
      rw [MapPlacement.enumerate, MapPlacement.index, coordinate]
      dsimp only
      rw [length, index]
      rcases permutationIndex_cases selection passes source with found | ⟨none' | panicked, blocked⟩
      · rw [found]
        rcases ih inside.2 with listed | ⟨none' | panicked, blocked⟩
        · rw [listed]
          exact Or.inl rfl
        · rw [none']
          exact Or.inr ⟨Or.inl rfl, blocked⟩
        · rw [panicked]
          exact Or.inr ⟨Or.inr rfl, blocked⟩
      · rw [none']
        exact Or.inr ⟨Or.inl rfl, blocked⟩
      · rw [panicked]
        exact Or.inr ⟨Or.inr rfl, blocked⟩

end Agreement

/-- A small dataset has no placement before its list is there. -/
theorem listed_of_rankPlacements {request : PlacementRequest}
    (batchPositive : 0 < request.batchSize.toNat) (worldPositive : 0 < request.worldSize.toNat)
    (exact : ExactProducts request) (rankLt : request.rank.toNat < request.worldSize.toNat)
    {passes : Nat} {samples : List PlacedSample}
    (returned : rankPlacements passes request = some (.ok samples))
    (small : request.datasetLen < FEISTEL_THRESHOLD) :
    ∃ permutation, materializedPermutation passes request.rootSeed request.epoch
      request.datasetLen.toUInt32 = some (.ok permutation) := by
  by_cases empty : request.datasetLen = 0
  · have word : (UInt64.toUInt32 0).toNat = 0 := by decide
    have below : ¬FEISTEL_THRESHOLD ≤ (UInt64.toUInt32 0).toUInt64 := by decide
    rw [empty, materializedPermutation, materializedPermutationWithDraws, if_neg below, word,
      shuffleDown]
    exact ⟨_, rfl⟩
  · rw [rankPlacements_eq batchPositive worldPositive exact rankLt empty, smallPermutation,
      if_pos small] at returned
    cases listed : materializedPermutation passes request.rootSeed request.epoch
      request.datasetLen.toUInt32 with
    | none =>
        rw [listed] at returned
        cases returned
    | some answer =>
        cases answer with
        | error failure =>
            rw [listed] at returned
            cases returned
        | ok permutation => exact ⟨permutation, rfl⟩

/-- The placement of one rank of a world. -/
def placementOf (request : PlacementRequest) : MapPlacement :=
  ⟨request.datasetLen.toNat, request.batchSize.toNat, request.rank.toNat,
    request.worldSize.toNat, request.dropLast, request.exactCount, true⟩

/-- `enumerate_cases` for a rank of a world. -/
theorem walk_cases {request : PlacementRequest}
    (selection : Selection request.rootSeed request.epoch request.datasetLen)
    (batchPositive : 0 < request.batchSize.toNat) (worldPositive : 0 < request.worldSize.toNat)
    (passes : Nat) :
    (placementOf request).enumerate passes ⟨request.datasetLen.toNat, true⟩
          request.rootSeed request.epoch (List.range (placementOf request).length) =
        some (.ok (placedSamples selection.select
          (request.sharding batchPositive worldPositive) request.datasetLen.toNat
            request.rank.toNat)) ∨
      ((placementOf request).enumerate passes ⟨request.datasetLen.toNat, true⟩
          request.rootSeed request.epoch (List.range (placementOf request).length) = none ∨
        (placementOf request).enumerate passes ⟨request.datasetLen.toNat, true⟩
          request.rootSeed request.epoch (List.range (placementOf request).length) =
            some (.error (.refusal .panicked))) ∧
        (2 ^ 64 ≤ passes → request.datasetLen < FEISTEL_THRESHOLD ∧
          ∀ permutation, materializedPermutation passes request.rootSeed request.epoch
            request.datasetLen.toUInt32 ≠ some (.ok permutation)) := by
  have coordinates := @MapPlacement.coordinates_of_enabled (placementOf request) batchPositive
    worldPositive rfl
  by_cases empty : request.datasetLen = 0
  · have nothing : (placementOf request).length = 0 := by
      have lengths := congrArg List.length coordinates
      rw [List.length_map, List.length_range] at lengths
      rw [lengths]
      exact congrArg List.length
        (positions_of_empty batchPositive worldPositive empty request.rank.toNat)
    rw [nothing, placedSamples, positions_of_empty batchPositive worldPositive empty]
    exact Or.inl rfl
  · have filled : 0 < request.datasetLen.toNat :=
      Nat.pos_of_ne_zero fun zero => empty (UInt64.toNat_inj.mp zero)
    have samples := congrArg (List.map fun position => (⟨position, selection.select
      (sourcePosition request.datasetLen.toNat position)⟩ : PlacedSample)) coordinates
    rw [List.map_map] at samples
    have cases := @enumerate_cases request.rootSeed request.epoch request.datasetLen selection
      (placementOf request) rfl filled passes (List.range (placementOf request).length)
      (fun _ => List.mem_range.mp)
    rcases cases with listed | blocked
    · rw [listed]
      exact Or.inl (congrArg (fun list => some (Except.ok list)) samples)
    · exact Or.inr blocked

/-- The placement a rank walks through and the one the engine enumerates are the same
list.  Both are there after `2 ^ 64` passes (a small dataset needs its shuffle to return);
what the engine returns the walk returns with no fewer passes than that; and whenever both
return they agree. -/
theorem enumerated_eq_placed (request : PlacementRequest)
    (batchPositive : 0 < request.batchSize.toNat)
    (rankLt : request.rank.toNat < request.worldSize.toNat) (exact : ExactProducts request) :
    (∀ passes, 2 ^ 64 ≤ passes →
      (request.datasetLen < FEISTEL_THRESHOLD → ∃ permutation,
        materializedPermutation passes request.rootSeed request.epoch
          request.datasetLen.toUInt32 = some (.ok permutation)) →
      ∃ samples, rankPlacements passes request = some (.ok samples) ∧
        (placementOf request).enumerate passes ⟨request.datasetLen.toNat, true⟩
          request.rootSeed request.epoch (List.range (placementOf request).length) =
            some (.ok samples)) ∧
    (∀ passes samples, rankPlacements passes request = some (.ok samples) →
      ∀ more, passes ≤ more → 2 ^ 64 ≤ more →
        (placementOf request).enumerate more ⟨request.datasetLen.toNat, true⟩
          request.rootSeed request.epoch (List.range (placementOf request).length) =
            some (.ok samples)) ∧
    ∀ passes samples, rankPlacements passes request = some (.ok samples) →
      ∀ more walked,
        (placementOf request).enumerate more ⟨request.datasetLen.toNat, true⟩
          request.rootSeed request.epoch (List.range (placementOf request).length) =
            some (.ok walked) → walked = samples := by
  obtain ⟨selection⟩ := exists_selection request.rootSeed request.epoch request.datasetLen
  have worldPositive : 0 < request.worldSize.toNat := Nat.lt_of_le_of_lt (Nat.zero_le _) rankLt
  have placed := rankPlacements_cases selection batchPositive worldPositive exact rankLt
  have walks := walk_cases selection batchPositive worldPositive
  have settled : ∀ {passes samples}, rankPlacements passes request = some (.ok samples) →
      samples = placedSamples selection.select (request.sharding batchPositive worldPositive)
        request.datasetLen.toNat request.rank.toNat := by
    intro passes samples returned
    rcases placed passes with same | ⟨none' | panicked, _⟩
    · rw [returned] at same
      exact Except.ok.inj (Option.some.inj same)
    · rw [returned] at none'
      cases none'
    · rw [returned] at panicked
      cases panicked
  refine ⟨?_, ?_, ?_⟩
  · intro passes enough shuffled
    refine ⟨placedSamples selection.select (request.sharding batchPositive worldPositive)
      request.datasetLen.toNat request.rank.toNat, ?_, ?_⟩
    · rcases placed passes with same | ⟨_, blocked⟩
      · exact same
      · obtain ⟨below, never⟩ := blocked enough
        obtain ⟨permutation, listed⟩ := shuffled below
        exact absurd listed (never permutation)
    · rcases walks passes with same | ⟨_, blocked⟩
      · exact same
      · obtain ⟨below, never⟩ := blocked enough
        obtain ⟨permutation, listed⟩ := shuffled below
        exact absurd listed (never permutation)
  · intro passes samples returned more le enough
    rw [settled returned]
    rcases walks more with same | ⟨_, blocked⟩
    · exact same
    · obtain ⟨below, never⟩ := blocked enough
      obtain ⟨permutation, listed⟩ := listed_of_rankPlacements batchPositive worldPositive
        exact rankLt returned below
      exact absurd (materializedPermutation_mono le listed) (never permutation)
  · intro passes samples returned more walked ended
    rw [settled returned]
    rcases walks more with same | ⟨none' | panicked, _⟩
    · rw [ended] at same
      exact Except.ok.inj (Option.some.inj same)
    · rw [ended] at none'
      cases none'
    · rw [ended] at panicked
      cases panicked

/-- The second of two ranks walks through seven samples and one of padding. -/
theorem enumerated_eq_placed_seven :
    (placementOf (requestOf 7 0 7 2 2 false false 1)).enumerate (2 ^ 64) ⟨7, true⟩ 7 0
        (List.range 4) = some (.ok [⟨2, 3⟩, ⟨3, 2⟩, ⟨6, 4⟩, ⟨7, 1⟩]) :=
  (enumerated_eq_placed (requestOf 7 0 7 2 2 false false 1) (by decide) (by decide)
    ⟨by decide, by decide, by decide⟩).2.1 8 _ (by decide +kernel) (2 ^ 64) (by decide)
      (Nat.le_refl _)

end Hyperloader.Distributed
