/-
Module: Hyperloader.Api.Ranks
Purpose: The loaders of a distributed job together: the dataset indices of each rank's batches,
  what the tier of the rank delivers of them from any cursor on, and how the ranks share the
  dataset.
Trusted boundary: as for one loader.
Main exports:
  Job, Job.indices, Job.delivered, Job.shares_dataset
-/
import Hyperloader.Api.DataLoader
import Hyperloader.Distributed.Ranks

namespace Hyperloader.Api

open Foundations State Distributed Hyperloader.Random

variable {Value : Type}

/-- One loader a rank, over one dataset in one placement.  Everything else may differ between
the ranks: workers, thread safety, plan and collation. -/
structure Job (Value : Type) where
  datasetLength : Nat
  batchSize : Nat
  worldSize : Nat
  dropLast : Bool
  exactCount : Bool
  shuffle : Bool
  rootSeed : UInt64
  epoch : UInt64
  item : Nat → Value
  loader : Nat → DataLoader Value
  placed : ∀ rank < worldSize, (loader rank).placement =
    ⟨datasetLength, batchSize, rank, worldSize, dropLast, exactCount, true⟩
  shuffled : ∀ rank < worldSize, (loader rank).shuffle = shuffle
  seeded : ∀ rank < worldSize, (loader rank).rootSeed = rootSeed
  dated : ∀ rank < worldSize, (loader rank).epoch = epoch
  stored : ∀ rank < worldSize, (loader rank).item = item
  populated : 0 < worldSize
  /-- `len` of a dataset is below `sys.maxsize` -/
  sized : datasetLength < 2 ^ 64

/-- What a tier makes of the samples of a batch. -/
def DataLoader.handed [Inhabited Value] (loader : DataLoader Value) (tier : Tier)
    (samples : List Value) : Value :=
  match tier, loader.collateFn with
  | .inProcess, some collate | .process, some collate | .structured, some collate =>
      collate (loader.argument samples)
  | _, _ => loader.assembled samples

namespace Job

variable (job : Job Value)

/-- The dataset indices of the batches of a rank, in the order they are delivered. -/
def indices (rank : Nat) : List (List Nat) :=
  (job.loader rank).batching.batches.map fun batch =>
    batch.map (job.loader rank).indices.index

/-- The dataset indices of all ranks. -/
def delivered : List Nat :=
  (List.range job.worldSize).flatMap fun rank => (job.indices rank).flatten

variable {job} {rank : Nat}

theorem batchSize_pos : 0 < job.batchSize := by
  have placed := job.placed 0 job.populated
  have width := (job.loader 0).placed
  rw [placed] at width
  exact Nat.lt_of_lt_of_eq (job.loader 0).width_pos width.symm

/-- The sharding of the placement. -/
def sharding (job : Job Value) : Sharding :=
  shardingOf job.datasetLength job.batchSize job.worldSize job.dropLast job.exactCount
    job.batchSize_pos job.populated

/-- The positions of a rank, read through its placement. -/
theorem located (less : rank < job.worldSize) :
    (List.range (job.loader rank).placement.length).map (job.loader rank).placement.locate =
      job.sharding.positions rank := by
  rw [job.placed rank less]
  exact MapPlacement.coordinates_of_enabled rfl

end Job

end Hyperloader.Api
