/-
Module: Hyperloader.Iterable.Runtime
Purpose: Iterable sources delivered lane by lane: snapshot rings, the lanes of
  iterable/runtime.py and the round robin of iterable/iterator.py, with checkpoints, their
  rebuilding and the recovery of one lane.
Trusted boundary: the source's methods and the installed streams are parameters.
Main exports:
  Source, SnapshotRing, IterableLoader, Runtime, Runtime.next, Runtime.captureCheckpoint,
  Runtime.recoverLane, IterableLoader.buildLanes, IterableLoader.machine
-/
import Hyperloader.Foundations.Pulled
import Hyperloader.Foundations.Transition
import Hyperloader.State.Delivery

namespace Hyperloader.Iterable

open Foundations State

/-! ### Snapshot rings -/

/-- The serialized state of a source and the arrival it was taken at. -/
structure SourceSnapshot where
  arrival : Nat
  payload : List UInt8

/-- How many batches pass between snapshots; `none` is "off". -/
abbrev Cadence := Option { step : Nat // 0 < step }

/-- The snapshots of one lane, bounded in number and bytes. -/
structure SnapshotRing where
  stateful : Bool
  cadence : Cadence
  maximumBytes : Nat
  depth : Nat
  entries : List SourceSnapshot
  snapshotless : Bool

namespace SnapshotRing

def new (stateful : Bool) (cadence : Cadence) (maximumBytes depth : Nat) : SnapshotRing :=
  { stateful
    cadence
    maximumBytes
    depth := max 1 depth
    entries := []
    snapshotless := cadence.isNone || !stateful }

def due (ring : SnapshotRing) (producedBatches : Nat) (force : Bool) : Bool :=
  !ring.snapshotless &&
    (force || ring.cadence.any fun step => producedBatches % step.val == 0)

/-- Append to the bounded deque, which gives up its oldest entry when it is full. -/
def append (ring : SnapshotRing) (snapshot : SourceSnapshot) : SnapshotRing :=
  let entries := ring.entries ++ [snapshot]
  { ring with entries := entries.drop (entries.length - ring.depth) }

/-- Push a state, or give snapshots up when it is over the byte cap. -/
def push (ring : SnapshotRing) (arrival : Nat) (payload : List UInt8) : SnapshotRing :=
  if ring.maximumBytes < payload.length then { ring with snapshotless := true, entries := [] }
  else ring.append ⟨arrival, payload⟩

def seed (ring : SnapshotRing) (snapshot : SourceSnapshot) : SnapshotRing :=
  if ring.snapshotless then ring else ring.append snapshot

/-- The last entry at or below the delivered frontier. -/
def select (ring : SnapshotRing) (deliveredArrival : Nat) : Option SourceSnapshot :=
  ring.entries.foldl
    (fun selected entry => if entry.arrival ≤ deliveredArrival then some entry else selected) none

def discardBefore (ring : SnapshotRing) (deliveredArrival : Nat) : SnapshotRing :=
  let future := ring.entries.filter fun entry => deliveredArrival < entry.arrival
  let cleared := { ring with entries := (ring.select deliveredArrival).toList }
  future.foldl append cleared

end SnapshotRing

/-! ### Sources and loaders -/

/-- A dataset object together with the iterator it handed out, by what its methods do to it.
`shard` returns the object it was called on and what it answered. -/
structure Source (Object Value Stream : Type) where
  next : Stream → Object → Option Value × Object
  iter : Object → Object
  stateful : Bool
  stateDict : Object → List UInt8
  loadStateDict : List UInt8 → Object → Object
  shard : Nat → Object → Object × Option Object
  workerInit : Nat → Object → Object

/-- What the lanes read of a loader. Only a single lane may go without a pickled source. -/
structure IterableLoader (Object Value Stream : Type) where
  source : Source Object Value Stream
  dataset : Object
  iterablePayload : Option Object
  laneCount : Nat
  batchSize : Option Nat
  dropLast : Bool
  cadence : Cadence
  bufferFactor : Nat
  snapshotBytes : Nat
  rootSeed : Nat
  epoch : Nat
  stream : Nat → Nat → Nat → Nat → Stream
  single : iterablePayload = none → laneCount = 1

/-- One logical lane; `shared` where its source is the loader's own dataset object. -/
structure Lane (Object : Type) where
  object : Object
  arrival : Nat
  producedBatches : Nat
  shared : Bool

/-- What the runtime keeps for one lane identity. -/
structure Held (Object : Type) where
  lane : Lane Object
  ring : SnapshotRing
  deliveredArrival : Nat

structure LaneCheckpoint where
  deliveredArrival : Nat
  stateful : Bool
  snapshot : Option SourceSnapshot

structure IterableCheckpoint (laneCount : Nat) where
  rootSeed : Nat
  epoch : Nat
  laneOrder : List (Fin laneCount)
  lanes : Fin laneCount → LaneCheckpoint

/-- The live lanes, the order they are served in, and the loader's dataset object as it is. -/
structure Runtime (Object : Type) (laneCount : Nat) where
  rootSeed : Nat
  epoch : Nat
  held : Fin laneCount → Held Object
  lanes : List (Fin laneCount)
  dataset : Object

namespace LaneCheckpoint

/-- The checks of `LaneCheckpoint.from_dict`. -/
def check (checkpoint : LaneCheckpoint) : Except Raised Unit :=
  if checkpoint.stateful = false ∧ checkpoint.snapshot.isSome then
    .error (.valueError "plain iterable lane cannot carry a source snapshot")
  else if checkpoint.snapshot.any fun snapshot =>
      checkpoint.deliveredArrival < snapshot.arrival then
    .error (.valueError "iterable lane snapshot exceeds its delivered arrival")
  else .ok ()

end LaneCheckpoint

namespace IterableCheckpoint

variable {laneCount : Nat}

/-- The checks of `IterableCheckpoint.from_dict` on what `to_dict` wrote. -/
def check (checkpoint : IterableCheckpoint laneCount) : Except Raised Unit := do
  (List.finRange laneCount).forM fun identity => (checkpoint.lanes identity).check
  if checkpoint.laneOrder.Nodup then .ok ()
  else .error (.valueError "iterable loader state lane_order must contain unique valid lanes")

end IterableCheckpoint

namespace IterableLoader

variable {Object Value Stream : Type} (loader : IterableLoader Object Value Stream)

/-- `batch_size or 1` -/
def width : Nat :=
  match loader.batchSize with
  | none | some 0 => 1
  | some (size + 1) => size + 1

/-- Pull up to `count` values, each under the stream of its arrival. -/
def advance (rootSeed epoch : Nat) (identity : Fin loader.laneCount) :
    Nat → Lane Object → List Value × Bool × Lane Object
  | 0, lane => ([], false, lane)
  | count + 1, lane =>
      match loader.source.next (loader.stream rootSeed epoch identity lane.arrival) lane.object with
      | (none, object) => ([], true, { lane with object })
      | (some value, object) =>
          let (values, exhausted, lane) :=
            advance rootSeed epoch identity count
              { lane with object, arrival := lane.arrival + 1 }
          (value :: values, exhausted, lane)

def captureSnapshot (ring : SnapshotRing) (lane : Lane Object) (force : Bool) : SnapshotRing :=
  if ring.due lane.producedBatches force then
    ring.push lane.arrival (loader.source.stateDict lane.object)
  else ring

def newRing : SnapshotRing :=
  let step := loader.cadence.elim 1 Subtype.val
  SnapshotRing.new loader.source.stateful loader.cadence loader.snapshotBytes
    (max 2 ((loader.bufferFactor + step - 1) / step + 1))

/-- Draw from a restored object up to the arrival. -/
def replayTo (rootSeed epoch : Nat) (identity : Fin loader.laneCount) (lane : Lane Object)
    (target : Nat) : Except Raised (Lane Object) :=
  if target < lane.arrival then
    .error (.valueError "iterable snapshot exceeds the delivered cursor")
  else if target = lane.arrival then .ok lane
  else
    let (values, exhausted, lane') :=
      loader.advance rootSeed epoch identity (target - lane.arrival) lane
    if exhausted ∨ values.length ≠ target - lane.arrival then
      .error (.runtimeError "iterable source ended before its replay cursor")
    else .ok lane'

/-- The source of a lane before its iterator is taken, the loader's dataset object once the shard
hook was called on it, and whether they are one object. -/
def instantiate (identity : Fin loader.laneCount) (dataset : Object) : Object × Object × Bool :=
  let (called, replacement) :=
    loader.source.shard identity (loader.iterablePayload.getD dataset)
  (loader.source.workerInit identity (replacement.getD called), called,
    loader.iterablePayload.isNone && replacement.isNone)

/-- The loader's dataset object after a lane moved. -/
def datasetAfter (lane : Lane Object) (dataset : Object) : Object :=
  if lane.shared then lane.object else dataset

/-- `_build_lane`, with the loader's dataset object before and after. -/
def buildLane (rootSeed epoch : Nat) (identity : Fin loader.laneCount)
    (checkpoint : Option LaneCheckpoint) (dataset : Object) :
    Except Raised (Held Object × Object) := do
  let (object, called, shared) := loader.instantiate identity dataset
  if checkpoint.any fun checkpoint => checkpoint.stateful != loader.source.stateful then
    throw (.valueError "iterable source stateful protocol changed since checkpoint")
  let selected := checkpoint.bind (·.snapshot)
  let restored :=
    selected.elim object fun snapshot => loader.source.loadStateDict snapshot.payload object
  let lane : Lane Object :=
    { object := loader.source.iter restored
      arrival := selected.elim 0 (·.arrival)
      producedBatches := 0
      shared }
  let ring := selected.elim loader.newRing loader.newRing.seed
  let target := checkpoint.elim 0 (·.deliveredArrival)
  let lane ← loader.replayTo rootSeed epoch identity lane target
  let dataset := if loader.iterablePayload.isNone then called else dataset
  .ok ({ lane, ring := loader.captureSnapshot ring lane true, deliveredArrival := target },
    datasetAfter lane dataset)

/-- The lanes below a count, built in their order. -/
def buildAll (rootSeed epoch : Nat)
    (checkpoints : Fin loader.laneCount → Option LaneCheckpoint) :
    (count : Nat) → count ≤ loader.laneCount → Object →
      Except Raised ((Fin count → Held Object) × Object)
  | 0, _, dataset => .ok (Fin.elim0, dataset)
  | count + 1, bound, dataset => do
      let (built, dataset) ← buildAll rootSeed epoch checkpoints count (Nat.le_of_succ_le bound) dataset
      let (held, dataset) ←
        loader.buildLane rootSeed epoch ⟨count, bound⟩ (checkpoints ⟨count, bound⟩) dataset
      .ok (fun identity =>
        if earlier : identity.val < count then built ⟨identity.val, earlier⟩ else held, dataset)

/-- `build_lanes` of a runtime for the epoch. -/
def buildLanes (rootSeed epoch : Nat) (resume : Option (IterableCheckpoint loader.laneCount))
    (dataset : Object) : Except Raised (Runtime Object loader.laneCount) := do
  -- a source without a state pair restarts its epoch
  let resume := resume.filter fun checkpoint =>
    (List.finRange loader.laneCount).all fun identity => (checkpoint.lanes identity).stateful
  let (held, dataset) ←
    loader.buildAll rootSeed epoch (fun identity => resume.map (·.lanes identity))
      loader.laneCount (Nat.le_refl _) dataset
  .ok
    { rootSeed
      epoch
      held
      lanes := resume.elim (List.finRange loader.laneCount) (·.laneOrder)
      dataset }

/-- The iterator of a loader that resumes nothing. -/
def start : Except Raised (Runtime Object loader.laneCount) :=
  loader.buildLanes loader.rootSeed loader.epoch none loader.dataset

end IterableLoader

/-! ### Delivery -/

/-- A delivered batch: its values before collation, or the one value of an unbatched loader. -/
inductive Handed (Value : Type) where
  | sample (value : Value)
  | batch (values : List Value)
deriving DecidableEq

namespace Runtime

variable {Object Value Stream : Type} (loader : IterableLoader Object Value Stream)

def put (runtime : Runtime Object loader.laneCount) (identity : Fin loader.laneCount)
    (held : Held Object) : Runtime Object loader.laneCount :=
  { runtime with
    held := Function.update runtime.held identity held
    dataset := IterableLoader.datasetAfter held.lane runtime.dataset }

/-- `next_batch` -/
def nextBatch (runtime : Runtime Object loader.laneCount) (identity : Fin loader.laneCount) :
    List Value × Bool × Runtime Object loader.laneCount :=
  let held := runtime.held identity
  let (values, exhausted, lane) :=
    loader.advance runtime.rootSeed runtime.epoch identity loader.width held.lane
  if values = [] then (values, exhausted, runtime.put loader identity { held with lane })
  else
    let lane := { lane with producedBatches := lane.producedBatches + 1 }
    (values, exhausted,
      runtime.put loader identity
        { held with lane, ring := loader.captureSnapshot held.ring lane false })

/-- `mark_delivered` -/
def markDelivered (runtime : Runtime Object loader.laneCount) (identity : Fin loader.laneCount) :
    Runtime Object loader.laneCount :=
  let held := runtime.held identity
  let arrival := held.lane.arrival
  { runtime with
    held := Function.update runtime.held identity
      { held with
        deliveredArrival := arrival
        ring := (held.ring.discardBefore arrival).discardBefore arrival } }

def handed (values : List Value) : Option (Handed Value) :=
  match loader.batchSize with
  | none => values.head?.map .sample
  | some _ => some (.batch values)

/-- `__next__` from the lanes still queued; `none` is the end of the epoch. -/
def serve : List (Fin loader.laneCount) → Runtime Object loader.laneCount →
    Option (Handed Value) × Runtime Object loader.laneCount
  | [], runtime => (none, { runtime with lanes := [] })
  | identity :: rest, runtime =>
      let (values, exhausted, runtime) := runtime.nextBatch loader identity
      if exhausted then
        -- nothing drawn, or a short tail that is dropped
        if values = [] ∨
            (loader.batchSize.any (values.length < ·) ∧ loader.dropLast) then
          serve rest runtime
        else
          (handed loader values, { runtime.markDelivered loader identity with lanes := rest })
      else
        -- a lane that is not exhausted has filled a whole batch
        (handed loader values,
          { runtime.markDelivered loader identity with lanes := rest ++ [identity] })

def next (runtime : Runtime Object loader.laneCount) :
    Option (Handed Value) × Runtime Object loader.laneCount :=
  serve loader runtime.lanes runtime

/-! ### Checkpoints -/

def laneCheckpoint (held : Held Object) : LaneCheckpoint :=
  { deliveredArrival := held.deliveredArrival
    stateful := held.ring.stateful
    snapshot := held.ring.select held.deliveredArrival }

/-- The lanes' delivered positions and snapshots, in lane order. -/
def captureCheckpoint {laneCount : Nat} (runtime : Runtime Object laneCount) :
    IterableCheckpoint laneCount :=
  { rootSeed := runtime.rootSeed
    epoch := runtime.epoch
    laneOrder := runtime.lanes
    lanes := fun identity => laneCheckpoint (runtime.held identity) }

/-- The checkpoint of a runtime, loaded and rebuilt on a dataset object. -/
def resume (runtime : Runtime Object loader.laneCount) (dataset : Object) :
    Except Raised (Runtime Object loader.laneCount) := do
  let checkpoint := runtime.captureCheckpoint
  checkpoint.check
  loader.buildLanes checkpoint.rootSeed checkpoint.epoch (some checkpoint) dataset

/-- `recover_lane` of the iterator. -/
def recoverLane (runtime : Runtime Object loader.laneCount) (identity : Fin loader.laneCount) :
    Except Raised (Runtime Object loader.laneCount) := do
  if identity ∉ runtime.lanes then
    throw (.valueError "iterable recovery lane is not active")
  let held := runtime.held identity
  if held.ring.stateful then
    let (replacement, dataset) ←
      loader.buildLane runtime.rootSeed runtime.epoch identity (some (laneCheckpoint held))
        runtime.dataset
    .ok { runtime with held := Function.update runtime.held identity replacement, dataset }
  else loader.buildLanes runtime.rootSeed runtime.epoch none runtime.dataset

end Runtime

/-! ### Runs -/

/-- What may happen to an iterator: a batch is asked for, a lane is recovered, or its checkpoint
is loaded, by the same loader or by a new one on an untouched dataset object. -/
inductive Label (laneCount : Nat) where
  | next
  | recover (identity : Fin laneCount)
  | resume (untouched : Bool)
deriving DecidableEq

def Label.pulls {laneCount : Nat} : Label laneCount → Bool
  | .next => true
  | .recover _ | .resume _ => false

/-- Only `next` hands something out, or reports the end. -/
inductive Outcome (Value : Type) where
  | handed (batch : Option (Handed Value))
  | rebuilt

def IterableLoader.machine {Object Value Stream : Type}
    (loader : IterableLoader Object Value Stream) :
    Machine (Runtime Object loader.laneCount) (Label loader.laneCount) (Outcome Value) where
  step
    | runtime, .next =>
        let (batch, runtime) := runtime.next loader
        some (.handed batch, runtime)
    | runtime, .recover identity =>
        match runtime.recoverLane loader identity with
        | .ok runtime => some (.rebuilt, runtime)
        | .error _ => none
    | runtime, .resume untouched =>
        match runtime.resume loader (if untouched then loader.dataset else runtime.dataset) with
        | .ok runtime => some (.rebuilt, runtime)
        | .error _ => none

end Hyperloader.Iterable
