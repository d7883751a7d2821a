/-
Module: Hyperloader.Schedule.Native
Purpose: The native bounded frontier of engine/src/sched/static_frontier.rs:
  dispatch selection, out-of-order completion, and commit.
Trusted boundary: none
Main exports:
  Dispatch, PositionState, ScheduleError, Native.StaticSchedule,
  Native.StaticSchedule.new, Call, Reply, Native.machine
-/
import Mathlib.Data.Finmap
import Mathlib.Data.Finset.Sort
import Hyperloader.Foundations.PrefixSet
import Hyperloader.Foundations.Transition

namespace Hyperloader.Schedule

open Foundations

/-- `u64::MAX`. -/
def maxU64 : Nat := 2 ^ 64 - 1

/-- `u64::saturating_add`. -/
def saturatingAdd (left right : Nat) : Nat := min (left + right) maxU64

/-- A `u64` addition under overflow checks; `none` is the arithmetic trap. -/
def checkedAdd (left right : Nat) : Option Nat :=
  if left + right ≤ maxU64 then some (left + right) else none

/-- One position and its deterministic worker route. -/
structure Dispatch where
  position : Nat
  worker : Nat
deriving DecidableEq

/-- State of one active position, with the worker that owns it. -/
inductive PositionState where
  | dispatched (worker : Nat)
  | ready (worker : Nat)

/-- Invalid scheduler state transition. -/
structure ScheduleError where
  text : String

/-- The public operations of a schedule. -/
inductive Call where
  | nextDispatch
  | dispatchCandidates
  | dispatchAt (position : Nat)
  | markDispatched (dispatch : Dispatch)
  | markCompleted (dispatch : Dispatch)
  | tryCommit
  | tryCommitReady (position : Nat)
  | deliveredPositions
  | seedDelivered (position : Nat)
  | isComplete
  | occupied
  | setDepth (depth : Nat)
  | setWorkerCount (workerCount : Nat)

/-- What one operation returns to its caller. -/
inductive Reply where
  | dispatch (value : Option Dispatch)
  | candidates (positions : List Nat)
  | position (value : Option Nat)
  | done
  | error (failure : ScheduleError)
  | flag (value : Bool)
  | count (value : Nat)

/-- A returned error or `None`. -/
def Reply.Failed : Reply → Prop
  | .dispatch none | .position none | .error _ => True
  | _ => False

/-- The reply of an operation that returns nothing on success. -/
def Reply.ofResult : Except ScheduleError Unit → Reply
  | .ok () => .done
  | .error failure => .error failure

namespace Native

/-- Bounded frontier with selectable dispatch and strict sampler-order
commit. -/
structure StaticSchedule where
  endPosition : Nat
  depth : Nat
  workerCount : Nat
  workerCeiling : Nat
  nextCommit : Nat
  dispatchOrdinal : Nat
  positions : Finmap fun _ : Nat => PositionState
  delivered : Finset Nat

namespace StaticSchedule

/-- Create a schedule over the half-open position range `[start, end)`. -/
def new (start endPosition depth workerCount : Nat) :
    Except ScheduleError StaticSchedule :=
  if endPosition < start then
    .error ⟨"schedule end precedes its start"⟩
  else if depth = 0 then
    .error ⟨"frontier depth must be positive"⟩
  else if workerCount = 0 then
    .error ⟨"worker count must be positive"⟩
  else if maxU64 < depth then
    .error ⟨"frontier depth does not fit the position domain"⟩
  else
    .ok
      { endPosition := endPosition
        depth := depth
        workerCount := workerCount
        workerCeiling := workerCount
        nextCommit := start
        dispatchOrdinal := 0
        positions := ∅
        delivered := ∅ }

section

variable (schedule : StaticSchedule)

/-- End of the admitted window. -/
def stop : Nat :=
  min (saturatingAdd schedule.nextCommit schedule.depth) schedule.endPosition

/-- Every unsubmitted position admitted by the current frontier. -/
def dispatchCandidates : List Nat :=
  (List.range' schedule.nextCommit (schedule.stop - schedule.nextCommit)).filter
    fun position =>
      decide (position ∉ schedule.positions) && decide (position ∉ schedule.delivered)

/-- The next worker route for one eligible frontier position. -/
def dispatchAt (position : Nat) : Option Dispatch :=
  if position < schedule.nextCommit ∨ schedule.stop ≤ position ∨
      position ∈ schedule.positions ∨ position ∈ schedule.delivered then
    none
  else
    some
      { position := position
        -- the cast to `u32` keeps the low word
        worker := (schedule.dispatchOrdinal % schedule.workerCount) % 2 ^ 32 }

/-- The next FIFO dispatch while the bounded frontier has room. -/
def nextDispatch : Option Dispatch :=
  match schedule.dispatchCandidates.head? with
  | none => none
  | some position => schedule.dispatchAt position

/-- Confirm that the current candidate entered its worker transport. -/
def markDispatched (dispatch : Dispatch) :
    Option (Except ScheduleError Unit × StaticSchedule) :=
  if some dispatch ≠ schedule.dispatchAt dispatch.position then
    some (.error ⟨"dispatch is not an eligible frontier candidate"⟩, schedule)
  else do
    let ordinal ← checkedAdd schedule.dispatchOrdinal 1
    pure (.ok (),
      { schedule with
        positions :=
          schedule.positions.insert dispatch.position (.dispatched dispatch.worker)
        dispatchOrdinal := ordinal })

/-- Record a completion, allowing arrival in any execution order. -/
def markCompleted (dispatch : Dispatch) :
    Except ScheduleError Unit × StaticSchedule :=
  match schedule.positions.lookup dispatch.position with
  | none => (.error ⟨"completion is outside the active frontier"⟩, schedule)
  | some (.dispatched worker) =>
      if worker = dispatch.worker then
        (.ok (),
          { schedule with
            positions :=
              schedule.positions.insert dispatch.position (.ready dispatch.worker) })
      else (.error ⟨"completion came from the wrong worker"⟩, schedule)
  | some (.ready _) => (.error ⟨"position completed twice"⟩, schedule)

end

/-- `while delivered.remove(&next_commit) { next_commit += 1 }`, with the
addition checked on each pass. -/
def drainDelivered : Nat → Nat → Finset Nat → Option (Nat × Finset Nat)
  | 0, next, delivered => some (next, delivered)
  | passes + 1, next, delivered =>
      if next ∈ delivered then do
        let after ← checkedAdd next 1
        drainDelivered passes after (delivered.erase next)
      else some (next, delivered)

section

variable (schedule : StaticSchedule)

/-- Commit one ready position immediately and advance the contiguous base when
possible. -/
def tryCommitReady (position : Nat) :
    Option (Option Nat × StaticSchedule) :=
  match schedule.positions.lookup position with
  | some (.ready _) =>
      let positions := schedule.positions.erase position
      if position = schedule.nextCommit then do
        let next ← checkedAdd schedule.nextCommit 1
        let drained ← drainDelivered schedule.delivered.card next schedule.delivered
        pure (some position,
          { schedule with
            positions := positions, nextCommit := drained.1, delivered := drained.2 })
      else
        some (some position,
          { schedule with
            positions := positions, delivered := insert position schedule.delivered })
  | _ => some (none, schedule)

/-- Commit the next sampler position only when that exact position is ready. -/
def tryCommit : Option (Option Nat × StaticSchedule) :=
  schedule.tryCommitReady schedule.nextCommit

/-- Committed positions beyond the contiguous prefix; the Python binding sorts
them. -/
def deliveredPositions : List Nat :=
  schedule.delivered.sort (· ≤ ·)

/-- Seed one previously delivered position beyond the contiguous resume base. -/
def seedDelivered (position : Nat) :
    Except ScheduleError Unit × StaticSchedule :=
  if position ≤ schedule.nextCommit ∨ schedule.endPosition ≤ position then
    (.error ⟨"restored delivery is outside the open position range"⟩, schedule)
  else if position ∈ schedule.positions then
    (.error ⟨"restored position was delivered twice"⟩, schedule)
  else
    -- `HashSet::insert` answers whether the position was new
    let inserted := decide (position ∉ schedule.delivered)
    let seeded := { schedule with delivered := insert position schedule.delivered }
    if inserted then (.ok (), seeded)
    else (.error ⟨"restored position was delivered twice"⟩, seeded)

/-- Whether every position has committed and the frontier is empty. -/
def isComplete : Bool :=
  decide (schedule.nextCommit = schedule.endPosition) &&
    decide (schedule.positions.keys = ∅) && decide (schedule.delivered = ∅)

/-- The number of dispatched, uncommitted positions. -/
def occupied : Nat := schedule.positions.keys.card

/-- Change the frontier depth without evicting active positions. -/
def setDepth (depth : Nat) :
    Except ScheduleError Unit × StaticSchedule :=
  if maxU64 < depth then
    (.error ⟨"frontier depth does not fit the position domain"⟩, schedule)
  else if depth = 0 then
    (.error ⟨"frontier depth must be positive"⟩, schedule)
  else if ∃ position ∈ schedule.positions.keys,
      saturatingAdd schedule.nextCommit depth ≤ position then
    (.error ⟨"frontier depth excludes an active position"⟩, schedule)
  else (.ok (), { schedule with depth := depth })

/-- Change the live routing width without changing the spawned worker
ceiling. -/
def setWorkerCount (workerCount : Nat) :
    Except ScheduleError Unit × StaticSchedule :=
  if workerCount = 0 ∨ schedule.workerCeiling < workerCount then
    (.error ⟨"live worker count is outside the plan ceiling"⟩, schedule)
  else
    (.ok (),
      { schedule with
        workerCount := workerCount
        dispatchOrdinal := schedule.dispatchOrdinal % workerCount })

end

end StaticSchedule

/-- The reply and next state of an operation that returns nothing. -/
def finish (outcome : Except ScheduleError Unit × StaticSchedule) :
    Reply × StaticSchedule :=
  (.ofResult outcome.1, outcome.2)

/-- One call through the Python binding; `none` is an arithmetic trap. -/
def call (schedule : StaticSchedule) : Call → Option (Reply × StaticSchedule)
  | .nextDispatch => some (.dispatch schedule.nextDispatch, schedule)
  | .dispatchCandidates => some (.candidates schedule.dispatchCandidates, schedule)
  | .dispatchAt position => some (.dispatch (schedule.dispatchAt position), schedule)
  | .markDispatched dispatch => (schedule.markDispatched dispatch).map finish
  | .markCompleted dispatch => some (finish (schedule.markCompleted dispatch))
  | .tryCommit =>
      schedule.tryCommit.map fun outcome => (.position outcome.1, outcome.2)
  | .tryCommitReady position =>
      (schedule.tryCommitReady position).map fun outcome =>
        (.position outcome.1, outcome.2)
  | .deliveredPositions => some (.candidates schedule.deliveredPositions, schedule)
  | .seedDelivered position => some (finish (schedule.seedDelivered position))
  | .isComplete => some (.flag schedule.isComplete, schedule)
  | .occupied => some (.count schedule.occupied, schedule)
  | .setDepth depth => some (finish (schedule.setDepth depth))
  | .setWorkerCount workerCount =>
      some (finish (schedule.setWorkerCount workerCount))

/-- The native schedule as a machine over its calls. -/
def machine : Machine StaticSchedule Call Reply where
  step := call

end Native

end Hyperloader.Schedule
