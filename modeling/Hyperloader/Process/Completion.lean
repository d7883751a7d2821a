/-
Module: Hyperloader.Process.Completion
Purpose: The process iterator under on-completion delivery, process/iterator.py with
  process/completion.py: batches in the order their samples arrive, batches a worker
  evaluates whole, and user-collated batches, from any resume coordinate.
Trusted boundary: a worker that takes a command answers it with a value.
Main exports:
  ProcessLoader, ProcessIterator, ProcessIterator.start, ProcessIterator.machine,
  Delivering, Passes.handout, plain_passes, collated_passes, Stuck.step
-/
import Hyperloader.Distributed.Elastic
import Hyperloader.Foundations.Batching
import Hyperloader.Foundations.Handout
import Hyperloader.Process.Frontier

namespace Hyperloader.Process

open Foundations Schedule Schedule.Native
open State Distributed

/-! ### Frontier sizes -/

/-- What `frontier_depth` of process/sizing.py computes with: the positions requested by a
depth, a prefetch hint or a profile, the ceiling frozen in a pool or requested by the
profile, and the samples its pool may hold. -/
structure Sizing where
  batchSize : Option Nat
  minimum : Option Nat
  requested : Option Nat
  ceilingRequested : Nat
  capacity : Option Nat
deriving DecidableEq

namespace Sizing

variable (sizing : Sizing)

def width : Nat := sizing.batchSize.getD 1

/-- `frontier_minimum` -/
def frontierMinimum : Nat :=
  match sizing.minimum with
  | none => 2 * sizing.width
  | some configured => max sizing.width configured

/-- `_clip_budget` -/
def clipBudget (depth : Nat) : Nat :=
  match sizing.capacity with
  | none => depth
  | some capacity => max sizing.frontierMinimum (min depth capacity)

/-- `frontier_ceiling` -/
def frontierCeiling : Nat :=
  sizing.clipBudget (max sizing.frontierMinimum sizing.ceilingRequested)

/-- `frontier_depth` -/
def frontierDepth : Nat :=
  match sizing.requested with
  | none => sizing.frontierMinimum
  | some requested =>
      sizing.clipBudget (min sizing.frontierCeiling (max sizing.frontierMinimum requested))

theorem width_pos (sized : sizing.batchSize ≠ some 0) : 0 < sizing.width := by
  unfold width
  cases batchSize : sizing.batchSize with
  | none => exact Nat.one_pos
  | some size =>
      rw [Option.getD_some]
      rcases Nat.eq_zero_or_pos size with zero | positive
      · exact absurd (batchSize.trans (congrArg some zero)) sized
      · exact positive

theorem width_le_minimum : sizing.width ≤ sizing.frontierMinimum := by
  unfold frontierMinimum
  split <;> omega

theorem minimum_le_clipBudget {depth : Nat} (enough : sizing.frontierMinimum ≤ depth) :
    sizing.frontierMinimum ≤ sizing.clipBudget depth := by
  unfold clipBudget
  split
  · exact enough
  · exact Nat.le_max_left _ _

/-- The frontier always has room for a batch. -/
theorem width_le_depth : sizing.width ≤ sizing.frontierDepth := by
  refine Nat.le_trans sizing.width_le_minimum ?_
  unfold frontierDepth
  split
  · exact Nat.le_refl _
  · exact sizing.minimum_le_clipBudget (Nat.le_min.mpr
      ⟨sizing.minimum_le_clipBudget (Nat.le_max_left _ _), Nat.le_max_left _ _⟩)

end Sizing

/-! ### The loader of a process iterator -/

/-- The loader and its pool, as the iterator reads them.  The engine counts positions in
words, a pool only batches what the loader batches, and the controller stays within the
workers spawned. -/
structure ProcessLoader where
  length : Nat
  sizing : Sizing
  poolBatchSize : Option Nat
  userCollation : Bool
  workers : Nat
  controllerWidth : Nat
  growthMultiplier : Nat
  sized : sizing.batchSize ≠ some 0
  batched : poolBatchSize = none ∨ poolBatchSize = sizing.batchSize
  words : length ≤ maxU64
  depthWord : sizing.frontierDepth ≤ maxU64
  ceilingWord : sizing.frontierCeiling ≤ maxU64
  spawned : 0 < workers
  controlled : 0 < controllerWidth ∧ controllerWidth ≤ workers
  growing : 1 < growthMultiplier

namespace ProcessLoader

variable (loader : ProcessLoader)

theorem width_pos : 0 < loader.sizing.width := loader.sizing.width_pos loader.sized

/-- The batches of the epoch. -/
def batching : Batching := ⟨loader.length, loader.sizing.width, loader.width_pos⟩

/-- `_transport_batch_size` -/
def transportBatchSize : Option Nat :=
  if loader.userCollation then loader.sizing.batchSize else loader.poolBatchSize

/-- `_worker_batches` -/
def workerBatches : Bool := loader.poolBatchSize.isSome

/-- The sample positions one command asks for. -/
def command (position : Nat) : List Nat :=
  match loader.transportBatchSize with
  | none => [position]
  | some size => List.range' (position * size) (min size (loader.length - position * size))

/-- `schedule_length` -/
def scheduleLength : Nat :=
  match loader.transportBatchSize with
  | none => loader.length
  | some size => (loader.length + size - 1) / size

/-- `schedule_start` -/
def scheduleStart (resumePosition : Nat) : Nat :=
  match loader.transportBatchSize with
  | none => resumePosition
  | some size => resumePosition / size

/-- `schedule_depth` and `schedule_ceiling` -/
def scheduleDepth (depth : Nat) : Nat :=
  match loader.transportBatchSize with
  | none => depth
  | some size => max 1 ((depth + size - 1) / size)

/-- The schedule positions of a batch. -/
def positionsOf (ordinal : Nat) : List Nat :=
  match loader.transportBatchSize with
  | none => loader.batching.batch ordinal
  | some _ => [ordinal]

end ProcessLoader

namespace ProcessLoader

variable {loader : ProcessLoader}

/-- How many schedule positions a batch has. -/
def perBatch (loader : ProcessLoader) : Nat :=
  match loader.transportBatchSize with
  | none => loader.sizing.width
  | some _ => 1

theorem perBatch_pos : 0 < loader.perBatch := by
  unfold perBatch
  split
  · exact loader.width_pos
  · exact Nat.one_pos

/-- The batches again, over schedule positions. -/
def grid (loader : ProcessLoader) : Batching :=
  ⟨loader.scheduleLength, loader.perBatch, perBatch_pos⟩

/-- A batched transport has the width of the loader. -/
theorem width_of_transport {size : Nat} (batched : loader.transportBatchSize = some size) :
    loader.sizing.width = size := by
  have agrees : loader.sizing.batchSize = some size := by
    unfold transportBatchSize at batched
    split at batched
    · exact batched
    · rcases loader.batched with none | same
      · rw [none] at batched
        cases batched
      · exact same.symm.trans batched
  rw [Sizing.width, agrees, Option.getD_some]

theorem grid_of_samples (samples : loader.transportBatchSize = none) :
    loader.grid = loader.batching := by
  simp [grid, batching, scheduleLength, perBatch, samples]

theorem scheduleLength_of_transport {size : Nat} (batched : loader.transportBatchSize = some size) :
    loader.scheduleLength = loader.batching.count := by
  rw [scheduleLength, batched, Batching.count]
  show _ = (loader.length + loader.sizing.width - 1) / loader.sizing.width
  rw [width_of_transport batched]

theorem perBatch_of_transport {size : Nat} (batched : loader.transportBatchSize = some size) :
    loader.perBatch = 1 := by
  rw [perBatch, batched]

theorem grid_count : loader.grid.count = loader.batching.count := by
  cases transport : loader.transportBatchSize with
  | none => rw [grid_of_samples transport]
  | some size =>
      show (loader.scheduleLength + loader.perBatch - 1) / loader.perBatch = _
      rw [perBatch_of_transport transport, scheduleLength_of_transport transport,
        Nat.div_one, Nat.add_sub_cancel]

variable {ordinal : Nat}

/-- Where a batch has one schedule position, it is that position on the grid. -/
theorem grid_batch_of_single (single : loader.perBatch = 1)
    (inside : ordinal < loader.batching.count) : loader.grid.batch ordinal = [ordinal] := by
  rw [← grid_count, Batching.lt_count_iff] at inside
  have within : ordinal * loader.perBatch < loader.scheduleLength := inside
  have size : min loader.perBatch (loader.scheduleLength - ordinal * loader.perBatch) = 1 := by
    rw [single] at within ⊢
    omega
  show List.range' (ordinal * loader.perBatch)
    (min loader.perBatch (loader.scheduleLength - ordinal * loader.perBatch)) = [ordinal]
  rw [size, single, Nat.mul_one]
  rfl

theorem grid_batch_of_transport {size ordinal : Nat}
    (batched : loader.transportBatchSize = some size)
    (inside : ordinal < loader.batching.count) : loader.grid.batch ordinal = [ordinal] :=
  grid_batch_of_single (perBatch_of_transport batched) inside

theorem positionsOf_eq (inside : ordinal < loader.batching.count) :
    loader.positionsOf ordinal = loader.grid.batch ordinal := by
  cases transport : loader.transportBatchSize with
  | none => rw [positionsOf, transport, grid_of_samples transport]
  | some size => rw [positionsOf, transport, grid_batch_of_transport transport inside]

/-- The commands of a batch ask for its samples. -/
theorem flatMap_command (inside : ordinal < loader.batching.count) :
    (loader.grid.batch ordinal).flatMap loader.command = loader.batching.batch ordinal := by
  cases transport : loader.transportBatchSize with
  | none =>
      have single : loader.command = fun position => [position] := by
        funext position
        rw [command, transport]
      rw [grid_of_samples transport, single]
      exact List.flatMap_singleton' _
  | some size =>
      rw [grid_batch_of_transport transport inside, List.flatMap_cons, List.flatMap_nil,
        List.append_nil, command, transport, ← width_of_transport transport]
      rfl

end ProcessLoader

/-- `ProcessIterator` with its `CompletionBatchDelivery`.  There is no schedule when
there is nothing to deliver. -/
structure ProcessIterator where
  position : Nat
  complete : Bool
  valid : Bool
  delivered : DeliveredBatchState
  frontier : Option Frontier
  readyBatches : List Nat
  queuedBatches : Finset Nat

/-- What a call returns to the consumer, or what the iterator does in between. -/
inductive Yield where
  | quiet
  | waiting
  | delivered (batch : List Nat)
  | exhausted
  | raised (error : Raised)
deriving DecidableEq

namespace Yield

def batch : Yield → Option (List Nat)
  | .delivered batch => some batch
  | _ => none

def Failed : Yield → Prop
  | .raised _ => True
  | _ => False

def Finished : Yield → Prop
  | .exhausted => True
  | _ => False

end Yield

namespace ProcessIterator

variable (loader : ProcessLoader)

/-- `ProcessIterator.__init__`, up to the first dispatch. -/
def start (cursor : Nat) (bitmap : List UInt8) : Except Raised ProcessIterator := do
  let width := loader.sizing.width
  let resumePosition ←
    (resumeSamplePosition cursor width loader.length).mapError Raised.valueError
  let totalBatches := (loader.length + width - 1) / width
  let delivered ← restoreDelivered cursor bitmap totalBatches
  let restored := delivered.ahead
  let restoredSamples := restored.sum fun ordinal => min width (loader.length - ordinal * width)
  let iterator : ProcessIterator :=
    { position := resumePosition + restoredSamples
      complete := false
      valid := true
      delivered := delivered
      frontier := none
      readyBatches := []
      queuedBatches := ∅ }
  if loader.length = 0 then .ok iterator
  else
    let scheduleStart := loader.scheduleStart resumePosition
    let positions := (restored.sort (· ≤ ·)).flatMap loader.positionsOf
    let span := if positions = [] then 0 else positions.foldl max 0 - scheduleStart + 1
    let depth := max (loader.scheduleDepth loader.sizing.frontierDepth) span
    let ceiling := max (loader.scheduleDepth loader.sizing.frontierCeiling) span
    let frontier ← Frontier.new scheduleStart loader.scheduleLength depth ceiling loader.workers
      loader.growthMultiplier
    let frontier ← frontier.seed positions
    let frontier ← frontier.adapt loader.controllerWidth
    .ok { iterator with frontier := some frontier }

/-- `CompletionBatchDelivery.observe` -/
def observe (iterator : ProcessIterator) (ready : Finset Nat) (position : Nat) :
    ProcessIterator :=
  let ordinal :=
    if loader.workerBatches then position else position / loader.sizing.width
  if ordinal ∈ iterator.queuedBatches then iterator
  else if !loader.workerBatches ∧ ∃ sample ∈ loader.batching.batch ordinal, sample ∉ ready then
    iterator
  else
    { iterator with
      readyBatches := iterator.readyBatches ++ [ordinal]
      queuedBatches := insert ordinal iterator.queuedBatches }

/-- `_poll_completions` over the workers given: whether one had a completion. -/
def poll : List Nat → Frontier → ProcessIterator → Except Raised (Bool × ProcessIterator)
  | [], frontier, iterator => .ok (false, { iterator with frontier := some frontier })
  | worker :: workers, frontier, iterator =>
      match frontier.receive worker with
      | .error failure => .error failure
      | .ok (none, frontier) => poll workers frontier iterator
      | .ok (some position, frontier) =>
          match poll workers frontier (observe loader iterator frontier.ready position) with
          | .error failure => .error failure
          | .ok (_, iterator) => .ok (true, iterator)

/-- `loader.close()` before the exception is raised again. -/
def fail (iterator : ProcessIterator) (failure : Raised) : Yield × ProcessIterator :=
  (.raised failure, { iterator with valid := false })

/-- Wait for completions: poll, or record a wait. -/
def await (iterator : ProcessIterator) (frontier : Frontier) : Yield × ProcessIterator :=
  match poll loader (List.range loader.workers) frontier iterator with
  | .error failure => iterator.fail failure
  | .ok (true, iterator) => (.quiet, iterator)
  | .ok (false, iterator) =>
      match frontier.recordWait with
      | .error failure => iterator.fail failure
      | .ok frontier => (.waiting, { iterator with frontier := some frontier })

def BATCH_REFUSED : String := "ready batch could not commit"

def SAMPLE_REFUSED : String := "ready sample could not commit"

/-- Pop and commit one schedule position after the other. -/
def popAll (text : String) : List Nat → Frontier → Except Raised Frontier
  | [], frontier => .ok frontier
  | position :: positions, frontier =>
      match frontier.pop position text with
      | .error failure => .error failure
      | .ok frontier => popAll text positions frontier

/-- `_take_ready_batch` of the first batch queued, and its delivery. -/
def take (iterator : ProcessIterator) (ordinal : Nat) (rest : List Nat) (frontier : Frontier) :
    Yield × ProcessIterator :=
  if ordinal ∉ iterator.queuedBatches then iterator.fail (.keyError ordinal)
  else
    let positions :=
      if loader.workerBatches then [ordinal] else loader.batching.batch ordinal
    let text := if loader.workerBatches then BATCH_REFUSED else SAMPLE_REFUSED
    match popAll text positions frontier with
    | .error failure => iterator.fail failure
    | .ok frontier =>
        match iterator.delivered.mark ordinal with
        | .error failure => iterator.fail failure
        | .ok delivered =>
            (.delivered (positions.flatMap loader.command),
              { iterator with
                position := iterator.position + loader.batching.size ordinal
                delivered := delivered
                frontier := some frontier
                readyBatches := rest
                queuedBatches := iterator.queuedBatches.erase ordinal })

/-- `CompletionBatchDelivery.next_batch`, one pass of its loop behind the dispatches. -/
def nextBatch (iterator : ProcessIterator) (frontier : Frontier) :
    Yield × ProcessIterator :=
  match iterator.readyBatches with
  | ordinal :: rest => take loader iterator ordinal rest frontier
  | [] => await loader iterator frontier

/-- `_next_user_batch`, one pass of its wait behind the dispatches. -/
def nextUserBatch (iterator : ProcessIterator) (frontier : Frontier) :
    Yield × ProcessIterator :=
  let ordinal := iterator.position / loader.sizing.width
  match frontier.commitNext ordinal with
  | .error failure => iterator.fail failure
  | .ok none => await loader iterator frontier
  | .ok (some frontier) =>
      match iterator.delivered.mark ordinal with
      | .error failure => iterator.fail failure
      | .ok delivered =>
          (.delivered (loader.command ordinal),
            { iterator with
              position := min loader.length (iterator.position + loader.sizing.width)
              delivered := delivered
              frontier := some frontier })

def INACTIVE : String := "process iterator is no longer active"

/-- One pass of `__next__`: the dispatches its pool admits, then a batch or a wait. -/
def next (iterator : ProcessIterator) (order : List Nat) (room : Nat) :
    Option (Yield × ProcessIterator) :=
  if !iterator.valid then some (.raised (.runtimeError INACTIVE), iterator)
  else if loader.length ≤ iterator.position then
    some (.exhausted, { iterator with complete := true })
  else
    match iterator.frontier with
    | none => none
    | some frontier =>
        if order.Perm frontier.schedule.dispatchCandidates then
          match frontier.fill order room with
          | .error failure => some (iterator.fail failure)
          | .ok frontier =>
              if loader.userCollation then some (nextUserBatch loader iterator frontier)
              else some (nextBatch loader iterator frontier)
        else none

/-- A pass of the consumer, the dispatches after a delivery, an answer of a worker, or a
controller decision.  An order is a dispatch order of the schedule. -/
inductive Label where
  | next (order : List Nat) (room : Nat)
  | fill (order : List Nat) (room : Nat)
  | work (dispatch : Dispatch)
  | adapt (width : Nat)
deriving DecidableEq

def step (iterator : ProcessIterator) : Label → Option (Yield × ProcessIterator)
  | .next order room => next loader iterator order room
  | .fill order room =>
      match iterator.frontier with
      | none => none
      | some frontier =>
          if iterator.valid ∧ order.Perm frontier.schedule.dispatchCandidates then
            match frontier.fill order room with
            | .error failure => some (iterator.fail failure)
            | .ok frontier => some (.quiet, { iterator with frontier := some frontier })
          else none
  | .work dispatch =>
      match iterator.frontier with
      | none => none
      | some frontier =>
          (frontier.work dispatch).map fun frontier =>
            (.quiet, { iterator with frontier := some frontier })
  | .adapt width =>
      match iterator.frontier with
      | none => none
      | some frontier =>
          if iterator.valid ∧ 0 < width ∧ width ≤ loader.workers then
            match frontier.adapt width with
            | .error failure => some (iterator.fail failure)
            | .ok frontier => some (.quiet, { iterator with frontier := some frontier })
          else none

def machine : Machine ProcessIterator Label Yield where
  step := step loader

end ProcessIterator

/-! ### The iterator and its frontier -/

/-- The frontier commits the schedule positions of the batches delivered, and keeps room
for a batch. -/
structure Tracked (loader : ProcessLoader) (delivered : Finset Nat) (frontier : Frontier) :
    Prop where
  linked : ∃ start, Linked start loader.scheduleLength loader.workers frontier
  committed : ∀ position < loader.scheduleLength,
    frontier.Committed position ↔ position / loader.perBatch ∈ delivered
  deep : loader.perBatch ≤ frontier.depth

namespace Tracked

variable {loader : ProcessLoader} {delivered : Finset Nat} {frontier after : Frontier}

section

variable (tracked : Tracked loader delivered frontier)

include tracked

theorem refilled {start : Nat} (linked : Linked start loader.scheduleLength loader.workers after)
    (same : Filled frontier after) : Tracked loader delivered after := by
  refine ⟨⟨start, linked⟩, fun position inside => ?_, same.depth ▸ tracked.deep⟩
  rw [← tracked.committed position inside, Frontier.Committed, Frontier.Committed,
    same.nextCommit, same.delivered]

theorem filled (order : List Nat) (room : Nat) :
    ∃ after, frontier.fill order room = .ok after ∧ Tracked loader delivered after ∧
      Filled frontier after := by
  obtain ⟨start, linked⟩ := tracked.linked
  obtain ⟨after, fillEq, kept, same⟩ := linked.fill order room
  exact ⟨after, fillEq, tracked.refilled kept same, same⟩

theorem still {after : Frontier} {start : Nat}
    (linked : Linked start loader.scheduleLength loader.workers after) (same : Still frontier after) :
    Tracked loader delivered after := by
  refine ⟨⟨start, linked⟩, fun position inside => ?_, ?_⟩
  · rw [← tracked.committed position inside, Frontier.Committed, Frontier.Committed,
      same.nextCommit, same.delivered]
  · exact Nat.le_trans tracked.deep same.deeper

end

theorem worked {dispatch : Dispatch} (tracked : Tracked loader delivered frontier)
    (workEq : frontier.work dispatch = some after) : Tracked loader delivered after := by
  obtain ⟨start, linked⟩ := tracked.linked
  obtain ⟨kept, -, rfl⟩ := linked.work workEq
  exact ⟨⟨start, kept⟩, tracked.committed, tracked.deep⟩

section

variable (tracked : Tracked loader delivered frontier)

include tracked

theorem arrived {dispatch : Dispatch} {start : Nat}
    (linked : Linked start loader.scheduleLength loader.workers after)
    (arrival : Arrived dispatch frontier after) : Tracked loader delivered after := by
  refine ⟨⟨start, linked⟩, fun position inside => ?_, arrival.depth ▸ tracked.deep⟩
  rw [← tracked.committed position inside, Frontier.Committed, Frontier.Committed,
    arrival.nextCommit, arrival.delivered]

/-- A position whose payload waits is not committed and in the range. -/
theorem ready {position : Nat} (held : position ∈ frontier.ready) :
    position < loader.scheduleLength ∧ position / loader.perBatch ∉ delivered := by
  obtain ⟨start, linked⟩ := tracked.linked
  obtain ⟨worker, found⟩ := (linked.received position).mp held
  obtain ⟨low, high, fresh⟩ := linked.framed.active position (mem_of_lookup found)
  have inside : position < loader.scheduleLength := by omega
  refine ⟨inside, fun member => ?_⟩
  rcases (tracked.committed position inside).mpr member with below | beyond
  · omega
  · exact fresh beyond

/-- While a batch is missing, the next commit is the first position of one. -/
theorem nextCommit (missing : ∃ ordinal < loader.batching.count, ordinal ∉ delivered) :
    ∃ ordinal < loader.batching.count, ordinal ∉ delivered ∧
      frontier.schedule.nextCommit = ordinal * loader.perBatch ∧
      ∀ other < ordinal, other ∈ delivered := by
  have positive : 0 < loader.perBatch := ProcessLoader.perBatch_pos
  obtain ⟨start, linked⟩ := tracked.linked
  have gap : ¬ frontier.Committed frontier.schedule.nextCommit := by
    rintro (below | beyond)
    · exact Nat.lt_irrefl _ below
    · exact linked.framed.not_delivered_nextCommit beyond
  have before : ∀ ordinal < loader.batching.count,
      ordinal * loader.perBatch < frontier.schedule.nextCommit → ordinal ∈ delivered := by
    intro ordinal inside low
    rw [← ProcessLoader.grid_count, Batching.lt_count_iff] at inside
    have member : ordinal * loader.perBatch / loader.perBatch ∈ delivered :=
      (tracked.committed _ inside).mp (Or.inl low)
    rwa [Nat.mul_div_cancel ordinal positive] at member
  have inside : frontier.schedule.nextCommit < loader.scheduleLength := by
    by_contra past
    obtain ⟨ordinal, real, absent⟩ := missing
    have within := real
    rw [← ProcessLoader.grid_count, Batching.lt_count_iff] at within
    exact absent (before ordinal real (Nat.lt_of_lt_of_le within (Nat.le_of_not_lt past)))
  have real : frontier.schedule.nextCommit / loader.perBatch < loader.batching.count := by
    have within : frontier.schedule.nextCommit < loader.grid.length := inside
    rw [← ProcessLoader.grid_count]
    exact Batching.div_lt_count within
  have absent : frontier.schedule.nextCommit / loader.perBatch ∉ delivered := fun member =>
    gap ((tracked.committed _ inside).mpr member)
  refine ⟨_, real, absent, ?_, fun other less => ?_⟩
  · have low := Nat.div_mul_le_self frontier.schedule.nextCommit loader.perBatch
    by_contra different
    exact absent (before _ real (Nat.lt_of_le_of_ne low fun same => different same.symm))
  · refine before other (Nat.lt_trans less real) ?_
    have bound := Nat.mul_le_mul_right loader.perBatch less
    have low := Nat.div_mul_le_self frontier.schedule.nextCommit loader.perBatch
    rw [Nat.succ_mul] at bound
    omega

/-- Popping the schedule positions of a batch commits the batch. -/
theorem popped (text : String) {positions : List Nat} (distinct : positions.Nodup)
    (held : ∀ position ∈ positions, position ∈ frontier.ready) :
    ∃ after start, ProcessIterator.popAll text positions frontier = .ok after ∧
      Linked start loader.scheduleLength loader.workers after ∧
      (∀ other, after.Committed other ↔ frontier.Committed other ∨ other ∈ positions) ∧
      after.depth = frontier.depth ∧ after.running = frontier.running ∧
      after.finished = frontier.finished ∧
      ∀ other, other ∈ after.ready ↔ other ∈ frontier.ready ∧ other ∉ positions := by
  obtain ⟨start, linked⟩ := tracked.linked
  clear tracked
  induction positions generalizing frontier with
  | nil => exact ⟨frontier, start, rfl, linked, by simp, rfl, rfl, rfl, by simp⟩
  | cons position positions ih =>
      rw [List.nodup_cons] at distinct
      obtain ⟨middle, popEq, kept, one⟩ := linked.pop (held position List.mem_cons_self) text
      have later : ∀ other ∈ positions, other ∈ middle.ready := by
        intro other member
        rw [one.ready, Finset.mem_erase]
        exact ⟨fun same => distinct.1 (same ▸ member),
          held other (List.mem_cons_of_mem _ member)⟩
      obtain ⟨after, first, popAllEq, last, committed, depth, running, finished, ready⟩ :=
        ih distinct.2 later kept
      refine ⟨after, first, ?_, last, fun other => ?_, depth.trans one.depth,
        running.trans one.running, finished.trans one.finished, fun other => ?_⟩
      · rw [ProcessIterator.popAll, popEq]
        exact popAllEq
      · rw [committed, one.committed, List.mem_cons, or_assoc]
      · rw [ready, one.ready, Finset.mem_erase, List.mem_cons, not_or]
        constructor
        · rintro ⟨⟨different, old⟩, apart⟩
          exact ⟨old, different, apart⟩
        · rintro ⟨old, different, apart⟩
          exact ⟨⟨different, old⟩, apart⟩

/-- Polling takes one arrival after the other.  What a claim `motive` about the frontier
and the iterator says of them before, it says of them after, with whether a completion came. -/
theorem poll {motive : Bool → Frontier → ProcessIterator → Prop} {before : Bool}
    {iterator : ProcessIterator} (holds : motive before frontier iterator)
    (arrives : ∀ came here there dispatch state, Tracked loader delivered here →
      motive came here state → Arrived dispatch here there → Tracked loader delivered there →
      motive true there (ProcessIterator.observe loader state there.ready dispatch.position))
    (workers : List Nat) :
    ∃ came there state, ProcessIterator.poll loader workers frontier iterator =
        .ok (came, { state with frontier := some there }) ∧
      Tracked loader delivered there ∧ motive (before || came) there state ∧
      (came = false → there = frontier ∧ state = iterator ∧
        ∀ dispatch ∈ frontier.finished, dispatch.worker ∉ workers) := by
  induction workers generalizing frontier before iterator with
  | nil =>
      refine ⟨false, frontier, iterator, rfl, tracked, ?_, fun _ => ⟨rfl, rfl, ?_⟩⟩
      · rw [Bool.or_false]
        exact holds
      · exact fun _ _ => List.not_mem_nil
  | cons worker workers ih =>
      obtain ⟨start, linked⟩ := tracked.linked
      rcases linked.receive worker with ⟨nothing, clear⟩ | ⟨dispatch, after, came, kept, arrival⟩
      · obtain ⟨came, there, state, pollEq, last, result, quiet⟩ :=
          ih tracked holds
        refine ⟨came, there, state, ?_, last, result, fun none => ?_⟩
        · rw [ProcessIterator.poll, nothing]
          exact pollEq
        · obtain ⟨same, still, others⟩ := quiet none
          refine ⟨same, still, fun dispatch member => ?_⟩
          rw [List.mem_cons, not_or]
          exact ⟨clear dispatch member, others dispatch member⟩
      · have next := tracked.arrived kept arrival
        have moved := arrives before frontier after dispatch iterator tracked holds arrival next
        obtain ⟨more, there, state, pollEq, last, result, -⟩ :=
          ih next moved
        refine ⟨true, there, state, ?_, last, ?_, fun impossible => nomatch impossible⟩
        · rw [ProcessIterator.poll, came]
          simp only [pollEq]
        · rw [Bool.or_true]
          exact result

/-- Committing positions brings the frontier nearer to its end. -/
theorem popped_remaining {positions : List Nat}
    (held : ∀ position ∈ positions, position ∈ frontier.ready) (some : positions ≠ [])
    (committed : ∀ other, after.Committed other ↔
      frontier.Committed other ∨ other ∈ positions) (running : after.running = frontier.running)
    (finished : after.finished = frontier.finished)
    (ready : ∀ other, other ∈ after.ready ↔ other ∈ frontier.ready ∧ other ∉ positions) :
    after.remaining loader.scheduleLength < frontier.remaining loader.scheduleLength := by
  obtain ⟨first, member⟩ := List.exists_mem_of_ne_nil positions some
  have uncommitted : ∀ position ∈ positions, ¬ frontier.Committed position := by
    intro position inside
    obtain ⟨within, absent⟩ := tracked.ready (held position inside)
    exact fun old => absent ((tracked.committed position within).mp old)
  have gone : ∀ position ∈ positions, after.weight position = 0 := fun position inside =>
    if_pos ((committed position).mpr (Or.inr inside))
  have waiting : ∀ position ∈ positions, frontier.weight position = 1 := fun position inside =>
    Frontier.weight_ready (uncommitted position inside) (held position inside)
  refine remaining_lt ?_ (tracked.ready (held first member)).1
    (by rw [gone first member, waiting first member]; decide)
  intro position _
  by_cases inside : position ∈ positions
  · rw [gone position inside]
    exact Nat.zero_le _
  · have same : after.weight position = frontier.weight position := by
      have open_ : after.Committed position ↔ frontier.Committed position := by
        rw [committed]
        exact or_iff_left inside
      have kept : position ∈ after.ready ↔ position ∈ frontier.ready := by
        rw [ready]
        exact and_iff_left inside
      simp only [Frontier.Committed] at open_
      simp only [Frontier.weight, open_, kept, running, finished]
    exact Nat.le_of_eq same

end

end Tracked

/-! ### Batches ready and queued -/

/-- The queue holds the batches all of whose payloads wait, each once. -/
structure Queued (loader : ProcessLoader) (ready : Finset Nat) (readyBatches : List Nat)
    (queuedBatches : Finset Nat) : Prop where
  same : queuedBatches = readyBatches.toFinset
  once : readyBatches.Nodup
  whole : ∀ ordinal ∈ readyBatches, ordinal < loader.batching.count ∧
    ∀ position ∈ loader.grid.batch ordinal, position ∈ ready
  all : ∀ ordinal < loader.batching.count,
    (∀ position ∈ loader.grid.batch ordinal, position ∈ ready) → ordinal ∈ readyBatches

/-- Nothing is queued while nothing is there. -/
theorem queued_nothing (loader : ProcessLoader) : Queued loader ∅ [] ∅ := by
  refine ⟨rfl, List.nodup_nil, fun _ member => absurd member List.not_mem_nil,
    fun ordinal real whole => ?_⟩
  rw [← ProcessLoader.grid_count] at real
  obtain ⟨position, member⟩ := List.exists_mem_of_ne_nil _ (Batching.batch_ne_nil real)
  exact absurd (whole position member) (Finset.notMem_empty _)

/-! ### The iterator between two steps -/

/-- The delivery of one more batch. -/
structure Handed (loader : ProcessLoader) (before after : ProcessIterator) (event : Yield)
    (ordinal : Nat) : Prop where
  real : ordinal < loader.batching.count
  fresh : ordinal ∉ before.delivered.delivered
  batch : event = .delivered (loader.batching.batch ordinal)
  grown : after.delivered.delivered = insert ordinal before.delivered.delivered

/-- The iterator between two steps: it has delivered what its state says, and its frontier
tracks that, with `keeps` of the payloads received and the batches queued, and `fits` of the
batches delivered. -/
structure Delivering (loader : ProcessLoader)
    (keeps : Finset Nat → List Nat → Finset Nat → Prop) (fits : DeliveredBatchState → Prop)
    (iterator : ProcessIterator) : Prop where
  valid : iterator.valid = true
  inside : ∀ ordinal ∈ iterator.delivered.delivered, ordinal < loader.batching.count
  position : iterator.position = loader.batching.samples iterator.delivered.delivered
  fitting : fits iterator.delivered
  linked : ∀ frontier, iterator.frontier = some frontier →
    ∃ start, Linked start loader.scheduleLength loader.workers frontier
  open_ : iterator.position < loader.length → ∃ frontier, iterator.frontier = some frontier ∧
    Tracked loader iterator.delivered.delivered frontier ∧
    keeps frontier.ready iterator.readyBatches iterator.queuedBatches

/-- What a step leaves of an iterator, and whether it delivers. -/
structure Stepped (loader : ProcessLoader) (invariant : ProcessIterator → Prop)
    (before : ProcessIterator) (event : Yield) (after : ProcessIterator) : Prop where
  kept : invariant after
  sound : ¬ event.Failed
  outcome : (event.batch = none ∧ after.delivered = before.delivered) ∨
    ∃ ordinal, Handed loader before after event ordinal
  ended : event.Finished → loader.length ≤ before.position

/-- A step that changes neither what was delivered nor the position. -/
theorem Stepped.silent {loader : ProcessLoader} {invariant : ProcessIterator → Prop}
    {before after : ProcessIterator} {event : Yield} (silent : event = .quiet ∨ event = .waiting)
    (kept : invariant after) (same : after.delivered = before.delivered) :
    Stepped loader invariant before event after := by
  rcases silent with rfl | rfl
  · exact ⟨kept, fun failed => failed, Or.inl ⟨rfl, same⟩, fun ended => False.elim ended⟩
  · exact ⟨kept, fun failed => failed, Or.inl ⟨rfl, same⟩, fun ended => False.elim ended⟩

section Steps

variable {loader : ProcessLoader} {keeps : Finset Nat → List Nat → Finset Nat → Prop}
  {fits : DeliveredBatchState → Prop} {iterator : ProcessIterator}

/-- A step of the frontier alone that receives nothing. -/
theorem Delivering.refront (delivering : Delivering loader keeps fits iterator)
    {frontier after : Frontier} (here : iterator.frontier = some frontier)
    {start : Nat} (linked : Linked start loader.scheduleLength loader.workers after)
    (ready : after.ready = frontier.ready)
    (tracked : ∀ delivered, Tracked loader delivered frontier →
      Tracked loader delivered after) :
    Delivering loader keeps fits { iterator with frontier := some after } := by
  refine ⟨delivering.valid, delivering.inside, delivering.position, delivering.fitting,
    fun other same => Option.some.inj same ▸ ⟨start, linked⟩, fun early => ?_⟩
  obtain ⟨_, sameFrontier, old, kept⟩ := delivering.open_ early
  obtain rfl := Option.some.inj (here.symm.trans sameFrontier)
  exact ⟨after, rfl, tracked _ old, ready ▸ kept⟩

/-- The passes of the consumer are good, those that `able` names bring the end nearer, and
where none is able a position can be dispatched. -/
structure Passes (loader : ProcessLoader)
    (keeps : Finset Nat → List Nat → Finset Nat → Prop) (fits : DeliveredBatchState → Prop)
    (able : ProcessIterator → Frontier → Prop) : Prop where
  pass : ∀ iterator frontier order room, Delivering loader keeps fits iterator →
    iterator.position < loader.length → iterator.frontier = some frontier →
    order.Perm frontier.schedule.dispatchCandidates →
    ∃ event after, ProcessIterator.next loader iterator order room = some (event, after) ∧
      Stepped loader (Delivering loader keeps fits) iterator event after ∧
      ∃ next, after.frontier = some next ∧ (able iterator frontier →
        next.remaining loader.scheduleLength < frontier.remaining loader.scheduleLength)
  answered : ∀ iterator frontier, frontier.finished ≠ [] → able iterator frontier
  open_ : ∀ iterator frontier, Delivering loader keeps fits iterator →
    iterator.position < loader.length → iterator.frontier = some frontier →
    ¬ able iterator frontier → ∃ position, frontier.schedule.nextCommit ≤ position ∧
      position < frontier.schedule.stop ∧ position ∉ frontier.schedule.delivered ∧
      position ∉ frontier.ready

/-- How far an iterator is from its end. -/
def ProcessIterator.remaining (loader : ProcessLoader) (iterator : ProcessIterator) : Nat :=
  match iterator.frontier with
  | none => 0
  | some frontier => frontier.remaining loader.scheduleLength

/-- Outside a pass of the consumer only the frontier moves. -/
theorem Delivering.backstage {label : ProcessIterator.Label} {event : Yield}
    {after : ProcessIterator} (delivering : Delivering loader keeps fits iterator)
    (stepEq : ProcessIterator.step loader iterator label = some (event, after))
    (apart : ∀ order room, label ≠ .next order room) :
    event = .quiet ∧ Delivering loader keeps fits after ∧
      after.delivered = iterator.delivered := by
  cases here : iterator.frontier with
  | none =>
      cases label with
      | next order room => exact absurd rfl (apart order room)
      | fill order room | work dispatch | adapt width =>
          simp only [ProcessIterator.step, here] at stepEq
          cases stepEq
  | some frontier =>
      obtain ⟨start, linked⟩ := delivering.linked frontier here
      cases label with
      | next order room => exact absurd rfl (apart order room)
      | fill order room =>
          obtain ⟨filled, fillEq, kept, same⟩ := linked.fill order room
          simp only [ProcessIterator.step, here, fillEq] at stepEq
          split at stepEq
          · cases stepEq
            exact ⟨rfl, delivering.refront here kept same.ready
              fun _ tracked => tracked.refilled kept same, rfl⟩
          · cases stepEq
      | work dispatch =>
          simp only [ProcessIterator.step, here] at stepEq
          obtain ⟨worked, workEq, pair⟩ := Option.map_eq_some_iff.mp stepEq
          cases pair
          obtain ⟨kept, -, same⟩ := linked.work workEq
          have ready : worked.ready = frontier.ready := by
            rw [same]
          exact ⟨rfl, delivering.refront here kept ready
            fun _ tracked => tracked.worked workEq, rfl⟩
      | adapt width =>
          simp only [ProcessIterator.step, here] at stepEq
          split at stepEq
          · rename_i decided
            obtain ⟨adapted, adaptEq, kept, same⟩ :=
              linked.adapt decided.2.1 decided.2.2
            simp only [adaptEq] at stepEq
            cases stepEq
            exact ⟨rfl, delivering.refront here kept same.ready
              fun _ tracked => tracked.still kept same, rfl⟩
          · cases stepEq

variable {able : ProcessIterator → Frontier → Prop} (passes : Passes loader keeps fits able)

include passes

/-- Every step keeps the iterator as it should be. -/
theorem Passes.step {label : ProcessIterator.Label} {event : Yield}
    {after : ProcessIterator} (delivering : Delivering loader keeps fits iterator)
    (stepEq : ProcessIterator.step loader iterator label = some (event, after)) :
    Stepped loader (Delivering loader keeps fits) iterator event after := by
  by_cases pass : ∃ order room, label = .next order room
  · obtain ⟨order, room, rfl⟩ := pass
    by_cases early : iterator.position < loader.length
    · obtain ⟨frontier, here, -, -⟩ := delivering.open_ early
      by_cases ordered : order.Perm frontier.schedule.dispatchCandidates
      · obtain ⟨other, state, nextEq, stepped, -⟩ :=
          passes.pass iterator frontier order room delivering early here ordered
        obtain ⟨rfl, rfl⟩ := Prod.mk.inj (Option.some.inj (nextEq.symm.trans stepEq))
        exact stepped
      · simp only [ProcessIterator.step, ProcessIterator.next, delivering.valid,
          Bool.not_true, Bool.false_eq_true, if_false, Nat.not_le.mpr early, here,
          if_neg ordered] at stepEq
        cases stepEq
    · have late : loader.length ≤ iterator.position := Nat.le_of_not_lt early
      simp only [ProcessIterator.step, ProcessIterator.next, delivering.valid,
        Bool.not_true, Bool.false_eq_true, if_false, if_pos late] at stepEq
      cases stepEq
      refine ⟨?_, fun failed => failed, Or.inl ⟨rfl, rfl⟩, fun _ => late⟩
      exact ⟨rfl, delivering.inside, delivering.position, delivering.fitting,
        delivering.linked, delivering.open_⟩
  · obtain ⟨quiet, kept, same⟩ := delivering.backstage stepEq
      fun order room equal => pass ⟨order, room, equal⟩
    exact .silent (Or.inl quiet) kept same

/-- Some step always ends the run or brings its end nearer. -/
theorem Passes.nearer (delivering : Delivering loader keeps fits iterator) :
    ∃ label event after, ProcessIterator.step loader iterator label = some (event, after) ∧
      (event.Finished ∨ after.remaining loader < iterator.remaining loader) := by
  by_cases early : iterator.position < loader.length
  · obtain ⟨frontier, here, tracked, -⟩ := delivering.open_ early
    have measure : iterator.remaining loader =
        frontier.remaining loader.scheduleLength := by
      rw [ProcessIterator.remaining, here]
    obtain ⟨start, linked⟩ := tracked.linked
    by_cases moves : able iterator frontier
    · obtain ⟨event, after, nextEq, -, next, nextHere, less⟩ := passes.pass iterator frontier
        frontier.schedule.dispatchCandidates 0 delivering early here (List.Perm.refl _)
      refine ⟨.next frontier.schedule.dispatchCandidates 0, event, after, nextEq, Or.inr ?_⟩
      rw [measure, ProcessIterator.remaining, nextHere]
      exact less moves
    · have idle : frontier.finished = [] := by
        by_contra finished
        exact moves (passes.answered iterator frontier finished)
      cases running : frontier.running with
      | cons dispatch dispatches =>
          have member : dispatch ∈ frontier.running := running ▸ List.mem_cons_self
          obtain ⟨worked, workEq⟩ : ∃ worked, frontier.work dispatch = some worked :=
            ⟨_, if_pos member⟩
          refine ⟨.work dispatch, .quiet, { iterator with frontier := some worked }, ?_,
            Or.inr ?_⟩
          · simp only [ProcessIterator.step, here, workEq, Option.map_some]
          · rw [measure]
            exact linked.work_remaining workEq
      | nil =>
          -- nothing is in the pool, so an open position of the window can be dispatched
          obtain ⟨position, low, high, fresh, unready⟩ :=
            passes.open_ iterator frontier delivering early here moves
          have pool : frontier.running ++ frontier.finished = [] := by
            rw [running, idle]
            rfl
          obtain ⟨filled, fillEq, less⟩ := linked.fill_nearer pool low high fresh unready
          refine ⟨.fill frontier.schedule.dispatchCandidates
            frontier.schedule.dispatchCandidates.length, .quiet,
            { iterator with frontier := some filled }, ?_, Or.inr ?_⟩
          · simp only [ProcessIterator.step, here, fillEq]
            rw [if_pos ⟨delivering.valid, List.Perm.refl _⟩]
          · rw [measure]
            exact less
  · have late : loader.length ≤ iterator.position := Nat.le_of_not_lt early
    refine ⟨.next [] 0, .exhausted, { iterator with complete := true }, ?_, Or.inl trivial⟩
    simp only [ProcessIterator.step, ProcessIterator.next, delivering.valid,
      Bool.not_true, Bool.false_eq_true, if_false, if_pos late]

/-- The iterator hands out the batches of the epoch it has not delivered, each once. -/
theorem Passes.handout :
    Handout (ProcessIterator.machine loader) Yield.batch Yield.Failed Yield.Finished
      loader.batching.everything (Delivering loader keeps fits)
      (fun iterator => loader.batching.contents iterator.delivered.delivered)
      (ProcessIterator.remaining loader) := by
  apply Handout.of_moves
  · intro iterator delivering
    exact Batching.contents_subset delivering.inside
  · intro iterator label event after delivering stepEq
    have stepped := passes.step delivering stepEq
    refine ⟨stepped.kept, stepped.sound, ?_, fun spent => ?_⟩
    · rcases stepped.outcome with ⟨silent, same⟩ | ⟨ordinal, handed⟩
      · exact Or.inl ⟨silent, by rw [same]⟩
      · refine Or.inr ⟨loader.batching.batch ordinal, by rw [handed.batch]; rfl,
          fun member => handed.fresh ((Batching.batch_mem_contents handed.real).mp member), ?_⟩
        rw [handed.grown, Batching.contents_insert]
    · have late := stepped.ended spent
      rw [delivering.position] at late
      exact Batching.contents_of_samples delivering.inside late
  · intro iterator delivering
    exact passes.nearer delivering

end Steps

section Uncollated

variable {loader : ProcessLoader} (plain : loader.userCollation = false)

include plain

theorem transport_of_plain : loader.transportBatchSize = loader.poolBatchSize := by
  rw [ProcessLoader.transportBatchSize, plain]
  rfl

/-- Without user collation an observed position belongs to the batch of its schedule
position, and is queued with the rest of it. -/
theorem observe_eq (iterator : ProcessIterator) {ready : Finset Nat} {position : Nat}
    (inside : position < loader.scheduleLength) (held : position ∈ ready) :
    ProcessIterator.observe loader iterator ready position =
      if position / loader.perBatch ∈ iterator.queuedBatches then iterator
      else if ∃ other ∈ loader.grid.batch (position / loader.perBatch), other ∉ ready then
        iterator
      else
        { iterator with
          readyBatches := iterator.readyBatches ++ [position / loader.perBatch]
          queuedBatches := insert (position / loader.perBatch) iterator.queuedBatches } := by
  have transport := transport_of_plain plain
  unfold ProcessIterator.observe
  cases pool : loader.poolBatchSize with
  | none =>
      have samples : loader.transportBatchSize = none := transport.trans pool
      have workers : loader.workerBatches = false := by
        rw [ProcessLoader.workerBatches, pool]
        rfl
      have per : loader.perBatch = loader.sizing.width := by
        rw [ProcessLoader.perBatch, samples]
      simp only [workers, per, ProcessLoader.grid_of_samples samples, Bool.not_false,
        true_and, Bool.false_eq_true, if_false]
  | some size =>
      have batched : loader.transportBatchSize = some size := transport.trans pool
      have workers : loader.workerBatches = true := by
        rw [ProcessLoader.workerBatches, pool]
        rfl
      have count : position < loader.batching.count := by
        rw [← ProcessLoader.scheduleLength_of_transport batched]
        exact inside
      have none : ¬ ∃ other ∈ loader.grid.batch position, other ∉ ready := by
        rw [ProcessLoader.grid_batch_of_transport batched count]
        rintro ⟨other, member, absent⟩
        rw [List.mem_singleton] at member
        exact absent (member ▸ held)
      simp only [workers, ProcessLoader.perBatch_of_transport batched, Nat.div_one, none,
        Bool.not_true, Bool.false_eq_true, false_and, if_true, if_false]

variable {iterator : ProcessIterator}

/-- A completion keeps the queue exact. -/
theorem Queued.observe {ready : Finset Nat} {position : Nat}
    (queued : Queued loader ready iterator.readyBatches iterator.queuedBatches)
    (inside : position < loader.scheduleLength) (fresh : position ∉ ready) :
    Queued loader (insert position ready)
      (ProcessIterator.observe loader iterator (insert position ready) position).readyBatches
      (ProcessIterator.observe loader iterator (insert position ready) position).queuedBatches
      := by
  have held : position ∈ insert position ready := Finset.mem_insert_self _ _
  have within : position < loader.grid.length := inside
  have real : position / loader.perBatch < loader.batching.count := by
    rw [← ProcessLoader.grid_count]
    exact Batching.div_lt_count within
  have own : position ∈ loader.grid.batch (position / loader.perBatch) :=
    Batching.mem_batch.mpr ⟨inside, rfl⟩
  have unqueued : position / loader.perBatch ∉ iterator.queuedBatches := by
    rw [queued.same, List.mem_toFinset]
    exact fun member => fresh ((queued.whole _ member).2 position own)
  -- only the batch of the new position can have become whole
  have other : ∀ ordinal < loader.batching.count, ordinal ≠ position / loader.perBatch →
      (∀ next ∈ loader.grid.batch ordinal, next ∈ insert position ready) →
      ordinal ∈ iterator.readyBatches := by
    intro ordinal below different whole
    refine queued.all ordinal below fun next member => ?_
    rcases Finset.mem_insert.mp (whole next member) with rfl | old
    · exact absurd (Batching.mem_batch.mp member).2.symm different
    · exact old
  rw [observe_eq plain iterator inside held, if_neg unqueued]
  split
  · rename_i missing
    refine ⟨queued.same, queued.once, fun ordinal member => ?_, fun ordinal below whole => ?_⟩
    · obtain ⟨below, old⟩ := queued.whole ordinal member
      exact ⟨below, fun next inBatch => Finset.mem_insert_of_mem (old next inBatch)⟩
    · refine other ordinal below ?_ whole
      rintro rfl
      obtain ⟨next, member, absent⟩ := missing
      exact absent (whole next member)
  · rename_i complete
    have whole : ∀ next ∈ loader.grid.batch (position / loader.perBatch),
        next ∈ insert position ready := by
      intro next member
      by_contra absent
      exact complete ⟨next, member, absent⟩
    have absent : position / loader.perBatch ∉ iterator.readyBatches := by
      rwa [queued.same, List.mem_toFinset] at unqueued
    refine ⟨?_, ?_, fun ordinal member => ?_, fun ordinal below filled => ?_⟩
    · simp only [queued.same]
      ext ordinal
      simp [or_comm]
    · simp only
      rw [List.nodup_append]
      refine ⟨queued.once, List.nodup_singleton _, ?_⟩
      intro one oneMember two twoMember equal
      rw [List.mem_singleton] at twoMember
      exact absent (twoMember ▸ equal ▸ oneMember)
    · rcases List.mem_append.mp member with old | new
      · obtain ⟨below, payloads⟩ := queued.whole ordinal old
        exact ⟨below, fun next inBatch => Finset.mem_insert_of_mem (payloads next inBatch)⟩
      · obtain rfl := List.mem_singleton.mp new
        exact ⟨real, whole⟩
    · rw [List.mem_append, List.mem_singleton]
      by_cases same : ordinal = position / loader.perBatch
      · exact Or.inr same
      · exact Or.inl (other ordinal below same filled)

omit plain in
/-- Taking the first batch keeps the queue exact. -/
theorem Queued.taken {ready left queuedBatches : Finset Nat} {ordinal : Nat}
    {rest : List Nat} (queued : Queued loader ready (ordinal :: rest) queuedBatches)
    (payloads : ∀ other, other ∈ left ↔
      other ∈ ready ∧ other ∉ loader.grid.batch ordinal) :
    Queued loader left rest (queuedBatches.erase ordinal) := by
  have once := queued.once
  rw [List.nodup_cons] at once
  have real : ordinal < loader.batching.count :=
    (queued.whole ordinal List.mem_cons_self).1
  refine ⟨?_, once.2, fun other member => ?_, fun other below whole => ?_⟩
  · rw [queued.same]
    ext other
    simp only [Finset.mem_erase, List.mem_toFinset, List.mem_cons]
    constructor
    · rintro ⟨different, same | member⟩
      · exact absurd same different
      · exact member
    · intro member
      exact ⟨fun same => once.1 (same ▸ member), Or.inr member⟩
  · obtain ⟨below, old⟩ := queued.whole other (List.mem_cons_of_mem _ member)
    refine ⟨below, fun position inBatch => (payloads position).mpr ⟨old position inBatch, ?_⟩⟩
    intro taken
    have same := (Batching.mem_batch.mp inBatch).2.symm.trans (Batching.mem_batch.mp taken).2
    exact once.1 (same ▸ member)
  · have old : other ∈ ordinal :: rest :=
      queued.all other below fun position inBatch =>
        ((payloads position).mp (whole position inBatch)).1
    rcases List.mem_cons.mp old with rfl | member
    · rw [← ProcessLoader.grid_count] at real
      obtain ⟨position, inBatch⟩ := List.exists_mem_of_ne_nil _ (Batching.batch_ne_nil real)
      exact absurd inBatch ((payloads position).mp (whole position inBatch)).2
    · exact member

omit plain in
theorem observe_same (iterator : ProcessIterator) (ready : Finset Nat) (position : Nat) :
    (ProcessIterator.observe loader iterator ready position).position = iterator.position ∧
      (ProcessIterator.observe loader iterator ready position).delivered =
        iterator.delivered ∧
      (ProcessIterator.observe loader iterator ready position).valid = iterator.valid := by
  unfold ProcessIterator.observe
  generalize (if loader.workerBatches then position else position / loader.sizing.width) =
    ordinal
  simp only
  by_cases queued : ordinal ∈ iterator.queuedBatches
  · rw [if_pos queued]
    exact ⟨rfl, rfl, rfl⟩
  · rw [if_neg queued]
    split <;> exact ⟨rfl, rfl, rfl⟩

/-- What a wait does to the iterator: it polls, or deepens the frontier. -/
structure Awaited (loader : ProcessLoader) (delivered : Finset Nat) (before : Frontier)
    (iterator : ProcessIterator)
    (keeps : Finset Nat → List Nat → Finset Nat → Prop) (event : Yield)
    (after : ProcessIterator) : Prop where
  silent : event = .quiet ∨ event = .waiting
  position : after.position = iterator.position
  batches : after.delivered = iterator.delivered
  valid : after.valid = iterator.valid
  frontier : ∃ frontier, after.frontier = some frontier ∧ Tracked loader delivered frontier ∧
    keeps frontier.ready after.readyBatches after.queuedBatches ∧
    frontier.remaining loader.scheduleLength ≤ before.remaining loader.scheduleLength ∧
    (before.finished ≠ [] →
      frontier.remaining loader.scheduleLength < before.remaining loader.scheduleLength)

omit plain in
/-- A wait keeps what every completion keeps. -/
theorem Tracked.await {delivered : Finset Nat} {frontier : Frontier}
    (tracked : Tracked loader delivered frontier)
    {keeps : Finset Nat → List Nat → Finset Nat → Prop} {iterator : ProcessIterator}
    (kept : keeps frontier.ready iterator.readyBatches iterator.queuedBatches)
    (observes : ∀ state ready position, position < loader.scheduleLength → position ∉ ready →
      keeps ready state.readyBatches state.queuedBatches →
      keeps (insert position ready)
        (ProcessIterator.observe loader state (insert position ready) position).readyBatches
        (ProcessIterator.observe loader state (insert position ready) position).queuedBatches) :
    ∃ event after, ProcessIterator.await loader iterator frontier = (event, after) ∧
      Awaited loader delivered frontier iterator keeps event after := by
  let motive : Bool → Frontier → ProcessIterator → Prop := fun came here state =>
    state.position = iterator.position ∧ state.delivered = iterator.delivered ∧
      state.valid = iterator.valid ∧
      keeps here.ready state.readyBatches state.queuedBatches ∧
      here.remaining loader.scheduleLength ≤ frontier.remaining loader.scheduleLength ∧
      (came = true →
        here.remaining loader.scheduleLength < frontier.remaining loader.scheduleLength)
  have start : motive false frontier iterator :=
    ⟨rfl, rfl, rfl, kept, Nat.le_refl _, fun impossible => nomatch impossible⟩
  obtain ⟨came, there, state, pollEq, last, result, quiet⟩ := tracked.poll start
    (by
      rintro came here there dispatch state tracked ⟨position, batches, valid, holds, less, -⟩
        arrival next
      obtain ⟨first, linked⟩ := tracked.linked
      obtain ⟨samePosition, sameDelivered, sameValid⟩ :=
        @observe_same loader state there.ready dispatch.position
      obtain ⟨inside, -, -⟩ := linked.inFlight (List.mem_append_right _ arrival.held)
      have nearer := Nat.lt_of_lt_of_le (linked.arrived_remaining arrival) less
      refine ⟨samePosition.trans position, sameDelivered.trans batches,
        sameValid.trans valid, ?_, Nat.le_of_lt nearer, fun _ => nearer⟩
      have moved := observes state here.ready dispatch.position inside arrival.fresh holds
      rw [← arrival.ready] at moved
      exact moved)
    (List.range loader.workers)
  obtain ⟨position, batches, valid, holds, less, strictly⟩ := result
  cases came with
  | true =>
      refine ⟨.quiet, { state with frontier := some there }, ?_, ?_⟩
      · rw [ProcessIterator.await, pollEq]
      · exact
          { silent := Or.inl rfl
            position := position
            batches := batches
            valid := valid
            frontier := ⟨there, rfl, last, holds, less, fun _ => strictly rfl⟩ }
  | false =>
      obtain ⟨rfl, rfl, none⟩ := quiet rfl
      obtain ⟨first, linked⟩ := tracked.linked
      obtain ⟨deeper, waitEq, keptLinked, same⟩ := linked.recordWait
      refine ⟨.waiting, { state with frontier := some deeper }, ?_, ?_⟩
      · rw [ProcessIterator.await, pollEq]
        simp only [waitEq]
      · have idle : there.finished = [] := by
          rw [List.eq_nil_iff_forall_not_mem]
          intro dispatch member
          exact none dispatch member (List.mem_range.mpr
            (linked.known dispatch (List.mem_append_right _ member)))
        exact
          { silent := Or.inr rfl
            position := position
            batches := batches
            valid := valid
            frontier := ⟨deeper, rfl, tracked.still keptLinked same, same.ready ▸ holds,
              Nat.le_of_eq same.remaining, fun some => absurd idle some⟩ }

/-- Taking the first batch of the queue delivers it. -/
theorem Tracked.take {frontier : Frontier} {ordinal : Nat} {rest : List Nat}
    (tracked : Tracked loader iterator.delivered.delivered frontier)
    (queued : Queued loader frontier.ready (ordinal :: rest) iterator.queuedBatches) :
    ∃ event after, ProcessIterator.take loader iterator ordinal rest frontier =
        (event, after) ∧
      Handed loader iterator after event ordinal ∧ after.valid = iterator.valid ∧
      after.position = iterator.position + loader.batching.size ordinal ∧
      ∃ next, after.frontier = some next ∧
        Tracked loader after.delivered.delivered next ∧
        Queued loader next.ready after.readyBatches after.queuedBatches ∧
        next.remaining loader.scheduleLength < frontier.remaining loader.scheduleLength := by
  obtain ⟨real, payloads⟩ := queued.whole ordinal List.mem_cons_self
  have positions : (if loader.workerBatches then [ordinal]
      else loader.batching.batch ordinal) = loader.grid.batch ordinal := by
    have transport := transport_of_plain plain
    cases pool : loader.poolBatchSize with
    | none =>
        rw [ProcessLoader.workerBatches, pool,
          ProcessLoader.grid_of_samples (transport.trans pool)]
        rfl
    | some size =>
        rw [ProcessLoader.workerBatches, pool,
          ProcessLoader.grid_batch_of_transport (transport.trans pool) real]
        rfl
  have onGrid : ordinal < loader.grid.count := by
    rw [ProcessLoader.grid_count]
    exact real
  have content := Batching.batch_ne_nil onGrid
  have distinct : (loader.grid.batch ordinal).Nodup := List.nodup_range'
  obtain ⟨next, start, popEq, linked, committed, depth, running, finished, ready⟩ :=
    tracked.popped (if loader.workerBatches then ProcessIterator.BATCH_REFUSED
      else ProcessIterator.SAMPLE_REFUSED) distinct payloads
  have fresh : ordinal ∉ iterator.delivered.delivered := by
    obtain ⟨position, member⟩ := List.exists_mem_of_ne_nil _ content
    have quotient : position / loader.perBatch = ordinal := (Batching.mem_batch.mp member).2
    have absent := (tracked.ready (payloads position member)).2
    rwa [quotient] at absent
  obtain ⟨marked, markEq⟩ := DeliveredBatchState.exists_mark fresh
  have grown := (DeliveredBatchState.delivered_of_mark markEq).2
  refine ⟨.delivered (loader.batching.batch ordinal),
    { iterator with
      position := iterator.position + loader.batching.size ordinal
      delivered := marked
      frontier := some next
      readyBatches := rest
      queuedBatches := iterator.queuedBatches.erase ordinal }, ?_, ⟨real, fresh, rfl, grown⟩,
    rfl, rfl, next, rfl, ⟨⟨start, linked⟩, fun position inside => ?_, depth ▸ tracked.deep⟩,
    queued.taken ready, ?_⟩
  · have queuedOnce : ordinal ∈ iterator.queuedBatches := by
      rw [queued.same, List.mem_toFinset]
      exact List.mem_cons_self
    rw [ProcessIterator.take, if_neg (not_not.mpr queuedOnce)]
    simp only [positions, popEq, markEq, ProcessLoader.flatMap_command real]
  · rw [committed, tracked.committed position inside]
    show _ ↔ _ ∈ marked.delivered
    rw [grown, Finset.mem_insert, Batching.mem_batch, or_comm]
    exact or_congr_left ⟨And.right, fun same => ⟨inside, same⟩⟩
  · exact tracked.popped_remaining payloads content committed running finished ready

/-- A pass of the consumer before the end, in a dispatch order of the schedule. -/
theorem Delivering.pass (delivering : Delivering loader (Queued loader) (fun _ => True) iterator)
    (early : iterator.position < loader.length) {frontier : Frontier}
    (here : iterator.frontier = some frontier) {order : List Nat}
    (ordered : order.Perm frontier.schedule.dispatchCandidates) (room : Nat) :
    ∃ event after, ProcessIterator.next loader iterator order room = some (event, after) ∧
      Stepped loader (Delivering loader (Queued loader) (fun _ => True)) iterator event
        after ∧
      ∃ next, after.frontier = some next ∧
        (iterator.readyBatches ≠ [] ∨ frontier.finished ≠ [] →
          next.remaining loader.scheduleLength <
            frontier.remaining loader.scheduleLength) := by
  obtain ⟨_, sameFrontier, tracked, queued⟩ := delivering.open_ early
  obtain rfl := Option.some.inj (here.symm.trans sameFrontier)
  obtain ⟨filled, fillEq, filledTracked, same⟩ := tracked.filled order room
  have lighter : filled.remaining loader.scheduleLength ≤
      frontier.remaining loader.scheduleLength :=
    remaining_le fun position _ => same.weight_le position
  have entered : ProcessIterator.next loader iterator order room =
      some (ProcessIterator.nextBatch loader iterator filled) := by
    rw [ProcessIterator.next]
    simp only [delivering.valid, Bool.not_true, Bool.false_eq_true, if_false,
      Nat.not_le.mpr early, here, if_pos ordered, fillEq, plain]
  rw [entered]
  have filledQueued : Queued loader filled.ready iterator.readyBatches
      iterator.queuedBatches := same.ready ▸ queued
  cases batches : iterator.readyBatches with
  | cons ordinal rest =>
      rw [batches] at filledQueued
      obtain ⟨event, after, takeEq, handed, valid, position, next, nextEq, nextTracked,
        nextQueued, nearer⟩ := filledTracked.take plain filledQueued
      refine ⟨event, after, ?_, ⟨?_, ?_, Or.inr ⟨ordinal, handed⟩, ?_⟩, next, nextEq,
        fun _ => Nat.lt_of_lt_of_le nearer lighter⟩
      · rw [ProcessIterator.nextBatch, batches]
        exact congrArg some takeEq
      · refine ⟨valid.trans delivering.valid, ?_, ?_, trivial, fun other same =>
          Option.some.inj (nextEq.symm.trans same) ▸ nextTracked.linked, fun _ =>
          ⟨next, nextEq, nextTracked, nextQueued⟩⟩
        · rw [handed.grown]
          intro other member
          rcases Finset.mem_insert.mp member with rfl | old
          · exact handed.real
          · exact delivering.inside other old
        · rw [position, handed.grown, Batching.samples_insert handed.fresh,
            delivering.position]
      · rw [handed.batch]
        exact fun failed => failed
      · rw [handed.batch]
        exact fun ended => False.elim ended
  | nil =>
      obtain ⟨event, after, awaitEq, awaited⟩ :=
        filledTracked.await filledQueued
          (fun _ _ _ inside fresh queued => queued.observe plain inside fresh)
      obtain ⟨next, nextEq, nextTracked, nextQueued, atMost, nearer⟩ := awaited.frontier
      refine ⟨event, after, ?_, .silent awaited.silent ?_ awaited.batches, next, nextEq,
        fun some => ?_⟩
      · rw [ProcessIterator.nextBatch, batches]
        exact congrArg some awaitEq
      · refine ⟨awaited.valid.trans delivering.valid, ?_, ?_, trivial, fun other same =>
          Option.some.inj (nextEq.symm.trans same) ▸ nextTracked.linked, fun _ =>
          ⟨next, nextEq, ?_, nextQueued⟩⟩
        · rw [awaited.batches]
          exact delivering.inside
        · rw [awaited.position, awaited.batches, delivering.position]
        · rw [awaited.batches]
          exact nextTracked
      · have waiting : filled.finished ≠ [] := by
          rw [same.finished]
          exact some.resolve_left fun absurd => absurd rfl
        exact Nat.lt_of_lt_of_le (nearer waiting) lighter

/-- Without user collation every pass is good, whatever has been restored. -/
theorem plain_passes : Passes loader (Queued loader) (fun _ => True)
    (fun iterator frontier => iterator.readyBatches ≠ [] ∨ frontier.finished ≠ []) where
  pass _ _ _ room delivering early here ordered :=
    delivering.pass plain early here ordered room
  answered _ _ finished := Or.inr finished
  open_ iterator frontier delivering early here stuck := by
    rw [not_or, not_not, not_not] at stuck
    obtain ⟨_, sameFrontier, tracked, queued⟩ := delivering.open_ early
    obtain rfl := Option.some.inj (here.symm.trans sameFrontier)
    obtain ⟨start, linked⟩ := tracked.linked
    have fewer := delivering.position ▸ early
    obtain ⟨ordinal, real, absent, next, -⟩ :=
      tracked.nextCommit (Batching.exists_missing fewer)
    have partly : ∃ position ∈ loader.grid.batch ordinal, position ∉ frontier.ready := by
      by_contra whole
      have member := queued.all ordinal real fun position inBatch => by
        by_contra unready
        exact whole ⟨position, inBatch, unready⟩
      rw [stuck.1] at member
      cases member
    obtain ⟨position, inBatch, unready⟩ := partly
    obtain ⟨inside, quotient⟩ : position < loader.scheduleLength ∧
        position / loader.perBatch = ordinal := Batching.mem_batch.mp inBatch
    have positive : 0 < loader.perBatch := ProcessLoader.perBatch_pos
    have low : ordinal * loader.perBatch ≤ position := by
      rw [← quotient]
      exact Nat.div_mul_le_self position loader.perBatch
    have high : position < ordinal * loader.perBatch + loader.perBatch := by
      have bound := Nat.lt_succ_self (position / loader.perBatch)
      rw [Nat.div_lt_iff_lt_mul positive, Nat.succ_mul, quotient] at bound
      exact bound
    refine ⟨position, next ▸ low, ?_, fun beyond => ?_, unready⟩
    · have deep := tracked.deep
      have depth := linked.depth
      have ends := linked.framed.endPosition
      have bounded := linked.bounded
      unfold StaticSchedule.stop saturatingAdd
      omega
    · have member := (tracked.committed position inside).mp (Or.inr beyond)
      rw [quotient] at member
      exact absent member

end Uncollated

/-! ### User collation -/

/-- Marking the first gap leaves a part of the batches ahead. -/
theorem ahead_of_mark {state next : DeliveredBatchState}
    (marked : state.mark state.base = .ok next) : next.ahead ⊆ state.ahead := by
  have grown := (DeliveredBatchState.delivered_of_mark marked).2
  intro ordinal member
  have delivered : ordinal ∈ insert state.base state.delivered :=
    grown ▸ DeliveredBatchState.mem_delivered.mpr (Or.inr member)
  have above := next.beyond ordinal member
  have forward := DeliveredBatchState.base_le_of_mark marked
  rcases Finset.mem_insert.mp delivered with rfl | old
  · omega
  · rcases DeliveredBatchState.mem_delivered.mp old with before | ahead
    · omega
    · exact ahead

section Collated

variable {loader : ProcessLoader} (collated : loader.userCollation = true)

include collated

/-- A user-collated batch is one command. -/
theorem perBatch_of_collated : loader.perBatch = 1 := by
  cases transport : loader.transportBatchSize with
  | some size => exact ProcessLoader.perBatch_of_transport transport
  | none =>
      have unsized : loader.sizing.batchSize = none := by
        rw [ProcessLoader.transportBatchSize, collated] at transport
        exact transport
      rw [ProcessLoader.perBatch, transport, Sizing.width, unsized]
      rfl

theorem command_of_collated {ordinal : Nat} (real : ordinal < loader.batching.count) :
    loader.command ordinal = loader.batching.batch ordinal := by
  have one := ProcessLoader.flatMap_command real
  rw [ProcessLoader.grid_batch_of_single (perBatch_of_collated collated) real] at one
  simpa using one

/-- What the loop of the next pass finds: the first open batch is the next to commit, and
`position // width` names it unless a whole batch of samples lies ahead. -/
structure Expecting (loader : ProcessLoader) (iterator : ProcessIterator) (frontier : Frontier) :
    Prop where
  real : iterator.delivered.base < loader.batching.count
  head : frontier.schedule.nextCommit = iterator.delivered.base
  position : iterator.position = iterator.delivered.base * loader.sizing.width +
    loader.batching.samples iterator.delivered.ahead

theorem Delivering.expecting {fits : DeliveredBatchState → Prop} {iterator : ProcessIterator}
    (delivering : Delivering loader (fun _ _ _ => True) fits iterator)
    (early : iterator.position < loader.length) {frontier : Frontier}
    (tracked : Tracked loader iterator.delivered.delivered frontier) :
    Expecting loader iterator frontier := by
  have fewer := delivering.position ▸ early
  obtain ⟨ordinal, real, absent, next, before⟩ :=
    tracked.nextCommit (Batching.exists_missing fewer)
  rw [perBatch_of_collated collated, Nat.mul_one] at next
  have first : iterator.delivered.base = ordinal := by
    rcases Nat.lt_trichotomy iterator.delivered.base ordinal with less | equal | more
    · exact absurd (before _ less) DeliveredBatchState.base_notMem
    · exact equal
    · exact absurd (DeliveredBatchState.mem_delivered.mpr (Or.inl more)) absent
  refine ⟨first ▸ real, next.trans first.symm, ?_⟩
  have inside : iterator.delivered.base * loader.sizing.width < loader.length := by
    have low := first ▸ real
    rwa [Batching.lt_count_iff] at low
  rw [delivering.position, DeliveredBatchState.samples_delivered]
  show min loader.length (iterator.delivered.base * loader.sizing.width) + _ = _
  rw [Nat.min_eq_right (Nat.le_of_lt inside)]

/-- A pass while less than a batch of samples lies ahead. -/
theorem Delivering.collatedPass {iterator : ProcessIterator}
    (delivering : Delivering loader (fun _ _ _ => True)
      (fun state => loader.batching.samples state.ahead < loader.sizing.width) iterator)
    (early : iterator.position < loader.length) {frontier : Frontier}
    (here : iterator.frontier = some frontier) {order : List Nat}
    (ordered : order.Perm frontier.schedule.dispatchCandidates) (room : Nat) :
    ∃ event after, ProcessIterator.next loader iterator order room = some (event, after) ∧
      Stepped loader (Delivering loader (fun _ _ _ => True)
        (fun state => loader.batching.samples state.ahead < loader.sizing.width)) iterator event
        after ∧
      ∃ next, after.frontier = some next ∧
        (frontier.schedule.nextCommit ∈ frontier.ready ∨ frontier.finished ≠ [] →
          next.remaining loader.scheduleLength <
            frontier.remaining loader.scheduleLength) := by
  obtain ⟨_, sameFrontier, tracked, -⟩ := delivering.open_ early
  obtain rfl := Option.some.inj (here.symm.trans sameFrontier)
  obtain ⟨filled, fillEq, filledTracked, same⟩ := tracked.filled order room
  have lighter : filled.remaining loader.scheduleLength ≤
      frontier.remaining loader.scheduleLength :=
    remaining_le fun position _ => same.weight_le position
  have entered : ProcessIterator.next loader iterator order room =
      some (ProcessIterator.nextUserBatch loader iterator filled) := by
    rw [ProcessIterator.next]
    simp only [delivering.valid, Bool.not_true, Bool.false_eq_true, if_false,
      Nat.not_le.mpr early, here, if_pos ordered, fillEq, collated, if_true]
  have expecting := delivering.expecting collated early filledTracked
  have ordinal : iterator.position / loader.sizing.width = iterator.delivered.base := by
    rw [expecting.position, Nat.add_comm,
      Nat.add_mul_div_right _ _ loader.width_pos, Nat.div_eq_of_lt delivering.fitting,
      Nat.zero_add]
  rw [entered]
  obtain ⟨start, linked⟩ := filledTracked.linked
  rcases linked.commitNext iterator.delivered.base with
    ⟨unready, commitEq⟩ | ⟨-, different, -⟩ | ⟨-, next, commitEq, kept, popped⟩
  · obtain ⟨event, after, awaitEq, awaited⟩ :=
      @Tracked.await loader _ _ filledTracked (fun _ _ _ => True) iterator trivial
        (fun _ _ _ _ _ _ => trivial)
    obtain ⟨next, nextEq, nextTracked, -, atMost, nearer⟩ := awaited.frontier
    refine ⟨event, after, ?_, .silent awaited.silent ?_ awaited.batches, next, nextEq,
      fun some => ?_⟩
    · rw [ProcessIterator.nextUserBatch, ordinal, commitEq]
      exact congrArg some awaitEq
    · refine ⟨awaited.valid.trans delivering.valid, ?_, ?_, ?_, fun other equal =>
        Option.some.inj (nextEq.symm.trans equal) ▸ nextTracked.linked, fun _ =>
        ⟨next, nextEq, ?_, trivial⟩⟩
      · rw [awaited.batches]
        exact delivering.inside
      · rw [awaited.position, awaited.batches, delivering.position]
      · rw [awaited.batches]
        exact delivering.fitting
      · rw [awaited.batches]
        exact nextTracked
    · have waiting : filled.finished ≠ [] := by
        rw [same.finished]
        refine some.resolve_left fun ready => unready ?_
        rw [same.nextCommit, same.ready]
        exact ready
      exact Nat.lt_of_lt_of_le (nearer waiting) lighter
  · exact absurd expecting.head different
  · have fresh : iterator.delivered.base ∉ iterator.delivered.delivered :=
      DeliveredBatchState.base_notMem
    obtain ⟨marked, markEq⟩ := DeliveredBatchState.exists_mark fresh
    have grown := (DeliveredBatchState.delivered_of_mark markEq).2
    have single := perBatch_of_collated collated
    have nextTracked : Tracked loader marked.delivered next := by
      refine ⟨⟨start, kept⟩, fun position inside => ?_, popped.depth ▸ filledTracked.deep⟩
      rw [popped.committed, filledTracked.committed position inside, grown,
        Finset.mem_insert, single, Nat.div_one, or_comm]
    have inside : ∀ other ∈ marked.delivered, other < loader.batching.count := by
      rw [grown]
      intro other member
      rcases Finset.mem_insert.mp member with rfl | old
      · exact expecting.real
      · exact delivering.inside other old
    refine ⟨.delivered (loader.command iterator.delivered.base),
      { iterator with
        position := min loader.length (iterator.position + loader.sizing.width)
        delivered := marked
        frontier := some next }, ?_, ⟨?_, fun failed => failed, Or.inr
        ⟨iterator.delivered.base, expecting.real, fresh, ?_, grown⟩,
        fun ended => False.elim ended⟩, next, rfl, fun _ => ?_⟩
    · simp only [ProcessIterator.nextUserBatch, ordinal, commitEq, markEq]
    · refine ⟨delivering.valid, inside, ?_, ?_, fun other equal =>
        Option.some.inj equal ▸ nextTracked.linked, fun _ =>
        ⟨next, rfl, nextTracked, trivial⟩⟩
      · have total : loader.batching.samples marked.delivered =
            iterator.position + loader.batching.size iterator.delivered.base := by
          rw [grown, Batching.samples_insert fresh, delivering.position]
        have most : loader.batching.samples marked.delivered ≤ loader.length :=
          Batching.samples_le_length inside
        have low : iterator.delivered.base * loader.sizing.width < loader.length := by
          have real := expecting.real
          rwa [Batching.lt_count_iff] at real
        have size : loader.batching.size iterator.delivered.base =
            min loader.sizing.width
              (loader.length - iterator.delivered.base * loader.sizing.width) := rfl
        have position := expecting.position
        show min loader.length (iterator.position + loader.sizing.width) =
          loader.batching.samples marked.delivered
        omega
      · exact Nat.lt_of_le_of_lt
          (Finset.sum_le_sum_of_subset (ahead_of_mark markEq)) delivering.fitting
    · rw [command_of_collated collated expecting.real]
    · have nearer : next.remaining loader.scheduleLength <
          filled.remaining loader.scheduleLength := by
        have held : ∀ other ∈ [iterator.delivered.base], other ∈ filled.ready := by
          intro other member
          rw [List.mem_singleton] at member
          exact member ▸ popped.held
        refine filledTracked.popped_remaining held (List.cons_ne_nil _ _) (fun other => ?_)
          popped.running popped.finished (fun other => ?_)
        · rw [popped.committed, List.mem_singleton]
        · rw [popped.ready, Finset.mem_erase, List.mem_singleton, and_comm]
      exact Nat.lt_of_lt_of_le nearer lighter

/-- While less than a batch of samples lies ahead, every pass is good. -/
theorem collated_passes : Passes loader (fun _ _ _ => True)
    (fun state => loader.batching.samples state.ahead < loader.sizing.width)
    (fun _ frontier =>
      frontier.schedule.nextCommit ∈ frontier.ready ∨ frontier.finished ≠ []) where
  pass _ _ _ room delivering early here ordered :=
    delivering.collatedPass collated early here ordered room
  answered _ _ finished := Or.inr finished
  open_ iterator frontier delivering early here stuck := by
    rw [not_or] at stuck
    obtain ⟨_, sameFrontier, tracked, -⟩ := delivering.open_ early
    obtain rfl := Option.some.inj (here.symm.trans sameFrontier)
    obtain ⟨start, linked⟩ := tracked.linked
    have expecting := delivering.expecting collated early tracked
    have inside : frontier.schedule.nextCommit < loader.scheduleLength := by
      have real := expecting.real
      rw [← ProcessLoader.grid_count, Batching.lt_count_iff] at real
      have within : iterator.delivered.base * loader.perBatch < loader.scheduleLength := real
      rwa [perBatch_of_collated collated, Nat.mul_one, ← expecting.head] at within
    exact ⟨frontier.schedule.nextCommit, Nat.le_refl _, linked.nextCommit_lt_stop inside,
      linked.framed.not_delivered_nextCommit, stuck.1⟩

omit collated in
/-- A closed iterator delivers nothing and ends nothing. -/
theorem ProcessIterator.step_of_closed {iterator after : ProcessIterator}
    {label : ProcessIterator.Label} {event : Yield} (closed : iterator.valid = false)
    (stepEq : ProcessIterator.step loader iterator label = some (event, after)) :
    after.valid = false ∧ after.delivered = iterator.delivered ∧
      after.complete = iterator.complete ∧ event.batch = none ∧ ¬ event.Finished := by
  cases label with
  | next order room =>
      simp only [ProcessIterator.step, ProcessIterator.next, closed, Bool.not_false,
        if_true] at stepEq
      cases stepEq
      exact ⟨closed, rfl, rfl, rfl, fun ended => ended⟩
  | fill order room =>
      cases here : iterator.frontier <;>
        simp [ProcessIterator.step, here, closed] at stepEq
  | work dispatch =>
      cases here : iterator.frontier with
      | none => simp [ProcessIterator.step, here] at stepEq
      | some frontier =>
          simp only [ProcessIterator.step, here] at stepEq
          obtain ⟨worked, -, pair⟩ := Option.map_eq_some_iff.mp stepEq
          cases pair
          exact ⟨closed, rfl, rfl, rfl, fun ended => ended⟩
  | adapt width =>
      cases here : iterator.frontier <;>
        simp [ProcessIterator.step, here, closed] at stepEq

/-- The iterator of a resume with a whole batch of samples ahead: it waits, or it has raised
and is closed. -/
def Stuck (loader : ProcessLoader) (iterator : ProcessIterator) : Prop :=
  iterator.valid = false ∨
    Delivering loader (fun _ _ _ => True)
      (fun state => loader.sizing.width ≤ loader.batching.samples state.ahead) iterator

/-- With a whole batch of samples ahead `position // width` names a later batch than the
schedule commits, so no step delivers a batch or ends the epoch. -/
theorem Stuck.step {iterator after : ProcessIterator} {label : ProcessIterator.Label}
    {event : Yield} (stuck : Stuck loader iterator)
    (stepEq : ProcessIterator.step loader iterator label = some (event, after)) :
    Stuck loader after ∧ event.batch = none ∧ ¬ event.Finished := by
  rcases stuck with closed | delivering
  · obtain ⟨stays, -, -, nothing, goesOn⟩ := ProcessIterator.step_of_closed closed stepEq
    exact ⟨Or.inl stays, nothing, goesOn⟩
  · by_cases pass : ∃ order room, label = .next order room
    · obtain ⟨order, room, rfl⟩ := pass
      have missing : ∃ ordinal < loader.batching.count,
          ordinal ∉ iterator.delivered.delivered := by
        have some : iterator.delivered.ahead ≠ ∅ := by
          intro none
          have wide := delivering.fitting
          have positive := loader.width_pos
          rw [none, Batching.samples, Finset.sum_empty] at wide
          omega
        obtain ⟨ordinal, member⟩ := Finset.nonempty_iff_ne_empty.mpr some
        have below := delivering.inside ordinal
          (DeliveredBatchState.mem_delivered.mpr (Or.inr member))
        have above := iterator.delivered.beyond ordinal member
        exact ⟨iterator.delivered.base, Nat.lt_trans above below,
          DeliveredBatchState.base_notMem⟩
      have early : iterator.position < loader.length := by
        obtain ⟨ordinal, real, absent⟩ := missing
        rw [delivering.position]
        have most : loader.batching.samples iterator.delivered.delivered ≤ loader.length :=
          Batching.samples_le_length delivering.inside
        refine Nat.lt_of_le_of_ne most fun all => absent ?_
        have whole := (Batching.samples_eq_length_iff delivering.inside).mp all
        rw [whole]
        exact Finset.mem_range.mpr real
      obtain ⟨frontier, here, tracked, -⟩ := delivering.open_ early
      obtain ⟨filled, fillEq, filledTracked, same⟩ := tracked.filled order room
      by_cases ordered : order.Perm frontier.schedule.dispatchCandidates
      · simp only [ProcessIterator.step, ProcessIterator.next, delivering.valid,
          Bool.not_true, Bool.false_eq_true, if_false, Nat.not_le.mpr early, here,
          if_pos ordered, fillEq, collated, if_true] at stepEq
        have expecting := delivering.expecting collated early filledTracked
        have ordinal : iterator.delivered.base < iterator.position / loader.sizing.width := by
          have wide := delivering.fitting
          have positive := loader.width_pos
          rw [Nat.lt_iff_add_one_le, Nat.le_div_iff_mul_le positive, expecting.position,
            Nat.succ_mul]
          omega
        obtain ⟨start, linked⟩ := filledTracked.linked
        rcases linked.commitNext (iterator.position / loader.sizing.width) with
          ⟨-, commitEq⟩ | ⟨-, -, commitEq⟩ | ⟨named, -⟩
        · obtain ⟨other, state, awaitEq, awaited⟩ :=
            @Tracked.await loader _ _ filledTracked (fun _ _ _ => True) iterator trivial
              (fun _ _ _ _ _ _ => trivial)
          rw [ProcessIterator.nextUserBatch, commitEq] at stepEq
          simp only [awaitEq] at stepEq
          cases stepEq
          obtain ⟨next, nextEq, nextTracked, -, -, -⟩ := awaited.frontier
          refine ⟨Or.inr ⟨awaited.valid.trans delivering.valid, ?_, ?_, ?_,
            fun other equal => Option.some.inj (nextEq.symm.trans equal) ▸ nextTracked.linked,
            fun _ => ⟨next, nextEq, ?_, trivial⟩⟩, ?_, ?_⟩
          · rw [awaited.batches]
            exact delivering.inside
          · rw [awaited.position, awaited.batches, delivering.position]
          · rw [awaited.batches]
            exact delivering.fitting
          · rw [awaited.batches]
            exact nextTracked
          · rcases awaited.silent with rfl | rfl <;> rfl
          · rcases awaited.silent with rfl | rfl <;> exact fun ended => ended
        · rw [ProcessIterator.nextUserBatch, commitEq] at stepEq
          cases stepEq
          exact ⟨Or.inl rfl, rfl, fun ended => ended⟩
        · rw [expecting.head] at named
          omega
      · simp only [ProcessIterator.step, ProcessIterator.next, delivering.valid,
          Bool.not_true, Bool.false_eq_true, if_false, Nat.not_le.mpr early, here,
          if_neg ordered] at stepEq
        cases stepEq
    · obtain ⟨rfl, kept, -⟩ := delivering.backstage stepEq
        fun order room equal => pass ⟨order, room, equal⟩
      exact ⟨Or.inr kept, rfl, fun ended => ended⟩

end Collated

end Hyperloader.Process
