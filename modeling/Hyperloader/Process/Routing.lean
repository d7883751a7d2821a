/-
Module: Hyperloader.Process.Routing
Purpose: Which worker a submission goes to when it is the sample of the construction probe:
  process/pool.py with its round robin, and the map iterators that fill their frontier over
  one pool after another.
Trusted boundary: what happens to a command once it is submitted is in `Pool`; here the rings
  take it, refuse it or raise as they like.
Main exports:
  RoutedPool, RoutedPool.trySubmit, RoutedPool.execute, MapRouting.machine,
  MapRouting.Sound, MapRouting.never_misrouted
-/
import Hyperloader.Distributed.Elastic
import Hyperloader.Distributed.MapPlacement
import Hyperloader.Process.Epochs
import Hyperloader.Schedule.Native

namespace Hyperloader.Process

open Foundations Schedule Schedule.Native
open Distributed

/-! ### The pool -/

/-- What ends a submission or an execution early: the pool's own check of the probe's worker,
or anything else that raises. -/
inductive Refusal where
  | routing
  | failed

/-- How the ring of a worker takes a command. -/
inductive Transport where
  | accepts
  | refuses
  | raises

def Transport.answer : Transport → Except Refusal Bool
  | .accepts => .ok true
  | .refuses => .ok false
  | .raises => .error .failed

/-- The fields of a pool that route its commands.  `executed` counts the commands the pool has
routed itself. -/
structure RoutedPool (Index : Type) where
  workers : Nat
  batchSize : Option Nat
  probePosition : Nat
  probeKey : Nat × Nat × Index
  probeRetained : Bool
  nextWorker : Nat
  executed : Nat

namespace RoutedPool

variable {Index : Type}

/-- A pool right after its probe at a position, with its coordinate and its index. -/
def launch (workers : Nat) (batchSize : Option Nat) (epoch position coordinate : Nat)
    (index : Index) : RoutedPool Index :=
  { workers := workers
    batchSize := batchSize
    probePosition := position
    probeKey := (epoch, coordinate, index)
    probeRetained := true
    nextWorker := 0
    executed := 0 }

section

variable (pool : RoutedPool Index)

/-- `retained_probe_command` -/
def retainedProbeCommand : Option Nat :=
  if pool.probeRetained then
    match pool.batchSize with
    | some size => some (pool.probePosition / size)
    | none => some pool.probePosition
  else none

/-- `self._probe_payload = None` -/
def dropProbe : RoutedPool Index :=
  { pool with probeRetained := false }

/-- `try_submit` -/
def trySubmit [DecidableEq Index] (epoch position : Nat) (index : Index) (worker batchLen : Nat)
    (coordinate : Option Nat) (transport : Transport) :
    Except Refusal Bool × RoutedPool Index :=
  let key := (epoch, coordinate.getD position, index)
  if pool.probeRetained ∧ key = pool.probeKey ∧ batchLen = 0 then
    if worker ≠ 0 then (.error .routing, pool) else (.ok true, pool.dropProbe)
  else if pool.probeRetained ∧ key = pool.probeKey then (transport.answer, pool.dropProbe)
  else (transport.answer, pool)

/-- `try_submit_collated` -/
def trySubmitCollated (transport : Transport) :
    Except Refusal Bool × RoutedPool Index :=
  (transport.answer, pool)

/-- The worker of the next command the pool routes itself, and the one after it. -/
def route : Nat × RoutedPool Index :=
  (pool.nextWorker,
    { pool with
      nextWorker := (pool.nextWorker + 1) % pool.workers
      executed := pool.executed + 1 })

/-- `execute`, which submits until the ring has room and waits for the answer. -/
def execute [DecidableEq Index] (epoch position : Nat) (index : Index) (answers : Bool) :
    Except Refusal Unit × RoutedPool Index :=
  let (worker, routed) := pool.route
  match routed.trySubmit epoch position index worker 0 none .accepts with
  | (.error refusal, after) => (.error refusal, after)
  | (.ok _, after) => (if answers then .ok () else .error .failed, after)

/-- `execute_collated` -/
def executeCollated (answers : Bool) :
    Except Refusal Unit × RoutedPool Index :=
  (if answers then .ok () else .error .failed, pool.route.2)

end

/-- Nothing of a pool changed but that the probe's result may be gone. -/
def Onward (pool after : RoutedPool Index) : Prop := after = pool ∨ after = pool.dropProbe

theorem Onward.trans {pool middle after : RoutedPool Index} (one : pool.Onward middle)
    (two : middle.Onward after) : pool.Onward after := by
  rcases one with rfl | rfl
  · exact two
  · rcases two with rfl | rfl
    · exact .inr rfl
    · exact .inr rfl

variable {pool after : RoutedPool Index}

theorem Onward.key (onward : pool.Onward after) :
    after.probePosition = pool.probePosition ∧ after.probeKey = pool.probeKey ∧
      after.batchSize = pool.batchSize := by
  rcases onward with rfl | rfl <;> exact ⟨rfl, rfl, rfl⟩

theorem Onward.retained (onward : pool.Onward after) (retained : after.probeRetained = true) :
    after = pool := by
  rcases onward with rfl | rfl
  · rfl
  · cases retained

section Submissions

variable [DecidableEq Index] {pool : RoutedPool Index} {epoch position worker batchLen : Nat}
  {index : Index} {coordinate : Option Nat} {transport : Transport}

/-- The pool refuses the probe's worker exactly when it still has the probe's result, the
submission is that of the probe's sample, and it goes elsewhere than to worker 0. -/
theorem trySubmit_routing_iff :
    (pool.trySubmit epoch position index worker batchLen coordinate transport).1 =
        .error .routing ↔
      pool.probeRetained = true ∧ (epoch, coordinate.getD position, index) = pool.probeKey ∧
        batchLen = 0 ∧ worker ≠ 0 := by
  unfold trySubmit
  dsimp only
  split
  · rename_i matched
    split
    · rename_i elsewhere
      exact iff_of_true rfl ⟨matched.1, matched.2.1, matched.2.2, elsewhere⟩
    · rename_i home
      exact iff_of_false nofun fun all => home all.2.2.2
  · rename_i other
    have answered : transport.answer ≠ .error .routing := by cases transport <;> exact nofun
    have elsewhere : ¬ (pool.probeRetained = true ∧
        (epoch, coordinate.getD position, index) = pool.probeKey ∧ batchLen = 0 ∧ worker ≠ 0) :=
      fun all => other ⟨all.1, all.2.1, all.2.2.1⟩
    split
    · exact iff_of_false answered elsewhere
    · exact iff_of_false answered elsewhere

/-- A submission changes nothing but whether the probe's result is retained. -/
theorem trySubmit_frame :
    pool.Onward
      (pool.trySubmit epoch position index worker batchLen coordinate transport).2 := by
  unfold trySubmit
  dsimp only
  split
  · split
    · exact .inl rfl
    · exact .inr rfl
  · split
    · exact .inr rfl
    · exact .inl rfl

/-- The sample of the probe takes its result with it, wherever it is not misrouted. -/
theorem trySubmit_takes (same : (epoch, coordinate.getD position, index) = pool.probeKey)
    (home : worker = 0) :
    (pool.trySubmit epoch position index worker batchLen coordinate transport).2.probeRetained =
      false := by
  unfold trySubmit
  dsimp only
  split
  · rw [if_neg (not_not.mpr home)]
    rfl
  · split
    · rfl
    · rename_i gone
      exact Bool.eq_false_iff.mpr fun retained => gone ⟨retained, same⟩

/-- A submission of another sample leaves the pool alone. -/
theorem trySubmit_other (differs : (epoch, coordinate.getD position, index) ≠ pool.probeKey) :
    (pool.trySubmit epoch position index worker batchLen coordinate transport).2 = pool := by
  unfold trySubmit
  dsimp only
  rw [if_neg fun all => differs all.2.1, if_neg fun all => differs all.2]

end Submissions

end RoutedPool

/-! ### Map iterators -/

/-- What a map loader routes with.  `index` is `_map_index` of an epoch and a position. -/
structure MapRouting (Index : Type) where
  workers : Nat
  loaderBatchSize : Option Nat
  transportBatchSize : Option Nat
  userCollation : Bool
  placement : MapPlacement
  index : Nat → Nat → Index
  sized : ∀ size, transportBatchSize = some size → 0 < size
  wide : 0 < placement.batchSize
  ranked : placement.rank < placement.worldSize

/-- A map iterator: its epoch, the samples of its commands, and its schedule, if it delivers
anything. -/
structure MapIterator where
  epoch : Nat
  complete : Bool
  batchSize : Option Nat
  schedule : Option StaticSchedule

/-- A map loader between two calls, with the iterator it still refers to. -/
structure MapLoader (Index : Type) where
  epochs : EpochState
  cursor : Nat
  iterator : Option MapIterator
  pool : Option (RoutedPool Index)

namespace MapRouting

/-- What can happen to a map loader.  A new iterator finds commands of the last one pending or
not, and its new pool, if it makes one, a batch layout in the probe's result or not; `fill`
comes with the dispatch order by cost and how the rings take its commands. -/
inductive Label where
  | setEpoch (epoch : Nat)
  | loadStateDict (epoch cursor : Nat)
  | close
  | drop
  | iterate (pending layout : Bool) (depth width : Nat) (restored : List Nat)
  | fill (order : List Nat) (transports : Nat → Transport)
  | schedule (call : Schedule.Call)
  | deliver
  | finish

/-- What a step shows. -/
inductive Event where
  | quiet
  | raised
  | misrouted

variable {Index : Type} (routing : MapRouting Index)

/-- `delivery_length` -/
def length : Nat := routing.placement.length

/-- A new pool, probed at position 0; it batches where the probe's result has a layout. -/
def launch (epoch : Nat) (layout : Bool) : RoutedPool Index :=
  .launch routing.workers (if layout then routing.transportBatchSize else none) epoch 0
    (routing.placement.locate 0) (routing.index epoch 0)

/-- A loader as constructed; the constructor may already spawn its pool. -/
def start (prepared layout : Bool) : MapLoader Index :=
  { epochs := .new
    cursor := 0
    iterator := none
    pool := if prepared ∧ routing.length ≠ 0 then some (routing.launch 0 layout) else none }

/-- `prepare_process_pool` -/
def prepare (pool : Option (RoutedPool Index)) (epoch : Nat) (pending layout : Bool) :
    Option (RoutedPool Index) :=
  match if pending then none else pool with
  | some pool => some pool
  | none => if routing.length = 0 then none else some (routing.launch epoch layout)

/-- `schedule_start` -/
def scheduleStart (batchSize : Option Nat) (resumePosition : Nat) : Nat :=
  match batchSize with
  | some size => resumePosition / size
  | none => resumePosition

/-- `schedule_length` -/
def scheduleLength (batchSize : Option Nat) : Nat :=
  match batchSize with
  | some size => (routing.length + size - 1) / size
  | none => routing.length

/-- `seed_delivered` of one position after the other. -/
def seed : List Nat → StaticSchedule → Option StaticSchedule
  | [], schedule => some schedule
  | position :: positions, schedule =>
      match schedule.seedDelivered position with
      | (.ok (), seeded) => seed positions seeded
      | (.error _, _) => none

/-- The schedule of an iterator that resumes at a position: restored positions are delivered,
and the controller's width is live. -/
def newSchedule (batchSize : Option Nat) (resumePosition depth width : Nat)
    (restored : List Nat) : Option StaticSchedule :=
  match StaticSchedule.new (scheduleStart batchSize resumePosition)
      (routing.scheduleLength batchSize) depth routing.workers with
  | .error _ => none
  | .ok schedule =>
      (seed restored schedule).bind fun seeded =>
        match seeded.setWorkerCount width with
        | (.ok (), routed) => some routed
        | (.error _, _) => none

/-- `DataLoader.__iter__` with `ProcessIterator.__init__`, up to the first fill. -/
def iterate (loader : MapLoader Index) (pending layout : Bool) (depth width : Nat)
    (restored : List Nat) : Event × MapLoader Index :=
  let epochs := loader.epochs.beginIteration.2
  let settled : MapLoader Index :=
    match loader.iterator with
    | some iterator =>
        if iterator.complete then { loader with epochs := epochs }
        else { loader with epochs := epochs, iterator := none, pool := none }
    | none => { loader with epochs := epochs }
  match resumeSamplePosition settled.cursor (routing.loaderBatchSize.getD 1) routing.length with
  | .error _ => (.raised, settled)
  | .ok resumePosition =>
      if routing.length = 0 then
        (.quiet, { settled with
          cursor := 0, iterator := some ⟨epochs.current, false, none, none⟩ })
      else
        let pool := routing.prepare settled.pool epochs.current pending layout
        let batchSize :=
          if routing.userCollation then routing.loaderBatchSize else pool.bind (·.batchSize)
        match routing.newSchedule batchSize resumePosition depth width restored with
        | none => (.raised, { settled with pool := pool })
        | some schedule =>
            (.quiet,
              { epochs := epochs
                cursor := 0
                iterator := some ⟨epochs.current, false, batchSize, some schedule⟩
                pool := pool })

/-- The order of `_fill_frontier`, with the probe's command first. -/
def order (pool : RoutedPool Index) (candidates : List Nat) : List Nat :=
  match pool.retainedProbeCommand with
  | some probe =>
      if !routing.userCollation ∧ probe ∈ candidates then probe :: candidates.erase probe
      else candidates
  | none => candidates

variable [DecidableEq Index]

/-- The submission of a dispatch in `_fill_frontier`. -/
def submit (iterator : MapIterator) (pool : RoutedPool Index) (dispatch : Dispatch)
    (transport : Transport) : Except Refusal Bool × RoutedPool Index :=
  if routing.userCollation then pool.trySubmitCollated transport
  else
    let samplePosition :=
      match iterator.batchSize with
      | some size => dispatch.position * size
      | none => dispatch.position
    let batchLen :=
      match iterator.batchSize with
      | some size => min size (routing.length - samplePosition)
      | none => 0
    pool.trySubmit iterator.epoch dispatch.position (routing.index iterator.epoch samplePosition)
      dispatch.worker batchLen (some (routing.placement.locate samplePosition)) transport

/-- The loop of `_fill_frontier`. -/
def fillOrder (iterator : MapIterator) (transports : Nat → Transport) :
    List Nat → StaticSchedule → RoutedPool Index →
      Except Refusal Unit × StaticSchedule × RoutedPool Index
  | [], schedule, pool => (.ok (), schedule, pool)
  | selected :: order, schedule, pool =>
      match schedule.dispatchAt selected with
      | none => fillOrder iterator transports order schedule pool
      | some dispatch =>
          match routing.submit iterator pool dispatch (transports dispatch.position) with
          | (.error refusal, pool) => (.error refusal, schedule, pool)
          | (.ok false, pool) => (.ok (), schedule, pool)
          | (.ok true, pool) =>
              match schedule.markDispatched dispatch with
              | some (.ok (), marked) => fillOrder iterator transports order marked pool
              | _ => (.error .failed, schedule, pool)

/-- `_fill_frontier` of the iterator that is not complete. -/
def fill (loader : MapLoader Index) (candidates : List Nat) (transports : Nat → Transport) :
    Option (Event × MapLoader Index) :=
  match loader.iterator, loader.pool with
  | some iterator, some pool =>
      match iterator.schedule with
      | some schedule =>
          if iterator.complete ∨ ¬ candidates.Perm schedule.dispatchCandidates then none
          else
            let (outcome, schedule, pool) := routing.fillOrder iterator transports
              (routing.order pool candidates) schedule pool
            let after : MapLoader Index :=
              { loader with
                iterator := some { iterator with schedule := some schedule }
                pool := some pool }
            match outcome with
            | .ok () => some (.quiet, after)
            | .error .failed => some (.raised, after)
            | .error .routing => some (.misrouted, after)
      | none => none
  | _, _ => none

/-- The calls an iterator makes of its schedule between two fills. -/
def between : Schedule.Call → Bool
  | .markCompleted _ | .tryCommit | .tryCommitReady _ | .setDepth _ | .setWorkerCount _ => true
  | _ => false

def step (loader : MapLoader Index) : Label → Option (Event × MapLoader Index)
  | .setEpoch epoch =>
      some (.quiet, { loader with epochs := loader.epochs.setEpoch epoch, cursor := 0 })
  | .loadStateDict epoch cursor =>
      some (.quiet,
        { epochs := loader.epochs.restore epoch, cursor := cursor, iterator := none, pool := none })
  | .close => some (.quiet, { loader with iterator := none, pool := none })
  | .drop => some (.quiet, { loader with iterator := none })
  | .iterate pending layout depth width restored =>
      some (routing.iterate loader pending layout depth width restored)
  | .fill candidates transports => routing.fill loader candidates transports
  | .schedule call =>
      match loader.iterator with
      | some iterator =>
          match iterator.schedule with
          | some schedule =>
              if between call then
                (Native.call schedule call).map fun answer =>
                  (.quiet, { loader with
                    iterator := some { iterator with schedule := some answer.2 } })
              else none
          | none => none
      | none => none
  | .deliver =>
      match loader.iterator with
      | some iterator =>
          some (.quiet, { loader with epochs := loader.epochs.markDelivered iterator.epoch })
      | none => none
  | .finish =>
      match loader.iterator with
      | some iterator =>
          some (.quiet,
            { loader with
              epochs := loader.epochs.complete iterator.epoch
              iterator := some { iterator with complete := true } })
      | none => none

/-- A map loader with one pool after another. -/
def machine : Machine (MapLoader Index) Label Event where
  step loader label := routing.step loader label

end MapRouting

/-! ### Coordinates of a placement -/

variable {position : Nat}

/-- No other position of a rank has the coordinate of its first. -/
theorem locate_ne_first {placement : MapPlacement} (wide : 0 < placement.batchSize)
    (ranked : placement.rank < placement.worldSize) (later : position ≠ 0) :
    placement.locate position ≠ placement.locate 0 := by
  have world : placement.batchSize ≤ placement.globalBatch :=
    Nat.le_mul_of_pos_right _ (Nat.lt_of_le_of_lt (Nat.zero_le _) ranked)
  have own : placement.rank * placement.batchSize + placement.batchSize ≤
      placement.globalBatch := by
    rw [← Nat.succ_mul, MapPlacement.globalBatch, Nat.mul_comm placement.batchSize]
    exact Nat.mul_le_mul_right _ ranked
  have parts := Nat.div_add_mod position placement.batchSize
  have spread : position / placement.batchSize * placement.batchSize ≤
      position / placement.batchSize * placement.globalBatch := Nat.mul_le_mul_left _ world
  have regular : position / placement.batchSize * placement.globalBatch +
      placement.rank * placement.batchSize + position % placement.batchSize ≠
      placement.rank * placement.batchSize := by
    rw [Nat.mul_comm] at parts
    omega
  unfold MapPlacement.locate
  cases enabled : placement.enabled with
  | false => exact later
  | true =>
      simp only [Bool.not_true, Bool.false_eq_true, if_false, Nat.zero_div, Nat.zero_mod,
        Nat.zero_mul, Nat.zero_add, Nat.add_zero]
      generalize placement.rank * (placement.datasetLength % placement.globalBatch) /
        placement.worldSize = tailStart
      generalize placement.datasetLength / placement.globalBatch = blocks
      by_cases none : blocks = 0
      · subst none
        simp only [Nat.zero_mul, Nat.not_lt_zero, if_false, Nat.zero_add, Nat.sub_zero]
        split
        · omega
        · exact regular
      · have some : 0 < blocks * placement.batchSize :=
          Nat.mul_pos (Nat.pos_of_ne_zero none) wide
        have past : placement.globalBatch ≤ blocks * placement.globalBatch :=
          Nat.le_mul_of_pos_left _ (Nat.pos_of_ne_zero none)
        rw [if_pos some]
        split
        · exact regular
        · split
          · omega
          · exact regular

/-! ### The probe's command comes first -/

/-- Nothing was dispatched yet, and the first position was not delivered. -/
structure Fresh (schedule : StaticSchedule) : Prop where
  ordinal : schedule.dispatchOrdinal = 0
  positions : schedule.positions = ∅
  delivered : 0 ∉ schedule.delivered

section Schedules

variable {schedule next : StaticSchedule}

theorem Fresh.setWorkerCount (fresh : Fresh schedule) (width : Nat) :
    Fresh (schedule.setWorkerCount width).2 := by
  unfold StaticSchedule.setWorkerCount
  split
  · exact fresh
  · refine ⟨?_, fresh.positions, fresh.delivered⟩
    change schedule.dispatchOrdinal % width = 0
    rw [fresh.ordinal, Nat.zero_mod]

theorem Fresh.seedDelivered (fresh : Fresh schedule) (position : Nat) :
    Fresh (schedule.seedDelivered position).2 := by
  unfold StaticSchedule.seedDelivered
  split
  · exact fresh
  · rename_i open'
    split
    · exact fresh
    · have seeded : Fresh { schedule with delivered := insert position schedule.delivered } := by
        refine ⟨fresh.ordinal, fresh.positions, ?_⟩
        rw [Finset.mem_insert]
        rintro (same | before)
        · omega
        · exact fresh.delivered before
      dsimp only
      split <;> exact seeded

theorem drainDelivered_le {passes first last : Nat} {delivered rest : Finset Nat}
    (drained : StaticSchedule.drainDelivered passes first delivered = some (last, rest)) :
    first ≤ last := by
  induction passes generalizing first delivered with
  | zero =>
      cases drained
      exact Nat.le_refl _
  | succ passes ih =>
      unfold StaticSchedule.drainDelivered at drained
      split at drained
      · obtain ⟨after, added, later⟩ := Option.bind_eq_some_iff.mp drained
        unfold checkedAdd at added
        split at added
        · cases added
          exact Nat.le_of_succ_le (ih later)
        · cases added
      · cases drained
        exact Nat.le_refl _

/-- A commit never moves the frontier back, and does nothing where nothing was dispatched. -/
theorem tryCommitReady_onward {committed : Option Nat}
    (called : schedule.tryCommitReady position = some (committed, next)) :
    next.endPosition = schedule.endPosition ∧ schedule.nextCommit ≤ next.nextCommit ∧
      (Fresh schedule → Fresh next) := by
  unfold StaticSchedule.tryCommitReady at called
  split at called
  · rename_i worker found
    have stale : ¬ Fresh schedule := by
      intro fresh
      rw [fresh.positions, Finmap.lookup_empty] at found
      cases found
    dsimp only at called
    split at called
    · obtain ⟨first, added, called⟩ := Option.bind_eq_some_iff.mp called
      obtain ⟨⟨last, rest⟩, drained, called⟩ := Option.bind_eq_some_iff.mp called
      cases called
      unfold checkedAdd at added
      split at added
      · cases added
        exact ⟨rfl, Nat.le_of_succ_le (drainDelivered_le drained), fun fresh => absurd fresh stale⟩
      · cases added
    · cases called
      exact ⟨rfl, Nat.le_refl _, fun fresh => absurd fresh stale⟩
  · cases called
    exact ⟨rfl, Nat.le_refl _, id⟩

/-- What an iterator does to its schedule between two fills. -/
theorem between_onward {call : Schedule.Call} {reply : Reply}
    (between : MapRouting.between call = true)
    (called : Native.call schedule call = some (reply, next)) :
    next.endPosition = schedule.endPosition ∧ schedule.nextCommit ≤ next.nextCommit ∧
      (Fresh schedule → Fresh next) := by
  cases call with
  | markCompleted dispatch =>
      cases called
      unfold StaticSchedule.markCompleted
      split
      · exact ⟨rfl, Nat.le_refl _, id⟩
      · rename_i worker found
        split
        · refine ⟨rfl, Nat.le_refl _, fun fresh => ?_⟩
          rw [fresh.positions, Finmap.lookup_empty] at found
          cases found
        · exact ⟨rfl, Nat.le_refl _, id⟩
      · exact ⟨rfl, Nat.le_refl _, id⟩
  | tryCommit | tryCommitReady position =>
      obtain ⟨⟨committed, after⟩, commit, same⟩ := Option.map_eq_some_iff.mp called
      cases same
      exact tryCommitReady_onward commit
  | setDepth depth =>
      cases called
      have kept : ∀ depth, Fresh schedule → Fresh { schedule with depth := depth } :=
        fun _ fresh => ⟨fresh.ordinal, fresh.positions, fresh.delivered⟩
      unfold StaticSchedule.setDepth
      split
      · exact ⟨rfl, Nat.le_refl _, id⟩
      · split
        · exact ⟨rfl, Nat.le_refl _, id⟩
        · split
          · exact ⟨rfl, Nat.le_refl _, id⟩
          · exact ⟨rfl, Nat.le_refl _, kept depth⟩
  | setWorkerCount width =>
      cases called
      refine ⟨?_, ?_, fun fresh => fresh.setWorkerCount width⟩
      · unfold StaticSchedule.setWorkerCount
        split <;> rfl
      · unfold StaticSchedule.setWorkerCount
        split <;> exact Nat.le_refl _
  | _ => cases between

/-- A fresh schedule that has not passed the first position offers it, unless it has room for
nothing, and sends it to worker 0. -/
theorem Fresh.first (fresh : Fresh schedule) (start : schedule.nextCommit = 0) :
    schedule.dispatchCandidates = [] ∨
      (0 ∈ schedule.dispatchCandidates ∧ schedule.dispatchAt 0 = some ⟨0, 0⟩) := by
  have unplaced : 0 ∉ schedule.positions := by
    rw [fresh.positions]
    exact Finmap.notMem_empty
  by_cases room : 0 < schedule.stop
  · right
    refine ⟨?_, ?_⟩
    · unfold StaticSchedule.dispatchCandidates
      rw [List.mem_filter, List.mem_range'_1, start]
      refine ⟨⟨Nat.le_refl _, by omega⟩, ?_⟩
      rw [decide_eq_true unplaced, decide_eq_true fresh.delivered]
      rfl
    · unfold StaticSchedule.dispatchAt
      rw [if_neg, fresh.ordinal, Nat.zero_mod, Nat.zero_mod]
      rintro (before | past | placed | done)
      · omega
      · omega
      · exact unplaced placed
      · exact fresh.delivered done
  · left
    unfold StaticSchedule.dispatchCandidates
    rw [start, Nat.eq_zero_of_not_pos room]
    rfl

end Schedules

/-! ### Map loaders never misroute -/

namespace MapRouting

variable {Index : Type} {routing : MapRouting Index}

/-- The pool was probed at the first position. -/
structure Probed (routing : MapRouting Index) (pool : RoutedPool Index) : Prop where
  position : pool.probePosition = 0
  coordinate : pool.probeKey.2.1 = routing.placement.locate 0
  index : pool.probeKey.2.2 = routing.index pool.probeKey.1 0
  batched : ∀ size, pool.batchSize = some size → 0 < size

/-- A submission of the iterator could be that of the retained probe's sample. -/
def Exposed (routing : MapRouting Index) (iterator : MapIterator) (pool : RoutedPool Index) :
    Prop :=
  pool.probeRetained = true ∧ iterator.epoch = pool.probeKey.1 ∧ iterator.batchSize = none ∧
    routing.userCollation = false

/-- The schedule of an iterator with batches ends with them. -/
def Sized (routing : MapRouting Index) (iterator : MapIterator) (schedule : StaticSchedule) :
    Prop :=
  ∀ size, iterator.batchSize = some size → routing.userCollation = false →
    0 < size ∧ schedule.endPosition = (routing.length + size - 1) / size

/-- While the probe's sample is exposed, its command is either still the first or behind. -/
structure Routes (routing : MapRouting Index) (iterator : MapIterator) (pool : RoutedPool Index)
    (schedule : StaticSchedule) : Prop where
  sized : Sized routing iterator schedule
  apart : Exposed routing iterator pool → Fresh schedule ∨ 0 < schedule.nextCommit

structure Sound (routing : MapRouting Index) (loader : MapLoader Index) : Prop where
  probed : ∀ pool, loader.pool = some pool → Probed routing pool
  routes : ∀ iterator pool schedule, loader.iterator = some iterator → loader.pool = some pool →
    iterator.schedule = some schedule → iterator.complete = false →
    Routes routing iterator pool schedule

theorem probed_launch (routing : MapRouting Index) (epoch : Nat) (layout : Bool) :
    Probed routing (routing.launch epoch layout) := by
  refine ⟨rfl, rfl, rfl, fun size batched => ?_⟩
  cases layout with
  | false => cases batched
  | true => exact routing.sized size batched

theorem Probed.retainedProbeCommand {pool : RoutedPool Index} (probed : Probed routing pool)
    (retained : pool.probeRetained = true) : pool.retainedProbeCommand = some 0 := by
  unfold RoutedPool.retainedProbeCommand
  rw [if_pos retained, probed.position]
  cases pool.batchSize with
  | none => rfl
  | some size => exact congrArg some (Nat.zero_div size)

theorem fresh_new {start stop depth workers : Nat} {schedule : StaticSchedule}
    (created : StaticSchedule.new start stop depth workers = .ok schedule) :
    Fresh schedule ∧ schedule.endPosition = stop := by
  unfold StaticSchedule.new at created
  split at created
  · cases created
  split at created
  · cases created
  split at created
  · cases created
  split at created
  · cases created
  cases created
  exact ⟨⟨rfl, rfl, Finset.notMem_empty 0⟩, rfl⟩

variable {restored : List Nat}

theorem fresh_seed {schedule seeded : StaticSchedule} (fresh : Fresh schedule)
    (seeding : seed restored schedule = some seeded) :
    Fresh seeded ∧ seeded.endPosition = schedule.endPosition := by
  induction restored generalizing schedule with
  | nil =>
      cases seeding
      exact ⟨fresh, rfl⟩
  | cons position restored ih =>
      have next := fresh.seedDelivered position
      have same : (schedule.seedDelivered position).2.endPosition = schedule.endPosition := by
        unfold StaticSchedule.seedDelivered
        split
        · rfl
        · split
          · rfl
          · dsimp only
            split <;> rfl
      unfold seed at seeding
      split at seeding
      · rename_i after seededHere
        rw [seededHere] at next same
        obtain ⟨later, stop⟩ := ih next seeding
        exact ⟨later, stop.trans same⟩
      · cases seeding

theorem Probed.onward {pool after : RoutedPool Index} (probed : Probed routing pool)
    (onward : pool.Onward after) : Probed routing after := by
  obtain ⟨position, key, batchSize⟩ := onward.key
  exact ⟨position.trans probed.position, key ▸ probed.coordinate, key ▸ probed.index,
    fun size batched => probed.batched size (batchSize ▸ batched)⟩

/-- A new schedule is fresh. -/
theorem fresh_newSchedule {batchSize : Option Nat} {resumePosition depth width : Nat}
    {schedule : StaticSchedule}
    (made : routing.newSchedule batchSize resumePosition depth width restored = some schedule) :
    Fresh schedule ∧ schedule.endPosition = routing.scheduleLength batchSize := by
  unfold newSchedule at made
  split at made
  · cases made
  · rename_i first created
    obtain ⟨fresh, stop⟩ := fresh_new created
    obtain ⟨seeded, seeding, made⟩ := Option.bind_eq_some_iff.mp made
    obtain ⟨freshSeeded, same⟩ := fresh_seed fresh seeding
    have live := freshSeeded.setWorkerCount width
    have kept : (seeded.setWorkerCount width).2.endPosition = seeded.endPosition := by
      unfold StaticSchedule.setWorkerCount
      split <;> rfl
    split at made
    · rename_i routed widened
      cases made
      rw [widened] at live kept
      exact ⟨live, kept.trans (same.trans stop)⟩
    · cases made

/-! ### One fill -/

section Fills

variable [DecidableEq Index] {iterator : MapIterator} {pool : RoutedPool Index}
  {schedule : StaticSchedule}

/-- A dispatch whose submission is not that of the exposed probe's sample. -/
def Harmless (routing : MapRouting Index) (iterator : MapIterator) (pool : RoutedPool Index)
    (position : Nat) : Prop :=
  Exposed routing iterator pool → position ≠ 0

variable {dispatch : Dispatch}

theorem dispatchAt_inside (found : schedule.dispatchAt position = some dispatch) :
    dispatch.position = position ∧ position < schedule.endPosition := by
  unfold StaticSchedule.dispatchAt at found
  split at found
  · cases found
  · rename_i open'
    cases found
    have stop : schedule.stop ≤ schedule.endPosition := Nat.min_le_right _ _
    refine ⟨rfl, ?_⟩
    omega

omit [DecidableEq Index] in
/-- Inside the schedule of an iterator with batches no batch is empty. -/
theorem batch_pos {size position : Nat} (positive : 0 < size)
    (inside : position < (routing.length + size - 1) / size) :
    min size (routing.length - position * size) ≠ 0 := by
  rw [Nat.lt_div_iff_mul_lt positive] at inside
  omega

/-- A harmless submission passes the pool's check. -/
theorem submit_harmless (probed : Probed routing pool) (sized : Sized routing iterator schedule)
    (found : schedule.dispatchAt position = some dispatch)
    (harmless : Harmless routing iterator pool position) (transport : Transport) :
    (routing.submit iterator pool dispatch transport).1 ≠ .error .routing := by
  obtain ⟨rfl, inside⟩ := dispatchAt_inside found
  unfold submit
  split
  · cases transport <;> exact nofun
  · rename_i samples
    rw [ne_eq, RoutedPool.trySubmit_routing_iff]
    rintro ⟨retained, key, single, -⟩
    cases batched : iterator.batchSize with
    | some size =>
        rw [batched] at single
        obtain ⟨positive, stop⟩ := sized size batched (Bool.eq_false_iff.mpr samples)
        rw [stop] at inside
        exact batch_pos positive inside single
    | none =>
        rw [batched] at key
        have epoch := congrArg Prod.fst key
        have coordinate : routing.placement.locate dispatch.position =
            routing.placement.locate 0 :=
          (congrArg (fun key => key.2.1) key).trans probed.coordinate
        refine locate_ne_first routing.wide routing.ranked ?_ coordinate
        exact harmless ⟨retained, epoch, batched, Bool.eq_false_iff.mpr samples⟩

/-- A submission changes nothing of the pool but whether the probe's result is retained. -/
theorem submit_frame (dispatch : Dispatch) (transport : Transport) :
    pool.Onward (routing.submit iterator pool dispatch transport).2 := by
  unfold submit
  split
  · exact .inl rfl
  · exact RoutedPool.trySubmit_frame

theorem markDispatched_frame {next : StaticSchedule}
    (marked : schedule.markDispatched dispatch = some (.ok (), next)) :
    next.endPosition = schedule.endPosition ∧ next.nextCommit = schedule.nextCommit := by
  unfold StaticSchedule.markDispatched at marked
  split at marked
  · cases marked
  · obtain ⟨_, _, same⟩ := Option.bind_eq_some_iff.mp marked
    cases same
    exact ⟨rfl, rfl⟩

/-- A fill that the pool's check does not refuse, and that leaves the commit point where it was
and the pool onward from another. -/
def Passes (routing : MapRouting Index) (iterator : MapIterator) (transports : Nat → Transport)
    (before : RoutedPool Index) (order : List Nat) (schedule : StaticSchedule)
    (pool : RoutedPool Index) : Prop :=
  ∃ outcome filled after,
    routing.fillOrder iterator transports order schedule pool = (outcome, filled, after) ∧
      outcome ≠ .error .routing ∧ before.Onward after ∧
      filled.endPosition = schedule.endPosition ∧ filled.nextCommit = schedule.nextCommit

/-- The first dispatch of a fill and the fill behind it. -/
theorem passes_cons {transports : Nat → Transport} {before : RoutedPool Index} {selected : Nat}
    {order : List Nat} (found : schedule.dispatchAt selected = some dispatch)
    (first : (routing.submit iterator pool dispatch (transports dispatch.position)).1 ≠
      .error .routing) (onward : before.Onward
      (routing.submit iterator pool dispatch (transports dispatch.position)).2)
    (rest : ∀ marked, schedule.markDispatched dispatch = some (.ok (), marked) →
      Passes routing iterator transports before order marked
        (routing.submit iterator pool dispatch (transports dispatch.position)).2) :
    Passes routing iterator transports before (selected :: order) schedule pool := by
  unfold Passes fillOrder
  rw [found]
  dsimp only
  cases answer : routing.submit iterator pool dispatch (transports dispatch.position) with
  | mk outcome after =>
      rw [answer] at first onward rest
      cases outcome with
      | error refusal =>
          refine ⟨_, _, _, rfl, fun same => ?_, onward, rfl, rfl⟩
          cases same
          exact first rfl
      | ok accepted =>
          cases accepted with
          | false => exact ⟨_, _, _, rfl, nofun, onward, rfl, rfl⟩
          | true =>
              dsimp only
              split
              · rename_i marked dispatched
                obtain ⟨stop, commit⟩ := markDispatched_frame dispatched
                obtain ⟨last, filled, final, same, fine, kept, sameStop, sameCommit⟩ :=
                  rest marked dispatched
                exact ⟨last, filled, final, same, fine, kept, sameStop.trans stop,
                  sameCommit.trans commit⟩
              · exact ⟨_, _, _, rfl, nofun, onward, rfl, rfl⟩

omit [DecidableEq Index] in
theorem Sized.marked (sized : Sized routing iterator schedule) {marked : StaticSchedule}
    (dispatched : schedule.markDispatched dispatch = some (.ok (), marked)) :
    Sized routing iterator marked := by
  intro size batched samples
  exact ⟨(sized size batched samples).1,
    (markDispatched_frame dispatched).1.trans (sized size batched samples).2⟩

/-- A fill of harmless positions is never refused by the pool's check. -/
theorem passes_harmless (probed : Probed routing pool) (sized : Sized routing iterator schedule)
    (transports : Nat → Transport) {before : RoutedPool Index} (onward : before.Onward pool)
    {order : List Nat} (harmless : ∀ position ∈ order, Harmless routing iterator pool position) :
    Passes routing iterator transports before order schedule pool := by
  induction order generalizing schedule pool with
  | nil => exact ⟨_, _, _, rfl, nofun, onward, rfl, rfl⟩
  | cons selected order ih =>
      have later : ∀ position ∈ order, Harmless routing iterator pool position :=
        fun position member => harmless position (List.mem_cons_of_mem _ member)
      cases found : schedule.dispatchAt selected with
      | none =>
          obtain ⟨outcome, filled, after, same, kept⟩ :=
            ih probed sized onward later
          refine ⟨outcome, filled, after, ?_, kept⟩
          rw [fillOrder, found]
          exact same
      | some dispatch =>
          have frame := @submit_frame _ routing _ iterator pool dispatch
            (transports dispatch.position)
          refine passes_cons found
            (submit_harmless probed sized found (harmless _ List.mem_cons_self) _)
            (onward.trans frame) ?_
          intro marked dispatched
          refine ih (probed.onward frame) (sized.marked dispatched)
            (onward.trans frame) ?_
          intro position member exposed
          have same := frame.retained exposed.1
          rw [same] at exposed
          exact later position member exposed

/-- The sample of the exposed probe goes to worker 0 and takes the probe's result. -/
theorem submit_first (probed : Probed routing pool) (exposed : Exposed routing iterator pool)
    (transport : Transport) :
    (routing.submit iterator pool ⟨0, 0⟩ transport).1 ≠ .error .routing ∧
      (routing.submit iterator pool ⟨0, 0⟩ transport).2 = pool.dropProbe := by
  obtain ⟨retained, epoch, single, samples⟩ := exposed
  have key : (iterator.epoch, (some (routing.placement.locate 0)).getD 0,
      routing.index iterator.epoch 0) = pool.probeKey :=
    Prod.ext epoch (Prod.ext probed.coordinate.symm (epoch ▸ probed.index.symm))
  unfold submit
  rw [samples, if_neg Bool.false_ne_true, single]
  refine ⟨?_, ?_⟩
  · rw [ne_eq, RoutedPool.trySubmit_routing_iff]
    exact fun all => all.2.2.2 rfl
  · rcases @RoutedPool.trySubmit_frame _ _ pool iterator.epoch 0 0 0
      (routing.index iterator.epoch 0) (some (routing.placement.locate 0)) transport with
      same | dropped
    · have gone := @RoutedPool.trySubmit_takes _ _ pool iterator.epoch 0 0 0
        (routing.index iterator.epoch 0) (some (routing.placement.locate 0)) transport key rfl
      rw [same, retained] at gone
      cases gone
    · exact dropped

omit [DecidableEq Index] in
/-- Where the exposed probe's command is a candidate, it is the first dispatch. -/
theorem Routes.first (routes : Routes routing iterator pool schedule) (probed : Probed routing pool)
    (exposed : Exposed routing iterator pool) {candidates : List Nat}
    (all : candidates.Perm schedule.dispatchCandidates) (offered : 0 ∈ candidates) :
    schedule.dispatchAt 0 = some ⟨0, 0⟩ ∧
      routing.order pool candidates = 0 :: candidates.erase 0 := by
  have listed := all.mem_iff.mp offered
  have start : schedule.nextCommit = 0 := by
    unfold StaticSchedule.dispatchCandidates at listed
    rw [List.mem_filter, List.mem_range'_1] at listed
    omega
  refine ⟨?_, ?_⟩
  · rcases routes.apart exposed with fresh | past
    · rcases fresh.first start with none | ⟨-, found⟩
      · rw [none] at listed
        cases listed
      · exact found
    · omega
  · unfold MapRouting.order
    rw [probed.retainedProbeCommand exposed.1]
    dsimp only
    rw [if_pos ⟨by rw [exposed.2.2.2]; rfl, offered⟩]

omit [DecidableEq Index] in
theorem mem_order {candidates : List Nat} (member : position ∈ routing.order pool candidates) :
    position ∈ candidates := by
  unfold MapRouting.order at member
  split at member
  · split at member
    · rename_i probe _ offered
      rcases List.mem_cons.mp member with rfl | rest
      · exact offered.2
      · exact List.mem_of_mem_erase rest
    · exact member
  · exact member

/-- A fill passes the pool's check, and the iterator routes as before. -/
theorem Routes.fill (routes : Routes routing iterator pool schedule)
    (probed : Probed routing pool) {candidates : List Nat}
    (all : candidates.Perm schedule.dispatchCandidates) (transports : Nat → Transport) :
    ∃ outcome filled after,
      routing.fillOrder iterator transports (routing.order pool candidates) schedule pool =
          (outcome, filled, after) ∧
        outcome ≠ .error .routing ∧ pool.Onward after ∧
        Routes routing iterator after filled := by
  have sized : ∀ filled : StaticSchedule, filled.endPosition = schedule.endPosition →
      Sized routing iterator filled := fun filled stop size batched samples =>
    ⟨(routes.sized size batched samples).1, stop.trans (routes.sized size batched samples).2⟩
  by_cases first : Exposed routing iterator pool ∧ 0 ∈ candidates
  · obtain ⟨exposed, offered⟩ := first
    obtain ⟨found, order⟩ := routes.first probed exposed all offered
    obtain ⟨fine, dropped⟩ := submit_first probed exposed (transports 0)
    have passes : Passes routing iterator transports pool.dropProbe
        (routing.order pool candidates) schedule pool := by
      rw [order]
      refine passes_cons found fine (.inl dropped) fun marked dispatched => ?_
      rw [dropped]
      exact passes_harmless (probed.onward (.inr rfl)) (routes.sized.marked dispatched) transports
        (.inl rfl) fun _ _ exposed => nomatch exposed.1
    obtain ⟨outcome, filled, after, same, fine, onward, stop, -⟩ := passes
    refine ⟨outcome, filled, after, same, fine, RoutedPool.Onward.trans (.inr rfl) onward,
      sized filled stop, fun exposed => ?_⟩
    rw [onward.retained exposed.1] at exposed
    exact nomatch exposed.1
  · have harmless : ∀ position ∈ routing.order pool candidates,
        Harmless routing iterator pool position := by
      intro position member exposed same
      exact first ⟨exposed, same ▸ mem_order member⟩
    obtain ⟨outcome, filled, after, same, fine, onward, stop, commit⟩ :=
      passes_harmless probed routes.sized transports (.inl rfl) harmless
    refine ⟨outcome, filled, after, same, fine, onward, sized filled stop, fun exposed => ?_⟩
    have unchanged := onward.retained exposed.1
    rw [unchanged] at exposed
    have absent : 0 ∉ candidates := fun offered => first ⟨exposed, offered⟩
    rcases routes.apart exposed with fresh | past
    · by_cases start : schedule.nextCommit = 0
      · rcases fresh.first start with none | ⟨offered, -⟩
        · have nothing : candidates = [] := List.perm_nil.mp (none ▸ all)
          have still : routing.order pool candidates = [] :=
            List.eq_nil_iff_forall_not_mem.mpr fun position member => by
              have there := mem_order member
              rw [nothing] at there
              cases there
          rw [still] at same
          cases same
          exact .inl fresh
        · exact absurd (all.mem_iff.mpr offered) absent
      · exact .inr (commit ▸ Nat.pos_of_ne_zero start)
    · exact .inr (commit ▸ past)

end Fills

/-! ### Runs of a map loader -/

section Runs

variable {loader after : MapLoader Index}

theorem sound_start (routing : MapRouting Index) (prepared layout : Bool) :
    Sound routing (routing.start prepared layout) := by
  refine ⟨fun pool made => ?_, fun _ _ _ none => nomatch none⟩
  unfold start at made
  dsimp only at made
  split at made
  · cases made
    exact probed_launch routing 0 layout
  · cases made

/-- Without a running iterator only the probe of the pool matters. -/
theorem Sound.idle (probed : ∀ pool, loader.pool = some pool → Probed routing pool)
    (spent : ∀ iterator, loader.iterator = some iterator → iterator.complete = true) :
    Sound routing loader := by
  refine ⟨probed, fun iterator _ _ same _ _ running => ?_⟩
  exact nomatch (spent iterator same).symm.trans running

theorem probed_prepare {pool after : Option (RoutedPool Index)} {epoch : Nat}
    {pending layout : Bool} (probed : ∀ found, pool = some found → Probed routing found)
    (prepared : routing.prepare pool epoch pending layout = after) :
    ∀ found, after = some found → Probed routing found := by
  subst prepared
  intro found same
  unfold prepare at same
  split at same
  · rename_i kept old
    cases same
    split at old
    · cases old
    · exact probed found old
  · split at same
    · cases same
    · cases same
      exact probed_launch routing epoch layout

/-- A new iterator routes over the pool it finds. -/
theorem Sound.iterate {pending layout : Bool} {depth width : Nat} {event : Event}
    (sound : Sound routing loader)
    (called : routing.iterate loader pending layout depth width restored = (event, after)) :
    event ≠ .misrouted ∧ Sound routing after := by
  unfold MapRouting.iterate at called
  dsimp only at called
  generalize settling : (match loader.iterator with
    | some iterator =>
        if iterator.complete = true then
          { loader with epochs := loader.epochs.beginIteration.2 }
        else
          { loader with
            epochs := loader.epochs.beginIteration.2, iterator := none, pool := none }
    | none => { loader with epochs := loader.epochs.beginIteration.2 }) = settled at called
  have idle : (∀ pool, settled.pool = some pool → Probed routing pool) ∧
      ∀ iterator, settled.iterator = some iterator → iterator.complete = true := by
    subst settling
    split
    · rename_i iterator current
      split
      · rename_i complete
        refine ⟨sound.probed, fun other same => ?_⟩
        cases current.symm.trans same
        exact complete
      · exact ⟨(fun _ none => nomatch none), fun _ none => nomatch none⟩
    · rename_i none
      exact ⟨sound.probed, fun other same => nomatch none.symm.trans same⟩
  split at called
  · cases called
    exact ⟨nofun, .idle idle.1 idle.2⟩
  · split at called
    · cases called
      refine ⟨nofun, idle.1, fun iterator pool schedule same _ scheduled _ => ?_⟩
      cases same
      cases scheduled
    · generalize preparing : routing.prepare settled.pool
        loader.epochs.beginIteration.2.current pending layout = pool at called
      have probed := probed_prepare idle.1 preparing
      split at called
      · cases called
        exact ⟨nofun, .idle probed idle.2⟩
      · rename_i schedule made
        cases called
        obtain ⟨fresh, stop⟩ := fresh_newSchedule made
        refine ⟨nofun, probed, fun iterator found other same there scheduled _ => ?_⟩
        cases same
        cases scheduled
        refine ⟨fun size batched samples => ?_, fun _ => .inl fresh⟩
        change (if routing.userCollation = true then routing.loaderBatchSize
          else pool.bind (·.batchSize)) = some size at batched
        rw [batched] at stop
        have own : pool = some found := there
        rw [samples, if_neg Bool.false_ne_true, own] at batched
        exact ⟨(probed found own).batched size batched, stop⟩

variable [DecidableEq Index]

/-- No step of a map loader is refused by the pool's check. -/
theorem Sound.step {label : Label} {event : Event} (sound : Sound routing loader)
    (stepEq : routing.machine.step loader label = some (event, after)) :
    event ≠ .misrouted ∧ Sound routing after := by
  change routing.step loader label = some (event, after) at stepEq
  cases label with
  | setEpoch epoch =>
      cases stepEq
      exact ⟨nofun, sound.probed, sound.routes⟩
  | loadStateDict epoch cursor | close =>
      cases stepEq
      exact ⟨nofun, .idle (fun _ none => nomatch none) fun _ none => nomatch none⟩
  | drop =>
      cases stepEq
      exact ⟨nofun, .idle sound.probed fun _ none => nomatch none⟩
  | iterate pending layout depth width restored => exact sound.iterate (Option.some.inj stepEq)
  | fill candidates transports =>
      unfold MapRouting.step fill at stepEq
      dsimp only at stepEq
      split at stepEq
      · rename_i iterator pool current found
        split at stepEq
        · rename_i schedule scheduled
          split at stepEq
          · cases stepEq
          · rename_i allowed
            rw [not_or, not_not] at allowed
            have routes := sound.routes iterator pool schedule current found scheduled
              (Bool.eq_false_iff.mpr allowed.1)
            obtain ⟨outcome, filled, later, same, fine, onward, kept⟩ :=
              routes.fill (sound.probed pool found) allowed.2 transports
            rw [same] at stepEq
            have next : Sound routing
                { loader with
                  iterator := some { iterator with schedule := some filled }
                  pool := some later } := by
              refine ⟨fun other same => ?_, fun other place there one two three _ => ?_⟩
              · cases same
                exact (sound.probed pool found).onward onward
              · cases one
                cases two
                cases three
                exact ⟨kept.sized, kept.apart⟩
            cases outcome with
            | ok _ =>
                cases stepEq
                exact ⟨nofun, next⟩
            | error refusal =>
                cases refusal with
                | routing => exact absurd rfl fine
                | failed =>
                    cases stepEq
                    exact ⟨nofun, next⟩
        · cases stepEq
      · cases stepEq
  | schedule call =>
      unfold MapRouting.step at stepEq
      dsimp only at stepEq
      split at stepEq
      · rename_i iterator current
        split at stepEq
        · rename_i schedule scheduled
          split at stepEq
          · rename_i allowed
            obtain ⟨⟨reply, next⟩, called, same⟩ := Option.map_eq_some_iff.mp stepEq
            cases same
            obtain ⟨stop, commit, fresh⟩ := between_onward allowed called
            refine ⟨nofun, sound.probed, fun other pool there one two three running => ?_⟩
            cases one
            cases three
            have routes := sound.routes iterator pool schedule current two scheduled running
            refine ⟨fun size batched samples => ?_, fun exposed => ?_⟩
            · exact ⟨(routes.sized size batched samples).1,
                stop.trans (routes.sized size batched samples).2⟩
            · rcases routes.apart exposed with first | past
              · exact .inl (fresh first)
              · exact .inr (Nat.lt_of_lt_of_le past commit)
          · cases stepEq
        · cases stepEq
      · cases stepEq
  | deliver =>
      unfold MapRouting.step at stepEq
      dsimp only at stepEq
      split at stepEq <;> cases stepEq
      exact ⟨nofun, sound.probed, sound.routes⟩
  | finish =>
      unfold MapRouting.step at stepEq
      dsimp only at stepEq
      split at stepEq <;> cases stepEq
      refine ⟨nofun, .idle sound.probed fun iterator same => ?_⟩
      cases same
      rfl

/-- In every run of a map loader the pool's check passes. -/
theorem never_misrouted {prepared layout : Bool} {labels : List Label}
    {trace : List (Label × Event)}
    (reached : routing.machine.run (routing.start prepared layout) labels =
      some (trace, after)) : ∀ entry ∈ trace, entry.2 ≠ .misrouted := by
  have carried := routing.machine.run_induction
    (motive := fun trace loader => (∀ entry ∈ trace, entry.2 ≠ .misrouted) ∧
      Sound routing loader)
    (fun trace loader label event next holds _ stepEq => by
      obtain ⟨fine, sound⟩ := holds.2.step stepEq
      refine ⟨fun entry member => ?_, sound⟩
      rcases List.mem_append.mp member with old | new
      · exact holds.1 entry old
      · rw [List.mem_singleton.mp new]
        exact fine)
    [] ⟨(fun _ none => nomatch none), sound_start routing prepared layout⟩
    (routing.machine.along_true _ labels) reached
  exact carried.1

end Runs

end MapRouting

end Hyperloader.Process
