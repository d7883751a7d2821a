/-
Module: Hyperloader.Compat.Resume
Purpose: Capture and rebuild of a multi-worker map iterator: the delivered
  cursor, the read-ahead, the generator and the lanes' RNG states a checkpoint
  keeps, what a rebuild makes of them, and when a chain of rebuilds is exact.
Trusted boundary: none
Main exports: Loader, Iterator, captureCheckpoint, iterateNativeMap, Refilled,
  resume_exact
-/
import Mathlib.Data.List.Basic
import Mathlib.Logic.Function.Basic
import Mathlib.Data.Nat.Init
import Hyperloader.Foundations.Transition

namespace Hyperloader.Compat.Resume

open Foundations

/-- A map-style loader: its sampler drawing from the loader's generator, the
draw of a base seed, the RNG state a lane starts with, and one fetch in a lane. -/
structure Loader (Gen Cursor Indices Rng Value : Type) where
  workers : Nat
  prefetchFactor : Option Nat
  indexSampler : Cursor
  next : Cursor → Gen → Option Indices × Cursor × Gen
  drawBaseSeed : Gen → Int × Gen
  initializeLane : Int → Nat → Rng
  fetch : Nat → Indices → Rng → Value × Rng

/-- A fetched batch with the RNG state its lane had before the fetch, and the
sampler's unit it was fetched for. -/
structure TaggedBatch (Indices Rng Value : Type) where
  batch : Nat
  worker : Nat
  seed : Int
  indices : Indices
  value : Value
  state : Rng
deriving DecidableEq

/-- The owner's iterator with its runtime, the loader's generator, and each lane's
RNG state after its admitted tasks.  Lanes answer in order, so the admitted
batches that are not delivered stand in task order. -/
structure Iterator (Gen Cursor Indices Rng Value : Type) where
  generator : Gen
  cursor : Cursor
  startTask : Nat
  nextTask : Nat
  phase : Nat
  samplerExhausted : Bool
  admitted : List (TaggedBatch Indices Rng Value)
  lanes : Nat → Rng
  delivered : Nat
  iteratorGenerator : Gen
  reusedBaseSeed : Bool
  baseSeed : Int
  complete : Bool

/-- `CompatMultiCheckpoint` -/
structure Checkpoint (Gen Rng : Type) where
  samplerPosition : Nat
  deliveredBatches : Nat
  workerCount : Nat
  assignmentPhase : Nat
  reusedBaseSeed : Bool
  baseSeed : Option Int
  iteratorGenerator : Gen
  currentGenerator : Gen
  laneStates : List (Nat × Rng)
  laneSeeds : List (Nat × Int)
deriving DecidableEq

inductive Label where
  | next
  | resume
deriving DecidableEq

inductive Event (Indices Rng Value : Type) where
  | delivered (batch : TaggedBatch Indices Rng Value) (samplerPosition : Nat)
  | stopped (samplerPosition : Nat)
  | resumed (samplerPosition : Nat)
  | failed (message : String)
deriving DecidableEq

variable {Gen Cursor Indices Rng Value : Type}

section Runtime

variable (loader : Loader Gen Cursor Indices Rng Value)

/-- `prefetch_factor or 2` -/
def Loader.prefetch : Nat :=
  match loader.prefetchFactor with
  | none | some 0 => 2
  | some (factor + 1) => factor + 1

def limit : Nat := loader.workers * loader.prefetch

/-- A drawn unit is submitted to the lane of the next task, which fetches it.  The
outstanding tasks are consecutive, so that a lane never has more of them than one
prefetch factor, which its ring holds. -/
def admitTask (iterator : Iterator Gen Cursor Indices Rng Value) (indices : Indices)
    (cursor : Cursor) (generator : Gen) : Iterator Gen Cursor Indices Rng Value :=
  let worker :=
    (iterator.phase + iterator.nextTask - iterator.startTask) % loader.workers
  let state := iterator.lanes worker
  let fetched := loader.fetch worker indices state
  { iterator with
    cursor := cursor
    generator := generator
    nextTask := iterator.nextTask + 1
    admitted := iterator.admitted ++
      [⟨iterator.nextTask, worker, iterator.baseSeed + worker, indices, fetched.1, state⟩]
    lanes := Function.update iterator.lanes worker fetched.2 }

/-- The loop of `_fill`, with the passes its bound leaves. -/
def fillPasses : Nat → Iterator Gen Cursor Indices Rng Value →
    Iterator Gen Cursor Indices Rng Value
  | 0, iterator => iterator
  | passes + 1, iterator =>
      if iterator.samplerExhausted then iterator
      else
        match loader.next iterator.cursor iterator.generator with
        | (none, cursor, generator) =>
            { iterator with
              cursor := cursor, generator := generator, samplerExhausted := true }
        | (some indices, cursor, generator) =>
            fillPasses passes (admitTask loader iterator indices cursor generator)

/-- `_fill` -/
def fill (target : Nat) (iterator : Iterator Gen Cursor Indices Rng Value) :
    Iterator Gen Cursor Indices Rng Value :=
  fillPasses loader (target - iterator.admitted.length) iterator

/-- `__next__` over lanes that answer: fill, deliver the oldest batch, fill. -/
def nextBatch (iterator : Iterator Gen Cursor Indices Rng Value) :
    Event Indices Rng Value × Iterator Gen Cursor Indices Rng Value :=
  let filled := fill loader (limit loader) iterator
  match filled.admitted with
  | [] => (.stopped filled.nextTask, { filled with complete := true })
  | batch :: rest =>
      let refilled := fill loader (limit loader)
        { filled with admitted := rest, delivered := filled.delivered + 1 }
      (.delivered batch refilled.nextTask, refilled)

/-- The sampler and generator after skipped draws, which stop at its end. -/
def skipDraws : Nat → Cursor → Gen → Cursor × Gen
  | 0, cursor, generator => (cursor, generator)
  | draws + 1, cursor, generator =>
      match loader.next cursor generator with
      | (none, cursor, generator) => (cursor, generator)
      | (some _, cursor, generator) => skipDraws draws cursor generator

/-- `CompatLaneRuntime.__init__` in its iterator.  The prefetch argument is
replaced by the loader's prefetch factor before the first fill reads it. -/
def construct (generator iteratorGenerator : Gen) (reusedBaseSeed : Bool)
    (baseSeed : Int) (lanes : Nat → Rng) (skip phase _prefetch : Nat) :
    Iterator Gen Cursor Indices Rng Value :=
  let drawn := skipDraws loader skip loader.indexSampler generator
  fill loader loader.prefetch
    { generator := drawn.2
      cursor := drawn.1
      startTask := skip
      nextTask := skip
      phase := phase
      samplerExhausted := false
      admitted := []
      lanes := lanes
      delivered := skip
      iteratorGenerator := iteratorGenerator
      reusedBaseSeed := reusedBaseSeed
      baseSeed := baseSeed
      complete := false }

/-- `capture_points`: the first undelivered batch admitted to each lane. -/
def capturePoints (iterator : Iterator Gen Cursor Indices Rng Value) :
    List (TaggedBatch Indices Rng Value) :=
  (List.range loader.workers).filterMap fun worker =>
    iterator.admitted.find? fun batch => batch.worker = worker

/-- `capture_checkpoint` -/
def captureCheckpoint (iterator : Iterator Gen Cursor Indices Rng Value) :
    Checkpoint Gen Rng :=
  let points := capturePoints loader iterator
  { samplerPosition := iterator.nextTask
    deliveredBatches := iterator.delivered
    workerCount := loader.workers
    assignmentPhase := iterator.delivered % loader.workers
    reusedBaseSeed := iterator.reusedBaseSeed
    baseSeed := some iterator.baseSeed
    iteratorGenerator := iterator.iteratorGenerator
    currentGenerator := iterator.generator
    laneStates := points.map fun batch => (batch.worker, batch.state)
    laneSeeds := points.map fun batch => (batch.worker, batch.seed) }

/-- The checks of `from_dict` and `restore_state` on the counters. -/
def restoreState (checkpoint : Checkpoint Gen Rng) : Except String (Checkpoint Gen Rng) :=
  if checkpoint.samplerPosition < checkpoint.deliveredBatches then
    .error "compat sampler position precedes delivered cursor"
  else if checkpoint.assignmentPhase ≠
      checkpoint.deliveredBatches % checkpoint.workerCount then
    .error "compat assignment phase does not match delivered cursor"
  else if checkpoint.reusedBaseSeed && checkpoint.baseSeed.isNone then
    .error "compat reused base seed is missing"
  else if checkpoint.workerCount ≠ loader.workers then
    .error "compat checkpoint requires the same num_workers"
  else .ok checkpoint

/-- The base seed of a resumed iterator and the generator after its draw. -/
def resumedSeed (resume : Checkpoint Gen Rng) : Except String (Int × Gen) :=
  if resume.reusedBaseSeed then
    match resume.baseSeed with
    | none => .error "compat checkpoint lost its reused base seed"
    | some seed => .ok (seed, resume.iteratorGenerator)
  else
    let drawn := loader.drawBaseSeed resume.iteratorGenerator
    match resume.baseSeed with
    | none => .ok drawn
    | some seed =>
        if drawn.1 ≠ seed then .error "compat checkpoint base seed does not reproduce"
        else .ok drawn

/-- The RNG state each lane of a resumed pool starts with. -/
def resumedLane (baseSeed : Int) (states : List (Nat × Rng)) (worker : Nat) : Rng :=
  (states.lookup worker).getD (loader.initializeLane baseSeed worker)

/-- The resume branch of `iterate_native_map`. -/
def iterateNativeMap (resume : Checkpoint Gen Rng) :
    Except String (Iterator Gen Cursor Indices Rng Value) := do
  let (baseSeed, generator) ← resumedSeed loader resume
  if resume.laneSeeds.any fun entry => entry.2 ≠ baseSeed + entry.1 then
    .error "compat checkpoint lane seed does not match base seed"
  else
    let built := construct loader generator resume.iteratorGenerator
      resume.reusedBaseSeed baseSeed (resumedLane loader baseSeed resume.laneStates)
      resume.deliveredBatches resume.assignmentPhase
      (resume.samplerPosition - resume.deliveredBatches)
    .ok { built with generator := resume.currentGenerator }

/-- Batches delivered, and captures each followed by a rebuild. -/
def machine : Machine (Iterator Gen Cursor Indices Rng Value) Label
    (Event Indices Rng Value) where
  step iterator label :=
    match label with
    | .next => some (nextBatch loader iterator)
    | .resume =>
        if iterator.complete then none
        else
          match restoreState loader (captureCheckpoint loader iterator) with
          | .error message => some (.failed message, iterator)
          | .ok checkpoint =>
              match iterateNativeMap loader checkpoint with
              | .error message => some (.failed message, iterator)
              | .ok built => some (.resumed built.nextTask, built)

/-- How an iterator begins: the generator captured before it, and the base seed
and lane RNG states of retained workers, if they are retained. -/
structure Session (Gen Rng : Type) where
  iteratorGenerator : Gen
  retained : Option (Int × (Nat → Rng))

namespace Session

variable (session : Session Gen Rng)

def baseSeed : Int :=
  match session.retained with
  | some (seed, _) => seed
  | none => (loader.drawBaseSeed session.iteratorGenerator).1

def seededGenerator : Gen :=
  match session.retained with
  | some _ => session.iteratorGenerator
  | none => (loader.drawBaseSeed session.iteratorGenerator).2

def lanes : Nat → Rng :=
  match session.retained with
  | some (_, states) => states
  | none => loader.initializeLane (session.baseSeed loader)

/-- The first branch of `iterate_native_map`. -/
def initial : Iterator Gen Cursor Indices Rng Value :=
  construct loader (session.seededGenerator loader) session.iteratorGenerator
    session.retained.isSome (session.baseSeed loader) (session.lanes loader) 0 0
    loader.prefetch

end Session

end Runtime

/-! ### The uninterrupted run -/

section Reference

variable (loader : Loader Gen Cursor Indices Rng Value) (session : Session Gen Rng)

/-- The sampler and the generator after some draws. -/
def sourceAfter : Nat → Cursor × Gen
  | 0 => (loader.indexSampler, session.seededGenerator loader)
  | draws + 1 => (loader.next (sourceAfter draws).1 (sourceAfter draws).2).2

def unitAt (task : Nat) : Option Indices :=
  (loader.next (sourceAfter loader session task).1 (sourceAfter loader session task).2).1

/-- A lane's RNG state once its tasks below a task are done. -/
def laneState (worker : Nat) : Nat → Rng
  | 0 => session.lanes loader worker
  | task + 1 =>
      if task % loader.workers = worker then
        match unitAt loader session task with
        | some indices => (loader.fetch worker indices (laneState worker task)).2
        | none => laneState worker task
      else laneState worker task

def batchAt (task : Nat) : Option (TaggedBatch Indices Rng Value) :=
  (unitAt loader session task).map fun indices =>
    let worker := task % loader.workers
    let state := laneState loader session worker task
    ⟨task, worker, session.baseSeed loader + worker, indices,
      (loader.fetch worker indices state).1, state⟩

/-- An iterator at some point of the uninterrupted run, its lanes aside. -/
structure Consistent (iterator : Iterator Gen Cursor Indices Rng Value) : Prop where
  within : iterator.delivered ≤ iterator.nextTask
  started : iterator.startTask ≤ iterator.nextTask
  phase : iterator.phase = iterator.startTask % loader.workers
  seed : iterator.baseSeed = session.baseSeed loader
  reused : iterator.reusedBaseSeed = session.retained.isSome
  origin : iterator.iteratorGenerator = session.iteratorGenerator
  units : ∀ task < iterator.nextTask, unitAt loader session task ≠ none
  ended : iterator.samplerExhausted = true →
    unitAt loader session iterator.nextTask = none
  source : (iterator.cursor, iterator.generator) =
    sourceAfter loader session
      (iterator.nextTask + if iterator.samplerExhausted then 1 else 0)
  window : iterator.admitted.map some =
    (List.range' iterator.delivered (iterator.nextTask - iterator.delivered)).map
      (batchAt loader session)

/-- A lane stands where the uninterrupted run has it. -/
def LaneAt (iterator : Iterator Gen Cursor Indices Rng Value) (worker : Nat) : Prop :=
  iterator.lanes worker = laneState loader session worker iterator.nextTask

end Reference

section Filling

variable {loader : Loader Gen Cursor Indices Rng Value} {session : Session Gen Rng}
  {iterator : Iterator Gen Cursor Indices Rng Value}

/-- The phase of an iterator is that of its first task. -/
structure Placed (loader : Loader Gen Cursor Indices Rng Value)
    (iterator : Iterator Gen Cursor Indices Rng Value) : Prop where
  started : iterator.startTask ≤ iterator.nextTask
  phase : iterator.phase = iterator.startTask % loader.workers

/-- Then a task's lane does not depend on where the iterator started. -/
theorem Placed.owner (placed : Placed loader iterator) :
    (iterator.phase + iterator.nextTask - iterator.startTask) % loader.workers =
      iterator.nextTask % loader.workers := by
  have started := placed.started
  rw [placed.phase, Nat.add_sub_assoc started, Nat.mod_add_mod]
  congr 1
  omega

theorem Consistent.placed (consistent : Consistent loader session iterator) :
    Placed loader iterator :=
  ⟨consistent.started, consistent.phase⟩

theorem Consistent.length (consistent : Consistent loader session iterator) :
    iterator.admitted.length = iterator.nextTask - iterator.delivered := by
  simpa using congrArg List.length consistent.window

/-- A lane's state does not move over tasks of other lanes. -/
theorem laneState_skip {worker first last : Nat} (le : first ≤ last)
    (others : ∀ task, first ≤ task → task < last → task % loader.workers ≠ worker) :
    laneState loader session worker last = laneState loader session worker first := by
  induction last, le using Nat.le_induction with
  | base => rfl
  | succ last low ih =>
      rw [laneState, if_neg (others last low (Nat.lt_succ_self _))]
      exact ih fun task above below =>
        others task above (Nat.lt_succ_of_lt below)

section

variable (consistent : Consistent loader session iterator)

include consistent

/-- Admitting the next unit to a lane that stands right. -/
theorem consistent_admit (running : iterator.samplerExhausted = false)
    (placed : LaneAt loader session iterator (iterator.nextTask % loader.workers))
    {indices : Indices} {cursor : Cursor} {generator : Gen}
    (drawn : loader.next iterator.cursor iterator.generator =
      (some indices, cursor, generator)) :
    Consistent loader session (admitTask loader iterator indices cursor generator) ∧
      ∀ worker, LaneAt loader session iterator worker →
        LaneAt loader session (admitTask loader iterator indices cursor generator) worker := by
  have source := consistent.source
  rw [if_neg (by simp [running])] at source
  simp only [Nat.add_zero] at source
  have here : loader.next (sourceAfter loader session iterator.nextTask).1
      (sourceAfter loader session iterator.nextTask).2 =
        (some indices, cursor, generator) := by
    rw [← source]
    exact drawn
  have unit : unitAt loader session iterator.nextTask = some indices := by
    rw [unitAt, here]
  have within := consistent.within
  have longer : iterator.nextTask + 1 - iterator.delivered =
      (iterator.nextTask - iterator.delivered) + 1 := by omega
  have last : iterator.delivered + (iterator.nextTask - iterator.delivered) =
      iterator.nextTask := by omega
  have owner := consistent.placed.owner
  refine ⟨?_, ?_⟩
  · constructor
    · exact Nat.le_succ_of_le consistent.within
    · exact Nat.le_succ_of_le consistent.started
    · exact consistent.phase
    · exact consistent.seed
    · exact consistent.reused
    · exact consistent.origin
    · intro task below
      rcases Nat.lt_succ_iff_lt_or_eq.mp below with before | same
      · exact consistent.units task before
      · rw [same, unit]
        exact nofun
    · intro spent
      have impossible : iterator.samplerExhausted = true := spent
      rw [running] at impossible
      cases impossible
    · show (cursor, generator) = sourceAfter loader session
        (iterator.nextTask + 1 + if iterator.samplerExhausted then 1 else 0)
      rw [if_neg (by simp [running]), Nat.add_zero, sourceAfter, here]
    · show (iterator.admitted ++ [_]).map some =
        (List.range' iterator.delivered (iterator.nextTask + 1 - iterator.delivered)).map
          (batchAt loader session)
      rw [longer, List.range'_concat, Nat.one_mul, last, List.map_append, List.map_append,
        consistent.window, List.map_singleton, List.map_singleton, batchAt, unit,
        Option.map_some, owner, placed, consistent.seed]
  · intro worker stands
    show Function.update iterator.lanes _ _ worker = laneState loader session worker
      (iterator.nextTask + 1)
    rw [owner, laneState]
    by_cases mine : iterator.nextTask % loader.workers = worker
    · subst mine
      rw [Function.update_self, if_pos rfl, unit, placed]
    · rw [Function.update_of_ne (Ne.symm mine), if_neg mine]
      exact stands

/-- What `_fill` keeps. -/
structure SameRun (before after : Iterator Gen Cursor Indices Rng Value) : Prop where
  delivered : after.delivered = before.delivered
  reused : after.reusedBaseSeed = before.reusedBaseSeed
  complete : after.complete = before.complete

/-- How a filling of `passes` passes ends: it drew a unit in each pass, or it met
the sampler's end. -/
structure FilledBy (loader : Loader Gen Cursor Indices Rng Value) (session : Session Gen Rng)
    (passes : Nat) (before after : Iterator Gen Cursor Indices Rng Value) : Prop where
  consistent : Consistent loader session after
  same : SameRun before after
  lanes : ∀ worker, LaneAt loader session before worker →
    LaneAt loader session after worker
  later : before.nextTask ≤ after.nextTask
  reached : after.samplerExhausted = true ∧ (before.samplerExhausted = false →
        after.nextTask < before.nextTask + passes) ∨
    after.samplerExhausted = false ∧ before.samplerExhausted = false ∧
      after.nextTask = before.nextTask + passes

/-- `_fill` stays on the uninterrupted run if the lanes of the units it draws do. -/
theorem consistent_fillPasses (passes : Nat)
    (placed : ∀ task, iterator.nextTask ≤ task → task < iterator.nextTask + passes →
      (∀ earlier ≤ task, unitAt loader session earlier ≠ none) →
      LaneAt loader session iterator (task % loader.workers)) :
    FilledBy loader session passes iterator (fillPasses loader passes iterator) := by
  induction passes generalizing iterator with
  | zero =>
      refine ⟨consistent, ⟨rfl, rfl, rfl⟩, fun _ stands => stands, Nat.le_refl _, ?_⟩
      cases running : iterator.samplerExhausted with
      | true => exact Or.inl ⟨running, nofun⟩
      | false => exact Or.inr ⟨running, rfl, rfl⟩
  | succ passes ih =>
      rw [fillPasses]
      cases running : iterator.samplerExhausted with
      | true =>
          rw [if_pos rfl]
          exact ⟨consistent, ⟨rfl, rfl, rfl⟩, fun _ stands => stands, Nat.le_refl _,
            Or.inl ⟨running, fun impossible => by
              rw [running] at impossible
              cases impossible⟩⟩
      | false =>
          have source := consistent.source
          rw [if_neg (by simp [running]), Nat.add_zero] at source
          rw [if_neg Bool.false_ne_true]
          have unitEq : unitAt loader session iterator.nextTask =
              (loader.next iterator.cursor iterator.generator).1 := by
            rw [unitAt, ← source]
          rcases drawn : loader.next iterator.cursor iterator.generator with
            ⟨unit, cursor, generator⟩
          rw [drawn] at unitEq
          cases unit with
          | none =>
              refine ⟨?_, ⟨rfl, rfl, rfl⟩, fun _ stands => stands, Nat.le_refl _, ?_⟩
              · constructor
                · exact consistent.within
                · exact consistent.started
                · exact consistent.phase
                · exact consistent.seed
                · exact consistent.reused
                · exact consistent.origin
                · exact consistent.units
                · exact fun _ => unitEq
                · show (cursor, generator) = sourceAfter loader session
                    (iterator.nextTask + if true then 1 else 0)
                  rw [if_pos rfl, sourceAfter, ← source, drawn]
                · exact consistent.window
              · left
                exact ⟨rfl, fun _ => Nat.lt_add_of_pos_right (Nat.succ_pos _)⟩
          | some indices =>
              have upTo : ∀ earlier ≤ iterator.nextTask,
                  unitAt loader session earlier ≠ none := by
                intro earlier le
                rcases Nat.lt_or_eq_of_le le with before | same
                · exact consistent.units earlier before
                · rw [same, unitEq]
                  exact nofun
              have mine := placed iterator.nextTask (Nat.le_refl _)
                (Nat.lt_add_of_pos_right (Nat.succ_pos _)) upTo
              obtain ⟨admitted, lanes⟩ := consistent_admit consistent running mine drawn
              have filled := ih admitted ?_
              · dsimp only
                refine ⟨filled.consistent, ⟨filled.same.delivered, filled.same.reused,
                  filled.same.complete⟩, ?_, Nat.le_of_succ_le filled.later, ?_⟩
                · exact fun worker stands => filled.lanes worker (lanes worker stands)
                · have count : (admitTask loader iterator indices cursor generator).nextTask =
                      iterator.nextTask + 1 := rfl
                  rcases filled.reached with ⟨spent, short⟩ | ⟨more, _, whole⟩
                  · refine Or.inl ⟨spent, fun _ => ?_⟩
                    have less := short running
                    omega
                  · refine Or.inr ⟨more, running, ?_⟩
                    omega
              · intro task low high units
                apply lanes
                apply placed task (Nat.le_of_succ_le low) _ units
                have count : (admitTask loader iterator indices cursor generator).nextTask =
                  iterator.nextTask + 1 := rfl
                omega

/-- Everything an iterator of the uninterrupted run keeps. -/
structure InRun (loader : Loader Gen Cursor Indices Rng Value) (session : Session Gen Rng)
    (iterator : Iterator Gen Cursor Indices Rng Value) : Prop where
  consistent : Consistent loader session iterator
  lanes : unitAt loader session iterator.nextTask = none ∨
    ∀ worker < loader.workers, LaneAt loader session iterator worker
  ahead : iterator.samplerExhausted = true ∨ loader.prefetch ≤ iterator.admitted.length
  bounded : iterator.admitted.length ≤ limit loader
  short : iterator.samplerExhausted = true → iterator.admitted.length < limit loader

/-- `_fill` has nothing left to draw. -/
def Full (loader : Loader Gen Cursor Indices Rng Value)
    (iterator : Iterator Gen Cursor Indices Rng Value) : Prop :=
  iterator.samplerExhausted = true ∨ iterator.admitted.length = limit loader

/-- `_fill` from lanes that all stand right. -/
theorem consistent_fill (workers : 0 < loader.workers)
    (lanes : unitAt loader session iterator.nextTask = none ∨
      ∀ worker < loader.workers, LaneAt loader session iterator worker) (target : Nat) :
    FilledBy loader session (target - iterator.admitted.length) iterator
      (fill loader target iterator) := by
  apply consistent_fillPasses consistent
  intro task low _ units
  rcases lanes with spent | all
  · exact absurd spent (units _ low)
  · exact all _ (Nat.mod_lt _ workers)

end

variable {after : Iterator Gen Cursor Indices Rng Value}

/-- Lanes that stand right, or are not needed, stay so. -/
theorem FilledBy.lanes_all {passes : Nat} (filled : FilledBy loader session passes iterator after)
    (lanes : unitAt loader session iterator.nextTask = none ∨
      ∀ worker < loader.workers, LaneAt loader session iterator worker) :
    unitAt loader session after.nextTask = none ∨
      ∀ worker < loader.workers, LaneAt loader session after worker := by
  rcases lanes with spent | all
  · left
    have later : iterator.nextTask ≤ after.nextTask := filled.later
    have notLater : ¬iterator.nextTask < after.nextTask :=
      fun before => filled.consistent.units _ before spent
    have same : after.nextTask = iterator.nextTask := by omega
    rw [same]
    exact spent
  · exact Or.inr fun worker within => filled.lanes worker (all worker within)

theorem fillPasses_exhausted (spent : iterator.samplerExhausted = true) (passes : Nat) :
    fillPasses loader passes iterator = iterator := by
  cases passes with
  | zero => rfl
  | succ passes => rw [fillPasses, if_pos spent]

/-- The length of the read-ahead after `_fill`. -/
theorem FilledBy.length {target : Nat}
    (filled : FilledBy loader session (target - iterator.admitted.length) iterator after)
    (consistent : Consistent loader session iterator) (le : iterator.admitted.length ≤ target) :
    (after.samplerExhausted = true ∧
        (iterator.samplerExhausted = false → after.admitted.length < target)) ∨
      after.samplerExhausted = false ∧ after.admitted.length = target := by
  have before := consistent.length
  have length := filled.consistent.length
  have within := consistent.within
  have withinAfter := filled.consistent.within
  have same := filled.same.delivered
  rcases filled.reached with ⟨spent, less⟩ | ⟨more, _, whole⟩
  · refine Or.inl ⟨spent, fun running => ?_⟩
    have small := less running
    omega
  · refine Or.inr ⟨more, ?_⟩
    omega

/-- Filling to the limit stays on the run. -/
theorem inRun_fill (consistent : Consistent loader session iterator) (workers : 0 < loader.workers)
    (lanes : unitAt loader session iterator.nextTask = none ∨
      ∀ worker < loader.workers, LaneAt loader session iterator worker)
    (short : iterator.samplerExhausted = true → iterator.admitted.length < limit loader)
    (le : iterator.admitted.length ≤ limit loader) :
    InRun loader session (fill loader (limit loader) iterator) ∧
      Full loader (fill loader (limit loader) iterator) := by
  cases spent : iterator.samplerExhausted with
  | true =>
      rw [fill, fillPasses_exhausted spent]
      exact ⟨⟨consistent, lanes, Or.inl spent, le, short⟩, Or.inl spent⟩
  | false =>
      have filled := consistent_fill consistent workers lanes (limit loader)
      have length := filled.length consistent le
      refine ⟨⟨filled.consistent, filled.lanes_all lanes, ?_, ?_, ?_⟩, ?_⟩
      · rcases length with ⟨ended, _⟩ | ⟨_, length⟩
        · exact Or.inl ended
        · right
          rw [length]
          exact Nat.le_mul_of_pos_left _ workers
      · rcases length with ⟨_, less⟩ | ⟨_, length⟩
        · exact Nat.le_of_lt (less spent)
        · exact Nat.le_of_eq length
      · intro ended
        rcases length with ⟨_, less⟩ | ⟨more, _⟩
        · exact less spent
        · rw [more] at ended
          cases ended
      · rcases length with ⟨ended, _⟩ | ⟨_, length⟩
        · exact Or.inl ended
        · exact Or.inr length

variable {batch : TaggedBatch Indices Rng Value}

/-- Delivering the oldest batch moves the delivered cursor. -/
theorem consistent_pop (consistent : Consistent loader session iterator)
    {rest : List (TaggedBatch Indices Rng Value)} (split : iterator.admitted = batch :: rest) :
    batchAt loader session iterator.delivered = some batch ∧
      Consistent loader session
        { iterator with admitted := rest, delivered := iterator.delivered + 1 } := by
  have length := consistent.length
  have window := consistent.window
  rw [split] at length window
  simp only [List.length_cons] at length
  have parts : iterator.nextTask - iterator.delivered =
      (iterator.nextTask - (iterator.delivered + 1)) + 1 := by omega
  rw [parts, List.range'_succ, List.map_cons, List.map_cons, List.cons.injEq] at window
  refine ⟨window.1.symm, ?_⟩
  constructor
  · show iterator.delivered + 1 ≤ iterator.nextTask
    omega
  · exact consistent.started
  · exact consistent.phase
  · exact consistent.seed
  · exact consistent.reused
  · exact consistent.origin
  · exact consistent.units
  · exact consistent.ended
  · exact consistent.source
  · exact window.2

/-- Delivery keeps the run. -/
theorem inRun_nextBatch (inRun : InRun loader session iterator) (workers : 0 < loader.workers) :
    InRun loader session (nextBatch loader iterator).2 := by
  have filled :=
    (inRun_fill inRun.consistent workers inRun.lanes inRun.short inRun.bounded).1
  rw [nextBatch]
  dsimp only
  split
  · exact { filled with consistent := { filled.consistent with } }
  · rename_i batch rest split
    have length := filled.bounded
    rw [split, List.length_cons] at length
    refine (inRun_fill (consistent_pop filled.consistent split).2 workers filled.lanes
      ?_ ?_).1
    · exact fun _ => length
    · exact Nat.le_of_succ_le length

theorem nextBatch_ne_failed (iterator : Iterator Gen Cursor Indices Rng Value)
    (message : String) : (nextBatch loader iterator).1 ≠ .failed message := by
  rw [nextBatch]
  dsimp only
  split <;> exact nofun

/-! ### Two iterators at one point of a run -/

/-- The cursors and the generator of two iterators of one run agree. -/
structure Abreast (one two : Iterator Gen Cursor Indices Rng Value) : Prop where
  delivered : one.delivered = two.delivered
  nextTask : one.nextTask = two.nextTask
  generator : one.generator = two.generator
  complete : one.complete = two.complete

section Abreast

variable {one two : Iterator Gen Cursor Indices Rng Value}

theorem Consistent.admitted_eq (oneConsistent : Consistent loader session one)
    (twoConsistent : Consistent loader session two) (delivered : one.delivered = two.delivered)
    (nextTask : one.nextTask = two.nextTask) : one.admitted = two.admitted := by
  apply List.map_injective_iff.mpr fun _ _ => Option.some.inj
  rw [oneConsistent.window, twoConsistent.window, delivered, nextTask]

/-- Iterators abreast are captured alike. -/
theorem Abreast.captureCheckpoint (abreast : Abreast one two)
    (oneConsistent : Consistent loader session one)
    (twoConsistent : Consistent loader session two) :
    captureCheckpoint loader one = captureCheckpoint loader two := by
  have admitted := oneConsistent.admitted_eq twoConsistent abreast.delivered
    abreast.nextTask
  simp only [Resume.captureCheckpoint, capturePoints, abreast.delivered,
    abreast.nextTask, abreast.generator, admitted, oneConsistent.reused,
    twoConsistent.reused, oneConsistent.seed, twoConsistent.seed, oneConsistent.origin,
    twoConsistent.origin]

/-- A full read-ahead ends no later than another of the same delivered cursor. -/
theorem Full.nextTask_le (full : Full loader one) (oneInRun : InRun loader session one)
    (twoInRun : InRun loader session two) (delivered : one.delivered = two.delivered) :
    two.nextTask ≤ one.nextTask := by
  have oneLength := oneInRun.consistent.length
  have twoLength := twoInRun.consistent.length
  have within := oneInRun.consistent.within
  have bounded := twoInRun.bounded
  rcases full with spent | length
  · by_contra less
    exact twoInRun.consistent.units one.nextTask (by omega) (oneInRun.consistent.ended spent)
  · omega

/-- The delivered cursor settles where a full read-ahead ends. -/
theorem abreast_full (oneInRun : InRun loader session one)
    (twoInRun : InRun loader session two) (oneFull : Full loader one)
    (twoFull : Full loader two) (delivered : one.delivered = two.delivered)
    (complete : one.complete = two.complete) : Abreast one two := by
  have nextTask : one.nextTask = two.nextTask :=
    Nat.le_antisymm (twoFull.nextTask_le twoInRun oneInRun delivered.symm)
      (oneFull.nextTask_le oneInRun twoInRun delivered)
  have length : one.admitted.length = two.admitted.length := by
    rw [oneInRun.consistent.admitted_eq twoInRun.consistent delivered nextTask]
  have exhausted : one.samplerExhausted = two.samplerExhausted := by
    rw [Bool.eq_iff_iff]
    constructor
    · intro spent
      rcases twoFull with same | full
      · exact same
      · have less := oneInRun.short spent
        omega
    · intro spent
      rcases oneFull with same | full
      · exact same
      · have less := twoInRun.short spent
        omega
  have source := oneInRun.consistent.source
  rw [nextTask, exhausted, ← twoInRun.consistent.source] at source
  exact ⟨delivered, nextTask, congrArg Prod.snd source, complete⟩

/-- Delivery answers alike, and leaves the iterators abreast. -/
theorem abreast_nextBatch (abreast : Abreast one two) (oneInRun : InRun loader session one)
    (twoInRun : InRun loader session two) (workers : 0 < loader.workers) :
    (nextBatch loader one).1 = (nextBatch loader two).1 ∧
      Abreast (nextBatch loader one).2 (nextBatch loader two).2 := by
  obtain ⟨oneFilled, oneFull⟩ := inRun_fill oneInRun.consistent workers oneInRun.lanes
    oneInRun.short oneInRun.bounded
  obtain ⟨twoFilled, twoFull⟩ := inRun_fill twoInRun.consistent workers twoInRun.lanes
    twoInRun.short twoInRun.bounded
  have oneSame := consistent_fill oneInRun.consistent workers oneInRun.lanes (limit loader)
  have twoSame := consistent_fill twoInRun.consistent workers twoInRun.lanes (limit loader)
  have filled : Abreast (fill loader (limit loader) one) (fill loader (limit loader) two) := by
    apply abreast_full oneFilled twoFilled oneFull twoFull
    · rw [oneSame.same.delivered, twoSame.same.delivered, abreast.delivered]
    · rw [oneSame.same.complete, twoSame.same.complete, abreast.complete]
  have admitted := oneFilled.consistent.admitted_eq twoFilled.consistent filled.delivered
    filled.nextTask
  simp only [nextBatch, ← admitted]
  cases split : (fill loader (limit loader) one).admitted with
  | nil =>
      exact ⟨congrArg Event.stopped filled.nextTask, { filled with complete := rfl }⟩
  | cons batch rest =>
      have oneLength := oneFilled.bounded
      rw [split, List.length_cons] at oneLength
      have onePopped := (consistent_pop oneFilled.consistent split).2
      have twoPopped := (consistent_pop twoFilled.consistent (admitted ▸ split)).2
      obtain ⟨oneRefilled, oneAgain⟩ := inRun_fill onePopped workers oneFilled.lanes
        (fun _ => oneLength) (Nat.le_of_succ_le oneLength)
      obtain ⟨twoRefilled, twoAgain⟩ := inRun_fill twoPopped workers twoFilled.lanes
        (fun _ => oneLength) (Nat.le_of_succ_le oneLength)
      have oneKept := consistent_fill onePopped workers oneFilled.lanes (limit loader)
      have twoKept := consistent_fill twoPopped workers twoFilled.lanes (limit loader)
      have refilled := abreast_full oneRefilled twoRefilled oneAgain twoAgain
        (by
          rw [oneKept.same.delivered, twoKept.same.delivered]
          exact congrArg (· + 1) filled.delivered)
        (by
          rw [oneKept.same.complete, twoKept.same.complete]
          exact filled.complete)
      exact ⟨congrArg (Event.delivered batch) refilled.nextTask, refilled⟩

end Abreast

/-! ### The rebuilt iterator -/

/-- The admitted batches are those of the uninterrupted run. -/
theorem Consistent.get (consistent : Consistent loader session iterator) {place : Nat}
    (below : place < iterator.admitted.length) :
    batchAt loader session (iterator.delivered + place) =
      some iterator.admitted[place] := by
  have shown := congrArg (fun list => list[place]?) consistent.window
  have inRange : place < iterator.nextTask - iterator.delivered := by
    rw [← consistent.length]
    exact below
  simp only [List.getElem?_map, List.getElem?_eq_getElem below, Option.map_some] at shown
  rw [List.getElem?_eq_getElem (by simpa using inRange)] at shown
  simpa using shown.symm

/-- A batch of the run names its lane, its seed and its lane's state. -/
theorem batchAt_fields {task : Nat} (found : batchAt loader session task = some batch) :
    batch.worker = task % loader.workers ∧
      batch.seed = session.baseSeed loader + batch.worker ∧
      batch.state = laneState loader session (task % loader.workers) task := by
  obtain ⟨indices, _, rfl⟩ := Option.map_eq_some_iff.mp found
  exact ⟨rfl, rfl, rfl⟩

/-- The checkpoint's entry for a lane is that of its first undelivered batch. -/
theorem lookup_points (batches : List (TaggedBatch Indices Rng Value)) (worker : Nat)
    (workers : List Nat) :
    ((workers.filterMap fun other => batches.find? fun batch => batch.worker = other).map
        fun batch => (batch.worker, batch.state)).lookup worker =
      if worker ∈ workers then
        (batches.find? fun batch => batch.worker = worker).map (·.state)
      else none := by
  induction workers with
  | nil => rfl
  | cons other workers ih =>
      cases found : batches.find? fun batch => batch.worker = other with
      | none =>
          rw [List.filterMap_cons]
          simp only [found]
          rw [ih]
          by_cases same : worker = other
          · subst same
            simp [found]
          · simp [same]
      | some batch =>
          have mine : batch.worker = other := by simpa using List.find?_some found
          rw [List.filterMap_cons]
          simp only [found]
          rw [List.map_cons, List.lookup_cons, mine]
          by_cases same : worker = other
          · subst same
            simp [found]
          · rw [beq_false_of_ne same]
            simp [ih, same]

/-- A lane with an undelivered batch is restored to where it stood before it. -/
theorem Consistent.resumedLane (consistent : Consistent loader session iterator)
    (workers : 0 < loader.workers) {task : Nat} (low : iterator.delivered ≤ task)
    (high : task < iterator.nextTask) (baseSeed : Int) :
    resumedLane loader baseSeed (captureCheckpoint loader iterator).laneStates
        (task % loader.workers) =
      laneState loader session (task % loader.workers) iterator.delivered := by
  have length := consistent.length
  have below : task - iterator.delivered < iterator.admitted.length := by omega
  have place : iterator.delivered + (task - iterator.delivered) = task := by omega
  have present := consistent.get below
  rw [place] at present
  have hasOne : ((iterator.admitted.find? fun batch =>
      batch.worker = task % loader.workers)).isSome := by
    rw [List.find?_isSome]
    exact ⟨_, List.getElem_mem below, by simpa using (batchAt_fields present).1⟩
  obtain ⟨batch, found⟩ := Option.isSome_iff_exists.mp hasOne
  have looked : (captureCheckpoint loader iterator).laneStates.lookup
      (task % loader.workers) = some batch.state := by
    rw [captureCheckpoint, capturePoints, lookup_points,
      if_pos (List.mem_range.mpr (Nat.mod_lt _ workers)), found]
    rfl
  rw [Resume.resumedLane, looked, Option.getD_some]
  obtain ⟨mine, front, rest, split, earlier⟩ := List.find?_eq_some_iff_append.mp found
  have inside : front.length < iterator.admitted.length := by
    rw [split]
    simp
  have first := consistent.get inside
  have itself : iterator.admitted[front.length] = batch := by simp [split]
  rw [itself] at first
  obtain ⟨worker, _, state⟩ := batchAt_fields first
  have owner : (iterator.delivered + front.length) % loader.workers =
      task % loader.workers := by
    rw [← worker]
    simpa using mine
  rw [state, owner]
  apply laneState_skip (Nat.le_add_right _ _)
  intro other above before same
  have spot : other - iterator.delivered < front.length := by omega
  have far : other - iterator.delivered < iterator.admitted.length := by omega
  have there := consistent.get far
  have back : iterator.delivered + (other - iterator.delivered) = other := by omega
  rw [back] at there
  have member : iterator.admitted[other - iterator.delivered] ∈ front := by
    have located : iterator.admitted[other - iterator.delivered] =
        front[other - iterator.delivered] := by
      simp [split, List.getElem_append_left spot]
    rw [located]
    exact List.getElem_mem spot
  have refused := earlier _ member
  rw [(batchAt_fields there).1, same] at refused
  simp at refused

/-- Skipped draws are the run's draws. -/
theorem skipDraws_eq (draws first : Nat) (units : ∀ task, first ≤ task → task < first + draws →
      unitAt loader session task ≠ none) :
    skipDraws loader draws (sourceAfter loader session first).1
        (sourceAfter loader session first).2 =
      sourceAfter loader session (first + draws) := by
  induction draws generalizing first with
  | zero => rfl
  | succ draws ih =>
      have unit := units first (Nat.le_refl _) (Nat.lt_add_of_pos_right (Nat.succ_pos _))
      rw [skipDraws]
      have following : sourceAfter loader session (first + 1) =
          (loader.next (sourceAfter loader session first).1
            (sourceAfter loader session first).2).2 := rfl
      rw [unitAt] at unit
      rcases drawn : loader.next (sourceAfter loader session first).1
        (sourceAfter loader session first).2 with ⟨found, cursor, generator⟩
      rw [drawn] at unit following
      cases found with
      | none => exact absurd rfl unit
      | some indices =>
          have later := ih (first + 1) fun task low high =>
            units task (Nat.le_of_succ_le low) (by omega)
          rw [following] at later
          rw [Nat.add_right_comm, Nat.add_assoc] at later
          simpa [Nat.add_comm, Nat.add_left_comm] using later

end Filling

/-! ### Chains -/

/-- What a capture must meet for the rebuild to be exact: the rebuild draws one
prefetch factor of units, or what is left of the sampler.  Where the read-ahead
is one prefetch factor, either the sampler's end was not met and the lanes
without an undelivered batch stand as new lanes, or meeting the end left the
generator as it was. -/
def Refilled [DecidableEq Gen] [DecidableEq Rng]
    (loader : Loader Gen Cursor Indices Rng Value) (session : Session Gen Rng)
    (iterator : Iterator Gen Cursor Indices Rng Value) (label : Label) : Bool :=
  let readAhead := iterator.nextTask - iterator.delivered
  label = .resume →
    readAhead < loader.prefetch ∨ readAhead = loader.prefetch ∧
      if iterator.samplerExhausted then
        iterator.generator = (sourceAfter loader session iterator.nextTask).2
      else
        ∀ worker < loader.workers,
          (∀ batch ∈ iterator.admitted, batch.worker ≠ worker) →
            iterator.lanes worker = loader.initializeLane iterator.baseSeed worker

section Chain

variable {loader : Loader Gen Cursor Indices Rng Value} {session : Session Gen Rng}
  {iterator : Iterator Gen Cursor Indices Rng Value}

section

variable (consistent : Consistent loader session iterator)

include consistent

theorem Consistent.restoreState :
    restoreState loader (captureCheckpoint loader iterator) =
      .ok (captureCheckpoint loader iterator) := by
  have within := consistent.within
  simp [Resume.restoreState, captureCheckpoint, Nat.not_lt.mpr within]

theorem Consistent.resumedSeed :
    resumedSeed loader (captureCheckpoint loader iterator) =
      .ok (session.baseSeed loader, session.seededGenerator loader) := by
  have seed := consistent.seed
  have reused := consistent.reused
  have origin := consistent.origin
  cases retained : session.retained with
  | none | some kept =>
      simp [Resume.resumedSeed, captureCheckpoint, reused, retained, seed, origin,
        Session.baseSeed, Session.seededGenerator]

theorem Consistent.laneSeeds :
    ((captureCheckpoint loader iterator).laneSeeds.any fun entry =>
      entry.2 ≠ session.baseSeed loader + entry.1) = false := by
  rw [List.any_eq_false]
  intro entry member
  obtain ⟨batch, point, rfl⟩ := List.mem_map.mp member
  obtain ⟨worker, _, found⟩ := List.mem_filterMap.mp point
  obtain ⟨place, below, rfl⟩ := List.getElem_of_mem (List.mem_of_find?_eq_some found)
  have fields := batchAt_fields (consistent.get below)
  simp [fields.2.1]

/-- The iterator a rebuild starts its read-ahead from. -/
def rebuilt (loader : Loader Gen Cursor Indices Rng Value)
    (iterator : Iterator Gen Cursor Indices Rng Value) (session : Session Gen Rng) :
    Iterator Gen Cursor Indices Rng Value :=
  { generator := (sourceAfter loader session iterator.delivered).2
    cursor := (sourceAfter loader session iterator.delivered).1
    startTask := iterator.delivered
    nextTask := iterator.delivered
    phase := iterator.delivered % loader.workers
    samplerExhausted := false
    admitted := []
    lanes := resumedLane loader (session.baseSeed loader)
      (captureCheckpoint loader iterator).laneStates
    delivered := iterator.delivered
    iteratorGenerator := iterator.iteratorGenerator
    reusedBaseSeed := iterator.reusedBaseSeed
    baseSeed := session.baseSeed loader
    complete := false }

theorem Consistent.iterateNativeMap :
    iterateNativeMap loader (captureCheckpoint loader iterator) =
      .ok { fill loader loader.prefetch (rebuilt loader iterator session) with
        generator := iterator.generator } := by
  have drawn : skipDraws loader iterator.delivered loader.indexSampler
      (session.seededGenerator loader) =
        sourceAfter loader session iterator.delivered := by
    have skipped : skipDraws loader iterator.delivered loader.indexSampler
        (session.seededGenerator loader) =
          sourceAfter loader session (0 + iterator.delivered) :=
      skipDraws_eq iterator.delivered 0 fun task _ below => consistent.units task
        (Nat.lt_of_lt_of_le (by omega) consistent.within)
    rwa [Nat.zero_add] at skipped
  have seeds := consistent.laneSeeds
  simp only [Resume.iterateNativeMap, consistent.resumedSeed, bind, Except.bind, seeds,
    Bool.false_eq_true, if_false]
  simp only [construct, captureCheckpoint, drawn]
  rfl

/-- The rebuild starts on the uninterrupted run. -/
theorem consistent_rebuilt :
    Consistent loader session (rebuilt loader iterator session) := by
  constructor
  · exact Nat.le_refl _
  · exact Nat.le_refl _
  · rfl
  · rfl
  · exact consistent.reused
  · exact consistent.origin
  · exact fun task below => consistent.units task
      (Nat.lt_of_lt_of_le below consistent.within)
  · exact nofun
  · rfl
  · show ([] : List _).map some = (List.range' iterator.delivered
      (iterator.delivered - iterator.delivered)).map (batchAt loader session)
    rw [Nat.sub_self]
    rfl

end

section

variable (inRun : InRun loader session iterator)

include inRun

/-- A lane with an undelivered batch is rebuilt where the run has it. -/
theorem InRun.rebuilt_lane (workers : 0 < loader.workers) {task : Nat}
    (low : iterator.delivered ≤ task) (high : task < iterator.nextTask) :
    LaneAt loader session (rebuilt loader iterator session) (task % loader.workers) :=
  inRun.consistent.resumedLane workers low high _

/-- The read-ahead of a rebuild stays on the run: the units it draws are captured
ones. -/
theorem InRun.rebuilt_fill (workers : 0 < loader.workers) :
    FilledBy loader session loader.prefetch (rebuilt loader iterator session)
      (fill loader loader.prefetch (rebuilt loader iterator session)) := by
  have consistent := inRun.consistent
  have length := consistent.length
  apply consistent_fillPasses (consistent_rebuilt consistent)
  intro task low high units
  have bound : task < iterator.delivered + loader.prefetch := high
  apply inRun.rebuilt_lane workers low
  by_contra beyond
  rcases inRun.ahead with spent | ahead
  · exact units iterator.nextTask (by omega) (consistent.ended spent)
  · omega

/-- A rebuild draws a captured read-ahead of at most one prefetch factor again. -/
theorem InRun.rebuilt_nextTask (workers : 0 < loader.workers)
    (short : iterator.nextTask - iterator.delivered ≤ loader.prefetch) :
    (fill loader loader.prefetch (rebuilt loader iterator session)).nextTask =
      iterator.nextTask := by
  have filled := inRun.rebuilt_fill workers
  have consistent := inRun.consistent
  have length := consistent.length
  have within := consistent.within
  have start : (rebuilt loader iterator session).nextTask = iterator.delivered := rfl
  apply Nat.le_antisymm
  · by_contra beyond
    rcases inRun.ahead with spent | ahead
    · exact filled.consistent.units _ (Nat.lt_of_not_le beyond) (consistent.ended spent)
    · rcases filled.reached with ⟨_, less⟩ | ⟨_, _, whole⟩
      · have small := less rfl
        omega
      · omega
  · by_contra behind
    rcases filled.reached with ⟨spent, _⟩ | ⟨_, _, whole⟩
    · exact consistent.units _ (Nat.lt_of_not_le behind) (filled.consistent.ended spent)
    · omega

end

/-- A lane without an undelivered batch is rebuilt as a new lane. -/
theorem Consistent.idle_lane (consistent : Consistent loader session iterator)
    {worker : Nat} (idle : ∀ batch ∈ iterator.admitted, batch.worker ≠ worker)
    (stands : LaneAt loader session iterator worker)
    (new : iterator.lanes worker = loader.initializeLane iterator.baseSeed worker) :
    LaneAt loader session (rebuilt loader iterator session) worker := by
  have none : (iterator.admitted.find? fun batch => batch.worker = worker) = none := by
    rw [List.find?_eq_none]
    intro batch member
    simpa using idle batch member
  have unseen : (captureCheckpoint loader iterator).laneStates.lookup worker = Option.none := by
    rw [captureCheckpoint, capturePoints, lookup_points, none]
    simp
  have kept : laneState loader session worker iterator.nextTask =
      laneState loader session worker iterator.delivered := by
    apply laneState_skip consistent.within
    intro task low high
    have length := consistent.length
    have below : task - iterator.delivered < iterator.admitted.length := by omega
    have place : iterator.delivered + (task - iterator.delivered) = task := by omega
    have present := consistent.get below
    rw [place] at present
    rw [← (batchAt_fields present).1]
    exact idle _ (List.getElem_mem below)
  show Resume.resumedLane loader (session.baseSeed loader) _ worker =
    laneState loader session worker iterator.delivered
  rw [Resume.resumedLane, unseen, Option.getD_none, ← kept, ← consistent.seed, ← new]
  exact stands

section Exact

variable [DecidableEq Gen] [DecidableEq Rng]

/-- The read-ahead a `Refilled` capture shows. -/
theorem refilled_resume (refilled : Refilled loader session iterator .resume = true) :
    iterator.nextTask - iterator.delivered < loader.prefetch ∨
      iterator.nextTask - iterator.delivered = loader.prefetch ∧
        (iterator.samplerExhausted = true →
          iterator.generator = (sourceAfter loader session iterator.nextTask).2) ∧
        (iterator.samplerExhausted = false → ∀ worker < loader.workers,
          (∀ batch ∈ iterator.admitted, batch.worker ≠ worker) →
            iterator.lanes worker = loader.initializeLane iterator.baseSeed worker) := by
  simp only [Refilled, decide_eq_true_eq, forall_const] at refilled
  rcases refilled with less | ⟨same, condition⟩
  · exact Or.inl less
  · refine Or.inr ⟨same, ?_, ?_⟩
    · intro spent
      rw [if_pos spent] at condition
      exact condition
    · intro running
      rw [if_neg (by simp [running])] at condition
      exact condition

/-- A rebuild of a `Refilled` capture is where the capture was. -/
theorem InRun.rebuilt_generator (inRun : InRun loader session iterator)
    (workers : 0 < loader.workers) (refilled : Refilled loader session iterator .resume = true) :
    (fill loader loader.prefetch (rebuilt loader iterator session)).generator =
      iterator.generator := by
  have filled := inRun.rebuilt_fill workers
  have consistent := inRun.consistent
  have length := consistent.length
  have within := consistent.within
  have start : (rebuilt loader iterator session).nextTask = iterator.delivered := rfl
  have source := congrArg Prod.snd filled.consistent.source
  have captured := congrArg Prod.snd consistent.source
  dsimp only at source captured
  rcases refilled_resume refilled with less | ⟨same, spent, _⟩
  · -- The capture knows the sampler's end, and the rebuild meets it.
    have known : iterator.samplerExhausted = true := by
      rcases inRun.ahead with known | ahead
      · exact known
      · omega
    have position := inRun.rebuilt_nextTask workers (Nat.le_of_lt less)
    have met : (fill loader loader.prefetch
        (rebuilt loader iterator session)).samplerExhausted = true := by
      rcases filled.reached with ⟨met, _⟩ | ⟨_, _, whole⟩
      · exact met
      · omega
    rw [source, captured, position, met, known]
  · have position := inRun.rebuilt_nextTask workers (Nat.le_of_eq same)
    have running : (fill loader loader.prefetch
        (rebuilt loader iterator session)).samplerExhausted = false := by
      rcases filled.reached with ⟨_, less⟩ | ⟨running, _, _⟩
      · have small := less rfl
        omega
      · exact running
    rw [source, position, running]
    cases known : iterator.samplerExhausted with
    | true => exact (spent known).symm
    | false =>
        rw [captured, known]

/-- A rebuild of a `Refilled` capture stays on the uninterrupted run, at the
capture's cursors. -/
theorem InRun.resume (inRun : InRun loader session iterator)
    (workers : 0 < loader.workers) (incomplete : iterator.complete = false)
    (refilled : Refilled loader session iterator .resume = true) :
    ∃ built, Resume.iterateNativeMap loader (captureCheckpoint loader iterator) = .ok built ∧
      InRun loader session built ∧ Abreast built iterator := by
  have filled := inRun.rebuilt_fill workers
  have consistent := inRun.consistent
  have length := consistent.length
  have within := consistent.within
  have start : (rebuilt loader iterator session).nextTask = iterator.delivered := rfl
  have positive := Nat.le_mul_of_pos_left loader.prefetch workers
  have shape := refilled_resume refilled
  have position := inRun.rebuilt_nextTask workers (by omega)
  have generator := inRun.rebuilt_generator workers refilled
  have sameLength := filled.consistent.length
  have sameDelivered : (fill loader loader.prefetch
      (rebuilt loader iterator session)).delivered = iterator.delivered :=
    filled.same.delivered
  refine ⟨fill loader loader.prefetch (rebuilt loader iterator session), ?_, ?_, ?_⟩
  · rw [consistent.iterateNativeMap, ← generator]
  · refine ⟨filled.consistent, ?_, ?_, ?_, ?_⟩
    · rw [position]
      rcases shape with less | ⟨same, _, idle⟩
      · left
        rcases inRun.ahead with spent | ahead
        · exact consistent.ended spent
        · omega
      · cases known : iterator.samplerExhausted with
        | true => exact Or.inl (consistent.ended known)
        | false =>
            rcases inRun.lanes with spent | all
            · exact Or.inl spent
            · right
              intro worker below
              apply filled.lanes
              by_cases owned : ∃ batch ∈ iterator.admitted, batch.worker = worker
              · obtain ⟨batch, member, mine⟩ := owned
                obtain ⟨place, placeBelow, found⟩ := List.getElem_of_mem member
                have present := consistent.get placeBelow
                have fields := (batchAt_fields present).1
                rw [found, mine] at fields
                rw [fields]
                exact inRun.rebuilt_lane workers (Nat.le_add_right _ _) (by omega)
              · have none : ∀ batch ∈ iterator.admitted, batch.worker ≠ worker :=
                  fun batch member mine => owned ⟨batch, member, mine⟩
                exact consistent.idle_lane none (all worker below)
                  (idle known worker below none)
    · rcases filled.reached with ⟨spent, _⟩ | ⟨_, _, whole⟩
      · exact Or.inl spent
      · right
        omega
    · rw [limit]
      omega
    · intro spent
      rcases filled.reached with ⟨_, less⟩ | ⟨running, _, _⟩
      · have small := less rfl
        rw [limit]
        omega
      · rw [running] at spent
        cases spent
  · refine ⟨sameDelivered, position, generator, ?_⟩
    rw [filled.same.complete, incomplete]
    rfl

end Exact

/-- A new iterator is on its own run. -/
theorem inRun_initial (workers : 0 < loader.workers) :
    InRun loader session (session.initial loader) := by
  have consistent : Consistent loader session
      { generator := session.seededGenerator loader
        cursor := loader.indexSampler
        startTask := 0
        nextTask := 0
        phase := 0
        samplerExhausted := false
        admitted := []
        lanes := session.lanes loader
        delivered := 0
        iteratorGenerator := session.iteratorGenerator
        reusedBaseSeed := session.retained.isSome
        baseSeed := session.baseSeed loader
        complete := false } := by
    constructor
    · exact Nat.le_refl _
    · exact Nat.le_refl _
    · exact (Nat.zero_mod _).symm
    · rfl
    · rfl
    · rfl
    · exact nofun
    · exact nofun
    · rfl
    · rfl
  have lanes := Or.inr (a := unitAt loader session 0 = none)
    fun worker (_ : worker < loader.workers) =>
      (rfl : session.lanes loader worker = laneState loader session worker 0)
  have filled := consistent_fill consistent workers lanes loader.prefetch
  have length := filled.length consistent (Nat.zero_le _)
  have positive := Nat.le_mul_of_pos_left loader.prefetch workers
  refine ⟨filled.consistent, filled.lanes_all lanes, ?_, ?_, ?_⟩
  · rcases length with ⟨spent, _⟩ | ⟨_, whole⟩
    · exact Or.inl spent
    · exact Or.inr (Nat.le_of_eq whole.symm)
  · rcases length with ⟨_, less⟩ | ⟨_, whole⟩
    · exact Nat.le_trans (Nat.le_of_lt (less rfl)) positive
    · exact Nat.le_trans (Nat.le_of_eq whole) positive
  · intro spent
    rcases length with ⟨_, less⟩ | ⟨running, _⟩
    · exact Nat.lt_of_lt_of_le (less rfl) positive
    · exact absurd spent (by rw [Bool.not_eq_true]; exact running)

section Exact

variable [DecidableEq Gen] [DecidableEq Rng]

/-- One step of an interrupted run against the uninterrupted one. -/
theorem resume_step {other next : Iterator Gen Cursor Indices Rng Value} {label : Label}
    {event : Event Indices Rng Value} (workers : 0 < loader.workers)
    (inRun : InRun loader session iterator) (otherInRun : InRun loader session other)
    (abreast : Abreast iterator other) (refilled : Refilled loader session iterator label = true)
    (step : (machine loader).step iterator label = some (event, next)) :
    InRun loader session next ∧
      (label = .next ∧ (nextBatch loader other).1 = event ∧
          Abreast next (nextBatch loader other).2 ∨
        label = .resume ∧ event = .resumed other.nextTask ∧ Abreast next other) := by
  cases label with
  | next =>
      have answer : nextBatch loader iterator = (event, next) := Option.some.inj step
      obtain ⟨same, after⟩ := abreast_nextBatch abreast inRun otherInRun workers
      have kept := inRun_nextBatch inRun workers
      rw [answer] at same after kept
      exact ⟨kept, Or.inl ⟨rfl, same.symm, after⟩⟩
  | resume =>
      cases incomplete : iterator.complete with
      | true => simp [machine, incomplete] at step
      | false =>
          obtain ⟨built, builtEq, builtInRun, builtAbreast⟩ :=
            inRun.resume workers incomplete refilled
          simp only [machine, incomplete, inRun.consistent.restoreState, builtEq,
            Bool.false_eq_true, if_false] at step
          cases step
          refine ⟨builtInRun, Or.inr ⟨rfl, ?_, ?_⟩⟩
          · rw [builtAbreast.nextTask, abreast.nextTask]
          · exact ⟨builtAbreast.delivered.trans abreast.delivered,
              builtAbreast.nextTask.trans abreast.nextTask,
              builtAbreast.generator.trans abreast.generator,
              builtAbreast.complete.trans abreast.complete⟩

/-- An interrupted run whose captures are `Refilled` against the run that only
delivers. -/
theorem resume_run {one other final : Iterator Gen Cursor Indices Rng Value} {labels : List Label}
    {trace : List (Label × Event Indices Rng Value)} (workers : 0 < loader.workers)
    (oneInRun : InRun loader session one) (otherInRun : InRun loader session other)
    (abreast : Abreast one other) (ran : (machine loader).run one labels = some (trace, final))
    (refilled : (machine loader).Along
      (fun iterator label => Refilled loader session iterator label = true) one labels) :
    (∃ reached, (machine loader).run other (labels.filter (· = .next)) =
        some (trace.filter (·.1 = .next), reached) ∧
      captureCheckpoint loader final = captureCheckpoint loader reached) ∧
    ∀ entry ∈ trace, ∀ message, entry.2 ≠ .failed message := by
  induction labels generalizing one other trace with
  | nil =>
      cases ran
      exact ⟨⟨other, rfl, abreast.captureCheckpoint oneInRun.consistent
        otherInRun.consistent⟩, nofun⟩
  | cons label labels ih =>
      obtain ⟨event, next, rest, step, later, rfl⟩ := Machine.run_cons_eq_some _ |>.mp ran
      obtain ⟨first, guarded⟩ := refilled
      obtain ⟨nextInRun, ⟨rfl, same, after⟩ | ⟨rfl, rfl, after⟩⟩ :=
        resume_step workers oneInRun otherInRun abreast first step
      · obtain ⟨⟨reached, otherRan, captured⟩, fine⟩ := ih nextInRun
          (inRun_nextBatch otherInRun workers) after later (guarded _ _ step)
        refine ⟨⟨reached, ?_, captured⟩, ?_⟩
        · apply Machine.run_cons_eq_some _ |>.mpr
          exact ⟨event, _, _, congrArg some (Prod.ext same rfl), otherRan, rfl⟩
        · intro entry member
          rcases List.mem_cons.mp member with rfl | tail
          · rw [← same]
            exact nextBatch_ne_failed other
          · exact fine entry tail
      · obtain ⟨⟨reached, otherRan, captured⟩, fine⟩ := ih nextInRun
          otherInRun after later (guarded _ _ step)
        refine ⟨⟨reached, otherRan, captured⟩, ?_⟩
        intro entry member
        rcases List.mem_cons.mp member with rfl | tail
        · exact nofun
        · exact fine entry tail

/-- Rebuilds of `Refilled` captures do not show: whatever the chain, the batches,
their lanes' RNG states, the positions and the last capture are those of the run
that only delivers, and no rebuild fails. -/
theorem resume_exact (workers : 0 < loader.workers) {labels : List Label}
    {trace : List (Label × Event Indices Rng Value)} {final : Iterator Gen Cursor Indices Rng Value}
    (ran : (machine loader).run (session.initial loader) labels = some (trace, final))
    (refilled : (machine loader).Along
      (fun iterator label => Refilled loader session iterator label = true)
      (session.initial loader) labels) :
    (∃ other, (machine loader).run (session.initial loader)
          (labels.filter (· = .next)) =
        some (trace.filter (·.1 = .next), other) ∧
      captureCheckpoint loader final = captureCheckpoint loader other) ∧
    ∀ entry ∈ trace, ∀ message, entry.2 ≠ .failed message :=
  resume_run workers (inRun_initial workers) (inRun_initial workers) ⟨rfl, rfl, rfl, rfl⟩
    ran refilled

end Exact

end Chain

/-! ### A lazy sampler -/

/-- A sampler of `units` units, each drawn from the generator; a fetch advances its
lane's RNG state. -/
def lazyLoader (workers units : Nat) : Loader Nat Nat Nat Nat Nat where
  workers := workers
  prefetchFactor := some 2
  indexSampler := units
  next remaining generator :=
    match remaining with
    | 0 => (none, 0, generator)
    | left + 1 => (some generator, left, generator + 1)
  drawBaseSeed generator := (generator, generator + 1)
  initializeLane baseSeed worker := baseSeed.toNat + worker
  fetch _ indices state := (indices + state, state + 1)

def newWorkers : Session Nat Nat := ⟨0, none⟩

theorem resume_exact_example : ∃ trace final,
    (machine (lazyLoader 2 3)).run (newWorkers.initial (lazyLoader 2 3))
      [.resume, .resume, .next, .resume, .resume, .next, .resume, .next, .next] =
        some (trace, final) ∧
    ∃ other, (machine (lazyLoader 2 3)).run (newWorkers.initial (lazyLoader 2 3))
        [.next, .next, .next, .next] = some (trace.filter (·.1 = .next), other) ∧
      captureCheckpoint (lazyLoader 2 3) final = captureCheckpoint (lazyLoader 2 3) other := by
  have guarded : (machine (lazyLoader 2 3)).Along
      (fun iterator label => Refilled (lazyLoader 2 3) newWorkers iterator label = true)
      (newWorkers.initial (lazyLoader 2 3))
      [.resume, .resume, .next, .resume, .resume, .next, .resume, .next, .next] := by
    decide
  exact ⟨_, _, rfl, (resume_exact (by decide : 0 < (lazyLoader 2 3).workers) rfl guarded).1⟩

/-- Two lanes, two units each: after one batch the read-ahead is at unit five, and a
rebuild draws two units again, with the generator five draws on.  The fourth batch
then has other indices. -/
theorem read_ahead_is_lost :
    ¬ ∀ labels : List Label,
      ((machine (lazyLoader 2 8)).run (newWorkers.initial (lazyLoader 2 8)) labels).map
          (fun run => (run.1.filter (·.1 = .next), captureCheckpoint (lazyLoader 2 8) run.2)) =
        ((machine (lazyLoader 2 8)).run (newWorkers.initial (lazyLoader 2 8))
            (labels.filter (· = .next))).map
          (fun run => (run.1, captureCheckpoint (lazyLoader 2 8) run.2)) := by
  intro claim
  exact absurd (claim [.next, .resume, .next, .next, .next]) (by decide)

end Hyperloader.Compat.Resume
