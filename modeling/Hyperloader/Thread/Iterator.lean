/-
Module: Hyperloader.Thread.Iterator
Purpose: The thread iterator under on-completion delivery, thread/iterator.py: dataset
  calls in flight as futures, their callbacks and the batches they complete, from any
  resume coordinate.
Trusted boundary: a submitted dataset call returns a value.
Main exports: ThreadIterator, ThreadIterator.start, ThreadIterator.machine, thread_handout
-/
import Hyperloader.Process.Completion

namespace Hyperloader.Thread

open Foundations State Distributed
open Hyperloader.Process (Sizing Yield)

/-- The loader of a thread iterator. -/
structure ThreadLoader where
  length : Nat
  sizing : Sizing
  sized : sizing.batchSize ≠ some 0

namespace ThreadLoader

variable (loader : ThreadLoader)

theorem width_pos : 0 < loader.sizing.width :=
  loader.sizing.width_pos loader.sized

/-- The batches of the epoch. -/
def batching : Batching := ⟨loader.length, loader.sizing.width, loader.width_pos⟩

end ThreadLoader

/-- `ThreadIterator`.  Its futures are the calls running and those done; a callback of a
future that is done may still have to run. -/
structure ThreadIterator where
  position : Nat
  nextSubmit : Nat
  depth : Nat
  complete : Bool
  valid : Bool
  restoredBatches : Finset Nat
  running : Finset Nat
  done : Finset Nat
  callbacks : Finset Nat
  completed : List Nat
  readyBatches : List Nat
  queuedBatches : Finset Nat
  delivered : DeliveredBatchState
deriving DecidableEq

namespace ThreadIterator

variable (loader : ThreadLoader)

def futures (iterator : ThreadIterator) : Finset Nat := iterator.running ∪ iterator.done

/-- `_fill_frontier` over the positions not yet submitted. -/
def fill : List Nat → ThreadIterator → ThreadIterator
  | [], iterator => iterator
  | position :: positions, iterator =>
      if iterator.depth ≤ iterator.futures.card then iterator
      else if position / loader.sizing.width ∈ iterator.restoredBatches then
        fill positions { iterator with nextSubmit := position + 1 }
      else
        fill positions
          { iterator with
            running := insert position iterator.running
            nextSubmit := position + 1 }

def fillFrontier (iterator : ThreadIterator) : ThreadIterator :=
  fill loader (List.range' iterator.nextSubmit (loader.length - iterator.nextSubmit)) iterator

/-- `ThreadIterator.__init__` -/
def start (cursor : Nat) (bitmap : List UInt8) : Except Raised ThreadIterator := do
  let width := loader.sizing.width
  let resumePosition ←
    (resumeSamplePosition cursor width loader.length).mapError Raised.valueError
  let totalBatches := (loader.length + width - 1) / width
  let delivered ← restoreDelivered cursor bitmap totalBatches
  let restored := delivered.ahead
  let restoredSamples := restored.sum fun ordinal => min width (loader.length - ordinal * width)
  let restoredSpan :=
    if restored = ∅ then 0 else restored.sup id * width + width - resumePosition
  let iterator : ThreadIterator :=
    { position := resumePosition + restoredSamples
      nextSubmit := resumePosition
      depth := min (loader.length - resumePosition)
        (max loader.sizing.frontierDepth restoredSpan)
      complete := false
      valid := true
      restoredBatches := restored
      running := ∅
      done := ∅
      callbacks := ∅
      completed := []
      readyBatches := []
      queuedBatches := ∅
      delivered := delivered }
  .ok (if loader.length = 0 then iterator else iterator.fillFrontier loader)

/-- A completed position closes the last gap of its batch, or it is passed over. -/
def observe (iterator : ThreadIterator) (position : Nat) : ThreadIterator :=
  let ordinal := position / loader.sizing.width
  if ordinal ∈ iterator.queuedBatches then iterator
  else if ∀ sample ∈ loader.batching.batch ordinal, sample ∈ iterator.done then
    { iterator with
      readyBatches := iterator.readyBatches ++ [ordinal]
      queuedBatches := insert ordinal iterator.queuedBatches }
  else iterator

/-- `_futures.pop` and the result of one position after the other; there is no next state
while a result is waited for. -/
def popAll : List Nat → ThreadIterator → Option (Except Raised ThreadIterator)
  | [], iterator => some (.ok iterator)
  | position :: positions, iterator =>
      if position ∈ iterator.done then
        popAll positions { iterator with done := iterator.done.erase position }
      else if position ∈ iterator.running then none
      else some (.error (.keyError position))

/-- `loader.close()` before the exception is raised again. -/
def fail (iterator : ThreadIterator) (failure : Raised) : Yield × ThreadIterator :=
  (.raised failure, { iterator with valid := false })

/-- The first batch queued and its delivery. -/
def take (iterator : ThreadIterator) (ordinal : Nat) (rest : List Nat) :
    Option (Yield × ThreadIterator) :=
  if ordinal ∉ iterator.queuedBatches then some (iterator.fail (.keyError ordinal))
  else
    let positions := loader.batching.batch ordinal
    let dequeued : ThreadIterator :=
      { iterator with
        readyBatches := rest
        queuedBatches := iterator.queuedBatches.erase ordinal }
    match popAll positions dequeued with
    | none => none
    | some (.error failure) => some (dequeued.fail failure)
    | some (.ok popped) =>
        let filled := popped.fillFrontier loader
        match filled.delivered.mark ordinal with
        | .error failure => some (filled.fail failure)
        | .ok delivered =>
            some (.delivered positions,
              { filled with
                position := filled.position + loader.batching.size ordinal
                delivered := delivered })

def INACTIVE : String := "thread iterator is no longer active"

/-- One pass of `__next__`: a batch, the next completed position, or a wait for one. -/
def next (iterator : ThreadIterator) : Option (Yield × ThreadIterator) :=
  if !iterator.valid then some (.raised (.runtimeError INACTIVE), iterator)
  else if loader.length ≤ iterator.position then
    some (.exhausted, { iterator with complete := true })
  else
    match iterator.readyBatches with
    | ordinal :: rest => take loader iterator ordinal rest
    | [] =>
        match iterator.completed with
        | position :: rest =>
            some (.quiet, observe loader { iterator with completed := rest } position)
        | [] => some (.waiting, iterator)

/-- A pass of the consumer, a dataset call that returns, or the callback of its future. -/
inductive Label where
  | next
  | work (position : Nat)
  | announce (position : Nat)

def step (iterator : ThreadIterator) : Label → Option (Yield × ThreadIterator)
  | .next => next loader iterator
  | .work position =>
      if position ∈ iterator.running then
        some (.quiet,
          { iterator with
            running := iterator.running.erase position
            done := insert position iterator.done
            callbacks := insert position iterator.callbacks })
      else none
  | .announce position =>
      if position ∈ iterator.callbacks then
        some (.quiet,
          { iterator with
            callbacks := iterator.callbacks.erase position
            completed := iterator.completed ++ [position] })
      else none

def machine : Machine ThreadIterator Label Yield where
  step := step loader

end ThreadIterator

/-! ### Submitting -/

/-- The futures are the positions submitted whose batch is not delivered, and the batches
delivered among the positions to come are those restored. -/
structure Submitted (loader : ThreadLoader) (delivered : Finset Nat)
    (iterator : ThreadIterator) : Prop where
  within : iterator.nextSubmit ≤ loader.length
  futures : ∀ position, position ∈ iterator.futures ↔
    position < iterator.nextSubmit ∧ position / loader.sizing.width ∉ delivered
  ahead : ∀ position, iterator.nextSubmit ≤ position → position < loader.length →
    (position / loader.sizing.width ∈ delivered ↔
      position / loader.sizing.width ∈ iterator.restoredBatches)
  apart : Disjoint iterator.running iterator.done

/-- What submitting leaves alone, and that it fills the frontier. -/
structure Refilled (loader : ThreadLoader) (before after : ThreadIterator) : Prop where
  rest : ∃ running nextSubmit,
    after = { before with running := running, nextSubmit := nextSubmit }
  filled : after.nextSubmit = loader.length ∨ after.depth ≤ after.futures.card
  lighter : 4 * (loader.length - after.nextSubmit) + 3 * after.running.card ≤
    4 * (loader.length - before.nextSubmit) + 3 * before.running.card

section Submitting

variable {loader : ThreadLoader} {delivered : Finset Nat} {iterator : ThreadIterator}

section

variable (submitted : Submitted loader delivered iterator)

include submitted

/-- Passing over a position of a restored batch. -/
theorem Submitted.pass (inside : iterator.nextSubmit < loader.length)
    (restored : iterator.nextSubmit / loader.sizing.width ∈ iterator.restoredBatches) :
    Submitted loader delivered { iterator with nextSubmit := iterator.nextSubmit + 1 } := by
  have gone := (submitted.ahead _ (Nat.le_refl _) inside).mpr restored
  refine ⟨inside, fun position => ?_, fun position low => ?_, submitted.apart⟩
  · refine (submitted.futures position).trans (and_congr_left fun fresh => ?_)
    have other : position ≠ iterator.nextSubmit := fun same => fresh (same ▸ gone)
    show position < iterator.nextSubmit ↔ position < iterator.nextSubmit + 1
    omega
  · exact submitted.ahead position (Nat.le_of_succ_le low)

/-- Submitting the next position. -/
theorem Submitted.submit (inside : iterator.nextSubmit < loader.length)
    (unrestored : iterator.nextSubmit / loader.sizing.width ∉ iterator.restoredBatches) :
    Submitted loader delivered
      { iterator with
        running := insert iterator.nextSubmit iterator.running
        nextSubmit := iterator.nextSubmit + 1 } := by
  have fresh : iterator.nextSubmit / loader.sizing.width ∉ delivered := fun member =>
    unrestored ((submitted.ahead _ (Nat.le_refl _) inside).mp member)
  have unsubmitted : iterator.nextSubmit ∉ iterator.futures := fun member =>
    Nat.lt_irrefl _ ((submitted.futures _).mp member).1
  refine ⟨inside, fun position => ?_, fun position low => ?_, ?_⟩
  · show position ∈ insert iterator.nextSubmit iterator.running ∪ iterator.done ↔ _
    rw [Finset.insert_union, Finset.mem_insert]
    show _ ∨ position ∈ iterator.futures ↔ position < iterator.nextSubmit + 1 ∧ _
    rw [submitted.futures, Nat.lt_succ_iff_lt_or_eq]
    constructor
    · rintro (rfl | ⟨below, absent⟩)
      · exact ⟨Or.inr rfl, fresh⟩
      · exact ⟨Or.inl below, absent⟩
    · rintro ⟨below | same, absent⟩
      · exact Or.inr ⟨below, absent⟩
      · exact Or.inl same
  · exact submitted.ahead position (Nat.le_of_succ_le low)
  · rw [Finset.disjoint_insert_left]
    exact ⟨fun done => unsubmitted (Finset.mem_union_right _ done), submitted.apart⟩

/-- Submitting goes on until the frontier is full or every position is submitted. -/
theorem Submitted.fill {count : Nat} (left : iterator.nextSubmit + count = loader.length) :
    Submitted loader delivered
        (ThreadIterator.fill loader (List.range' iterator.nextSubmit count) iterator) ∧
      Refilled loader iterator
        (ThreadIterator.fill loader (List.range' iterator.nextSubmit count) iterator) := by
  induction count generalizing iterator with
  | zero => exact ⟨submitted, ⟨_, _, rfl⟩, Or.inl left, Nat.le_refl _⟩
  | succ count ih =>
      rw [List.range'_succ, ThreadIterator.fill]
      by_cases full : iterator.depth ≤ iterator.futures.card
      · rw [if_pos full]
        exact ⟨submitted, ⟨_, _, rfl⟩, Or.inr full, Nat.le_refl _⟩
      · have inside : iterator.nextSubmit < loader.length := by omega
        rw [if_neg full]
        by_cases restored :
            iterator.nextSubmit / loader.sizing.width ∈ iterator.restoredBatches
        · rw [if_pos restored]
          obtain ⟨kept, refilled⟩ := ih (submitted.pass inside restored)
            (by show iterator.nextSubmit + 1 + count = _; omega)
          refine ⟨kept, refilled.rest, refilled.filled, Nat.le_trans refilled.lighter ?_⟩
          show 4 * (loader.length - (iterator.nextSubmit + 1)) + 3 * iterator.running.card ≤ _
          omega
        · rw [if_neg restored]
          obtain ⟨kept, refilled⟩ := ih (submitted.submit inside restored)
            (by show iterator.nextSubmit + 1 + count = _; omega)
          refine ⟨kept, refilled.rest, refilled.filled, Nat.le_trans refilled.lighter ?_⟩
          have grown := Finset.card_insert_le iterator.nextSubmit iterator.running
          show 4 * (loader.length - (iterator.nextSubmit + 1)) +
            3 * (insert iterator.nextSubmit iterator.running).card ≤ _
          omega

theorem Submitted.fillFrontier :
    Submitted loader delivered (iterator.fillFrontier loader) ∧
      Refilled loader iterator (iterator.fillFrontier loader) :=
  submitted.fill (Nat.add_sub_cancel' submitted.within)

end

end Submitting

/-! ### The iterator between two steps -/

/-- The iterator between two steps: it has delivered what its state says, its frontier is
full, its queue holds whole batches, and every other whole batch has a completed position
still to come. -/
structure Serving (loader : ThreadLoader) (iterator : ThreadIterator) : Prop where
  valid : iterator.valid = true
  inside : ∀ ordinal ∈ iterator.delivered.delivered, ordinal < loader.batching.count
  position : iterator.position = loader.batching.samples iterator.delivered.delivered
  submitted : Submitted loader iterator.delivered.delivered iterator
  filled : iterator.nextSubmit = loader.length ∨ iterator.depth ≤ iterator.futures.card
  deep : ∀ ordinal < loader.batching.count, ordinal ∉ iterator.delivered.delivered →
    loader.batching.size ordinal ≤ iterator.depth
  queued : iterator.queuedBatches = iterator.readyBatches.toFinset
  once : iterator.readyBatches.Nodup
  whole : ∀ ordinal ∈ iterator.readyBatches, ordinal < loader.batching.count ∧
    ∀ position ∈ loader.batching.batch ordinal, position ∈ iterator.done
  announced : ∀ ordinal < loader.batching.count, ordinal ∉ iterator.readyBatches →
    (∀ position ∈ loader.batching.batch ordinal, position ∈ iterator.done) →
    ∃ position, (position ∈ iterator.completed ∨ position ∈ iterator.callbacks) ∧
      position / loader.sizing.width = ordinal
  known : ∀ position, position ∈ iterator.completed ∨ position ∈ iterator.callbacks →
    position < loader.length

/-- How far an iterator is from its end. -/
def ThreadIterator.remaining (loader : ThreadLoader) (iterator : ThreadIterator) : Nat :=
  4 * (loader.length - iterator.nextSubmit) + 3 * iterator.running.card +
    2 * iterator.callbacks.card + iterator.completed.length +
    (loader.length - iterator.position)

section Steps

variable {loader : ThreadLoader} {iterator : ThreadIterator}

variable {position : Nat}

/-- A dataset call returns. -/
theorem Serving.work (serving : Serving loader iterator) (running : position ∈ iterator.running) :
    let after : ThreadIterator :=
      { iterator with
        running := iterator.running.erase position
        done := insert position iterator.done
        callbacks := insert position iterator.callbacks }
    Serving loader after ∧ after.remaining loader < iterator.remaining loader := by
  intro after
  have undone : position ∉ iterator.done :=
    Finset.disjoint_left.mp serving.submitted.apart running
  have futures : after.futures = iterator.futures := by
    show iterator.running.erase position ∪ insert position iterator.done = _
    rw [Finset.union_insert, ← Finset.insert_union, Finset.insert_erase running]
    rfl
  have below : position < loader.length :=
    Nat.lt_of_lt_of_le ((serving.submitted.futures position).mp
      (Finset.mem_union_left _ running)).1 serving.submitted.within
  constructor
  · refine
      { serving with
        submitted := ⟨serving.submitted.within, fun other => ?_, serving.submitted.ahead, ?_⟩
        filled := futures.symm ▸ serving.filled
        whole := fun ordinal member => ?_
        announced := fun ordinal real unready inDone => ?_
        known := fun other pending => ?_ }
    · rw [futures]
      exact serving.submitted.futures other
    · show Disjoint (iterator.running.erase position) (insert position iterator.done)
      rw [Finset.disjoint_insert_right]
      exact ⟨Finset.notMem_erase _ _, serving.submitted.apart.mono_left (Finset.erase_subset _ _)⟩
    · obtain ⟨real, inDone⟩ := serving.whole ordinal member
      exact ⟨real, fun other inBatch => Finset.mem_insert_of_mem (inDone other inBatch)⟩
    · by_cases own : position / loader.sizing.width = ordinal
      · exact ⟨position, Or.inr (Finset.mem_insert_self _ _), own⟩
      · have old : ∀ other ∈ loader.batching.batch ordinal, other ∈ iterator.done := by
          intro other inBatch
          rcases Finset.mem_insert.mp (inDone other inBatch) with rfl | done
          · exact absurd (Batching.mem_batch.mp inBatch).2 own
          · exact done
        obtain ⟨other, pending, same⟩ := serving.announced ordinal real unready old
        exact ⟨other, pending.imp_right fun member => Finset.mem_insert_of_mem member, same⟩
    · rcases pending with queue | callback
      · exact serving.known other (Or.inl queue)
      · rcases Finset.mem_insert.mp callback with rfl | old
        · exact below
        · exact serving.known other (Or.inr old)
  · have fewer := Finset.card_erase_lt_of_mem running
    have more := Finset.card_insert_le position iterator.callbacks
    show 4 * (loader.length - iterator.nextSubmit) + 3 * (iterator.running.erase position).card +
      2 * (insert position iterator.callbacks).card + iterator.completed.length +
      (loader.length - iterator.position) < _
    unfold ThreadIterator.remaining
    omega

/-- The callback of a future runs. -/
theorem Serving.announce (serving : Serving loader iterator)
    (callback : position ∈ iterator.callbacks) : let after : ThreadIterator :=
      { iterator with
        callbacks := iterator.callbacks.erase position
        completed := iterator.completed ++ [position] }
    Serving loader after ∧ after.remaining loader < iterator.remaining loader := by
  intro after
  have pending : ∀ other, other ∈ after.completed ∨ other ∈ after.callbacks ↔
      other ∈ iterator.completed ∨ other ∈ iterator.callbacks := by
    intro other
    show other ∈ iterator.completed ++ [position] ∨ other ∈ iterator.callbacks.erase position ↔ _
    rw [List.mem_append, List.mem_singleton, Finset.mem_erase]
    by_cases same : other = position
    · subst same
      simp [callback]
    · simp [same]
  constructor
  · refine
      { serving with
        submitted := ⟨serving.submitted.within, serving.submitted.futures,
          serving.submitted.ahead, serving.submitted.apart⟩
        announced := fun ordinal real unready inDone => ?_
        known := fun other member => serving.known other ((pending other).mp member) }
    obtain ⟨other, member, same⟩ := serving.announced ordinal real unready inDone
    exact ⟨other, (pending other).mpr member, same⟩
  · have fewer := Finset.card_erase_lt_of_mem callback
    show 4 * (loader.length - iterator.nextSubmit) + 3 * iterator.running.card +
      2 * (iterator.callbacks.erase position).card + (iterator.completed ++ [position]).length +
      (loader.length - iterator.position) < _
    rw [List.length_append, List.length_singleton]
    unfold ThreadIterator.remaining
    omega

variable {rest : List Nat}

/-- Taking a completed position whose batch is queued or not whole loses nothing. -/
theorem Serving.drop (serving : Serving loader iterator)
    (completed : iterator.completed = position :: rest)
    (idle : position / loader.sizing.width ∈ iterator.readyBatches ∨
      ¬ ∀ sample ∈ loader.batching.batch (position / loader.sizing.width),
        sample ∈ iterator.done) : Serving loader { iterator with completed := rest } := by
  refine
    { serving with
      submitted := ⟨serving.submitted.within, serving.submitted.futures,
        serving.submitted.ahead, serving.submitted.apart⟩
      announced := fun ordinal real unready inDone => ?_
      known := fun other member => serving.known other ?_ }
  · obtain ⟨other, pending, same⟩ := serving.announced ordinal real unready inDone
    refine ⟨other, ?_, same⟩
    rcases pending with queue | callback
    · rw [completed] at queue
      rcases List.mem_cons.mp queue with rfl | later
      · rcases idle with ready | open_
        · exact absurd (same ▸ ready) unready
        · exact absurd (same ▸ inDone) open_
      · exact Or.inl later
    · exact Or.inr callback
  · rw [completed]
    exact member.imp_left fun later => List.mem_cons_of_mem _ later

/-- The consumer takes a completed position from the queue. -/
theorem Serving.observe (serving : Serving loader iterator)
    (completed : iterator.completed = position :: rest) :
    let after := ThreadIterator.observe loader { iterator with completed := rest } position
    Serving loader after ∧ after.remaining loader < iterator.remaining loader ∧
      after.delivered = iterator.delivered := by
  intro after
  have shorter : iterator.completed.length = rest.length + 1 := by
    rw [completed, List.length_cons]
  have lighter : ThreadIterator.remaining loader { iterator with completed := rest } <
      iterator.remaining loader := by
    show 4 * (loader.length - iterator.nextSubmit) + 3 * iterator.running.card +
      2 * iterator.callbacks.card + rest.length + (loader.length - iterator.position) < _
    unfold ThreadIterator.remaining
    omega
  have real : position / loader.sizing.width < loader.batching.count :=
    @Batching.div_lt_count loader.batching _
      (serving.known position (Or.inl (completed ▸ List.mem_cons_self)))
  by_cases queued : position / loader.sizing.width ∈ iterator.queuedBatches
  · have same : after = { iterator with completed := rest } := if_pos queued
    rw [same]
    rw [serving.queued, List.mem_toFinset] at queued
    exact ⟨serving.drop completed (Or.inl queued), lighter, rfl⟩
  · by_cases whole : ∀ sample ∈ loader.batching.batch (position / loader.sizing.width),
        sample ∈ iterator.done
    · have same : after =
          { iterator with
            completed := rest
            readyBatches := iterator.readyBatches ++ [position / loader.sizing.width]
            queuedBatches :=
              insert (position / loader.sizing.width) iterator.queuedBatches } :=
        (if_neg queued).trans (if_pos whole)
      rw [same]
      rw [serving.queued, List.mem_toFinset] at queued
      refine ⟨?_, lighter, rfl⟩
      refine
        { serving with
          submitted := ⟨serving.submitted.within, serving.submitted.futures,
            serving.submitted.ahead, serving.submitted.apart⟩
          queued := ?_
          once := ?_
          whole := fun ordinal member => ?_
          announced := fun ordinal below unready inDone => ?_
          known := fun other member => serving.known other ?_ }
      · ext ordinal
        simp [serving.queued, or_comm]
      · rw [List.nodup_append]
        refine ⟨serving.once, List.nodup_singleton _, fun one member two single equal => ?_⟩
        rw [List.mem_singleton] at single
        exact queued (single ▸ equal ▸ member)
      · rcases List.mem_append.mp member with old | new
        · exact serving.whole ordinal old
        · obtain rfl := List.mem_singleton.mp new
          exact ⟨real, whole⟩
      · rw [List.mem_append, List.mem_singleton, not_or] at unready
        obtain ⟨other, pending, own⟩ := serving.announced ordinal below unready.1 inDone
        refine ⟨other, ?_, own⟩
        rcases pending with queue | callback
        · rw [completed] at queue
          rcases List.mem_cons.mp queue with rfl | later
          · exact absurd own.symm unready.2
          · exact Or.inl later
        · exact Or.inr callback
      · rw [completed]
        exact member.imp_left fun later => List.mem_cons_of_mem _ later
    · have same : after = { iterator with completed := rest } :=
        (if_neg queued).trans (if_neg whole)
      rw [same]
      exact ⟨serving.drop completed (Or.inr whole), lighter, rfl⟩

/-- The futures of positions that are done are popped. -/
theorem popAll_eq {positions : List Nat} (distinct : positions.Nodup)
    (inDone : ∀ position ∈ positions, position ∈ iterator.done) :
    ThreadIterator.popAll positions iterator =
      some (.ok { iterator with done := iterator.done \ positions.toFinset }) := by
  induction positions generalizing iterator with
  | nil => simp [ThreadIterator.popAll]
  | cons position positions ih =>
      rw [List.nodup_cons] at distinct
      have later : ∀ other ∈ positions, other ∈ iterator.done.erase position := by
        intro other member
        exact Finset.mem_erase.mpr ⟨fun same => distinct.1 (same ▸ member),
          inDone other (List.mem_cons_of_mem _ member)⟩
      rw [ThreadIterator.popAll, if_pos (inDone position List.mem_cons_self),
        ih distinct.2 later, List.toFinset_cons]
      simp only [← Finset.erase_sdiff_comm, Finset.sdiff_insert]

/-- Popping the futures of a whole batch leaves those of the batches not delivered. -/
theorem Submitted.pop {delivered : Finset Nat} (submitted : Submitted loader delivered iterator)
    {ordinal : Nat} (whole : ∀ position ∈ loader.batching.batch ordinal, position ∈ iterator.done)
    (readyBatches : List Nat) (queuedBatches : Finset Nat) :
    Submitted loader (insert ordinal delivered)
      { iterator with
        readyBatches := readyBatches
        queuedBatches := queuedBatches
        done := iterator.done \ (loader.batching.batch ordinal).toFinset } := by
  have own : ∀ position < loader.length, position / loader.sizing.width = ordinal →
      position ∈ iterator.done := fun position below same =>
    whole position (Batching.mem_batch.mpr ⟨below, same⟩)
  have other : ∀ position, position ∈ iterator.done →
      (position ∈ (loader.batching.batch ordinal).toFinset ↔
        position / loader.sizing.width = ordinal) := by
    intro position done
    have below := ((submitted.futures position).mp (Finset.mem_union_right _ done)).1
    rw [List.mem_toFinset, Batching.mem_batch]
    exact and_iff_right (Nat.lt_of_lt_of_le below submitted.within)
  refine ⟨submitted.within, fun position => ?_, fun position low below => ?_,
    submitted.apart.mono_right Finset.sdiff_subset⟩
  · show position ∈ iterator.running ∪ (iterator.done \ _) ↔
      position < iterator.nextSubmit ∧ _
    rw [Finset.mem_insert, not_or, Finset.mem_union, Finset.mem_sdiff]
    have futures := submitted.futures position
    rw [ThreadIterator.futures, Finset.mem_union] at futures
    constructor
    · rintro (running | ⟨done, apart⟩)
      · obtain ⟨below, fresh⟩ := futures.mp (Or.inl running)
        refine ⟨below, fun same => ?_, fresh⟩
        exact Finset.disjoint_left.mp submitted.apart running
          (own position (Nat.lt_of_lt_of_le below submitted.within) same)
      · obtain ⟨below, fresh⟩ := futures.mp (Or.inr done)
        exact ⟨below, fun same => apart ((other position done).mpr same), fresh⟩
    · rintro ⟨below, different, fresh⟩
      rcases futures.mpr ⟨below, fresh⟩ with running | done
      · exact Or.inl running
      · exact Or.inr ⟨done, fun member => different ((other position done).mp member)⟩
  · have different : position / loader.sizing.width ≠ ordinal := by
      intro same
      have submittedBefore := (submitted.futures position).mp
        (Finset.mem_union_right _ (own position below same))
      exact Nat.not_lt.mpr low submittedBefore.1
    rw [Finset.mem_insert, or_iff_right different]
    exact submitted.ahead position low below

/-- The first batch queued is delivered. -/
theorem Serving.take (serving : Serving loader iterator) {ordinal : Nat}
    (ready : iterator.readyBatches = ordinal :: rest) :
    ∃ after, ThreadIterator.take loader iterator ordinal rest =
        some (.delivered (loader.batching.batch ordinal), after) ∧
      Serving loader after ∧ after.remaining loader < iterator.remaining loader ∧
      ordinal < loader.batching.count ∧ ordinal ∉ iterator.delivered.delivered ∧
      after.delivered.delivered = insert ordinal iterator.delivered.delivered := by
  have member : ordinal ∈ iterator.readyBatches := ready ▸ List.mem_cons_self
  obtain ⟨real, inDone⟩ := serving.whole ordinal member
  have once := serving.once
  rw [ready, List.nodup_cons] at once
  obtain ⟨first, inBatch⟩ := List.exists_mem_of_ne_nil _ (Batching.batch_ne_nil real)
  have fresh : ordinal ∉ iterator.delivered.delivered := by
    have absent := ((serving.submitted.futures first).mp
      (Finset.mem_union_right _ (inDone first inBatch))).2
    exact (Batching.mem_batch.mp inBatch).2 ▸ absent
  have popped := serving.submitted.pop inDone rest (iterator.queuedBatches.erase ordinal)
  obtain ⟨kept, refilled⟩ := popped.fillFrontier
  obtain ⟨marked, markEq⟩ := DeliveredBatchState.exists_mark fresh
  have grown := (DeliveredBatchState.delivered_of_mark markEq).2
  obtain ⟨running, nextSubmit, filledEq⟩ := refilled.rest
  rw [filledEq] at kept refilled
  have queued : ordinal ∈ iterator.queuedBatches := by
    rw [serving.queued, List.mem_toFinset]
    exact member
  let after : ThreadIterator :=
    { iterator with
      position := iterator.position + loader.batching.size ordinal
      nextSubmit := nextSubmit
      running := running
      done := iterator.done \ (loader.batching.batch ordinal).toFinset
      readyBatches := rest
      queuedBatches := iterator.queuedBatches.erase ordinal
      delivered := marked }
  have popEq : ThreadIterator.popAll (loader.batching.batch ordinal)
      { iterator with
        readyBatches := rest
        queuedBatches := iterator.queuedBatches.erase ordinal } =
      some (.ok
        { iterator with
          readyBatches := rest
          queuedBatches := iterator.queuedBatches.erase ordinal
          done := iterator.done \ (loader.batching.batch ordinal).toFinset }) :=
    popAll_eq (Batching.batch_nodup ordinal) inDone
  have samples : iterator.position + loader.batching.size ordinal =
      loader.batching.samples marked.delivered := by
    rw [grown, Batching.samples_insert fresh, serving.position]
  have inside : ∀ other ∈ marked.delivered, other < loader.batching.count := by
    rw [grown]
    intro other delivered
    rcases Finset.mem_insert.mp delivered with rfl | old
    · exact real
    · exact serving.inside other old
  refine ⟨after, ?_, ?_, ?_, real, fresh, grown⟩
  · rw [ThreadIterator.take, if_neg (not_not.mpr queued)]
    simp only [popEq, filledEq, markEq]
    rfl
  · refine
      { valid := serving.valid
        inside := inside
        position := samples
        submitted := ?_
        filled := refilled.filled
        deep := fun other below absent => serving.deep other below fun old =>
          absent (grown ▸ Finset.mem_insert_of_mem old)
        queued := ?_
        once := once.2
        whole := fun other later => ?_
        announced := fun other below unready inAfter => ?_
        known := serving.known }
    · show Submitted loader marked.delivered after
      rw [grown]
      exact ⟨kept.within, kept.futures, kept.ahead, kept.apart⟩
    · show iterator.queuedBatches.erase ordinal = rest.toFinset
      rw [serving.queued, ready, List.toFinset_cons, Finset.erase_insert]
      rw [List.mem_toFinset]
      exact once.1
    · obtain ⟨below, old⟩ := serving.whole other (ready ▸ List.mem_cons_of_mem _ later)
      refine ⟨below, fun position inOther => ?_⟩
      rw [Finset.mem_sdiff, List.mem_toFinset]
      refine ⟨old position inOther, fun shared => once.1 ?_⟩
      have same := (Batching.mem_batch.mp shared).2.symm.trans (Batching.mem_batch.mp inOther).2
      exact same ▸ later
    · have old : ∀ position ∈ loader.batching.batch other, position ∈ iterator.done :=
        fun position inOther => (Finset.mem_sdiff.mp (inAfter position inOther)).1
      refine serving.announced other below (fun before => ?_) old
      rw [ready, List.mem_cons] at before
      rcases before with rfl | later
      · exact (Finset.mem_sdiff.mp (inAfter first inBatch)).2 (List.mem_toFinset.mpr inBatch)
      · exact unready later
  · have more : 0 < loader.batching.size ordinal := Batching.size_pos_iff.mpr real
    have most : loader.batching.samples marked.delivered ≤ loader.length :=
      Batching.samples_le_length inside
    have lighter : 4 * (loader.length - nextSubmit) + 3 * running.card ≤
        4 * (loader.length - iterator.nextSubmit) + 3 * iterator.running.card :=
      refilled.lighter
    show 4 * (loader.length - nextSubmit) + 3 * running.card + 2 * iterator.callbacks.card +
      iterator.completed.length +
      (loader.length - (iterator.position + loader.batching.size ordinal)) < _
    unfold ThreadIterator.remaining
    omega

/-- With every call done and every completion taken, a batch that is missing is queued:
the frontier has room for the next batch, so it is not full of a part of it. -/
theorem Serving.queued_of_idle (serving : Serving loader iterator)
    (early : iterator.position < loader.length) (running : iterator.running = ∅)
    (callbacks : iterator.callbacks = ∅) (completed : iterator.completed = []) :
    iterator.readyBatches ≠ [] := by
  intro unready
  have future : ∀ position < iterator.nextSubmit,
      position / loader.sizing.width ∉ iterator.delivered.delivered →
      position ∈ iterator.done := by
    intro position below fresh
    have member := (serving.submitted.futures position).mpr ⟨below, fresh⟩
    rwa [ThreadIterator.futures, running, Finset.empty_union] at member
  -- a missing batch has a position that is not submitted
  have open_ : ∀ ordinal < loader.batching.count,
      ordinal ∉ iterator.delivered.delivered →
      ∃ position ∈ loader.batching.batch ordinal, iterator.nextSubmit ≤ position := by
    intro ordinal real absent
    by_contra submitted
    have whole : ∀ position ∈ loader.batching.batch ordinal, position ∈ iterator.done := by
      intro position inBatch
      refine future position ?_ ?_
      · by_contra late
        exact submitted ⟨position, inBatch, Nat.le_of_not_lt late⟩
      · rw [show position / loader.sizing.width = ordinal from (Batching.mem_batch.mp inBatch).2]
        exact absent
    obtain ⟨position, pending, -⟩ := serving.announced ordinal real
      (unready ▸ List.not_mem_nil) whole
    rw [completed, callbacks] at pending
    simp at pending
  have fewer := serving.position ▸ early
  obtain ⟨ordinal, real, absent⟩ := Batching.exists_missing fewer
  obtain ⟨position, inBatch, late⟩ := open_ ordinal real absent
  have below : position < loader.length := (Batching.mem_batch.mp inBatch).1
  have submits : iterator.nextSubmit < loader.length := Nat.lt_of_le_of_lt late below
  have full : iterator.depth ≤ iterator.done.card := by
    have filled := serving.filled.resolve_left (Nat.ne_of_lt submits)
    rwa [ThreadIterator.futures, running, Finset.empty_union] at filled
  -- every position done is in the batch submitted next
  have next : ∀ other ∈ iterator.done, other < iterator.nextSubmit ∧
      other / loader.sizing.width ∉ iterator.delivered.delivered ∧
      other / loader.sizing.width = iterator.nextSubmit / loader.sizing.width := by
    intro other done
    obtain ⟨before, fresh⟩ := (serving.submitted.futures other).mp
      (Finset.mem_union_right _ done)
    have counted : other / loader.sizing.width < loader.batching.count :=
      @Batching.div_lt_count loader.batching _ (Nat.lt_trans before submits)
    obtain ⟨last, inOther, after⟩ := open_ _ counted fresh
    have same : last / loader.sizing.width = other / loader.sizing.width :=
      (Batching.mem_batch.mp inOther).2
    have low := Nat.div_le_div_right (c := loader.sizing.width) (Nat.le_of_lt before)
    have high := Nat.div_le_div_right (c := loader.sizing.width) after
    exact ⟨before, fresh, by omega⟩
  have deep := serving.deep ordinal real absent
  have positive : 0 < loader.batching.size ordinal := Batching.size_pos_iff.mpr real
  obtain ⟨one, done⟩ := Finset.card_pos.mp (Nat.lt_of_lt_of_le positive (deep.trans full))
  obtain ⟨before, fresh, own⟩ := next one done
  have counted : iterator.nextSubmit / loader.sizing.width < loader.batching.count :=
    @Batching.div_lt_count loader.batching _ submits
  have subset : insert iterator.nextSubmit iterator.done ⊆
      (loader.batching.batch (iterator.nextSubmit / loader.sizing.width)).toFinset := by
    intro other member
    rw [List.mem_toFinset, Batching.mem_batch]
    rcases Finset.mem_insert.mp member with rfl | old
    · exact ⟨submits, rfl⟩
    · obtain ⟨low, -, same⟩ := next other old
      exact ⟨Nat.lt_trans low submits, same⟩
  have unsubmitted : iterator.nextSubmit ∉ iterator.done := fun member =>
    Nat.lt_irrefl _ (next _ member).1
  have most := Finset.card_le_card subset
  rw [Finset.card_insert_of_notMem unsubmitted,
    List.toFinset_card_of_nodup (Batching.batch_nodup _), Batching.length_batch] at most
  have size := serving.deep _ counted (own ▸ fresh)
  omega

/-! One pass of the consumer, by what it finds. -/

section

variable (valid : iterator.valid = true)

include valid

theorem next_of_late (late : loader.length ≤ iterator.position) :
    ThreadIterator.next loader iterator =
      some (.exhausted, { iterator with complete := true }) := by
  cases iterator
  cases valid
  simp only [ThreadIterator.next, Bool.not_true, Bool.false_eq_true, if_false, if_pos late]

theorem next_of_ready (early : iterator.position < loader.length) {ordinal : Nat}
    (ready : iterator.readyBatches = ordinal :: rest) :
    ThreadIterator.next loader iterator =
      ThreadIterator.take loader iterator ordinal rest := by
  cases iterator
  cases valid
  cases ready
  simp only [ThreadIterator.next, Bool.not_true, Bool.false_eq_true, if_false,
    if_neg (Nat.not_le.mpr early)]

theorem next_of_completed (early : iterator.position < loader.length)
    (unready : iterator.readyBatches = []) (completed : iterator.completed = position :: rest) :
    ThreadIterator.next loader iterator =
      some (.quiet, ThreadIterator.observe loader { iterator with completed := rest }
        position) := by
  cases iterator
  cases valid
  cases unready
  cases completed
  simp only [ThreadIterator.next, Bool.not_true, Bool.false_eq_true, if_false,
    if_neg (Nat.not_le.mpr early)]

theorem next_of_idle (early : iterator.position < loader.length)
    (unready : iterator.readyBatches = []) (completed : iterator.completed = []) :
    ThreadIterator.next loader iterator = some (.waiting, iterator) := by
  cases iterator
  cases valid
  cases unready
  cases completed
  simp only [ThreadIterator.next, Bool.not_true, Bool.false_eq_true, if_false,
    if_neg (Nat.not_le.mpr early)]

end

/-- Some step always ends the run or brings its end nearer. -/
theorem Serving.nearer (serving : Serving loader iterator) :
    ∃ label event after, ThreadIterator.step loader iterator label = some (event, after) ∧
      (event.Finished ∨ after.remaining loader < iterator.remaining loader) := by
  by_cases early : iterator.position < loader.length
  · cases ready : iterator.readyBatches with
    | cons ordinal rest =>
        obtain ⟨after, takeEq, -, less, -⟩ := serving.take ready
        exact ⟨.next, .delivered (loader.batching.batch ordinal), after,
          (next_of_ready serving.valid early ready).trans takeEq, Or.inr less⟩
    | nil =>
        cases completed : iterator.completed with
        | cons position rest =>
            obtain ⟨-, less, -⟩ := serving.observe completed
            exact ⟨.next, .quiet, _, next_of_completed serving.valid early ready completed,
              Or.inr less⟩
        | nil =>
            by_cases callbacks : iterator.callbacks = ∅
            · by_cases running : iterator.running = ∅
              · exact absurd ready (serving.queued_of_idle early running callbacks completed)
              · obtain ⟨position, member⟩ := Finset.nonempty_iff_ne_empty.mpr running
                exact ⟨.work position, .quiet, _, if_pos member,
                  Or.inr (serving.work member).2⟩
            · obtain ⟨position, member⟩ := Finset.nonempty_iff_ne_empty.mpr callbacks
              exact ⟨.announce position, .quiet, _, if_pos member,
                Or.inr (serving.announce member).2⟩
  · have late : loader.length ≤ iterator.position := Nat.le_of_not_lt early
    exact ⟨.next, .exhausted, { iterator with complete := true },
      next_of_late serving.valid late, Or.inl trivial⟩

/-- What a step leaves of an iterator, and whether it delivers. -/
abbrev Served (loader : ThreadLoader) : ThreadIterator → Yield → ThreadIterator → Prop :=
  Moved Yield.batch Yield.Failed Yield.Finished loader.batching.everything (Serving loader)
    fun iterator => loader.batching.contents iterator.delivered.delivered

/-- A step that delivers nothing. -/
theorem Served.silent {event : Yield} {after : ThreadIterator}
    (silent : event = .quiet ∨ event = .waiting) (kept : Serving loader after)
    (same : after.delivered = iterator.delivered) : Served loader iterator event after := by
  have still : loader.batching.contents after.delivered.delivered =
      loader.batching.contents iterator.delivered.delivered := by
    rw [same]
  rcases silent with rfl | rfl
  · exact ⟨kept, fun failed => failed, Or.inl ⟨rfl, still⟩, fun ended => False.elim ended⟩
  · exact ⟨kept, fun failed => failed, Or.inl ⟨rfl, still⟩, fun ended => False.elim ended⟩

/-- Every step keeps the iterator as it should be. -/
theorem Serving.step (serving : Serving loader iterator) {label : ThreadIterator.Label}
    {event : Yield} {after : ThreadIterator}
    (stepEq : ThreadIterator.step loader iterator label = some (event, after)) :
    Served loader iterator event after := by
  cases label with
  | work position =>
      simp only [ThreadIterator.step] at stepEq
      split at stepEq
      · rename_i running
        cases stepEq
        exact Served.silent (Or.inl rfl) (serving.work running).1 rfl
      · cases stepEq
  | announce position =>
      simp only [ThreadIterator.step] at stepEq
      split at stepEq
      · rename_i callback
        cases stepEq
        exact Served.silent (Or.inl rfl) (serving.announce callback).1 rfl
      · cases stepEq
  | next =>
      replace stepEq : ThreadIterator.next loader iterator = some (event, after) := stepEq
      by_cases early : iterator.position < loader.length
      · cases ready : iterator.readyBatches with
        | cons ordinal rest =>
            obtain ⟨other, takeEq, kept, -, real, fresh, grown⟩ := serving.take ready
            rw [next_of_ready serving.valid early ready, takeEq] at stepEq
            cases stepEq
            refine ⟨kept, fun failed => failed, Or.inr ⟨_, rfl, fun member => ?_, ?_⟩,
              fun ended => False.elim ended⟩
            · exact fresh ((Batching.batch_mem_contents real).mp member)
            · rw [grown, Batching.contents_insert]
        | nil =>
            cases completed : iterator.completed with
            | cons position rest =>
                obtain ⟨kept, -, same⟩ := serving.observe completed
                rw [next_of_completed serving.valid early ready completed] at stepEq
                cases stepEq
                exact Served.silent (Or.inl rfl) kept same
            | nil =>
                rw [next_of_idle serving.valid early ready completed] at stepEq
                cases stepEq
                exact Served.silent (Or.inr rfl) serving rfl
      · have late : loader.length ≤ iterator.position := Nat.le_of_not_lt early
        rw [next_of_late serving.valid late] at stepEq
        cases stepEq
        refine ⟨?_, fun failed => failed, Or.inl ⟨rfl, rfl⟩, fun _ =>
          Batching.contents_of_samples serving.inside (serving.position ▸ late)⟩
        exact
          { serving with
            submitted := ⟨serving.submitted.within, serving.submitted.futures,
              serving.submitted.ahead, serving.submitted.apart⟩ }

/-- The iterator hands out the batches of the epoch it has not delivered, each once. -/
theorem thread_handout :
    Handout (ThreadIterator.machine loader) Yield.batch Yield.Failed Yield.Finished
      loader.batching.everything (Serving loader)
      (fun iterator => loader.batching.contents iterator.delivered.delivered)
      (ThreadIterator.remaining loader) :=
  Handout.of_moves (fun _ serving => Batching.contents_subset serving.inside)
    (fun _ _ _ _ serving stepEq => serving.step stepEq) (fun _ serving => serving.nearer)

end Steps

/-! ### Starting from a coordinate -/

/-- The iterator before its first submission. -/
def ThreadIterator.opened (loader : ThreadLoader) (state : DeliveredBatchState) :
    ThreadIterator :=
  let resumePosition := min loader.length (state.base * loader.sizing.width)
  let span := if state.ahead = ∅ then 0 else state.ahead.sup id * loader.sizing.width +
    loader.sizing.width - resumePosition
  { position := resumePosition + loader.batching.samples state.ahead
    nextSubmit := resumePosition
    depth := min (loader.length - resumePosition) (max loader.sizing.frontierDepth span)
    complete := false
    valid := true
    restoredBatches := state.ahead
    running := ∅
    done := ∅
    callbacks := ∅
    completed := []
    readyBatches := []
    queuedBatches := ∅
    delivered := state }

theorem ThreadIterator.start_eq (loader : ThreadLoader) {state : DeliveredBatchState}
    (inside : ∀ ordinal ∈ state.delivered, ordinal < loader.batching.count) :
    ThreadIterator.start loader state.base state.bitmap =
      .ok (if loader.length = 0 then ThreadIterator.opened loader state
        else (ThreadIterator.opened loader state).fillFrontier loader) := by
  have base := DeliveredBatchState.base_le_count inside
  have resumed : (resumeSamplePosition state.base loader.sizing.width loader.length).mapError
      Raised.valueError = .ok (min loader.length (state.base * loader.sizing.width)) := by
    rw [resumeSamplePosition]
    exact congrArg (Except.mapError Raised.valueError) (if_neg (Nat.not_lt.mpr base))
  have restored := restoreDelivered_bitmap state inside
  rw [ThreadIterator.start, resumed]
  show (restoreDelivered state.base state.bitmap loader.batching.count >>= _) = _
  rw [restored]
  rfl

/-- The iterator of a delivered state has delivered what the state says. -/
theorem ThreadIterator.start_spec (loader : ThreadLoader) {state : DeliveredBatchState}
    (inside : ∀ ordinal ∈ state.delivered, ordinal < loader.batching.count) :
    ∃ iterator, ThreadIterator.start loader state.base state.bitmap = .ok iterator ∧
      Serving loader iterator ∧ iterator.delivered = state := by
  have started := ThreadIterator.start_eq loader inside
  let iterator := ThreadIterator.opened loader state
  have submitted : Submitted loader state.delivered iterator := by
    refine ⟨Nat.min_le_left _ _, fun position => ?_, fun position low below => ?_,
      Finset.disjoint_empty_left _⟩
    · refine iff_of_false (Finset.notMem_empty _) ?_
      rintro ⟨before, fresh⟩
      have early : position < state.base * loader.sizing.width :=
        Nat.lt_of_lt_of_le before (Nat.min_le_right _ _)
      rw [← Nat.div_lt_iff_lt_mul loader.width_pos] at early
      exact fresh (DeliveredBatchState.mem_delivered.mpr (Or.inl early))
    · have past : state.base * loader.sizing.width ≤ position := by
        have start : min loader.length (state.base * loader.sizing.width) ≤ position := low
        omega
      rw [← Nat.le_div_iff_mul_le loader.width_pos] at past
      rw [DeliveredBatchState.mem_delivered]
      exact or_iff_right (Nat.not_lt.mpr past)
  have deep : ∀ ordinal < loader.batching.count, ordinal ∉ state.delivered →
      loader.batching.size ordinal ≤ iterator.depth := by
    intro ordinal real absent
    rw [DeliveredBatchState.mem_delivered, not_or] at absent
    have later := Nat.mul_le_mul_right loader.sizing.width (Nat.le_of_not_lt absent.1)
    have low : ordinal * loader.sizing.width < loader.length := by
      rwa [Batching.lt_count_iff] at real
    have roomy := loader.sizing.width_le_depth
    simp only [iterator, ThreadIterator.opened, Batching.size]
    show min loader.sizing.width (loader.length - ordinal * loader.sizing.width) ≤ _
    omega
  have refilled : ∃ after, ThreadIterator.start loader state.base state.bitmap = .ok after ∧
      Submitted loader state.delivered after ∧ Refilled loader iterator after := by
    by_cases empty : loader.length = 0
    · refine ⟨iterator, started.trans (congrArg Except.ok (if_pos empty)), submitted,
        ⟨_, _, rfl⟩, Or.inl ?_, Nat.le_refl _⟩
      show min loader.length (state.base * loader.sizing.width) = loader.length
      rw [empty, Nat.zero_min]
    · exact ⟨_, started.trans (congrArg Except.ok (if_neg empty)), submitted.fillFrontier⟩
  obtain ⟨after, startEq, kept, ⟨running, nextSubmit, rfl⟩, filled, -⟩ := refilled
  refine ⟨_, startEq, ?_, rfl⟩
  exact
    { valid := rfl
      inside := inside
      position := (DeliveredBatchState.samples_delivered loader.batching state).symm
      submitted := kept
      filled := filled
      deep := deep
      queued := rfl
      once := List.nodup_nil
      whole := fun ordinal member => absurd member List.not_mem_nil
      announced := fun ordinal real _ inDone => by
        obtain ⟨position, inBatch⟩ :=
          List.exists_mem_of_ne_nil _ (Batching.batch_ne_nil real)
        exact absurd (inDone position inBatch) (Finset.notMem_empty _)
      known := fun position pending => by
        rcases pending with queue | callback
        · exact absurd queue List.not_mem_nil
        · exact absurd callback (Finset.notMem_empty _) }

end Hyperloader.Thread
