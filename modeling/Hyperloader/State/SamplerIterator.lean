/-
Module: Hyperloader.State.SamplerIterator
Purpose: Delivery from user samplers and batch samplers, state/streaming_iterator.py and
  state/sampler_iterator.py, and the courses of batches that the iterators follow.
Trusted boundary: as in `Sampler`; the process pool returns a batch's value or raises.
Main exports: StreamingSamplerIterator, UserBatchSamplerIterator, Course, bisimilar
-/
import Hyperloader.Foundations.Transition
import Hyperloader.State.Sampler

namespace Hyperloader.State

open Foundations

/-- A batch as the process pool executes it: each index beside its coordinate. -/
structure SampledBatch (Index : Type) where
  epoch : Nat
  ordinal : Nat
  entries : List (Nat × Index)
deriving DecidableEq

/-- `failed` is an exception of the pool, which has closed the loader. -/
inductive SampledYield (Index : Type) where
  | delivered (batch : SampledBatch Index)
  | exhausted
  | failed
  | raised (error : SamplerError)
deriving DecidableEq

def SampledYield.IsDelivered {Index : Type} (event : SampledYield Index) : Prop :=
  ∃ batch, event = .delivered batch

/-- The indices from a coordinate on. -/
def entriesFrom {Index : Type} (position : Nat) (indices : List Index) : List (Nat × Index) :=
  indices.mapIdx fun offset index => (position + offset, index)

section Iterators

variable {Index : Type} (pickle : Index → List UInt8)

/-! ### Samplers -/

/-- The loop of `__next__` over `has_index` and `index`. -/
def Sampler.gather (sampler : Sampler Index) (position : Nat) :
    Nat → Reading (updateChecksum pickle) 0 (List Index)
  | 0 => return []
  | remaining + 1 => do
      if ← sampler.hasIndex pickle position then
        let index ← sampler.index pickle position
        let rest ← sampler.gather (position + 1) remaining
        return index :: rest
      else return []

structure StreamingSamplerIterator where
  epoch : Nat
  position : Nat
  delivered : Nat
  complete : Bool
  valid : Bool
  read : Rolling (updateChecksum pickle) 0

namespace StreamingSamplerIterator

/-- `StreamingSamplerIterator.__init__` over a new runtime. -/
def start (sampler : Sampler Index) (epoch cursorBatches expectedChecksum : Nat) :
    Except SamplerError (StreamingSamplerIterator pickle) := do
  let runtime ← SamplerRuntime.new pickle sampler cursorBatches expectedChecksum
  match sampler.probe pickle runtime.startSamples runtime.read with
  | .error error _ => .error error
  | .ok _ read => .ok ⟨epoch, runtime.startSamples, cursorBatches, false, true, read⟩

def INACTIVE : String := "streaming sampler iterator is no longer active"

/-- `__next__`, where the pool executes the batch or raises. -/
def next (sampler : Sampler Index) (executes : Bool) (iterator : StreamingSamplerIterator pickle) :
    SampledYield Index × StreamingSamplerIterator pickle :=
  if !iterator.valid then (.raised (.runtimeError INACTIVE), iterator)
  else
    match sampler.gather pickle iterator.position sampler.width iterator.read with
    | .error error read => (.raised error, { iterator with read })
    | .ok indices read =>
        if indices.isEmpty ∨
            (indices.length < sampler.width ∧ sampler.batchSize.isSome ∧ sampler.dropLast) then
          (.exhausted, { iterator with read, complete := true })
        else if !executes then (.failed, { iterator with read, valid := false })
        else
          (.delivered ⟨iterator.epoch, iterator.delivered, entriesFrom iterator.position indices⟩,
            { iterator with
              read
              position := iterator.position + indices.length
              delivered := iterator.delivered + 1 })

def machine (sampler : Sampler Index) :
    Machine (StreamingSamplerIterator pickle) Bool (SampledYield Index) where
  step iterator executes := some (next pickle sampler executes iterator)

/-- `sampler_checksum` -/
def samplerChecksum (sampler : Sampler Index) (iterator : StreamingSamplerIterator pickle) :
    Except SamplerError UInt32 :=
  match sampler.checksumAt pickle iterator.position iterator.read with
  | .ok checksum _ => .ok checksum
  | .error error _ => .error error

end StreamingSamplerIterator

/-! ### Batch samplers -/

/-- The batch at an ordinal with its sample offset, where there is one. -/
def BatchSampler.atOrdinal (sampler : BatchSampler Index) (ordinal : Nat) :
    Reading (updateBatch pickle) (0, 0) (Option (List Index × Nat)) := do
  if ← sampler.hasBatch pickle ordinal then
    let batch ← sampler.batch pickle ordinal
    return some (batch, ← sampler.sampleOffset pickle ordinal)
  else return none

structure UserBatchSamplerIterator where
  epoch : Nat
  ordinal : Nat
  complete : Bool
  valid : Bool
  read : Rolling (updateBatch pickle) (0, 0)

namespace UserBatchSamplerIterator

/-- `UserBatchSamplerIterator.__init__` over a new runtime. -/
def start (sampler : BatchSampler Index) (epoch cursorBatches expectedChecksum : Nat) :
    Except SamplerError (UserBatchSamplerIterator pickle) := do
  let runtime ← BatchSamplerRuntime.new pickle sampler cursorBatches expectedChecksum
  match sampler.probe pickle runtime.startBatch runtime.read with
  | .error error _ => .error error
  | .ok _ read => .ok ⟨epoch, runtime.startBatch, false, true, read⟩

def INACTIVE : String := "batch-sampler iterator is no longer active"

def next (sampler : BatchSampler Index) (executes : Bool)
    (iterator : UserBatchSamplerIterator pickle) :
    SampledYield Index × UserBatchSamplerIterator pickle :=
  if !iterator.valid then (.raised (.runtimeError INACTIVE), iterator)
  else
    match sampler.atOrdinal pickle iterator.ordinal iterator.read with
    | .error error read => (.raised error, { iterator with read })
    | .ok none read => (.exhausted, { iterator with read, complete := true })
    | .ok (some (batch, sampleOffset)) read =>
        if !executes then (.failed, { iterator with read, valid := false })
        else
          (.delivered ⟨iterator.epoch, iterator.ordinal, entriesFrom sampleOffset batch⟩,
            { iterator with read, ordinal := iterator.ordinal + 1 })

def machine (sampler : BatchSampler Index) :
    Machine (UserBatchSamplerIterator pickle) Bool (SampledYield Index) where
  step iterator executes := some (next pickle sampler executes iterator)

/-- `delivered_batches` -/
def deliveredBatches (iterator : UserBatchSamplerIterator pickle) : Nat := iterator.ordinal

/-- `sampler_checksum` -/
def samplerChecksum (sampler : BatchSampler Index) (iterator : UserBatchSamplerIterator pickle) :
    Except SamplerError UInt32 :=
  match sampler.checksumAt pickle iterator.ordinal iterator.read with
  | .ok checksum _ => .ok checksum
  | .error error _ => .error error

end UserBatchSamplerIterator

end Iterators

/-! ### Courses of batches -/

/-- What is handed out from a place on, and the place behind it. -/
structure Course (Index : Type) where
  inactive : String
  take : Nat → Option (List (Nat × Index) × Nat)

/-- How far an iterator has come on its course. -/
structure Standing where
  epoch : Nat
  place : Nat
  delivered : Nat
  complete : Bool
  valid : Bool

namespace Course

variable {Index : Type} (course : Course Index)

def next (executes : Bool) (standing : Standing) : SampledYield Index × Standing :=
  if !standing.valid then (.raised (.runtimeError course.inactive), standing)
  else
    match course.take standing.place with
    | none => (.exhausted, { standing with complete := true })
    | some (entries, place) =>
        if !executes then (.failed, { standing with valid := false })
        else
          (.delivered ⟨standing.epoch, standing.delivered, entries⟩,
            { standing with place, delivered := standing.delivered + 1 })

def machine : Machine Standing Bool (SampledYield Index) where
  step standing executes := some (course.next executes standing)

end Course

/-- The batches of a sampler from a sample on. -/
def Sampler.course {Index : Type} (sampler : Sampler Index) : Course Index where
  inactive := StreamingSamplerIterator.INACTIVE
  take position :=
    let indices := drawn sampler.produced position sampler.width
    if indices.isEmpty ∨
        (indices.length < sampler.width ∧ sampler.batchSize.isSome ∧ sampler.dropLast) then none
    else some (entriesFrom position indices, position + indices.length)

/-- The batches of a batch sampler from one on. -/
def BatchSampler.course {Index : Type} (sampler : BatchSampler Index) : Course Index where
  inactive := UserBatchSamplerIterator.INACTIVE
  take ordinal := (sampler.produced ordinal).map fun batch =>
    (entriesFrom (drawn sampler.produced 0 ordinal).flatten.length batch, ordinal + 1)

/-! ### Iterators on their courses -/

section Follows

variable {Index : Type} {pickle : Index → List UInt8}

theorem gather_ensures (sampler : Sampler Index) {read : Rolling (updateChecksum pickle) 0}
    (reads : read.Reads sampler.produced) {position : Nat}
    (within : position ≤ read.items.length) (count : Nat) :
    Ensures (sampler.gather pickle position count) read
      (fun indices after => indices = drawn sampler.produced position count ∧
        after.Reads sampler.produced ∧ position + indices.length ≤ after.items.length)
      (fun _ _ => False) := by
  induction count generalizing read position with
  | zero => exact ensures_pure ⟨rfl, reads, within⟩
  | succ count ih =>
      unfold Sampler.gather
      apply ensures_bind (hasItem_ensures reads position)
      rintro _ after ⟨further, rfl⟩
      have more := further.more
      apply ensures_ite
      · intro there
        have there : position < after.items.length := of_decide_eq_true there
        have item := List.getElem?_eq_getElem there
        have source := (further.reads.getElem? there).symm.trans item
        apply ensures_step (readItem_within item)
        apply ensures_bind (ih further.reads there)
        rintro rest last ⟨rfl, reads, within⟩
        refine ensures_pure ⟨?_, reads, ?_⟩
        · rw [drawn_of_some source]
        · rw [List.length_cons]
          omega
      · intro ended
        have ended : ¬position < after.items.length := fun there => ended (decide_eq_true there)
        have last : after.items.length = position := by omega
        have none : sampler.produced position = none := last ▸ further.reaches (by omega)
        exact ensures_pure ⟨(drawn_of_none none).symm, further.reads, by
          show position + 0 ≤ _
          omega⟩

/-- Where a sampler's iterator stands, with everything before it read. -/
structure StreamingSamplerIterator.Follows (sampler : Sampler Index)
    (iterator : StreamingSamplerIterator pickle) (standing : Standing) : Prop where
  reads : iterator.read.Reads sampler.produced
  within : iterator.position ≤ iterator.read.items.length
  stands : standing =
    ⟨iterator.epoch, iterator.position, iterator.delivered, iterator.complete, iterator.valid⟩

theorem StreamingSamplerIterator.follows_step {sampler : Sampler Index}
    {iterator : StreamingSamplerIterator pickle} {standing : Standing}
    (follows : iterator.Follows sampler standing) (executes : Bool) :
    (next pickle sampler executes iterator).1 = (sampler.course.next executes standing).1 ∧
      (next pickle sampler executes iterator).2.Follows sampler
        (sampler.course.next executes standing).2 := by
  obtain ⟨reads, within, rfl⟩ := follows
  obtain ⟨epoch, position, delivered, complete, valid, read⟩ := iterator
  cases valid with
  | false => exact ⟨rfl, reads, within, rfl⟩
  | true =>
      have gathered := gather_ensures sampler reads within sampler.width
      unfold next Course.next Sampler.course
      dsimp only at reads within gathered ⊢
      unfold Ensures at gathered
      cases done : sampler.gather pickle position sampler.width read with
      | error error after =>
          rw [done] at gathered
          exact gathered.elim
      | ok indices after =>
          rw [done] at gathered
          obtain ⟨rfl, reads, reached⟩ := gathered
          by_cases ends : (drawn sampler.produced position sampler.width).isEmpty ∨
              ((drawn sampler.produced position sampler.width).length < sampler.width ∧
                sampler.batchSize.isSome ∧ sampler.dropLast)
          · simp only [if_pos ends]
            exact ⟨rfl, reads, Nat.le_trans (Nat.le_add_right _ _) reached, rfl⟩
          · simp only [if_neg ends]
            cases executes with
            | false => exact ⟨rfl, reads, Nat.le_trans (Nat.le_add_right _ _) reached, rfl⟩
            | true => exact ⟨rfl, reads, reached, rfl⟩

theorem fst_foldl_updateBatch (batches : List (List Index)) (before : Nat × UInt32) :
    (batches.foldl (updateBatch pickle) before).1 = before.1 + batches.flatten.length := by
  induction batches generalizing before with
  | nil => rfl
  | cons batch batches ih =>
      rw [List.foldl_cons, ih, List.flatten_cons, List.length_append]
      exact Nat.add_assoc _ _ _

theorem BatchSampler.sampleOffset_within (sampler : BatchSampler Index)
    {read : Rolling (updateBatch pickle) (0, 0)} (reads : read.Reads sampler.produced)
    {ordinal : Nat} (within : ordinal ≤ read.items.length) :
    sampler.sampleOffset pickle ordinal read =
      .ok (drawn sampler.produced 0 ordinal).flatten.length read := by
  unfold BatchSampler.sampleOffset
  show EStateM.bind _ _ _ = _
  unfold EStateM.bind
  rw [valueAt_within reads within]
  have summed := @fst_foldl_updateBatch _ pickle (drawn sampler.produced 0 ordinal) (0, 0)
  show EStateM.Result.ok _ _ = _
  rw [summed, Nat.zero_add]

/-- The batch at an ordinal, wherever reading has come. -/
theorem atOrdinal_ensures (sampler : BatchSampler Index) {read : Rolling (updateBatch pickle) (0, 0)}
    (reads : read.Reads sampler.produced) {ordinal : Nat}
    (within : ordinal ≤ read.items.length) :
    Ensures (sampler.atOrdinal pickle ordinal) read
      (fun found after => found = (sampler.produced ordinal).map (fun batch =>
          (batch, (drawn sampler.produced 0 ordinal).flatten.length)) ∧
        after.Reads sampler.produced ∧
        ordinal + (if found.isSome then 1 else 0) ≤ after.items.length)
      (fun _ _ => False) := by
  unfold BatchSampler.atOrdinal
  apply ensures_bind (hasItem_ensures reads ordinal)
  rintro _ after ⟨further, rfl⟩
  have more := further.more
  apply ensures_ite
  · intro there
    have there : ordinal < after.items.length := of_decide_eq_true there
    have item := List.getElem?_eq_getElem there
    have source := (further.reads.getElem? there).symm.trans item
    apply ensures_step (readItem_within item)
    apply ensures_step (sampler.sampleOffset_within further.reads (Nat.le_of_lt there))
    refine ensures_pure ⟨?_, further.reads, there⟩
    rw [source]
    rfl
  · intro ended
    have ended : ¬ordinal < after.items.length := fun there => ended (decide_eq_true there)
    have last : after.items.length = ordinal := by omega
    have none : sampler.produced ordinal = none := last ▸ further.reaches (by omega)
    refine ensures_pure ⟨?_, further.reads, Nat.le_of_eq last.symm⟩
    rw [none]
    rfl

/-- Where a batch sampler's iterator stands, with everything before it read. -/
structure UserBatchSamplerIterator.Follows (sampler : BatchSampler Index)
    (iterator : UserBatchSamplerIterator pickle) (standing : Standing) : Prop where
  reads : iterator.read.Reads sampler.produced
  within : iterator.ordinal ≤ iterator.read.items.length
  stands : standing =
    ⟨iterator.epoch, iterator.ordinal, iterator.ordinal, iterator.complete, iterator.valid⟩

theorem UserBatchSamplerIterator.follows_step {sampler : BatchSampler Index}
    {iterator : UserBatchSamplerIterator pickle} {standing : Standing}
    (follows : iterator.Follows sampler standing) (executes : Bool) :
    (next pickle sampler executes iterator).1 = (sampler.course.next executes standing).1 ∧
      (next pickle sampler executes iterator).2.Follows sampler
        (sampler.course.next executes standing).2 := by
  obtain ⟨reads, within, rfl⟩ := follows
  obtain ⟨epoch, ordinal, complete, valid, read⟩ := iterator
  cases valid with
  | false => exact ⟨rfl, reads, within, rfl⟩
  | true =>
      have found := atOrdinal_ensures sampler reads within
      unfold next Course.next BatchSampler.course
      dsimp only at reads within found ⊢
      unfold Ensures at found
      cases done : sampler.atOrdinal pickle ordinal read with
      | error error after =>
          rw [done] at found
          exact found.elim
      | ok batch after =>
          rw [done] at found
          obtain ⟨rfl, reads, reached⟩ := found
          cases there : sampler.produced ordinal with
          | none =>
              rw [there] at reached
              exact ⟨rfl, reads, reached, rfl⟩
          | some batch =>
              rw [there] at reached
              cases executes with
              | false => exact ⟨rfl, reads, Nat.le_of_succ_le reached, rfl⟩
              | true => exact ⟨rfl, reads, reached, rfl⟩

theorem StreamingSamplerIterator.bisimilar (sampler : Sampler Index) :
    Machine.Bisimulation (fun _ => True) (machine pickle sampler) sampler.course.machine
      (Follows sampler) := by
  intro iterator standing executes _ follows
  exact .some (follows_step follows executes)

theorem UserBatchSamplerIterator.bisimilar (sampler : BatchSampler Index) :
    Machine.Bisimulation (fun _ => True) (machine pickle sampler) sampler.course.machine
      (Follows sampler) := by
  intro iterator standing executes _ follows
  exact .some (follows_step follows executes)

end Follows

end Hyperloader.State
