/-
Module: Hyperloader.Structured.Iterator
Purpose: The structured iterators of a loader, structured/iterator.py with
  structured/probe.py, over the batch-native adapter: what they deliver in every run of
  iterations, calls, closes and restores.
Trusted boundary: items and their collation are functions of the positions, unless they raise;
  the process-wide parts of `DataLoader.__iter__` and `close` leave the adapter alone.
Main exports:
  StructuredLoader, LoaderState, machine, Sound, Sound.step
-/
import Hyperloader.Foundations.Transition
import Hyperloader.Process.Completion
import Hyperloader.Structured.Adapter

namespace Hyperloader.Structured

open Foundations

/-- What a loader on the batch-native path is built with. -/
structure StructuredLoader (Sample Batch : Type*) where
  pipeline : Pipeline Sample Batch
  planLength : Nat
  dropLast : Bool
  batchSize : Nat
  positive : 0 < batchSize

/-- `NativeBatchProbe`: the first batch, or that producing it raised. -/
inductive NativeBatchProbe (Batch : Type*) where
  | value (batch : Batch)
  | error

/-- An iterator, and whether its consumer still holds it: the loader refers to it weakly. -/
structure StructuredIterator where
  length : Nat
  position : Nat
  complete : Bool
  valid : Bool
  held : Bool

/-- `invalidate`, which a dead reference never reaches. -/
def StructuredIterator.invalidate (iterator : StructuredIterator) : StructuredIterator :=
  if iterator.held then { iterator with valid := false } else iterator

/-- The loader with every iterator made so far. -/
structure LoaderState (Batch : Type*) where
  adapter : NativePipelineAdapter
  probe : Option (NativeBatchProbe Batch)
  iterators : List StructuredIterator
  active : Option Nat
  cursor : Nat

namespace LoaderState

variable {Batch : Type*}

/-- `_active_iterator_ref()` -/
def activeIterator (state : LoaderState Batch) : Option StructuredIterator := do
  let active ← state.active
  let iterator ← state.iterators[active]?
  if iterator.held then some iterator else none

/-- `DataLoader.close` -/
def close (state : LoaderState Batch) : LoaderState Batch :=
  { state with
    adapter := state.adapter.close
    probe := none
    iterators :=
      match state.active with
      | none => state.iterators
      | some active => state.iterators.modify active StructuredIterator.invalidate
    active := none }

/-- `__iter__` closes the loader under an iterator that is still running. -/
def settle (state : LoaderState Batch) : LoaderState Batch :=
  match state.activeIterator with
  | none => state
  | some iterator => if iterator.complete then state else state.close

def setIterator (state : LoaderState Batch) (index : Nat) (iterator : StructuredIterator) :
    LoaderState Batch :=
  { state with iterators := state.iterators.set index iterator }

end LoaderState

/-- What the caller can do.  A call of `next` says whether producing its batch raises. -/
inductive Label where
  | iter (sizing : Process.Sizing)
  | next (iterator : Nat) (raises : Bool)
  | drop (iterator : Nat)
  | close
  | restore (cursor : Nat)
  | setEpoch
deriving DecidableEq

/-- What it sees.  A delivered batch comes with the future that answered for it. -/
inductive Event (Batch : Type*) where
  | created (iterator : Nat)
  | refused (text : String)
  | delivered (iterator : Nat) (source : Option Nat) (batch : Batch)
  | stopped (iterator : Nat)
  | inactive (iterator : Nat)
  | raised (iterator : Nat)
  | closed
  | restored
  | returned

/-- The consumer lets an iterator go. -/
def LoaderState.drop {Batch : Type*} (state : LoaderState Batch) (index : Nat) :
    Option (Event Batch × LoaderState Batch) :=
  match state.iterators[index]? with
  | none => none
  | some iterator =>
      some (.returned, state.setIterator index { iterator with held := false })

namespace StructuredLoader

variable {Sample Batch : Type*} (loader : StructuredLoader Sample Batch)

/-- The positions of an epoch. -/
def length : Nat :=
  if loader.dropLast then loader.planLength - loader.planLength % loader.batchSize
  else loader.planLength

/-- The batches of an epoch. -/
def batching : Batching := ⟨loader.length, loader.batchSize, loader.positive⟩

/-- `frontier_depth` -/
def frontierDepth (sizing : Process.Sizing) : Nat :=
  Process.Sizing.frontierDepth { sizing with batchSize := some loader.batchSize }

/-- `prepare_native_batch` on a new loader: the first batch is produced and retained. -/
def construct (raises : Bool) : LoaderState Batch :=
  if loader.length = 0 then ⟨.initial, none, [], none, 0⟩
  else
    match NativePipelineAdapter.initial.nativeBatch loader.pipeline 0
        (min loader.batchSize loader.length) raises with
    | (none, adapter) => ⟨adapter, some .error, [], none, 0⟩
    | (some produced, adapter) => ⟨adapter, some (.value produced.batch), [], none, 0⟩

/-- Where the frontier of an iterator begins, and the first batch it retains. -/
def retained (state : LoaderState Batch) (position : Nat) :
    Nat × Option (NativeBatchProbe Batch) :=
  if position = 0 ∧ state.probe.isSome then (min loader.batchSize loader.length, state.probe)
  else if position = 0 then (position, state.probe)
  else (position, none)

/-- `StructuredIterator.__init__` at a resume position, and the loader's part after it. -/
def begin (state : LoaderState Batch) (sizing : Process.Sizing) (position : Nat) :
    LoaderState Batch :=
  let (retainedStop, probe) := loader.retained state position
  { adapter := state.adapter.beginNativeEpoch loader.length (loader.frontierDepth sizing)
      retainedStop loader.batchSize
    probe := probe
    iterators := state.iterators ++ [⟨loader.length, position, false, true, true⟩]
    active := some state.iterators.length
    cursor := 0 }

/-- `DataLoader.__iter__` -/
def iter (state : LoaderState Batch) (sizing : Process.Sizing) :
    Event Batch × LoaderState Batch :=
  let settled := state.settle
  match Distributed.resumeSamplePosition settled.cursor loader.batchSize loader.length with
  | .error text => (.refused text, settled)
  | .ok position => (.created settled.iterators.length, loader.begin settled sizing position)

/-- `_next_batch` -/
def nextBatch (state : LoaderState Batch) (start stop : Nat) (raises : Bool) :
    Option (Produced Batch) × LoaderState Batch :=
  match start, state.probe with
  | 0, some (.value batch) => (some ⟨batch, none⟩, { state with probe := none })
  | 0, some .error => (none, { state with probe := none })
  | _, _ =>
      let (produced, adapter) := state.adapter.nativeBatch loader.pipeline start stop raises
      (produced, { state with adapter := adapter })

/-- `StructuredIterator.__next__`, for an iterator its consumer still holds. -/
def next (state : LoaderState Batch) (index : Nat) (raises : Bool) :
    Option (Event Batch × LoaderState Batch) :=
  match state.iterators[index]? with
  | none => none
  | some iterator =>
      if !iterator.held then none
      else if !iterator.valid then some (.inactive index, state)
      else if iterator.length ≤ iterator.position then
        some (.stopped index, state.setIterator index { iterator with complete := true })
      else
        let start := iterator.position
        let stop := min (start + loader.batchSize) iterator.length
        match loader.nextBatch state start stop raises with
        | (none, after) =>
            -- the position is `start` again when the error leaves the call
            some (.raised index, after.close)
        | (some produced, after) =>
            some (.delivered index produced.source produced.batch,
              after.setIterator index { iterator with position := stop })

/-- A loader with its iterators takes one call after the other. -/
def machine : Machine (LoaderState Batch) Label (Event Batch) where
  step state label :=
    match label with
    | .iter sizing => some (loader.iter state sizing)
    | .next index raises => loader.next state index raises
    | .drop index => state.drop index
    | .close => some (.closed, state.close)
    | .restore cursor => some (.restored, { state.close with cursor := cursor })
    | .setEpoch => some (.returned, { state with cursor := 0 })

end StructuredLoader

/-! ### What a step does -/

namespace StructuredLoader

variable {Sample Batch : Type*} {loader : StructuredLoader Sample Batch}
  {state after : LoaderState Batch} {event : Event Batch}

/-- Producing a batch leaves the iterators alone. -/
theorem nextBatch_frame {start stop : Nat} {raises : Bool} {produced : Option (Produced Batch)}
    (called : loader.nextBatch state start stop raises = (produced, after)) :
    after.iterators = state.iterators ∧ after.active = state.active := by
  unfold nextBatch at called
  split at called <;> cases called <;> exact ⟨rfl, rfl⟩

/-- A call of `next` on an iterator that is over, or that produces a batch. -/
theorem next_cases {index : Nat} {raises : Bool}
    (called : loader.next state index raises = some (event, after)) :
    ∃ iterator, state.iterators[index]? = some iterator ∧ iterator.held = true ∧
      ((iterator.valid = false ∧ event = .inactive index ∧ after = state) ∨
        (iterator.valid = true ∧ iterator.length ≤ iterator.position ∧ event = .stopped index ∧
          after = state.setIterator index { iterator with complete := true }) ∨
        (iterator.valid = true ∧ iterator.position < iterator.length ∧
          ∃ produced middle, loader.nextBatch state iterator.position
              (min (iterator.position + loader.batchSize) iterator.length) raises =
              (produced, middle) ∧
            ((produced = none ∧ event = .raised index ∧ after = middle.close) ∨
              ∃ batch, produced = some batch ∧
                event = .delivered index batch.source batch.batch ∧
                after = middle.setIterator index { iterator with
                  position := min (iterator.position + loader.batchSize)
                    iterator.length }))) := by
  unfold next at called
  split at called
  · cases called
  rename_i iterator found
  refine ⟨iterator, found, ?_⟩
  split at called
  · cases called
  rename_i held
  refine ⟨by simpa using held, ?_⟩
  split at called
  · rename_i invalid
    cases called
    exact .inl ⟨by simpa using invalid, rfl, rfl⟩
  rename_i valid
  split at called
  · rename_i past
    cases called
    exact .inr (.inl ⟨by simpa using valid, past, rfl, rfl⟩)
  rename_i more
  refine .inr (.inr ⟨by simpa using valid, Nat.not_le.mp more, ?_⟩)
  cases pulled : loader.nextBatch state iterator.position
      (min (iterator.position + loader.batchSize) iterator.length) raises with
  | mk produced middle =>
      refine ⟨produced, middle, rfl, ?_⟩
      simp only [pulled] at called
      cases produced with
      | none =>
          cases called
          exact .inl ⟨rfl, rfl, rfl⟩
      | some batch =>
          cases called
          exact .inr ⟨batch, rfl, rfl, rfl⟩

/-- An iterator is created at the cursor, unless that is past the last batch. -/
theorem iter_cases {sizing : Process.Sizing} (called : loader.iter state sizing = (event, after)) :
    (loader.batching.count < state.settle.cursor ∧ (∃ text, event = .refused text) ∧
        after = state.settle) ∨
      (state.settle.cursor ≤ loader.batching.count ∧
        event = .created state.settle.iterators.length ∧
        after = loader.begin state.settle sizing
          (min loader.length (state.settle.cursor * loader.batchSize))) := by
  unfold iter at called
  by_cases past : loader.batching.count < state.settle.cursor
  · have refused : ∃ text, Distributed.resumeSamplePosition state.settle.cursor
        loader.batchSize loader.length = .error text := ⟨_, if_pos past⟩
    obtain ⟨text, refused⟩ := refused
    simp only [refused] at called
    cases called
    exact .inl ⟨past, ⟨text, rfl⟩, rfl⟩
  · have resumed : Distributed.resumeSamplePosition state.settle.cursor
        loader.batchSize loader.length =
        .ok (min loader.length (state.settle.cursor * loader.batchSize)) := if_neg past
    simp only [resumed] at called
    cases called
    exact .inr ⟨Nat.not_lt.mp past, rfl, rfl⟩

end StructuredLoader

/-! ### The states of a loader -/

/-- Nothing is left to come from the iterator. -/
def StructuredIterator.Retired (iterator : StructuredIterator) : Prop :=
  iterator.valid = false ∨ iterator.held = false ∨ iterator.length ≤ iterator.position

namespace StructuredIterator

variable (iterator : StructuredIterator)

@[simp] theorem length_invalidate : iterator.invalidate.length = iterator.length := by
  unfold invalidate
  split <;> rfl

@[simp] theorem position_invalidate : iterator.invalidate.position = iterator.position := by
  unfold invalidate
  split <;> rfl

@[simp] theorem complete_invalidate : iterator.invalidate.complete = iterator.complete := by
  unfold invalidate
  split <;> rfl

/-- An iterator that the loader let go of gives nothing more. -/
theorem retired_invalidate : iterator.invalidate.Retired := by
  unfold invalidate
  split
  · exact .inl rfl
  · rename_i loose
    exact .inr (.inl (by simpa using loose))

end StructuredIterator

/-- The iterators after a close: the active one is invalidated. -/
theorem LoaderState.getElem?_close {Batch : Type*} {state : LoaderState Batch} {index : Nat}
    {iterator : StructuredIterator} (found : state.close.iterators[index]? = some iterator) :
    ∃ before, state.iterators[index]? = some before ∧
      ((state.active = some index ∧ iterator = before.invalidate) ∨
        (state.active ≠ some index ∧ iterator = before)) := by
  unfold LoaderState.close at found
  cases active : state.active with
  | none =>
      simp only [active] at found
      exact ⟨iterator, found, .inr ⟨fun same => (nomatch same), rfl⟩⟩
  | some current =>
      simp only [active] at found
      rw [List.getElem?_modify] at found
      obtain ⟨before, present, same⟩ := Option.map_eq_some_iff.mp found
      refine ⟨before, present, ?_⟩
      by_cases here : current = index
      · rw [if_pos here] at same
        exact .inl ⟨congrArg some here, same.symm⟩
      · rw [if_neg here] at same
        exact .inr ⟨fun equal => here (Option.some.inj equal), same.symm⟩

/-- Only the active iterator runs, a complete iterator is at its end, and a retained first
batch is the first batch. -/
structure Sound {Sample Batch : Type*} (loader : StructuredLoader Sample Batch)
    (state : LoaderState Batch) : Prop where
  sized : ∀ iterator ∈ state.iterators, iterator.length = loader.length
  ended : ∀ iterator ∈ state.iterators, iterator.complete = true →
    iterator.length ≤ iterator.position
  others : ∀ index iterator, state.iterators[index]? = some iterator →
    state.active ≠ some index → iterator.Retired
  placed : ∀ index, state.active = some index → index < state.iterators.length
  valid : ∀ index iterator, state.iterators[index]? = some iterator →
    state.active = some index → iterator.valid = true
  retained : ∀ batch, state.probe = some (.value batch) →
    batch = loader.pipeline.produceBatch (span loader.batching 0).1 (span loader.batching 0).2
  probed : state.probe.isSome = true → 0 < loader.length

namespace Sound

variable {Sample Batch : Type*} {loader : StructuredLoader Sample Batch}
  {state : LoaderState Batch} {index : Nat} {iterator : StructuredIterator}

theorem construct (loader : StructuredLoader Sample Batch) (raises : Bool) :
    Sound loader (loader.construct raises) := by
  have idle : ∀ (adapter : NativePipelineAdapter) (probe : Option (NativeBatchProbe Batch)),
      (∀ batch, probe = some (.value batch) →
        batch = loader.pipeline.produceBatch (span loader.batching 0).1
          (span loader.batching 0).2) →
      (probe.isSome = true → 0 < loader.length) →
      Sound loader ⟨adapter, probe, [], none, 0⟩ := by
    intro adapter probe retained probed
    refine ⟨?_, ?_, ?_, ?_, ?_, retained, probed⟩
    · exact fun _ member => absurd member List.not_mem_nil
    · exact fun _ member => absurd member List.not_mem_nil
    · intro _ _ found
      cases found
    · intro _ found
      cases found
    · intro _ _ found
      cases found
  unfold StructuredLoader.construct
  split
  · refine idle _ _ (fun _ same => ?_) (fun same => ?_)
    · cases same
    · cases same
  · rename_i some
    have first : (span loader.batching 0) = (0, min loader.batchSize loader.length) := by
      rw [span, Nat.zero_mul, Nat.zero_add]
      rfl
    have positive := Nat.pos_of_ne_zero some
    split
    · refine idle _ _ (fun _ same => ?_) fun _ => positive
      cases same
    · rename_i produced adapter called
      refine idle _ _ (fun batch same => ?_) fun _ => positive
      cases same
      have direct : NativePipelineAdapter.initial.epochLength = 0 := rfl
      rw [NativePipelineAdapter.nativeBatch, if_pos direct] at called
      cases raises with
      | true => cases called
      | false =>
          cases called
          rw [first]

section

variable (sound : Sound loader state)

include sound

/-- A changed iterator keeps the loader sound. -/
theorem setIterator {changed : StructuredIterator} (found : state.iterators[index]? = some iterator)
    (length : changed.length = iterator.length) (valid : changed.valid = iterator.valid)
    (complete : changed.complete = true → changed.length ≤ changed.position)
    (other : state.active ≠ some index → changed.Retired) :
    Sound loader (state.setIterator index changed) := by
  have inside : index < state.iterators.length := (List.getElem?_eq_some_iff.mp found).1
  have each : ∀ place another, (state.iterators.set index changed)[place]? = some another →
      (place = index ∧ another = changed) ∨
        (place ≠ index ∧ state.iterators[place]? = some another) := by
    intro place another at'
    by_cases same : index = place
    · subst same
      rw [List.getElem?_set_self inside] at at'
      exact .inl ⟨rfl, (Option.some.inj at').symm⟩
    · rw [List.getElem?_set_ne same] at at'
      exact .inr ⟨fun equal => same equal.symm, at'⟩
  refine ⟨?_, ?_, ?_, ?_, ?_, sound.retained, sound.probed⟩
  · intro another member
    rcases List.mem_or_eq_of_mem_set member with old | rfl
    · exact sound.sized another old
    · exact length.trans (sound.sized iterator (List.mem_of_getElem? found))
  · intro another member
    rcases List.mem_or_eq_of_mem_set member with old | rfl
    · exact sound.ended another old
    · exact complete
  · intro place another at' idle
    rcases each place another at' with ⟨rfl, rfl⟩ | ⟨-, old⟩
    · exact other idle
    · exact sound.others place another old idle
  · intro place active
    exact Nat.lt_of_lt_of_eq (sound.placed place active) List.length_set.symm
  · intro place another at' active
    rcases each place another at' with ⟨rfl, rfl⟩ | ⟨-, old⟩
    · exact valid.trans (sound.valid place iterator found active)
    · exact sound.valid place another old active

/-- A close leaves no iterator running. -/
theorem close : Sound loader state.close := by
  refine ⟨?_, ?_, ?_, ?_, ?_, ?_, ?_⟩
  · intro iterator member
    obtain ⟨index, found⟩ := List.mem_iff_getElem?.mp member
    obtain ⟨before, present, ⟨-, rfl⟩ | ⟨-, rfl⟩⟩ := LoaderState.getElem?_close found
    · rw [StructuredIterator.length_invalidate]
      exact sound.sized before (List.mem_of_getElem? present)
    · exact sound.sized iterator (List.mem_of_getElem? present)
  · intro iterator member complete
    obtain ⟨index, found⟩ := List.mem_iff_getElem?.mp member
    obtain ⟨before, present, ⟨-, rfl⟩ | ⟨-, rfl⟩⟩ := LoaderState.getElem?_close found
    · rw [StructuredIterator.complete_invalidate] at complete
      rw [StructuredIterator.length_invalidate, StructuredIterator.position_invalidate]
      exact sound.ended before (List.mem_of_getElem? present) complete
    · exact sound.ended iterator (List.mem_of_getElem? present) complete
  · intro index iterator found _
    obtain ⟨before, present, ⟨-, rfl⟩ | ⟨idle, rfl⟩⟩ := LoaderState.getElem?_close found
    · exact before.retired_invalidate
    · exact sound.others index iterator present idle
  · exact fun _ none => nomatch none
  · exact fun _ _ _ none => nomatch none
  · exact fun _ none => nomatch none
  · exact fun none => nomatch none

/-- After `__iter__` let the running iterator go, no iterator runs. -/
theorem settle :
    Sound loader state.settle ∧ ∀ iterator ∈ state.settle.iterators, iterator.Retired := by
  have idle : ∀ current : LoaderState Batch, Sound loader current → current.active = none →
      ∀ iterator ∈ current.iterators, iterator.Retired := by
    intro current kept none iterator member
    obtain ⟨index, found⟩ := List.mem_iff_getElem?.mp member
    exact kept.others index iterator found fun active => nomatch none.symm.trans active
  have loose : state.activeIterator = none ∨
      (∃ iterator, state.activeIterator = some iterator ∧ iterator.complete = true) →
      ∀ iterator ∈ state.iterators, iterator.Retired := by
    intro gone iterator member
    obtain ⟨index, found⟩ := List.mem_iff_getElem?.mp member
    by_cases active : state.active = some index
    · have referred : state.activeIterator =
          if iterator.held then some iterator else none := by
        rw [LoaderState.activeIterator, active]
        simp [found]
      cases held : iterator.held with
      | false => exact .inr (.inl held)
      | true =>
          rw [held, if_pos rfl] at referred
          rw [referred] at gone
          rcases gone with none | ⟨_, same, complete⟩
          · cases none
          · cases same
            exact .inr (.inr (sound.ended iterator member complete))
    · exact sound.others index iterator found active
  unfold LoaderState.settle
  split
  · rename_i dead
    exact ⟨sound, loose (.inl dead)⟩
  · rename_i iterator alive
    split
    · rename_i complete
      exact ⟨sound, loose (.inr ⟨iterator, alive, complete⟩)⟩
    · exact ⟨sound.close, idle _ sound.close rfl⟩

/-- A new iterator is the one that runs. -/
theorem begin (idle : ∀ iterator ∈ state.iterators, iterator.Retired) (sizing : Process.Sizing)
    (position : Nat) : Sound loader (loader.begin state sizing position) := by
  have probe : (loader.begin state sizing position).probe = state.probe ∨
      (loader.begin state sizing position).probe = none := by
    have fields : (loader.begin state sizing position).probe =
        (loader.retained state position).2 := rfl
    rw [fields, StructuredLoader.retained]
    split
    · exact .inl rfl
    · split
      · exact .inl rfl
      · exact .inr rfl
  have iterators : (loader.begin state sizing position).iterators =
      state.iterators ++ [⟨loader.length, position, false, true, true⟩] := rfl
  have active : (loader.begin state sizing position).active =
      some state.iterators.length := rfl
  refine ⟨?_, ?_, ?_, ?_, ?_, ?_, ?_⟩
  · intro iterator member
    rw [iterators, List.mem_append, List.mem_singleton] at member
    rcases member with old | rfl
    · exact sound.sized iterator old
    · rfl
  · intro iterator member complete
    rw [iterators, List.mem_append, List.mem_singleton] at member
    rcases member with old | rfl
    · exact sound.ended iterator old complete
    · cases complete
  · intro index iterator found other
    rw [iterators] at found
    rw [active] at other
    have inside := (List.getElem?_eq_some_iff.mp found).1
    rw [List.length_append, List.length_singleton] at inside
    have before : index < state.iterators.length := by
      have differs : index ≠ state.iterators.length := fun same => other (congrArg some same.symm)
      omega
    rw [List.getElem?_append_left before] at found
    exact idle iterator (List.mem_of_getElem? found)
  · intro index same
    rw [active] at same
    cases same
    rw [iterators, List.length_append]
    exact Nat.lt_succ_self _
  · intro index iterator found same
    rw [active] at same
    cases same
    rw [iterators, List.getElem?_concat_length] at found
    cases found
    rfl
  · intro batch same
    rcases probe with kept | none
    · exact sound.retained batch (kept ▸ same)
    · rw [none] at same
      cases same
  · intro some
    rcases probe with kept | none
    · exact sound.probed (kept ▸ some)
    · rw [none] at some
      cases some

/-- Producing a batch keeps the loader sound. -/
theorem nextBatch {start stop : Nat} {raises : Bool} {produced : Option (Produced Batch)}
    {after : LoaderState Batch}
    (called : loader.nextBatch state start stop raises = (produced, after)) :
    Sound loader after := by
  unfold StructuredLoader.nextBatch at called
  split at called <;> cases called
  · exact ⟨sound.sized, sound.ended, sound.others, sound.placed, sound.valid,
      (fun _ same => nomatch same), (fun same => nomatch same)⟩
  · exact ⟨sound.sized, sound.ended, sound.others, sound.placed, sound.valid,
      (fun _ same => nomatch same), (fun same => nomatch same)⟩
  · exact ⟨sound.sized, sound.ended, sound.others, sound.placed, sound.valid, sound.retained,
      sound.probed⟩

theorem next {raises : Bool} {event : Event Batch} {after : LoaderState Batch}
    (called : loader.next state index raises = some (event, after)) : Sound loader after := by
  obtain ⟨iterator, found, held, cases'⟩ := StructuredLoader.next_cases called
  rcases cases' with ⟨-, -, rfl⟩ | ⟨valid, past, -, rfl⟩ | ⟨valid, more, produced, middle,
    pulled, ⟨-, -, rfl⟩ | ⟨batch, -, -, rfl⟩⟩
  · exact sound
  · exact sound.setIterator found rfl rfl (fun _ => past) fun _ => .inr (.inr past)
  · exact (sound.nextBatch pulled).close
  · have kept := sound.nextBatch pulled
    obtain ⟨iterators, active⟩ := StructuredLoader.nextBatch_frame pulled
    have present : middle.iterators[index]? = some iterator := iterators ▸ found
    refine kept.setIterator present rfl rfl ?_ ?_
    · intro complete
      exact absurd (sound.ended iterator (List.mem_of_getElem? found) complete)
        (Nat.not_le.mpr more)
    · intro other
      rw [active] at other
      rcases sound.others index iterator found other with invalid | loose | past
      · exact .inl invalid
      · exact .inr (.inl loose)
      · exact absurd past (Nat.not_le.mpr more)

end

/-- Every call keeps the loader sound. -/
theorem step {label : Label} {event : Event Batch} {after : LoaderState Batch}
    (sound : Sound loader state) (stepEq : loader.machine.step state label = some (event, after)) :
    Sound loader after := by
  cases label with
  | iter sizing =>
      obtain ⟨settled, idle⟩ := sound.settle
      rcases StructuredLoader.iter_cases (Option.some.inj stepEq) with
        ⟨-, -, rfl⟩ | ⟨-, -, rfl⟩
      · exact settled
      · exact settled.begin idle sizing _
  | next index raises => exact sound.next stepEq
  | drop index =>
      change state.drop index = some (event, after) at stepEq
      unfold LoaderState.drop at stepEq
      split at stepEq
      · cases stepEq
      · rename_i iterator found
        cases stepEq
        exact sound.setIterator found rfl rfl
          (sound.ended iterator (List.mem_of_getElem? found)) fun _ => .inr (.inl rfl)
  | close =>
      cases stepEq
      exact sound.close
  | restore cursor =>
      cases stepEq
      have closed := sound.close
      exact ⟨closed.sized, closed.ended, closed.others, closed.placed, closed.valid,
        closed.retained, closed.probed⟩
  | setEpoch =>
      cases stepEq
      exact ⟨sound.sized, sound.ended, sound.others, sound.placed, sound.valid, sound.retained,
        sound.probed⟩

end Sound

end Hyperloader.Structured
