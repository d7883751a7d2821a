/-
Module: Hyperloader.Structured.Delivery
Purpose: What a structured iterator delivers from its creation on, in any run of its loader:
  the remaining batches, once each and in order, from a bounded table of futures.
Trusted boundary: none
Main exports: Ahead, Follows, Follows.step, ExactFrontier, structured_native_frontier
-/
import Hyperloader.Structured.Iterator

namespace Hyperloader.Structured

open Foundations

namespace StructuredLoader

variable {Sample Batch : Type*} (loader : StructuredLoader Sample Batch)

/-- The collation of the items of a batch. -/
def batch (ordinal : Nat) : Batch :=
  loader.pipeline.produceBatch (span loader.batching ordinal).1 (span loader.batching ordinal).2

/-- The batches from an ordinal on. -/
def remaining (ordinal : Nat) : List Batch :=
  (List.range' ordinal (loader.batching.count - ordinal)).map loader.batch

end StructuredLoader

/-- The batches an iterator delivered in a trace. -/
def delivered {Batch : Type*} (index : Nat) (trace : List (Label × Event Batch)) : List Batch :=
  trace.filterMap fun entry =>
    match entry.2 with
    | .delivered iterator _ batch => if iterator = index then some batch else none
    | _ => none

/-- The adapter of an active iterator that has come to a batch.  A first batch that is still
retained was not submitted. -/
structure Ahead {Sample Batch : Type*} (loader : StructuredLoader Sample Batch)
    (prefetch first : Nat) (earlier : List (Nat × Nat)) (ordinal : Nat)
    (state : LoaderState Batch) : Prop where
  probe : (state.probe.isSome = true ∧ ordinal = 0 ∧ first = 1) ∨
    (state.probe = none ∧ first ≤ ordinal)
  frontier : Frontier loader.batching prefetch first earlier (max ordinal first) state.adapter

/-- An iterator has come to a batch; while it is active, so has the adapter. -/
structure Follows {Sample Batch : Type*} (loader : StructuredLoader Sample Batch)
    (prefetch first : Nat) (earlier : List (Nat × Nat)) (index ordinal : Nat)
    (state : LoaderState Batch) : Prop where
  counted : ordinal ≤ loader.batching.count
  iterator : ∃ iterator, state.iterators[index]? = some iterator ∧
    iterator.position = min loader.length (ordinal * loader.batchSize)
  ahead : state.active = some index → Ahead loader prefetch first earlier ordinal state

section Steps

variable {Sample Batch : Type*} {loader : StructuredLoader Sample Batch}
  {prefetch first index ordinal : Nat} {earlier : List (Nat × Nat)}
  {state after : LoaderState Batch} {event : Event Batch} {label : Label}

theorem LoaderState.settle_frame (state : LoaderState Batch) :
    state.settle.cursor = state.cursor ∧
      state.settle.adapter.submitted = state.adapter.submitted := by
  unfold LoaderState.settle
  split
  · exact ⟨rfl, rfl⟩
  · split
    · exact ⟨rfl, rfl⟩
    · exact ⟨rfl, rfl⟩

/-- A new iterator follows from its cursor on. -/
theorem Follows.created {sizing : Process.Sizing} (sound : Sound loader state)
    (called : loader.iter state sizing = (.created index, after)) :
    ∃ first, Follows loader
        (max 1 ((loader.frontierDepth sizing + loader.batchSize - 1) / loader.batchSize)) first
        state.adapter.submitted index state.cursor after ∧
      after.active = some index ∧
      ∃ iterator, after.iterators[index]? = some iterator ∧ iterator.held = true := by
  obtain ⟨cursor, submitted⟩ := state.settle_frame
  rcases StructuredLoader.iter_cases called with ⟨-, ⟨_, same⟩, -⟩ | ⟨inside, same, rfl⟩
  · cases same
  cases same
  rw [cursor] at inside ⊢
  have settled := sound.settle.1
  generalize state.settle = current at *
  let position := min loader.length (state.cursor * loader.batchSize)
  have present : (loader.begin current sizing position).iterators[current.iterators.length]? =
      some ⟨loader.length, position, false, true, true⟩ := List.getElem?_concat_length
  have adapter : (loader.begin current sizing position).adapter =
      current.adapter.beginNativeEpoch loader.length (loader.frontierDepth sizing)
        (loader.retained current position).1 loader.batchSize := rfl
  have probe : (loader.begin current sizing position).probe =
      (loader.retained current position).2 := rfl
  have begun : ∀ first, first ≤ loader.batching.count → state.cursor ≤ first →
      (loader.retained current position).1 = min loader.length (first * loader.batchSize) →
      Frontier loader.batching
        (max 1 ((loader.frontierDepth sizing + loader.batchSize - 1) / loader.batchSize)) first
        state.adapter.submitted (max state.cursor first)
        (loader.begin current sizing position).adapter := by
    intro first some more stop
    rw [Nat.max_eq_right more, adapter, stop, ← submitted]
    exact Frontier.begun current.adapter _ some
  by_cases zero : position = 0 ∧ current.probe.isSome = true
  · have retained : loader.retained current position =
        (min loader.batchSize loader.length, current.probe) := if_pos zero
    have positive := settled.probed zero.2
    have start : state.cursor = 0 := by
      have product : state.cursor * loader.batchSize = 0 := by
        have none : min loader.length (state.cursor * loader.batchSize) = 0 := zero.1
        omega
      exact (Nat.mul_eq_zero.mp product).resolve_right (Nat.ne_of_gt loader.positive)
    have one : 1 ≤ loader.batching.count := by
      have low : 0 * loader.batching.width < loader.batching.length := by
        rw [Nat.zero_mul]
        exact positive
      exact Batching.lt_count_iff.mpr low
    refine ⟨1, ⟨inside, ⟨_, present, rfl⟩, fun _ => ⟨.inl ⟨?_, start, rfl⟩, ?_⟩⟩, rfl,
      ⟨_, present, rfl⟩⟩
    · rw [probe, retained]
      exact zero.2
    · refine begun 1 one (by omega) ?_
      rw [retained, Nat.one_mul, Nat.min_comm]
  · have gone : (loader.retained current position).2 = none ∧
        (loader.retained current position).1 = position := by
      unfold StructuredLoader.retained
      rw [if_neg zero]
      split
      · rename_i here
        refine ⟨?_, rfl⟩
        cases empty : current.probe with
        | none => rfl
        | some probe => exact absurd ⟨here, congrArg Option.isSome empty⟩ zero
      · exact ⟨rfl, rfl⟩
    refine ⟨state.cursor, ⟨inside, ⟨_, present, rfl⟩, fun _ =>
      ⟨.inr ⟨probe.trans gone.1, Nat.le_refl _⟩, ?_⟩⟩, rfl, ⟨_, present, rfl⟩⟩
    exact begun state.cursor inside (Nat.le_refl _) gone.2

theorem StructuredLoader.nextBatch_of_none {start stop : Nat} {raises : Bool}
    (none : state.probe = none) :
    loader.nextBatch state start stop raises =
      ((state.adapter.nativeBatch loader.pipeline start stop raises).1,
        { state with
          adapter := (state.adapter.nativeBatch loader.pipeline start stop raises).2 }) := by
  unfold StructuredLoader.nextBatch
  rw [none]
  cases start <;> rfl

/-- The next batch of an active iterator is that of its ordinal, unless it raises. -/
theorem Ahead.nextBatch {raises : Bool} {produced : Option (Produced Batch)}
    {middle : LoaderState Batch} (sound : Sound loader state) (room : 0 < prefetch)
    (ahead : Ahead loader prefetch first earlier ordinal state)
    (early : ordinal < loader.batching.count)
    (called : loader.nextBatch state (span loader.batching ordinal).1
      (span loader.batching ordinal).2 raises = (produced, middle)) :
    (produced = none ∧ middle.adapter.submitted = state.adapter.submitted ∧
        (raises = true ∨ state.probe = some .error)) ∨
      ∃ source, produced = some ⟨loader.batch ordinal, source⟩ ∧
        middle.probe = none ∧ Ahead loader prefetch first earlier (ordinal + 1) middle := by
  rcases ahead.probe with ⟨some, rfl, rfl⟩ | ⟨none, begun⟩
  · have start : (span loader.batching 0).1 = 0 := Nat.zero_mul _
    rw [start] at called
    obtain ⟨probe, retained⟩ := Option.isSome_iff_exists.mp some
    unfold StructuredLoader.nextBatch at called
    rw [retained] at called
    cases probe with
    | error =>
        cases called
        exact .inl ⟨rfl, rfl, .inr retained⟩
    | value batch =>
        cases called
        refine .inr ⟨none, ?_, rfl, .inr ⟨rfl, Nat.le_refl _⟩, ahead.frontier⟩
        rw [sound.retained batch retained]
        rfl
  · have frontier := ahead.frontier
    rw [Nat.max_eq_left begun] at frontier
    rw [StructuredLoader.nextBatch_of_none none] at called
    cases raises with
    | true =>
        obtain ⟨next, failed, same⟩ := frontier.raises loader.pipeline room early
        rw [failed] at called
        cases called
        exact .inl ⟨rfl, same, .inl rfl⟩
    | false =>
        obtain ⟨next, answered, later⟩ := frontier.nativeBatch loader.pipeline room early
        rw [answered] at called
        cases called
        refine .inr ⟨_, rfl, none, .inr ⟨none, Nat.le_succ_of_le begun⟩, ?_⟩
        rw [Nat.max_eq_left (Nat.le_succ_of_le begun)]
        exact later

variable {iterator : StructuredIterator}

/-- A close moves no iterator. -/
theorem LoaderState.position_close (found : state.iterators[index]? = some iterator) :
    ∃ closed, state.close.iterators[index]? = some closed ∧
      closed.position = iterator.position := by
  have inside : index < state.close.iterators.length := by
    have before := (List.getElem?_eq_some_iff.mp found).1
    unfold LoaderState.close
    split
    · exact before
    · exact Nat.lt_of_lt_of_eq before (List.length_modify ..).symm
  have present := List.getElem?_eq_getElem inside
  obtain ⟨before, old, ⟨-, same⟩ | ⟨-, same⟩⟩ := LoaderState.getElem?_close present
  · refine ⟨_, present, ?_⟩
    rw [same, StructuredIterator.position_invalidate]
    exact congrArg _ (Option.some.inj (old.symm.trans found))
  · refine ⟨_, present, ?_⟩
    rw [same]
    exact congrArg _ (Option.some.inj (old.symm.trans found))

namespace Follows

section

variable (follows : Follows loader prefetch first earlier index ordinal state)

include follows

/-- An iterator that the loader closed stays where it was, whatever the adapter came to. -/
theorem close {middle : LoaderState Batch} (iterators : middle.iterators = state.iterators) :
    Follows loader prefetch first earlier index ordinal middle.close := by
  obtain ⟨iterator, found, place⟩ := follows.iterator
  rw [← iterators] at found
  obtain ⟨closed, present, same⟩ := LoaderState.position_close found
  exact ⟨follows.counted, ⟨closed, present, same.trans place⟩, fun active => nomatch active⟩

theorem settle :
    Follows loader prefetch first earlier index ordinal state.settle := by
  unfold LoaderState.settle
  split
  · exact follows
  · split
    · exact follows
    · exact follows.close rfl

/-- A later iterator takes the place of the active one. -/
theorem begin (sizing : Process.Sizing) (position : Nat) :
    Follows loader prefetch first earlier index ordinal (loader.begin state sizing position) := by
  obtain ⟨iterator, found, place⟩ := follows.iterator
  have inside := (List.getElem?_eq_some_iff.mp found).1
  refine ⟨follows.counted, ⟨iterator, ?_, place⟩, ?_⟩
  · exact (List.getElem?_append_left inside).trans found
  · intro active
    have last : state.iterators.length = index := Option.some.inj active
    omega

/-- A change of an iterator that leaves its position alone. -/
theorem setIterator {other : Nat} {iterator changed : StructuredIterator}
    (found : state.iterators[other]? = some iterator)
    (same : index = other → changed.position = iterator.position) :
    Follows loader prefetch first earlier index ordinal (state.setIterator other changed) := by
  obtain ⟨mine, present, place⟩ := follows.iterator
  refine ⟨follows.counted, ?_, fun active => ⟨(follows.ahead active).probe,
    (follows.ahead active).frontier⟩⟩
  by_cases here : index = other
  · subst here
    have inside := (List.getElem?_eq_some_iff.mp found).1
    refine ⟨changed, List.getElem?_set_self inside, ?_⟩
    rw [same rfl, ← place]
    exact congrArg _ (Option.some.inj (found.symm.trans present))
  · exact ⟨mine, (List.getElem?_set_ne fun equal => here equal.symm).trans present, place⟩

/-- The position of an iterator is that of its ordinal. -/
theorem position (found : state.iterators[index]? = some iterator) :
    iterator.position = min loader.length (ordinal * loader.batchSize) := by
  obtain ⟨mine, present, place⟩ := follows.iterator
  cases found.symm.trans present
  exact place

end

theorem early_iff (sound : Sound loader state)
    (follows : Follows loader prefetch first earlier index ordinal state)
    (found : state.iterators[index]? = some iterator) :
    iterator.position < iterator.length ↔ ordinal < loader.batching.count := by
  have low : ordinal < loader.batching.count ↔ ordinal * loader.batchSize < loader.length :=
    Batching.lt_count_iff
  rw [follows.position found, sound.sized iterator (List.mem_of_getElem? found), low]
  omega

/-- The range an iterator asks for is that of its ordinal. -/
theorem range (sound : Sound loader state)
    (follows : Follows loader prefetch first earlier index ordinal state)
    (found : state.iterators[index]? = some iterator) (early : ordinal < loader.batching.count) :
    iterator.position = (span loader.batching ordinal).1 ∧
      min (iterator.position + loader.batchSize) iterator.length =
        (span loader.batching ordinal).2 := by
  have low : ordinal * loader.batchSize < loader.length := Batching.lt_count_iff.mp early
  have place : iterator.position = ordinal * loader.batchSize :=
    (follows.position found).trans (Nat.min_eq_right (Nat.le_of_lt low))
  rw [place, sound.sized iterator (List.mem_of_getElem? found)]
  exact ⟨rfl, rfl⟩

/-- Only the active iterator produces a batch. -/
theorem running {other : Nat} (sound : Sound loader state)
    (found : state.iterators[other]? = some iterator) (held : iterator.held = true)
    (valid : iterator.valid = true) (more : iterator.position < iterator.length) :
    state.active = some other := by
  by_contra idle
  rcases sound.others other iterator found idle with invalid | loose | past
  · exact Bool.noConfusion (valid.symm.trans invalid)
  · exact Bool.noConfusion (held.symm.trans loose)
  · exact absurd past (Nat.not_le.mpr more)

/-- A call either has the iterator deliver the batch of its ordinal or leaves it there, and
the iterator only stops after the last batch. -/
theorem step (sound : Sound loader state) (room : 0 < prefetch)
    (follows : Follows loader prefetch first earlier index ordinal state)
    (stepEq : loader.machine.step state label = some (event, after)) :
    (∃ source, event = .delivered index source (loader.batch ordinal) ∧
        ordinal < loader.batching.count ∧
        Follows loader prefetch first earlier index (ordinal + 1) after) ∨
      ((∀ source batch, event ≠ .delivered index source batch) ∧
        (event = .stopped index → ordinal = loader.batching.count) ∧
        Follows loader prefetch first earlier index ordinal after) := by
  cases label with
  | iter sizing =>
      right
      rcases StructuredLoader.iter_cases (Option.some.inj stepEq) with
        ⟨-, ⟨_, rfl⟩, rfl⟩ | ⟨-, rfl, rfl⟩
      · exact ⟨fun _ _ => nofun, nofun, follows.settle⟩
      · exact ⟨fun _ _ => nofun, nofun, follows.settle.begin _ _⟩
  | next other raises =>
      obtain ⟨iterator, found, held, ⟨-, rfl, rfl⟩ | ⟨valid, past, rfl, rfl⟩ |
        ⟨valid, more, produced, middle, pulled, answer⟩⟩ := StructuredLoader.next_cases stepEq
      · exact .inr ⟨fun _ _ => nofun, nofun, follows⟩
      · refine .inr ⟨fun _ _ => nofun, fun same => ?_, follows.setIterator found fun _ => rfl⟩
        cases same
        have late := (follows.early_iff sound found).not.mp (Nat.not_lt.mpr past)
        exact Nat.le_antisymm follows.counted (Nat.not_lt.mp late)
      have active := running sound found held valid more
      obtain ⟨iterators, same⟩ := StructuredLoader.nextBatch_frame pulled
      by_cases here : index = other
      · subst here
        have early := (follows.early_iff sound found).mp more
        obtain ⟨start, stop⟩ := follows.range sound found early
        rw [stop] at answer
        rw [stop, start] at pulled
        rcases (follows.ahead active).nextBatch sound room early pulled with
          ⟨rfl, -, -⟩ | ⟨source, rfl, -, later⟩
        · obtain ⟨-, rfl, rfl⟩ | ⟨_, impossible, -⟩ := answer
          · exact .inr ⟨fun _ _ => nofun, nofun, follows.close iterators⟩
          · cases impossible
        · obtain ⟨impossible, -⟩ | ⟨_, produced, rfl, rfl⟩ := answer
          · cases impossible
          cases produced
          refine .inl ⟨source, rfl, early, early, ⟨_, List.getElem?_set_self ?_, ?_⟩, fun _ =>
            ⟨later.probe, later.frontier⟩⟩
          · rw [iterators]
            exact (List.getElem?_eq_some_iff.mp found).1
          · rw [Nat.succ_mul, Nat.min_comm]
            rfl
      · right
        obtain ⟨-, rfl, rfl⟩ | ⟨batch, -, rfl, rfl⟩ := answer
        · exact ⟨fun _ _ => nofun, nofun, follows.close iterators⟩
        · obtain ⟨mine, present, place⟩ := follows.iterator
          refine ⟨fun _ _ equal => ?_, nofun, follows.counted, ⟨mine, ?_, place⟩, fun mine => ?_⟩
          · cases equal
            exact here rfl
          · rw [LoaderState.setIterator, iterators]
            exact (List.getElem?_set_ne fun equal => here equal.symm).trans present
          · have current : middle.active = some index := mine
            rw [same, active] at current
            exact absurd (Option.some.inj current).symm here
  | drop other =>
      right
      change state.drop other = some (event, after) at stepEq
      unfold LoaderState.drop at stepEq
      split at stepEq
      · cases stepEq
      · rename_i iterator found
        cases stepEq
        exact ⟨fun _ _ => nofun, nofun, follows.setIterator found fun _ => rfl⟩
  | close =>
      cases stepEq
      exact .inr ⟨fun _ _ => nofun, nofun, follows.close rfl⟩
  | restore cursor =>
      cases stepEq
      have closed := follows.close rfl
      exact .inr ⟨fun _ _ => nofun, nofun, closed.counted, closed.iterator, nofun⟩
  | setEpoch =>
      cases stepEq
      exact .inr ⟨fun _ _ => nofun, nofun, follows.counted, follows.iterator, fun active =>
        ⟨(follows.ahead active).probe, (follows.ahead active).frontier⟩⟩

end Follows

/-! ### Until the next iterator -/

/-- The caller asks for a new iterator. -/
def Label.Iterates : Label → Prop
  | .iter _ => True
  | _ => False

/-- The loader was closed since: its table is empty, and no range was submitted twice. -/
structure Shut (earlier : List (Nat × Nat)) (state : LoaderState Batch) : Prop where
  idle : state.active = none
  futures : state.adapter.futures = []
  submitted : ∃ ranges, state.adapter.submitted = earlier ++ ranges ∧ ranges.Nodup

/-- Until the caller asks for another, the iterator is active or the loader is closed. -/
theorem Follows.stays (sound : Sound loader state) (room : 0 < prefetch)
    (follows : Follows loader prefetch first earlier index ordinal state)
    (here : state.active = some index ∨ Shut earlier state) (alone : ¬ label.Iterates)
    (stepEq : loader.machine.step state label = some (event, after)) :
    after.active = some index ∨ Shut earlier after := by
  have shut : Shut earlier state.close := by
    rcases here with active | closed
    · exact ⟨rfl, rfl, (follows.ahead active).frontier.once⟩
    · exact ⟨rfl, rfl, closed.submitted⟩
  have kept : after.active = state.active → after.adapter = state.adapter →
      after.active = some index ∨ Shut earlier after := by
    intro active adapter
    rcases here with mine | closed
    · exact .inl (active.trans mine)
    · exact .inr ⟨active.trans closed.idle, adapter ▸ closed.futures,
        adapter ▸ closed.submitted⟩
  cases label with
  | iter sizing => exact absurd trivial alone
  | next other raises =>
      obtain ⟨iterator, found, held, ⟨-, -, rfl⟩ | ⟨-, -, -, rfl⟩ |
        ⟨valid, more, produced, middle, pulled, answer⟩⟩ := StructuredLoader.next_cases stepEq
      · exact here
      · exact kept rfl rfl
      have active := running sound found held valid more
      obtain ⟨-, same⟩ := StructuredLoader.nextBatch_frame pulled
      have mine : state.active = some index := by
        rcases here with mine | closed
        · exact mine
        · exact nomatch closed.idle.symm.trans active
      cases Option.some.inj (mine.symm.trans active)
      obtain ⟨-, -, rfl⟩ | ⟨_, -, -, rfl⟩ := answer
      · have early := (follows.early_iff sound found).mp more
        obtain ⟨start, stop⟩ := follows.range sound found early
        rw [stop, start] at pulled
        rcases (follows.ahead mine).nextBatch sound room early pulled with
          ⟨-, unchanged, -⟩ | ⟨_, -, -, later⟩
        · obtain ⟨ranges, log, nodup⟩ := shut.submitted
          exact .inr ⟨rfl, rfl, ranges, unchanged.trans log, nodup⟩
        · exact .inr ⟨rfl, rfl, later.frontier.once⟩
      · exact .inl (same.trans mine)
  | drop other =>
      change state.drop other = some (event, after) at stepEq
      unfold LoaderState.drop at stepEq
      split at stepEq <;> cases stepEq
      exact kept rfl rfl
  | close =>
      cases stepEq
      exact .inr shut
  | restore cursor =>
      cases stepEq
      exact .inr ⟨rfl, rfl, shut.submitted⟩
  | setEpoch =>
      cases stepEq
      exact kept rfl rfl

/-! ### An undisturbed consumer -/

/-- Calls that neither raise nor take the iterator away. -/
def Label.Quiet (index : Nat) : Label → Prop
  | .next _ raises => raises = false
  | .drop other => other ≠ index
  | .setEpoch => True
  | _ => False

/-- The active iterator is held by its consumer, and its first batch did not raise. -/
structure Attended (index : Nat) (state : LoaderState Batch) : Prop where
  active : state.active = some index
  held : ∃ iterator, state.iterators[index]? = some iterator ∧ iterator.held = true
  probe : state.probe ≠ some .error

namespace Attended

theorem setIterator {other : Nat} {iterator changed : StructuredIterator}
    (attended : Attended index state) (found : state.iterators[other]? = some iterator)
    (same : index = other → changed.held = iterator.held) :
    Attended index (state.setIterator other changed) := by
  obtain ⟨mine, present, held⟩ := attended.held
  refine ⟨attended.active, ?_, attended.probe⟩
  by_cases here : index = other
  · subst here
    refine ⟨changed, List.getElem?_set_self (List.getElem?_eq_some_iff.mp found).1, ?_⟩
    cases found.symm.trans present
    exact (same rfl).trans held
  · exact ⟨mine, (List.getElem?_set_ne fun equal => here equal.symm).trans present, held⟩

/-- A call that does not raise has a batch delivered while there is one. -/
theorem call (sound : Sound loader state) (room : 0 < prefetch)
    (follows : Follows loader prefetch first earlier index ordinal state)
    (attended : Attended index state) :
    ∃ event after, loader.machine.step state (.next index false) = some (event, after) ∧
      Attended index after ∧
      ((ordinal < loader.batching.count ∧
          ∃ source, event = .delivered index source (loader.batch ordinal)) ∨
        (ordinal = loader.batching.count ∧ event = .stopped index)) := by
  obtain ⟨iterator, found, held⟩ := attended.held
  have valid := sound.valid index iterator found attended.active
  change ∃ event after, loader.next state index false = some (event, after) ∧ _
  unfold StructuredLoader.next
  rw [found]
  simp only [held, valid, Bool.not_true, Bool.false_eq_true, if_false]
  by_cases early : ordinal < loader.batching.count
  · have more := (follows.early_iff sound found).mpr early
    obtain ⟨start, stop⟩ := follows.range sound found early
    rw [if_neg (Nat.not_le.mpr more), stop]
    cases pulled : loader.nextBatch state iterator.position (span loader.batching ordinal).2
        false with
    | mk produced middle =>
        rw [start] at pulled
        obtain ⟨iterators, active⟩ := StructuredLoader.nextBatch_frame pulled
        rcases (follows.ahead attended.active).nextBatch sound room early pulled with
          ⟨-, -, raised | raised⟩ | ⟨source, rfl, none, -⟩
        · cases raised
        · exact absurd raised attended.probe
        · have middleAttended : Attended index middle :=
            ⟨active.trans attended.active, iterators ▸ attended.held,
              none ▸ fun same => nomatch same⟩
          have present : middle.iterators[index]? = some iterator := iterators ▸ found
          exact ⟨_, _, rfl, middleAttended.setIterator present fun _ => held.symm,
            .inl ⟨early, source, rfl⟩⟩
  · have past := Nat.not_lt.mp ((follows.early_iff sound found).not.mpr early)
    rw [if_pos past]
    exact ⟨_, _, rfl, attended.setIterator found fun _ => held.symm,
      .inr ⟨Nat.le_antisymm follows.counted (Nat.not_lt.mp early), rfl⟩⟩

/-- Another quiet call gets no batch of the iterator and leaves the consumer undisturbed. -/
theorem other (sound : Sound loader state) (attended : Attended index state)
    (quiet : label.Quiet index) (differs : label ≠ .next index false)
    (stepEq : loader.machine.step state label = some (event, after)) :
    Attended index after ∧ ∀ source batch, event ≠ .delivered index source batch := by
  cases label with
  | next other raises =>
      cases quiet
      obtain ⟨iterator, found, held, ⟨-, rfl, rfl⟩ | ⟨-, -, rfl, rfl⟩ |
        ⟨valid, more, -⟩⟩ := StructuredLoader.next_cases stepEq
      · exact ⟨attended, fun _ _ => nofun⟩
      · exact ⟨attended.setIterator found fun _ => rfl, fun _ _ => nofun⟩
      · have active := Follows.running sound found held valid more
        cases Option.some.inj (active.symm.trans attended.active)
        exact absurd rfl differs
  | drop other =>
      change state.drop other = some (event, after) at stepEq
      unfold LoaderState.drop at stepEq
      split at stepEq
      · cases stepEq
      · rename_i iterator found
        cases stepEq
        exact ⟨attended.setIterator found fun same => absurd same.symm quiet, fun _ _ => nofun⟩
  | setEpoch =>
      cases stepEq
      exact ⟨⟨attended.active, attended.held, attended.probe⟩, fun _ _ => nofun⟩
  | _ => exact quiet.elim

end Attended

/-! ### Futures of earlier epochs -/

theorem Since.weaken {mark lower : Nat} {adapter : NativePipelineAdapter}
    (since : Since mark adapter) (less : lower ≤ mark) : Since lower adapter :=
  ⟨Nat.le_trans less since.reached, fun entry member =>
    Nat.le_trans less (since.table entry member)⟩

/-- What a call delivers, and what it leaves in the table, was submitted since. -/
theorem Since.step {mark : Nat} (since : Since mark state.adapter)
    (stepEq : loader.machine.step state label = some (event, after)) :
    Since mark after.adapter ∧ ∀ index source batch,
      event = .delivered index (some source) batch → mark ≤ source := by
  have closed : Since mark state.close.adapter := (Since.closed state.adapter).weaken since.reached
  cases label with
  | iter sizing =>
      have settled : Since mark state.settle.adapter := by
        unfold LoaderState.settle
        split
        · exact since
        · split
          · exact since
          · exact closed
      rcases StructuredLoader.iter_cases (Option.some.inj stepEq) with
        ⟨-, ⟨_, rfl⟩, rfl⟩ | ⟨-, rfl, rfl⟩
      · exact ⟨settled, fun _ _ _ => nofun⟩
      · exact ⟨(Since.begun _ _ _ _ _).weaken settled.reached, fun _ _ _ => nofun⟩
  | next other raises =>
      obtain ⟨iterator, found, held, ⟨-, rfl, rfl⟩ | ⟨-, -, rfl, rfl⟩ |
        ⟨-, -, produced, middle, pulled, answer⟩⟩ := StructuredLoader.next_cases stepEq
      · exact ⟨since, fun _ _ _ => nofun⟩
      · exact ⟨since, fun _ _ _ => nofun⟩
      have recent : Since mark middle.adapter ∧
          ∀ batch source, produced = some ⟨batch, some source⟩ → mark ≤ source := by
        unfold StructuredLoader.nextBatch at pulled
        split at pulled
        · cases pulled
          exact ⟨since, fun _ _ same => nomatch same⟩
        · cases pulled
          exact ⟨since, fun _ _ same => nomatch same⟩
        · cases called : state.adapter.nativeBatch loader.pipeline iterator.position
              (min (iterator.position + loader.batchSize) iterator.length) raises with
          | mk batch adapter =>
              rw [called] at pulled
              cases pulled
              exact since.nativeBatch called
      obtain ⟨-, rfl, rfl⟩ | ⟨batch, rfl, rfl, rfl⟩ := answer
      · exact ⟨(Since.closed middle.adapter).weaken recent.1.reached, fun _ _ _ => nofun⟩
      · refine ⟨recent.1, fun _ source value same => ?_⟩
        cases batch
        cases same
        exact recent.2 _ _ rfl
  | drop other =>
      change state.drop other = some (event, after) at stepEq
      unfold LoaderState.drop at stepEq
      split at stepEq <;> cases stepEq
      exact ⟨since, fun _ _ _ => nofun⟩
  | close | restore cursor =>
      cases stepEq
      exact ⟨closed, fun _ _ _ => nofun⟩
  | setEpoch =>
      cases stepEq
      exact ⟨since, fun _ _ _ => nofun⟩

end Steps

/-! ### Runs -/

section Runs

variable {Sample Batch : Type*} {loader : StructuredLoader Sample Batch}
  {prefetch first index start : Nat} {earlier : List (Nat × Nat)}
  {state after : LoaderState Batch} {trace : List (Label × Event Batch)} {labels : List Label}

theorem delivered_append (one two : List (Label × Event Batch)) :
    delivered index (one ++ two) = delivered index one ++ delivered index two :=
  List.filterMap_append

theorem delivered_singleton (label : Label) (source : Option Nat) (batch : Batch) :
    delivered index [(label, .delivered index source batch)] = [batch] := by
  simp [delivered]

theorem delivered_other {label : Label} {event : Event Batch}
    (other : ∀ source batch, event ≠ .delivered index source batch) :
    delivered index [(label, event)] = [] := by
  cases event with
  | delivered iterator source batch =>
      have differs : iterator ≠ index := fun same => other source batch (same ▸ rfl)
      simp [delivered, differs]
  | _ => rfl

/-- An iterator delivers consecutive batches, and stops only past the last. -/
structure Delivering (loader : StructuredLoader Sample Batch) (prefetch first : Nat)
    (earlier : List (Nat × Nat)) (index start ordinal : Nat)
    (trace : List (Label × Event Batch)) (state : LoaderState Batch) : Prop where
  sound : Sound loader state
  follows : Follows loader prefetch first earlier index ordinal state
  onwards : start ≤ ordinal
  batches : delivered index trace = (List.range' start (ordinal - start)).map loader.batch
  stopped : .stopped index ∈ trace.map Prod.snd → ordinal = loader.batching.count

namespace Delivering

variable {ordinal : Nat} {label : Label} {event : Event Batch}

theorem delivers {source : Option Nat}
    (delivering : Delivering loader prefetch first earlier index start ordinal trace state)
    (sound : Sound loader after)
    (follows : Follows loader prefetch first earlier index (ordinal + 1) after)
    (early : ordinal < loader.batching.count) :
    Delivering loader prefetch first earlier index start (ordinal + 1)
      (trace ++ [(label, .delivered index source (loader.batch ordinal))]) after := by
  have onwards := delivering.onwards
  refine ⟨sound, follows, Nat.le_succ_of_le onwards, ?_, fun member => ?_⟩
  · have count : ordinal + 1 - start = (ordinal - start) + 1 := by omega
    have last : start + (ordinal - start) = ordinal := by omega
    rw [delivered_append, delivered_singleton, delivering.batches, count, List.range'_concat,
      Nat.one_mul, last, List.map_append]
    rfl
  · rw [List.map_append, List.mem_append] at member
    rcases member with old | new
    · exact absurd (delivering.stopped old) (Nat.ne_of_lt early)
    · exact absurd (List.mem_singleton.mp new) nofun

theorem passes
    (delivering : Delivering loader prefetch first earlier index start ordinal trace state)
    (sound : Sound loader after)
    (follows : Follows loader prefetch first earlier index ordinal after)
    (other : ∀ source batch, event ≠ .delivered index source batch)
    (spent : event = .stopped index → ordinal = loader.batching.count) :
    Delivering loader prefetch first earlier index start ordinal (trace ++ [(label, event)])
      after := by
  refine ⟨sound, follows, delivering.onwards, ?_, fun member => ?_⟩
  · rw [delivered_append, delivered_other other, List.append_nil, delivering.batches]
  · rw [List.map_append, List.mem_append] at member
    rcases member with old | new
    · exact delivering.stopped old
    · exact spent (List.mem_singleton.mp new).symm

/-- One call moves the iterator on by at most one batch. -/
theorem step (delivering : Delivering loader prefetch first earlier index start ordinal trace state)
    (room : 0 < prefetch) (stepEq : loader.machine.step state label = some (event, after)) :
    ∃ reached, Delivering loader prefetch first earlier index start reached
      (trace ++ [(label, event)]) after := by
  have sound := delivering.sound.step stepEq
  rcases delivering.follows.step delivering.sound room stepEq with
    ⟨source, rfl, early, later⟩ | ⟨other, spent, same⟩
  · exact ⟨ordinal + 1, delivering.delivers sound later early⟩
  · exact ⟨ordinal, delivering.passes sound same other spent⟩

end Delivering

/-- In every run an iterator delivers consecutive batches; until the next iterator it is
active or the loader is closed. -/
theorem Follows.run (sound : Sound loader state) (room : 0 < prefetch)
    (follows : Follows loader prefetch first earlier index start state)
    (active : state.active = some index)
    (reached : loader.machine.run state labels = some (trace, after)) :
    ∃ ordinal, Delivering loader prefetch first earlier index start ordinal trace after ∧
      ((∀ label ∈ labels, ¬ label.Iterates) →
        after.active = some index ∨ Shut earlier after) := by
  have carried := loader.machine.run_induction
    (motive := fun trace state => ∃ ordinal,
      Delivering loader prefetch first earlier index start ordinal trace state ∧
        ((∀ entry ∈ trace, ¬ entry.1.Iterates) →
          state.active = some index ∨ Shut earlier state))
    (fun trace state label event next holds _ stepEq => by
      obtain ⟨ordinal, delivering, here⟩ := holds
      obtain ⟨reached, later⟩ := delivering.step room stepEq
      refine ⟨reached, later, fun alone => ?_⟩
      refine delivering.follows.stays delivering.sound room (here fun entry member =>
        alone entry (List.mem_append_left _ member)) ?_ stepEq
      exact alone (label, event) (List.mem_append_right _ List.mem_cons_self))
    [] ⟨start, ⟨sound, follows, Nat.le_refl _, by rw [Nat.sub_self]; rfl,
      fun none => nomatch none⟩, fun _ => .inl active⟩
    (loader.machine.along_true state labels) reached
  obtain ⟨ordinal, delivering, here⟩ := carried
  refine ⟨ordinal, delivering, fun alone => here fun entry member => ?_⟩
  refine alone entry.1 ?_
  rw [← loader.machine.labels_run reached]
  exact List.mem_map_of_mem member

/-- An undisturbed consumer gets a batch for every call until the last. -/
theorem Attended.run (sound : Sound loader state) (room : 0 < prefetch)
    (follows : Follows loader prefetch first earlier index start state)
    (attended : Attended index state) (quiet : ∀ label ∈ labels, label.Quiet index)
    (reached : loader.machine.run state labels = some (trace, after)) :
    ∃ ordinal, Delivering loader prefetch first earlier index start ordinal trace after ∧
      Attended index after ∧
      ordinal = min loader.batching.count (start + labels.count (.next index false)) ∧
      (loader.batching.count < start + labels.count (.next index false) →
        .stopped index ∈ trace.map Prod.snd) := by
  have carried := loader.machine.run_induction
    (motive := fun trace state => ∃ ordinal,
      Delivering loader prefetch first earlier index start ordinal trace state ∧
        Attended index state ∧
        ordinal = min loader.batching.count
          (start + (trace.map Prod.fst).count (.next index false)) ∧
        (loader.batching.count < start + (trace.map Prod.fst).count (.next index false) →
          .stopped index ∈ trace.map Prod.snd))
    (fun trace state label event next holds quiet stepEq => by
      obtain ⟨ordinal, delivering, attended, counted, spent⟩ := holds
      have sound := delivering.sound.step stepEq
      have counts : ((trace ++ [(label, event)]).map Prod.fst).count (.next index false) =
          (trace.map Prod.fst).count (.next index false) +
            if label = .next index false then 1 else 0 := by
        rw [List.map_append, List.count_append, List.map_singleton, List.count_singleton]
        simp only [beq_iff_eq]
      rw [counts]
      by_cases call : label = .next index false
      · subst call
        rw [if_pos rfl]
        obtain ⟨_, _, same, kept, answer⟩ :=
          Attended.call delivering.sound room delivering.follows attended
        cases same.symm.trans stepEq
        obtain ⟨reached, later⟩ := delivering.step room stepEq
        have moved := delivering.follows.step delivering.sound room stepEq
        rcases answer with ⟨early, source, rfl⟩ | ⟨late, rfl⟩
        · obtain ⟨_, same, -, follows⟩ | ⟨other, -⟩ := moved
          · cases same
            refine ⟨ordinal + 1, delivering.delivers sound follows early, kept, ?_, ?_⟩
            · omega
            · intro past
              omega
          · exact absurd rfl (other source _)
        · obtain ⟨_, same, -⟩ | ⟨other, spent, follows⟩ := moved
          · cases same
          · refine ⟨ordinal, delivering.passes sound follows other spent, kept, ?_, fun _ => ?_⟩
            · omega
            · rw [List.map_append]
              exact List.mem_append_right _ List.mem_cons_self
      · rw [if_neg call, Nat.add_zero]
        obtain ⟨kept, other⟩ := attended.other delivering.sound quiet call stepEq
        rcases delivering.follows.step delivering.sound room stepEq with
          ⟨source, rfl, -⟩ | ⟨-, last, follows⟩
        · exact absurd rfl (other source _)
        · refine ⟨ordinal, delivering.passes sound follows other last, kept, counted, ?_⟩
          intro past
          rw [List.map_append]
          exact List.mem_append_left _ (spent past))
    [] ⟨start, ⟨sound, follows, Nat.le_refl _, by rw [Nat.sub_self]; rfl,
      fun none => nomatch none⟩, attended, (Nat.min_eq_right follows.counted).symm,
      fun past => absurd past (Nat.not_lt.mpr follows.counted)⟩
    (loader.machine.along_of_labels state quiet) reached
  rw [List.nil_append, loader.machine.labels_run reached] at carried
  exact carried

/-! ### The law of the frontier -/

/-- No future submitted before `mark` is delivered from the state on. -/
def Forgets (loader : StructuredLoader Sample Batch) (mark : Nat) (state : LoaderState Batch) :
    Prop :=
  ∀ labels trace after, loader.machine.run state labels = some (trace, after) →
    ∀ label index source batch,
      (label, .delivered index (some source) batch) ∈ trace → mark ≤ source

theorem Since.forgets {mark : Nat} (since : Since mark state.adapter) :
    Forgets loader mark state := by
  intro labels trace after reached
  have carried := loader.machine.run_induction
    (motive := fun trace state => Since mark state.adapter ∧
      ∀ label index source batch, (label, .delivered index (some source) batch) ∈ trace →
        mark ≤ source)
    (fun trace state label event next holds _ stepEq => by
      obtain ⟨kept, recent⟩ := holds.1.step stepEq
      refine ⟨kept, fun other index source batch member => ?_⟩
      rcases List.mem_append.mp member with old | new
      · exact holds.2 other index source batch old
      · cases List.mem_singleton.mp new
        exact recent index source batch rfl)
    [] ⟨since, fun _ _ _ _ none => nomatch none⟩
    (loader.machine.along_true state labels) reached
  exact carried.2

/-- What an iterator created at the batch `start` delivers, with the table of its epoch. -/
structure ExactFrontier (loader : StructuredLoader Sample Batch)
    (depth start submitted index : Nat) (created : LoaderState Batch) : Prop where
  /-- In every later run it delivers the remaining batches in order, and stops past the last. -/
  ordered : ∀ labels trace after, loader.machine.run created labels = some (trace, after) →
    delivered index trace <+: loader.remaining start ∧
      (.stopped index ∈ trace.map Prod.snd → delivered index trace = loader.remaining start)
  /-- Unless the retained first batch raised, every undisturbed call is answered by the next
  of them, or by the end. -/
  answered : created.probe ≠ some .error → ∀ labels trace after,
    (∀ label ∈ labels, label.Quiet index) →
    loader.machine.run created labels = some (trace, after) →
    delivered index trace = (loader.remaining start).take (labels.count (.next index false)) ∧
      ((loader.remaining start).length < labels.count (.next index false) →
        .stopped index ∈ trace.map Prod.snd) ∧
      (loader.machine.step after (.next index false)).isSome
  /-- Until the next iterator the table is bounded, and empty after the last batch. -/
  bounded : ∀ labels trace after, (∀ label ∈ labels, ¬ label.Iterates) →
    loader.machine.run created labels = some (trace, after) →
    after.adapter.futures.length ≤ (depth + loader.batchSize - 1) / loader.batchSize ∧
      (delivered index trace = loader.remaining start → after.adapter.futures = [])
  /-- Until the next iterator no range is submitted twice. -/
  once : ∀ labels trace after, (∀ label ∈ labels, ¬ label.Iterates) →
    loader.machine.run created labels = some (trace, after) →
    (after.adapter.submitted.drop submitted).Nodup

/-- The call ended with the adapter closed. -/
def Event.Shuts : Event Batch → Prop
  | .raised _ | .closed | .restored => True
  | _ => False

theorem StructuredLoader.one_le_ceiling (loader : StructuredLoader Sample Batch)
    (sizing : Process.Sizing) :
    1 ≤ (loader.frontierDepth sizing + loader.batchSize - 1) / loader.batchSize := by
  have enough := Process.Sizing.width_le_depth
    { sizing with batchSize := some loader.batchSize }
  have width : loader.batchSize ≤ loader.frontierDepth sizing := enough
  have positive := loader.positive
  rw [Nat.le_div_iff_mul_le positive]
  omega

theorem Event.Shuts.since {label : Label} {event : Event Batch} (shuts : event.Shuts)
    (stepEq : loader.machine.step state label = some (event, after)) :
    Since after.adapter.submitted.length after.adapter := by
  cases label with
  | iter sizing =>
      rcases StructuredLoader.iter_cases (Option.some.inj stepEq) with
        ⟨-, ⟨_, rfl⟩, -⟩ | ⟨-, rfl, -⟩
      · exact shuts.elim
      · exact shuts.elim
  | next other raises =>
      obtain ⟨iterator, found, held, ⟨-, rfl, -⟩ | ⟨-, -, rfl, -⟩ |
        ⟨-, -, produced, middle, pulled, ⟨-, rfl, rfl⟩ | ⟨_, -, rfl, -⟩⟩⟩ :=
        StructuredLoader.next_cases stepEq
      · exact shuts.elim
      · exact shuts.elim
      · exact Since.closed middle.adapter
      · exact shuts.elim
  | drop other =>
      change state.drop other = some (event, after) at stepEq
      unfold LoaderState.drop at stepEq
      split at stepEq <;> cases stepEq
      exact shuts.elim
  | close | restore cursor =>
      cases stepEq
      exact Since.closed state.adapter
  | setEpoch =>
      cases stepEq
      exact shuts.elim

/-- The first of the remaining batches. -/
theorem StructuredLoader.take_remaining {count : Nat}
    (inside : start + count ≤ loader.batching.count) :
    (loader.remaining start).take count = (List.range' start count).map loader.batch := by
  rw [remaining, ← List.map_take, List.take_range'_of_length_ge (by omega)]

theorem StructuredLoader.length_remaining :
    (loader.remaining start).length = loader.batching.count - start := by
  rw [remaining, List.length_map, List.length_range']

namespace Delivering

variable {ordinal : Nat}

theorem taken
    (delivering : Delivering loader prefetch first earlier index start ordinal trace state) :
    delivered index trace = (loader.remaining start).take (ordinal - start) := by
  have onwards := delivering.onwards
  have counted := delivering.follows.counted
  rw [delivering.batches, StructuredLoader.take_remaining (by omega)]

/-- Once all remaining batches are delivered, the iterator has come to the end. -/
theorem ended
    (delivering : Delivering loader prefetch first earlier index start ordinal trace state)
    (all : delivered index trace = loader.remaining start) : ordinal = loader.batching.count := by
  have onwards := delivering.onwards
  have counted := delivering.follows.counted
  have lengths := congrArg List.length (delivering.batches.symm.trans all)
  rw [List.length_map, List.length_range', StructuredLoader.length_remaining] at lengths
  omega

end Delivering

/-- A new iterator of a sound loader has the exact frontier of its cursor. -/
theorem ExactFrontier.of_created {sizing : Process.Sizing} (sound : Sound loader state)
    (called : loader.machine.step state (.iter sizing) = some (.created index, after)) :
    ExactFrontier loader (loader.frontierDepth sizing) state.cursor
      state.adapter.submitted.length index after := by
  have created := sound.step called
  obtain ⟨first, follows, active, held⟩ := Follows.created sound (Option.some.inj called)
  have ceiling := loader.one_le_ceiling sizing
  rw [Nat.max_eq_right ceiling] at follows
  refine ⟨?_, ?_, ?_, ?_⟩
  · intro labels trace final reached
    obtain ⟨ordinal, delivering, -⟩ := follows.run created ceiling active reached
    refine ⟨delivering.taken ▸ List.take_prefix _ _, fun stopped => ?_⟩
    rw [delivering.batches, delivering.stopped stopped]
    rfl
  · intro fine labels trace final quiet reached
    obtain ⟨ordinal, delivering, attended, counted, spent⟩ :=
      Attended.run created ceiling follows ⟨active, held, fine⟩ quiet reached
    have inside := follows.counted
    refine ⟨?_, fun past => spent ?_, ?_⟩
    · rw [delivering.taken, List.take_eq_take_iff, StructuredLoader.length_remaining]
      omega
    · rw [StructuredLoader.length_remaining] at past
      omega
    · obtain ⟨_, _, answer, -⟩ :=
        Attended.call delivering.sound ceiling delivering.follows attended
      rw [answer]
      rfl
  · intro labels trace final alone reached
    obtain ⟨ordinal, delivering, here⟩ := follows.run created ceiling active reached
    rcases here alone with active | shut
    · have ahead := delivering.follows.ahead active
      refine ⟨ahead.frontier.bounded, fun all => ahead.frontier.empty ?_⟩
      have ended := delivering.ended all
      have inside := ahead.frontier.inside
      omega
    · rw [shut.futures]
      exact ⟨Nat.zero_le _, fun _ => rfl⟩
  · intro labels trace final alone reached
    obtain ⟨ordinal, delivering, here⟩ := follows.run created ceiling active reached
    have log : ∃ ranges, final.adapter.submitted = state.adapter.submitted ++ ranges ∧
        ranges.Nodup := by
      rcases here alone with active | shut
      · exact (delivering.follows.ahead active).frontier.once
      · exact shut.submitted
    obtain ⟨ranges, same, nodup⟩ := log
    rw [same, List.drop_left]
    exact nodup

/-- In every run of a loader, an iterator delivers the remaining batches in order and exactly
once from a bounded table in which no range is submitted twice, and neither after a new
iterator nor after an exception or a close is a future of before delivered. -/
theorem structured_native_frontier {raises : Bool}
    (reached : loader.machine.run (loader.construct raises) labels = some (trace, state)) :
    (∀ sizing index created,
      loader.machine.step state (.iter sizing) = some (.created index, created) →
      ExactFrontier loader (loader.frontierDepth sizing) state.cursor
          state.adapter.submitted.length index created ∧
        Forgets loader state.adapter.submitted.length created) ∧
      ∀ label event after, loader.machine.step state label = some (event, after) →
        event.Shuts → Forgets loader after.adapter.submitted.length after := by
  have sound := loader.machine.run_invariant
    (fun _ _ _ _ sound _ stepEq => Sound.step sound stepEq) (Sound.construct loader raises)
    (loader.machine.along_true _ labels) reached
  refine ⟨fun sizing index created called => ⟨.of_created sound called, ?_⟩, ?_⟩
  · have submitted := state.settle_frame.2
    rcases StructuredLoader.iter_cases (Option.some.inj called) with
      ⟨-, ⟨_, same⟩, -⟩ | ⟨-, -, rfl⟩
    · cases same
    · rw [← submitted]
      exact (Since.begun _ _ _ _ _).forgets
  · intro label event after stepEq shuts
    exact (shuts.since stepEq).forgets

/-- Eleven positions in batches of three. -/
def eleven : StructuredLoader Nat (List Nat) := ⟨⟨id, id⟩, 11, false, 3, by decide⟩

/-- An iterator resumed after the first batch. -/
theorem structured_native_frontier_eleven :
    ∃ state created,
      eleven.machine.run (eleven.construct false) [.restore 1] =
        some ([(.restore 1, .restored)], state) ∧
      eleven.machine.step state (.iter ⟨none, none, some 9, 9, none⟩) =
        some (.created 0, created) ∧
      eleven.remaining 1 = [[3, 4, 5], [6, 7, 8], [9, 10]] ∧
      ExactFrontier eleven 9 1 0 0 created := by
  have reached : eleven.machine.run (eleven.construct false) [.restore 1] =
      some ([(.restore 1, .restored)], { (eleven.construct false).close with cursor := 1 }) :=
    rfl
  have created : eleven.machine.step { (eleven.construct false).close with cursor := 1 }
      (.iter ⟨none, none, some 9, 9, none⟩) = some (.created 0,
        eleven.begin { (eleven.construct false).close with cursor := 1 }
          ⟨none, none, some 9, 9, none⟩ 3) := rfl
  exact ⟨_, _, reached, created, rfl,
    ((structured_native_frontier reached).1 _ 0 _ created).1⟩

end Runs

end Hyperloader.Structured
