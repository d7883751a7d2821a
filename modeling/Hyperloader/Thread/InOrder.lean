/-
Module: Hyperloader.Thread.InOrder
Purpose: The thread iterator under in-order delivery, thread/iterator.py: dataset calls in
  flight over a bounded window, their results taken in sampler order.
Trusted boundary: a submitted dataset call returns a value.
Main exports: OrderedIterator, OrderedIterator.machine, Window, ordered_procession
-/
import Hyperloader.Foundations.Procession
import Hyperloader.Thread.Iterator

namespace Hyperloader.Thread

open Foundations State Distributed
open Hyperloader.Process (Yield)

/-- The batch `_next_value` is assembling: where it stops and the positions it has. -/
structure Assembly where
  stop : Nat
  samples : List Nat

/-- `ThreadIterator` of an in-order loader, with the call to `__next__` it is in. -/
structure OrderedIterator where
  iterator : ThreadIterator
  assembly : Option Assembly

namespace OrderedIterator

variable (loader : ThreadLoader)

/-- `ThreadIterator.__init__`; in-order delivery restores no batches beyond the cursor. -/
def start (cursor : Nat) : Except Raised OrderedIterator := do
  let iterator ← ThreadIterator.start loader cursor []
  .ok ⟨iterator, none⟩

/-- `loader.close()` before the exception is raised again. -/
def fail (state : OrderedIterator) (failure : Raised) : Yield × OrderedIterator :=
  (.raised failure, { state with iterator := { state.iterator with valid := false } })

/-- `_next_sample` and the end of the batch it may complete; there is no next state while
the result is waited for. -/
def nextSample (state : OrderedIterator) (assembly : Assembly) :
    Option (Yield × OrderedIterator) :=
  let position := state.iterator.position
  if position ∈ state.iterator.done then
    let popped : ThreadIterator :=
      { state.iterator with
        done := state.iterator.done.erase position
        position := position + 1 }
    let filled := popped.fillFrontier loader
    let samples := assembly.samples ++ [position]
    if filled.position < assembly.stop then
      some (.quiet, ⟨filled, some { assembly with samples := samples }⟩)
    else some (.delivered samples, ⟨filled, none⟩)
  else if position ∈ state.iterator.running then none
  else some (state.fail (.keyError position))

/-- One pass of `__next__`: a sample, which may complete the batch. -/
def next (state : OrderedIterator) : Option (Yield × OrderedIterator) :=
  match state.assembly with
  | some assembly => nextSample loader state assembly
  | none =>
      if !state.iterator.valid then
        some (.raised (.runtimeError ThreadIterator.INACTIVE), state)
      else if loader.length ≤ state.iterator.position then
        some (.exhausted, { state with iterator := { state.iterator with complete := true } })
      else
        nextSample loader state
          ⟨min (state.iterator.position + loader.sizing.width) loader.length, []⟩

/-- A pass of the consumer, or a dataset call that returns. -/
inductive Label where
  | next
  | work (position : Nat)

def step (state : OrderedIterator) : Label → Option (Yield × OrderedIterator)
  | .next => next loader state
  | .work position =>
      if position ∈ state.iterator.running then
        some (.quiet,
          { state with
            iterator :=
              { state.iterator with
                running := state.iterator.running.erase position
                done := insert position state.iterator.done } })
      else none

def machine : Machine OrderedIterator Label Yield where
  step := step loader

end OrderedIterator

/-! ### The window -/

/-- The futures are those of the positions from `first` up to the next one submitted. -/
structure Window (loader : ThreadLoader) (first : Nat) (iterator : ThreadIterator) : Prop where
  unrestored : iterator.restoredBatches = ∅
  opened : first ≤ iterator.nextSubmit
  within : iterator.nextSubmit ≤ loader.length
  futures : ∀ position, position ∈ iterator.futures ↔
    first ≤ position ∧ position < iterator.nextSubmit
  apart : Disjoint iterator.running iterator.done

section Windows

variable {loader : ThreadLoader} {first : Nat} {iterator : ThreadIterator}

section

variable (window : Window loader first iterator)

include window

theorem Window.card :
    iterator.futures.card = iterator.nextSubmit - first := by
  have interval : iterator.futures = Finset.Ico first iterator.nextSubmit := by
    ext position
    rw [window.futures, Finset.mem_Ico]
  rw [interval, Nat.card_Ico]

/-- Submitting the next position. -/
theorem Window.submit (inside : iterator.nextSubmit < loader.length) :
    Window loader first
      { iterator with
        running := insert iterator.nextSubmit iterator.running
        nextSubmit := iterator.nextSubmit + 1 } := by
  have opened := window.opened
  have fresh : iterator.nextSubmit ∉ iterator.futures := fun member =>
    Nat.lt_irrefl _ ((window.futures _).mp member).2
  refine ⟨window.unrestored, Nat.le_succ_of_le opened, inside, fun position => ?_, ?_⟩
  · show position ∈ insert iterator.nextSubmit iterator.running ∪ iterator.done ↔
      first ≤ position ∧ position < iterator.nextSubmit + 1
    rw [Finset.insert_union, Finset.mem_insert]
    show _ ∨ position ∈ iterator.futures ↔ _
    rw [window.futures]
    omega
  · rw [Finset.disjoint_insert_left]
    exact ⟨fun done => fresh (Finset.mem_union_right _ done), window.apart⟩

/-- Submitting goes on until the window is as wide as its depth or at the end. -/
theorem Window.fill {count : Nat} (left : iterator.nextSubmit + count = loader.length) :
    Window loader first
        (ThreadIterator.fill loader (List.range' iterator.nextSubmit count) iterator) ∧
      Refilled loader iterator
        (ThreadIterator.fill loader (List.range' iterator.nextSubmit count) iterator) := by
  induction count generalizing iterator with
  | zero => exact ⟨window, ⟨_, _, rfl⟩, Or.inl left, Nat.le_refl _⟩
  | succ count ih =>
      rw [List.range'_succ, ThreadIterator.fill]
      by_cases full : iterator.depth ≤ iterator.futures.card
      · rw [if_pos full]
        exact ⟨window, ⟨_, _, rfl⟩, Or.inr full, Nat.le_refl _⟩
      · have inside : iterator.nextSubmit < loader.length := by omega
        have unrestored :
            iterator.nextSubmit / loader.sizing.width ∉ iterator.restoredBatches := by
          rw [window.unrestored]
          exact Finset.notMem_empty _
        rw [if_neg full, if_neg unrestored]
        obtain ⟨kept, refilled⟩ := ih (window.submit inside)
          (by show iterator.nextSubmit + 1 + count = _; omega)
        refine ⟨kept, refilled.rest, refilled.filled, Nat.le_trans refilled.lighter ?_⟩
        have grown := Finset.card_insert_le iterator.nextSubmit iterator.running
        show 4 * (loader.length - (iterator.nextSubmit + 1)) +
          3 * (insert iterator.nextSubmit iterator.running).card ≤ _
        omega

theorem Window.fillFrontier :
    Window loader first (iterator.fillFrontier loader) ∧
      Refilled loader iterator (iterator.fillFrontier loader) :=
  window.fill (Nat.add_sub_cancel' window.within)

/-- A result taken leaves the window at its front. -/
theorem Window.pop (done : first ∈ iterator.done) (position : Nat) :
    Window loader (first + 1)
      { iterator with done := iterator.done.erase first, position := position } := by
  have member := (window.futures first).mp (Finset.mem_union_right _ done)
  refine ⟨window.unrestored, member.2, window.within, fun other => ?_,
    window.apart.mono_right (Finset.erase_subset _ _)⟩
  show other ∈ iterator.running ∪ iterator.done.erase first ↔ _
  have other_futures := window.futures other
  rw [ThreadIterator.futures, Finset.mem_union] at other_futures
  rw [Finset.mem_union, Finset.mem_erase]
  constructor
  · rintro (running | ⟨different, held⟩)
    · have inside := other_futures.mp (Or.inl running)
      have different : other ≠ first := fun same =>
        Finset.disjoint_left.mp window.apart running (same ▸ done)
      exact ⟨Nat.lt_of_le_of_ne inside.1 (Ne.symm different), inside.2⟩
    · have inside := other_futures.mp (Or.inr held)
      exact ⟨Nat.lt_of_le_of_ne inside.1 (Ne.symm different), inside.2⟩
  · rintro ⟨low, high⟩
    rcases other_futures.mpr ⟨Nat.le_of_succ_le low, high⟩ with running | held
    · exact Or.inl running
    · exact Or.inr ⟨fun same => Nat.lt_irrefl first (same ▸ low), held⟩

/-- A call that returns stays in the window. -/
theorem Window.work {position : Nat} (running : position ∈ iterator.running) :
    Window loader first
      { iterator with
        running := iterator.running.erase position
        done := insert position iterator.done } := by
  refine ⟨window.unrestored, window.opened, window.within, fun other => ?_, ?_⟩
  · refine Iff.trans ?_ (window.futures other)
    show other ∈ iterator.running.erase position ∪ insert position iterator.done ↔
      other ∈ iterator.running ∪ iterator.done
    simp only [Finset.mem_union, Finset.mem_erase, Finset.mem_insert]
    constructor
    · rintro (⟨-, old⟩ | rfl | held)
      · exact Or.inl old
      · exact Or.inl running
      · exact Or.inr held
    · rintro (old | held)
      · by_cases same : other = position
        · exact Or.inr (Or.inl same)
        · exact Or.inl ⟨same, old⟩
      · exact Or.inr (Or.inr held)
  · rw [Finset.disjoint_insert_right]
    exact ⟨Finset.notMem_erase _ _, window.apart.mono_left (Finset.erase_subset _ _)⟩

end

end Windows

/-! ### The order of delivery -/

/-- The batch being assembled has its first samples, and the iterator stands at the next. -/
structure Gathering (loader : ThreadLoader) (done position : Nat) (assembly : Assembly) :
    Prop where
  real : done < loader.batching.count
  stop : assembly.stop = done * loader.sizing.width + loader.batching.size done
  samples : assembly.samples = List.range' (done * loader.sizing.width) assembly.samples.length
  stands : position = done * loader.sizing.width + assembly.samples.length
  short : position < assembly.stop

/-- The iterator has delivered `done` batches, and its window starts where it stands. -/
structure Ordered (loader : ThreadLoader) (done : Nat) (state : OrderedIterator) : Prop where
  valid : state.iterator.valid = true
  counted : done ≤ loader.batching.count
  window : Window loader state.iterator.position state.iterator
  filled : state.iterator.nextSubmit = loader.length ∨
    state.iterator.depth ≤ state.iterator.futures.card
  deep : state.iterator.position < loader.length → 0 < state.iterator.depth
  between : state.assembly = none →
    state.iterator.position = min loader.length (done * loader.sizing.width)
  gathering : ∀ assembly, state.assembly = some assembly →
    Gathering loader done state.iterator.position assembly

/-- How far an iterator is from its end. -/
def OrderedIterator.remaining (loader : ThreadLoader) (state : OrderedIterator) : Nat :=
  4 * (loader.length - state.iterator.nextSubmit) + 3 * state.iterator.running.card +
    2 * state.iterator.done.card

/-- The batches delivered: those whose positions are behind the batch being assembled. -/
def OrderedIterator.delivered (loader : ThreadLoader) (state : OrderedIterator) : Nat :=
  let taken := (state.assembly.elim [] Assembly.samples).length
  (state.iterator.position - taken + loader.sizing.width - 1) / loader.sizing.width

/-- What one step leaves: the batches delivered, or one more with its event. -/
structure Turned (loader : ThreadLoader) (done : Nat) (event : Yield)
    (state : OrderedIterator) : Prop where
  sound : ¬ event.Failed
  outcome : (event.batch = none ∧ Ordered loader done state) ∨
    (event = .delivered (loader.batching.batch done) ∧ Ordered loader (done + 1) state)
  ended : event.Finished → done = loader.batching.count

section Steps

variable {loader : ThreadLoader} {done : Nat} {state : OrderedIterator}

theorem Gathering.first (real : done < loader.batching.count) :
    Gathering loader done (done * loader.sizing.width)
      ⟨min (done * loader.sizing.width + loader.sizing.width) loader.length, []⟩ := by
  have low : done * loader.sizing.width < loader.length := Batching.lt_count_iff.mp real
  have positive := loader.width_pos
  have size : loader.batching.size done =
      min loader.sizing.width (loader.length - done * loader.sizing.width) := rfl
  refine ⟨real, ?_, rfl, rfl, ?_⟩
  · show min (done * loader.sizing.width + loader.sizing.width) loader.length = _
    omega
  · show _ < min (done * loader.sizing.width + loader.sizing.width) loader.length
    omega

section

variable (ordered : Ordered loader done state)

include ordered

/-- The position a batch being assembled waits for has a future. -/
theorem Ordered.held (inside : state.iterator.position < loader.length) :
    state.iterator.position ∈ state.iterator.running ∨
      state.iterator.position ∈ state.iterator.done := by
  have member : state.iterator.position ∈ state.iterator.futures := by
    rw [ordered.window.futures]
    refine ⟨Nat.le_refl _, ?_⟩
    rcases ordered.filled with all | wide
    · exact all ▸ inside
    · have some := ordered.deep inside
      rw [ordered.window.card] at wide
      exact Nat.lt_of_sub_pos (Nat.lt_of_lt_of_le some wide)
  exact Finset.mem_union.mp member

/-- The sample the iterator stands at is taken once its call has returned. -/
theorem Ordered.nextSample {assembly : Assembly}
    (gathering : Gathering loader done state.iterator.position assembly)
    (returned : state.iterator.position ∈ state.iterator.done) :
    ∃ event after,
      OrderedIterator.nextSample loader state assembly = some (event, after) ∧
        Turned loader done event after ∧ after.remaining loader < state.remaining loader := by
  obtain ⟨kept, refilled⟩ := (ordered.window.pop returned (state.iterator.position + 1)).fillFrontier
  obtain ⟨running, nextSubmit, fillEq⟩ := refilled.rest
  have whole := gathering.stop
  have reached := gathering.stands
  have short := gathering.short
  have ends : assembly.stop ≤ loader.length := by
    have size : loader.batching.size done =
        min loader.sizing.width (loader.length - done * loader.sizing.width) := rfl
    have low : done * loader.sizing.width < loader.length :=
      Batching.lt_count_iff.mp gathering.real
    omega
  have lighter := refilled.lighter
  have erased : (state.iterator.done.erase state.iterator.position).card <
      state.iterator.done.card := Finset.card_erase_lt_of_mem returned
  have deeper : 0 < state.iterator.depth := ordered.deep (by omega)
  have samples : assembly.samples ++ [state.iterator.position] =
      List.range' (done * loader.sizing.width) (assembly.samples.length + 1) := by
    rw [List.range'_1_concat, ← reached]
    exact congrArg (· ++ [state.iterator.position]) gathering.samples
  rw [OrderedIterator.nextSample]
  simp only [if_pos returned]
  have further : (ThreadIterator.fillFrontier loader
      { state.iterator with
        done := state.iterator.done.erase state.iterator.position
        position := state.iterator.position + 1 }).position = state.iterator.position + 1 := by
    rw [fillEq]
  have ordered_after : ∀ (others : Option Assembly) (more : Nat),
      more ≤ loader.batching.count →
      (others = none →
        state.iterator.position + 1 = min loader.length (more * loader.sizing.width)) →
      (∀ other, others = some other →
        Gathering loader more (state.iterator.position + 1) other) →
      Ordered loader more ⟨ThreadIterator.fillFrontier loader
        { state.iterator with
          done := state.iterator.done.erase state.iterator.position
          position := state.iterator.position + 1 }, others⟩ := by
    intro others more counted between gathered
    refine ⟨?_, counted, ?_, refilled.filled, fun _ => ?_, ?_, ?_⟩
    · rw [fillEq]
      exact ordered.valid
    · show Window loader (ThreadIterator.fillFrontier loader _).position _
      rw [further]
      exact kept
    · rw [fillEq]
      exact deeper
    · intro none
      exact further.trans (between none)
    · intro other some
      show Gathering loader more (ThreadIterator.fillFrontier loader _).position other
      rw [further]
      exact gathered other some
  have measure : ∀ others : Option Assembly, OrderedIterator.remaining loader
      ⟨ThreadIterator.fillFrontier loader
        { state.iterator with
          done := state.iterator.done.erase state.iterator.position
          position := state.iterator.position + 1 }, others⟩ < state.remaining loader := by
    intro others
    have same : (ThreadIterator.fillFrontier loader
        { state.iterator with
          done := state.iterator.done.erase state.iterator.position
          position := state.iterator.position + 1 }).done =
        state.iterator.done.erase state.iterator.position := by
      rw [fillEq]
    rw [OrderedIterator.remaining, OrderedIterator.remaining, same]
    dsimp only at lighter ⊢
    omega
  by_cases more : state.iterator.position + 1 < assembly.stop
  · refine ⟨.quiet, _, if_pos (further.symm ▸ more), ⟨nofun, Or.inl ⟨rfl, ?_⟩, nofun⟩,
      measure _⟩
    refine ordered_after _ done ordered.counted nofun fun other same => ?_
    obtain rfl := Option.some.inj same
    refine ⟨gathering.real, whole, ?_, ?_, more⟩
    · show assembly.samples ++ [state.iterator.position] = _
      rw [List.length_append]
      exact samples
    · rw [List.length_append, reached]
      rfl
  · refine ⟨_, _, if_neg (further.symm ▸ more), ⟨nofun, Or.inr ⟨?_, ?_⟩, nofun⟩, measure _⟩
    · have length : assembly.samples.length + 1 = loader.batching.size done := by omega
      rw [samples, length]
      rfl
    · refine ordered_after none (done + 1) gathering.real (fun _ => ?_) nofun
      have size : loader.batching.size done =
          min loader.sizing.width (loader.length - done * loader.sizing.width) := rfl
      rw [Nat.succ_mul]
      omega

/-- The iterator past its last batch. -/
theorem Ordered.late (idle : state.assembly = none) (late : loader.length ≤ state.iterator.position) :
    OrderedIterator.next loader state = some (.exhausted,
        { state with iterator := { state.iterator with complete := true } }) ∧
      done = loader.batching.count := by
  constructor
  · simp only [OrderedIterator.next, idle, ordered.valid, Bool.not_true, Bool.false_eq_true,
      if_false, if_pos late]
  · apply Nat.le_antisymm ordered.counted
    have here := ordered.between idle
    have past : ¬ done < loader.batching.count := by
      rw [Batching.lt_count_iff]
      show ¬ done * loader.sizing.width < loader.length
      omega
    exact Nat.le_of_not_lt past

/-- The batch a call assembles: the one it is in, or the next one. -/
theorem Ordered.early (early : state.assembly = none → state.iterator.position < loader.length) :
    state.iterator.position < loader.length ∧
      ∃ assembly, Gathering loader done state.iterator.position assembly ∧
        OrderedIterator.next loader state = OrderedIterator.nextSample loader state assembly := by
  cases idle : state.assembly with
  | none =>
      have inside := early idle
      have here := ordered.between idle
      have low : done * loader.sizing.width < loader.length := by omega
      rw [Nat.min_eq_right (Nat.le_of_lt low)] at here
      refine ⟨inside, ⟨min (state.iterator.position + loader.sizing.width) loader.length, []⟩,
        ?_, ?_⟩
      · rw [here]
        exact Gathering.first (Batching.lt_count_iff.mpr low)
      · simp only [OrderedIterator.next, idle, ordered.valid, Bool.not_true, Bool.false_eq_true,
          if_false, if_neg (Nat.not_le.mpr inside)]
  | some assembly =>
      have gathering := ordered.gathering assembly idle
      have low : done * loader.sizing.width < loader.length :=
        Batching.lt_count_iff.mp gathering.real
      have size : loader.batching.size done =
          min loader.sizing.width (loader.length - done * loader.sizing.width) := rfl
      have short := gathering.short
      have stop := gathering.stop
      refine ⟨by omega, assembly, gathering, ?_⟩
      simp only [OrderedIterator.next, idle]

/-- A call that returns. -/
theorem Ordered.work {position : Nat} (running : position ∈ state.iterator.running) :
    Ordered loader done { state with
      iterator := { state.iterator with
        running := state.iterator.running.erase position
        done := insert position state.iterator.done } } := by
  have kept := ordered.window.work running
  refine ⟨ordered.valid, ordered.counted, kept, ?_, ordered.deep, ordered.between,
    ordered.gathering⟩
  refine ordered.filled.imp id fun wide => ?_
  rw [ordered.window.card] at wide
  rw [kept.card]
  exact wide

end

/-- Every step keeps the order of delivery. -/
theorem Ordered.step (ordered : Ordered loader done state) {label : OrderedIterator.Label}
    {event : Yield} {after : OrderedIterator}
    (stepEq : OrderedIterator.step loader state label = some (event, after)) :
    Turned loader done event after := by
  cases label with
  | next =>
      by_cases late : state.assembly = none ∧ loader.length ≤ state.iterator.position
      · obtain ⟨nextEq, all⟩ := ordered.late late.1 late.2
        obtain ⟨rfl, rfl⟩ := Prod.mk.inj (Option.some.inj (nextEq.symm.trans stepEq))
        exact ⟨nofun, Or.inl ⟨rfl, ⟨ordered.valid, ordered.counted,
          ⟨ordered.window.unrestored, ordered.window.opened, ordered.window.within,
            ordered.window.futures, ordered.window.apart⟩,
          ordered.filled, ordered.deep, ordered.between, ordered.gathering⟩⟩, fun _ => all⟩
      · obtain ⟨inside, assembly, gathering, nextEq⟩ := ordered.early fun idle =>
          Nat.lt_of_not_le fun past => late ⟨idle, past⟩
        replace stepEq := nextEq.symm.trans stepEq
        by_cases returned : state.iterator.position ∈ state.iterator.done
        · obtain ⟨_, _, sampleEq, turned, -⟩ := ordered.nextSample gathering returned
          obtain ⟨rfl, rfl⟩ := Prod.mk.inj (Option.some.inj (sampleEq.symm.trans stepEq))
          exact turned
        · have running := (ordered.held inside).resolve_right returned
          rw [OrderedIterator.nextSample, if_neg returned, if_pos running] at stepEq
          cases stepEq
  | work position =>
      by_cases running : position ∈ state.iterator.running
      · replace stepEq := (if_pos running).symm.trans stepEq
        obtain ⟨rfl, rfl⟩ := Prod.mk.inj (Option.some.inj stepEq)
        exact ⟨nofun, Or.inl ⟨rfl, ordered.work running⟩, nofun⟩
      · replace stepEq := (if_neg running).symm.trans stepEq
        cases stepEq

theorem Ordered.delivered (ordered : Ordered loader done state) :
    state.delivered loader = done := by
  rw [OrderedIterator.delivered]
  cases idle : state.assembly with
  | none =>
      rw [ordered.between idle]
      exact Batching.count_of_boundary ordered.counted
  | some assembly =>
      have gathering := ordered.gathering assembly idle
      have low : done * loader.sizing.width < loader.length :=
        Batching.lt_count_iff.mp gathering.real
      have begun : state.iterator.position - assembly.samples.length =
          min loader.length (done * loader.sizing.width) := by
        rw [gathering.stands, Nat.add_sub_cancel, Nat.min_eq_right (Nat.le_of_lt low)]
      show (state.iterator.position - assembly.samples.length + loader.sizing.width - 1) /
        loader.sizing.width = done
      rw [begun]
      exact Batching.count_of_boundary ordered.counted

/-- Some step always ends the run or brings its end nearer. -/
theorem Ordered.nearer (ordered : Ordered loader done state) :
    ∃ label event after, OrderedIterator.step loader state label = some (event, after) ∧
      (event.Finished ∨ after.remaining loader < state.remaining loader) := by
  by_cases late : state.assembly = none ∧ loader.length ≤ state.iterator.position
  · exact ⟨.next, _, _, (ordered.late late.1 late.2).1, Or.inl trivial⟩
  · obtain ⟨inside, assembly, gathering, nextEq⟩ := ordered.early fun idle =>
      Nat.lt_of_not_le fun past => late ⟨idle, past⟩
    by_cases returned : state.iterator.position ∈ state.iterator.done
    · obtain ⟨event, after, sampleEq, -, less⟩ := ordered.nextSample gathering returned
      exact ⟨.next, event, after, nextEq.trans sampleEq, Or.inr less⟩
    · have running := (ordered.held inside).resolve_right returned
      refine ⟨.work state.iterator.position, .quiet, _, if_pos running, Or.inr ?_⟩
      have fewer := Finset.card_erase_lt_of_mem running
      have more := Finset.card_insert_le state.iterator.position state.iterator.done
      show 4 * (loader.length - state.iterator.nextSubmit) +
          3 * (state.iterator.running.erase state.iterator.position).card +
          2 * (insert state.iterator.position state.iterator.done).card <
        4 * (loader.length - state.iterator.nextSubmit) + 3 * state.iterator.running.card +
          2 * state.iterator.done.card
      omega

end Steps

/-- From a cursor within the epoch the iterator starts behind the batches before it. -/
theorem OrderedIterator.start_spec (loader : ThreadLoader) {cursor : Nat}
    (inside : cursor ≤ loader.batching.count) :
    ∃ state, OrderedIterator.start loader cursor = .ok state ∧
      Ordered loader cursor state := by
  let state : DeliveredBatchState :=
    ⟨cursor, ∅, fun _ member => absurd member (Finset.notMem_empty _)⟩
  have below : ∀ ordinal ∈ state.delivered, ordinal < loader.batching.count := by
    intro ordinal member
    rcases DeliveredBatchState.mem_delivered.mp member with early | none
    · exact Nat.lt_of_lt_of_le early inside
    · exact absurd none (Finset.notMem_empty _)
  have startEq := ThreadIterator.start_eq loader below
  let iterator := ThreadIterator.opened loader state
  have window : Window loader iterator.position iterator := by
    refine ⟨rfl, Nat.le_refl _, Nat.min_le_left _ _, fun position => ?_,
      Finset.disjoint_empty_left _⟩
    refine iff_of_false (Finset.notMem_empty _) fun both => ?_
    exact Nat.lt_irrefl _ (Nat.lt_of_le_of_lt both.1 both.2)
  have roomy := loader.sizing.width_le_depth
  have positive := loader.width_pos
  have deep : iterator.position < loader.length → 0 < iterator.depth := by
    intro low
    have place : iterator.position = min loader.length (cursor * loader.sizing.width) := rfl
    show 0 < min (loader.length - min loader.length (cursor * loader.sizing.width))
      (max loader.sizing.frontierDepth 0)
    omega
  have begun : ∃ after, ThreadIterator.start loader cursor [] = .ok after ∧
      Window loader iterator.position after ∧ Refilled loader iterator after := by
    have empty : state.bitmap = [] := if_pos rfl
    rw [← empty]
    by_cases nothing : loader.length = 0
    · refine ⟨iterator, startEq.trans (congrArg Except.ok (if_pos nothing)), window,
        ⟨_, _, rfl⟩, Or.inl ?_, Nat.le_refl _⟩
      show min loader.length (cursor * loader.sizing.width) = loader.length
      rw [nothing, Nat.zero_min]
    · exact ⟨_, startEq.trans (congrArg Except.ok (if_neg nothing)), window.fillFrontier⟩
  obtain ⟨after, afterEq, kept, ⟨running, nextSubmit, rfl⟩, filled, -⟩ := begun
  refine ⟨⟨_, none⟩, ?_, rfl, inside, kept, filled, deep, fun _ => rfl, nofun⟩
  rw [OrderedIterator.start, afterEq]
  rfl

end Hyperloader.Thread
