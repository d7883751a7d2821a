/-
Module: Hyperloader.Process.Resume
Purpose: `ProcessIterator.__init__` of process/iterator.py from any delivered state: what
  it commits in its schedule, and that the iterator has delivered what the state says.
Trusted boundary: none
Main exports: Opened, ProcessIterator.start_spec
-/
import Hyperloader.Process.Completion

namespace Hyperloader.Process

open Foundations Schedule Schedule.Native
open State Distributed

/-! ### Where the schedule starts -/

variable (loader : ProcessLoader)

theorem scheduleDepth_le {depth : Nat} (deep : 0 < depth) : loader.scheduleDepth depth ≤ depth := by
  unfold ProcessLoader.scheduleDepth
  split
  · exact Nat.le_refl _
  · rename_i size transport
    have positive : 0 < size := ProcessLoader.width_of_transport transport ▸ loader.width_pos
    have quotient : (depth + size - 1) / size ≤ depth := by
      rw [Nat.div_le_iff_le_mul_add_pred positive]
      have more : depth ≤ size * depth := Nat.le_mul_of_pos_left _ positive
      omega
    omega

theorem perBatch_le_scheduleDepth {depth : Nat} (deep : loader.sizing.width ≤ depth) :
    loader.perBatch ≤ loader.scheduleDepth depth := by
  unfold ProcessLoader.perBatch ProcessLoader.scheduleDepth
  cases loader.transportBatchSize with
  | none => exact deep
  | some size => exact Nat.le_max_left _ _

theorem scheduleLength_le : loader.scheduleLength ≤ loader.length := by
  cases transport : loader.transportBatchSize with
  | none => simp [ProcessLoader.scheduleLength, transport]
  | some size =>
      rw [ProcessLoader.scheduleLength_of_transport transport]
      have positive := loader.width_pos
      by_contra more
      have inside : loader.length < loader.batching.count := Nat.lt_of_not_le more
      rw [Batching.lt_count_iff] at inside
      have width : loader.length * loader.sizing.width < loader.length := inside
      have enough := Nat.le_mul_of_pos_right loader.length positive
      omega

theorem scheduleLength_pos (nonempty : loader.length ≠ 0) : 0 < loader.scheduleLength := by
  have first : 0 < loader.batching.count := by
    rw [Batching.lt_count_iff, Nat.zero_mul]
    exact Nat.pos_of_ne_zero nonempty
  rw [← ProcessLoader.grid_count, Batching.lt_count_iff, Nat.zero_mul] at first
  exact first

theorem scheduleStart_of_lt {ordinal : Nat} (inside : ordinal < loader.batching.count) :
    loader.scheduleStart (min loader.length (ordinal * loader.sizing.width)) =
      ordinal * loader.perBatch := by
  have low : ordinal * loader.sizing.width < loader.length := by
    rwa [Batching.lt_count_iff] at inside
  rw [Nat.min_eq_right (Nat.le_of_lt low), ProcessLoader.scheduleStart]
  cases transport : loader.transportBatchSize with
  | none => rw [ProcessLoader.perBatch, transport]
  | some size =>
      have positive := loader.width_pos
      rw [ProcessLoader.width_of_transport transport] at positive
      simp only [ProcessLoader.perBatch_of_transport transport,
        ProcessLoader.width_of_transport transport, Nat.mul_div_cancel _ positive, Nat.mul_one]

theorem scheduleStart_le {resumePosition : Nat} (inside : resumePosition ≤ loader.length) :
    loader.scheduleStart resumePosition ≤ loader.scheduleLength := by
  unfold ProcessLoader.scheduleStart ProcessLoader.scheduleLength
  cases transport : loader.transportBatchSize with
  | none => exact inside
  | some size =>
      have positive : 0 < size :=
        ProcessLoader.width_of_transport transport ▸ loader.width_pos
      exact Nat.div_le_div_right (by omega)

/-- Behind the last batch the schedule starts at its last position at the earliest. -/
theorem scheduleLength_le_start {cursor : Nat} (late : loader.batching.count ≤ cursor) :
    loader.scheduleLength ≤
      loader.scheduleStart (min loader.length (cursor * loader.sizing.width)) + 1 := by
  have past : loader.length ≤ cursor * loader.sizing.width := by
    apply Nat.le_of_not_lt
    intro low
    exact Nat.not_lt.mpr late (Batching.lt_count_iff.mpr low)
  rw [Nat.min_eq_left past, ProcessLoader.scheduleLength, ProcessLoader.scheduleStart]
  cases transport : loader.transportBatchSize with
  | none => exact Nat.le_succ _
  | some size =>
      have positive := loader.width_pos
      rw [ProcessLoader.width_of_transport transport] at positive
      refine Nat.le_trans (Nat.div_le_div_right (Nat.sub_le _ 1)) ?_
      rw [Nat.add_div_right _ positive]

variable {state : DeliveredBatchState}

/-- The schedule positions of the batches restored. -/
theorem mem_restored (inside : ∀ ordinal ∈ state.ahead, ordinal < loader.batching.count)
    {position : Nat} :
    position ∈ (state.ahead.sort (· ≤ ·)).flatMap loader.positionsOf ↔
      position < loader.scheduleLength ∧ position / loader.perBatch ∈ state.ahead := by
  rw [List.mem_flatMap]
  constructor
  · rintro ⟨ordinal, member, inBatch⟩
    rw [Finset.mem_sort] at member
    rw [ProcessLoader.positionsOf_eq (inside ordinal member)] at inBatch
    obtain ⟨below, quotient⟩ := Batching.mem_batch.mp inBatch
    exact ⟨below, (show position / loader.perBatch = ordinal from quotient) ▸ member⟩
  · rintro ⟨below, member⟩
    refine ⟨position / loader.perBatch, (Finset.mem_sort _).mpr member, ?_⟩
    rw [ProcessLoader.positionsOf_eq (inside _ member)]
    exact Batching.mem_batch.mpr ⟨below, rfl⟩

theorem restored_nodup (inside : ∀ ordinal ∈ state.ahead, ordinal < loader.batching.count) :
    ((state.ahead.sort (· ≤ ·)).flatMap loader.positionsOf).Nodup := by
  rw [List.nodup_flatMap]
  refine ⟨fun ordinal member => ?_, ?_⟩
  · rw [Finset.mem_sort] at member
    rw [ProcessLoader.positionsOf_eq (inside ordinal member)]
    exact List.nodup_range'
  · refine List.Pairwise.imp_of_mem ?_ (Finset.sort_nodup state.ahead (· ≤ ·))
    intro one two oneMember twoMember different position first second
    rw [Finset.mem_sort] at oneMember twoMember
    rw [ProcessLoader.positionsOf_eq (inside one oneMember)] at first
    rw [ProcessLoader.positionsOf_eq (inside two twoMember)] at second
    exact different
      ((Batching.mem_batch.mp first).2.symm.trans (Batching.mem_batch.mp second).2)

theorem le_foldl_max (positions : List Nat) (first : Nat) :
    first ≤ positions.foldl max first ∧ ∀ bound, first ≤ bound →
      (∀ position ∈ positions, position ≤ bound) → positions.foldl max first ≤ bound := by
  induction positions generalizing first with
  | nil => exact ⟨Nat.le_refl _, fun _ low _ => low⟩
  | cons position positions ih =>
      obtain ⟨low, high⟩ := ih (max first position)
      refine ⟨Nat.le_trans (Nat.le_max_left _ _) low, fun bound less within => ?_⟩
      refine high bound (Nat.max_le.mpr ⟨less, within position List.mem_cons_self⟩) ?_
      exact fun other member => within other (List.mem_cons_of_mem _ member)

/-! ### The iterator of a delivered state -/

/-- A frontier as an iterator starts with it: the batches ahead of the cursor are committed, and
nothing is sent. -/
structure Opened (state : DeliveredBatchState) (frontier : Frontier) : Prop where
  linked : Linked (loader.scheduleStart (min loader.length (state.base * loader.sizing.width)))
    loader.scheduleLength loader.workers frontier
  idle : frontier.running ++ frontier.finished = []
  ready : frontier.ready = ∅
  nextCommit : frontier.schedule.nextCommit =
    loader.scheduleStart (min loader.length (state.base * loader.sizing.width))
  delivered : ∀ position, position ∈ frontier.schedule.delivered ↔
    position < loader.scheduleLength ∧ position / loader.perBatch ∈ state.ahead

/-- Seeding the batches ahead of the cursor commits what the state has delivered. -/
theorem Opened.tracked {frontier : Frontier} (opened : Opened loader state frontier)
    (early : state.base < loader.batching.count) (deep : loader.perBatch ≤ frontier.depth) :
    Tracked loader state.delivered frontier := by
  refine ⟨⟨_, opened.linked⟩, fun position below => ?_, deep⟩
  have before : position < frontier.schedule.nextCommit ↔
      position / loader.perBatch < state.base := by
    rw [Nat.div_lt_iff_lt_mul ProcessLoader.perBatch_pos, opened.nextCommit,
      scheduleStart_of_lt loader early]
  rw [Frontier.Committed, opened.delivered, before, DeliveredBatchState.mem_delivered]
  exact or_congr_right (and_iff_right below)

/-- The schedule over a delivered state is accepted, with every batch ahead of the cursor
seeded. -/
theorem frontier_of_state (inside : ∀ ordinal ∈ state.delivered, ordinal < loader.batching.count)
    (nonempty : loader.length ≠ 0) :
    let positions := (state.ahead.sort (· ≤ ·)).flatMap loader.positionsOf
    let start := loader.scheduleStart (min loader.length (state.base * loader.sizing.width))
    let span := if positions = [] then 0 else positions.foldl max 0 - start + 1
    ∃ opened seeded frontier,
      Frontier.new start loader.scheduleLength
        (max (loader.scheduleDepth loader.sizing.frontierDepth) span)
        (max (loader.scheduleDepth loader.sizing.frontierCeiling) span) loader.workers
        loader.growthMultiplier = .ok opened ∧
      opened.seed positions = .ok seeded ∧
      seeded.adapt loader.controllerWidth = .ok frontier ∧
      Opened loader state frontier ∧ loader.perBatch ≤ frontier.depth := by
  intro positions start span
  have ahead : ∀ ordinal ∈ state.ahead, ordinal < loader.batching.count := fun ordinal member =>
    inside ordinal (DeliveredBatchState.mem_delivered.mpr (Or.inr member))
  have wide := loader.width_pos
  have roomy := loader.sizing.width_le_depth
  have tall : loader.sizing.width ≤ loader.sizing.frontierCeiling :=
    Nat.le_trans loader.sizing.width_le_minimum
      (loader.sizing.minimum_le_clipBudget (Nat.le_max_left _ _))
  have deep := perBatch_le_scheduleDepth loader roomy
  have batched : 0 < loader.perBatch := ProcessLoader.perBatch_pos
  have words := loader.words
  have shorter := scheduleLength_le loader
  have length : 0 < loader.scheduleLength := scheduleLength_pos loader nonempty
  have spanned : span ≤ loader.scheduleLength := by
    by_cases none : positions = []
    · exact (if_pos none).trans_le (Nat.zero_le _)
    · have highest := (le_foldl_max positions 0).2 (loader.scheduleLength - 1) (Nat.zero_le _)
        fun position member => Nat.le_sub_one_of_lt ((mem_restored loader ahead).mp member).1
      have spans : span = positions.foldl max 0 - start + 1 := if_neg none
      omega
  have depthLow := scheduleDepth_le loader (Nat.lt_of_lt_of_le wide roomy)
  have ceilingLow := scheduleDepth_le loader (Nat.lt_of_lt_of_le wide tall)
  have depthWord := loader.depthWord
  have ceilingWord := loader.ceilingWord
  obtain ⟨opened, openedEq, linked, idle, head, none, depth⟩ :=
    @linked_new start loader.scheduleLength loader.workers
      (max (loader.scheduleDepth loader.sizing.frontierDepth) span)
      (max (loader.scheduleDepth loader.sizing.frontierCeiling) span)
      loader.growthMultiplier (by omega)
      (scheduleStart_le loader (Nat.min_le_left _ _)) (by omega) (by omega) loader.spawned
      loader.growing (by omega)
  have beyond : ∀ position ∈ positions, opened.schedule.nextCommit < position ∧
      position < loader.scheduleLength ∧ position ∉ opened.schedule.delivered := by
    intro position member
    obtain ⟨below, restored⟩ := (mem_restored loader ahead).mp member
    have above := state.beyond _ restored
    refine ⟨?_, below, none ▸ Finset.notMem_empty position⟩
    rw [head]
    show loader.scheduleStart (min loader.length (state.base * loader.sizing.width)) < position
    rw [scheduleStart_of_lt loader (Nat.lt_trans above (ahead _ restored))]
    have low := Nat.mul_le_mul_right loader.perBatch above
    have quotient := Nat.div_mul_le_self position loader.perBatch
    rw [Nat.succ_mul] at low
    omega
  obtain ⟨seeded, seededEq, kept, still, same, delivered, sameDepth⟩ :=
    linked.seed idle (restored_nodup loader ahead) beyond
  obtain ⟨frontier, adaptEq, last, adapted⟩ :=
    kept.adapt loader.controlled.1 loader.controlled.2
  refine ⟨opened, seeded, frontier, openedEq, seededEq, adaptEq,
    ⟨last, ?_, adapted.ready.trans still.ready, adapted.nextCommit.trans (same.trans head),
      fun position => ?_⟩, ?_⟩
  · rw [adapted.running, adapted.finished, still.running, still.finished]
    rfl
  · rw [adapted.delivered, delivered, none, ← mem_restored loader ahead]
    exact or_iff_right (Finset.notMem_empty position)
  · have deeper := adapted.deeper
    omega

/-- The iterator of a delivered state, whatever the loader keeps of the payloads received
and the batches queued. -/
theorem ProcessIterator.start_spec {state : DeliveredBatchState}
    {keeps : Finset Nat → List Nat → Finset Nat → Prop} {fits : DeliveredBatchState → Prop}
    (inside : ∀ ordinal ∈ state.delivered, ordinal < loader.batching.count)
    (nothing : keeps ∅ [] ∅) (fitting : fits state) :
    ∃ iterator, ProcessIterator.start loader state.base state.bitmap = .ok iterator ∧
      Delivering loader keeps fits iterator ∧ iterator.delivered = state ∧
      (∀ frontier, iterator.frontier = some frontier → Opened loader state frontier) ∧
      (loader.length ≠ 0 → ∃ frontier, iterator.frontier = some frontier) := by
  have reached : ¬ loader.batching.count < state.base :=
    Nat.not_lt.mpr (DeliveredBatchState.base_le_count inside)
  have resumed : (resumeSamplePosition state.base loader.sizing.width loader.length).mapError
      Raised.valueError = .ok (min loader.length (state.base * loader.sizing.width)) := by
    rw [resumeSamplePosition]
    exact congrArg (Except.mapError Raised.valueError) (if_neg reached)
  have restored := restoreDelivered_bitmap state inside
  have samples := DeliveredBatchState.samples_delivered loader.batching state
  by_cases empty : loader.length = 0
  · let iterator : ProcessIterator :=
      { position := min loader.length (state.base * loader.sizing.width) +
          loader.batching.samples state.ahead
        complete := false
        valid := true
        delivered := state
        frontier := none
        readyBatches := []
        queuedBatches := ∅ }
    refine ⟨iterator, ?_, ⟨rfl, inside, samples.symm, fitting, fun _ none =>
      absurd none (Option.some_ne_none _).symm, fun early => ?_⟩, rfl,
      fun _ none => absurd none (Option.some_ne_none _).symm, fun some => absurd empty some⟩
    · rw [ProcessIterator.start, resumed]
      show (restoreDelivered state.base state.bitmap loader.batching.count >>= _) = _
      rw [restored]
      exact if_pos empty
    · rw [empty] at early
      exact absurd early (Nat.not_lt_zero _)
  · obtain ⟨opened, seeded, frontier, openedEq, seededEq, adaptEq, begun, deep⟩ :=
      frontier_of_state loader inside empty
    let iterator : ProcessIterator :=
      { position := min loader.length (state.base * loader.sizing.width) +
          loader.batching.samples state.ahead
        complete := false
        valid := true
        delivered := state
        frontier := some frontier
        readyBatches := []
        queuedBatches := ∅ }
    refine ⟨iterator, ?_, ⟨rfl, inside, samples.symm, fitting, fun other same =>
      Option.some.inj same ▸ ⟨_, begun.linked⟩,
      fun early => ⟨frontier, rfl, begun.tracked loader ?_ deep, ?_⟩⟩, rfl,
      fun other same => Option.some.inj same ▸ begun, fun _ => ⟨frontier, rfl⟩⟩
    · rw [ProcessIterator.start, resumed]
      show (restoreDelivered state.base state.bitmap loader.batching.count >>= _) = _
      rw [restored]
      show (if loader.length = 0 then _ else _) = _
      rw [if_neg empty]
      show (Frontier.new _ _ _ _ _ _ >>= _) = _
      rw [openedEq]
      show (Frontier.seed _ _ >>= _) = _
      rw [seededEq]
      show (Frontier.adapt _ _ >>= _) = _
      rw [adaptEq]
      rfl
    · refine Nat.lt_of_le_of_ne (DeliveredBatchState.base_le_count inside) fun whole => ?_
      have all : loader.length ≤ loader.batching.samples state.delivered := by
        rw [samples, whole, ← Batching.samples_range, Batching.samples_count]
        exact Nat.le_add_right _ _
      have fewer : loader.batching.samples state.delivered < loader.length :=
        samples.trans_lt early
      exact Nat.not_lt.mpr all fewer
    · rw [begun.ready]
      exact nothing

end Hyperloader.Process
