/-
Module: Hyperloader.Schedule.Fallback
Purpose: The pure-Python frontier of python/hyperloader/fallback/schedule.py
  over unbounded integers, and its bisimulation with the native one.
Trusted boundary: none
Main exports:
  Fallback.StaticSchedule, Fallback.machine, Related, related_bisimulation,
  fallback_bisimilar
-/
import Hyperloader.Schedule.Invariant

namespace Hyperloader.Schedule

open Foundations

namespace Fallback

/-- The first component of a `_positions` value. -/
inductive PositionLabel where
  | dispatched
  | ready
deriving DecidableEq

/-- Dispatch, completion, and delivery in a bounded position window.  Python
integers are unbounded; the ones a schedule holds are never negative. -/
structure StaticSchedule where
  endPosition : Nat
  depth : Nat
  workerCount : Nat
  workerCeiling : Nat
  nextCommit : Nat
  dispatchOrdinal : Nat
  positions : Finmap fun _ : Nat => PositionLabel × Nat
  delivered : Finset Nat

namespace StaticSchedule

def new (start endPosition depth workerCount : Nat) :
    Except ScheduleError StaticSchedule :=
  if endPosition < start then
    .error ⟨"schedule end precedes its start"⟩
  else if depth ≤ 0 then
    .error ⟨"frontier depth must be positive"⟩
  else if workerCount ≤ 0 then
    .error ⟨"worker count must be positive"⟩
  else
    .ok
      { endPosition := endPosition
        depth := depth
        workerCount := workerCount
        workerCeiling := workerCount
        nextCommit := start
        dispatchOrdinal := 0
        positions := ∅
        delivered := ∅ }

section

variable (schedule : StaticSchedule)

/-- Unsubmitted positions admitted by the frontier. -/
def dispatchCandidates : List Nat :=
  let stop := min schedule.endPosition (schedule.nextCommit + schedule.depth)
  (List.range' schedule.nextCommit (stop - schedule.nextCommit)).filter
    fun position =>
      decide (position ∉ schedule.positions) && decide (position ∉ schedule.delivered)

/-- The current route for one eligible position. -/
def dispatchAt (position : Nat) : Option Dispatch :=
  let stop := min schedule.endPosition (schedule.nextCommit + schedule.depth)
  if position < schedule.nextCommit ∨ stop ≤ position ∨
      position ∈ schedule.positions ∨ position ∈ schedule.delivered then
    none
  else
    some
      { position := position
        worker := schedule.dispatchOrdinal % schedule.workerCount }

/-- The next FIFO dispatch candidate. -/
def nextDispatch : Option Dispatch :=
  match schedule.dispatchCandidates with
  | [] => none
  | position :: _ => schedule.dispatchAt position

/-- Confirm that one candidate entered its worker transport. -/
def markDispatched (position worker : Nat) :
    Except ScheduleError Unit × StaticSchedule :=
  if schedule.dispatchAt position ≠ some ⟨position, worker⟩ then
    (.error ⟨"dispatch is not an eligible frontier candidate"⟩, schedule)
  else
    (.ok (),
      { schedule with
        positions := schedule.positions.insert position (.dispatched, worker)
        dispatchOrdinal := schedule.dispatchOrdinal + 1 })

/-- Record an out-of-order completion. -/
def markCompleted (position worker : Nat) :
    Except ScheduleError Unit × StaticSchedule :=
  match schedule.positions.lookup position with
  | none => (.error ⟨"completion is outside the active frontier"⟩, schedule)
  | some state =>
      if state.1 = .ready then
        (.error ⟨"position completed twice"⟩, schedule)
      else if state.2 ≠ worker then
        (.error ⟨"completion came from the wrong worker"⟩, schedule)
      else
        (.ok (),
          { schedule with
            positions := schedule.positions.insert position (.ready, worker) })

/-- Commit one ready position and advance the contiguous base. -/
def tryCommitReady (position : Nat) :
    Option Nat × StaticSchedule :=
  if (schedule.positions.lookup position).map Prod.fst ≠ some .ready then
    (none, schedule)
  else
    let positions := schedule.positions.erase position
    if position = schedule.nextCommit then
      let drained := absorb (schedule.nextCommit + 1) schedule.delivered
      (some position,
        { schedule with
          positions := positions, nextCommit := drained.1, delivered := drained.2 })
    else
      (some position,
        { schedule with
          positions := positions, delivered := insert position schedule.delivered })

/-- Commit the next stream position only when it is ready. -/
def tryCommit : Option Nat × StaticSchedule :=
  schedule.tryCommitReady schedule.nextCommit

/-- Committed positions beyond the contiguous prefix. -/
def deliveredPositions : List Nat :=
  schedule.delivered.sort (· ≤ ·)

/-- Seed one restored completion beyond the contiguous prefix. -/
def seedDelivered (position : Nat) :
    Except ScheduleError Unit × StaticSchedule :=
  if position ≤ schedule.nextCommit ∨ schedule.endPosition ≤ position then
    (.error ⟨"restored delivery is outside the open position range"⟩, schedule)
  else if position ∈ schedule.positions ∨ position ∈ schedule.delivered then
    (.error ⟨"restored position was delivered twice"⟩, schedule)
  else
    (.ok (), { schedule with delivered := insert position schedule.delivered })

/-- Whether every position has committed. -/
def isComplete : Bool :=
  decide (schedule.nextCommit = schedule.endPosition) &&
    decide (schedule.positions.keys = ∅) && decide (schedule.delivered = ∅)

/-- Dispatched positions not yet committed. -/
def occupied : Nat := schedule.positions.keys.card

/-- Change frontier depth without evicting active positions. -/
def setDepth (depth : Nat) :
    Except ScheduleError Unit × StaticSchedule :=
  if depth ≤ 0 then
    (.error ⟨"frontier depth must be positive"⟩, schedule)
  else if ∃ position ∈ schedule.positions.keys,
      schedule.nextCommit + depth ≤ position then
    (.error ⟨"frontier depth excludes an active position"⟩, schedule)
  else (.ok (), { schedule with depth := depth })

/-- Change live routing width within the spawned ceiling. -/
def setWorkerCount (workerCount : Nat) :
    Except ScheduleError Unit × StaticSchedule :=
  if workerCount ≤ 0 ∨ schedule.workerCeiling < workerCount then
    (.error ⟨"live worker count is outside the plan ceiling"⟩, schedule)
  else
    (.ok (),
      { schedule with
        workerCount := workerCount
        dispatchOrdinal := schedule.dispatchOrdinal % workerCount })

end

end StaticSchedule

/-- The reply and next state of a method that returns nothing. -/
def finish (outcome : Except ScheduleError Unit × StaticSchedule) :
    Reply × StaticSchedule :=
  (.ofResult outcome.1, outcome.2)

/-- One method call. -/
def call (schedule : StaticSchedule) : Call → Reply × StaticSchedule
  | .nextDispatch => (.dispatch schedule.nextDispatch, schedule)
  | .dispatchCandidates => (.candidates schedule.dispatchCandidates, schedule)
  | .dispatchAt position => (.dispatch (schedule.dispatchAt position), schedule)
  | .markDispatched dispatch =>
      finish (schedule.markDispatched dispatch.position dispatch.worker)
  | .markCompleted dispatch =>
      finish (schedule.markCompleted dispatch.position dispatch.worker)
  | .tryCommit => (.position schedule.tryCommit.1, schedule.tryCommit.2)
  | .tryCommitReady position =>
      (.position (schedule.tryCommitReady position).1,
        (schedule.tryCommitReady position).2)
  | .deliveredPositions => (.candidates schedule.deliveredPositions, schedule)
  | .seedDelivered position => finish (schedule.seedDelivered position)
  | .isComplete => (.flag schedule.isComplete, schedule)
  | .occupied => (.count schedule.occupied, schedule)
  | .setDepth depth => finish (schedule.setDepth depth)
  | .setWorkerCount workerCount => finish (schedule.setWorkerCount workerCount)

/-- The fallback schedule as a machine over the same calls; Python integers
never trap. -/
def machine : Machine StaticSchedule Call Reply where
  step schedule issue := some (call schedule issue)

end Fallback

/-- Arguments both implementations can receive: a depth that is a `usize`. -/
def Call.InRange : Call → Prop
  | .setDepth depth => depth ≤ maxU64
  | _ => True

/-- The `_positions` value of one native position state. -/
def PositionState.toFallback : PositionState → Fallback.PositionLabel × Nat
  | .dispatched worker => (.dispatched, worker)
  | .ready worker => (.ready, worker)

/-- A native schedule within its machine integers and a fallback schedule that
hold the same frontier. -/
structure Related (start : Nat) (engine : Native.StaticSchedule)
    (fallback : Fallback.StaticSchedule) : Prop where
  framed : Native.Framed start engine.endPosition engine
  bounded : engine.endPosition ≤ maxU64
  routable : engine.workerCount ≤ engine.workerCeiling
  narrow : engine.workerCeiling < 2 ^ 32
  width : 0 < engine.workerCount
  endPosition : fallback.endPosition = engine.endPosition
  depth : fallback.depth = engine.depth
  workerCount : fallback.workerCount = engine.workerCount
  workerCeiling : fallback.workerCeiling = engine.workerCeiling
  nextCommit : fallback.nextCommit = engine.nextCommit
  dispatchOrdinal : fallback.dispatchOrdinal = engine.dispatchOrdinal
  delivered : fallback.delivered = engine.delivered
  positions : ∀ position, fallback.positions.lookup position =
    (engine.positions.lookup position).map PositionState.toFallback

namespace Related

variable {start : Nat} {engine : Native.StaticSchedule}
  {fallback : Fallback.StaticSchedule}

section

variable (related : Related start engine fallback)

include related

theorem mem_positions (position : Nat) :
    position ∈ fallback.positions ↔ position ∈ engine.positions := by
  rw [← Finmap.lookup_isSome, ← Finmap.lookup_isSome, related.positions,
    Option.isSome_map]

theorem keys :
    fallback.positions.keys = engine.positions.keys := by
  ext position
  rw [Finmap.mem_keys, Finmap.mem_keys, related.mem_positions]

/-- Saturation never shows: a saturated sum is already past the end. -/
theorem stop :
    min engine.endPosition (engine.nextCommit + engine.depth) = engine.stop := by
  have bounded := related.bounded
  unfold Native.StaticSchedule.stop saturatingAdd
  omega

theorem dispatchCandidates :
    fallback.dispatchCandidates = engine.dispatchCandidates := by
  unfold Fallback.StaticSchedule.dispatchCandidates
    Native.StaticSchedule.dispatchCandidates
  simp only [related.endPosition, related.depth, related.nextCommit, related.stop,
    related.delivered, related.mem_positions]

theorem dispatchAt (position : Nat) :
    fallback.dispatchAt position = engine.dispatchAt position := by
  have route : engine.dispatchOrdinal % engine.workerCount % 2 ^ 32 =
      engine.dispatchOrdinal % engine.workerCount := by
    apply Nat.mod_eq_of_lt
    have below := Nat.mod_lt engine.dispatchOrdinal related.width
    exact Nat.lt_trans (Nat.lt_of_lt_of_le below related.routable) related.narrow
  unfold Fallback.StaticSchedule.dispatchAt Native.StaticSchedule.dispatchAt
  simp only [related.endPosition, related.depth, related.nextCommit, related.stop,
    related.delivered, related.mem_positions, related.dispatchOrdinal,
    related.workerCount, route]

theorem nextDispatch :
    fallback.nextDispatch = engine.nextDispatch := by
  unfold Fallback.StaticSchedule.nextDispatch Native.StaticSchedule.nextDispatch
  rw [related.dispatchCandidates]
  cases engine.dispatchCandidates with
  | nil => rfl
  | cons position rest => exact related.dispatchAt position

theorem isComplete :
    fallback.isComplete = engine.isComplete := by
  simp only [Fallback.StaticSchedule.isComplete, Native.StaticSchedule.isComplete,
    related.nextCommit, related.endPosition, related.keys, related.delivered]

/-- The lookups after both sides store matching states. -/
theorem positions_insert (position : Nat) (state : PositionState) (other : Nat) :
    (fallback.positions.insert position state.toFallback).lookup other =
      ((engine.positions.insert position state).lookup other).map
        PositionState.toFallback := by
  rw [lookup_insert_if, lookup_insert_if, related.positions]
  split <;> rfl

theorem positions_erase (position other : Nat) :
    (fallback.positions.erase position).lookup other =
      ((engine.positions.erase position).lookup other).map
        PositionState.toFallback := by
  rw [lookup_erase_if, lookup_erase_if, related.positions]
  split <;> rfl

end

/-- Same reply and related next states, which is what one bisimulation step
asks for. -/
def Agrees (start : Nat) (left : Reply × Native.StaticSchedule)
    (right : Reply × Fallback.StaticSchedule) : Prop :=
  left.1 = right.1 ∧ Related start left.2 right.2

/-- An observer that answers alike leaves the states related. -/
theorem observed (related : Related start engine fallback) {left right : Reply}
    (same : left = right) : Agrees start (left, engine) (right, fallback) :=
  ⟨same, related⟩

section

variable (related : Related start engine fallback)

include related

theorem markDispatched (dispatch : Dispatch) :
    ∃ result, Native.call engine (.markDispatched dispatch) = some result ∧
      Agrees start result (Fallback.call fallback (.markDispatched dispatch)) := by
  simp only [Native.call, Fallback.call, Native.StaticSchedule.markDispatched,
    Fallback.StaticSchedule.markDispatched, related.dispatchAt]
  by_cases eligible : engine.dispatchAt dispatch.position = some dispatch
  · have room : engine.dispatchOrdinal + 1 ≤ maxU64 := by
      have below := related.framed.ordinal_lt eligible
      have bounded := related.bounded
      omega
    refine ⟨_, by simp [eligible, checkedAdd, room]; rfl, ?_⟩
    simp only [eligible, ne_eq, not_true_eq_false, if_false]
    refine ⟨rfl, ?_⟩
    exact
      { related with
        framed := related.framed.dispatched eligible
        dispatchOrdinal := by simp [Fallback.finish, Native.finish,
          related.dispatchOrdinal]
        positions := related.positions_insert dispatch.position
          (.dispatched dispatch.worker) }
  · have other : some dispatch ≠ engine.dispatchAt dispatch.position :=
      fun same => eligible same.symm
    refine ⟨_, by simp [other]; rfl, ?_⟩
    simp only [ne_eq, eligible, not_false_eq_true, if_true]
    exact ⟨rfl, related⟩

theorem markCompleted (dispatch : Dispatch) :
    Agrees start (Native.finish (engine.markCompleted dispatch))
      (Fallback.call fallback (.markCompleted dispatch)) := by
  simp only [Fallback.call, Native.StaticSchedule.markCompleted,
    Fallback.StaticSchedule.markCompleted, related.positions]
  cases found : engine.positions.lookup dispatch.position with
  | none => exact ⟨rfl, related⟩
  | some state =>
      cases state with
      | ready worker => exact ⟨rfl, related⟩
      | dispatched worker =>
          by_cases owner : worker = dispatch.worker
          · simp only [Option.map_some, PositionState.toFallback, owner, if_true,
              ne_eq, not_true_eq_false, if_false, reduceCtorEq]
            refine ⟨rfl, ?_⟩
            exact
              { related with
                framed := related.framed.completed (mem_of_lookup found) _
                positions := related.positions_insert dispatch.position
                  (.ready dispatch.worker) }
          · simp only [Option.map_some, PositionState.toFallback, owner, if_true,
              ne_eq, not_false_eq_true, if_false, reduceCtorEq]
            exact ⟨rfl, related⟩

/-- Both commits, at any position. -/
theorem tryCommitReady (position : Nat) :
    ∃ result, (engine.tryCommitReady position).map
        (fun outcome => (Reply.position outcome.1, outcome.2)) = some result ∧
      Agrees start result
        (.position (fallback.tryCommitReady position).1,
          (fallback.tryCommitReady position).2) := by
  simp only [Native.StaticSchedule.tryCommitReady,
    Fallback.StaticSchedule.tryCommitReady, related.positions]
  cases found : engine.positions.lookup position with
  | none => exact ⟨_, rfl, rfl, related⟩
  | some state =>
      cases state with
      | dispatched worker => exact ⟨_, rfl, rfl, related⟩
      | ready worker =>
          simp only [Option.map_some, PositionState.toFallback, ne_eq,
            not_true_eq_false, if_false, related.nextCommit, related.delivered]
          have present := mem_of_lookup found
          by_cases head : position = engine.nextCommit
          · subst head
            have here := related.framed.active _ present
            have bounded := related.bounded
            have room : engine.nextCommit + 1 ≤ maxU64 := by omega
            have drained := Native.drainDelivered_eq engine.delivered.card
              (engine.nextCommit + 1) engine.delivered
              fun other member =>
                Nat.lt_of_lt_of_le (related.framed.beyond other member).2 bounded
            refine ⟨_, by simp [checkedAdd, room, drained]; rfl, ?_⟩
            simp only [if_true]
            refine ⟨rfl, ?_⟩
            exact
              { related with
                framed := related.framed.committedHead present (absorb_spec _ _)
                nextCommit := rfl
                delivered := rfl
                positions := related.positions_erase engine.nextCommit }
          · refine ⟨_, by simp [head]; rfl, ?_⟩
            simp only [head, if_false]
            refine ⟨rfl, ?_⟩
            exact
              { related with
                framed := related.framed.committedAhead present head
                nextCommit := rfl
                delivered := rfl
                positions := related.positions_erase position }

theorem seedDelivered (position : Nat) :
    Agrees start (Native.finish (engine.seedDelivered position))
      (Fallback.call fallback (.seedDelivered position)) := by
  simp only [Fallback.call, Native.StaticSchedule.seedDelivered,
    Fallback.StaticSchedule.seedDelivered, related.nextCommit, related.endPosition,
    related.mem_positions, related.delivered]
  by_cases outside : position ≤ engine.nextCommit ∨ engine.endPosition ≤ position
  · simp only [outside, if_true]
    exact ⟨rfl, related⟩
  · simp only [outside, if_false]
    by_cases active : position ∈ engine.positions
    · simp only [active, if_true, true_or]
      exact ⟨rfl, related⟩
    · by_cases old : position ∈ engine.delivered
      · simp only [active, old, if_false, not_true_eq_false, decide_false, or_true,
          if_true, Finset.insert_eq_of_mem, Bool.false_eq_true]
        exact ⟨rfl, related⟩
      · simp only [active, old, if_false, not_false_eq_true, decide_true, or_false,
          if_true]
        simp only [not_or, Nat.not_le] at outside
        refine ⟨rfl, ?_⟩
        exact
          { related with
            framed := related.framed.seeded outside.1 outside.2 active
            endPosition := rfl
            nextCommit := rfl
            delivered := rfl }

theorem setDepth {depth : Nat} (inRange : depth ≤ maxU64) :
    Agrees start (Native.finish (engine.setDepth depth))
      (Fallback.call fallback (.setDepth depth)) := by
  -- an active position is below `u64::MAX`, so saturation excludes none of them
  have same : (∃ position ∈ engine.positions.keys,
        saturatingAdd engine.nextCommit depth ≤ position) ↔
      ∃ position ∈ engine.positions.keys, engine.nextCommit + depth ≤ position := by
    constructor
    · intro excluded
      obtain ⟨position, member, beyond⟩ := excluded
      have bounds := related.framed.active position (Finmap.mem_keys.mp member)
      have bounded := related.bounded
      refine ⟨position, member, ?_⟩
      unfold saturatingAdd at beyond
      omega
    · intro excluded
      obtain ⟨position, member, beyond⟩ := excluded
      exact ⟨position, member, Nat.le_trans (Nat.min_le_left _ _) beyond⟩
  have fits : ¬ maxU64 < depth := Nat.not_lt_of_le inRange
  simp only [Fallback.call, Native.StaticSchedule.setDepth,
    Fallback.StaticSchedule.setDepth, related.nextCommit, related.keys, fits, if_false,
    same, Nat.le_zero_eq]
  by_cases zero : depth = 0
  · simp only [zero, if_true]
    exact ⟨rfl, related⟩
  · simp only [zero, if_false]
    by_cases excluded :
        ∃ position ∈ engine.positions.keys, engine.nextCommit + depth ≤ position
    · simp only [excluded, if_true]
      exact ⟨rfl, related⟩
    · simp only [excluded, if_false]
      refine ⟨rfl, ?_⟩
      have admits : ∀ position ∈ engine.positions,
          position < saturatingAdd engine.nextCommit depth := by
        intro position member
        rw [← Finmap.mem_keys] at member
        by_contra beyond
        exact excluded (same.mp ⟨position, member, Nat.le_of_not_lt beyond⟩)
      exact
        { related with
          framed := related.framed.deepened admits
          nextCommit := rfl
          depth := rfl }

theorem setWorkerCount (workerCount : Nat) :
    Agrees start (Native.finish (engine.setWorkerCount workerCount))
      (Fallback.call fallback (.setWorkerCount workerCount)) := by
  simp only [Fallback.call, Native.StaticSchedule.setWorkerCount,
    Fallback.StaticSchedule.setWorkerCount, related.workerCeiling, Nat.le_zero_eq]
  by_cases rejected : workerCount = 0 ∨ engine.workerCeiling < workerCount
  · simp only [rejected, if_true]
    exact ⟨rfl, related⟩
  · simp only [rejected, if_false]
    simp only [not_or, Nat.not_lt] at rejected
    refine ⟨rfl, ?_⟩
    have changed : Native.Change engine (.setWorkerCount workerCount) .done
        { engine with
          workerCount := workerCount
          dispatchOrdinal := engine.dispatchOrdinal % workerCount } :=
      .routed workerCount (Nat.pos_of_ne_zero rejected.1) rejected.2
    exact
      { related with
        framed := related.framed.change changed
        routable := rejected.2
        width := Nat.pos_of_ne_zero rejected.1
        workerCount := rfl
        workerCeiling := rfl
        dispatchOrdinal := by simp [Fallback.finish, Native.finish,
          related.dispatchOrdinal] }

end

/-- One call: the native schedule is not trapped, both answer alike, and the
states stay related. -/
theorem step (related : Related start engine fallback) (issue : Call) (inRange : issue.InRange) :
    ∃ result, Native.call engine issue = some result ∧
      Agrees start result (Fallback.call fallback issue) := by
  cases issue with
  | nextDispatch =>
      exact ⟨_, rfl, related.observed (by rw [related.nextDispatch])⟩
  | dispatchCandidates =>
      exact ⟨_, rfl, related.observed (by rw [related.dispatchCandidates])⟩
  | dispatchAt position =>
      exact ⟨_, rfl, related.observed (by rw [related.dispatchAt])⟩
  | markDispatched dispatch => exact related.markDispatched dispatch
  | markCompleted dispatch => exact ⟨_, rfl, related.markCompleted dispatch⟩
  | tryCommit =>
      have committed := related.tryCommitReady engine.nextCommit
      rw [← related.nextCommit] at committed
      obtain ⟨result, resultEq, agrees⟩ := committed
      rw [related.nextCommit] at resultEq
      exact ⟨result, resultEq, agrees⟩
  | tryCommitReady position => exact related.tryCommitReady position
  | deliveredPositions =>
      refine ⟨_, rfl, related.observed ?_⟩
      rw [Native.StaticSchedule.deliveredPositions,
        Fallback.StaticSchedule.deliveredPositions, related.delivered]
  | seedDelivered position => exact ⟨_, rfl, related.seedDelivered position⟩
  | isComplete => exact ⟨_, rfl, related.observed (by rw [related.isComplete])⟩
  | occupied =>
      refine ⟨_, rfl, related.observed ?_⟩
      rw [Native.StaticSchedule.occupied, Fallback.StaticSchedule.occupied,
        related.keys]
  | setDepth depth => exact ⟨_, rfl, related.setDepth inRange⟩
  | setWorkerCount workerCount =>
      exact ⟨_, rfl, related.setWorkerCount workerCount⟩

end Related

/-- The relation is a bisimulation at every call with arguments in range for
both. -/
theorem related_bisimulation (start : Nat) :
    Machine.Bisimulation Call.InRange Native.machine Fallback.machine
      (Related start) := by
  intro engine fallback issue inRange related
  obtain ⟨result, resultEq, agrees⟩ := related.step issue inRange
  simp only [Native.machine, Fallback.machine, resultEq]
  exact .some agrees

/-- Both constructors accept the same ranges, and build related schedules. -/
theorem related_new {start endPosition depth workers : Nat} (bounded : endPosition ≤ maxU64)
    (depthRange : depth ≤ maxU64) (workerRange : workers < 2 ^ 32) :
    (∃ error, Native.StaticSchedule.new start endPosition depth workers =
        .error error ∧
      Fallback.StaticSchedule.new start endPosition depth workers = .error error) ∨
    ∃ engine fallback,
      Native.StaticSchedule.new start endPosition depth workers = .ok engine ∧
      Fallback.StaticSchedule.new start endPosition depth workers = .ok fallback ∧
      Related start engine fallback := by
  have fits : ¬ maxU64 < depth := Nat.not_lt_of_le depthRange
  by_cases reversed : endPosition < start
  · exact Or.inl ⟨⟨"schedule end precedes its start"⟩, if_pos reversed,
      if_pos reversed⟩
  · by_cases shallow : depth = 0
    · refine Or.inl ⟨⟨"frontier depth must be positive"⟩, ?_, ?_⟩ <;>
        simp [Native.StaticSchedule.new, Fallback.StaticSchedule.new, reversed, shallow]
    · by_cases idle : workers = 0
      · refine Or.inl ⟨⟨"worker count must be positive"⟩, ?_, ?_⟩ <;>
          simp [Native.StaticSchedule.new, Fallback.StaticSchedule.new, reversed,
            shallow, idle]
      · have accepted : ∃ engine,
            Native.StaticSchedule.new start endPosition depth workers = .ok engine := by
          simp [Native.StaticSchedule.new, reversed, shallow, idle, fits]
        obtain ⟨engine, engineEq⟩ := accepted
        have framed := Native.framed_new engineEq
        refine Or.inr ⟨engine, _, engineEq,
          by simp [Fallback.StaticSchedule.new, reversed, shallow, idle]; rfl, ?_⟩
        simp only [Native.StaticSchedule.new, reversed, shallow, idle, fits,
          if_false, Except.ok.injEq] at engineEq
        subst engineEq
        exact
          { framed := framed
            bounded := bounded
            routable := Nat.le_refl _
            narrow := workerRange
            width := Nat.pos_of_ne_zero idle
            endPosition := rfl
            depth := rfl
            workerCount := rfl
            workerCeiling := rfl
            nextCommit := rfl
            dispatchOrdinal := rfl
            delivered := rfl
            positions := fun position => by simp }

/-- The fallback and the native schedule are bisimilar: over every range and
all arguments in range for both, the constructors accept together, and every
sequence of calls runs to the end on both sides with the same replies (routes,
candidates, commits, delivered positions, flags, and the same errors) and
related final states. -/
theorem fallback_bisimilar {start endPosition depth workers : Nat} (bounded : endPosition ≤ maxU64)
    (depthRange : depth ≤ maxU64) (workerRange : workers < 2 ^ 32) :
    (∃ error, Native.StaticSchedule.new start endPosition depth workers =
        .error error ∧
      Fallback.StaticSchedule.new start endPosition depth workers = .error error) ∨
    ∃ engine fallback,
      Native.StaticSchedule.new start endPosition depth workers = .ok engine ∧
      Fallback.StaticSchedule.new start endPosition depth workers = .ok fallback ∧
      Machine.Bisimulation Call.InRange Native.machine Fallback.machine
        (Related start) ∧
      ∀ calls : List Call, (∀ issue ∈ calls, issue.InRange) →
        ∃ trace engineFinal fallbackFinal,
          Native.machine.run engine calls = some (trace, engineFinal) ∧
          Fallback.machine.run fallback calls = some (trace, fallbackFinal) ∧
          Related start engineFinal fallbackFinal := by
  rcases related_new bounded depthRange workerRange with rejected | accepted
  · exact Or.inl rejected
  · obtain ⟨engine, fallback, engineEq, fallbackEq, related⟩ := accepted
    refine Or.inr ⟨engine, fallback, engineEq, fallbackEq,
      related_bisimulation start, ?_⟩
    intro calls all
    have bound : endPosition ≤ maxU64 := bounded
    obtain ⟨trace, final, reached⟩ :=
      (Native.framed_new engineEq).along bound calls
    have same := (related_bisimulation start).run related calls all
    rw [reached] at same
    cases otherEq : Fallback.machine.run fallback calls with
    | none =>
        rw [otherEq] at same
        cases same
    | some result =>
        rw [otherEq] at same
        obtain ⟨sameTrace, finalRelated⟩ := Option.rel_some_some.mp same
        obtain ⟨fallbackTrace, fallbackFinal⟩ := result
        simp only at sameTrace
        subst sameTrace
        exact ⟨trace, final, fallbackFinal, reached, rfl, finalRelated⟩

/-- The bisimulation at the two largest positions, with out-of-order commits and a
change of depth. -/
theorem fallback_bisimilar_example :
    ∃ engine fallback,
      Native.StaticSchedule.new (maxU64 - 2) maxU64 2 2 = .ok engine ∧
      Fallback.StaticSchedule.new (maxU64 - 2) maxU64 2 2 = .ok fallback ∧
      ∃ trace engineFinal fallbackFinal,
        Native.machine.run engine
            [.dispatchCandidates, .markDispatched ⟨maxU64 - 2, 0⟩,
              .markDispatched ⟨maxU64 - 1, 1⟩, .setDepth maxU64,
              .markCompleted ⟨maxU64 - 1, 1⟩, .tryCommitReady (maxU64 - 1)] =
          some (trace, engineFinal) ∧
        Fallback.machine.run fallback
            [.dispatchCandidates, .markDispatched ⟨maxU64 - 2, 0⟩,
              .markDispatched ⟨maxU64 - 1, 1⟩, .setDepth maxU64,
              .markCompleted ⟨maxU64 - 1, 1⟩, .tryCommitReady (maxU64 - 1)] =
          some (trace, fallbackFinal) := by
  rcases @fallback_bisimilar (maxU64 - 2) maxU64 2 2 (Nat.le_refl _) (by decide)
      (by decide) with rejected | accepted
  · obtain ⟨_, engineEq, _⟩ := rejected
    cases engineEq
  · obtain ⟨engine, fallback, engineEq, fallbackEq, _, runs⟩ := accepted
    obtain ⟨trace, engineFinal, fallbackFinal, engineRun, fallbackRun, _⟩ :=
      runs
        [.dispatchCandidates, .markDispatched ⟨maxU64 - 2, 0⟩,
          .markDispatched ⟨maxU64 - 1, 1⟩, .setDepth maxU64,
          .markCompleted ⟨maxU64 - 1, 1⟩, .tryCommitReady (maxU64 - 1)]
        (by simp [Call.InRange])
    exact ⟨engine, fallback, engineEq, fallbackEq, trace, engineFinal, fallbackFinal,
      engineRun, fallbackRun⟩

end Hyperloader.Schedule
