/-
Module: Hyperloader.Schedule.Invariant
Purpose: What one native schedule call can change, and the invariant of the
  frontier over every run of calls.
Trusted boundary: none
Main exports:
  Native.Change, Native.call_change, Native.Framed, Native.Settled,
  Native.staticSchedule_run
-/
import Hyperloader.Foundations.FiniteMap
import Hyperloader.Schedule.Native

namespace Hyperloader.Schedule

open Foundations

/-- The position a call committed or seeded, if it did. -/
def settledBy : Call × Reply → Option Nat
  | (.tryCommit, .position committed) => committed
  | (.tryCommitReady _, .position committed) => committed
  | (.seedDelivered position, .done) => some position
  | _ => none

/-- Positions committed or seeded along a trace, in order. -/
def settled (trace : List (Call × Reply)) : List Nat := trace.filterMap settledBy

/-- The run commits only through `try_commit` and seeds nothing. -/
def OnlyTryCommit (trace : List (Call × Reply)) : Prop :=
  ∀ entry ∈ trace, entry.1 = .tryCommit ∨ settledBy entry = none

namespace Native

/-- The effects one native call can have, with the guards under which it has
them.  A call that is not one of these leaves the schedule as it was. -/
inductive Change (schedule : StaticSchedule) :
    Call → Reply → StaticSchedule → Prop where
  | still (call : Call) (reply : Reply) (quiet : settledBy (call, reply) = none) :
      Change schedule call reply schedule
  | dispatched (dispatch : Dispatch)
      (eligible : schedule.dispatchAt dispatch.position = some dispatch) :
      Change schedule (.markDispatched dispatch) .done
        { schedule with
          positions :=
            schedule.positions.insert dispatch.position (.dispatched dispatch.worker)
          dispatchOrdinal := schedule.dispatchOrdinal + 1 }
  | completed (dispatch : Dispatch)
      (owned : schedule.positions.lookup dispatch.position =
        some (.dispatched dispatch.worker)) :
      Change schedule (.markCompleted dispatch) .done
        { schedule with
          positions :=
            schedule.positions.insert dispatch.position (.ready dispatch.worker) }
  | committedHead (call : Call) (worker next : Nat) (delivered : Finset Nat)
      (issued : call = .tryCommit ∨ call = .tryCommitReady schedule.nextCommit)
      (ready : schedule.positions.lookup schedule.nextCommit = some (.ready worker))
      (drained :
        Absorbed (schedule.nextCommit + 1) schedule.delivered (next, delivered)) :
      Change schedule call (.position (some schedule.nextCommit))
        { schedule with
          positions := schedule.positions.erase schedule.nextCommit
          nextCommit := next
          delivered := delivered }
  | committedAhead (position worker : Nat) (ahead : position ≠ schedule.nextCommit)
      (ready : schedule.positions.lookup position = some (.ready worker)) :
      Change schedule (.tryCommitReady position) (.position (some position))
        { schedule with
          positions := schedule.positions.erase position
          delivered := insert position schedule.delivered }
  | seeded (position : Nat) (beyond : schedule.nextCommit < position)
      (within : position < schedule.endPosition)
      (inactive : position ∉ schedule.positions)
      (fresh : position ∉ schedule.delivered) :
      Change schedule (.seedDelivered position) .done
        { schedule with delivered := insert position schedule.delivered }
  | deepened (depth : Nat)
      (admits : ∀ position ∈ schedule.positions,
        position < saturatingAdd schedule.nextCommit depth) :
      Change schedule (.setDepth depth) .done { schedule with depth := depth }
  | routed (workerCount : Nat) (positive : 0 < workerCount)
      (below : workerCount ≤ schedule.workerCeiling) :
      Change schedule (.setWorkerCount workerCount) .done
        { schedule with
          workerCount := workerCount
          dispatchOrdinal := schedule.dispatchOrdinal % workerCount }

variable {reply : Reply}

/-- A failed reply leaves the schedule unchanged. -/
theorem Change.eq_of_failed {schedule next : StaticSchedule} {call : Call}
    (change : Change schedule call reply next) (failed : reply.Failed) : next = schedule := by
  cases change with
  | still => rfl
  | dispatched | completed | committedHead | committedAhead | seeded | deepened
  | routed => exact False.elim failed

/-- The frontier invariant over the range `[start, stop)`. -/
structure Framed (start stop : Nat) (schedule : StaticSchedule) : Prop where
  endPosition : schedule.endPosition = stop
  started : start ≤ schedule.nextCommit
  ended : schedule.nextCommit ≤ stop
  active : ∀ position ∈ schedule.positions,
    schedule.nextCommit ≤ position ∧
      position < min (schedule.nextCommit + schedule.depth) stop ∧
      position ∉ schedule.delivered
  beyond : ∀ position ∈ schedule.delivered,
    schedule.nextCommit < position ∧ position < stop
  ordinal : schedule.dispatchOrdinal ≤
    schedule.positions.keys.card + (schedule.nextCommit - start) +
      schedule.delivered.card

section Frontier

variable {start stop : Nat} {schedule next : StaticSchedule}

section

variable (framed : Framed start stop schedule)

include framed

theorem Framed.not_delivered_nextCommit :
    schedule.nextCommit ∉ schedule.delivered := by
  intro member
  exact Nat.lt_irrefl _ (framed.beyond _ member).1

theorem Framed.disjoint :
    Disjoint schedule.positions.keys schedule.delivered := by
  rw [Finset.disjoint_left]
  intro position member
  exact (framed.active position (Finmap.mem_keys.mp member)).2.2

/-- Active and delivered positions lie between the next commit and the end. -/
theorem Framed.within :
    schedule.positions.keys ∪ schedule.delivered ⊆
      Finset.Ico schedule.nextCommit stop := by
  intro position member
  rw [Finset.mem_Ico]
  rcases Finset.mem_union.mp member with active | delivered
  · have bounds := framed.active position (Finmap.mem_keys.mp active)
    omega
  · have bounds := framed.beyond position delivered
    omega

end

variable {position : Nat} {dispatch : Dispatch}

theorem dispatchAt_eq_some (eligible : schedule.dispatchAt position = some dispatch) :
    dispatch.position = position ∧ schedule.nextCommit ≤ position ∧
      position < schedule.stop ∧ position ∉ schedule.positions ∧
      position ∉ schedule.delivered := by
  unfold StaticSchedule.dispatchAt at eligible
  split at eligible
  · cases eligible
  · rename_i open_
    cases eligible
    simp only [not_or, Nat.not_lt, Nat.not_le] at open_
    exact ⟨rfl, open_.1, open_.2.1, open_.2.2.1, open_.2.2.2⟩

/-- A schedule with an eligible position has dispatched fewer positions than
its range holds. -/
theorem Framed.ordinal_lt (framed : Framed start stop schedule)
    (eligible : schedule.dispatchAt position = some dispatch) :
    schedule.dispatchOrdinal < stop - start := by
  obtain ⟨_, low, high, inactive, fresh⟩ := dispatchAt_eq_some eligible
  have inRange : position < stop := by
    rw [← framed.endPosition]
    exact Nat.lt_of_lt_of_le high (Nat.min_le_right _ _)
  have inside : insert position (schedule.positions.keys ∪ schedule.delivered) ⊆
      Finset.Ico schedule.nextCommit stop :=
    Finset.insert_subset (Finset.mem_Ico.mpr ⟨low, inRange⟩) framed.within
  have new : position ∉ schedule.positions.keys ∪ schedule.delivered := by
    simp [Finmap.mem_keys, inactive, fresh]
  have counted := Finset.card_le_card inside
  rw [Finset.card_insert_of_notMem new,
    Finset.card_union_of_disjoint framed.disjoint, Nat.card_Ico] at counted
  have started := framed.started
  have bound := framed.ordinal
  omega

/-- The dispatch counter never passes the size of the range. -/
theorem Framed.dispatchOrdinal_le (framed : Framed start stop schedule) :
    schedule.dispatchOrdinal ≤ stop := by
  have counted := Finset.card_le_card framed.within
  rw [Finset.card_union_of_disjoint framed.disjoint, Nat.card_Ico] at counted
  have started := framed.started
  have ended := framed.ended
  have bound := framed.ordinal
  omega

/-- Below `u64::MAX` the checked drain is the absorbing loop. -/
theorem drainDelivered_eq (passes next : Nat) (delivered : Finset Nat)
    (bounded : ∀ position ∈ delivered, position < maxU64) :
    StaticSchedule.drainDelivered passes next delivered =
      some (absorbWithin passes next delivered) := by
  induction passes generalizing next delivered with
  | zero => rfl
  | succ passes ih =>
      by_cases member : next ∈ delivered
      · have room : next + 1 ≤ maxU64 := bounded next member
        have rest := ih (next + 1) (delivered.erase next)
          fun position kept => bounded position (Finset.mem_of_mem_erase kept)
        simp [StaticSchedule.drainDelivered, absorbWithin, member, checkedAdd,
          room, rest]
      · simp [StaticSchedule.drainDelivered, absorbWithin, member]

theorem markDispatched_change (bounded : stop ≤ maxU64)
    (framed : Framed start stop schedule) (dispatch : Dispatch) :
    ∃ reply next, call schedule (.markDispatched dispatch) = some (reply, next) ∧
      Change schedule (.markDispatched dispatch) reply next := by
  by_cases eligible : some dispatch = schedule.dispatchAt dispatch.position
  · have room : schedule.dispatchOrdinal + 1 ≤ maxU64 := by
      have below := framed.ordinal_lt eligible.symm
      omega
    refine ⟨.done, _, ?_, .dispatched dispatch eligible.symm⟩
    simp [call, StaticSchedule.markDispatched, ← eligible, checkedAdd, room,
      finish, Reply.ofResult]
  · refine ⟨_, schedule, ?_, .still _
      (.error ⟨"dispatch is not an eligible frontier candidate"⟩) rfl⟩
    simp [call, StaticSchedule.markDispatched, eligible, finish, Reply.ofResult]

theorem markCompleted_change (dispatch : Dispatch) :
    ∃ reply next, call schedule (.markCompleted dispatch) = some (reply, next) ∧
      Change schedule (.markCompleted dispatch) reply next := by
  simp only [call, StaticSchedule.markCompleted]
  split
  · exact ⟨_, _, rfl, .still _ _ rfl⟩
  · rename_i worker owned
    split
    · rename_i same
      subst same
      exact ⟨_, _, rfl, .completed dispatch owned⟩
    · exact ⟨_, _, rfl, .still _ _ rfl⟩
  · exact ⟨_, _, rfl, .still _ _ rfl⟩

/-- Both commits: `issued` names the call whose result is the commit of
`position`. -/
theorem tryCommitReady_change (bounded : stop ≤ maxU64) (framed : Framed start stop schedule)
    (position : Nat) (issue : Call) (issued : issue = .tryCommitReady position ∨
      issue = .tryCommit ∧ position = schedule.nextCommit) :
    ∃ reply next,
      (schedule.tryCommitReady position).map
          (fun outcome => (Reply.position outcome.1, outcome.2)) =
        some (reply, next) ∧
      Change schedule issue reply next := by
  have quiet : settledBy (issue, .position none) = none := by
    rcases issued with same | same
    · rw [same]
      rfl
    · rw [same.1]
      rfl
  unfold StaticSchedule.tryCommitReady
  split
  · rename_i worker ready
    have here := framed.active position (mem_of_lookup ready)
    by_cases head : position = schedule.nextCommit
    · subst head
      have room : schedule.nextCommit + 1 ≤ maxU64 := by omega
      have drained := drainDelivered_eq schedule.delivered.card
        (schedule.nextCommit + 1) schedule.delivered
        fun other member => Nat.lt_of_lt_of_le (framed.beyond other member).2 bounded
      refine ⟨.position (some schedule.nextCommit), _, ?_,
        .committedHead issue worker
          (absorb (schedule.nextCommit + 1) schedule.delivered).1
          (absorb (schedule.nextCommit + 1) schedule.delivered).2 ?_ ready
          (absorb_spec _ _)⟩
      · simp [checkedAdd, room, drained, absorb]
      · rcases issued with same | same
        · exact Or.inr same
        · exact Or.inl same.1
    · refine ⟨.position (some position), _, by simp [head]; rfl, ?_⟩
      rcases issued with same | same
      · subst same
        exact .committedAhead position worker head ready
      · exact absurd same.2 head
  · exact ⟨.position none, schedule, rfl, .still _ _ quiet⟩

theorem seedDelivered_change (position : Nat) :
    ∃ reply next, call schedule (.seedDelivered position) = some (reply, next) ∧
      Change schedule (.seedDelivered position) reply next := by
  simp only [call, StaticSchedule.seedDelivered]
  split
  · exact ⟨_, _, rfl, .still _ _ rfl⟩
  · rename_i inRange
    simp only [not_or, Nat.not_le] at inRange
    split
    · exact ⟨_, _, rfl, .still _ _ rfl⟩
    · rename_i inactive
      by_cases fresh : position ∈ schedule.delivered
      · -- the rejected insert returns the set it was given
        refine ⟨.error ⟨"restored position was delivered twice"⟩, schedule, ?_,
          .still _ _ rfl⟩
        simp [fresh, finish, Reply.ofResult, Finset.insert_eq_of_mem fresh]
      · refine ⟨.done, _, ?_,
          .seeded position inRange.1 inRange.2 inactive fresh⟩
        simp [fresh, finish, Reply.ofResult]

theorem setDepth_change (depth : Nat) :
    ∃ reply next, call schedule (.setDepth depth) = some (reply, next) ∧
      Change schedule (.setDepth depth) reply next := by
  simp only [call, StaticSchedule.setDepth]
  split
  · exact ⟨_, _, rfl, .still _ _ rfl⟩
  · split
    · exact ⟨_, _, rfl, .still _ _ rfl⟩
    · split
      · exact ⟨_, _, rfl, .still _ _ rfl⟩
      · rename_i admits
        refine ⟨_, _, rfl, .deepened depth ?_⟩
        intro position member
        rw [← Finmap.mem_keys] at member
        by_contra outside
        exact admits ⟨position, member, Nat.le_of_not_lt outside⟩

theorem setWorkerCount_change (workerCount : Nat) :
    ∃ reply next, call schedule (.setWorkerCount workerCount) = some (reply, next) ∧
      Change schedule (.setWorkerCount workerCount) reply next := by
  simp only [call, StaticSchedule.setWorkerCount]
  split
  · exact ⟨_, _, rfl, .still _ _ rfl⟩
  · rename_i accepted
    simp only [not_or, Nat.not_lt] at accepted
    exact ⟨_, _, rfl,
      .routed workerCount (Nat.pos_of_ne_zero accepted.1) accepted.2⟩

/-- On a framed schedule every call returns, without an arithmetic trap, and
its effect is one of the changes. -/
theorem call_change (bounded : stop ≤ maxU64) (framed : Framed start stop schedule) (issue : Call) :
    ∃ reply next, call schedule issue = some (reply, next) ∧
      Change schedule issue reply next := by
  cases issue with
  | nextDispatch | dispatchCandidates | dispatchAt position => exact ⟨_, _, rfl, .still _ _ rfl⟩
  | markDispatched dispatch => exact markDispatched_change bounded framed dispatch
  | markCompleted dispatch => exact markCompleted_change dispatch
  | tryCommit =>
      exact tryCommitReady_change bounded framed schedule.nextCommit .tryCommit
        (Or.inr ⟨rfl, rfl⟩)
  | tryCommitReady position =>
      exact tryCommitReady_change bounded framed position (.tryCommitReady position)
        (Or.inl rfl)
  | deliveredPositions => exact ⟨_, _, rfl, .still _ _ rfl⟩
  | seedDelivered position => exact seedDelivered_change position
  | isComplete | occupied => exact ⟨_, _, rfl, .still _ _ rfl⟩
  | setDepth depth => exact setDepth_change depth
  | setWorkerCount workerCount => exact setWorkerCount_change workerCount

/-- The inversion rule for native steps. -/
theorem change_of_call (bounded : stop ≤ maxU64) (framed : Framed start stop schedule)
    {issue : Call} (stepEq : call schedule issue = some (reply, next)) :
    Change schedule issue reply next := by
  obtain ⟨_, _, otherEq, change⟩ := call_change bounded framed issue
  rw [stepEq] at otherEq
  cases otherEq
  exact change

theorem stop_le (schedule : StaticSchedule) :
    schedule.stop ≤
      min (schedule.nextCommit + schedule.depth) schedule.endPosition := by
  have saturated := Nat.min_le_left (schedule.nextCommit + schedule.depth) maxU64
  exact Nat.le_min.mpr ⟨Nat.le_trans (Nat.min_le_left _ _) saturated,
    Nat.min_le_right _ _⟩

section

variable (framed : Framed start stop schedule)

include framed

theorem Framed.dispatched (eligible : schedule.dispatchAt dispatch.position = some dispatch) :
    Framed start stop
      { schedule with
        positions :=
          schedule.positions.insert dispatch.position (.dispatched dispatch.worker)
        dispatchOrdinal := schedule.dispatchOrdinal + 1 } := by
  obtain ⟨_, low, high, inactive, fresh⟩ := dispatchAt_eq_some eligible
  refine ⟨framed.endPosition, framed.started, framed.ended, ?_, framed.beyond, ?_⟩
  · intro position member
    rcases Finmap.mem_insert.mp member with same | old
    · subst same
      have admitted := Nat.lt_of_lt_of_le high (stop_le schedule)
      rw [framed.endPosition] at admitted
      exact ⟨low, admitted, fresh⟩
    · exact framed.active position old
  · have counted := framed.ordinal
    simp only [keys_insert]
    rw [Finset.card_insert_of_notMem (mt Finmap.mem_keys.mp inactive)]
    omega

theorem Framed.completed (present : position ∈ schedule.positions) (state : PositionState) :
    Framed start stop
      { schedule with positions := schedule.positions.insert position state } := by
  refine ⟨framed.endPosition, framed.started, framed.ended, ?_, framed.beyond, ?_⟩
  · intro other member
    rcases Finmap.mem_insert.mp member with same | old
    · exact same ▸ framed.active position present
    · exact framed.active other old
  · simpa [keys_insert_of_mem present] using framed.ordinal

theorem Framed.committedHead (present : schedule.nextCommit ∈ schedule.positions)
    {result : Nat × Finset Nat}
    (drained : Absorbed (schedule.nextCommit + 1) schedule.delivered result) :
    Framed start stop
      { schedule with
        positions := schedule.positions.erase schedule.nextCommit
        nextCommit := result.1
        delivered := result.2 } := by
  have forward := drained.forward
  have head := framed.active _ present
  refine ⟨framed.endPosition, ?_, ?_, ?_, ?_, ?_⟩
  · exact Nat.le_trans framed.started (Nat.le_of_succ_le forward)
  · rcases Nat.eq_or_lt_of_le forward with same | moved
    · show result.1 ≤ stop
      omega
    · -- the last position passed was a delivered one, inside the range
      have last := drained.passed (result.1 - 1) (by omega) (by omega)
      have bounds := framed.beyond _ last
      show result.1 ≤ stop
      omega
  · intro position member
    obtain ⟨different, old⟩ := Finmap.mem_erase.mp member
    obtain ⟨low, high, fresh⟩ := framed.active position old
    have notPassed : ¬ position < result.1 := by
      intro below
      exact fresh (drained.passed position (by omega) below)
    refine ⟨Nat.le_of_not_lt notPassed, ?_, ?_⟩
    · show position < min (result.1 + schedule.depth) stop
      omega
    · intro kept
      exact fresh ((drained.remaining position).mp kept).1
  · intro position kept
    obtain ⟨old, outside⟩ := (drained.remaining position).mp kept
    have bounds := framed.beyond position old
    have different : position ≠ result.1 := by
      intro same
      exact drained.gap (same ▸ kept)
    show result.1 < position ∧ position < stop
    omega
  · have counted := framed.ordinal
    have removed : (schedule.positions.erase schedule.nextCommit).keys.card + 1 =
        schedule.positions.keys.card := by
      rw [Finmap.keys_erase]
      exact Finset.card_erase_add_one (Finmap.mem_keys.mpr present)
    have absorbed := drained.card
    have started := framed.started
    show schedule.dispatchOrdinal ≤
      (schedule.positions.erase schedule.nextCommit).keys.card +
        (result.1 - start) + result.2.card
    omega

theorem Framed.committedAhead (present : position ∈ schedule.positions)
    (ahead : position ≠ schedule.nextCommit) :
    Framed start stop
      { schedule with
        positions := schedule.positions.erase position
        delivered := insert position schedule.delivered } := by
  obtain ⟨low, high, fresh⟩ := framed.active position present
  refine ⟨framed.endPosition, framed.started, framed.ended, ?_, ?_, ?_⟩
  · intro other member
    obtain ⟨different, old⟩ := Finmap.mem_erase.mp member
    obtain ⟨otherLow, otherHigh, otherFresh⟩ := framed.active other old
    refine ⟨otherLow, otherHigh, ?_⟩
    simp [different, otherFresh]
  · intro other member
    rcases Finset.mem_insert.mp member with same | old
    · subst same
      show schedule.nextCommit < other ∧ other < stop
      omega
    · exact framed.beyond other old
  · have counted := framed.ordinal
    have removed : (schedule.positions.erase position).keys.card + 1 =
        schedule.positions.keys.card := by
      rw [Finmap.keys_erase]
      exact Finset.card_erase_add_one (Finmap.mem_keys.mpr present)
    simp only
    rw [Finset.card_insert_of_notMem fresh]
    omega

theorem Framed.seeded (beyond : schedule.nextCommit < position)
    (within : position < schedule.endPosition) (inactive : position ∉ schedule.positions) :
    Framed start stop
      { schedule with delivered := insert position schedule.delivered } := by
  refine ⟨framed.endPosition, framed.started, framed.ended, ?_, ?_, ?_⟩
  · intro other member
    obtain ⟨low, high, fresh⟩ := framed.active other member
    refine ⟨low, high, ?_⟩
    have different : other ≠ position := by
      intro same
      exact inactive (same ▸ member)
    simp [different, fresh]
  · intro other member
    rcases Finset.mem_insert.mp member with same | old
    · subst same
      exact ⟨beyond, framed.endPosition ▸ within⟩
    · exact framed.beyond other old
  · have grown := Finset.card_le_card (Finset.subset_insert position schedule.delivered)
    have counted := framed.ordinal
    show schedule.dispatchOrdinal ≤ schedule.positions.keys.card +
      (schedule.nextCommit - start) + (insert position schedule.delivered).card
    omega

theorem Framed.deepened {depth : Nat} (admits : ∀ position ∈ schedule.positions,
      position < saturatingAdd schedule.nextCommit depth) :
    Framed start stop { schedule with depth := depth } := by
  refine ⟨framed.endPosition, framed.started, framed.ended, ?_, framed.beyond,
    framed.ordinal⟩
  intro position member
  obtain ⟨low, high, fresh⟩ := framed.active position member
  have admitted := Nat.lt_of_lt_of_le (admits position member)
    (Nat.min_le_left (schedule.nextCommit + depth) maxU64)
  refine ⟨low, ?_, fresh⟩
  show position < min (schedule.nextCommit + depth) stop
  omega

/-- Every change keeps the frontier invariant. -/
theorem Framed.change {issue : Call} (change : Change schedule issue reply next) :
    Framed start stop next := by
  cases change with
  | still => exact framed
  | dispatched dispatch eligible => exact framed.dispatched eligible
  | completed dispatch owned => exact framed.completed (mem_of_lookup owned) _
  | committedHead _ worker next delivered issued ready drained =>
      exact framed.committedHead (mem_of_lookup ready) drained
  | committedAhead position worker ahead ready =>
      exact framed.committedAhead (mem_of_lookup ready) ahead
  | seeded position beyond within inactive fresh =>
      exact framed.seeded beyond within inactive
  | deepened depth admits => exact framed.deepened admits
  | routed workerCount positive below =>
      exact ⟨framed.endPosition, framed.started, framed.ended, framed.active,
        framed.beyond, Nat.le_trans (Nat.mod_le _ _) framed.ordinal⟩

end

/-- A schedule the constructor accepts is framed. -/
theorem framed_new {depth workers : Nat} {initial : StaticSchedule}
    (accepted : StaticSchedule.new start stop depth workers = .ok initial) :
    Framed start stop initial := by
  unfold StaticSchedule.new at accepted
  split at accepted
  · cases accepted
  · rename_i ordered
    split at accepted
    · cases accepted
    · split at accepted
      · cases accepted
      · split at accepted
        · cases accepted
        · cases accepted
          exact
            { endPosition := rfl
              started := Nat.le_refl _
              ended := Nat.le_of_not_lt ordered
              active := fun position member =>
                absurd member Finmap.notMem_empty
              beyond := fun position member =>
                absurd member (Finset.notMem_empty position)
              ordinal := Nat.zero_le _ }

theorem Framed.along (bounded : stop ≤ maxU64) (framed : Framed start stop schedule)
    (calls : List Call) : ∃ trace final, machine.run schedule calls = some (trace, final) :=
  machine.run_total
    (fun _ _ _ _ holds stepEq => holds.change (change_of_call bounded holds stepEq))
    (fun _ issue holds => by
      obtain ⟨reply, after, stepEq, _⟩ := call_change bounded holds issue
      exact ⟨reply, after, stepEq⟩)
    framed calls

end Frontier

theorem settled_append (trace : List (Call × Reply)) (entry : Call × Reply) :
    settled (trace ++ [entry]) = settled trace ++ (settledBy entry).toList := by
  cases entryEq : settledBy entry <;>
    simp [settled, List.filterMap_append, entryEq]

variable {entry : Call × Reply}

theorem onlyTryCommit_append {trace : List (Call × Reply)} (only : OnlyTryCommit (trace ++ [entry])) :
    OnlyTryCommit trace ∧ (entry.1 = .tryCommit ∨ settledBy entry = none) :=
  ⟨fun other member => only other (List.mem_append_left _ member),
    only entry (List.mem_append_right _ (List.mem_singleton.mpr rfl))⟩

/-- How the positions settled by a trace show in the schedule it reaches. -/
structure Settled (start : Nat) (trace : List (Call × Reply))
    (schedule : StaticSchedule) : Prop where
  once : (settled trace).Nodup
  exact : ∀ position, position ∈ settled trace ↔
    (start ≤ position ∧ position < schedule.nextCommit) ∨
      position ∈ schedule.delivered
  ordered : OnlyTryCommit trace →
    schedule.delivered = ∅ ∧
      settled trace = List.range' start (schedule.nextCommit - start)

section Commits

variable {start stop : Nat} {schedule next : StaticSchedule}
  {trace : List (Call × Reply)}

section

variable (holds : Settled start trace schedule)

include holds

/-- One more settled position, new to the trace, keeps the settled positions
distinct. -/
private theorem Settled.once_append {position : Nat} (settles : settledBy entry = some position)
    (unpassed : ¬ (start ≤ position ∧ position < schedule.nextCommit))
    (fresh : position ∉ schedule.delivered) : (settled (trace ++ [entry])).Nodup := by
  rw [settled_append, settles, Option.toList_some, List.nodup_append]
  refine ⟨holds.once, List.nodup_singleton _, ?_⟩
  intro one member two same equal
  rw [List.mem_singleton] at same
  rw [equal, same, holds.exact] at member
  rcases member with passed | old
  · exact unpassed passed
  · exact fresh old

private theorem Settled.committedHead (framed : Framed start stop schedule) {issue : Call}
    (issued : issue = .tryCommit ∨ issue = .tryCommitReady schedule.nextCommit)
    {result : Nat × Finset Nat}
    (drained : Absorbed (schedule.nextCommit + 1) schedule.delivered result) :
    Settled start (trace ++ [(issue, .position (some schedule.nextCommit))])
      { schedule with
        positions := schedule.positions.erase schedule.nextCommit
        nextCommit := result.1
        delivered := result.2 } := by
  have settles : settledBy (issue, .position (some schedule.nextCommit)) =
      some schedule.nextCommit := by
    rcases issued with same | same
    · rw [same]
      rfl
    · rw [same]
      rfl
  have started := framed.started
  have forward := drained.forward
  refine ⟨?_, ?_, ?_⟩
  · exact holds.once_append settles (by omega) framed.not_delivered_nextCommit
  · intro position
    rw [settled_append, settles, Option.toList_some, List.mem_append,
      List.mem_singleton, holds.exact, drained.mem_or_passed position]
    simp only
    constructor
    · intro member
      rcases member with (passed | kept | absorbed) | same
      · exact Or.inl (by omega)
      · exact Or.inr kept
      · exact Or.inl (by omega)
      · exact Or.inl (by omega)
    · intro member
      rcases member with passed | kept
      · by_cases before : position < schedule.nextCommit
        · exact Or.inl (Or.inl ⟨passed.1, before⟩)
        · by_cases same : position = schedule.nextCommit
          · exact Or.inr same
          · exact Or.inl (Or.inr (Or.inr (by omega)))
      · exact Or.inl (Or.inr (Or.inl kept))
  · intro only
    obtain ⟨earlier, _⟩ := onlyTryCommit_append only
    obtain ⟨empty, listed⟩ := holds.ordered earlier
    -- with nothing delivered ahead the base moves by one
    have single : result.1 = schedule.nextCommit + 1 := by
      by_contra different
      have passed := drained.passed (schedule.nextCommit + 1) (Nat.le_refl _) (by omega)
      rw [empty] at passed
      exact Finset.notMem_empty _ passed
    have none : result.2 = ∅ := by
      rw [Finset.eq_empty_iff_forall_notMem]
      intro position kept
      have old := ((drained.remaining position).mp kept).1
      rw [empty] at old
      exact Finset.notMem_empty _ old
    refine ⟨none, ?_⟩
    have grown : result.1 - start = (schedule.nextCommit - start) + 1 := by omega
    have last : start + (schedule.nextCommit - start) = schedule.nextCommit := by omega
    simp only
    rw [settled_append, settles, listed, grown, List.range'_concat, Nat.one_mul,
      last, Option.toList_some]

private theorem Settled.aheadOfBase {position : Nat} (settles : settledBy entry = some position)
    (notCommit : entry.1 ≠ .tryCommit) (unpassed : ¬ position < schedule.nextCommit)
    (fresh : position ∉ schedule.delivered) (positions : Finmap fun _ : Nat => PositionState) :
    Settled start (trace ++ [entry])
      { schedule with
        positions := positions
        delivered := insert position schedule.delivered } := by
  refine ⟨?_, ?_, ?_⟩
  · exact holds.once_append settles (fun passed => unpassed passed.2) fresh
  · intro other
    rw [settled_append, settles, Option.toList_some, List.mem_append,
      List.mem_singleton, holds.exact, Finset.mem_insert]
    simp only
    rw [or_assoc, @or_comm (other ∈ schedule.delivered)]
  · intro only
    rcases (onlyTryCommit_append only).2 with commit | quiet
    · exact absurd commit notCommit
    · rw [settles] at quiet
      cases quiet

/-- Every change carries the settled positions along. -/
theorem Settled.change (framed : Framed start stop schedule) {issue : Call}
    (change : Change schedule issue reply next) :
    Settled start (trace ++ [(issue, reply)]) next := by
  -- the changes that settle nothing keep the base and the delivered set
  have unsettled : ∀ after : StaticSchedule, settledBy (issue, reply) = none →
      after.nextCommit = schedule.nextCommit → after.delivered = schedule.delivered →
      Settled start (trace ++ [(issue, reply)]) after := by
    intro after quiet sameBase sameDelivered
    have same : settled (trace ++ [(issue, reply)]) = settled trace := by
      rw [settled_append, quiet, Option.toList_none, List.append_nil]
    refine ⟨same ▸ holds.once, ?_, ?_⟩
    · rw [same, sameBase, sameDelivered]
      exact holds.exact
    · intro only
      rw [same, sameBase, sameDelivered]
      exact holds.ordered (onlyTryCommit_append only).1
  cases change with
  | still _ _ quiet => exact unsettled _ quiet rfl rfl
  | dispatched | completed | deepened | routed => exact unsettled _ rfl rfl rfl
  | committedHead _ worker next delivered issued ready drained =>
      exact holds.committedHead framed issued drained
  | committedAhead position worker ahead ready =>
      obtain ⟨low, _, fresh⟩ := framed.active position (mem_of_lookup ready)
      exact holds.aheadOfBase rfl (fun same => by cases same)
        (Nat.not_lt_of_ge low) fresh _
  | seeded position beyond within inactive fresh =>
      exact holds.aheadOfBase rfl (fun same => by cases same)
        (Nat.not_lt_of_gt beyond) fresh _

end

/-- The completion flag reads off exactly whether the whole range has been
settled. -/
theorem isComplete_iff (framed : Framed start stop schedule)
    (holds : Settled start trace schedule) :
    schedule.isComplete = true ↔
      ∀ position, start ≤ position → position < stop → position ∈ settled trace := by
  have flag : schedule.isComplete = true ↔
      schedule.nextCommit = stop ∧ schedule.positions.keys = ∅ ∧
        schedule.delivered = ∅ := by
    simp [StaticSchedule.isComplete, framed.endPosition, and_assoc]
  rw [flag]
  constructor
  · intro complete position low high
    rw [holds.exact]
    exact Or.inl ⟨low, complete.1 ▸ high⟩
  · intro all
    have atEnd : schedule.nextCommit = stop := by
      by_contra before
      have ended := framed.ended
      have member := all schedule.nextCommit framed.started (by omega)
      rw [holds.exact] at member
      rcases member with passed | delivered
      · exact Nat.lt_irrefl _ passed.2
      · exact framed.not_delivered_nextCommit delivered
    refine ⟨atEnd, ?_, ?_⟩
    · rw [Finset.eq_empty_iff_forall_notMem]
      intro position member
      have bounds := framed.active position (Finmap.mem_keys.mp member)
      omega
    · rw [Finset.eq_empty_iff_forall_notMem]
      intro position member
      have bounds := framed.beyond position member
      omega

/-- A run from an accepted schedule is never trapped, and the state it reaches
is framed and accounts for every settled position. -/
theorem run_framed_settled (bounded : stop ≤ maxU64) {depth workers : Nat}
    {initial : StaticSchedule}
    (accepted : StaticSchedule.new start stop depth workers = .ok initial) (calls : List Call) :
    ∃ trace final, machine.run initial calls = some (trace, final) ∧
      Framed start stop final ∧ Settled start trace final := by
  have framed := framed_new accepted
  obtain ⟨trace, final, reached⟩ := framed.along bounded calls
  have begin : Settled start [] initial := by
    refine ⟨List.nodup_nil, ?_, ?_⟩
    · intro position
      unfold StaticSchedule.new at accepted
      split_ifs at accepted
      cases accepted
      simp only [settled, List.filterMap_nil, List.not_mem_nil, false_iff]
      intro member
      rcases member with passed | delivered
      · exact Nat.not_lt_of_ge passed.1 passed.2
      · exact Finset.notMem_empty _ delivered
    · intro _
      unfold StaticSchedule.new at accepted
      split_ifs at accepted
      cases accepted
      simp [settled]
  have result := machine.run_induction
    (motive := fun trace state => Framed start stop state ∧ Settled start trace state)
    (fun trace state issue reply after holds (_ : True) stepEq => by
      have change := change_of_call bounded holds.1 stepEq
      exact ⟨holds.1.change change, holds.2.change holds.1 change⟩)
    [] ⟨framed, begin⟩ (machine.along_true initial calls) reached
  exact ⟨trace, final, reached, result⟩

end Commits

/-- The run invariant of the native schedule.  For every accepted schedule and
every sequence of calls the run returns: the active positions lie in the window
of the current depth and outside the delivered set; the positions committed or
seeded are distinct, and are the passed prefix together with the delivered set,
which never holds the next commit; a run that commits only through `try_commit`
and seeds nothing commits the range in order; the completion flag says that the
whole range is settled; a failed call changes nothing; and no counter leaves
`u64`, in the state or in any next call. -/
theorem staticSchedule_run {start stop depth workers : Nat} {initial : StaticSchedule}
    (bounded : stop ≤ maxU64) (accepted : StaticSchedule.new start stop depth workers = .ok initial)
    (calls : List Call) :
    ∃ trace final, machine.run initial calls = some (trace, final) ∧
      (∀ position ∈ final.positions, final.nextCommit ≤ position ∧
        position < min (final.nextCommit + final.depth) stop ∧
        position ∉ final.delivered) ∧
      (settled trace).Nodup ∧
      (∀ position, position ∈ settled trace ↔
        (start ≤ position ∧ position < final.nextCommit) ∨
          position ∈ final.delivered) ∧
      (∀ position ∈ final.delivered, final.nextCommit < position) ∧
      (OnlyTryCommit trace →
        settled trace = List.range' start (settled trace).length) ∧
      (final.isComplete = true ↔
        ∀ position, start ≤ position → position < stop →
          position ∈ settled trace) ∧
      (∀ issue, ∃ reply after, machine.step final issue = some (reply, after) ∧
        (reply.Failed → after = final)) ∧
      final.nextCommit ≤ maxU64 ∧ final.dispatchOrdinal ≤ maxU64 := by
  obtain ⟨trace, final, reached, framed, holds⟩ :=
    run_framed_settled bounded accepted calls
  refine ⟨trace, final, reached, ?_, holds.once, holds.exact,
    fun position member => (framed.beyond position member).1, ?_,
    isComplete_iff framed holds, ?_, Nat.le_trans framed.ended bounded, ?_⟩
  · exact framed.active
  · intro only
    have listed := (holds.ordered only).2
    rw [listed, List.length_range']
  · intro issue
    obtain ⟨reply, after, stepEq, change⟩ := call_change bounded framed issue
    exact ⟨reply, after, stepEq, change.eq_of_failed⟩
  · exact Nat.le_trans (framed.dispatchOrdinal_le) bounded

/-- The run invariant at an out-of-order run with a seeded position. -/
theorem staticSchedule_run_example :
    ∃ initial, StaticSchedule.new 0 4 3 2 = .ok initial ∧
      ∃ trace final,
        machine.run initial
            [.seedDelivered 1, .markDispatched ⟨0, 0⟩, .markDispatched ⟨2, 1⟩,
              .markCompleted ⟨2, 1⟩, .tryCommitReady 2, .markCompleted ⟨0, 0⟩,
              .tryCommit] = some (trace, final) ∧
          (settled trace).Nodup := by
  refine ⟨_, rfl, ?_⟩
  obtain ⟨trace, final, reached, _, once, _⟩ :=
    @staticSchedule_run 0 4 3 2 _ (by decide) rfl
      [.seedDelivered 1, .markDispatched ⟨0, 0⟩, .markDispatched ⟨2, 1⟩,
        .markCompleted ⟨2, 1⟩, .tryCommitReady 2, .markCompleted ⟨0, 0⟩, .tryCommit]
  exact ⟨trace, final, reached, once⟩

end Native

end Hyperloader.Schedule
