/-
Module: Hyperloader.Compat.Conservation
Purpose: What every run of the lane runtime keeps: each submitted task is in
  exactly one place, each lane holds the tasks the pool thinks it owns, and
  what the owner holds or surfaced is what the lanes published.
Trusted boundary: none
Main exports: Outcome, Flow, change_flow, Conserved
-/
import Hyperloader.Compat.LaneRuntime

namespace Hyperloader.Compat

open Foundations

variable {Indices Memory Value Failure : Type}

abbrev Trace (Value Failure : Type) := List (Label × Event Value Failure)

/-! ### Dictionaries in insertion order -/

section Dictionary

variable {Entry : Type} {entries : List (Nat × Entry)} {key : Nat} {entry : Entry}

section

variable (distinct : (entries.map Prod.fst).Nodup)

include distinct

section

variable (member : (key, entry) ∈ entries)

include member

/-- Distinct keys: the entry under a key is the only one. -/
theorem entry_unique {other : Nat × Entry} (otherMember : other ∈ entries) (same : other.1 = key) :
    other = (key, entry) :=
  List.inj_on_of_nodup_map distinct otherMember member same

/-- Removing a key takes one entry. -/
theorem entries_perm_remove :
    entries.Perm ((key, entry) :: entries.filter fun other => other.1 ≠ key) := by
  classical
  have removed : (entries.filter fun other => other.1 ≠ key) =
      entries.erase (key, entry) := by
    rw [List.Nodup.erase_eq_filter distinct.of_map]
    apply List.filter_congr
    intro other otherMember
    by_cases same : other.1 = key
    · simp [entry_unique distinct member otherMember same]
    · have different : other ≠ (key, entry) := fun equal => same (congrArg Prod.fst equal)
      simp [same, different]
  rw [removed]
  exact List.perm_cons_erase member

theorem keys_perm_remove :
    (entries.map Prod.fst).Perm
      (key :: (entries.filter fun other => other.1 ≠ key).map Prod.fst) :=
  (entries_perm_remove distinct member).map Prod.fst

theorem lookup_of_mem : entries.lookup key = some entry := by
  induction entries with
  | nil => cases member
  | cons first rest ih =>
      obtain ⟨firstKey, firstEntry⟩ := first
      by_cases same : key = firstKey
      · subst same
        have here := entry_unique distinct member List.mem_cons_self rfl
        cases here
        simp
      · have later : (key, entry) ∈ rest := by
          rcases List.mem_cons.mp member with here | there
          · cases here
            exact absurd rfl same
          · exact there
        have tail : (rest.map Prod.fst).Nodup := (List.nodup_cons.mp distinct).2
        rw [List.lookup_cons, beq_false_of_ne same]
        exact ih tail later

end

end

end Dictionary

/-! ### Outcomes -/

/-- What becomes of a task once its lane has run it. -/
inductive Outcome (Value Failure : Type) where
  | output (output : Output Value)
  | failure (worker : Nat) (failure : Failure)

def LaneResult.outcome (worker : Nat) : LaneResult Value Failure → Outcome Value Failure
  | .batch value => .output (.batch value)
  | .exhausted => .output (.exhausted worker)
  | .raised failure => .failure worker failure

/-- The task and outcome an event shows to the caller of `next`, or passes over. -/
def surfacedBy : Event Value Failure → Option (Nat × Outcome Value Failure)
  | .yielded task value => some (task, .output (.batch value))
  | .passed task worker => some (task, .output (.exhausted worker))
  | .raised task worker failure => some (task, .failure worker failure)
  | _ => none

def surfaced (trace : Trace Value Failure) : List (Nat × Outcome Value Failure) :=
  trace.filterMap fun entry => surfacedBy entry.2

def publishedBy : Event Value Failure → Option (Nat × Nat × LaneResult Value Failure)
  | .published worker task result => some (worker, task, result)
  | _ => none

/-- What the lanes published, with the lane and the task. -/
def publishedLog (trace : Trace Value Failure) :
    List (Nat × Nat × LaneResult Value Failure) :=
  trace.filterMap fun entry => publishedBy entry.2

def published (trace : Trace Value Failure) : List (Nat × Outcome Value Failure) :=
  (publishedLog trace).map fun entry => (entry.2.1, entry.2.2.outcome entry.1)

/-- The entry `_fill` is about to return from delivering. -/
def held : Control Value → List (Nat × Outcome Value Failure)
  | .filling _ (.deliver task output) => [(task, .output output)]
  | _ => []

/-- What the owner received and has not surfaced. -/
def inHand (state : State Indices Memory Value Failure) :
    List (Nat × Outcome Value Failure) :=
  held state.control ++ state.ready.map fun entry => (entry.1, .output entry.2)

/-- The completions of one lane the owner has not read. -/
def Lane.reports (worker : Nat) (lane : Lane Indices Memory Value Failure) :
    List (Nat × Outcome Value Failure) :=
  lane.completions.map fun entry => (entry.1, entry.2.outcome worker)

def completed (settings : Settings Indices)
    (state : State Indices Memory Value Failure) : List (Nat × Outcome Value Failure) :=
  (List.range settings.workers).flatMap fun worker =>
    (state.lanes worker).reports worker

/-- Tasks accepted and not yet run by a lane, the running one first. -/
def Lane.waiting (lane : Lane Indices Memory Value Failure) : List (Nat × Indices) :=
  lane.running.toList ++ lane.ring

/-- A lane's incomplete tasks in order of submission. -/
def Lane.tasks (lane : Lane Indices Memory Value Failure) : List Nat :=
  lane.completions.map Prod.fst ++ lane.waiting.map Prod.fst

/-- What every run keeps: each submitted task is surfaced, in hand or pending,
in one of them only; what the lanes published is surfaced, in hand or unread;
and each lane holds the tasks the pending table gives it, in order. -/
structure Conserved (settings : Settings Indices) (trace : Trace Value Failure)
    (state : State Indices Memory Value Failure) : Prop where
  ordered : state.startTask ≤ state.nextTask
  tasks : ((surfaced trace ++ inHand state).map Prod.fst ++
      state.pending.map Prod.fst).Perm
    (List.range' state.startTask (state.nextTask - state.startTask))
  reports : (published trace).Perm
    (surfaced trace ++ inHand state ++ completed settings state)
  lanes : ∀ worker, (state.lanes worker).tasks =
    (state.pending.filter fun entry => entry.2 = worker).map Prod.fst
  within : ∀ entry ∈ state.pending, entry.2 < settings.workers

section Traces

variable {trace : Trace Value Failure}

theorem surfaced_append (entry : Label × Event Value Failure) :
    surfaced (trace ++ [entry]) = surfaced trace ++ (surfacedBy entry.2).toList := by
  cases shows : surfacedBy entry.2 <;> simp [surfaced, shows]

theorem publishedLog_append (entry : Label × Event Value Failure) :
    publishedLog (trace ++ [entry]) =
      publishedLog trace ++ (publishedBy entry.2).toList := by
  cases publishes : publishedBy entry.2 <;> simp [publishedLog, publishes]

theorem published_append_none {label : Label} {event : Event Value Failure}
    (quiet : publishedBy event = none) :
    published (trace ++ [(label, event)]) = published trace := by
  rw [published, publishedLog_append, quiet]
  simp [published]

theorem published_append_some {label : Label} (worker task : Nat)
    (result : LaneResult Value Failure) :
    published (trace ++ [(label, .published worker task result)]) =
      published trace ++ [(task, result.outcome worker)] := by
  rw [published, publishedLog_append]
  simp [published, publishedBy]

end Traces

/-! ### What a step moves -/

section Steps

variable {settings : Settings Indices}
  {program : LaneProgram Indices Memory Value Failure}
  {trace : Trace Value Failure} {state next : State Indices Memory Value Failure}

/-- Where one step moves tasks. -/
inductive Flow (settings : Settings Indices)
    (program : LaneProgram Indices Memory Value Failure)
    (state : State Indices Memory Value Failure) :
    Event Value Failure → State Indices Memory Value Failure → Prop where
  | still (event : Event Value Failure) (next : State Indices Memory Value Failure)
      (quiet : publishedBy event = none)
      (hand : ((surfacedBy event).toList ++ inHand next).Perm (inHand state))
      (sameStart : next.startTask = state.startTask)
      (sameNext : next.nextTask = state.nextTask)
      (samePending : next.pending = state.pending) (sameLanes : next.lanes = state.lanes) :
      Flow settings program state event next
  | submitted (indices : Indices) (worker : Nat)
      (next : State Indices Memory Value Failure) (within : worker < settings.workers)
      (chosen : (nextWorker settings state).1 = some worker)
      (sameHand : inHand next = inHand state)
      (sameStart : next.startTask = state.startTask)
      (nextEq : next.nextTask = state.nextTask + 1)
      (pendingEq : next.pending = state.pending ++ [(state.nextTask, worker)])
      (lanesEq : next.lanes = Function.update state.lanes worker
        { state.lanes worker with
          ring := (state.lanes worker).ring ++ [(state.nextTask, indices)] }) :
      Flow settings program state .silent next
  | received (worker task : Nat) (result : LaneResult Value Failure)
      (completions : List (Nat × LaneResult Value Failure))
      (event : Event Value Failure) (next : State Indices Memory Value Failure)
      (quiet : publishedBy event = none) (within : worker < settings.workers)
      (head : (state.lanes worker).completions = (task, result) :: completions)
      (hand : ((surfacedBy event).toList ++ inHand next).Perm
        ((task, result.outcome worker) :: inHand state))
      (sameStart : next.startTask = state.startTask)
      (sameNext : next.nextTask = state.nextTask)
      (pendingEq : next.pending = state.pending.filter fun entry => entry.1 ≠ task)
      (lanesEq : next.lanes = Function.update state.lanes worker
        { state.lanes worker with completions := completions }) :
      Flow settings program state event next
  | taken (worker : Nat) (command : Nat × Indices) (ring : List (Nat × Indices))
      (free : (state.lanes worker).running = none)
      (head : (state.lanes worker).ring = command :: ring) :
      Flow settings program state .silent
        (state.setLane worker
          { state.lanes worker with ring := ring, running := some command })
  | published (worker task : Nat) (indices : Indices)
      (running : (state.lanes worker).running = some (task, indices)) :
      Flow settings program state
        (.published worker task (program.fetch (state.lanes worker).memory indices).1)
        (state.setLane worker ((state.lanes worker).ran program task indices))

/-- Returning from `_fill` surfaces the entry it was delivering. -/
theorem returnFill_flow {origin : State Indices Memory Value Failure} {target : Nat}
    {after : AfterFill Value} (filling : state.control = .filling target after)
    (sameControl : origin.control = state.control) (sameReady : origin.ready = state.ready)
    (sameStart : origin.startTask = state.startTask) (sameNext : origin.nextTask = state.nextTask)
    (samePending : origin.pending = state.pending) (sameLanes : origin.lanes = state.lanes) :
    Flow settings program state (returnFill settings origin after).1
      (returnFill settings origin after).2 := by
  have originFilling : origin.control = .filling target after := sameControl.trans filling
  cases after with
  | constructed | decide =>
      refine .still _ _ rfl ?_ sameStart sameNext samePending sameLanes
      simp [returnFill, surfacedBy, inHand, held, filling, sameReady]
  | deliver task output =>
      cases output <;>
        · refine .still _ _ rfl ?_ sameStart sameNext samePending sameLanes
          simp [returnFill, surfacedBy, inHand, held, filling, sameReady]

variable {output : Output Value}

theorem deliverable_mem {task : Nat} (found : deliverable settings state = some (task, output)) :
    (task, output) ∈ state.ready := by
  unfold deliverable at found
  split at found
  · exact List.mem_of_find?_eq_some found
  · exact List.mem_of_head? found

theorem accept_fields (state : State Indices Memory Value Failure) (task : Nat)
    (output : Output Value) :
    (accept state task output).startTask = state.startTask ∧
      (accept state task output).nextTask = state.nextTask ∧
      (accept state task output).ready = state.ready ++ [(task, output)] ∧
      (accept state task output).pending = state.pending ∧
      (accept state task output).lanes = state.lanes := by
  cases output <;> exact ⟨rfl, rfl, rfl, rfl, rfl⟩

variable {result : LaneResult Value Failure}

theorem outcome_of_output {worker : Nat} (outputEq : result.output worker = some output) :
    result.outcome worker = .output output := by
  cases result <;> cases outputEq <;> rfl

namespace Conserved

section

variable (conserved : Conserved settings trace state)

include conserved

theorem distinct :
    ((surfaced trace ++ inHand state).map Prod.fst ++
      state.pending.map Prod.fst).Nodup :=
  conserved.tasks.nodup_iff.mpr (List.nodup_range' 1)

theorem pending_distinct :
    (state.pending.map Prod.fst).Nodup :=
  (List.nodup_append.mp conserved.distinct).2.1

theorem ready_distinct :
    (state.ready.map Prod.fst).Nodup := by
  have arrived := (List.nodup_append.mp conserved.distinct).1
  have shown : ((state.ready.map fun entry =>
      ((entry.1, .output entry.2) : Nat × Outcome Value Failure)).map Prod.fst).Nodup := by
    refine List.Nodup.sublist ?_ arrived
    apply List.Sublist.map
    exact (List.sublist_append_right _ _).trans (List.sublist_append_right _ _)
  rw [List.map_map] at shown
  exact shown

theorem mem_tasks (worker task : Nat) :
    task ∈ (state.lanes worker).tasks ↔ (task, worker) ∈ state.pending := by
  rw [conserved.lanes worker]
  simp

variable {completions : List (Nat × LaneResult Value Failure)}

/-- The head of a lane's completions is pending with that lane. -/
theorem head_pending {worker task : Nat}
    (head : (state.lanes worker).completions = (task, result) :: completions) :
    (task, worker) ∈ state.pending := by
  rw [← conserved.mem_tasks, Lane.tasks, head]
  simp

/-- The lane that completes a task is the lane it was submitted to. -/
theorem lookup_head {worker task : Nat}
    (head : (state.lanes worker).completions = (task, result) :: completions) :
    state.pending.lookup task = some worker :=
  lookup_of_mem conserved.pending_distinct (conserved.head_pending head)

end

end Conserved

/-- Delivering moves one ready entry into `_fill`'s hold. -/
theorem delivered_hand (conserved : Conserved settings trace state) {task : Nat}
    (deciding : state.control = .deciding)
    (found : deliverable settings state = some (task, output)) :
    ((task, Outcome.output output) ::
      (state.ready.filter fun entry => entry.1 ≠ task).map fun entry =>
        ((entry.1, .output entry.2) : Nat × Outcome Value Failure)).Perm
      (inHand state) := by
  have moved := entries_perm_remove conserved.ready_distinct (deliverable_mem found)
  have shown := moved.map fun entry =>
    ((entry.1, .output entry.2) : Nat × Outcome Value Failure)
  simpa [inHand, held, deciding] using shown.symm

/-- Every change of a conserved state is a flow of tasks. -/
theorem change_flow (positive : 0 < settings.workers) (conserved : Conserved settings trace state)
    {label : Label} {event : Event Value Failure}
    (change : Change settings program state label event next) :
    Flow settings program state event next := by
  cases change with
  | called idle => exact .still _ _ rfl (by simp [surfacedBy, inHand, held, idle]) rfl rfl rfl rfl
  | calledClosed => exact .still _ _ rfl (by simp [surfacedBy]) rfl rfl rfl rfl
  | filled target after filling =>
      exact returnFill_flow filling rfl rfl rfl rfl rfl rfl
  | ended target after filling =>
      exact returnFill_flow filling rfl rfl rfl rfl rfl rfl
  | unserved target after indices filling =>
      exact returnFill_flow filling rfl rfl rfl rfl rfl rfl
  | refused target after indices worker filling =>
      exact returnFill_flow filling rfl rfl rfl rfl rfl rfl
  | submitted target after indices worker _ _ _ _ lane =>
      exact .submitted indices worker _ (nextWorker_lt positive lane) lane rfl rfl rfl rfl rfl
  | delivered task output deciding found =>
      exact .still _ _ rfl (delivered_hand conserved deciding found) rfl rfl rfl rfl
  | finished deciding =>
      exact .still _ _ rfl (by simp [surfacedBy, inHand, held, deciding]) rfl rfl rfl rfl
  | waited deciding =>
      exact .still _ _ rfl (by simp [surfacedBy, inHand, held, deciding]) rfl rfl rfl rfl
  | missed receiving =>
      exact .still _ _ rfl (by simp [surfacedBy, inHand, held, receiving]) rfl rfl rfl rfl
  | mismatched worker task result completions _ _ head stranger =>
      exact absurd (conserved.lookup_head head) stranger
  | raised worker task failure completions receiving within _ head =>
      refine .received worker task _ completions _ _ rfl within head ?_ rfl rfl rfl rfl
      simp [surfacedBy, inHand, held, receiving, LaneResult.outcome, State.received,
        State.setLane]
  | accepted worker task result output completions receiving within _ head outputEq =>
      obtain ⟨sameStart, sameNext, readyEq, pendingEq, lanesEq⟩ :=
        accept_fields (state.received worker task completions) task output
      refine .received worker task result completions _ _ rfl within head ?_ sameStart
        sameNext pendingEq lanesEq
      rw [outcome_of_output outputEq]
      simp only [surfacedBy, inHand, held, receiving, readyEq, Option.toList_none,
        List.nil_append, List.map_append, List.map_cons, List.map_nil]
      exact List.perm_append_singleton _ _
  | taken worker command ring free head => exact .taken worker command ring free head
  | published worker task indices running => exact .published worker task indices running

/-! ### The flow keeps the account -/

/-- The unread completions, with those of one lane in front. -/
theorem completed_split (state : State Indices Memory Value Failure) {worker : Nat}
    (within : worker < settings.workers) :
    ∃ others, (completed settings state).Perm
        ((state.lanes worker).reports worker ++ others) ∧
      ∀ after lane, after.lanes = Function.update state.lanes worker lane →
        (completed settings after).Perm (lane.reports worker ++ others) := by
  have split : (List.range settings.workers).Perm
      (worker :: (List.range settings.workers).erase worker) :=
    List.perm_cons_erase (List.mem_range.mpr within)
  refine ⟨((List.range settings.workers).erase worker).flatMap fun other =>
    (state.lanes other).reports other, split.flatMap_right _, ?_⟩
  intro after lane lanesEq
  have shown := split.flatMap_right fun other => (after.lanes other).reports other
  have same : (((List.range settings.workers).erase worker).flatMap fun other =>
      (after.lanes other).reports other) =
      ((List.range settings.workers).erase worker).flatMap fun other =>
        (state.lanes other).reports other := by
    rw [List.flatMap_def, List.flatMap_def]
    congr 1
    apply List.map_congr_left
    intro other member
    have different : other ≠ worker :=
      ((List.nodup_range).mem_erase_iff.mp member).1
    rw [lanesEq, Function.update_of_ne different]
  rw [List.flatMap_cons, same, lanesEq, Function.update_self] at shown
  rw [completed, lanesEq]
  exact shown

theorem lane_tasks_congr {lane other : Lane Indices Memory Value Failure}
    (completions : other.completions = lane.completions)
    (waiting : other.waiting = lane.waiting) : other.tasks = lane.tasks := by
  rw [Lane.tasks, Lane.tasks, completions, waiting]

/-- The pending tasks of a lane, once one task has left the table. -/
theorem pending_filter_remove (pending : List (Nat × Nat)) (task worker : Nat) :
    ((pending.filter fun entry => entry.1 ≠ task).filter fun entry =>
        entry.2 = worker).map Prod.fst =
      ((pending.filter fun entry => entry.2 = worker).map Prod.fst).filter
        fun other => other ≠ task := by
  rw [List.filter_map, List.filter_filter, List.filter_filter]
  congr 1
  apply List.filter_congr
  intro entry _
  simp [Bool.and_comm]

theorem filter_ne_of_notMem {tasks : List Nat} {task : Nat} (absent : task ∉ tasks) :
    (tasks.filter fun other => other ≠ task) = tasks := by
  apply List.filter_eq_self.mpr
  intro other member
  have different : other ≠ task := fun same => absent (same ▸ member)
  simpa using different

namespace Conserved

section

variable (conserved : Conserved settings trace state)

include conserved

/-- Each lane's tasks after a receipt. -/
theorem received_lanes {worker task : Nat} {completions : List (Nat × LaneResult Value Failure)}
    (head : (state.lanes worker).completions = (task, result) :: completions) (other : Nat) :
    (Function.update state.lanes worker
        { state.lanes worker with completions := completions } other).tasks =
      ((state.pending.filter fun entry => entry.1 ≠ task).filter fun entry =>
        entry.2 = other).map Prod.fst := by
  rw [pending_filter_remove, ← conserved.lanes other]
  by_cases same : other = worker
  · subst same
    have distinct : (state.lanes other).tasks.Nodup := by
      rw [conserved.lanes other]
      exact List.Nodup.sublist (List.filter_sublist.map Prod.fst)
        conserved.pending_distinct
    have front : (state.lanes other).tasks =
        task :: (completions.map Prod.fst ++
          (state.lanes other).waiting.map Prod.fst) := by
      rw [Lane.tasks, head, List.map_cons, List.cons_append]
    rw [front] at distinct ⊢
    rw [Function.update_self, List.filter_cons_of_neg (by simp),
      filter_ne_of_notMem (List.nodup_cons.mp distinct).1]
    rfl
  · have absent : task ∉ (state.lanes other).tasks := by
      intro member
      have there := (conserved.mem_tasks other task).mp member
      have here := conserved.head_pending head
      have equal := entry_unique conserved.pending_distinct here there rfl
      exact same (congrArg Prod.snd equal)
    rw [Function.update_of_ne same, filter_ne_of_notMem absent]

/-- Each lane's tasks after a submission. -/
theorem submitted_lanes (indices : Indices) (worker other : Nat) :
    (Function.update state.lanes worker
        { state.lanes worker with
          ring := (state.lanes worker).ring ++ [(state.nextTask, indices)] } other).tasks =
      ((state.pending ++ [(state.nextTask, worker)]).filter fun entry =>
        entry.2 = other).map Prod.fst := by
  rw [List.filter_append, List.map_append, ← conserved.lanes other]
  by_cases same : other = worker
  · subst same
    rw [Function.update_self]
    simp [Lane.tasks, Lane.waiting]
  · rw [Function.update_of_ne same]
    simp [Ne.symm same]

/-- One flow keeps the account. -/
theorem flow {event : Event Value Failure} (flow : Flow settings program state event next)
    (label : Label) : Conserved settings (trace ++ [(label, event)]) next := by
  have ordered := conserved.ordered
  cases flow with
  | still _ _ quiet hand sameStart sameNext samePending sameLanes =>
      have arrived : (surfaced (trace ++ [(label, event)]) ++ inHand next).Perm
          (surfaced trace ++ inHand state) := by
        rw [surfaced_append, List.append_assoc]
        exact hand.append_left _
      have sameCompleted : completed settings next = completed settings state := by
        rw [completed, completed, sameLanes]
      constructor
      · rw [sameStart, sameNext]
        exact ordered
      · rw [samePending, sameStart, sameNext]
        exact ((arrived.map Prod.fst).append_right _).trans conserved.tasks
      · rw [published_append_none quiet, sameCompleted]
        exact conserved.reports.trans (arrived.symm.append_right _)
      · rw [samePending, sameLanes]
        exact conserved.lanes
      · rw [samePending]
        exact conserved.within
  | submitted indices worker _ within _ sameHand sameStart nextEq pendingEq lanesEq =>
      have arrived : surfaced (trace ++ [(label, .silent)]) ++ inHand next =
          surfaced trace ++ inHand state := by
        rw [surfaced_append, sameHand]
        simp [surfacedBy]
      have last : state.startTask + (state.nextTask - state.startTask) =
          state.nextTask := by omega
      have longer : state.nextTask + 1 - state.startTask =
          (state.nextTask - state.startTask) + 1 := by omega
      have keys : next.pending.map Prod.fst =
          state.pending.map Prod.fst ++ [state.nextTask] := by
        rw [pendingEq]
        simp
      constructor
      · rw [sameStart, nextEq]
        exact Nat.le_succ_of_le ordered
      · rw [arrived, keys, sameStart, nextEq, longer, List.range'_concat, Nat.one_mul, last,
          ← List.append_assoc]
        exact conserved.tasks.append_right _
      · obtain ⟨others, before, after⟩ := completed_split state within
        have sameReports := (after next _ lanesEq).trans before.symm
        rw [published_append_none rfl, arrived]
        exact conserved.reports.trans (sameReports.symm.append_left _)
      · intro other
        rw [lanesEq, pendingEq]
        exact conserved.submitted_lanes indices worker other
      · intro entry member
        rw [pendingEq] at member
        rcases List.mem_append.mp member with old | new
        · exact conserved.within entry old
        · rw [List.mem_singleton.mp new]
          exact within
  | received worker task result completions _ _ quiet within head hand sameStart sameNext
      pendingEq lanesEq =>
      have arrived : (surfaced (trace ++ [(label, event)]) ++ inHand next).Perm
          ((task, result.outcome worker) :: (surfaced trace ++ inHand state)) := by
        rw [surfaced_append, List.append_assoc]
        exact (hand.append_left _).trans List.perm_middle
      have moved := keys_perm_remove conserved.pending_distinct
        (conserved.head_pending head)
      constructor
      · rw [sameStart, sameNext]
        exact ordered
      · rw [pendingEq, sameStart, sameNext]
        have first := (arrived.map Prod.fst).append_right
          ((state.pending.filter fun entry => entry.1 ≠ task).map Prod.fst)
        refine first.trans ?_
        rw [List.map_cons, List.cons_append]
        exact (List.perm_middle.symm.trans (moved.symm.append_left _)).trans
          conserved.tasks
      · obtain ⟨others, before, after⟩ := completed_split state within
        have unread := after next _ lanesEq
        rw [Lane.reports, head, List.map_cons, List.cons_append] at before
        rw [published_append_none quiet]
        have counted := conserved.reports.trans (before.append_left _)
        refine counted.trans ?_
        refine List.perm_middle.trans ?_
        exact ((unread.symm.append_left _).cons _).trans (arrived.symm.append_right _)
      · intro other
        rw [lanesEq, pendingEq]
        exact conserved.received_lanes head other
      · intro entry member
        rw [pendingEq] at member
        exact conserved.within entry (List.mem_filter.mp member).1
  | taken worker command ring free head =>
      have waiting : ({ state.lanes worker with ring := ring, running := some command } :
          Lane Indices Memory Value Failure).waiting = (state.lanes worker).waiting := by
        simp [Lane.waiting, free, head]
      have arrived : surfaced (trace ++ [(label, .silent)]) = surfaced trace := by
        rw [surfaced_append]
        exact List.append_nil _
      refine ⟨ordered, ?_, ?_, ?_, conserved.within⟩
      · rw [arrived]
        exact conserved.tasks
      · rw [published_append_none rfl, arrived]
        have sameCompleted : completed settings (state.setLane worker
            { state.lanes worker with ring := ring, running := some command }) =
            completed settings state := by
          rw [completed, completed]
          congr 1
          funext other
          by_cases same : other = worker
          · subst same
            rw [State.setLane_self]
            rfl
          · rw [State.setLane_of_ne _ _ same]
        rw [sameCompleted]
        exact conserved.reports
      · intro other
        refine Eq.trans ?_ (conserved.lanes other)
        by_cases same : other = worker
        · subst same
          rw [State.setLane_self]
          exact lane_tasks_congr rfl waiting
        · rw [State.setLane_of_ne _ _ same]
  | published worker task indices running =>
      have within : worker < settings.workers := by
        have mine : task ∈ (state.lanes worker).tasks := by
          simp [Lane.tasks, Lane.waiting, running]
        exact conserved.within _ ((conserved.mem_tasks worker task).mp mine)
      have arrived : surfaced (trace ++ [(label, .published worker task
          (program.fetch (state.lanes worker).memory indices).1)]) = surfaced trace := by
        rw [surfaced_append]
        exact List.append_nil _
      refine ⟨ordered, ?_, ?_, ?_, conserved.within⟩
      · rw [arrived]
        exact conserved.tasks
      · obtain ⟨others, before, after⟩ := completed_split state within
        have unread := after (state.setLane worker
          ((state.lanes worker).ran program task indices)) _ rfl
        have longer : (completed settings (state.setLane worker
            ((state.lanes worker).ran program task indices))).Perm
              (completed settings state ++ [(task, ((program.fetch
                (state.lanes worker).memory indices).1).outcome worker)]) := by
          refine unread.trans ?_
          refine List.Perm.trans ?_ (before.symm.append_right _)
          simp only [Lane.reports, Lane.ran, List.map_append, List.map_cons, List.map_nil,
            List.append_assoc]
          exact List.perm_append_comm.append_left _
        rw [published_append_some, arrived]
        have counted := (conserved.reports.append_right [(task, ((program.fetch
          (state.lanes worker).memory indices).1).outcome worker)])
        rw [List.append_assoc] at counted
        exact counted.trans (longer.symm.append_left _)
      · intro other
        refine Eq.trans ?_ (conserved.lanes other)
        by_cases same : other = worker
        · subst same
          rw [State.setLane_self]
          simp [Lane.tasks, Lane.waiting, Lane.ran, running]
        · rw [State.setLane_of_ne _ _ same]

end

end Conserved

theorem conserved_initial (settings : Settings Indices)
    (program : LaneProgram Indices Memory Value Failure) (skip phase : Nat) :
    Conserved settings [] (initial settings program skip phase) where
  ordered := Nat.le_refl _
  tasks := by simp [surfaced, inHand, held, initial]
  reports := by simp [published, publishedLog, surfaced, inHand, held, completed, initial,
    Lane.reports]
  lanes worker := by simp [initial, Lane.tasks, Lane.waiting]
  within entry member := by simp [initial] at member

/-! ### When nothing is left -/

/-- With no task pending or in hand, every submitted task was published and
surfaced, each once and with one outcome. -/
theorem Conserved.settled (conserved : Conserved settings trace state)
    (idle : state.control = .idle) (ready : state.ready = []) (pending : state.pending = []) :
    ((surfaced trace).map Prod.fst).Perm
        (List.range' state.startTask (state.nextTask - state.startTask)) ∧
      (published trace).Perm (surfaced trace) := by
  have none : inHand state = [] := by simp [inHand, held, idle, ready]
  have unread : completed settings state = [] := by
    rw [completed, List.flatMap_eq_nil_iff]
    intro worker _
    have mine := conserved.lanes worker
    rw [pending, Lane.tasks] at mine
    have noCompletions : (state.lanes worker).completions.map Prod.fst = [] :=
      (List.append_eq_nil_iff.mp mine).1
    rw [Lane.reports, List.map_eq_nil_iff.mp noCompletions, List.map_nil]
  constructor
  · simpa [none, pending] using conserved.tasks
  · simpa [none, unread] using conserved.reports

end Steps

end Hyperloader.Compat
