/-
Module: Hyperloader.Compat.Deal
Purpose: The deal of tasks to lanes while every lane is active, and the result
  each task has in it, which no interleaving of the lanes changes.
Trusted boundary: none
Main exports: ownerOf, dealt, resultOf, reference, Dealt, published_reference
-/
import Hyperloader.Compat.Coverage

namespace Hyperloader.Compat

open Foundations

variable {Indices Memory Value Failure : Type}

section

variable (settings : Settings Indices)

/-- The lane of a task while every lane is active. -/
def ownerOf (skip phase task : Nat) : Nat :=
  (phase + (task - skip)) % settings.workers

/-- The tasks of one lane below `next`. -/
def dealt (skip phase worker next : Nat) : List Nat :=
  (List.range' skip (next - skip)).filter fun task =>
    ownerOf settings skip phase task = worker

/-- The memory of a task's lane after the lane's earlier tasks. -/
def memoryBefore (program : LaneProgram Indices Memory Value Failure) (skip phase task : Nat) :
    Memory :=
  let worker := ownerOf settings skip phase task
  let earlier := (dealt settings skip phase worker task).filterMap (unitOf settings skip)
  (replay program (program.start worker) earlier).2

/-- What a task's lane returns for it. -/
def resultOf (program : LaneProgram Indices Memory Value Failure) (skip phase task : Nat) :
    Option (LaneResult Value Failure) :=
  (unitOf settings skip task).map fun indices =>
    (program.fetch (memoryBefore settings program skip phase task) indices).1

/-- A task with its outcome, from the sampler, the lanes' program, and the
position and phase of the iterator alone. -/
def reference (program : LaneProgram Indices Memory Value Failure) (skip phase task : Nat) :
    Option (Nat × Outcome Value Failure) :=
  (resultOf settings program skip phase task).map fun result =>
    (task, result.outcome (ownerOf settings skip phase task))

end

/-- Every task returns a value or raises. -/
def Answers (program : LaneProgram Indices Memory Value Failure) : Prop :=
  ∀ memory indices, (program.fetch memory indices).1 ≠ .exhausted

section Tasks

variable {settings : Settings Indices} {skip phase worker next task : Nat}

theorem dealt_succ (reached : skip ≤ next) :
    dealt settings skip phase worker (next + 1) =
      dealt settings skip phase worker next ++
        if ownerOf settings skip phase next = worker then [next] else [] := by
  have longer : next + 1 - skip = (next - skip) + 1 := by omega
  have last : skip + (next - skip) = next := by omega
  rw [dealt, longer, List.range'_concat, Nat.one_mul, last, List.filter_append, dealt]
  by_cases own : ownerOf settings skip phase next = worker <;> simp [own]

theorem mem_dealt : task ∈ dealt settings skip phase worker next ↔
    (skip ≤ task ∧ task < next) ∧ ownerOf settings skip phase task = worker := by
  rw [dealt, List.mem_filter, List.mem_range'_1, decide_eq_true_eq]
  constructor
  · rintro ⟨⟨low, high⟩, own⟩
    exact ⟨⟨low, by omega⟩, own⟩
  · rintro ⟨⟨low, high⟩, own⟩
    exact ⟨⟨low, by omega⟩, own⟩

theorem dealt_nodup (settings : Settings Indices) (skip phase worker next : Nat) :
    (dealt settings skip phase worker next).Nodup :=
  (List.nodup_range' 1).filter _

/-- The tasks of a lane in front of one of them. -/
theorem dealt_front {front rest : List Nat}
    (split : front ++ task :: rest = dealt settings skip phase worker next) :
    front = dealt settings skip phase worker task := by
  have member : task ∈ dealt settings skip phase worker next := by
    rw [← split]
    simp
  obtain ⟨⟨low, high⟩, own⟩ := mem_dealt.mp member
  have parts : next - skip = (task - skip) + (1 + (next - task - 1)) := by omega
  have here : skip + (task - skip) = task := by omega
  have cut : dealt settings skip phase worker next =
      dealt settings skip phase worker task ++ task ::
        (List.range' (task + 1) (next - task - 1)).filter fun other =>
          ownerOf settings skip phase other = worker := by
    rw [dealt, parts, ← List.range'_append_1, here, ← List.range'_append_1,
      List.filter_append, List.filter_append, dealt]
    simp [own]
  have distinct := dealt_nodup settings skip phase worker next
  rw [← split] at distinct
  obtain ⟨_, later, apart⟩ := List.nodup_append.mp distinct
  rw [cut] at split
  refine ((List.append_cons_inj_of_notMem ?_ ?_).mp split).1
  · intro before
    exact apart task before task List.mem_cons_self rfl
  · exact (List.nodup_cons.mp later).1

end Tasks

section Steps

variable {settings : Settings Indices}
  {program : LaneProgram Indices Memory Value Failure} {skip phase : Nat}
  {trace : Trace Value Failure} {state next : State Indices Memory Value Failure}

/-- Every lane is active, and the cursor stands at the owner of the next task. -/
structure Turned (settings : Settings Indices) (skip phase : Nat)
    (state : State Indices Memory Value Failure) : Prop where
  phaseEq : state.phase = phase
  active : state.activeWorkers = Finset.range settings.workers
  cursor : settings.iterable = true →
    state.workerCursor = phase + (state.nextTask - skip)

/-- Each lane was dealt its own tasks, has published the first of them with their
results, and owns its pending ones. -/
structure Dealt (settings : Settings Indices)
    (program : LaneProgram Indices Memory Value Failure) (skip phase : Nat)
    (trace : Trace Value Failure) (state : State Indices Memory Value Failure) : Prop where
  lanes : ∀ worker, (laneLog trace worker).map Prod.fst ++
      (state.lanes worker).waiting.map Prod.fst =
    dealt settings skip phase worker state.nextTask
  results : ∀ worker, ∀ entry ∈ laneLog trace worker,
    resultOf settings program skip phase entry.1 = some entry.2
  owners : ∀ entry ∈ state.pending, entry.2 = ownerOf settings skip phase entry.1

/-- In order, the lane chosen next is the owner of the next task. -/
theorem Turned.chosen (turned : Turned settings skip phase state)
    (inOrder : settings.inOrder = true) (positive : 0 < settings.workers)
    (start : state.startTask = skip) (ordered : skip ≤ state.nextTask) :
    (nextWorker settings state).1 =
        some (ownerOf settings skip phase state.nextTask) ∧
      (settings.iterable = true →
        (nextWorker settings state).2 = state.workerCursor + 1) := by
  cases iterable : settings.iterable with
  | false =>
      have place : state.phase + state.nextTask - skip = phase + (state.nextTask - skip) := by
        rw [turned.phaseEq, Nat.add_sub_assoc ordered]
      simp [nextWorker, inOrder, iterable, ownerOf, start, place]
  | true =>
      obtain ⟨lanes, lanesEq⟩ := Nat.exists_eq_succ_of_ne_zero (Nat.ne_of_gt positive)
      have cursor := turned.cursor iterable
      have free : eligible settings state (state.workerCursor % settings.workers) = true := by
        simp [eligible, turned.active, inOrder, Nat.mod_lt _ positive]
      have scanned : ∀ count, count = settings.workers →
          scanWorkers settings state count state.workerCursor =
            (some (state.workerCursor % settings.workers), state.workerCursor + 1) := by
        rintro count rfl
        rw [lanesEq, scanWorkers, if_pos free, lanesEq]
      have scannedHere : nextWorker settings state =
          (some (state.workerCursor % settings.workers), state.workerCursor + 1) := by
        rw [nextWorker, if_neg (by simp [iterable]), scanned _ rfl]
      rw [scannedHere, ownerOf, cursor]
      exact ⟨rfl, fun _ => rfl⟩

variable {entry : Nat × Outcome Value Failure}

/-- The outcome an entry was published with is its task's outcome in the deal. -/
theorem Dealt.published_reference (dealing : Dealt settings program skip phase trace state)
    (member : entry ∈ published trace) :
    reference settings program skip phase entry.1 = some entry := by
  obtain ⟨⟨worker, task, result⟩, logged, rfl⟩ := List.mem_map.mp member
  have mine : (task, result) ∈ laneLog trace worker :=
    List.mem_filterMap.mpr ⟨_, logged, if_pos rfl⟩
  have dealtHere : task ∈ dealt settings skip phase worker state.nextTask := by
    rw [← dealing.lanes worker]
    exact List.mem_append_left _ (List.mem_map_of_mem mine)
  simp [reference, dealing.results worker _ mine, (mem_dealt.mp dealtHere).2]

/-- No task of an answering program is the mark of an exhausted lane. -/
theorem reference_ne_exhausted (answers : Answers program) {task worker : Nat}
    (found : reference settings program skip phase task = some entry) :
    entry.2 ≠ .output (.exhausted worker) := by
  obtain ⟨result, resultEq, rfl⟩ := Option.map_eq_some_iff.mp found
  obtain ⟨indices, _, resultIs⟩ := Option.map_eq_some_iff.mp resultEq
  have answered := answers (memoryBefore settings program skip phase task) indices
  rw [resultIs] at answered
  cases result with
  | batch value | raised failure => simp [LaneResult.outcome]
  | exhausted => exact absurd rfl answered

variable {event : Event Value Failure}

theorem Turned.change (turned : Turned settings skip phase state)
    (inOrder : settings.inOrder = true) (positive : 0 < settings.workers)
    (answers : Answers program) (dealing : Dealt settings program skip phase trace state)
    (sound : Sound settings program skip trace state) {label : Label}
    (served : Served settings state label) (change : Change settings program state label event next) :
    Turned settings skip phase next := by
  obtain ⟨chosen, cursor⟩ :=
    turned.chosen inOrder positive sound.start sound.admitted.ordered
  cases change with
  | called | calledClosed | delivered | finished | waited | missed | mismatched | raised
  | taken | published => exact ⟨turned.phaseEq, turned.active, turned.cursor⟩
  | filled target after filling =>
      obtain ⟨event, control, returned⟩ := returnFill_eq settings state after
      rw [returned]
      exact ⟨turned.phaseEq, turned.active, turned.cursor⟩
  | ended target after filling =>
      obtain ⟨event, control, returned⟩ := returnFill_eq settings state.exhaust after
      rw [returned]
      exact ⟨turned.phaseEq, turned.active, turned.cursor⟩
  | unserved target after indices filling running room unit noLane =>
      rw [noLane] at chosen
      cases chosen
  | refused target after indices worker filling running room unit lane full =>
      obtain ⟨other, otherLane, free⟩ :=
        served rfl target after indices filling running room unit
      rw [lane] at otherLane
      cases otherLane
      exact absurd free (Nat.not_lt_of_le full)
  | submitted target after indices worker filling running room unit lane free =>
      refine ⟨turned.phaseEq, turned.active, fun iterable => ?_⟩
      have ordered := sound.admitted.ordered
      have here := turned.cursor iterable
      have moved := cursor iterable
      show (nextWorker settings state).2 = phase + (state.nextTask + 1 - skip)
      omega
  | accepted worker task result output completions receiving within _ head outputEq =>
      cases output with
      | batch value => exact ⟨turned.phaseEq, turned.active, turned.cursor⟩
      | exhausted gone =>
          have shown := sound.conserved.head_published within head
          rw [outcome_of_output outputEq] at shown
          exact absurd rfl
            (reference_ne_exhausted answers (dealing.published_reference shown))

theorem Dealt.quiet (dealing : Dealt settings program skip phase trace state) {label : Label}
    (quiet : publishedBy event = none) (sameNext : next.nextTask = state.nextTask)
    (waiting : ∀ worker, (next.lanes worker).waiting = (state.lanes worker).waiting)
    (owned : ∀ entry ∈ next.pending, entry ∈ state.pending) :
    Dealt settings program skip phase (trace ++ [(label, event)]) next := by
  have sameLog : ∀ worker, laneLog (trace ++ [(label, event)]) worker =
      laneLog trace worker := by
    intro worker
    rw [laneLog_append, quiet]
    exact List.append_nil _
  constructor
  · intro worker
    rw [sameLog, sameNext, waiting]
    exact dealing.lanes worker
  · intro worker entry member
    rw [sameLog] at member
    exact dealing.results worker entry member
  · exact fun entry member => dealing.owners entry (owned entry member)

theorem waiting_update {worker : Nat} {lane : Lane Indices Memory Value Failure}
    {lanes : Nat → Lane Indices Memory Value Failure} (same : lane.waiting = (lanes worker).waiting)
    (other : Nat) : (Function.update lanes worker lane other).waiting = (lanes other).waiting := by
  by_cases here : other = worker
  · subst here
    rw [Function.update_self, same]
  · rw [Function.update_of_ne here]

/-- The memory a lane has before a task it runs. -/
theorem Dealt.memory (dealing : Dealt settings program skip phase trace state)
    (sound : Sound settings program skip trace state) {worker task : Nat}
    {indices : Indices} (running : (state.lanes worker).running = some (task, indices)) :
    ownerOf settings skip phase task = worker ∧
      (state.lanes worker).memory = memoryBefore settings program skip phase task := by
  have split : (laneLog trace worker).map Prod.fst ++
      task :: (state.lanes worker).ring.map Prod.fst =
      dealt settings skip phase worker state.nextTask := by
    rw [← dealing.lanes worker]
    simp [Lane.waiting, running]
  have member : task ∈ dealt settings skip phase worker state.nextTask := by
    rw [← split]
    simp
  have own := (mem_dealt.mp member).2
  obtain ⟨units, unitsEq, ranEq⟩ := sound.replayed worker
  have fetched : ((laneLog trace worker).map Prod.fst).filterMap (unitOf settings skip) =
      units := by
    have shown := congrArg (List.filterMap id) unitsEq
    simpa [List.filterMap_map, Function.comp_def] using shown
  rw [dealt_front split] at fetched
  refine ⟨own, ?_⟩
  rw [memoryBefore, own, fetched, ranEq]

theorem Dealt.flow (dealing : Dealt settings program skip phase trace state)
    (turned : Turned settings skip phase state) (inOrder : settings.inOrder = true)
    (positive : 0 < settings.workers) (sound : Sound settings program skip trace state)
    (flow : Flow settings program state event next) (label : Label) :
    Dealt settings program skip phase (trace ++ [(label, event)]) next := by
  cases flow with
  | still _ _ quiet _ _ sameNext samePending sameLanes =>
      refine dealing.quiet quiet sameNext ?_ ?_
      · exact fun worker => by rw [sameLanes]
      · rw [samePending]
        exact fun _ member => member
  | submitted indices worker _ _ chosen _ _ nextEq pendingEq lanesEq =>
      have owner : ownerOf settings skip phase state.nextTask = worker := by
        have here :=
          (turned.chosen inOrder positive sound.start sound.admitted.ordered).1
        rw [here] at chosen
        exact Option.some.inj chosen
      have sameLog : ∀ other, laneLog (trace ++ [(label, .silent)]) other =
          laneLog trace other := by
        intro other
        rw [laneLog_append]
        exact List.append_nil _
      constructor
      · intro other
        rw [sameLog, nextEq, dealt_succ sound.admitted.ordered, ← dealing.lanes other,
          lanesEq, owner]
        by_cases same : other = worker
        · subst same
          rw [Function.update_self]
          simp [Lane.waiting]
        · rw [Function.update_of_ne same]
          simp [Ne.symm same]
      · intro other entry member
        rw [sameLog] at member
        exact dealing.results other entry member
      · intro entry member
        rw [pendingEq] at member
        rcases List.mem_append.mp member with old | new
        · exact dealing.owners entry old
        · rw [List.mem_singleton.mp new]
          exact owner.symm
  | received worker task result completions _ _ quiet _ _ _ _ sameNext pendingEq lanesEq =>
      refine dealing.quiet quiet sameNext ?_ ?_
      · intro other
        rw [lanesEq]
        apply waiting_update
        rfl
      · rw [pendingEq]
        exact fun _ member => (List.mem_filter.mp member).1
  | taken worker command ring free head =>
      refine dealing.quiet rfl rfl ?_ fun _ member => member
      apply waiting_update
      simp [Lane.waiting, free, head]
  | published worker task indices running =>
      obtain ⟨own, memory⟩ := dealing.memory sound running
      have unit : unitOf settings skip task = some indices :=
        sound.admitted.units worker (task, indices) (by simp [Lane.waiting, running])
      constructor
      · intro other
        refine Eq.trans ?_ (dealing.lanes other)
        rw [laneLog_append]
        by_cases same : other = worker
        · subst same
          rw [State.setLane_self]
          simp [publishedBy, Lane.waiting, Lane.ran, running]
        · rw [State.setLane_of_ne _ _ same]
          simp [publishedBy, Ne.symm same]
      · intro other entry member
        rw [laneLog_append] at member
        rcases List.mem_append.mp member with old | new
        · exact dealing.results other entry old
        · by_cases same : worker = other
          · simp only [publishedBy, Option.toList_some, List.filterMap_cons, if_pos same,
              List.filterMap_nil, List.mem_singleton] at new
            rw [new, resultOf, unit, ← memory]
            rfl
          · simp [publishedBy, same] at new
      · exact dealing.owners

end Steps

end Hyperloader.Compat
