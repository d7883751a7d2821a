/-
Module: Hyperloader.Compat.InOrder
Purpose: With `in_order`, what the calls of `next` return and raise is the
  sequence of the tasks' own outcomes while every failure is received in its
  task's turn and no failing task has a value behind it.
Trusted boundary: none
Main exports: OwnTurn, FailuresLast, Orderly, observations_in_order
-/
import Mathlib.Data.Nat.ModEq
import Hyperloader.Compat.Deal

namespace Hyperloader.Compat

open Foundations

variable {Indices Memory Value Failure : Type}

/-- The first task that has not surfaced, in a run that surfaces them in order. -/
def turnOf (skip : Nat) (trace : Trace Value Failure) : Nat :=
  skip + (surfaced trace).length

/-- A failure this step receives is received after every earlier task. -/
def OwnTurn (settings : Settings Indices)
    (state : State Indices Memory Value Failure) (label : Label) : Prop :=
  label = .consume → state.control = .receiving → ∀ worker < settings.workers,
    (∀ other < worker, (state.lanes other).completions = []) →
    ∀ report ∈ (state.lanes worker).completions.head?, report.2.isRaised = true →
      (∀ entry ∈ state.ready, report.1 ≤ entry.1) ∧
        ∀ entry ∈ state.pending, report.1 ≤ entry.1

instance [DecidableEq Value] [DecidableEq Failure] (settings : Settings Indices)
    (state : State Indices Memory Value Failure) (label : Label) :
    Decidable (OwnTurn settings state label) :=
  inferInstanceAs (Decidable (label = .consume → state.control = .receiving →
    ∀ worker < settings.workers,
      (∀ other < worker, (state.lanes other).completions = []) →
      ∀ report ∈ (state.lanes worker).completions.head?, report.2.isRaised = true →
        (∀ entry ∈ state.ready, report.1 ≤ entry.1) ∧
          ∀ entry ∈ state.pending, report.1 ≤ entry.1))

/-- No task behind a failing one returns a value. -/
def FailuresLast (settings : Settings Indices)
    (program : LaneProgram Indices Memory Value Failure) (skip phase : Nat) : Prop :=
  ∀ task failure later value,
    resultOf settings program skip phase task = some (.raised failure) → task ≤ later →
    resultOf settings program skip phase later ≠ some (.batch value)

/-- Where the delivery cursor stands. -/
inductive Position (settings : Settings Indices)
    (program : LaneProgram Indices Memory Value Failure) (skip phase : Nat)
    (trace : Trace Value Failure) (state : State Indices Memory Value Failure) : Prop where
  | waiting (free : ∀ target task output,
      state.control ≠ .filling target (.deliver task output))
      (here : state.nextDelivery = turnOf skip trace)
  | delivering (target : Nat) (output : Output Value)
      (holds : state.control = .filling target (.deliver (turnOf skip trace) output))
      (beyond : state.nextDelivery = turnOf skip trace + 1)
  | failed (task : Nat) (failure : Failure) (past : task < turnOf skip trace)
      (result : resultOf settings program skip phase task = some (.raised failure))
      (empty : inHand state = [])

/-- The tasks surfaced so far are the first ones, and the consumer waits only for
a task that is on its way. -/
structure Paced (settings : Settings Indices)
    (program : LaneProgram Indices Memory Value Failure) (skip phase : Nat)
    (trace : Trace Value Failure) (state : State Indices Memory Value Failure) : Prop where
  sequence : (surfaced trace).map Prod.fst = List.range' skip (surfaced trace).length
  position : Position settings program skip phase trace state
  target : ∀ target after, state.control = .filling target after →
    target = settings.limit ∨ after = .constructed ∧ target = settings.prefetch
  filled : state.control = .deciding ∨ state.control = .receiving →
    state.samplerExhausted = true ∨ settings.limit ≤ state.ready.length + state.pending.length
  missing : state.control = .receiving →
    ∀ entry ∈ state.ready, entry.1 ≠ state.nextDelivery
  owed : state.control = .receiving → state.pending ≠ []

/-- Everything an orderly run keeps. -/
structure Orderly (settings : Settings Indices)
    (program : LaneProgram Indices Memory Value Failure) (skip phase : Nat)
    (trace : Trace Value Failure) (state : State Indices Memory Value Failure) : Prop where
  sound : Sound settings program skip trace state
  turned : Turned settings skip phase state
  dealing : Dealt settings program skip phase trace state
  paced : Paced settings program skip phase trace state

section Window

variable {settings : Settings Indices}
  {program : LaneProgram Indices Memory Value Failure} {skip phase : Nat}
  {trace : Trace Value Failure} {state next : State Indices Memory Value Failure}

/-- A consumer between two calls is paced where its position is. -/
theorem Paced.idle (idle : state.control = .idle)
    (sequence : (surfaced trace).map Prod.fst = List.range' skip (surfaced trace).length)
    (position : Position settings program skip phase trace state) :
    Paced settings program skip phase trace state := by
  refine ⟨sequence, position, ?_, ?_, ?_, ?_⟩ <;> simp [idle]

variable {after : AfterFill Value}

variable {target : Nat}

theorem Paced.filling (filling : state.control = .filling target after)
    (sequence : (surfaced trace).map Prod.fst = List.range' skip (surfaced trace).length)
    (position : Position settings program skip phase trace state)
    (limit : target = settings.limit ∨ after = .constructed ∧ target = settings.prefetch) :
    Paced settings program skip phase trace state := by
  refine ⟨sequence, position, fun other next holds => ?_, ?_, ?_, ?_⟩
  · rw [filling] at holds
    cases holds
    exact limit
  all_goals simp [filling]

theorem Paced.deciding (deciding : state.control = .deciding)
    (sequence : (surfaced trace).map Prod.fst = List.range' skip (surfaced trace).length)
    (position : Position settings program skip phase trace state)
    (filled : state.samplerExhausted = true ∨
      settings.limit ≤ state.ready.length + state.pending.length) :
    Paced settings program skip phase trace state := by
  refine ⟨sequence, position, ?_, fun _ => filled, ?_, ?_⟩ <;> simp [deciding]

section

variable (orderly : Orderly settings program skip phase trace state)

include orderly

/-- What has not surfaced is the window between the turn and the next task. -/
theorem Orderly.window :
    turnOf skip trace ≤ state.nextTask ∧
      ((inHand state).map Prod.fst ++ state.pending.map Prod.fst).Perm
        (List.range' (turnOf skip trace) (state.nextTask - turnOf skip trace)) := by
  have tasks := orderly.sound.conserved.tasks
  have ordered := orderly.sound.admitted.ordered
  rw [orderly.sound.start, List.map_append, orderly.paced.sequence, List.append_assoc] at tasks
  have lengths := tasks.length_eq
  simp only [List.length_append, List.length_range'] at lengths
  have reached : turnOf skip trace ≤ state.nextTask := by
    simp only [turnOf]
    omega
  refine ⟨reached, ?_⟩
  have parts : state.nextTask - skip =
      (surfaced trace).length + (state.nextTask - turnOf skip trace) := by
    simp only [turnOf] at reached ⊢
    omega
  rw [parts, ← List.range'_append_1] at tasks
  exact (List.perm_append_left_iff _).mp tasks

theorem Orderly.mem_window (task : Nat) :
    task ∈ (inHand state).map Prod.fst ++ state.pending.map Prod.fst ↔
      turnOf skip trace ≤ task ∧ task < state.nextTask := by
  obtain ⟨reached, window⟩ := orderly.window
  rw [window.mem_iff, List.mem_range'_1]
  omega

theorem Orderly.pending_mem {entry : Nat × Nat} (member : entry ∈ state.pending) :
    turnOf skip trace ≤ entry.1 ∧ entry.1 < state.nextTask :=
  (orderly.mem_window entry.1).mp
    (List.mem_append_right _ (List.mem_map_of_mem member))

end

/-- A window of `W * P` tasks holds at most `P` of one lane. -/
theorem share_le {tasks : List Nat} {first count worker : Nat} (distinct : tasks.Nodup)
    (low : skip ≤ first)
    (inside : ∀ task ∈ tasks, first ≤ task ∧ task < first + settings.workers * count)
    (mine : ∀ task ∈ tasks, ownerOf settings skip phase task = worker) : tasks.length ≤ count := by
  have places : ((tasks.map fun task => (task - first) / settings.workers)).Nodup := by
    apply List.Nodup.map_on _ distinct
    intro one oneMember two twoMember same
    have oneLow := (inside one oneMember).1
    have twoLow := (inside two twoMember).1
    have owners : (phase + (one - skip)) % settings.workers =
        (phase + (two - skip)) % settings.workers :=
      (mine one oneMember).trans (mine two twoMember).symm
    have oneSplit : phase + (one - skip) = phase + (first - skip) + (one - first) := by omega
    have twoSplit : phase + (two - skip) = phase + (first - skip) + (two - first) := by omega
    rw [oneSplit, twoSplit] at owners
    have rests : (one - first) % settings.workers = (two - first) % settings.workers :=
      Nat.ModEq.add_left_cancel' _ owners
    have equal : one - first = two - first := by
      rw [← Nat.div_add_mod (one - first) settings.workers,
        ← Nat.div_add_mod (two - first) settings.workers, rests, same]
    omega
  have bounded : (tasks.map fun task => (task - first) / settings.workers) ⊆
      List.range count := by
    intro place member
    obtain ⟨task, taskMember, rfl⟩ := List.mem_map.mp member
    obtain ⟨above, high⟩ := inside task taskMember
    rw [List.mem_range]
    apply Nat.div_lt_of_lt_mul
    omega
  have short := (List.subperm_of_subset places bounded).length_le
  simpa using short

theorem prefetch_lt_capacity (positive : 0 < settings.prefetch) :
    settings.prefetch < settings.capacity := by
  have most : max 1 settings.prefetch = settings.prefetch := Nat.max_eq_right positive
  rw [Settings.capacity, most, Nat.one_shiftLeft]
  exact Nat.lt_of_lt_of_le (Nat.lt_size_self _) (Nat.le_max_right _ _)

theorem held_length (control : Control Value) :
    (held control : List (Nat × Outcome Value Failure)).length ≤ 1 := by
  unfold held
  split <;> simp

/-- While `_fill` has room, the window fits the lanes' shares. -/
theorem Orderly.window_short (orderly : Orderly settings program skip phase trace state)
    (workers : 0 < settings.workers) (filling : state.control = .filling target after)
    (room : state.ready.length + state.pending.length < target) :
    state.nextTask ≤ turnOf skip trace + settings.workers * settings.prefetch := by
  obtain ⟨reached, window⟩ := orderly.window
  have most : target ≤ settings.workers * settings.prefetch := by
    rcases orderly.paced.target target after filling with whole | ⟨_, first⟩
    · exact Nat.le_of_eq whole
    · rw [first]
      exact Nat.le_mul_of_pos_left _ workers
  have lengths := window.length_eq
  have holds : (held state.control : List (Nat × Outcome Value Failure)).length ≤ 1 :=
    held_length state.control
  simp only [inHand, List.length_append, List.length_map, List.length_range'] at lengths
  omega

/-- In order, every drawn unit finds room in its lane. -/
theorem Orderly.served (orderly : Orderly settings program skip phase trace state)
    (inOrder : settings.inOrder = true) (workers : 0 < settings.workers)
    (prefetch : 0 < settings.prefetch) (label : Label) : Served settings state label := by
  intro _ target after indices filling _ room _
  refine ⟨_, (orderly.turned.chosen inOrder workers orderly.sound.start
    orderly.sound.admitted.ordered).1, ?_⟩
  generalize ownerOf settings skip phase state.nextTask = worker
  have short := orderly.window_short workers filling room
  have pendingTask : ∀ task ∈ (state.lanes worker).tasks, (task, worker) ∈ state.pending :=
    fun task => (orderly.sound.conserved.mem_tasks worker task).mp
  have distinct : (state.lanes worker).tasks.Nodup := by
    rw [orderly.sound.conserved.lanes worker]
    exact List.Nodup.sublist (List.filter_sublist.map Prod.fst)
      orderly.sound.conserved.pending_distinct
  have share : (state.lanes worker).tasks.length ≤ settings.prefetch := by
    apply share_le distinct (Nat.le_add_right skip (surfaced trace).length)
    · intro task member
      obtain ⟨low, high⟩ := orderly.pending_mem (pendingTask task member)
      exact ⟨low, Nat.lt_of_lt_of_le high short⟩
    · intro task member
      exact (orderly.dealing.owners _ (pendingTask task member)).symm
  have ring : (state.lanes worker).ring.length ≤ (state.lanes worker).tasks.length := by
    simp only [Lane.tasks, Lane.waiting, List.length_append, List.length_map]
    omega
  exact Nat.lt_of_le_of_lt (Nat.le_trans ring share) (prefetch_lt_capacity prefetch)

/-! ### The outcomes of the window -/

variable {output : Output Value}

variable {task : Nat}

theorem result_of_output (answers : Answers program)
    (found : reference settings program skip phase task = some (task, .output output)) :
    ∃ value, output = .batch value ∧
      resultOf settings program skip phase task = some (.batch value) := by
  cases output with
  | exhausted worker => exact absurd rfl (reference_ne_exhausted answers found)
  | batch value =>
      obtain ⟨result, resultEq, shown⟩ := Option.map_eq_some_iff.mp found
      cases result with
      | batch other =>
          simp only [LaneResult.outcome, Prod.mk.injEq, Outcome.output.injEq,
            Output.batch.injEq, true_and] at shown
          exact ⟨value, rfl, shown ▸ resultEq⟩
      | exhausted | raised failure => simp [LaneResult.outcome] at shown

theorem result_of_failure {task worker : Nat} {failure : Failure}
    (found : reference settings program skip phase task =
      some (task, .failure worker failure)) :
    resultOf settings program skip phase task = some (.raised failure) := by
  obtain ⟨result, resultEq, shown⟩ := Option.map_eq_some_iff.mp found
  cases result with
  | batch value | exhausted => simp [LaneResult.outcome] at shown
  | raised other =>
      simp only [LaneResult.outcome, Prod.mk.injEq, Outcome.failure.injEq, true_and] at shown
      exact shown.2 ▸ resultEq

variable {entry : Nat × Outcome Value Failure}

/-- What is in hand carries its task's outcome. -/
theorem Orderly.hand_reference (orderly : Orderly settings program skip phase trace state)
    (member : entry ∈ inHand state) :
    reference settings program skip phase entry.1 = some entry := by
  apply orderly.dealing.published_reference
  rw [orderly.sound.conserved.reports.mem_iff]
  exact List.mem_append_left _ (List.mem_append_right _ member)

theorem Orderly.ready_reference (orderly : Orderly settings program skip phase trace state)
    (member : (task, output) ∈ state.ready) :
    reference settings program skip phase task = some (task, .output output) := by
  have inside : (task, Outcome.output output) ∈ inHand state :=
    List.mem_append_right _ (List.mem_map_of_mem member)
  exact orderly.hand_reference inside

variable {worker task : Nat} {result : LaneResult Value Failure}
  {completions : List (Nat × LaneResult Value Failure)}

theorem Orderly.head_reference (orderly : Orderly settings program skip phase trace state)
    (within : worker < settings.workers)
    (head : (state.lanes worker).completions = (task, result) :: completions) :
    reference settings program skip phase task = some (task, result.outcome worker) :=
  orderly.dealing.published_reference (orderly.sound.conserved.head_published within head)

/-! ### One step -/

variable {event : Event Value Failure}

theorem turnOf_quiet (quiet : surfacedBy event = none) (label : Label) :
    turnOf skip (trace ++ [(label, event)]) = turnOf skip trace := by
  rw [turnOf, surfaced_append, quiet]
  simp [turnOf]

theorem turnOf_surfaced (shows : surfacedBy event = some entry) (label : Label) :
    turnOf skip (trace ++ [(label, event)]) = turnOf skip trace + 1 := by
  rw [turnOf, surfaced_append, shows]
  simp only [turnOf, Option.toList_some, List.length_append, List.length_singleton]
  omega

/-- A step that surfaces nothing keeps the sequence. -/
theorem Paced.sequence_quiet (paced : Paced settings program skip phase trace state)
    (quiet : surfacedBy event = none) (label : Label) :
    (surfaced (trace ++ [(label, event)])).map Prod.fst =
      List.range' skip (surfaced (trace ++ [(label, event)])).length := by
  rw [surfaced_append, quiet]
  simpa using paced.sequence

/-- A step that surfaces the task whose turn it is extends the sequence. -/
theorem Paced.sequence_surfaced (paced : Paced settings program skip phase trace state)
    {outcome : Outcome Value Failure} (shows : surfacedBy event = some (turnOf skip trace, outcome))
    (label : Label) :
    (surfaced (trace ++ [(label, event)])).map Prod.fst =
      List.range' skip (surfaced (trace ++ [(label, event)])).length := by
  rw [surfaced_append, shows, Option.toList_some, List.map_append, paced.sequence,
    List.length_append, List.length_singleton, List.range'_concat, Nat.one_mul]
  rfl

/-- The cursor after a step that neither surfaces nor delivers. -/
theorem Position.quiet (position : Position settings program skip phase trace state)
    (quiet : surfacedBy event = none) (label : Label)
    (before : ∀ target task output, state.control ≠ .filling target (.deliver task output))
    (after : ∀ target task output, next.control ≠ .filling target (.deliver task output))
    (sameDelivery : next.nextDelivery = state.nextDelivery)
    (hand : inHand state = [] → inHand next = []) :
    Position settings program skip phase (trace ++ [(label, event)]) next := by
  have sameTurn : turnOf skip (trace ++ [(label, event)]) = turnOf skip trace :=
    turnOf_quiet quiet label
  cases position with
  | waiting free here =>
      exact .waiting after (by rw [sameDelivery, here, sameTurn])
  | delivering target output holds => exact absurd holds (before _ _ _)
  | failed task failure past result empty =>
      exact .failed task failure (by rw [sameTurn]; exact past) result (hand empty)

theorem range'_prefix (first : Nat) {less more : Nat} (le : less ≤ more) :
    List.range' first less <+: List.range' first more := by
  have parts : more = less + (more - less) := (Nat.add_sub_cancel' le).symm
  rw [parts, ← List.range'_append_1]
  exact List.prefix_append _ _

/-- `_fill` returns at the cursor it was called at. -/
theorem Orderly.paced_returned (orderly : Orderly settings program skip phase trace state)
    (answers : Answers program) (origin : State Indices Memory Value Failure)
    (filling : state.control = .filling target after) (sameReady : origin.ready = state.ready)
    (samePending : origin.pending = state.pending)
    (sameDelivery : origin.nextDelivery = state.nextDelivery)
    (full : origin.samplerExhausted = true ∨
      target ≤ state.ready.length + state.pending.length) (label : Label) :
    Paced settings program skip phase
      (trace ++ [(label, (returnFill settings origin after).1)])
      (returnFill settings origin after).2 := by
  have paced := orderly.paced
  have cursor : ∀ {event : Event Value Failure} (_ : surfacedBy event = none)
      (control : Control Value), (∀ task output, after ≠ .deliver task output) →
      (∀ target task output, control ≠ .filling target (.deliver task output)) →
      (held control : List (Nat × Outcome Value Failure)) = [] →
      Position settings program skip phase (trace ++ [(label, event)])
        { origin with control := control } := by
    intro event quiet control other free empty
    apply paced.position.quiet quiet label
    · intro _ task output holds
      rw [filling] at holds
      cases holds
      exact other _ _ rfl
    · exact free
    · exact sameDelivery
    · intro none
      have noReady : state.ready = [] := by
        simpa using (List.append_eq_nil_iff.mp none).2
      simp [inHand, empty, sameReady, noReady]
  cases after with
  | constructed =>
      exact .idle rfl (paced.sequence_quiet rfl label)
        (cursor rfl .idle (by simp) (by simp) rfl)
  | decide =>
      refine .deciding rfl (paced.sequence_quiet rfl label)
        (cursor rfl .deciding (by simp) (by simp) rfl) ?_
      simp only [returnFill, sameReady, samePending]
      rcases paced.target target _ filling with whole | ⟨first, _⟩
      · exact whole ▸ full
      · cases first
  | deliver task output =>
      have inside : (task, Outcome.output output) ∈ inHand state := by
        simp [inHand, held, filling]
      obtain ⟨value, rfl, _⟩ := result_of_output answers (orderly.hand_reference inside)
      cases paced.position with
      | waiting free => exact absurd filling (free _ _ _)
      | failed _ _ _ _ empty =>
          rw [empty] at inside
          cases inside
      | delivering other output holds beyond =>
          rw [filling] at holds
          cases holds
          refine .idle rfl (paced.sequence_surfaced rfl label) ?_
          apply Position.waiting
          · simp [returnFill]
          · rw [turnOf_surfaced rfl]
            exact sameDelivery.trans beyond

/-- The entry delivered in order is the one at the cursor. -/
theorem deliverable_inOrder (inOrder : settings.inOrder = true)
    (found : deliverable settings state = some (task, output)) : task = state.nextDelivery := by
  rw [deliverable, if_pos inOrder] at found
  simpa using List.find?_some found

/-- Delivery takes the task whose turn it is. -/
theorem Orderly.paced_delivered (orderly : Orderly settings program skip phase trace state)
    (inOrder : settings.inOrder = true) (deciding : state.control = .deciding)
    (found : deliverable settings state = some (task, output)) (label : Label) :
    Paced settings program skip phase (trace ++ [(label, .silent)])
      { state with
        ready := state.ready.filter fun entry => entry.1 ≠ task
        nextDelivery := state.nextDelivery + 1
        control := .filling settings.limit (.deliver task output) } := by
  have paced := orderly.paced
  refine .filling rfl (paced.sequence_quiet rfl label) ?_ (Or.inl rfl)
  cases paced.position with
  | waiting free here =>
      have turn : task = turnOf skip trace := (deliverable_inOrder inOrder found).trans here
      refine .delivering settings.limit output ?_ ?_ <;>
        rw [turnOf_quiet rfl]
      · rw [turn]
      · exact congrArg (· + 1) here
  | delivering target other holds =>
      rw [deciding] at holds
      cases holds
  | failed _ _ _ _ empty =>
      have inside : (task, Outcome.output output) ∈ inHand state :=
        List.mem_append_right _ (List.mem_map_of_mem (deliverable_mem found))
      rw [empty] at inside
      cases inside

/-- Waiting starts with a task on its way. -/
theorem Orderly.paced_waited (orderly : Orderly settings program skip phase trace state)
    (inOrder : settings.inOrder = true) (positive : 0 < settings.limit)
    (deciding : state.control = .deciding) (none : deliverable settings state = none)
    (more : ¬ (state.samplerExhausted = true ∧ state.pending = [] ∧ state.ready = []))
    (label : Label) :
    Paced settings program skip phase (trace ++ [(label, .silent)])
      { state with control := .receiving } := by
  have paced := orderly.paced
  have missing : ∀ entry ∈ state.ready, entry.1 ≠ state.nextDelivery := by
    rw [deliverable, if_pos inOrder] at none
    simpa using none
  refine ⟨paced.sequence_quiet rfl label, ?_, by simp, ?_, fun _ => missing, ?_⟩
  · apply paced.position.quiet rfl label
    · simp [deciding]
    · simp
    · rfl
    · simp [inHand, held, deciding]
  · exact fun _ => paced.filled (Or.inl deciding)
  · intro _ noPending
    have settled : state.pending = [] := noPending
    have empty : state.ready = [] := by
      cases paced.position with
      | waiting free here =>
          apply List.eq_nil_iff_forall_not_mem.mpr
          intro entry member
          have inWindow := orderly.mem_window
          simp only [inHand, held, deciding, settled, List.nil_append, List.map_map,
            List.map_nil, List.append_nil] at inWindow
          have low := (inWindow entry.1).mp (List.mem_map_of_mem member)
          obtain ⟨turn, turnMember, turnEq⟩ := List.mem_map.mp
            ((inWindow (turnOf skip trace)).mpr ⟨Nat.le_refl _, by omega⟩)
          exact missing turn turnMember (turnEq.trans here.symm)
      | delivering target other holds =>
          rw [deciding] at holds
          cases holds
      | failed _ _ _ _ empty =>
          simpa [inHand, held, deciding] using empty
    rcases paced.filled (Or.inl deciding) with spent | short
    · exact more ⟨spent, settled, empty⟩
    · simp only [settled, empty, List.length_nil] at short
      omega

theorem inHand_receiving (receiving : state.control = .receiving) :
    inHand state = state.ready.map fun entry => (entry.1, .output entry.2) := by
  simp [inHand, held, receiving]

/-- A failure received in its turn surfaces in its place, with nothing in hand. -/
theorem Orderly.paced_raised (orderly : Orderly settings program skip phase trace state)
    (answers : Answers program) (last : FailuresLast settings program skip phase)
    {failure : Failure} (receiving : state.control = .receiving)
    (within : worker < settings.workers)
    (head : (state.lanes worker).completions = (task, .raised failure) :: completions)
    (turn : (∀ entry ∈ state.ready, task ≤ entry.1) ∧
      ∀ entry ∈ state.pending, task ≤ entry.1) (label : Label) :
    Paced settings program skip phase
      (trace ++ [(label, .raised task worker failure)])
      { state.received worker task completions with control := .idle } := by
  have paced := orderly.paced
  have pending := orderly.sound.conserved.head_pending head
  have result : resultOf settings program skip phase task = some (.raised failure) :=
    result_of_failure (orderly.head_reference within head)
  have low := orderly.pending_mem pending
  have here : task = turnOf skip trace := by
    apply Nat.le_antisymm _ low.1
    have member := (orderly.mem_window (turnOf skip trace)).mpr
      ⟨Nat.le_refl _, Nat.lt_of_le_of_lt low.1 low.2⟩
    rw [inHand_receiving receiving] at member
    rcases List.mem_append.mp member with ready | waiting
    · obtain ⟨shown, shownMember, shownEq⟩ := List.mem_map.mp ready
      obtain ⟨entry, entryMember, rfl⟩ := List.mem_map.mp shownMember
      exact shownEq ▸ turn.1 entry entryMember
    · obtain ⟨entry, entryMember, entryEq⟩ := List.mem_map.mp waiting
      exact entryEq ▸ turn.2 entry entryMember
  have empty : state.ready = [] := by
    apply List.eq_nil_iff_forall_not_mem.mpr
    rintro ⟨later, output⟩ member
    obtain ⟨value, _, laterResult⟩ :=
      result_of_output answers (orderly.ready_reference member)
    exact last task failure later value result (turn.1 _ member) laterResult
  refine .idle rfl ?_ ?_
  · apply paced.sequence_surfaced
    rw [surfacedBy, here]
  · apply Position.failed task failure _ result
    · simp [inHand, held, State.received, State.setLane, empty]
    · rw [turnOf_surfaced rfl, here]
      exact Nat.lt_succ_self _

/-- A value received waits for its turn. -/
theorem Orderly.paced_accepted (orderly : Orderly settings program skip phase trace state)
    (answers : Answers program) (last : FailuresLast settings program skip phase)
    (receiving : state.control = .receiving) (within : worker < settings.workers)
    (head : (state.lanes worker).completions = (task, result) :: completions)
    (outputEq : result.output worker = some output) (label : Label) :
    Paced settings program skip phase (trace ++ [(label, .silent)])
      { accept (state.received worker task completions) task output with
        control := .filling settings.limit .decide } := by
  have paced := orderly.paced
  have low := orderly.pending_mem (orderly.sound.conserved.head_pending head)
  have found := orderly.head_reference within head
  rw [outcome_of_output outputEq] at found
  obtain ⟨value, rfl, resultEq⟩ := result_of_output answers found
  refine .filling rfl (paced.sequence_quiet rfl label) ?_ (Or.inl rfl)
  cases paced.position with
  | waiting free here =>
      apply Position.waiting
      · simp
      · rw [turnOf_quiet rfl]
        exact here
  | delivering target other holds =>
      rw [receiving] at holds
      cases holds
  | failed earlier failure past earlierResult empty =>
      have before : earlier ≤ task := Nat.le_of_lt (Nat.lt_of_lt_of_le past low.1)
      exact absurd resultEq (last earlier failure task value earlierResult before)

/-- A step outside delivery and `_fill`'s return keeps the pace. -/
theorem Paced.quiet (paced : Paced settings program skip phase trace state)
    (quiet : surfacedBy event = none) (label : Label) (sameControl : next.control = state.control)
    (sameReady : next.ready = state.ready) (sameDelivery : next.nextDelivery = state.nextDelivery)
    (sameExhausted : next.samplerExhausted = state.samplerExhausted)
    (samePending : next.pending = state.pending ∨
      ∃ target after, state.control = .filling target after) :
    Paced settings program skip phase (trace ++ [(label, event)]) next := by
  have sameTurn : turnOf skip (trace ++ [(label, event)]) = turnOf skip trace :=
    turnOf_quiet quiet label
  have sameHand : inHand next = inHand state := by
    rw [inHand, inHand, sameControl, sameReady]
  have busy : state.control = .deciding ∨ state.control = .receiving →
      next.pending = state.pending := by
    intro waits
    rcases samePending with same | ⟨target, after, filling⟩
    · exact same
    · rw [filling] at waits
      rcases waits with deciding | receiving
      · cases deciding
      · cases receiving
  constructor
  · exact paced.sequence_quiet quiet label
  · cases paced.position with
    | waiting free here =>
        exact .waiting (by rw [sameControl]; exact free) (by rw [sameDelivery, sameTurn, here])
    | delivering target output holds beyond =>
        refine .delivering target output ?_ ?_ <;> rw [sameTurn]
        · rw [sameControl, holds]
        · rw [sameDelivery, beyond]
    | failed task failure past result empty =>
        exact .failed task failure (by rw [sameTurn]; exact past) result
          (by rw [sameHand]; exact empty)
  · rw [sameControl]
    exact paced.target
  · rw [sameControl, sameExhausted, sameReady]
    intro waits
    rw [busy waits]
    exact paced.filled waits
  · rw [sameControl, sameReady, sameDelivery]
    exact paced.missing
  · rw [sameControl]
    intro receiving
    rw [busy (Or.inr receiving)]
    exact paced.owed receiving

/-- Every orderly change keeps the pace. -/
theorem Orderly.paced_change (orderly : Orderly settings program skip phase trace state)
    (inOrder : settings.inOrder = true) (workers : 0 < settings.workers)
    (prefetch : 0 < settings.prefetch) (answers : Answers program)
    (last : FailuresLast settings program skip phase) {label : Label}
    (ownTurn : OwnTurn settings state label)
    (change : Change settings program state label event next) :
    Paced settings program skip phase (trace ++ [(label, event)]) next := by
  have paced := orderly.paced
  have served := orderly.served inOrder workers prefetch label
  cases change with
  | called idle =>
      refine .filling rfl (paced.sequence_quiet rfl _) ?_ (Or.inl rfl)
      apply paced.position.quiet rfl
      · simp [idle]
      · simp
      · rfl
      · simp [inHand, held, idle]
  | calledClosed => exact paced.quiet rfl _ rfl rfl rfl rfl (Or.inl rfl)
  | filled target after filling full =>
      exact orderly.paced_returned answers state filling rfl rfl rfl full _
  | ended target after filling =>
      exact orderly.paced_returned answers state.exhaust filling rfl rfl rfl (Or.inl rfl) _
  | unserved target after indices filling running room unit noLane =>
      obtain ⟨worker, lane, _⟩ := served rfl target after indices filling running room unit
      rw [noLane] at lane
      cases lane
  | refused target after indices worker filling running room unit lane full =>
      obtain ⟨other, otherLane, free⟩ :=
        served rfl target after indices filling running room unit
      rw [lane] at otherLane
      cases otherLane
      exact absurd free (Nat.not_lt_of_le full)
  | submitted target after indices worker filling =>
      exact paced.quiet rfl _ rfl rfl rfl rfl (Or.inr ⟨target, after, filling⟩)
  | delivered task output deciding found => exact orderly.paced_delivered inOrder deciding found _
  | finished deciding =>
      refine .idle rfl (paced.sequence_quiet rfl _) ?_
      apply paced.position.quiet rfl
      · simp [deciding]
      · simp
      · rfl
      · simp [inHand, held, deciding]
  | waited deciding none more =>
      exact orderly.paced_waited inOrder (Nat.mul_pos workers prefetch) deciding none more _
  | missed receiving =>
      refine .filling rfl (paced.sequence_quiet rfl _) ?_ (Or.inl rfl)
      apply paced.position.quiet rfl
      · simp [receiving]
      · simp
      · rfl
      · simp [inHand, held, receiving]
  | mismatched worker task result completions receiving within head stranger =>
      exact absurd (orderly.sound.conserved.lookup_head head) stranger
  | raised worker task failure completions receiving within first head =>
      exact orderly.paced_raised answers last receiving within head
        (ownTurn rfl receiving worker within first (task, .raised failure)
          (by rw [head]; rfl) rfl) _
  | accepted worker task result output completions receiving within first head outputEq =>
      exact orderly.paced_accepted answers last receiving within head outputEq _
  | taken | published => exact paced.quiet rfl _ rfl rfl rfl rfl (Or.inl rfl)

theorem Orderly.step (orderly : Orderly settings program skip phase trace state)
    (inOrder : settings.inOrder = true) (workers : 0 < settings.workers)
    (prefetch : 0 < settings.prefetch) (answers : Answers program)
    (last : FailuresLast settings program skip phase) {label : Label}
    {event : Event Value Failure} (ownTurn : OwnTurn settings state label)
    (stepEq : (machine settings program).step state label = some (event, next)) :
    Orderly settings program skip phase (trace ++ [(label, event)]) next := by
  have served := orderly.served inOrder workers prefetch label
  have change := step_change settings program stepEq
  have flow := change_flow workers orderly.sound.conserved change
  exact
    { sound := orderly.sound.step workers served stepEq
      turned := orderly.turned.change inOrder workers answers orderly.dealing orderly.sound
        served change
      dealing := orderly.dealing.flow orderly.turned inOrder workers orderly.sound flow label
      paced := orderly.paced_change inOrder workers prefetch answers last ownTurn change }

theorem orderly_initial (settings : Settings Indices)
    (program : LaneProgram Indices Memory Value Failure) (skip phase : Nat) :
    Orderly settings program skip phase [] (initial settings program skip phase) where
  sound := sound_initial settings program skip phase
  turned := ⟨rfl, rfl, fun _ => by simp [initial]⟩
  dealing :=
    { lanes := fun worker => by simp [laneLog, publishedLog, initial, Lane.waiting, dealt]
      results := nofun
      owners := nofun }
  paced :=
    { sequence := rfl
      position := .waiting (by simp [initial]) rfl
      target := fun target after filling => by
        cases filling
        exact Or.inr ⟨rfl, rfl⟩
      filled := by simp [initial]
      missing := nofun
      owed := nofun }

theorem run_orderly (inOrder : settings.inOrder = true) (workers : 0 < settings.workers)
    (prefetch : 0 < settings.prefetch) (answers : Answers program)
    (last : FailuresLast settings program skip phase) {labels : List Label}
    {final : State Indices Memory Value Failure}
    (ownTurn : (machine settings program).Along (OwnTurn settings)
      (initial settings program skip phase) labels)
    (reached : (machine settings program).run (initial settings program skip phase)
      labels = some (trace, final)) : Orderly settings program skip phase trace final :=
  (machine settings program).run_induction
    (fun _ _ _ _ _ orderly ownTurn stepEq =>
      orderly.step inOrder workers prefetch answers last ownTurn stepEq)
    [] (orderly_initial settings program skip phase) ownTurn reached

/-! ### The next outcome comes -/

/-- Every failure waiting unread is that of `turn`. -/
def InTurn (settings : Settings Indices) (turn : Nat)
    (state : State Indices Memory Value Failure) : Prop :=
  ∀ worker < settings.workers, ∀ task failure,
    (task, .raised failure) ∈ (state.lanes worker).completions → task = turn

def rank : Control Value → Nat
  | .filling _ .constructed => 6
  | .idle => 5
  | .filling _ .decide => 4
  | .deciding => 3
  | .receiving => 2
  | .filling _ (.deliver _ _) => 1

/-- How far a lane is from publishing a task. -/
def stage (lane : Lane Indices Memory Value Failure) (task : Nat) : Nat :=
  if task ∈ lane.waiting.map Prod.fst then if lane.running.isSome then 1 else 2 else 0

/-- What is left to do before `turn` surfaces: submissions weigh twice a receipt. -/
def effort (settings : Settings Indices) (skip phase turn : Nat)
    (state : State Indices Memory Value Failure) : Nat :=
  10 * (2 * (turn + settings.workers * settings.prefetch + 1 - state.nextTask) +
      state.pending.length) +
    stage (state.lanes (ownerOf settings skip phase turn)) turn + rank state.control

theorem stage_le (lane : Lane Indices Memory Value Failure) (task : Nat) : stage lane task ≤ 2 := by
  unfold stage
  split
  · split <;> decide
  · decide

variable {indices : Indices}

section

variable (orderly : Orderly settings program skip phase trace state)

include orderly

/-- While a unit is there for the turn's task, the runtime is not at its end. -/
theorem Orderly.not_over (workers : 0 < settings.workers)
    (unit : unitOf settings skip (turnOf skip trace) = some indices)
    (spent : state.samplerExhausted = true) : turnOf skip trace < state.nextTask := by
  obtain ⟨reached, _⟩ := orderly.window
  apply Nat.lt_of_le_of_ne reached
  intro same
  rw [same, orderly.sound.admitted.unit_next] at unit
  rcases orderly.sound.admitted.exhausted spent with ended | none
  · rw [ended] at unit
    cases unit
  · rw [orderly.turned.active, Finset.range_eq_empty_iff] at none
    omega

/-- While the consumer waits, the turn's task is pending with its owner. -/
theorem Orderly.turn_pending (receiving : state.control = .receiving) :
    (turnOf skip trace, ownerOf settings skip phase (turnOf skip trace)) ∈
      state.pending := by
  obtain ⟨entry, rest, pendingEq⟩ :=
    List.exists_cons_of_ne_nil (orderly.paced.owed receiving)
  have inside := orderly.pending_mem (show entry ∈ state.pending by rw [pendingEq]; simp)
  have member := (orderly.mem_window (turnOf skip trace)).mpr
    ⟨Nat.le_refl _, Nat.lt_of_le_of_lt inside.1 inside.2⟩
  have absent : turnOf skip trace ∉ (inHand state).map Prod.fst := by
    rw [inHand_receiving receiving, List.map_map]
    intro ready
    obtain ⟨shown, shownMember, shownEq⟩ := List.mem_map.mp ready
    cases orderly.paced.position with
    | waiting free here =>
        exact orderly.paced.missing receiving shown shownMember (shownEq.trans here.symm)
    | delivering target output holds =>
        rw [receiving] at holds
        cases holds
    | failed _ _ _ _ empty =>
        rw [inHand_receiving receiving, List.map_eq_nil_iff] at empty
        rw [empty] at shownMember
        cases shownMember
  obtain ⟨⟨task, worker⟩, pendingMember, rfl⟩ :=
    List.mem_map.mp ((List.mem_append.mp member).resolve_left absent)
  rw [← orderly.dealing.owners _ pendingMember]
  exact pendingMember

/-- If the turn's task has not been published, its lane runs it or takes it next. -/
theorem Orderly.turn_first {worker : Nat}
    (waits : turnOf skip trace ∈ (state.lanes worker).waiting.map Prod.fst) :
    ∃ indices rest, (state.lanes worker).waiting = (turnOf skip trace, indices) :: rest := by
  obtain ⟨⟨task, indices⟩, member, taskEq⟩ := List.mem_map.mp waits
  obtain ⟨front, rest, split⟩ := List.append_of_mem member
  have lanes := orderly.dealing.lanes worker
  rw [split, List.map_append, ← List.append_assoc, List.map_cons] at lanes
  have front_eq := dealt_front lanes
  cases front with
  | nil =>
      cases taskEq
      exact ⟨indices, rest, split⟩
  | cons first others =>
      have early : first.1 < task := by
        have inFront : first.1 ∈ dealt settings skip phase worker task := by
          rw [← front_eq]
          simp
        exact (mem_dealt.mp inFront).1.2
      have pending : (first.1, worker) ∈ state.pending := by
        rw [← orderly.sound.conserved.mem_tasks, Lane.tasks, split]
        simp
      have late := (orderly.pending_mem pending).1
      simp only at taskEq late
      omega

end

/-- A step towards surfacing `turn`. -/
structure Advances (settings : Settings Indices) (skip phase turn : Nat)
    (trace : Trace Value Failure) (state : State Indices Memory Value Failure)
    (label : Label) (event : Event Value Failure)
    (next : State Indices Memory Value Failure) : Prop where
  ownTurn : OwnTurn settings state label
  inTurn : InTurn settings turn next
  nearer : turnOf skip (trace ++ [(label, event)]) = turn + 1 ∨
    turnOf skip (trace ++ [(label, event)]) = turn ∧
      effort settings skip phase turn next < effort settings skip phase turn state

theorem InTurn.of_subset {turn : Nat} (inTurn : InTurn settings turn state)
    (subset : ∀ worker, ∀ entry ∈ (next.lanes worker).completions,
      entry ∈ (state.lanes worker).completions) : InTurn settings turn next :=
  fun worker within task failure member =>
    inTurn worker within task failure (subset worker _ member)

/-- A failure in its turn is received in its turn. -/
theorem Orderly.ownTurn (orderly : Orderly settings program skip phase trace state)
    (inTurn : InTurn settings (turnOf skip trace) state) (label : Label) :
    OwnTurn settings state label := by
  rintro _ receiving worker within _ ⟨task, result⟩ head raises
  obtain ⟨failure, rfl⟩ : ∃ failure, result = .raised failure := by
    cases result with
    | raised failure => exact ⟨failure, rfl⟩
    | batch value | exhausted => cases raises
  have here : task = turnOf skip trace :=
    inTurn worker within task failure (List.mem_of_head? head)
  subst here
  constructor
  · intro entry member
    have inside : entry.1 ∈ (inHand state).map Prod.fst := by
      rw [inHand_receiving receiving, List.map_map]
      exact List.mem_map_of_mem member
    exact ((orderly.mem_window entry.1).mp (List.mem_append_left _ inside)).1
  · exact fun entry member => (orderly.pending_mem member).1

theorem completions_received
    (head : (state.lanes worker).completions = (task, result) :: completions) (other : Nat)
    (entry : Nat × LaneResult Value Failure)
    (member : entry ∈ ((state.received worker task completions).lanes other).completions) :
    entry ∈ (state.lanes other).completions := by
  by_cases same : other = worker
  · subst same
    simp only [State.received, State.setLane_self] at member
    rw [head]
    exact List.mem_cons_of_mem _ member
  · simp only [State.received] at member
    rw [State.setLane_of_ne _ _ same] at member
    exact member

/-- Receiving takes one task out of the pending table. -/
theorem Conserved.pending_remove (conserved : Conserved settings trace state)
    {task worker : Nat} (member : (task, worker) ∈ state.pending) :
    state.pending.length =
      (state.pending.filter fun entry => entry.1 ≠ task).length + 1 :=
  (entries_perm_remove conserved.pending_distinct member).length_eq

/-- Returning from `_fill` advances. -/
theorem Orderly.advance_returnFill (orderly : Orderly settings program skip phase trace state)
    (inTurn : InTurn settings (turnOf skip trace) state)
    (origin : State Indices Memory Value Failure) (filling : state.control = .filling target after)
    (sameNext : origin.nextTask = state.nextTask) (samePending : origin.pending = state.pending)
    (sameLanes : origin.lanes = state.lanes) (label : Label) :
    Advances settings skip phase (turnOf skip trace) trace state label
      (returnFill settings origin after).1
      (returnFill settings origin after).2 := by
  obtain ⟨event, control, returned⟩ := returnFill_eq settings origin after
  refine ⟨orderly.ownTurn inTurn label, ?_, ?_⟩
  · apply inTurn.of_subset
    rw [returned]
    simp [sameLanes]
  · cases after with
    | constructed | decide =>
        right
        refine ⟨turnOf_quiet rfl label, ?_⟩
        simp [effort, returnFill, sameNext, samePending, sameLanes, filling, rank]
    | deliver task output =>
        left
        cases output <;> exact turnOf_surfaced rfl label

/-- Every step of the consumer that finds something to do advances. -/
theorem Orderly.advance_consume (orderly : Orderly settings program skip phase trace state)
    (inOrder : settings.inOrder = true) (workers : 0 < settings.workers)
    (prefetch : 0 < settings.prefetch) (inTurn : InTurn settings (turnOf skip trace) state)
    (unit : unitOf settings skip (turnOf skip trace) = some indices)
    (supplied : state.control = .receiving →
      ∃ worker < settings.workers, (state.lanes worker).completions ≠ [])
    (change : Change settings program state .consume event next) :
    Advances settings skip phase (turnOf skip trace) trace state .consume event next := by
  have served := orderly.served inOrder workers prefetch .consume
  have own := orderly.ownTurn inTurn .consume
  cases change with
  | filled target after filling =>
      exact orderly.advance_returnFill inTurn state filling rfl rfl rfl _
  | ended target after filling =>
      exact orderly.advance_returnFill inTurn state.exhaust filling rfl rfl rfl _
  | unserved target after units filling running room unit noLane =>
      obtain ⟨worker, lane, _⟩ := served rfl target after units filling running room unit
      rw [noLane] at lane
      cases lane
  | refused target after units worker filling running room unit lane full =>
      obtain ⟨other, otherLane, free⟩ :=
        served rfl target after units filling running room unit
      rw [lane] at otherLane
      cases otherLane
      exact absurd free (Nat.not_lt_of_le full)
  | submitted target after units worker filling running room unit lane free =>
      refine ⟨own, ?_, Or.inr ⟨turnOf_quiet rfl _, ?_⟩⟩
      · apply inTurn.of_subset
        intro other entry member
        by_cases same : other = worker
        · subst same
          simpa [State.submitted, State.drew] using member
        · simpa [State.submitted, State.drew, State.setLane, same] using member
      · have short := orderly.window_short workers filling room
        have after := stage_le (((state.drew (nextWorker settings state).2).submitted units
          worker).lanes (ownerOf settings skip phase (turnOf skip trace))) (turnOf skip trace)
        have pending : ((state.drew (nextWorker settings state).2).submitted units
          worker).pending.length = state.pending.length + 1 := by
          simp [State.submitted, State.drew]
        have nextEq : ((state.drew (nextWorker settings state).2).submitted units
          worker).nextTask = state.nextTask + 1 := rfl
        have control : ((state.drew (nextWorker settings state).2).submitted units
          worker).control = state.control := rfl
        simp only [effort, pending, nextEq, control]
        omega
  | delivered task output deciding found =>
      refine ⟨own, inTurn.of_subset fun _ _ member => member, Or.inr ⟨turnOf_quiet rfl _, ?_⟩⟩
      simp [effort, rank, deciding]
  | finished deciding spent settled empty =>
      have more := orderly.not_over workers unit spent
      have member := (orderly.mem_window (turnOf skip trace)).mpr ⟨Nat.le_refl _, more⟩
      simp [inHand, held, deciding, settled, empty] at member
  | waited deciding none more =>
      refine ⟨own, inTurn.of_subset fun _ _ member => member, Or.inr ⟨turnOf_quiet rfl _, ?_⟩⟩
      simp [effort, rank, deciding]
  | missed receiving none =>
      obtain ⟨worker, within, some⟩ := supplied receiving
      exact absurd (none worker within) some
  | mismatched worker task result completions receiving within head stranger =>
      exact absurd (orderly.sound.conserved.lookup_head head) stranger
  | raised worker task failure completions receiving within first head =>
      refine ⟨own, ?_, Or.inl (turnOf_surfaced rfl _)⟩
      exact inTurn.of_subset (completions_received head)
  | accepted worker task result output completions receiving within first head outputEq =>
      obtain ⟨_, nextEq, _, pendingEq, lanesEq⟩ :=
        accept_fields (state.received worker task completions) task output
      refine ⟨own, ?_, Or.inr ⟨turnOf_quiet rfl _, ?_⟩⟩
      · apply inTurn.of_subset
        intro other entry member
        rw [show _ = _ from lanesEq] at member
        exact completions_received head other entry member
      · have fewer := orderly.sound.conserved.pending_remove
          (orderly.sound.conserved.head_pending head)
        have after := stage_le ((accept (state.received worker task completions) task
          output).lanes (ownerOf settings skip phase (turnOf skip trace)))
          (turnOf skip trace)
        have sameNext : (accept (state.received worker task completions) task
          output).nextTask = state.nextTask := nextEq
        have pending : (accept (state.received worker task completions) task
          output).pending = state.pending.filter fun entry => entry.1 ≠ task := pendingEq
        simp only [effort, rank, receiving, sameNext, pending]
        omega

variable {lane : Lane Indices Memory Value Failure}

theorem effort_setLane {turn : Nat} (lower : stage lane turn <
      stage (state.lanes (ownerOf settings skip phase turn)) turn) :
    effort settings skip phase turn
        (state.setLane (ownerOf settings skip phase turn) lane) <
      effort settings skip phase turn state := by
  have same : ∀ other : Lane Indices Memory Value Failure,
      (state.setLane (ownerOf settings skip phase turn) other).nextTask = state.nextTask ∧
        (state.setLane (ownerOf settings skip phase turn) other).pending = state.pending ∧
        (state.setLane (ownerOf settings skip phase turn) other).control = state.control :=
    fun _ => ⟨rfl, rfl, rfl⟩
  obtain ⟨nextEq, pendingEq, controlEq⟩ := same lane
  rw [effort, effort, State.setLane_self, nextEq, pendingEq, controlEq]
  omega

theorem InTurn.setLane {turn worker : Nat} (inTurn : InTurn settings turn state)
    (mine : ∀ task failure, (task, .raised failure) ∈ lane.completions →
      (task, .raised failure) ∈ (state.lanes worker).completions ∨ task = turn) :
    InTurn settings turn (state.setLane worker lane) := by
  intro other within task failure member
  by_cases same : other = worker
  · subst same
    rw [State.setLane_self] at member
    rcases mine task failure member with old | new
    · exact inTurn other within task failure old
    · exact new
  · rw [State.setLane_of_ne _ _ same] at member
    exact inTurn other within task failure member

section

variable (orderly : Orderly settings program skip phase trace state)

include orderly

/-- The lane of the turn's task takes it or publishes it. -/
theorem Orderly.advance_lane (inTurn : InTurn settings (turnOf skip trace) state)
    (waits : turnOf skip trace ∈ (state.lanes
      (ownerOf settings skip phase (turnOf skip trace))).waiting.map Prod.fst) :
    ∃ label event next,
      (machine settings program).step state label = some (event, next) ∧
        Advances settings skip phase (turnOf skip trace) trace state label event next := by
  obtain ⟨indices, rest, waiting⟩ := orderly.turn_first waits
  have own := orderly.ownTurn inTurn
  have quiet : ∀ label, turnOf skip (trace ++ [(label, (.silent : Event Value Failure))]) =
      turnOf skip trace := fun label => turnOf_quiet rfl label
  have distinct : ((state.lanes (ownerOf settings skip phase (turnOf skip trace))).waiting.map
      Prod.fst).Nodup := by
    have whole : (state.lanes (ownerOf settings skip phase
        (turnOf skip trace))).tasks.Nodup := by
      rw [orderly.sound.conserved.lanes]
      exact List.Nodup.sublist (List.filter_sublist.map Prod.fst)
        orderly.sound.conserved.pending_distinct
    exact (List.nodup_append.mp whole).2.1
  have publishedQuiet : ∀ label worker task result, turnOf skip
      (trace ++ [(label, (.published worker task result : Event Value Failure))]) =
        turnOf skip trace := fun label _ _ _ => turnOf_quiet rfl label
  generalize turnOf skip trace = turn at *
  cases running : (state.lanes (ownerOf settings skip phase turn)).running with
  | none =>
      have ring : (state.lanes (ownerOf settings skip phase turn)).ring =
          (turn, indices) :: rest := by
        simpa [Lane.waiting, running] using waiting
      refine ⟨.take (ownerOf settings skip phase turn), _, _, by
        simp only [machine, running, ring]; rfl, own _, ?_, Or.inr ⟨quiet _, ?_⟩⟩
      · exact inTurn.setLane fun _ _ member => Or.inl member
      · apply effort_setLane
        have before : stage (state.lanes (ownerOf settings skip phase turn)) turn = 2 := by
          rw [stage, if_pos waits, if_neg (by simp [running])]
        rw [before]
        unfold stage
        split <;> simp
  | some command =>
      have split : (state.lanes (ownerOf settings skip phase turn)).waiting =
          command :: (state.lanes (ownerOf settings skip phase turn)).ring := by
        simp [Lane.waiting, running]
      rw [split] at waiting
      obtain ⟨rfl, _⟩ := List.cons.inj waiting
      refine ⟨.publish (ownerOf settings skip phase turn), _, _, by
        simp only [machine, running]; rfl, own _, ?_, Or.inr ⟨publishedQuiet _ _ _ _, ?_⟩⟩
      · apply inTurn.setLane
        intro task failure member
        rcases List.mem_append.mp member with old | new
        · exact Or.inl old
        · right
          have same := List.mem_singleton.mp new
          exact congrArg Prod.fst same
      · apply effort_setLane
        have before : stage (state.lanes (ownerOf settings skip phase turn)) turn = 1 := by
          rw [stage, if_pos waits, if_pos (by simp [running])]
        have gone : turn ∉
            (state.lanes (ownerOf settings skip phase turn)).ring.map Prod.fst := by
          rw [split] at distinct
          exact (List.nodup_cons.mp distinct).1
        rw [before, stage, if_neg]
        · exact Nat.one_pos
        · simpa [Lane.waiting, Lane.ran] using gone

/-- While a unit is there for the turn's task, some step advances. -/
theorem Orderly.exists_advance (inOrder : settings.inOrder = true) (workers : 0 < settings.workers)
    (prefetch : 0 < settings.prefetch) (inTurn : InTurn settings (turnOf skip trace) state)
    (unit : unitOf settings skip (turnOf skip trace) = some indices) :
    ∃ label event next,
      (machine settings program).step state label = some (event, next) ∧
        Advances settings skip phase (turnOf skip trace) trace state label event next := by
  have consumer : ∀ event next, consumeStep settings state = some (event, next) →
      (state.control = .receiving →
        ∃ worker < settings.workers, (state.lanes worker).completions ≠ []) →
      ∃ label event next,
        (machine settings program).step state label = some (event, next) ∧
          Advances settings skip phase (turnOf skip trace) trace state label event next := by
    intro event next stepEq supplied
    have machineEq : (machine settings program).step state .consume = some (event, next) :=
      stepEq
    exact ⟨.consume, event, next, machineEq, orderly.advance_consume inOrder workers prefetch
      inTurn unit supplied (step_change settings program machineEq)⟩
  cases controlEq : state.control with
  | idle =>
      have isOpen : state.closed = false := by
        cases closed : state.closed with
        | false => rfl
        | true =>
            obtain ⟨_, ready, pending, spent⟩ := orderly.sound.emptied closed
            have more := orderly.not_over workers unit spent
            have member := (orderly.mem_window (turnOf skip trace)).mpr ⟨Nat.le_refl _, more⟩
            simp [inHand, held, controlEq, pending, ready] at member
      refine ⟨.call, .silent, { state with control := .filling settings.limit .decide }, ?_,
        orderly.ownTurn inTurn _, inTurn.of_subset fun _ _ member => member,
        Or.inr ⟨turnOf_quiet rfl _, ?_⟩⟩
      · simp [machine, controlEq, isOpen]
      · simp [effort, rank, controlEq]
  | filling target after | deciding =>
      exact consumer _ _ (by simp only [consumeStep, controlEq]; rfl)
        (by simp [controlEq])
  | receiving =>
      have pending := orderly.turn_pending controlEq
      have mine := (orderly.sound.conserved.mem_tasks _ _).mpr pending
      rcases List.mem_append.mp mine with ran | waits
      · refine consumer _ _ (by simp only [consumeStep, controlEq]; rfl) fun _ =>
          ⟨_, orderly.sound.conserved.within _ pending, ?_⟩
        intro empty
        rw [empty] at ran
        cases ran
      · exact orderly.advance_lane inTurn waits

/-- The turn's task surfaces in some continuation, and leaves no failure unread. -/
theorem Orderly.exists_surfaced (inOrder : settings.inOrder = true) (workers : 0 < settings.workers)
    (prefetch : 0 < settings.prefetch) (answers : Answers program)
    (last : FailuresLast settings program skip phase)
    (inTurn : InTurn settings (turnOf skip trace) state)
    (unit : unitOf settings skip (turnOf skip trace) = some indices) :
    ∃ labels rest later, (machine settings program).Along (OwnTurn settings) state labels ∧
      (machine settings program).run state labels = some (rest, later) ∧
      Orderly settings program skip phase (trace ++ rest) later ∧
      turnOf skip (trace ++ rest) = turnOf skip trace + 1 ∧
      InTurn settings (turnOf skip trace + 1) later := by
  have progress : ∀ now current,
      (Orderly settings program skip phase now current ∧
        InTurn settings (turnOf skip trace) current ∧
        (turnOf skip now = turnOf skip trace ∨
          turnOf skip now = turnOf skip trace + 1)) →
      ¬ turnOf skip now = turnOf skip trace + 1 →
      ∃ label event next, OwnTurn settings current label ∧
        (machine settings program).step current label = some (event, next) ∧
        (Orderly settings program skip phase (now ++ [(label, event)]) next ∧
          InTurn settings (turnOf skip trace) next ∧
          (turnOf skip (now ++ [(label, event)]) = turnOf skip trace ∨
            turnOf skip (now ++ [(label, event)]) = turnOf skip trace + 1)) ∧
        (turnOf skip (now ++ [(label, event)]) = turnOf skip trace + 1 ∨
          effort settings skip phase (turnOf skip trace) next <
            effort settings skip phase (turnOf skip trace) current) := by
    rintro now current ⟨here, nowInTurn, near⟩ more
    have same := near.resolve_right more
    rw [← same] at nowInTurn unit ⊢
    obtain ⟨label, event, next, stepEq, advances⟩ :=
      here.exists_advance inOrder workers prefetch nowInTurn unit
    refine ⟨label, event, next, advances.ownTurn, stepEq, ⟨here.step inOrder workers prefetch
      answers last advances.ownTurn stepEq, advances.inTurn, ?_⟩, ?_⟩
    · exact advances.nearer.symm.imp_left And.left
    · exact advances.nearer.imp_right And.right
  obtain ⟨labels, rest, later, along, runEq, ⟨laterOrderly, laterInTurn, _⟩, surfacedOne⟩ :=
    (machine settings program).exists_run_of_progress _
      (fun now _ => turnOf skip now = turnOf skip trace + 1)
      (effort settings skip phase (turnOf skip trace)) progress trace state
      ⟨orderly, inTurn, Or.inl rfl⟩
  refine ⟨labels, rest, later, along, runEq, laterOrderly, surfacedOne, ?_⟩
  intro worker within task failure member
  have low : turnOf skip (trace ++ rest) ≤ task := by
    have mine : task ∈ (later.lanes worker).tasks :=
      List.mem_append_left _ (List.mem_map_of_mem member)
    exact (laterOrderly.pending_mem
      ((laterOrderly.sound.conserved.mem_tasks worker task).mp mine)).1
  have here := laterInTurn worker within task failure member
  omega

/-- What surfaced is the sequence of the tasks' own outcomes. -/
theorem Orderly.sequence :
    (surfaced trace).map some =
      (List.range' skip (surfaced trace).length).map
        (reference settings program skip phase) := by
  rw [← orderly.paced.sequence, List.map_map]
  apply List.map_congr_left
  intro entry member
  symm
  apply orderly.dealing.published_reference
  rw [orderly.sound.conserved.reports.mem_iff]
  exact List.mem_append_left _ (List.mem_append_left _ member)

end

/-- Two initial parts of one sequence: the shorter starts the longer. -/
theorem prefix_of_sequence {one two : List (Nat × Outcome Value Failure)}
    {sequence : Nat → Option (Nat × Outcome Value Failure)} {first : Nat}
    (oneEq : one.map some = (List.range' first one.length).map sequence)
    (twoEq : two.map some = (List.range' first two.length).map sequence)
    (less : one.length ≤ two.length) : one <+: two := by
  rw [← List.prefix_map_iff_of_injective (Option.some_injective _), oneEq, twoEq]
  have start := range'_prefix first less
  exact start.map sequence

/-- With `in_order`, every run that receives failures in their turn surfaces the
tasks' own outcomes in order.  Two such runs therefore agree as far as both go,
and while no failure is unread out of turn the next outcome comes. -/
theorem observations_in_order (inOrder : settings.inOrder = true)
    (workers : 0 < settings.workers) (prefetch : 0 < settings.prefetch)
    (answers : Answers program) (last : FailuresLast settings program skip phase)
    {labels : List Label} {final : State Indices Memory Value Failure}
    (ownTurn : (machine settings program).Along (OwnTurn settings)
      (initial settings program skip phase) labels)
    (reached : (machine settings program).run (initial settings program skip phase)
      labels = some (trace, final)) :
    (surfaced trace).map some =
        (List.range' skip (surfaced trace).length).map
          (reference settings program skip phase) ∧
      (∀ otherLabels otherTrace otherFinal,
        (machine settings program).Along (OwnTurn settings)
          (initial settings program skip phase) otherLabels →
        (machine settings program).run (initial settings program skip phase)
          otherLabels = some (otherTrace, otherFinal) →
        surfaced trace <+: surfaced otherTrace ∨ surfaced otherTrace <+: surfaced trace) ∧
      ∀ indices, unitOf settings skip (turnOf skip trace) = some indices →
        InTurn settings (turnOf skip trace) final →
        ∃ more rest later entry,
          (machine settings program).Along (OwnTurn settings) final more ∧
          (machine settings program).run final more = some (rest, later) ∧
          surfaced (trace ++ rest) = surfaced trace ++ [entry] ∧
          reference settings program skip phase (turnOf skip trace) = some entry ∧
          InTurn settings (turnOf skip trace + 1) later := by
  have orderly := run_orderly inOrder workers prefetch answers last ownTurn reached
  refine ⟨orderly.sequence, ?_, ?_⟩
  · intro otherLabels otherTrace otherFinal otherTurn otherReached
    have other := run_orderly inOrder workers prefetch answers last otherTurn otherReached
    rcases Nat.le_total (surfaced trace).length (surfaced otherTrace).length with less | less
    · exact Or.inl (prefix_of_sequence orderly.sequence other.sequence less)
    · exact Or.inr (prefix_of_sequence other.sequence orderly.sequence less)
  · intro indices unit inTurn
    obtain ⟨more, rest, later, along, runEq, laterOrderly, oneMore, laterInTurn⟩ :=
      orderly.exists_surfaced inOrder workers prefetch answers last inTurn unit
    have whole : surfaced (trace ++ rest) = surfaced trace ++ surfaced rest :=
      List.filterMap_append
    have count : (surfaced rest).length = 1 := by
      simp only [turnOf, whole, List.length_append] at oneMore
      omega
    obtain ⟨entry, single⟩ := List.length_eq_one_iff.mp count
    refine ⟨more, rest, later, entry, along, runEq, by rw [whole, single], ?_, laterInTurn⟩
    have sequence := laterOrderly.sequence
    rw [whole, single, List.length_append, List.length_singleton, List.range'_concat,
      List.map_append, List.map_append, Nat.one_mul] at sequence
    have tails := List.append_inj_right' sequence rfl
    simpa [turnOf] using tails.symm

end Window

/-! ### Two lanes, the second task failing -/

def twoLanes : Settings Nat where
  workers := 2
  prefetch := 1
  inOrder := true
  iterable := false
  sampler draw := if draw < 2 then some draw else none

/-- Task 0 returns 5, task 1 raises. -/
def secondFails : LaneProgram Nat Unit Nat Unit where
  start _ := ()
  fetch _ task := (if task = 0 then .batch 5 else .raised (), ())

def bothSubmitted : List Label := [.consume, .consume, .call, .consume, .consume, .consume]

/-- Lane 0 completes first. -/
def firstLaneFirst : List Label :=
  bothSubmitted ++ [.take 0, .publish 0, .consume, .consume, .consume, .consume, .call,
    .consume, .consume, .take 1, .publish 1, .consume]

/-- Lane 1 completes first. -/
def secondLaneFirst : List Label :=
  bothSubmitted ++ [.take 1, .publish 1, .consume, .call, .consume, .consume, .take 0,
    .publish 0, .consume, .consume, .consume, .consume]

/-- The failure of task 1 surfaces before the value of task 0 when its lane
completes first. -/
theorem failure_overtakes_value :
    ∃ trace final otherTrace otherFinal,
      (machine twoLanes secondFails).run (initial twoLanes secondFails 0 0)
        firstLaneFirst = some (trace, final) ∧
      (machine twoLanes secondFails).run (initial twoLanes secondFails 0 0)
        secondLaneFirst = some (otherTrace, otherFinal) ∧
      surfaced trace = [(0, .output (.batch 5)), (1, .failure 1 ())] ∧
      surfaced otherTrace = [(1, .failure 1 ()), (0, .output (.batch 5))] :=
  ⟨_, _, _, _, rfl, rfl, rfl, rfl⟩

/-- The failing task comes last, and is received in its turn. -/
theorem observations_in_order_example :
    ∃ trace final,
      (machine twoLanes secondFails).run (initial twoLanes secondFails 0 0)
        firstLaneFirst = some (trace, final) ∧
      (surfaced trace).map some =
        (List.range' 0 (surfaced trace).length).map
          (reference twoLanes secondFails 0 0) := by
  have last : FailuresLast twoLanes secondFails 0 0 := by
    intro task failure later value fails after
    cases later with
    | zero =>
        cases Nat.le_zero.mp after
        cases fails
    | succ later =>
        intro returns
        obtain ⟨indices, unit, batch⟩ := Option.map_eq_some_iff.mp returns
        cases later with
        | zero =>
            cases unit
            cases batch
        | succ later => cases unit
  have ownTurn : (machine twoLanes secondFails).Along (OwnTurn twoLanes)
      (initial twoLanes secondFails 0 0) firstLaneFirst := by decide
  have answers : Answers secondFails := by
    intro memory task
    simp only [secondFails]
    split <;> simp
  exact ⟨_, _, rfl,
    (observations_in_order rfl (by decide) (by decide) answers last ownTurn rfl).1⟩

end Hyperloader.Compat
