/-
Module: Hyperloader.Compat.LaneRuntime
Purpose: The Torch-compatible lane runtime of python/hyperloader/compat over its
  lane pool: sampler draws, lane choice, bounded dispatch rings, receipt, and
  delivery, with the consumer and every lane taking steps in any order.
Trusted boundary: none
Main exports:
  Settings, LaneProgram, State, nextWorker, machine, step_change
-/
import Mathlib.Data.Finset.Card
import Mathlib.Data.Finset.Range
import Mathlib.Data.List.Perm.Basic
import Mathlib.Data.Nat.Size
import Hyperloader.Foundations.Transition

namespace Hyperloader.Compat

open Foundations

/-- What one fetch returns in a lane. -/
inductive LaneResult (Value Failure : Type) where
  | batch (value : Value)
  | exhausted
  | raised (failure : Failure)

/-- The code one lane runs: its memory at the start and one fetch. -/
structure LaneProgram (Indices Memory Value Failure : Type) where
  start : Nat → Memory
  fetch : Memory → Indices → LaneResult Value Failure × Memory

/-- The settings of a loader and its sampler, read as the fetch unit at each
draw; `none` is `StopIteration`. -/
structure Settings (Indices : Type) where
  workers : Nat
  prefetch : Nat
  inOrder : Bool
  iterable : Bool
  sampler : Nat → Option Indices

namespace Settings

variable {Indices : Type} (settings : Settings Indices)

/-- Outstanding fetch units while iterating. -/
def limit : Nat := settings.workers * settings.prefetch

/-- Dispatch ring slots of one lane. -/
def capacity : Nat := max 2 (1 <<< (max 1 settings.prefetch).size)

end Settings

/-- A value received by the owner: a batch or the mark of an exhausted lane. -/
inductive Output (Value : Type) where
  | batch (value : Value)
  | exhausted (worker : Nat)
deriving DecidableEq

/-- One lane: accepted commands it has not taken, the one it runs, its published
completions, and its memory. -/
structure Lane (Indices Memory Value Failure : Type) where
  ring : List (Nat × Indices)
  running : Option (Nat × Indices)
  completions : List (Nat × LaneResult Value Failure)
  memory : Memory

/-- Where `_fill` returns to. -/
inductive AfterFill (Value : Type) where
  | constructed
  | decide
  | deliver (task : Nat) (output : Output Value)
deriving DecidableEq

/-- Where the consumer stands between two of its steps. -/
inductive Control (Value : Type) where
  | idle
  | filling (target : Nat) (after : AfterFill Value)
  | deciding
  | receiving
deriving DecidableEq

/-- The runtime, its pool, and the consumer's control point.  `ready` and
`pending` are dictionaries in insertion order. -/
structure State (Indices Memory Value Failure : Type) where
  drawn : Nat
  startTask : Nat
  nextTask : Nat
  nextDelivery : Nat
  phase : Nat
  activeWorkers : Finset Nat
  workerCursor : Nat
  ready : List (Nat × Output Value)
  samplerExhausted : Bool
  closed : Bool
  pending : List (Nat × Nat)
  control : Control Value
  lanes : Nat → Lane Indices Memory Value Failure

inductive Label where
  | call
  | consume
  | take (worker : Nat)
  | publish (worker : Nat)
deriving DecidableEq

/-- What a step shows: what a lane published, what `next` returned or raised,
and the exhaustion marks it passed over. -/
inductive Event (Value Failure : Type) where
  | silent
  | published (worker task : Nat) (result : LaneResult Value Failure)
  | yielded (task : Nat) (value : Value)
  | passed (task worker : Nat)
  | raised (task worker : Nat) (failure : Failure)
  | mismatched (task worker : Nat)
  | stopped

variable {Indices Memory Value Failure : Type}

section Runtime

variable (settings : Settings Indices)
  (program : LaneProgram Indices Memory Value Failure)

/-- Skipped draws stop at the sampler's end. -/
def skipped (skip : Nat) : Nat :=
  ((List.range skip).takeWhile fun draw => (settings.sampler draw).isSome).length

/-- `CompatLaneRuntime.__init__` up to its fill.  The fill target is the
prefetch factor: the local of that name replaces the argument. -/
def initial (skip phase : Nat) : State Indices Memory Value Failure where
  drawn := skipped settings skip
  startTask := skip
  nextTask := skip
  nextDelivery := skip
  phase := phase
  activeWorkers := Finset.range settings.workers
  workerCursor := phase
  ready := []
  samplerExhausted := false
  closed := false
  pending := []
  control := .filling settings.prefetch .constructed
  lanes worker := ⟨[], none, [], program.start worker⟩

/-- Incomplete commands currently owned by one lane. -/
def pendingFor (state : State Indices Memory Value Failure) (worker : Nat) : Nat :=
  (state.pending.filter fun entry => entry.2 = worker).length

def taskLimit (state : State Indices Memory Value Failure) : Nat :=
  max 1 (settings.limit / state.activeWorkers.card)

/-- An active lane may take another task. -/
def eligible (state : State Indices Memory Value Failure) (worker : Nat) : Bool :=
  decide (worker ∈ state.activeWorkers) &&
    (settings.inOrder || decide (pendingFor state worker < taskLimit settings state))

/-- The round-robin scan: the lane found, if any, and the cursor left. -/
def scanWorkers (state : State Indices Memory Value Failure) :
    Nat → Nat → Option Nat × Nat
  | 0, cursor => (none, cursor)
  | lanes + 1, cursor =>
      if eligible settings state (cursor % settings.workers) then
        (some (cursor % settings.workers), cursor + 1)
      else scanWorkers state lanes (cursor + 1)

/-- `_next_worker` -/
def nextWorker (state : State Indices Memory Value Failure) : Option Nat × Nat :=
  if settings.inOrder && !settings.iterable then
    (some ((state.phase + state.nextTask - state.startTask) % settings.workers),
      state.workerCursor)
  else scanWorkers settings state settings.workers state.workerCursor

def State.setLane (state : State Indices Memory Value Failure) (worker : Nat)
    (lane : Lane Indices Memory Value Failure) : State Indices Memory Value Failure :=
  { state with lanes := Function.update state.lanes worker lane }

@[simp] theorem State.setLane_self (state : State Indices Memory Value Failure)
    (worker : Nat) (lane : Lane Indices Memory Value Failure) :
    (state.setLane worker lane).lanes worker = lane := by
  simp [State.setLane]

theorem State.setLane_of_ne (state : State Indices Memory Value Failure) {worker other : Nat}
    (lane : Lane Indices Memory Value Failure) (different : other ≠ worker) :
    (state.setLane worker lane).lanes other = state.lanes other := by
  simp [State.setLane, different]

/-- `try_submit`: a full ring refuses the command. -/
def trySubmit (state : State Indices Memory Value Failure) (task : Nat)
    (indices : Indices) (worker : Nat) : Option (State Indices Memory Value Failure) :=
  let lane := state.lanes worker
  if lane.ring.length < settings.capacity then
    some { state.setLane worker { lane with ring := lane.ring ++ [(task, indices)] } with
      pending := state.pending ++ [(task, worker)] }
  else none

/-- The return from `_fill`. -/
def returnFill (state : State Indices Memory Value Failure) (after : AfterFill Value) :
    Event Value Failure × State Indices Memory Value Failure :=
  match after with
  | .constructed => (.silent, { state with control := .idle })
  | .decide => (.silent, { state with control := .deciding })
  | .deliver task (.batch value) => (.yielded task value, { state with control := .idle })
  | .deliver task (.exhausted worker) =>
      (.passed task worker, { state with control := .filling settings.limit .decide })

/-- One pass of the loop of `_fill`. -/
def fillStep (state : State Indices Memory Value Failure) (target : Nat)
    (after : AfterFill Value) :
    Event Value Failure × State Indices Memory Value Failure :=
  if state.samplerExhausted ∨ target ≤ state.ready.length + state.pending.length then
    returnFill settings state after
  else
    match settings.sampler state.drawn with
    | none => returnFill settings { state with samplerExhausted := true } after
    | some indices =>
        let chosen := nextWorker settings state
        -- the unit is drawn before a lane is known to take it
        let drew := { state with drawn := state.drawn + 1, workerCursor := chosen.2 }
        match chosen.1 with
        | none => returnFill settings { drew with samplerExhausted := true } after
        | some worker =>
            match trySubmit settings drew drew.nextTask indices worker with
            | none => returnFill settings drew after
            | some submitted =>
                (.silent, { submitted with nextTask := submitted.nextTask + 1 })

/-- The ready entry `__next__` would deliver now. -/
def deliverable (state : State Indices Memory Value Failure) :
    Option (Nat × Output Value) :=
  if settings.inOrder then state.ready.find? fun entry => entry.1 = state.nextDelivery
  else state.ready.head?

/-- The body of the loop of `__next__` between its fill and its receipt. -/
def decideStep (state : State Indices Memory Value Failure) :
    Event Value Failure × State Indices Memory Value Failure :=
  match deliverable settings state with
  | some (task, output) =>
      (.silent,
        { state with
          ready := state.ready.filter fun entry => entry.1 ≠ task
          nextDelivery := state.nextDelivery + 1
          control := .filling settings.limit (.deliver task output) })
  | none =>
      if state.samplerExhausted ∧ state.pending = [] ∧ state.ready = [] then
        (.stopped, { state with closed := true, control := .idle })
      else (.silent, { state with control := .receiving })

/-- `_accept` -/
def accept (state : State Indices Memory Value Failure) (task : Nat)
    (output : Output Value) : State Indices Memory Value Failure :=
  let stored := { state with ready := state.ready ++ [(task, output)] }
  match output with
  | .batch _ => stored
  | .exhausted worker =>
      let active := state.activeWorkers.erase worker
      { stored with
        activeWorkers := active
        samplerExhausted := state.samplerExhausted || decide (active = ∅) }

/-- `try_receive` and what `__next__` does with its answer: the first lane with
a completion is read, and a failed task raises here. -/
def receiveStep (state : State Indices Memory Value Failure) :
    Event Value Failure × State Indices Memory Value Failure :=
  let retry := Control.filling settings.limit AfterFill.decide
  match (List.range settings.workers).find?
      (fun worker => !(state.lanes worker).completions.isEmpty) with
  | none => (.silent, { state with control := retry })
  | some worker =>
      let lane := state.lanes worker
      match lane.completions with
      | [] => (.silent, { state with control := retry })
      | (task, result) :: completions =>
          let received :=
            { state.setLane worker { lane with completions := completions } with
              pending := state.pending.filter fun entry => entry.1 ≠ task }
          if state.pending.lookup task ≠ some worker then
            (.mismatched task worker, { received with control := .idle })
          else
            match result with
            | .raised failure =>
                (.raised task worker failure, { received with control := .idle })
            | .batch value =>
                (.silent, { accept received task (.batch value) with control := retry })
            | .exhausted =>
                (.silent,
                  { accept received task (.exhausted worker) with control := retry })

/-- One step of the consumer inside `__init__` or `__next__`. -/
def consumeStep (state : State Indices Memory Value Failure) :
    Option (Event Value Failure × State Indices Memory Value Failure) :=
  match state.control with
  | .idle => none
  | .filling target after => some (fillStep settings state target after)
  | .deciding => some (decideStep settings state)
  | .receiving => some (receiveStep settings state)

/-- The lane after it ran a command and published the result. -/
def Lane.ran (lane : Lane Indices Memory Value Failure) (task : Nat)
    (indices : Indices) : Lane Indices Memory Value Failure :=
  let fetched := program.fetch lane.memory indices
  { lane with
    running := none
    completions := lane.completions ++ [(task, fetched.1)]
    memory := fetched.2 }

/-- The consumer and the lanes, one step at a time. -/
def machine : Machine (State Indices Memory Value Failure) Label
    (Event Value Failure) where
  step state label :=
    match label with
    | .call =>
        match state.control with
        | .idle =>
            if state.closed then some (.stopped, state)
            else
              some (.silent, { state with control := .filling settings.limit .decide })
        | _ => none
    | .consume => consumeStep settings state
    | .take worker =>
        match (state.lanes worker).running, (state.lanes worker).ring with
        | none, command :: ring =>
            some (.silent,
              state.setLane worker
                { state.lanes worker with ring := ring, running := some command })
        | _, _ => none
    | .publish worker =>
        match (state.lanes worker).running with
        | none => none
        | some (task, indices) =>
            let lane := state.lanes worker
            some (.published worker task (program.fetch lane.memory indices).1,
              state.setLane worker (lane.ran program task indices))

section

variable (state : State Indices Memory Value Failure)

/-- The state after a draw: the sampler and the lane cursor have moved. -/
def State.drew (cursor : Nat) :
    State Indices Memory Value Failure :=
  { state with drawn := state.drawn + 1, workerCursor := cursor }

def State.exhaust :
    State Indices Memory Value Failure :=
  { state with samplerExhausted := true }

/-- The state after a command entered a lane's ring. -/
def State.submitted (indices : Indices) (worker : Nat) : State Indices Memory Value Failure :=
  { state.setLane worker
      { state.lanes worker with
        ring := (state.lanes worker).ring ++ [(state.nextTask, indices)] } with
    pending := state.pending ++ [(state.nextTask, worker)]
    nextTask := state.nextTask + 1 }

/-- The state after a completion left a lane and the pending table. -/
def State.received (worker task : Nat) (completions : List (Nat × LaneResult Value Failure)) :
    State Indices Memory Value Failure :=
  { state.setLane worker { state.lanes worker with completions := completions } with
    pending := state.pending.filter fun entry => entry.1 ≠ task }

end

/-- The owner's value of a result, if it has one. -/
def LaneResult.output (worker : Nat) : LaneResult Value Failure → Option (Output Value)
  | .batch value => some (.batch value)
  | .exhausted => some (.exhausted worker)
  | .raised _ => none

def LaneResult.isRaised : LaneResult Value Failure → Bool
  | .raised _ => true
  | _ => false

/-- What one step can do, with the guards under which it does it. -/
inductive Change (state : State Indices Memory Value Failure) :
    Label → Event Value Failure → State Indices Memory Value Failure → Prop where
  | called (idle : state.control = .idle) (open_ : state.closed = false) :
      Change state .call .silent
        { state with control := .filling settings.limit .decide }
  | calledClosed (idle : state.control = .idle) (spent : state.closed = true) :
      Change state .call .stopped state
  | filled (target : Nat) (after : AfterFill Value)
      (filling : state.control = .filling target after)
      (full : state.samplerExhausted = true ∨
        target ≤ state.ready.length + state.pending.length) :
      Change state .consume (returnFill settings state after).1
        (returnFill settings state after).2
  | ended (target : Nat) (after : AfterFill Value)
      (filling : state.control = .filling target after)
      (running : state.samplerExhausted = false)
      (room : state.ready.length + state.pending.length < target)
      (spent : settings.sampler state.drawn = none) :
      Change state .consume (returnFill settings state.exhaust after).1
        (returnFill settings state.exhaust after).2
  | unserved (target : Nat) (after : AfterFill Value) (indices : Indices)
      (filling : state.control = .filling target after)
      (running : state.samplerExhausted = false)
      (room : state.ready.length + state.pending.length < target)
      (unit : settings.sampler state.drawn = some indices)
      (noLane : (nextWorker settings state).1 = none) :
      Change state .consume
        (returnFill settings (state.drew (nextWorker settings state).2).exhaust after).1
        (returnFill settings
          (state.drew (nextWorker settings state).2).exhaust after).2
  | refused (target : Nat) (after : AfterFill Value) (indices : Indices) (worker : Nat)
      (filling : state.control = .filling target after)
      (running : state.samplerExhausted = false)
      (room : state.ready.length + state.pending.length < target)
      (unit : settings.sampler state.drawn = some indices)
      (lane : (nextWorker settings state).1 = some worker)
      (full : settings.capacity ≤ (state.lanes worker).ring.length) :
      Change state .consume
        (returnFill settings (state.drew (nextWorker settings state).2) after).1
        (returnFill settings
          (state.drew (nextWorker settings state).2) after).2
  | submitted (target : Nat) (after : AfterFill Value) (indices : Indices) (worker : Nat)
      (filling : state.control = .filling target after)
      (running : state.samplerExhausted = false)
      (room : state.ready.length + state.pending.length < target)
      (unit : settings.sampler state.drawn = some indices)
      (lane : (nextWorker settings state).1 = some worker)
      (free : (state.lanes worker).ring.length < settings.capacity) :
      Change state .consume .silent
        ((state.drew (nextWorker settings state).2).submitted indices worker)
  | delivered (task : Nat) (output : Output Value) (deciding : state.control = .deciding)
      (found : deliverable settings state = some (task, output)) :
      Change state .consume .silent
        { state with
          ready := state.ready.filter fun entry => entry.1 ≠ task
          nextDelivery := state.nextDelivery + 1
          control := .filling settings.limit (.deliver task output) }
  | finished (deciding : state.control = .deciding)
      (spent : state.samplerExhausted = true) (settled : state.pending = [])
      (empty : state.ready = []) :
      Change state .consume .stopped { state with closed := true, control := .idle }
  | waited (deciding : state.control = .deciding)
      (none : deliverable settings state = none)
      (more : ¬ (state.samplerExhausted = true ∧ state.pending = [] ∧ state.ready = [])) :
      Change state .consume .silent { state with control := .receiving }
  | missed (receiving : state.control = .receiving)
      (none : ∀ worker < settings.workers, (state.lanes worker).completions = []) :
      Change state .consume .silent
        { state with control := .filling settings.limit .decide }
  | mismatched (worker task : Nat) (result : LaneResult Value Failure)
      (completions : List (Nat × LaneResult Value Failure))
      (receiving : state.control = .receiving) (within : worker < settings.workers)
      (head : (state.lanes worker).completions = (task, result) :: completions)
      (stranger : state.pending.lookup task ≠ some worker) :
      Change state .consume (.mismatched task worker)
        { state.received worker task completions with control := .idle }
  | raised (worker task : Nat) (failure : Failure)
      (completions : List (Nat × LaneResult Value Failure))
      (receiving : state.control = .receiving) (within : worker < settings.workers)
      (first : ∀ other < worker, (state.lanes other).completions = [])
      (head : (state.lanes worker).completions =
        (task, .raised failure) :: completions)
      (owner : state.pending.lookup task = some worker) :
      Change state .consume (.raised task worker failure)
        { state.received worker task completions with control := .idle }
  | accepted (worker task : Nat) (result : LaneResult Value Failure)
      (output : Output Value) (completions : List (Nat × LaneResult Value Failure))
      (receiving : state.control = .receiving) (within : worker < settings.workers)
      (first : ∀ other < worker, (state.lanes other).completions = [])
      (head : (state.lanes worker).completions = (task, result) :: completions)
      (outputEq : result.output worker = some output)
      (owner : state.pending.lookup task = some worker) :
      Change state .consume .silent
        { accept (state.received worker task completions) task output with
          control := .filling settings.limit .decide }
  | taken (worker : Nat) (command : Nat × Indices) (ring : List (Nat × Indices))
      (free : (state.lanes worker).running = none)
      (head : (state.lanes worker).ring = command :: ring) :
      Change state (.take worker) .silent
        (state.setLane worker
          { state.lanes worker with ring := ring, running := some command })
  | published (worker task : Nat) (indices : Indices)
      (running : (state.lanes worker).running = some (task, indices)) :
      Change state (.publish worker)
        (.published worker task (program.fetch (state.lanes worker).memory indices).1)
        (state.setLane worker ((state.lanes worker).ran program task indices))

variable {state : State Indices Memory Value Failure}

theorem fillStep_change {target : Nat} {after : AfterFill Value}
    (filling : state.control = .filling target after) :
    Change settings program state .consume (fillStep settings state target after).1
      (fillStep settings state target after).2 := by
  unfold fillStep
  split
  · rename_i full
    exact .filled target after filling full
  · rename_i more
    simp only [not_or, Bool.not_eq_true, Nat.not_le] at more
    obtain ⟨running, room⟩ := more
    split
    · rename_i spent
      exact .ended target after filling running room spent
    · rename_i indices unit
      dsimp only
      split
      · rename_i noLane
        exact .unserved target after indices filling running room unit noLane
      · rename_i worker lane
        by_cases free : (state.lanes worker).ring.length < settings.capacity
        · simp only [trySubmit, free, if_true]
          exact .submitted target after indices worker filling running room unit lane free
        · simp only [trySubmit, free, if_false]
          exact .refused target after indices worker filling running room unit lane
            (Nat.le_of_not_lt free)

theorem decideStep_change (deciding : state.control = .deciding) :
    Change settings program state .consume
      (decideStep settings state).1
      (decideStep settings state).2 := by
  unfold decideStep
  split
  · rename_i task output found
    exact .delivered task output deciding found
  · rename_i none
    split
    · rename_i spent
      exact .finished deciding spent.1 spent.2.1 spent.2.2
    · rename_i more
      exact .waited deciding none more

theorem receiveStep_change (receiving : state.control = .receiving) :
    Change settings program state .consume (receiveStep settings state).1
      (receiveStep settings state).2 := by
  unfold receiveStep
  dsimp only
  split
  · rename_i none
    apply Change.missed receiving
    intro worker within
    simpa using List.find?_eq_none.mp none worker (List.mem_range.mpr within)
  · rename_i worker found
    have within : worker < settings.workers :=
      List.mem_range.mp (List.mem_of_find?_eq_some found)
    have first : ∀ other < worker, (state.lanes other).completions = [] := by
      intro other before
      have skipped := (List.find?_range_eq_some.mp found).2.2 other before
      simpa using skipped
    split
    · rename_i empty
      have nonempty := List.find?_some found
      simp [empty] at nonempty
    · rename_i task result completions head
      split
      · rename_i stranger
        exact .mismatched worker task result completions receiving within head stranger
      · rename_i owned
        simp only [ne_eq, not_not] at owned
        cases result with
        | raised failure =>
            exact .raised worker task failure completions receiving within first head owned
        | batch value =>
            exact .accepted worker task _ (.batch value) completions receiving within first
              head rfl owned
        | exhausted =>
            exact .accepted worker task _ (.exhausted worker) completions receiving within
              first head rfl owned

/-- Every step of the machine is one of the changes. -/
theorem step_change {state next : State Indices Memory Value Failure} {label : Label}
    {event : Event Value Failure}
    (stepEq : (machine settings program).step state label = some (event, next)) :
    Change settings program state label event next := by
  cases label with
  | call =>
      simp only [machine] at stepEq
      split at stepEq
      · rename_i idle
        split at stepEq
        · rename_i spent
          cases stepEq
          exact .calledClosed idle spent
        · rename_i open_
          cases stepEq
          exact .called idle (by simpa using open_)
      · cases stepEq
  | consume =>
      simp only [machine, consumeStep] at stepEq
      split at stepEq
      · cases stepEq
      · rename_i target after filling
        rw [Option.some.injEq] at stepEq
        have change := fillStep_change settings program filling
        rw [stepEq] at change
        exact change
      · rename_i deciding
        rw [Option.some.injEq] at stepEq
        have change := decideStep_change settings program deciding
        rw [stepEq] at change
        exact change
      · rename_i receiving
        rw [Option.some.injEq] at stepEq
        have change := receiveStep_change settings program receiving
        rw [stepEq] at change
        exact change
  | take worker =>
      simp only [machine] at stepEq
      split at stepEq
      · rename_i command ring free head
        cases stepEq
        exact .taken worker command ring free head
      · cases stepEq
  | publish worker =>
      simp only [machine] at stepEq
      split at stepEq
      · cases stepEq
      · rename_i task indices running
        cases stepEq
        exact .published worker task indices running

end Runtime

/-! ### Lane choice -/

section Choice

variable {settings : Settings Indices} {state : State Indices Memory Value Failure}

theorem scanWorkers_some {lanes cursor worker : Nat}
    (found : (scanWorkers settings state lanes cursor).1 = some worker) :
    eligible settings state worker = true ∧ ∃ at_, worker = at_ % settings.workers := by
  induction lanes generalizing cursor with
  | zero => cases found
  | succ lanes ih =>
      unfold scanWorkers at found
      split at found
      · rename_i here
        cases found
        exact ⟨here, cursor, rfl⟩
      · exact ih found

theorem nextWorker_lt (positive : 0 < settings.workers) {worker : Nat}
    (chosen : (nextWorker settings state).1 = some worker) : worker < settings.workers := by
  unfold nextWorker at chosen
  split at chosen
  · cases chosen
    exact Nat.mod_lt _ positive
  · obtain ⟨_, at_, rfl⟩ := scanWorkers_some chosen
    exact Nat.mod_lt _ positive

end Choice

end Hyperloader.Compat
