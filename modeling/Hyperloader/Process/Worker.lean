/-
Module: Hyperloader.Process.Worker
Purpose: The black-box worker of python/hyperloader/process/worker.py and its
  user collation: launch with a construction probe, and one command at a time.
Trusted boundary: the dataset, collation and array layouts are parameters
Main exports:
  Program, Command, Completion, Worker, Worker.launch, Worker.execute,
  gather, Reports
-/
import Hyperloader.Process.Rng
import Hyperloader.Process.Serialization

namespace Hyperloader.Process

/-- What `encode_exception` detaches from a raised exception. -/
structure PythonException where
  moduleName : String
  qualname : String
  text : String
  traceback : String

def runtimeError (text : String) : PythonException :=
  ⟨"builtins", "RuntimeError", text, ""⟩

def overflowError : PythonException :=
  ⟨"builtins", "OverflowError", "int too big to convert", ""⟩

def indexError : PythonException :=
  ⟨"builtins", "IndexError", "list index out of range", ""⟩

/-- The exact contiguous row eligible for in-place batching. -/
structure BatchLayout where
  dtype : String
  shape : List Nat
  rowBytes : Nat

variable (Dtype Data Object Elements : Type)

/-- The argument of a user collation: a list, or the single value of a sample
outside auto-collation. -/
inductive CollateInput where
  | values (values : List (Value Dtype Data Object))
  | single (value : Value Dtype Data Object)

/-- The code a worker runs that is not part of the repository: the dataset and
collations, which see only their arguments and the installed stream, and the
array library's view of a sample. -/
structure Program where
  libraries : Libraries Dtype Data Object Elements
  workerInit : Nat → Option PythonException
  dataset : Nat → RngStream → Except PythonException (Value Dtype Data Object)
  collateFn : Option (CollateInput Dtype Data Object → RngStream →
    Except PythonException (Value Dtype Data Object))
  defaultCollate : List (Value Dtype Data Object) →
    Except PythonException (Value Dtype Data Object)
  batchLayout : Value Dtype Data Object → Option BatchLayout
  matchesBatchLayout : Value Dtype Data Object → BatchLayout → Bool

def BLACK_BOX_STAGE : Nat := 0

def USER_COLLATE_STAGE : Nat := 1

/-- The pickled body of one user-collation command. -/
structure CollatedCommand where
  epoch : Nat
  batchOrdinal : Nat
  entries : List (Nat × Nat)
  autoCollation : Bool
deriving DecidableEq

/-- One dispatch message as the worker reads it. -/
structure Command where
  position : Nat
  epoch : Nat
  stagePlan : Nat
  index : Nat
  batchLen : Nat
  payload : Option CollatedCommand
deriving DecidableEq

/-- A published completion: status 0, 1 and 2. -/
inductive Completion where
  | ready (payload : Bytes)
  | exception (failure : PythonException)
  | batch (rows : List (Value Dtype Data Object)) (producedLength : Nat)

/-- The state one worker process keeps between commands.  `probe_values` holds
at most the one probe value. -/
structure Worker where
  startupError : Option PythonException
  encoder : ResultEncoder
  probeValues : Option (Value Dtype Data Object × Nat)
  layout : Option BatchLayout

variable {Dtype Data Object Elements}

section Evaluation

variable (program : Program Dtype Data Object Elements) (rootSeed : Nat)

/-- Run one black-box sample under its exact stream. -/
def evaluateSample (epoch position index : Nat) :
    Except PythonException (Value Dtype Data Object) :=
  match sampleRngContext rootSeed epoch position with
  | none => .error overflowError
  | some stream => program.dataset index stream

/-- The probe response of a launched worker. -/
structure ProbeResponse (Dtype Data Object : Type) where
  completion : Completion Dtype Data Object
  layout : Option BatchLayout
  costNs : Nat

/-- Start a worker process, with the construction probe `(epoch, position,
index)` when it has one.  `costNs` is the measured cost of the probe. -/
def Worker.launch (workerId : Nat) (probe : Option (Nat × Nat × Nat)) (costNs : Nat) :
    Worker Dtype Data Object × Option (ProbeResponse Dtype Data Object) :=
  let startupError := program.workerInit workerId
  let idle : Worker Dtype Data Object :=
    { startupError := startupError, encoder := .new, probeValues := none, layout := none }
  match probe with
  | none => (idle, none)
  | some (epoch, position, index) =>
      match startupError with
      | some failure => (idle, some ⟨.exception failure, none, 1⟩)
      | none =>
          match evaluateSample program rootSeed epoch position index with
          | .error failure => (idle, some ⟨.exception failure, none, max 1 costNs⟩)
          | .ok value =>
              let encoded := idle.encoder.encode program.libraries value
              ({ idle with
                  encoder := encoded.2, probeValues := some (value, max 1 costNs) },
                some ⟨.ready encoded.1, program.batchLayout value, max 1 costNs⟩)

/-- Where the sample loop of one batch command stopped: the exception it
returned with, the values it had appended, and what it left retained. -/
structure Gathered (Sample : Type) where
  failure : Option PythonException
  values : List Sample
  probeValues : Option (Sample × Nat)
  retainedCostNs : Nat

/-- The sample loop of a batch command: position 0 takes the retained value, if
there is one; every other sample is evaluated. -/
def gather {Sample : Type} (evaluate : Nat → Except PythonException Sample) :
    List Nat → List Sample → Option (Sample × Nat) → Nat → Gathered Sample
  | [], values, probeValues, cost => ⟨none, values, probeValues, cost⟩
  | position :: positions, values, probeValues, cost =>
      match (if position = 0 then probeValues else none) with
      | some (value, retainedCost) =>
          gather evaluate positions (values ++ [value]) none retainedCost
      | none =>
          match evaluate position with
          | .error failure => ⟨some failure, values, probeValues, cost⟩
          | .ok value =>
              gather evaluate positions (values ++ [value]) probeValues cost

/-- The completion of a gathered batch: raw rows when every value matches the
layout, else the default collation, encoded without the storage table. -/
def assembleBatch (layout : Option BatchLayout)
    (values : List (Value Dtype Data Object)) : Completion Dtype Data Object :=
  let collated : Completion Dtype Data Object :=
    match program.defaultCollate values with
    | .error failure => .exception failure
    | .ok batch => .ready (ResultEncoder.encodeUncached program.libraries batch)
  match layout with
  | none => collated
  | some layout =>
      if values.all (program.matchesBatchLayout · layout) then
        .batch values (values.length * layout.rowBytes)
      else collated

/-- The sample loop of `command` on a worker. -/
def Worker.gather (worker : Worker Dtype Data Object) (command : Command) :
    Gathered (Value Dtype Data Object) :=
  Process.gather
    (fun position => evaluateSample program rootSeed command.epoch position position)
    (List.range' command.index command.batchLen) [] worker.probeValues 0

/-- Evaluate one sample command or one contiguous default-collation batch. -/
def Worker.evaluateDispatch (worker : Worker Dtype Data Object) (command : Command) :
    Completion Dtype Data Object × Nat × Worker Dtype Data Object :=
  if command.batchLen = 0 then
    match evaluateSample program rootSeed command.epoch command.position
        command.index with
    | .error failure => (.exception failure, 0, worker)
    | .ok value =>
        let encoded := worker.encoder.encode program.libraries value
        (.ready encoded.1, 0, { worker with encoder := encoded.2 })
  else
    let gathered := worker.gather program rootSeed command
    let after := { worker with probeValues := gathered.probeValues }
    match gathered.failure with
    | some failure => (.exception failure, gathered.retainedCostNs, after)
    | none =>
        (assembleBatch program worker.layout gathered.values, gathered.retainedCostNs,
          after)

/-- Evaluate the samples of a user-collation command in order. -/
def gatherEntries (epoch : Nat) :
    List (Nat × Nat) → Except PythonException (List (Value Dtype Data Object))
  | [] => .ok []
  | (coordinate, index) :: entries => do
      let value ← evaluateSample program rootSeed epoch coordinate index
      let values ← gatherEntries epoch entries
      .ok (value :: values)

/-- The argument `values if auto_collation else values[0]`. -/
def collateInput (autoCollation : Bool) (values : List (Value Dtype Data Object)) :
    Except PythonException (CollateInput Dtype Data Object) :=
  if autoCollation then .ok (.values values)
  else
    match values with
    | [] => .error indexError
    | value :: _ => .ok (.single value)

/-- Evaluate one sample group and its user collation in one worker. -/
def evaluateUserCollate (payload : CollatedCommand) :
    Except PythonException (Value Dtype Data Object) :=
  match program.collateFn with
  | none => .error (runtimeError "user collation command has no callable")
  | some collate => do
      let values ← gatherEntries program rootSeed payload.epoch payload.entries
      match collateRngContext rootSeed payload.epoch payload.batchOrdinal with
      | none => .error overflowError
      | some stream => do
          let input ← collateInput payload.autoCollation values
          collate input stream

/-- One pass of the command loop. -/
def Worker.execute (worker : Worker Dtype Data Object) (command : Command) :
    Completion Dtype Data Object × Nat × Worker Dtype Data Object :=
  match worker.startupError with
  | some failure => (.exception failure, 0, worker)
  | none =>
      if command.stagePlan = USER_COLLATE_STAGE then
        match command.payload with
        | none =>
            -- a command without a payload has nothing to unpickle
            (.exception ⟨"builtins", "EOFError", "Ran out of input", ""⟩, 0, worker)
        | some payload =>
            match evaluateUserCollate program rootSeed payload with
            | .error failure => (.exception failure, 0, worker)
            | .ok value =>
                (.ready (ResultEncoder.encodeUncached program.libraries value), 0, worker)
      else if command.stagePlan ≠ BLACK_BOX_STAGE then
        (.exception (runtimeError s!"unknown stage plan {command.stagePlan}"), 0, worker)
      else worker.evaluateDispatch program rootSeed command

end Evaluation

/-! ### The sample loop -/

section Gather

variable {Sample : Type} (evaluate : Nat → Except PythonException Sample)

/-- Each value is what evaluating its position returns, in order, and a failure
is what evaluating the next position raises. -/
def Reports : List Nat → List Sample → Option PythonException → Prop
  | [], [], none => True
  | position :: positions, value :: values, failure =>
      evaluate position = .ok value ∧ Reports positions values failure
  | position :: _, [], some failure => evaluate position = .error failure
  | _, _, _ => False

/-- Without a retained value for position 0 the loop reports every sample, and
keeps what was retained. -/
theorem gather_fresh (positions : List Nat) (values : List Sample)
    (probeValues : Option (Sample × Nat)) (cost : Nat)
    (fresh : 0 ∈ positions → probeValues = none) :
    ∃ appended,
      (gather evaluate positions values probeValues cost).values =
        values ++ appended ∧
      Reports evaluate positions appended
        (gather evaluate positions values probeValues cost).failure ∧
      (gather evaluate positions values probeValues cost).probeValues =
        probeValues := by
  induction positions generalizing values with
  | nil => exact ⟨[], by simp [gather, Reports]⟩
  | cons position positions ih =>
      have unretained : (if position = 0 then probeValues else none) = none := by
        by_cases zero : position = 0
        · rw [if_pos zero]
          exact fresh (zero ▸ List.mem_cons_self)
        · rw [if_neg zero]
      cases outcome : evaluate position with
      | error failure =>
          exact ⟨[], by simp [gather, unretained, outcome, Reports]⟩
      | ok value =>
          obtain ⟨appended, valuesEq, reports, kept⟩ :=
            ih (values ++ [value])
              (fun member => fresh (List.mem_cons_of_mem _ member))
          refine ⟨value :: appended, ?_, ?_, ?_⟩
          · simp [gather, unretained, outcome, valuesEq]
          · simp only [gather, unretained, outcome]
            exact ⟨outcome, reports⟩
          · simp only [gather, unretained, outcome]
            exact kept

/-- A retained value is appended for position 0 unseen: the loop reports every
sample exactly when evaluating position 0 would return it. -/
theorem gather_retained_iff (positions : List Nat) (held : Sample × Nat) (cost : Nat)
    (fresh : 0 ∉ positions) :
    (Reports evaluate (0 :: positions)
        (gather evaluate (0 :: positions) [] (some held) cost).values
        (gather evaluate (0 :: positions) [] (some held) cost).failure ↔
      evaluate 0 = .ok held.1) ∧
    (gather evaluate (0 :: positions) [] (some held) cost).probeValues = none := by
  obtain ⟨appended, valuesEq, reports, kept⟩ :=
    gather_fresh evaluate positions [held.1] none held.2
      (fun member => absurd member fresh)
  have popped : gather evaluate (0 :: positions) [] (some held) cost =
      gather evaluate positions [held.1] none held.2 := by
    simp [gather]
  rw [popped, valuesEq]
  refine ⟨?_, kept⟩
  constructor
  · intro all
    exact all.1
  · intro here
    exact ⟨here, reports⟩

/-- The loop over a contiguous batch reports every sample exactly when the value
it takes for position 0, if it retains one, is the value of that sample. -/
theorem gather_range_iff (index batchLen : Nat) (probeValues : Option (Sample × Nat)) :
    Reports evaluate (List.range' index batchLen)
        (gather evaluate (List.range' index batchLen) [] probeValues 0).values
        (gather evaluate (List.range' index batchLen) [] probeValues 0).failure ↔
      ∀ held, probeValues = some held → index = 0 → 0 < batchLen →
        evaluate 0 = .ok held.1 := by
  have beyondZero : ∀ start length, 0 < start → 0 ∉ List.range' start length := by
    intro start length positive member
    have low := (List.mem_range'_1.mp member).1
    exact Nat.not_lt_of_le low positive
  have reportsFresh : (0 ∈ List.range' index batchLen → probeValues = none) →
      Reports evaluate (List.range' index batchLen)
        (gather evaluate (List.range' index batchLen) [] probeValues 0).values
        (gather evaluate (List.range' index batchLen) [] probeValues 0).failure := by
    intro fresh
    obtain ⟨appended, valuesEq, reports, _⟩ :=
      gather_fresh evaluate (List.range' index batchLen) [] probeValues 0 fresh
    rw [valuesEq]
    exact reports
  cases probeValues with
  | none =>
      apply iff_of_true (reportsFresh (fun _ => rfl))
      intro held impossible
      cases impossible
  | some held =>
      by_cases covers : index = 0 ∧ 0 < batchLen
      · obtain ⟨rfl, positive⟩ := covers
        obtain ⟨rest, rfl⟩ := Nat.exists_eq_succ_of_ne_zero (Nat.ne_of_gt positive)
        rw [List.range'_succ,
          (gather_retained_iff evaluate _ held 0 (beyondZero 1 rest (by decide))).1]
        constructor
        · intro here other same _ _
          cases same
          exact here
        · intro all
          exact all held rfl rfl positive
      · apply iff_of_true
        · apply reportsFresh
          intro member
          obtain ⟨low, high⟩ := List.mem_range'_1.mp member
          exact absurd ⟨Nat.le_zero.mp low, by omega⟩ covers
        · intro other _ zero positive
          exact absurd ⟨zero, positive⟩ covers

/-- The loop retains nothing it was not given. -/
theorem gather_probeValues (positions : List Nat) (values : List Sample)
    (probeValues : Option (Sample × Nat)) (cost : Nat) (held : Sample × Nat)
    (retained : (gather evaluate positions values probeValues cost).probeValues =
      some held) : probeValues = some held := by
  induction positions generalizing values probeValues cost with
  | nil => exact retained
  | cons position positions ih =>
      unfold gather at retained
      split at retained
      · have impossible := ih _ _ _ retained
        cases impossible
      · split at retained
        · exact retained
        · exact ih _ _ _ retained

end Gather

/-- A sample command leaves the probe value alone; a batch command leaves what
its loop leaves. -/
theorem Worker.evaluateDispatch_probeValues {Dtype Data Object Elements : Type}
    (program : Program Dtype Data Object Elements) (rootSeed : Nat)
    (worker : Worker Dtype Data Object) (command : Command) :
    (worker.evaluateDispatch program rootSeed command).2.2.probeValues =
      if command.batchLen = 0 then worker.probeValues
      else (worker.gather program rootSeed command).probeValues := by
  unfold Worker.evaluateDispatch
  split
  · split <;> rfl
  · dsimp only
    split <;> rfl

/-- A worker retains no probe value after a command that it did not retain
before. -/
theorem Worker.execute_probeValues {Dtype Data Object Elements : Type}
    (program : Program Dtype Data Object Elements) (rootSeed : Nat)
    (worker : Worker Dtype Data Object) (command : Command) (held : Value Dtype Data Object × Nat)
    (retained : (worker.execute program rootSeed command).2.2.probeValues = some held) :
    worker.probeValues = some held := by
  unfold Worker.execute at retained
  split at retained
  · exact retained
  · split at retained
    · split at retained
      · exact retained
      · split at retained <;> exact retained
    · split at retained
      · exact retained
      · rw [Worker.evaluateDispatch_probeValues] at retained
        split at retained
        · exact retained
        · exact gather_probeValues _ _ _ _ _ held retained

end Hyperloader.Process
