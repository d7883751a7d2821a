/-
Module: Hyperloader.Process.Epochs
Purpose: The epochs of a process loader over the life of its pool, the batch
  commands its iterations send to one worker, and when the worker's retained
  probe value is the sample a command asks for.
Trusted boundary: none
Main exports:
  EpochState, Loader.machine, Loader.SameSample, Loader.batches_report_iff
-/
import Hyperloader.Foundations.Transition
import Hyperloader.Process.Codec
import Hyperloader.Process.Worker

namespace Hyperloader.Process

open Foundations

inductive EpochOverride where
  | explicit
  | resume

/-- Iteration starts, deliveries, completion, and explicit overrides. -/
structure EpochState where
  current : Nat
  activeEpoch : Option Nat
  activeDelivered : Bool
  pendingOverride : Option EpochOverride

namespace EpochState

def new : EpochState := ⟨0, none, false, none⟩

/-- Begin an iterator and report whether abandonment advanced the epoch. -/
def beginIteration (epochs : EpochState) : Bool × EpochState :=
  let advanced := epochs.pendingOverride.isNone && epochs.activeDelivered
  let current := if advanced then epochs.current + 1 else epochs.current
  (advanced,
    { current := current
      activeEpoch := some current
      activeDelivered := false
      pendingOverride := none })

/-- Record a successful delivery from the active iterator. -/
def markDelivered (epochs : EpochState) (epoch : Nat) : EpochState :=
  if epochs.activeEpoch = some epoch then { epochs with activeDelivered := true }
  else epochs

/-- Advance a normally exhausted active iterator exactly once. -/
def complete (epochs : EpochState) (epoch : Nat) : EpochState :=
  if epochs.activeEpoch ≠ some epoch then epochs
  else
    { epochs with
      current :=
        if epochs.pendingOverride.isNone && epochs.current = epoch then
          epochs.current + 1
        else epochs.current
      activeEpoch := none
      activeDelivered := false }

def setEpoch (epochs : EpochState) (epoch : Nat) : EpochState :=
  { epochs with current := epoch, pendingOverride := some .explicit }

def restore (epochs : EpochState) (epoch : Nat) : EpochState :=
  { epochs with current := epoch, pendingOverride := some .resume }

end EpochState

namespace Loader

variable {Dtype Data Object Elements : Type}

/-- The observed worker of a live pool, with the root seed its process was
started with and the epoch the pool was probed at. -/
structure Pool (Dtype Data Object : Type) where
  worker : Worker Dtype Data Object
  rootSeed : Nat
  probeEpoch : Nat

/-- A loader as one of its workers sees it.  The iterator carries its epoch and
whether it is complete. -/
structure State (Dtype Data Object : Type) where
  rootSeed : Nat
  epochs : EpochState
  iterator : Option (Nat × Bool)
  pool : Option (Pool Dtype Data Object)

/-- What can happen to a loader.  `iterate` carries whether the last iterator is
still referenced, whether the pool has commands pending, and the measured cost
of a probe it may run. -/
inductive Label where
  | setEpoch (epoch : Nat)
  | loadStateDict (rootSeed epoch : Nat)
  | close
  | iterate (referenced pending : Bool) (costNs : Nat)
  | submit (ordinal : Nat)
  | deliver
  | finish

/-- A batch command the worker gathered, or nothing this module observes. -/
inductive Event (Sample : Type) where
  | quiet
  | gathered (rootSeed : Nat) (command : Command) (result : Gathered Sample)

variable (program : Program Dtype Data Object Elements) (workerId batchSize length : Nat)

/-- Spawn the pool: worker 0 is probed at position 0 of the epoch, every worker
attaches with the layout of the probe. -/
def launch (rootSeed epoch costNs : Nat) : Pool Dtype Data Object :=
  let probed := Worker.launch program rootSeed 0 (some (epoch, 0, 0)) costNs
  let layout := probed.2.bind ProbeResponse.layout
  let worker :=
    if workerId = 0 then probed.1
    else (Worker.launch program rootSeed workerId none costNs).1
  { worker := { worker with layout := layout }
    rootSeed := rootSeed
    probeEpoch := epoch }

/-- A loader as constructed; the constructor may already spawn its pool. -/
def initial (rootSeed : Nat) (prepared : Bool) (costNs : Nat) : State Dtype Data Object :=
  { rootSeed := rootSeed
    epochs := .new
    iterator := none
    pool := if prepared then some (launch program workerId rootSeed 0 costNs) else none }

/-- The batch command of one ordinal; placement and sampling are the identity
wherever batches are formed in the worker. -/
def batchCommand (epoch ordinal : Nat) : Command :=
  { position := ordinal * batchSize
    epoch := epoch
    stagePlan := BLACK_BOX_STAGE
    index := ordinal * batchSize
    batchLen := min batchSize (length - ordinal * batchSize)
    payload := none }

/-- The loader over a non-shuffled map dataset of `length` samples whose pool
runs worker-side batches. -/
def machine : Machine (State Dtype Data Object) Label
    (Event (Value Dtype Data Object)) where
  step state label :=
    match label with
    | .setEpoch epoch =>
        some (.quiet, { state with epochs := state.epochs.setEpoch epoch })
    | .loadStateDict rootSeed epoch =>
        some (.quiet,
          { rootSeed := rootSeed
            epochs := state.epochs.restore epoch
            iterator := none
            pool := none })
    | .close => some (.quiet, { state with iterator := none, pool := none })
    | .iterate referenced pending costNs =>
        let epochs := state.epochs.beginIteration.2
        let abandoned :=
          match state.iterator with
          | some (_, complete) => referenced && !complete
          | none => false
        let kept := if abandoned || pending then none else state.pool
        let pool :=
          match kept with
          | some pool => pool
          | none => launch program workerId state.rootSeed epochs.current costNs
        some (.quiet,
          { state with
            epochs := epochs
            iterator := some (epochs.current, false)
            pool := some pool })
    | .submit ordinal =>
        match state.iterator, state.pool with
        | some (epoch, _), some pool =>
            -- without a layout the pool has no batch transport, and an epoch that
            -- is no `u64` never leaves the consumer
            if pool.worker.layout.isSome ∧ ordinal * batchSize < length ∧
                epoch < 2 ^ 64 then
              let command := batchCommand batchSize length epoch ordinal
              match pool.worker.startupError with
              | some _ => some (.quiet, state)
              | none =>
                  some (.gathered state.rootSeed command
                      (pool.worker.gather program pool.rootSeed command),
                    { state with
                      pool := some { pool with
                        worker :=
                          (pool.worker.execute program pool.rootSeed command).2.2 } })
            else none
        | _, _ => none
    | .deliver =>
        match state.iterator with
        | some (epoch, _) =>
            some (.quiet, { state with epochs := state.epochs.markDelivered epoch })
        | none => none
    | .finish =>
        match state.iterator with
        | some (epoch, _) =>
            some (.quiet,
              { state with
                epochs := state.epochs.complete epoch
                iterator := some (epoch, true) })
        | none => none

/-- Every value the batch holds is the sample of its own position under the
command's epoch. -/
def Faithful : Event (Value Dtype Data Object) → Prop
  | .quiet => True
  | .gathered rootSeed command result =>
      Reports
        (fun position => evaluateSample program rootSeed command.epoch position position)
        (List.range' command.index command.batchLen) result.values result.failure

/-- The dataset returns sample 0 alike under the streams of two epochs. -/
def SameSample (rootSeed one two : Nat) : Prop :=
  (sampleRngContext rootSeed one 0).map (program.dataset 0) =
    (sampleRngContext rootSeed two 0).map (program.dataset 0)

/-- The step does not send batch 0 to a worker that still retains its probe
value, unless the probe's epoch has the same sample 0. -/
def Unaffected (state : State Dtype Data Object) : Label → Prop
  | .submit ordinal =>
      ∀ epoch complete pool, state.iterator = some (epoch, complete) →
        state.pool = some pool → pool.worker.startupError = none →
        pool.worker.probeValues.isSome → ordinal = 0 →
          SameSample program state.rootSeed epoch pool.probeEpoch
  | _ => True

/-- A live pool runs under the loader's root seed, and what its worker retains
is sample 0 of the epoch it was probed at. -/
def Probed (state : State Dtype Data Object) : Prop :=
  ∀ pool, state.pool = some pool → pool.rootSeed = state.rootSeed ∧
    ∀ held, pool.worker.probeValues = some held →
      evaluateSample program state.rootSeed pool.probeEpoch 0 0 = .ok held.1

/-- A launched worker retains at most the probe it just ran. -/
theorem launch_retains (rootSeed epoch costNs : Nat) (held : Value Dtype Data Object × Nat)
    (retained :
      (launch program workerId rootSeed epoch costNs).worker.probeValues = some held) :
    evaluateSample program rootSeed epoch 0 0 = .ok held.1 := by
  unfold launch at retained
  by_cases owner : workerId = 0
  · simp only [owner, if_true, Worker.launch] at retained
    split at retained
    · cases retained
    · split at retained
      · cases retained
      · rename_i value outcome
        cases retained
        exact outcome
  · simp [owner, Worker.launch] at retained

theorem probed_launch (state : State Dtype Data Object) (epoch costNs : Nat)
    (launched : state.pool =
      some (launch program workerId state.rootSeed epoch costNs)) : Probed program state := by
  intro pool poolEq
  rw [launched] at poolEq
  cases poolEq
  exact ⟨rfl, launch_retains program workerId state.rootSeed epoch costNs⟩

theorem probed_initial (rootSeed : Nat) (prepared : Bool) (costNs : Nat) :
    Probed program (initial program workerId rootSeed prepared costNs) := by
  cases prepared with
  | true => exact probed_launch program workerId _ 0 costNs rfl
  | false =>
      intro pool poolEq
      cases poolEq

variable {state next : State Dtype Data Object} {event : Event (Value Dtype Data Object)}

/-- The submit step, read off: what the worker gathered and the state left. -/
theorem submit_cases {ordinal : Nat}
    (stepEq : (machine program workerId batchSize length).step state (.submit ordinal) =
      some (event, next)) :
    ∃ epoch complete pool, state.iterator = some (epoch, complete) ∧
      state.pool = some pool ∧ ordinal * batchSize < length ∧
      ((pool.worker.startupError ≠ none ∧ event = .quiet ∧ next = state) ∨
        (pool.worker.startupError = none ∧
          event = .gathered state.rootSeed (batchCommand batchSize length epoch ordinal)
            (pool.worker.gather program pool.rootSeed
              (batchCommand batchSize length epoch ordinal)) ∧
          next = { state with
            pool := some { pool with
              worker := (pool.worker.execute program pool.rootSeed
                (batchCommand batchSize length epoch ordinal)).2.2 } })) := by
  simp only [machine] at stepEq
  split at stepEq
  · rename_i epoch complete pool iteratorEq poolEq
    split at stepEq
    · rename_i sent
      refine ⟨epoch, complete, pool, iteratorEq, poolEq, sent.2.1, ?_⟩
      split at stepEq
      · rename_i failure failed
        cases stepEq
        exact Or.inl ⟨by simp [failed], rfl, rfl⟩
      · rename_i started
        cases stepEq
        exact Or.inr ⟨started, rfl, rfl⟩
    · cases stepEq
  · cases stepEq

/-- Every step keeps the probe record. -/
theorem Probed.step {state next : State Dtype Data Object} {label : Label}
    {event : Event (Value Dtype Data Object)} (probed : Probed program state)
    (stepEq : (machine program workerId batchSize length).step state label =
      some (event, next)) : Probed program next := by
  cases label with
  | setEpoch epoch =>
      cases stepEq
      exact probed
  | loadStateDict rootSeed epoch | close =>
      cases stepEq
      intro pool poolEq
      cases poolEq
  | iterate referenced pending costNs =>
      simp only [machine, Option.some.injEq, Prod.mk.injEq] at stepEq
      obtain ⟨_, rfl⟩ := stepEq
      split
      · rename_i pool kept
        have same : state.pool = some pool := (Option.ite_none_left_eq_some.mp kept).2
        intro other otherEq
        cases otherEq
        exact probed pool same
      · exact probed_launch program workerId _ _ _ rfl
  | submit ordinal =>
      obtain ⟨epoch, complete, pool, _, poolEq, _, outcome⟩ :=
        submit_cases program workerId batchSize length stepEq
      rcases outcome with ⟨_, _, rfl⟩ | ⟨_, _, rfl⟩
      · exact probed
      · intro other otherEq
        cases otherEq
        obtain ⟨sameSeed, record⟩ := probed pool poolEq
        refine ⟨sameSeed, ?_⟩
        intro held retained
        exact record held (Worker.execute_probeValues program _ _ _ held retained)
  | deliver | finish =>
      simp only [machine] at stepEq
      split at stepEq
      · cases stepEq
        exact probed
      · cases stepEq

/-- Two evaluations of sample 0 agree when their streams give the same sample. -/
theorem evaluateSample_eq_iff (rootSeed one two : Nat) (value : Value Dtype Data Object)
    (outcome : evaluateSample program rootSeed two 0 0 = .ok value) :
    evaluateSample program rootSeed one 0 0 = .ok value ↔
      SameSample program rootSeed one two := by
  unfold evaluateSample at outcome ⊢
  unfold SameSample
  cases secondEq : sampleRngContext rootSeed two 0 with
  | none =>
      rw [secondEq] at outcome
      cases outcome
  | some second =>
      rw [secondEq] at outcome
      cases firstEq : sampleRngContext rootSeed one 0 with
      | none => simp
      | some first =>
          simp only at outcome
          simp only [Option.map_some, Option.some.injEq]
          rw [outcome]

/-- One batch command is faithful exactly when the step is unaffected. -/
theorem faithful_iff {label : Label} (positive : 0 < batchSize) (probed : Probed program state)
    (stepEq : (machine program workerId batchSize length).step state label =
      some (event, next)) : Faithful program event ↔ Unaffected program state label := by
  have silent : event = .quiet → (Faithful program event ↔ True) := by
    intro same
    subst same
    exact Iff.rfl
  cases label with
  | setEpoch | loadStateDict | close | iterate =>
      cases stepEq
      exact silent rfl
  | deliver | finish =>
      simp only [machine] at stepEq
      split at stepEq
      · cases stepEq
        exact silent rfl
      · cases stepEq
  | submit ordinal =>
      obtain ⟨epoch, complete, pool, iteratorEq, poolEq, within, outcome⟩ :=
        submit_cases program workerId batchSize length stepEq
      obtain ⟨sameSeed, record⟩ := probed pool poolEq
      have positiveLen : 0 < (batchCommand batchSize length epoch ordinal).batchLen := by
        simp only [batchCommand]
        omega
      have startsAtZero :
          (batchCommand batchSize length epoch ordinal).index = 0 ↔ ordinal = 0 := by
        simp only [batchCommand, Nat.mul_eq_zero]
        omega
      rcases outcome with ⟨failed, rfl, _⟩ | ⟨started, rfl, _⟩
      · apply iff_of_true trivial
        intro _ _ other _ otherEq otherStarted
        rw [poolEq] at otherEq
        cases otherEq
        exact absurd otherStarted failed
      · simp only [Faithful, Worker.gather, sameSeed]
        rw [gather_range_iff, startsAtZero]
        constructor
        · intro all otherEpoch _ other sameIterator otherEq _ retained zero
          rw [iteratorEq] at sameIterator
          rw [poolEq] at otherEq
          cases sameIterator
          cases otherEq
          obtain ⟨held, heldEq⟩ := Option.isSome_iff_exists.mp retained
          have here := all held heldEq zero positiveLen
          exact (evaluateSample_eq_iff program _ _ _ _ (record held heldEq)).mp here
        · intro unaffected held heldEq zero _
          have same := unaffected epoch complete pool iteratorEq poolEq started
            (by rw [heldEq]; rfl) zero
          exact (evaluateSample_eq_iff program _ _ _ _ (record held heldEq)).mpr same

/-- A worker's batches report the samples of their own positions and epoch
exactly when no batch 0 meets a probe value retained from an epoch with another
sample 0: over every run of a loader, for every dataset. -/
theorem batches_report_iff (positive : 0 < batchSize) (rootSeed : Nat) (prepared : Bool)
    (costNs : Nat) {labels : List Label} {trace : List (Label × Event (Value Dtype Data Object))}
    {final : State Dtype Data Object} (reached : (machine program workerId batchSize length).run
      (initial program workerId rootSeed prepared costNs) labels = some (trace, final)) :
    (∀ entry ∈ trace, Faithful program entry.2) ↔
      (machine program workerId batchSize length).Along (Unaffected program)
        (initial program workerId rootSeed prepared costNs) labels := by
  have keeps : ∀ state label event next, Probed program state →
      (machine program workerId batchSize length).step state label =
        some (event, next) → Probed program next :=
    fun _ _ _ _ probed stepEq => probed.step program workerId batchSize length stepEq
  have exact : ∀ state label event next, Probed program state →
      (machine program workerId batchSize length).step state label =
        some (event, next) →
      (Faithful program event ↔ Unaffected program state label) :=
    fun _ _ _ _ probed stepEq =>
      faithful_iff program workerId batchSize length positive probed stepEq
  exact (machine program workerId batchSize length).events_iff_along keeps exact
    (probed_initial program workerId rootSeed prepared costNs) reached

/-! ### Which epochs can differ -/

/-- The dataset that returns the key of the stream it runs under. -/
def keyProgram (libraries : Libraries Dtype Data Nat Elements) :
    Program Dtype Data Nat Elements where
  libraries := libraries
  workerInit _ := none
  dataset _ stream := .ok (.object stream.key.toNat)
  collateFn := none
  defaultCollate values :=
    match values with
    | value :: _ => .ok value
    | [] => .error indexError
  batchLayout _ := some ⟨"<u8", [], 8⟩
  matchesBatchLayout _ _ := true

/-- A pool probed at construction in epoch 0, then `set_epoch(1)`: batch 0 of the
first iteration holds sample 0 of epoch 0. -/
theorem retained_probe_stale :
    ∃ trace final,
      (machine (keyProgram Codec.stridedLibraries) 0 2 4).run
          (initial (keyProgram Codec.stridedLibraries) 0 7 true 1)
          [.setEpoch 1, .iterate true false 1, .submit 0] = some (trace, final) ∧
      ∃ entry ∈ trace, ¬ Faithful (keyProgram Codec.stridedLibraries) entry.2 := by
  refine ⟨_, _, rfl, _, .tail _ (.tail _ (.head _)), ?_⟩
  intro reports
  have taken : evaluateSample (keyProgram Codec.stridedLibraries) 7 1 0 0 =
      .ok (.object (key64 7 0).toNat) := reports.1
  have fresh : evaluateSample (keyProgram Codec.stridedLibraries) 7 1 0 0 =
      .ok (.object (key64 7 1).toNat) := rfl
  rw [fresh, Except.ok.injEq, Value.object.injEq] at taken
  exact absurd taken (by decide)

/-- The exact condition at the run that iterates in the epoch it was probed in,
then in the next. -/
theorem batches_report_iff_example :
    ∃ trace final,
      (machine (keyProgram Codec.stridedLibraries) 0 2 4).run
          (initial (keyProgram Codec.stridedLibraries) 0 7 true 1)
          [.iterate true false 1, .submit 0, .deliver, .finish, .iterate true false 1,
            .submit 0] = some (trace, final) ∧
      ((∀ entry ∈ trace, Faithful (keyProgram Codec.stridedLibraries) entry.2) ↔
        (machine (keyProgram Codec.stridedLibraries) 0 2 4).Along
          (Unaffected (keyProgram Codec.stridedLibraries))
          (initial (keyProgram Codec.stridedLibraries) 0 7 true 1)
          [.iterate true false 1, .submit 0, .deliver, .finish, .iterate true false 1,
            .submit 0]) :=
  ⟨_, _, rfl,
    batches_report_iff (keyProgram Codec.stridedLibraries) 0 2 4 (by decide) 7 true 1 rfl⟩

end Loader

end Hyperloader.Process
