/-
Module: Hyperloader.Process.Pool
Purpose: The process pool of python/hyperloader/process/pool.py over the iterators of one
  loader: the commands in its workers, the table of those pending, the result of its
  construction probe, and which of them process/factory.py looks at before it gives the
  pool to the next iterator.
Trusted boundary: workers answer the commands they take, and none of them dies; an iterator
  that was dropped makes no further calls of the pool, as the staging thread of a pinned one can.
Main exports:
  ProcessPool, ProcessPool.trySubmit, ProcessPool.tryReceive, PoolLoader.machine, Owned,
  Balanced, completions_owned
-/
import Hyperloader.Foundations.FiniteMap
import Hyperloader.Process.Epochs
import Hyperloader.State.Delivery

namespace Hyperloader.Process

open Foundations State

/-- One entry of `_pending`. -/
structure Pending where
  epoch : Nat
  index : Nat
  batchLen : Nat
  position : Nat
deriving DecidableEq

/-- A command sent to a worker for a schedule position.  The worker sees the command
only. -/
structure Submission where
  worker : Nat
  position : Nat
  command : Command
deriving DecidableEq

/-- The key of a submission in `_pending`. -/
def Submission.key (submission : Submission) : Nat × Nat :=
  (submission.worker, submission.command.position)

/-- The pool of a loader.  `running` and `finished` are the commands its workers have
taken and answered, the oldest first; `controls` counts the signals not read yet. -/
structure ProcessPool where
  workers : Nat
  batchSize : Option Nat
  probeKey : Nat × Nat × Nat
  probeRetained : Bool
  immediate : List (Nat × Nat)
  pending : Finmap fun _ : Nat × Nat => Pending
  running : List Submission
  finished : List Submission
  controls : Nat → Nat
  completionSignals : Nat → Nat

namespace ProcessPool

/-- A pool right after its probe `(epoch, coordinate, index)`. -/
def launch (workers : Nat) (batchSize : Option Nat) (probeKey : Nat × Nat × Nat) :
    ProcessPool :=
  { workers := workers
    batchSize := batchSize
    probeKey := probeKey
    probeRetained := true
    immediate := []
    pending := ∅
    running := []
    finished := []
    controls := fun _ => 0
    completionSignals := fun _ => 0 }

/-- The sample command of a key, as a worker evaluates it. -/
def sampleCommand (key : Nat × Nat × Nat) (batchLen : Nat) : Command :=
  { position := key.2.1
    epoch := key.1
    stagePlan := BLACK_BOX_STAGE
    index := key.2.2
    batchLen := batchLen
    payload := none }

/-- What the probe's result answers when it is taken at `position`. -/
def probeSubmission (pool : ProcessPool) (answer : Nat × Nat) : Submission :=
  ⟨answer.1, answer.2, sampleCommand pool.probeKey 0⟩

def ALREADY_PENDING : String := "worker already has this position pending"

def OUT_OF_RANGE : String := "worker is out of range"

/-- `_resources.try_submit` and `try_submit_command`; `transport` is how the arena and the
ring of the worker take the command. -/
def dispatch (pool : ProcessPool) (submission : Submission) (transport : Except Raised Bool) :
    Except Raised Bool × ProcessPool :=
  if submission.key ∈ (pool.running ++ pool.finished).map Submission.key then
    (.error (.valueError ALREADY_PENDING), pool)
  else if pool.workers ≤ submission.worker then (.error (.valueError OUT_OF_RANGE), pool)
  else
    match transport with
    | .error failure => (.error failure, pool)
    | .ok false => (.ok false, pool)
    | .ok true => (.ok true, { pool with running := pool.running ++ [submission] })

/-- `_pending[(worker, coordinate)] = ...` of an accepted command. -/
def record (pool : ProcessPool) (submission : Submission) (entry : Pending) : ProcessPool :=
  { pool with pending := pool.pending.insert submission.key entry }

def PROBE_ROUTING : String := "construction probe must retain worker zero routing"

/-- `try_submit` -/
def trySubmit (pool : ProcessPool) (epoch position index worker batchLen : Nat)
    (coordinate : Option Nat) (transport : Except Raised Bool) :
    Except Raised Bool × ProcessPool :=
  let commandPosition := coordinate.getD position
  let key := (epoch, commandPosition, index)
  if pool.probeRetained ∧ key = pool.probeKey ∧ batchLen = 0 then
    if worker ≠ 0 then (.error (.runtimeError PROBE_ROUTING), pool)
    else
      (.ok true,
        { pool with
          immediate := pool.immediate ++ [(worker, position)]
          probeRetained := false })
  else
    let pool :=
      if pool.probeRetained ∧ key = pool.probeKey then { pool with probeRetained := false }
      else pool
    let submission : Submission := ⟨worker, position, sampleCommand key batchLen⟩
    match pool.dispatch submission transport with
    | (.ok true, pool) => (.ok true, pool.record submission ⟨epoch, index, batchLen, position⟩)
    | refused => refused

/-- The frame of a user collation names its ordinal and the length of its payload. -/
def collatedCommand (payload : CollatedCommand) (length : Nat) : Command :=
  { position := payload.batchOrdinal
    epoch := 0
    stagePlan := USER_COLLATE_STAGE
    index := length
    batchLen := 0
    payload := some payload }

/-- `try_submit_collated`; `length` is the length of the pickled payload. -/
def trySubmitCollated (pool : ProcessPool) (payload : CollatedCommand) (length worker : Nat)
    (transport : Except Raised Bool) : Except Raised Bool × ProcessPool :=
  let submission : Submission :=
    ⟨worker, payload.batchOrdinal, collatedCommand payload length⟩
  match pool.dispatch submission transport with
  | (.ok true, pool) =>
      (.ok true,
        pool.record submission
          ⟨payload.epoch, 0, payload.entries.length, payload.batchOrdinal⟩)
  | refused => refused

def EARLY_SIGNAL : String := "worker signaled a completion before publishing it"

def UNKNOWN_COORDINATE : String := "worker completed an unknown command coordinate"

/-- `try_receive` behind the immediate results: the position returned, with the command
whose result it is. -/
def receiveCompletion (pool : ProcessPool) (worker : Nat) :
    Except Raised (Option Submission) × ProcessPool :=
  if pool.batchSize.isSome ∧ pool.completionSignals worker = 0 then (.ok none, pool)
  else
    match pool.finished.find? fun submission => submission.worker == worker with
    | none =>
        if pool.batchSize.isSome then (.error (.runtimeError EARLY_SIGNAL), pool)
        else (.ok none, pool)
    | some submission =>
        let pool :=
          { pool with
            finished := pool.finished.erase submission
            completionSignals :=
              if pool.batchSize.isSome then
                Function.update pool.completionSignals worker
                  (pool.completionSignals worker - 1)
              else pool.completionSignals }
        match pool.pending.lookup submission.key with
        | none => (.error (.runtimeError UNKNOWN_COORDINATE), pool)
        | some entry =>
            (.ok (some ⟨worker, entry.position, submission.command⟩),
              { pool with pending := pool.pending.erase submission.key })

/-- `try_receive` -/
def tryReceive (pool : ProcessPool) (worker : Nat) :
    Except Raised (Option Submission) × ProcessPool :=
  match pool.immediate with
  | [] => pool.receiveCompletion worker
  | answer :: rest =>
      if answer.1 = worker then
        (.ok (some (pool.probeSubmission answer)), { pool with immediate := rest })
      else pool.receiveCompletion worker

/-- A worker publishes the answer of its oldest command and signals it. -/
def work (pool : ProcessPool) (worker : Nat) : Option ProcessPool :=
  match pool.running.find? fun submission => submission.worker == worker with
  | none => none
  | some submission =>
      some
        { pool with
          running := pool.running.erase submission
          finished := pool.finished ++ [submission]
          controls := Function.update pool.controls worker (pool.controls worker + 1) }

/-- `wait_for_completion` reads the signals of a worker. -/
def readSignals (pool : ProcessPool) (worker : Nat) : ProcessPool :=
  { pool with
    controls := Function.update pool.controls worker 0
    completionSignals :=
      if pool.batchSize.isSome then
        Function.update pool.completionSignals worker
          (pool.completionSignals worker + pool.controls worker)
      else pool.completionSignals }

/-- `has_pending` -/
def hasPending (pool : ProcessPool) : Bool := decide (pool.pending ≠ ∅)

end ProcessPool

/-! ### The iterators of a loader -/

/-- What a loader that delivers something spawns its pools with: the workers, the samples a
worker batches, and the coordinate and the index of its first position in each epoch. -/
structure PoolPlan where
  workers : Nat
  batchSize : Option Nat
  coordinate : Nat
  index : Nat → Nat

/-- A loader between two calls.  The iterator it still refers to carries its epoch and
whether it is complete. -/
structure PoolLoader where
  epochs : EpochState
  iterator : Option (Nat × Bool)
  pool : Option ProcessPool

namespace PoolLoader

variable (plan : PoolPlan)

/-- A new pool, probed at the first position of `epoch`. -/
def spawn (epoch : Nat) : ProcessPool :=
  .launch plan.workers plan.batchSize (epoch, plan.coordinate, plan.index epoch)

/-- A loader as constructed; the constructor may already spawn its pool. -/
def start (prepared : Bool) : PoolLoader :=
  { epochs := .new
    iterator := none
    pool := if prepared then some (spawn plan 0) else none }

/-- Whether `__iter__` closes the loader of an iterator that it replaces. -/
def replaces (loader : PoolLoader) : Bool :=
  match loader.iterator with
  | some (_, complete) => !complete
  | none => false

/-- The pool the next iterator finds, if `__iter__` and `prepare_process_pool` keep one. -/
def kept (loader : PoolLoader) : Option ProcessPool :=
  if loader.replaces then none else loader.pool.filter fun pool => !pool.hasPending

/-- `__iter__`, up to the dispatches of the new iterator. -/
def iterate (loader : PoolLoader) : PoolLoader :=
  let epochs := loader.epochs.beginIteration.2
  { epochs := epochs
    iterator := some (epochs.current, false)
    pool := some (loader.kept.getD (spawn plan epochs.current)) }

/-- What can happen to a loader: its methods, the consumer dropping its iterator, and the
calls an iterator makes of the pool, each with how the transport takes a command. -/
inductive Label where
  | setEpoch (epoch : Nat)
  | loadStateDict (epoch : Nat)
  | close
  | drop
  | iterate
  | submit (position index worker batchLen : Nat) (coordinate : Option Nat)
      (transport : Except Raised Bool)
  | submitCollated (payload : CollatedCommand) (length worker : Nat)
      (transport : Except Raised Bool)
  | receive (worker : Nat)
  | readSignals (worker : Nat)
  | work (worker : Nat)
  | deliver
  | finish

/-- What a step shows: a submission accepted, a completion received with the command it
answers, or neither. -/
inductive Event where
  | quiet
  | submitted (submission : Submission)
  | received (submission : Submission)
  | raised (failure : Raised)

/-- The event of a submission. -/
def submissionEvent (submission : Submission) : Except Raised Bool → Event
  | .ok true => .submitted submission
  | .ok false => .quiet
  | .error failure => .raised failure

/-- The event of a reception. -/
def receptionEvent : Except Raised (Option Submission) → Event
  | .ok (some submission) => .received submission
  | .ok none => .quiet
  | .error failure => .raised failure

/-- A step of the live iterator over its pool. -/
def withPool (loader : PoolLoader) (call : Nat → ProcessPool → Event × ProcessPool) :
    Option (Event × PoolLoader) :=
  match loader.iterator, loader.pool with
  | some (epoch, false), some pool =>
      let called := call epoch pool
      some (called.1, { loader with pool := some called.2 })
  | _, _ => none

def step (loader : PoolLoader) : Label → Option (Event × PoolLoader)
  | .setEpoch epoch => some (.quiet, { loader with epochs := loader.epochs.setEpoch epoch })
  | .loadStateDict epoch =>
      some (.quiet,
        { epochs := loader.epochs.restore epoch, iterator := none, pool := none })
  | .close => some (.quiet, { loader with iterator := none, pool := none })
  | .drop => some (.quiet, { loader with iterator := none })
  | .iterate => some (.quiet, iterate plan loader)
  | .submit position index worker batchLen coordinate transport =>
      loader.withPool fun epoch pool =>
        let answer :=
          pool.trySubmit epoch position index worker batchLen coordinate transport
        let key := (epoch, coordinate.getD position, index)
        (submissionEvent ⟨worker, position, ProcessPool.sampleCommand key batchLen⟩ answer.1,
          answer.2)
  | .submitCollated payload length worker transport =>
      loader.withPool fun _ pool =>
        let answer := pool.trySubmitCollated payload length worker transport
        (submissionEvent
          ⟨worker, payload.batchOrdinal, ProcessPool.collatedCommand payload length⟩ answer.1,
          answer.2)
  | .receive worker =>
      loader.withPool fun _ pool =>
        let answer := pool.tryReceive worker
        (receptionEvent answer.1, answer.2)
  | .readSignals worker =>
      loader.withPool fun _ pool => (.quiet, pool.readSignals worker)
  | .work worker =>
      match loader.pool with
      | none => none
      | some pool =>
          (pool.work worker).map fun pool => (.quiet, { loader with pool := some pool })
  | .deliver =>
      match loader.iterator with
      | some (epoch, _) =>
          some (.quiet, { loader with epochs := loader.epochs.markDelivered epoch })
      | none => none
  | .finish =>
      match loader.iterator with
      | some (epoch, _) =>
          some (.quiet,
            { loader with
              epochs := loader.epochs.complete epoch
              iterator := some (epoch, true) })
      | none => none

def machine : Machine PoolLoader Label Event where
  step loader label := step plan loader label

end PoolLoader

/-! ### The account of an iterator -/

section Account

open PoolLoader

/-- The submissions the current iterator has made and not had answered, after one more
step; none once it received a completion of another submission. -/
def account : Option (List Submission) → Label × Event → Option (List Submission)
  | none, _ => none
  | some _, (.iterate, _) => some []
  | some owed, (_, .submitted submission) => some (submission :: owed)
  | some owed, (_, .received submission) =>
      if submission ∈ owed then some (owed.erase submission) else none
  | some owed, _ => some owed

/-- Every completion received answers a submission of the iterator that receives it, for
the worker, the position and the command submitted, and no submission is answered twice. -/
def Owned (trace : List (Label × Event)) : Prop :=
  (trace.foldl account (some [])).isSome

instance (trace : List (Label × Event)) : Decidable (Owned trace) :=
  inferInstanceAs (Decidable (_ = true))

/-- No iterator is made over a kept pool in which the result of the construction probe
still waits. -/
def Clean (loader : PoolLoader) : Label → Prop
  | .iterate => ∀ pool, loader.kept = some pool → pool.immediate = []
  | _ => True

instance (loader : PoolLoader) : ∀ label, Decidable (Clean loader label)
  | .iterate => decidable_of_iff (∀ pool ∈ loader.kept, pool.immediate = []) Iff.rfl
  | .setEpoch _ | .loadStateDict _ | .close | .drop | .submit .. | .submitCollated ..
  | .receive _ | .readSignals _ | .work _ | .deliver | .finish => instDecidableTrue

end Account

/-! ### A pool holds what its iterator is owed -/

/-- The commands of a pool, with the probe's result if it waits, are the submissions the
current iterator is owed, and each command is pending under its own key. -/
structure Balanced (pool : ProcessPool) (owed : List Submission) : Prop where
  once : ((pool.running ++ pool.finished).map Submission.key).Nodup
  recorded : ∀ submission ∈ pool.running ++ pool.finished, ∃ entry,
    pool.pending.lookup submission.key = some entry ∧ entry.position = submission.position
  balance : owed.Perm
    (pool.immediate.map pool.probeSubmission ++ (pool.running ++ pool.finished))

section Pool

variable {pool : ProcessPool} {owed : List Submission}

theorem balanced_launch (workers : Nat) (batchSize : Option Nat) (key : Nat × Nat × Nat) :
    Balanced (.launch workers batchSize key) [] :=
  { once := List.nodup_nil
    recorded := fun _ member => absurd member List.not_mem_nil
    balance := .refl _ }

variable {after : ProcessPool}

/-- What leaves the commands, the table and the waiting result alone keeps the balance. -/
theorem Balanced.congr (balanced : Balanced pool owed) (probeKey : after.probeKey = pool.probeKey)
    (immediate : after.immediate = pool.immediate) (pending : after.pending = pool.pending)
    (running : after.running = pool.running) (finished : after.finished = pool.finished) :
    Balanced after owed := by
  have same : after.probeSubmission = pool.probeSubmission := by
    funext answer
    rw [ProcessPool.probeSubmission, probeKey, ProcessPool.probeSubmission]
  obtain ⟨once, recorded, balance⟩ := balanced
  constructor
  · rwa [running, finished]
  · rwa [running, finished, pending]
  · rwa [running, finished, immediate, same]

variable {submission : Submission}

/-- A command is accepted only under a key of its own. -/
theorem dispatch_accepted {transport : Except Raised Bool}
    (accepted : pool.dispatch submission transport = (.ok true, after)) :
    submission.key ∉ (pool.running ++ pool.finished).map Submission.key ∧
      after = { pool with running := pool.running ++ [submission] } := by
  unfold ProcessPool.dispatch at accepted
  split at accepted
  · cases accepted
  · rename_i fresh
    split at accepted
    · cases accepted
    · split at accepted
      · cases accepted
      · cases accepted
      · cases accepted
        exact ⟨fresh, rfl⟩

/-- A command refused leaves the pool alone. -/
theorem dispatch_refused {transport : Except Raised Bool} {answer : Except Raised Bool}
    (refused : answer ≠ .ok true) (sent : pool.dispatch submission transport = (answer, after)) :
    after = pool := by
  unfold ProcessPool.dispatch at sent
  split at sent
  · cases sent
    rfl
  · split at sent
    · cases sent
      rfl
    · split at sent
      · cases sent
        rfl
      · cases sent
        rfl
      · cases sent
        exact absurd rfl refused

section

variable (balanced : Balanced pool owed)

include balanced

theorem Balanced.accepted
    (fresh : submission.key ∉ (pool.running ++ pool.finished).map Submission.key) {entry : Pending}
    (position : entry.position = submission.position) :
    Balanced
      (ProcessPool.record { pool with running := pool.running ++ [submission] } submission entry)
      (submission :: owed) := by
  have order : (pool.running ++ [submission] ++ pool.finished).Perm
      (submission :: (pool.running ++ pool.finished)) := by
    rw [List.append_assoc, List.singleton_append]
    exact List.perm_middle
  constructor
  · show ((pool.running ++ [submission] ++ pool.finished).map Submission.key).Nodup
    rw [(order.map Submission.key).nodup_iff, List.map_cons]
    exact List.nodup_cons.mpr ⟨fresh, balanced.once⟩
  · intro other member
    show ∃ found, (pool.pending.insert submission.key entry).lookup other.key = some found ∧ _
    rw [lookup_insert_if]
    rcases List.mem_cons.mp (order.mem_iff.mp member) with rfl | old
    · exact ⟨entry, if_pos rfl, position⟩
    · have different : other.key ≠ submission.key := fun same =>
        fresh (same ▸ List.mem_map_of_mem old)
      rw [if_neg different]
      exact balanced.recorded other old
  · apply (balanced.balance.cons submission).trans
    apply List.Perm.trans List.perm_middle.symm
    exact (order.symm).append_left _

/-- What a submission leaves owed. -/
def owedAfter (submission : Submission) (owed : List Submission) :
    Except Raised Bool → List Submission
  | .ok true => submission :: owed
  | _ => owed

/-- A submission through the rings. -/
theorem Balanced.dispatched {entry : Pending} (position : entry.position = submission.position)
    (transport : Except Raised Bool) {answer : Except Raised Bool × ProcessPool}
    (sent : answer = match pool.dispatch submission transport with
      | (.ok true, pool) => (.ok true, pool.record submission entry)
      | refused => refused) : Balanced answer.2 (owedAfter submission owed answer.1) := by
  cases dispatched : pool.dispatch submission transport with
  | mk outcome after =>
    rw [dispatched] at sent
    by_cases accepted : outcome = .ok true
    · rw [accepted] at sent dispatched
      obtain ⟨fresh, rfl⟩ := dispatch_accepted dispatched
      rw [sent]
      exact balanced.accepted fresh position
    · have same := dispatch_refused accepted dispatched
      have answered : answer = (outcome, after) := by
        rw [sent]
        split
        · rename_i equal
          exact absurd (congrArg Prod.fst equal) accepted
        · rfl
      have kept : owedAfter submission owed outcome = owed := by
        unfold owedAfter
        split
        · exact absurd rfl accepted
        · rfl
      rw [answered, same]
      show Balanced pool (owedAfter submission owed outcome)
      rwa [kept]

theorem Balanced.trySubmit (epoch position index worker batchLen : Nat) (coordinate : Option Nat)
    (transport : Except Raised Bool) :
    Balanced
      (pool.trySubmit epoch position index worker batchLen coordinate transport).2
      (owedAfter
        ⟨worker, position,
          ProcessPool.sampleCommand (epoch, coordinate.getD position, index) batchLen⟩
        owed (pool.trySubmit epoch position index worker batchLen coordinate transport).1) := by
  unfold ProcessPool.trySubmit
  dsimp only
  split
  · rename_i probe
    obtain ⟨-, same, rfl⟩ := probe
    split
    · exact balanced
    · -- the waiting result is owed as the sample command of the probe's key
      constructor
      · exact balanced.once
      · exact balanced.recorded
      · rw [same]
        show (pool.probeSubmission (worker, position) :: owed).Perm
          ((pool.immediate ++ [(worker, position)]).map pool.probeSubmission ++
            (pool.running ++ pool.finished))
        rw [List.map_append, List.append_assoc]
        exact (balanced.balance.cons _).trans List.perm_middle.symm
  · have forgotten : Balanced
        (if pool.probeRetained ∧ (epoch, coordinate.getD position, index) = pool.probeKey then
          { pool with probeRetained := false } else pool) owed := by
      split
      · exact balanced.congr rfl rfl rfl rfl rfl
      · exact balanced
    exact forgotten.dispatched (by rfl) transport rfl

theorem Balanced.trySubmitCollated (payload : CollatedCommand) (length worker : Nat)
    (transport : Except Raised Bool) :
    Balanced (pool.trySubmitCollated payload length worker transport).2
      (owedAfter ⟨worker, payload.batchOrdinal, ProcessPool.collatedCommand payload length⟩ owed
        (pool.trySubmitCollated payload length worker transport).1) :=
  balanced.dispatched (by rfl) transport rfl

/-- A reception answers something owed, or leaves all of it owed. -/
theorem Balanced.receiveCompletion (worker : Nat) :
    (∃ submission ∈ owed,
      (pool.receiveCompletion worker).1 = .ok (some submission) ∧
        Balanced (pool.receiveCompletion worker).2 (owed.erase submission)) ∨
    ((∀ submission, (pool.receiveCompletion worker).1 ≠ .ok (some submission)) ∧
      Balanced (pool.receiveCompletion worker).2 owed) := by
  unfold ProcessPool.receiveCompletion
  split
  · exact Or.inr ⟨fun _ => nofun, balanced⟩
  · cases found : pool.finished.find? fun submission => submission.worker == worker with
    | none =>
        right
        dsimp only
        split
        · exact ⟨fun _ => nofun, balanced⟩
        · exact ⟨fun _ => nofun, balanced⟩
    | some submission =>
        left
        have finished : submission ∈ pool.finished := List.mem_of_find?_eq_some found
        have owner : submission.worker = worker := by
          have satisfied := List.find?_some found
          exact beq_iff_eq.mp satisfied
        have inside : submission ∈ pool.running ++ pool.finished :=
          List.mem_append_right _ finished
        obtain ⟨entry, recorded, position⟩ := balanced.recorded submission inside
        have same : (⟨worker, entry.position, submission.command⟩ : Submission) = submission := by
          rw [position, ← owner]
        have order : (submission :: (pool.running ++ pool.finished.erase submission)).Perm
            (pool.running ++ pool.finished) :=
          List.perm_middle.symm.trans
            ((List.perm_cons_erase finished).symm.append_left pool.running)
        have keys := (order.map Submission.key).nodup_iff.mpr balanced.once
        rw [List.map_cons, List.nodup_cons] at keys
        refine ⟨submission, ?_, ?_, ?_⟩
        · exact balanced.balance.mem_iff.mpr (List.mem_append_right _ inside)
        · simp only [recorded, same]
        · simp only [recorded]
          constructor
          · exact keys.2
          · intro other member
            have different : other.key ≠ submission.key := fun equal =>
              keys.1 (equal ▸ List.mem_map_of_mem member)
            show ∃ found, (pool.pending.erase submission.key).lookup other.key = some found ∧ _
            rw [lookup_erase_if, if_neg different]
            exact balanced.recorded other (order.mem_iff.mp (List.mem_cons_of_mem _ member))
          · show (owed.erase submission).Perm
              (pool.immediate.map pool.probeSubmission ++
                (pool.running ++ pool.finished.erase submission))
            have through : owed.Perm (submission ::
                (pool.immediate.map pool.probeSubmission ++
                  (pool.running ++ pool.finished.erase submission))) :=
              balanced.balance.trans
                ((order.symm.append_left _).trans List.perm_middle)
            have erased := through.erase submission
            rwa [List.erase_cons_head] at erased

theorem Balanced.tryReceive (worker : Nat) :
    (∃ submission ∈ owed,
      (pool.tryReceive worker).1 = .ok (some submission) ∧
        Balanced (pool.tryReceive worker).2 (owed.erase submission)) ∨
    ((∀ submission, (pool.tryReceive worker).1 ≠ .ok (some submission)) ∧
      Balanced (pool.tryReceive worker).2 owed) := by
  unfold ProcessPool.tryReceive
  cases waiting : pool.immediate with
  | nil => exact balanced.receiveCompletion worker
  | cons answer rest =>
      dsimp only
      split
      · left
        have through : owed.Perm (pool.probeSubmission answer ::
            (rest.map pool.probeSubmission ++ (pool.running ++ pool.finished))) := by
          have balance := balanced.balance
          rwa [waiting] at balance
        refine ⟨pool.probeSubmission answer, ?_, rfl, balanced.once, balanced.recorded, ?_⟩
        · exact through.mem_iff.mpr List.mem_cons_self
        · have erased := through.erase (pool.probeSubmission answer)
          rwa [List.erase_cons_head] at erased
      · exact balanced.receiveCompletion worker

theorem Balanced.work {worker : Nat} (worked : pool.work worker = some after) :
    Balanced after owed := by
  unfold ProcessPool.work at worked
  split at worked
  · cases worked
  · rename_i submission found
    cases worked
    have running : submission ∈ pool.running := List.mem_of_find?_eq_some found
    have order : (pool.running.erase submission ++ (pool.finished ++ [submission])).Perm
        (pool.running ++ pool.finished) := by
      rw [← List.append_assoc]
      apply List.perm_append_comm.trans
      exact (List.perm_cons_erase running).symm.append_right pool.finished
    constructor
    · exact (order.map Submission.key).nodup_iff.mpr balanced.once
    · intro other member
      exact balanced.recorded other (order.mem_iff.mp member)
    · exact balanced.balance.trans (order.symm.append_left _)

end

end Pool

/-! ### Runs -/

section Runs

open PoolLoader

variable (plan : PoolPlan)

/-- What the pool of a loader holds is owed to the current iterator. -/
def Accounted (loader : PoolLoader) (owed : List Submission) : Prop :=
  ∀ pool, loader.pool = some pool → Balanced pool owed

variable {plan} {loader next : PoolLoader} {owed : List Submission}

/-- A pool that is kept has no commands left; if it is clean it holds nothing. -/
theorem accounted_iterate (accounted : Accounted loader owed) (clean : Clean loader .iterate) :
    Accounted (iterate plan loader) [] := by
  intro pool found
  have chosen : loader.kept.getD (spawn plan loader.epochs.beginIteration.2.current) = pool :=
    Option.some.inj found
  cases kept : loader.kept with
  | none =>
      rw [kept, Option.getD_none] at chosen
      subst chosen
      exact balanced_launch _ _ _
  | some old =>
      rw [kept, Option.getD_some] at chosen
      subst chosen
      have held : loader.pool = some old ∧ old.pending = ∅ := by
        unfold PoolLoader.kept at kept
        split at kept
        · cases kept
        · obtain ⟨same, reused⟩ := Option.filter_eq_some_iff.mp kept
          exact ⟨same, by simpa [ProcessPool.hasPending] using reused⟩
      have balanced := accounted old held.1
      have idle : old.running ++ old.finished = [] := by
        apply List.eq_nil_iff_forall_not_mem.mpr
        intro submission member
        obtain ⟨entry, recorded, -⟩ := balanced.recorded submission member
        rw [held.2] at recorded
        exact absurd recorded nofun
      constructor
      · rw [idle]
        exact List.nodup_nil
      · rw [idle]
        exact fun _ member => absurd member List.not_mem_nil
      · rw [idle, clean old kept]
        exact .refl _

theorem account_submission {label : Label} (other : label ≠ .iterate)
    (submission : Submission) (answer : Except Raised Bool) :
    account (some owed) (label, submissionEvent submission answer) =
      some (owedAfter submission owed answer) := by
  unfold submissionEvent owedAfter
  cases label <;> first | exact absurd rfl other | (cases answer with
    | error failure => rfl
    | ok accepted => cases accepted <;> rfl)

/-- A call of the pool by the iterator, read off. -/
theorem withPool_eq_some {call : Nat → ProcessPool → Event × ProcessPool} {event : Event}
    (called : loader.withPool call = some (event, next)) :
    ∃ epoch pool, loader.pool = some pool ∧ event = (call epoch pool).1 ∧
      next = { loader with pool := some (call epoch pool).2 } := by
  unfold PoolLoader.withPool at called
  split at called
  · rename_i epoch pool _ found
    cases called
    exact ⟨epoch, pool, found, rfl, rfl⟩
  · cases called

/-- Every step of a clean run leaves an account that agrees with the pool. -/
theorem accounted_step (accounted : Accounted loader owed) {label : Label} {event : Event}
    (clean : Clean loader label) (stepEq : step plan loader label = some (event, next)) :
    ∃ after, account (some owed) (label, event) = some after ∧ Accounted next after := by
  have replaced : ∀ {pool : ProcessPool} {after : List Submission}, Balanced pool after →
      Accounted { loader with pool := some pool } after := by
    intro pool after balanced other same
    cases same
    exact balanced
  cases label with
  | setEpoch epoch =>
      cases stepEq
      exact ⟨owed, rfl, accounted⟩
  | loadStateDict epoch | close =>
      cases stepEq
      exact ⟨owed, rfl, fun _ => nofun⟩
  | drop =>
      cases stepEq
      exact ⟨owed, rfl, accounted⟩
  | iterate =>
      cases stepEq
      exact ⟨[], rfl, accounted_iterate accounted clean⟩
  | submit position index worker batchLen coordinate transport =>
      obtain ⟨epoch, pool, found, rfl, rfl⟩ := withPool_eq_some stepEq
      exact ⟨_, account_submission (by nofun) _ _,
        replaced ((accounted pool found).trySubmit epoch position index worker batchLen
          coordinate transport)⟩
  | submitCollated payload length worker transport =>
      obtain ⟨epoch, pool, found, rfl, rfl⟩ := withPool_eq_some stepEq
      exact ⟨_, account_submission (by nofun) _ _,
        replaced ((accounted pool found).trySubmitCollated payload length worker transport)⟩
  | receive worker =>
      obtain ⟨epoch, pool, found, rfl, rfl⟩ := withPool_eq_some stepEq
      rcases (accounted pool found).tryReceive worker with
        ⟨submission, member, received, kept⟩ | ⟨nothing, kept⟩
      · refine ⟨owed.erase submission, ?_, replaced kept⟩
        simp only [received, receptionEvent, account, if_pos member]
      · refine ⟨owed, ?_, replaced kept⟩
        dsimp only
        cases answered : (pool.tryReceive worker).1 with
        | error failure => rfl
        | ok answer =>
            cases answer with
            | none => rfl
            | some submission => exact absurd answered (nothing submission)
  | readSignals worker =>
      obtain ⟨epoch, pool, found, rfl, rfl⟩ := withPool_eq_some stepEq
      exact ⟨owed, rfl, replaced ((accounted pool found).congr rfl rfl rfl rfl rfl)⟩
  | work worker =>
      change (match loader.pool with
        | none => none
        | some pool =>
            (pool.work worker).map fun pool => (.quiet, { loader with pool := some pool })) =
        some (event, next) at stepEq
      split at stepEq
      · cases stepEq
      · rename_i pool found
        obtain ⟨after, worked, same⟩ := Option.map_eq_some_iff.mp stepEq
        cases same
        exact ⟨owed, rfl, replaced ((accounted pool found).work worked)⟩
  | deliver =>
      change (match loader.iterator with
        | some (epoch, _) =>
            some (.quiet, { loader with epochs := loader.epochs.markDelivered epoch })
        | none => none) = some (event, next) at stepEq
      split at stepEq
      · cases stepEq
        exact ⟨owed, rfl, accounted⟩
      · cases stepEq
  | finish =>
      change (match loader.iterator with
        | some (epoch, _) =>
            some (.quiet, { loader with
              epochs := loader.epochs.complete epoch
              iterator := some (epoch, true) })
        | none => none) = some (event, next) at stepEq
      split at stepEq
      · cases stepEq
        exact ⟨owed, rfl, accounted⟩
      · cases stepEq

/-- A clean run from an accounted state stays accounted. -/
theorem run_accounted {before : List (Label × Event)}
    (start : ∃ owed, before.foldl account (some []) = some owed ∧ Accounted loader owed)
    {labels : List Label} {trace : List (Label × Event)}
    (clean : (machine plan).Along Clean loader labels)
    (ran : (machine plan).run loader labels = some (trace, next)) :
    ∃ owed, (before ++ trace).foldl account (some []) = some owed ∧ Accounted next owed := by
  refine (machine plan).run_induction (motive := fun trace loader =>
    ∃ owed, trace.foldl account (some []) = some owed ∧ Accounted loader owed)
    ?_ before start clean ran
  rintro trace loader label event next ⟨owed, counted, accounted⟩ permitted stepEq
  obtain ⟨after, account, kept⟩ := accounted_step accounted permitted stepEq
  refine ⟨after, ?_, kept⟩
  rw [List.foldl_append, counted]
  exact account

theorem accounted_start (prepared : Bool) : Accounted (start plan prepared) [] := by
  intro pool found
  cases prepared with
  | false => cases found
  | true =>
      cases found
      exact balanced_launch _ _ _

/-- Runs that make no iterator are clean. -/
theorem clean_of_calls {labels : List Label} (calls : .iterate ∉ labels) (loader : PoolLoader) :
    (machine plan).Along Clean loader labels := by
  induction labels generalizing loader with
  | nil => trivial
  | cons label labels ih =>
      refine ⟨?_, fun _ next _ =>
        ih (fun member => calls (List.mem_cons_of_mem _ member)) next⟩
      cases label <;> first | exact trivial | exact absurd List.mem_cons_self calls

variable (plan) in
/-- Over a kept pool whose probe result waits, the first completion of the next iterator is
that result. -/
theorem leaks (loader : PoolLoader) (waiting : ¬Clean loader .iterate)
    (before : List (Label × Event)) :
    ∃ worker more final,
      (machine plan).run (iterate plan loader) [.receive worker] = some (more, final) ∧
        ¬Owned (before ++ (.iterate, .quiet) :: more) := by
  obtain ⟨pool, kept, nonempty⟩ : ∃ pool, loader.kept = some pool ∧ pool.immediate ≠ [] := by
    simpa [Clean] using waiting
  obtain ⟨answer, rest, held⟩ := List.exists_cons_of_ne_nil nonempty
  have received : pool.tryReceive answer.1 =
      (.ok (some (pool.probeSubmission answer)), { pool with immediate := rest }) := by
    rw [ProcessPool.tryReceive, held]
    exact if_pos rfl
  have taken : step plan (iterate plan loader) (.receive answer.1) =
      some (.received (pool.probeSubmission answer),
        { iterate plan loader with pool := some { pool with immediate := rest } }) := by
    simp only [step, iterate, kept, Option.getD_some, withPool, received, receptionEvent]
  refine ⟨answer.1, _, _, (machine plan).run_cons_eq_some.mpr ⟨_, _, [], taken, rfl, rfl⟩, ?_⟩
  rw [Owned, List.foldl_append]
  cases before.foldl account (some []) with
  | none | some owed => exact nofun

/-- In a run that makes no iterator over a kept pool in which the construction probe's result
still waits, every completion answers a submission of the iterator that receives it, with
the epoch, the coordinate and the index submitted.  Such a pool is the only way for one
iterator to leak into the next: after a run like that, the next iterator receives only what
it submits, whatever it calls, exactly if it finds no such pool. -/
theorem completions_owned (plan : PoolPlan) (prepared : Bool) {labels : List Label}
    {trace : List (Label × Event)} {loader : PoolLoader}
    (clean : (machine plan).Along Clean (start plan prepared) labels)
    (ran : (machine plan).run (start plan prepared) labels = some (trace, loader)) :
    Owned trace ∧
      ((∀ calls more final, .iterate ∉ calls →
          (machine plan).run (iterate plan loader) calls = some (more, final) →
          Owned (trace ++ (.iterate, .quiet) :: more)) ↔
        Clean loader .iterate) := by
  have reached : ∃ owed, trace.foldl account (some []) = some owed ∧ Accounted loader owed := by
    have counted : ∃ owed, ([] ++ trace).foldl account (some []) = some owed ∧
        Accounted loader owed :=
      run_accounted ⟨[], rfl, accounted_start prepared⟩ clean ran
    rwa [List.nil_append] at counted
  obtain ⟨owed, counted, accounted⟩ := reached
  refine ⟨Option.isSome_of_eq_some counted, ?_, ?_⟩
  · intro all
    by_contra waiting
    obtain ⟨worker, more, final, ranMore, leaked⟩ := leaks plan loader waiting trace
    exact leaked (all [.receive worker] more final (by simp) ranMore)
  · intro permitted calls more final only ranMore
    have begun : ∃ owed, (trace ++ [((.iterate, .quiet) : Label × Event)]).foldl account (some []) = some owed ∧
        Accounted (iterate plan loader) owed := by
      refine ⟨[], ?_, accounted_iterate accounted permitted⟩
      rw [List.foldl_append, counted]
      rfl
    obtain ⟨after, last, -⟩ := run_accounted begun (clean_of_calls only _) ranMore
    rw [List.append_assoc, List.singleton_append] at last
    exact Option.isSome_of_eq_some last

end Runs

section Example

open PoolLoader

/-- A loader of one sample with one worker. -/
def oneSample : PoolPlan := ⟨1, none, 0, fun _ => 0⟩

/-- The first iterator receives its sample and is exhausted; the next one submits the sample
of the next epoch, and its worker answers. -/
def twoEpochs : List Label :=
  [.iterate, .submit 0 0 0 0 (some 0) (.ok true), .receive 0, .deliver, .finish, .iterate,
    .submit 0 0 0 0 (some 0) (.ok true), .work 0, .receive 0]

theorem completions_owned_oneSample :
    ∃ trace loader, (machine oneSample).run (start oneSample true) twoEpochs =
        some (trace, loader) ∧
      Owned trace ∧
      ((∀ calls more final, .iterate ∉ calls →
          (machine oneSample).run (iterate oneSample loader) calls = some (more, final) →
          Owned (trace ++ (.iterate, .quiet) :: more)) ↔
        Clean loader .iterate) := by
  have clean : (machine oneSample).Along Clean (start oneSample true) twoEpochs := by decide
  exact ⟨_, _, rfl, completions_owned oneSample true clean rfl⟩

/-- An iterator is dropped right after it was made; the next one, in the next epoch,
submits its sample and polls. -/
def abandoned : List Label :=
  [.iterate, .submit 0 0 0 0 (some 0) (.ok true), .drop, .setEpoch 1, .iterate,
    .submit 0 0 0 0 (some 0) (.ok true), .receive 0]

/-- The second iterator receives sample 0 of epoch 0. -/
theorem probe_result_leaks :
    ∃ trace loader, (machine oneSample).run (start oneSample true) abandoned =
        some (trace, loader) ∧
      trace.getLast? =
        some (.receive 0, .received ⟨0, 0, ProcessPool.sampleCommand (0, 0, 0) 0⟩) ∧
      ¬Owned trace :=
  ⟨_, _, rfl, rfl, by decide⟩

end Example

end Hyperloader.Process
