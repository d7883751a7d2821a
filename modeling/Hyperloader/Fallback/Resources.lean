/-
Module: Hyperloader.Fallback.Resources
Purpose: The pure Python owner of a process pool's queues and arena, fallback/transport/owner.py:
  each call that reserves, dispatches, receives or reclaims slots.
Trusted boundary: a pipe keeps its messages in order while its ends are open.  Sending into an open
  pipe, and making a new one, succeeds or raises an OSError as each call is told.
Main exports: Sizes, WorkerCommand, Completion, Channels, ProcessResources,
  ProcessResources.trySubmit, ProcessResources.tryReceive, ProcessResources.reclaimDeadWorker
-/
import Mathlib.Data.Finmap
import Mathlib.Data.Finset.Sort
import Mathlib.Data.Int.ConditionallyCompleteOrder
import Hyperloader.Foundations.ByteFrame
import Hyperloader.Foundations.Effects
import Hyperloader.Foundations.FiniteMap

namespace Hyperloader.Fallback

open Foundations

/-! ### Data -/

/-- The sizes of a pool's resources, as the constructor admits them. -/
structure Sizes where
  workerCount : Nat
  queueCapacity : Nat
  payloadCapacity : Nat
  exceptionCapacity : Nat
  workers : 1 ≤ workerCount ∧ workerCount ≤ 1022
  queue : 0 < queueCapacity
  capacities : 0 < payloadCapacity ∧ 0 < exceptionCapacity
deriving Repr

namespace Sizes

/-- The checks of `ProcessResources.__init__`. -/
def check (workerCount queueCapacity payloadCapacity exceptionCapacity : Int) :
    Except String Sizes :=
  if workers : 1 ≤ workerCount ∧ workerCount ≤ 1022 then
    if queue : 0 < queueCapacity then
      if capacities : 0 < payloadCapacity ∧ 0 < exceptionCapacity then
        .ok
          { workerCount := workerCount.toNat
            queueCapacity := queueCapacity.toNat
            payloadCapacity := payloadCapacity.toNat
            exceptionCapacity := exceptionCapacity.toNat
            workers := by omega
            queue := by omega
            capacities := by omega }
      else .error "payload and exception capacities must be positive"
    else .error "queue capacity must be positive"
  else .error "worker_count must be between 1 and 1022"

variable (sizes : Sizes)

/-- `_slot_stride` -/
def slotStride : Nat := sizes.payloadCapacity + sizes.exceptionCapacity

def arenaSize : Nat := sizes.workerCount * sizes.queueCapacity * sizes.slotStride

def HasWorker (worker : Int) : Prop := 0 ≤ worker ∧ worker < sizes.workerCount

instance (worker : Int) : Decidable (sizes.HasWorker worker) :=
  inferInstanceAs (Decidable (0 ≤ worker ∧ worker < (sizes.workerCount : Int)))

/-- `_offset` -/
def offset (worker : Int) (slot : Nat) (exception : Bool) : Nat :=
  (worker.toNat * sizes.queueCapacity + slot) * sizes.slotStride +
    (if exception then sizes.payloadCapacity else 0)

/-- The capacity of a slot's payload or of its exception. -/
def capacity (exception : Bool) : Nat :=
  if exception then sizes.exceptionCapacity else sizes.payloadCapacity

end Sizes

/-- A command with its slot. -/
structure WorkerCommand where
  position : Int
  epoch : Int
  index : Int
  stagePlan : Int
  worker : Int
  batchLen : Int
  slot : Nat
deriving DecidableEq

/-- A completion as a worker sends it. -/
structure Completion where
  position : Int
  status : Int
  produced : Int
  costNs : Int
  slot : Nat

/-- The two pipes of a worker, both ends of which the owner keeps until it closes them. -/
structure Channels where
  dispatch : List WorkerCommand
  completion : List Completion
  isOpen : Bool

/-- A `ValueError`, a `RuntimeError`, an `OSError`, an `EOFError` or a `KeyError`. -/
inductive ResourcesError where
  | value (text : String)
  | runtime (text : String)
  | os
  | eof
  | key
deriving DecidableEq

/-- The worker and the position of a command. -/
abbrev CommandKey := Int × Int

/-- The owner's resources.  `pipes` are all the pipes it has made, `made` of them, and `channels`
names those of each worker. -/
structure ProcessResources (sizes : Sizes) where
  arena : Frame sizes.arenaSize
  free : Int → List Nat
  pending : Finmap fun _ : CommandKey => Nat
  channels : Int → Nat
  pipes : Nat → Channels
  made : Nat
  closed : Bool

/-- A call on the resources, which stay as it left them where it raises. -/
abbrev Effect (sizes : Sizes) := EStateM ResourcesError (ProcessResources sizes)

/-- What `try_receive` returns. -/
structure Received where
  position : Int
  status : Int
  payload : List UInt8
  costNs : Int
deriving DecidableEq

namespace ProcessResources

variable {sizes : Sizes}

/-- `ProcessResources.__init__` -/
def start (sizes : Sizes) : ProcessResources sizes :=
  { arena := .zeros _
    free := fun _ => List.range sizes.queueCapacity
    pending := ∅
    channels := Int.toNat
    pipes := fun _ => ⟨[], [], true⟩
    made := sizes.workerCount
    closed := false }

/-- The pipes a worker has now. -/
def channel (resources : ProcessResources sizes) (worker : Int) : Channels :=
  resources.pipes (resources.channels worker)

/-! ### Steps of a call -/

section

variable (worker : Int)

/-- `_validate_worker` -/
def validateWorker : Effect sizes Unit :=
  if sizes.HasWorker worker then pure ()
  else throw (.value s!"worker {worker} is out of range")

/-- `_free[worker].popleft()`, if there is a free slot. -/
def popleft : Effect sizes (Option Nat) := do
  let resources ← get
  match resources.free worker with
  | [] => return none
  | slot :: rest =>
      set { resources with free := Function.update resources.free worker rest }
      return some slot

/-- `_free[worker].appendleft(slot)` -/
def appendleft (slot : Nat) : Effect sizes Unit :=
  modify fun resources =>
    { resources with free := Function.update resources.free worker (slot :: resources.free worker) }

/-- `_free[worker].append(slot)` -/
def append (slot : Nat) : Effect sizes Unit :=
  modify fun resources =>
    { resources with
      free := Function.update resources.free worker (resources.free worker ++ [slot]) }

/-- `_write` -/
def write (slot : Nat) (payload : List UInt8) (exception : Bool) :
    Effect sizes Unit :=
  if sizes.capacity exception < payload.length then
    throw (.value "payload exceeds its fallback arena slot")
  else
    modify fun resources =>
      { resources with arena := resources.arena.copy (sizes.offset worker slot exception) payload }

/-- The bytes of a command, if it has any, into its slot. -/
def writePayload (slot : Nat) : Option (List UInt8) → Effect sizes Unit
  | none => pure ()
  | some payload => write worker slot payload false

/-- `_read` -/
def read (slot : Nat) (exception : Bool) (length : Int) :
    Effect sizes (List UInt8) := do
  let resources ← get
  if 0 ≤ length ∧ length ≤ sizes.capacity exception then
    return resources.arena.slice (sizes.offset worker slot exception) length.toNat
  else throw (.runtime "completion length exceeds its fallback arena slot")

/-- `_dispatch_send[worker].send(command)`, or an OSError that the caller catches. -/
def send (command : WorkerCommand) (sends : Bool) : Effect sizes Bool := do
  let resources ← get
  let channel := resources.channel worker
  if channel.isOpen ∧ sends then
    set { resources with
      pipes := Function.update resources.pipes (resources.channels worker)
        { channel with dispatch := channel.dispatch ++ [command] } }
    return true
  else return false

/-- `_replace_channels`, where making the new pipes may raise. -/
def replaceChannels (pipes : Bool) : Effect sizes Unit := do
  modify fun resources =>
    { resources with
      pipes := Function.update resources.pipes (resources.channels worker)
        { resources.channel worker with isOpen := false } }
  if pipes then
    modify fun resources =>
      { resources with
        channels := Function.update resources.channels worker resources.made
        pipes := Function.update resources.pipes resources.made ⟨[], [], true⟩
        made := resources.made + 1 }
  else throw .os

end

/-! ### Submission -/

/-- `_submit`, of a command by its fields; the -1 in place of its slot is never read. -/
def submit (position epoch index stagePlan worker batchLen : Int)
    (payload : Option (List UInt8)) (sends : Bool) : Effect sizes Bool := do
  let resources ← get
  if resources.closed then throw (.runtime "process resources are closed")
  else
    validateWorker worker
    if (worker, position) ∈ resources.pending then
      throw (.value "worker already has this position pending")
    else
      match ← popleft worker with
      | none => return false
      | some slot =>
          writePayload worker slot payload
          if ← send worker ⟨position, epoch, index, stagePlan, worker, batchLen, slot⟩ sends then
            modify fun resources =>
              { resources with pending := resources.pending.insert (worker, position) slot }
            return true
          else
            appendleft worker slot
            return false

def trySubmit (epoch position index stagePlan worker batchLen : Int) (sends : Bool) :
    Effect sizes Bool :=
  submit position epoch index stagePlan worker batchLen none sends

def trySubmitCommand (position stagePlan worker : Int) (payload : List UInt8) (sends : Bool) :
    Effect sizes Bool :=
  if payload = [] then throw (.value "command payload must not be empty")
  else if sizes.payloadCapacity < payload.length then
    throw (.value (s!"command payload is {payload.length} bytes but capacity is " ++
      s!"{sizes.payloadCapacity} bytes"))
  else submit position 0 payload.length stagePlan worker 0 (some payload) sends

/-! ### Delivery -/

/-- `completion.poll()` with `completion.recv()` -/
def receive (worker : Int) : Effect sizes (Option Completion) := do
  let resources ← get
  let channel := resources.channel worker
  if channel.isOpen then
    match channel.completion with
    | [] => return none
    | completion :: rest =>
        set { resources with
          pipes := Function.update resources.pipes (resources.channels worker)
            { channel with completion := rest } }
        return some completion
  else throw .os

/-- `_pending.pop(key, None)` -/
def popPending (key : CommandKey) : Effect sizes (Option Nat) := do
  let resources ← get
  set { resources with pending := resources.pending.erase key }
  return resources.pending.lookup key

def tryReceive (worker : Int) : Effect sizes (Option Received) := do
  validateWorker worker
  match ← receive worker with
  | none => return none
  | some completion =>
      let expected ← popPending (worker, completion.position)
      if expected ≠ some completion.slot then
        throw (.runtime "worker completed an unknown command coordinate")
      else
        let payload ← tryCatch
          (read worker completion.slot (completion.status = 1) completion.produced)
          fun error => do
            append worker completion.slot
            throw error
        append worker completion.slot
        return some ⟨completion.position, completion.status, payload, completion.costNs⟩

/-! ### Recovery -/

/-- The positions a worker has pending, in order. -/
def positionsOf (resources : ProcessResources sizes) (worker : Int) : List Int :=
  ((resources.pending.keys.filter fun key => key.1 = worker).image Prod.snd).sort (· ≤ ·)

/-- A slot goes back unless it is free. -/
def release (worker : Int) (slot : Nat) : Effect sizes Unit := do
  let resources ← get
  if slot ∈ resources.free worker then pure () else append worker slot

/-- The loop of `reclaim_dead_worker`. -/
def reclaim (worker : Int) : List Int → Effect sizes Unit
  | [] => pure ()
  | position :: positions => do
      match ← popPending (worker, position) with
      | none => throw .key
      | some slot =>
          release worker slot
          reclaim worker positions

def reclaimDeadWorker (worker : Int) (pipes : Bool) : Effect sizes (List Int) := do
  validateWorker worker
  let resources ← get
  let positions := resources.positionsOf worker
  reclaim worker positions
  replaceChannels worker pipes
  return positions

def restartWorker (worker : Int) (pipes : Bool) : Effect sizes (List Int) :=
  reclaimDeadWorker worker pipes

/-- `close`, which closes the pipes of every worker. -/
def close : Effect sizes Unit :=
  modify fun resources =>
    if resources.closed then resources
    else
      { resources with
        closed := true
        pipes := fun pipe => { resources.pipes pipe with isOpen := false } }

end ProcessResources

end Hyperloader.Fallback
