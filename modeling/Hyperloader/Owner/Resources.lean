/-
Module: Hyperloader.Owner.Resources
Purpose: The owner of a process pool's shared memory, ffi/process/owner.rs and delivery.rs: its
  region plan, and each call that reserves, dispatches, completes or reclaims slots.
Trusted boundary: `Creation` answers the creation of a region, `room` and `popped` what a command
  ring answers to a push and a pop.
Main exports: processSlabSpecs, ProcessResources, ProcessResources.new, ResourceCall,
  ProcessResources.call, ProcessResources.machine
-/
import Hyperloader.Arena.Allocator
import Hyperloader.Foundations.Effects
import Hyperloader.Foundations.Transition
import Hyperloader.Transport.Layout
import Mathlib.Data.List.Sort

namespace Hyperloader.Owner

open Foundations
open Arena (ArenaAllocator ArenaError Creation SlabSpec)
open Transport (SlotRef DispatchMessage CompletionMessage CommandFrame LayoutError SharedLayout
  encodeDispatch decodeCompletion)

/-! ### Slab sizing -/

def processSlabSpecs (workerCount : UInt32) (queueCapacity payloadCapacity exceptionCapacity : Nat) :
    Except ArenaError (List SlabSpec) :=
  if 2 ^ 32 ≤ queueCapacity then .error .sizingOverflow
  else
    let slotsPerClass := UInt32.ofNat queueCapacity
    let largestCapacity := max payloadCapacity exceptionCapacity
    if 2 ^ 64 ≤ largestCapacity * 2 then .error .sizingOverflow
    else
      let overflow : SlabSpec := ⟨largestCapacity * 2, workerCount, true⟩
      if payloadCapacity = exceptionCapacity then
        if 2 ^ 32 ≤ slotsPerClass.toNat * 2 then .error .sizingOverflow
        else .ok [⟨payloadCapacity, slotsPerClass * 2, false⟩, overflow]
      else
        let fixed : List SlabSpec :=
          [⟨payloadCapacity, slotsPerClass, false⟩, ⟨exceptionCapacity, slotsPerClass, false⟩]
        .ok (fixed.insertionSort (fun one two => one.slotCapacity ≤ two.slotCapacity) ++ [overflow])

/-! ### Command transports -/

inductive TransportError where
  | layout (error : LayoutError)
  | registry (reason : String)
  | dispatchFull
  | completionEmpty
  | invalidMessage (field : String)

/-- The identity of a command region; what its rings answer is given with each call. -/
structure CommandTransport where
  sequence : UInt16
  dispatchCapacity : Nat
  completionCapacity : Nat

namespace CommandTransport

def create (create : Creation) (sequence : UInt16) (dispatchCapacity completionCapacity : Nat) :
    Except TransportError CommandTransport := do
  let layout ← (SharedLayout.new dispatchCapacity completionCapacity).mapError .layout
  (create sequence.toNat layout.payloadSize).mapError .registry
  return { sequence, dispatchCapacity, completionCapacity }

def trySendDispatch (room : Bool) (message : DispatchMessage) : Except TransportError Unit := do
  let _ ← (encodeDispatch message).mapError fun | .invalidMessage field => .invalidMessage field
  if room then .ok () else .error .dispatchFull

def tryRecvCompletion : Option CommandFrame → Except TransportError CompletionMessage
  | none => .error .completionEmpty
  | some frame => (decodeCompletion frame).mapError .invalidMessage

end CommandTransport

/-! ### Resources -/

def MAX_WORKERS : Nat := 1022

structure PendingSlots where
  primary : SlotRef
  exception : SlotRef

/-- The worker and the position of a command. -/
abbrev CommandKey := UInt32 × UInt64

structure ProcessResources where
  allocator : ArenaAllocator
  transports : List (Option CommandTransport)
  queueCapacity : Nat
  payloadCapacity : Nat
  exceptionCapacity : Nat
  pending : List (CommandKey × PendingSlots)

/-- A `PyValueError` with its text, or a `PyRuntimeError` by what it is made of. -/
inductive ResourcesError where
  | value (text : String)
  | runtime (text : String)
  | arena (error : ArenaError)
  | transport (error : TransportError)

/-- A call on the resources, which stay as it left them where it fails. -/
abbrev Effect := EStateM ResourcesError ProcessResources

inductive Payload where
  | copied (bytes : List UInt8)
  | buffer (view : SlotRef) (length : Nat)

/-- `ReceivedCompletion` -/
structure ReceivedCompletion where
  position : UInt64
  status : UInt8
  payload : Payload
  costNs : UInt64

namespace ProcessResources

def new (create : Creation) (workerCount : UInt32)
    (queueCapacity payloadCapacity exceptionCapacity : Nat) (bytes : Nat → Nat → UInt8) :
    Except ResourcesError ProcessResources :=
  if workerCount = 0 ∨ MAX_WORKERS < workerCount.toNat then
    .error (.value s!"worker_count must be between 1 and {MAX_WORKERS}")
  else if payloadCapacity = 0 ∨ exceptionCapacity = 0 then
    .error (.value "payload and exception capacities must be positive")
  else do
    let transports ← (List.range workerCount.toNat).mapM fun worker =>
      (CommandTransport.create create (UInt16.ofNat worker) queueCapacity queueCapacity).mapError
        .transport
    let specs ← (processSlabSpecs workerCount queueCapacity payloadCapacity
      exceptionCapacity).mapError .arena
    let allocator ← (ArenaAllocator.new create specs .safe (UInt16.ofNat workerCount.toNat)
      bytes).mapError .arena
    return { allocator, transports := transports.map some, queueCapacity, payloadCapacity,
             exceptionCapacity, pending := [] }

/-! ### Steps of a call -/

def transport (worker : UInt32) : Effect CommandTransport := do
  match (← get).transports[worker.toNat]? with
  | some (some transport) => return transport
  | _ => throw (.value s!"worker {worker} is out of range")

def reserve (create : Creation) (required : Nat) (worker : UInt32) : Effect SlotRef := do
  let (reserved, allocator) := (← get).allocator.reserve create required worker
  modify fun resources => { resources with allocator }
  match reserved with
  | .ok slot => return slot
  | .error error => throw (.arena error)

/-- A call on the allocator that changes nothing where it fails. -/
def allocate (step : ArenaAllocator → Except ArenaError ArenaAllocator) : Effect Unit := do
  match step (← get).allocator with
  | .ok allocator => modify fun resources => { resources with allocator }
  | .error error => throw (.arena error)

def publish (slot : SlotRef) (worker : UInt32) (length : Nat) : Effect Unit :=
  allocate fun allocator => allocator.publish slot worker length

def cancel (slot : SlotRef) (worker : UInt32) : Effect Unit :=
  allocate fun allocator => allocator.cancel slot worker

/-- `let _ = cancel(..)` -/
def discard (slot : SlotRef) (worker : UInt32) : Effect Unit :=
  tryCatch (cancel slot worker) fun _ => pure ()

/-- A delivery of one view. -/
def deliver (slot : SlotRef) : Effect Unit :=
  allocate fun allocator => allocator.deliver slot 1

def dropView (view : SlotRef) : Effect Unit :=
  modify fun resources => { resources with allocator := resources.allocator.drop view }

/-- The copied bytes of a view, which is dropped. -/
def readSlot (slot : SlotRef) : Effect (List UInt8) := do
  deliver slot
  let copied := (← get).allocator.toVec slot
  dropView slot
  match copied with
  | .ok bytes => return bytes
  | .error error => throw (.arena error)

/-- The view a buffer keeps, with the length of its bytes. -/
def deliverBuffer (slot : SlotRef) : Effect Payload := do
  deliver slot
  match (← get).allocator.toVec slot with
  | .ok bytes => return .buffer slot bytes.length
  | .error error =>
      dropView slot
      throw (.arena error)

/-! ### Submission -/

/-- Both slots of a command; the first goes back where there is no second. -/
def reserveSlots (create : Creation) (worker : UInt32) : Effect PendingSlots := do
  let primary ← reserve create (← get).payloadCapacity worker
  let required := (← get).exceptionCapacity
  tryCatch
    (do
      let exception ← reserve create required worker
      return { primary, exception })
    fun error => do
      discard primary worker
      throw error

/-- The push of a frame whose command becomes pending, or whose slots go back. -/
def dispatch (room : Bool) (message : DispatchMessage) (slots : PendingSlots) : Effect Bool := do
  let _ ← transport message.worker
  match CommandTransport.trySendDispatch room message with
  | .ok () =>
      modify fun resources =>
        { resources with
          pending := ((message.worker, message.position), slots) :: resources.pending }
      return true
  | .error .dispatchFull =>
      cancel slots.primary message.worker
      cancel slots.exception message.worker
      return false
  | .error error =>
      discard slots.primary message.worker
      discard slots.exception message.worker
      throw (.transport error)

def refusePending (key : CommandKey) : Effect Unit := do
  if ((← get).pending.lookup key).isSome then
    throw (.value "worker already has this position pending")

def trySubmit (create : Creation) (room : Bool) (epoch position index : UInt64)
    (stagePlan worker batchLen : UInt32) : Effect Bool := do
  refusePending (worker, position)
  let _ ← transport worker
  let slots ← reserveSlots create worker
  dispatch room
    { position, epoch, stagePlan, index, worker, batchLen, slot := slots.primary,
      exceptionSlot := slots.exception } slots

/-- The bytes of a command into its primary slot. -/
def copyPayload (slots : PendingSlots) (worker : UInt32) (payload : List UInt8) : Effect Unit := do
  match (← get).allocator.writingPtrLen slots.primary worker with
  | .error error => throw (.arena error)
  | .ok (slab, start, capacity) =>
      if capacity < payload.length then
        discard slots.primary worker
        discard slots.exception worker
        throw (.value "command payload exceeds its arena slot")
      else
        modify fun resources =>
          { resources with
            allocator :=
              { resources.allocator with bytes := resources.allocator.write slab start payload } }

def trySubmitCommand (create : Creation) (room : Bool) (position : UInt64)
    (stagePlan worker : UInt32) (payload : List UInt8) : Effect Bool := do
  let payloadCapacity := (← get).payloadCapacity
  if payload = [] then throw (.value "command payload must not be empty")
  else if payloadCapacity < payload.length then
    throw (.value (s!"command payload is {payload.length} bytes but capacity is " ++
      s!"{payloadCapacity} bytes"))
  else
    refusePending (worker, position)
    let _ ← transport worker
    let slots ← reserveSlots create worker
    copyPayload slots worker payload
    dispatch room
      { position, epoch := 0, stagePlan, index := UInt64.ofNat payload.length, worker,
        batchLen := 0, slot := slots.primary, exceptionSlot := slots.exception } slots

/-! ### Delivery -/

/-- The slots of a completion settled, and its status and payload. -/
def settle (slots : PendingSlots) (completion : CompletionMessage) : Effect (UInt8 × Payload) := do
  let worker := completion.worker
  match completion.status with
  | .ready =>
      if completion.exception.isSome then
        throw (.runtime "ready completion unexpectedly references an exception")
      else
        publish slots.primary worker completion.producedLength.toNat
        cancel slots.exception worker
        return (0, .copied (← readSlot slots.primary))
  | .readyBatch =>
      if completion.exception.isSome then
        throw (.runtime "batch completion unexpectedly references an exception")
      else
        publish slots.primary worker completion.producedLength.toNat
        cancel slots.exception worker
        return (2, ← deliverBuffer slots.primary)
  | .exception =>
      match completion.exception with
      | none => throw (.runtime "exception completion has no side-slab reference")
      | some exception =>
          if exception.slot ≠ slots.exception then
            throw (.runtime "exception slot does not match its dispatch")
          else
            cancel slots.primary worker
            publish slots.exception worker exception.length.toNat
            return (1, .copied (← readSlot slots.exception))

def complete (worker : UInt32) (completion : CompletionMessage) : Effect ReceivedCompletion := do
  if completion.worker ≠ worker then
    throw (.runtime "completion worker does not match its transport")
  else
    match (← get).pending.lookup (worker, completion.position) with
    | none => throw (.runtime "completion has no pending dispatch")
    | some slots =>
        if completion.slot ≠ slots.primary then
          throw (.runtime "completion primary slot does not match its dispatch")
        else
          let (status, payload) ← settle slots completion
          modify fun resources =>
            { resources with
              pending := resources.pending.filter fun entry =>
                entry.1 ≠ (worker, completion.position) }
          return { position := completion.position, status, payload,
                   costNs := completion.costNs }

def tryReceive (worker : UInt32) (popped : Option CommandFrame) :
    Effect (Option ReceivedCompletion) := do
  let _ ← transport worker
  match CommandTransport.tryRecvCompletion popped with
  | .ok completion => return some (← complete worker completion)
  | .error .completionEmpty => return none
  | .error error => throw (.transport error)

/-! ### Recovery -/

/-- The positions a worker has pending. -/
def positionsOf (resources : ProcessResources) (worker : UInt32) : List UInt64 :=
  (resources.pending.filter fun entry => entry.1.1 = worker).map fun entry => entry.1.2

def poisonWriter (worker : UInt32) : Effect (List SlotRef) := do
  let (poisoned, allocator) := (← get).allocator.poisonWriter worker
  modify fun resources => { resources with allocator }
  return poisoned

def reclaimPoisoned : List SlotRef → Effect Unit
  | [] => return
  | slot :: slots => do
      allocate fun allocator => allocator.reclaimPoisoned slot
      reclaimPoisoned slots

def reclaimDeadSlots (worker : UInt32) : Effect (List UInt64) := do
  let positions := (← get).positionsOf worker
  reclaimPoisoned (← poisonWriter worker)
  modify fun resources =>
    { resources with pending := resources.pending.filter fun entry => entry.1.1 ≠ worker }
  return positions

def reclaimDeadWorker (worker : UInt32) : Effect (List UInt64) := do
  let _ ← transport worker
  reclaimDeadSlots worker

/-- `transports[index].take()` -/
def takeTransport (worker : UInt32) : Effect Unit := do
  match (← get).transports[worker.toNat]? with
  | some (some _) =>
      modify fun resources =>
        { resources with transports := resources.transports.set worker.toNat none }
  | _ => throw (.runtime "worker transport is unavailable")

def restartWorker (worker : UInt32) (create : Creation) : Effect (List UInt64) := do
  let positions ← reclaimDeadWorker worker
  takeTransport worker
  let queueCapacity := (← get).queueCapacity
  match CommandTransport.create create (UInt16.ofNat worker.toNat) queueCapacity queueCapacity with
  | .error error => throw (.transport error)
  | .ok transport =>
      modify fun resources =>
        { resources with transports := resources.transports.set worker.toNat (some transport) }
      return positions

end ProcessResources

/-! ### Calls -/

inductive ResourceCall where
  | trySubmit (create : Creation) (room : Bool) (epoch position index : UInt64)
      (stagePlan worker batchLen : UInt32)
  | trySubmitCommand (create : Creation) (room : Bool) (position : UInt64)
      (stagePlan worker : UInt32) (payload : List UInt8)
  | tryReceive (worker : UInt32) (popped : Option CommandFrame)
  | reclaimDeadWorker (worker : UInt32)
  | restartWorker (worker : UInt32) (create : Creation)
  | dropBuffer (view : SlotRef)

inductive ResourceAnswer where
  | submitted (accepted : Bool)
  | received (completion : Option ReceivedCompletion)
  | reclaimed (positions : List UInt64)
  | dropped

namespace ProcessResources

def call : ResourceCall → Effect ResourceAnswer
  | .trySubmit create room epoch position index stagePlan worker batchLen =>
      .submitted <$> trySubmit create room epoch position index stagePlan worker batchLen
  | .trySubmitCommand create room position stagePlan worker payload =>
      .submitted <$> trySubmitCommand create room position stagePlan worker payload
  | .tryReceive worker popped => .received <$> tryReceive worker popped
  | .reclaimDeadWorker worker => .reclaimed <$> reclaimDeadWorker worker
  | .restartWorker worker create => .reclaimed <$> restartWorker worker create
  | .dropBuffer view => do
      dropView view
      return .dropped

/-- The resources call by call; the event of a call is its answer or its error. -/
def machine : Machine ProcessResources ResourceCall (Except ResourcesError ResourceAnswer) where
  step resources label :=
    match call label resources with
    | .ok answer after => some (.ok answer, after)
    | .error error after => some (.error error, after)

end ProcessResources

end Hyperloader.Owner
