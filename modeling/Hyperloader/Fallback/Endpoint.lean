/-
Module: Hyperloader.Fallback.Endpoint
Purpose: The worker's side of the pure Python transport, fallback/transport/worker.py, and an
  owner with any number of worker processes, each of which may die at any point.
Trusted boundary: as in `Resources`.  A worker completes commands it has received, each at most
  once; a process whose attachment is gone keeps running until it dies.
Main exports: WorkerEndpoint, WorkerEndpoint.act, Call, Label, System, System.machine
-/
import Hyperloader.Fallback.Resources
import Hyperloader.Foundations.Transition

namespace Hyperloader.Fallback

open Foundations

/-- A worker process with the pipes it was attached to, and the commands it has received and not
completed. -/
structure WorkerEndpoint where
  worker : Int
  channels : Nat
  held : List WorkerCommand

/-- How a worker completes a command. -/
inductive Outcome where
  | ready (payload : List UInt8)
  | batch (produced : Int)
  | exception (payload : List UInt8)

/-- What a worker does with its endpoint; `place` is that of a command among those it holds. -/
inductive Action where
  | tryRecv
  | readCommand (place : Nat)
  | writeBatchRow (place : Nat) (rowOffset : Int) (payload : List UInt8)
  | complete (place : Nat) (outcome : Outcome) (costNs : Int) (sends : Bool)

inductive Answer where
  | submitted (accepted : Bool)
  | received (completion : Option Received)
  | reclaimed (positions : List Int)
  | closed
  | attached
  | dispatched (command : Option WorkerCommand)
  | read (payload : List UInt8)
  | wrote
  | completed (sent : Bool)
  | idle
  | died
deriving DecidableEq

namespace WorkerEndpoint

variable {sizes : Sizes} (endpoint : WorkerEndpoint)

/-- `try_recv` -/
def tryRecv : Effect sizes (Option WorkerCommand) := do
  let resources ← get
  let channel := resources.pipes endpoint.channels
  match channel.dispatch with
  | [] => if channel.isOpen then return none else throw .eof
  | command :: rest =>
      set { resources with
        pipes := Function.update resources.pipes endpoint.channels
          { channel with dispatch := rest } }
      return some command

/-- `_write` -/
def write (command : WorkerCommand) (payload : List UInt8) (exception : Bool) :
    Effect sizes Unit :=
  ProcessResources.write endpoint.worker command.slot payload exception

/-- `read_command` -/
def readCommand (command : WorkerCommand) : Effect sizes (List UInt8) := do
  let resources ← get
  if 0 ≤ command.index ∧ command.index ≤ sizes.payloadCapacity then
    return resources.arena.slice (sizes.offset endpoint.worker command.slot false)
      command.index.toNat
  else throw (.value "command length exceeds its fallback arena slot")

/-- `write_batch_row` -/
def writeBatchRow (command : WorkerCommand) (rowOffset : Int) (payload : List UInt8) :
    Effect sizes Unit :=
  if rowOffset < 0 ∨ sizes.payloadCapacity < rowOffset + payload.length then
    throw (.value "batch row exceeds its fallback arena slot")
  else
    modify fun resources =>
      { resources with
        arena := resources.arena.copy
          (sizes.offset endpoint.worker command.slot false + rowOffset.toNat) payload }

/-- `_complete`, which finds its pipe broken where the owner has closed it. -/
def publish (command : WorkerCommand) (status produced costNs : Int) (sends : Bool) :
    Effect sizes Bool := do
  let resources ← get
  let channel := resources.pipes endpoint.channels
  let message : Completion := ⟨command.position, status, produced, costNs, command.slot⟩
  if channel.isOpen ∧ sends then
    set { resources with
      pipes := Function.update resources.pipes endpoint.channels
        { channel with completion := channel.completion ++ [message] } }
    return true
  else return false

/-- `try_complete_ready`, `try_complete_batch` and `try_complete_exception` -/
def tryComplete (command : WorkerCommand) (outcome : Outcome) (costNs : Int) (sends : Bool) :
    Effect sizes Bool :=
  match outcome with
  | .ready payload => do
      endpoint.write command payload false
      endpoint.publish command 0 payload.length costNs sends
  | .batch produced =>
      if 0 ≤ produced ∧ produced ≤ sizes.payloadCapacity then
        endpoint.publish command 2 produced costNs sends
      else throw (.value "batch length exceeds its fallback arena slot")
  | .exception payload => do
      endpoint.write command payload true
      endpoint.publish command 1 payload.length costNs sends

/-- An action, and the endpoint after it: a received command is held until its completion has
been sent. -/
def act : Action → Effect sizes (Answer × WorkerEndpoint)
  | .tryRecv => do
      match ← endpoint.tryRecv with
      | none => return (.dispatched none, endpoint)
      | some command =>
          return (.dispatched (some command), { endpoint with held := endpoint.held ++ [command] })
  | .readCommand place =>
      match endpoint.held[place]? with
      | none => return (.idle, endpoint)
      | some command => do return (.read (← endpoint.readCommand command), endpoint)
  | .writeBatchRow place rowOffset payload =>
      match endpoint.held[place]? with
      | none => return (.idle, endpoint)
      | some command => do
          endpoint.writeBatchRow command rowOffset payload
          return (.wrote, endpoint)
  | .complete place outcome costNs sends =>
      match endpoint.held[place]? with
      | none => return (.idle, endpoint)
      | some command => do
          if ← endpoint.tryComplete command outcome costNs sends then
            return (.completed true, { endpoint with held := endpoint.held.eraseIdx place })
          else return (.completed false, endpoint)

end WorkerEndpoint

/-! ### An owner with its workers -/

/-- A call of the owner; `sends` and `pipes` tell whether the pipes let it. -/
inductive Call where
  | trySubmit (epoch position index stagePlan worker batchLen : Int) (sends : Bool)
  | trySubmitCommand (position stagePlan worker : Int) (payload : List UInt8) (sends : Bool)
  | tryReceive (worker : Int)
  | reclaimDeadWorker (worker : Int) (pipes : Bool)
  | restartWorker (worker : Int) (pipes : Bool)
  | close

inductive Label where
  | call (call : Call)
  | attach (worker : Int)
  | act (process : Nat) (action : Action)
  | die (process : Nat)

/-- An owner's resources with the worker processes that run. -/
structure System (sizes : Sizes) where
  resources : ProcessResources sizes
  processes : List WorkerEndpoint

namespace System

variable {sizes : Sizes}

def start (sizes : Sizes) : System sizes := ⟨.start sizes, []⟩

def call : Call → Effect sizes Answer
  | .trySubmit epoch position index stagePlan worker batchLen sends =>
      .submitted <$>
        ProcessResources.trySubmit epoch position index stagePlan worker batchLen sends
  | .trySubmitCommand position stagePlan worker payload sends =>
      .submitted <$> ProcessResources.trySubmitCommand position stagePlan worker payload sends
  | .tryReceive worker => .received <$> ProcessResources.tryReceive worker
  | .reclaimDeadWorker worker pipes =>
      .reclaimed <$> ProcessResources.reclaimDeadWorker worker pipes
  | .restartWorker worker pipes => .reclaimed <$> ProcessResources.restartWorker worker pipes
  | .close => do
      ProcessResources.close
      return .closed

/-- A new process attaches by `descriptor`, while the arena and the worker's pipes are there. -/
def attach (system : System sizes) (worker : Int) : Option (System sizes) :=
  if sizes.HasWorker worker ∧ system.resources.closed = false ∧
      (system.resources.channel worker).isOpen then
    some { system with
      processes := system.processes ++ [⟨worker, system.resources.channels worker, []⟩] }
  else none

def step (system : System sizes) : Label → Option (Except ResourcesError Answer × System sizes)
  | .call called =>
      match call called system.resources with
      | .ok answer after => some (.ok answer, { system with resources := after })
      | .error error after => some (.error error, { system with resources := after })
  | .attach worker => (system.attach worker).map fun after => (.ok .attached, after)
  | .act process action =>
      match system.processes[process]? with
      | none => none
      | some endpoint =>
          match endpoint.act action system.resources with
          | .ok (answer, endpoint) after =>
              some (.ok answer, ⟨after, system.processes.set process endpoint⟩)
          | .error error after => some (.error error, { system with resources := after })
  | .die process =>
      if process < system.processes.length then
        some (.ok .died, { system with processes := system.processes.eraseIdx process })
      else none

/-- The owner and its workers, in any order. -/
def machine (sizes : Sizes) : Machine (System sizes) Label (Except ResourcesError Answer) where
  step := step

end System

end Hyperloader.Fallback
