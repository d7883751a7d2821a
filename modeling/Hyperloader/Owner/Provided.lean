/-
Module: Hyperloader.Owner.Provided
Purpose: The classes of a process pool's owner through every call: what each slab is for, and that
  the slabs for overflow stay unused.
Trusted boundary: as in `Resources`
Main exports: Provided, Serves, provided_call
-/
import Hyperloader.Arena.Shelves
import Hyperloader.Owner.Resources

namespace Hyperloader.Owner

open Foundations
open Arena (ArenaAllocator ArenaError Creation SlabSpec Stocked Standard)
open Transport (SlotRef CompletionMessage)

/-! ### The classes through every call -/

/-- An owner whose reservations fit its classes. -/
structure Provided (first : Nat) (classes : List SlabSpec) (largest : Nat)
    (resources : ProcessResources) : Prop where
  stocked : Stocked first classes largest resources.allocator
  payload : 0 < resources.payloadCapacity ∧ resources.payloadCapacity ≤ largest
  exception : 0 < resources.exceptionCapacity ∧ resources.exceptionCapacity ≤ largest

/-- Some class holds the largest values. -/
def Serves (classes : List SlabSpec) (largest : Nat) : Prop :=
  Standard classes ∧ ∃ spec ∈ classes, largest ≤ spec.slotCapacity

section Provided

variable {first largest : Nat} {classes : List SlabSpec} {worker : UInt32}

abbrev Steady (first : Nat) (classes : List SlabSpec) (largest : Nat) {Value : Type}
    (effect : Effect Value) : Prop := Preserves (Provided first classes largest) effect

theorem steady_transport : Steady first classes largest (ProcessResources.transport worker) := by
  unfold ProcessResources.transport
  apply preserves_get
  intro resources
  split
  · exact preserves_pure _
  · exact preserves_throw _

theorem steady_refusePending (key : CommandKey) :
    Steady first classes largest (ProcessResources.refusePending key) := by
  unfold ProcessResources.refusePending
  apply preserves_get
  intro resources
  exact preserves_ite (preserves_throw _) (preserves_pure _)

theorem reserve_steady (serves : Serves classes largest) {resources : ProcessResources}
    (provided : Provided first classes largest resources) (create : Creation) {required : Nat}
    (fits : 0 < required ∧ required ≤ largest) (worker : UInt32) :
    Ensures (ProcessResources.reserve create required worker) resources
      (fun _ after => Provided first classes largest after)
      (fun _ after => Provided first classes largest after) := by
  have served : ∃ spec ∈ classes, required ≤ spec.slotCapacity := by
    obtain ⟨spec, isClass, holds⟩ := serves.2
    exact ⟨spec, isClass, Nat.le_trans fits.2 holds⟩
  have taking := provided.stocked.reserve serves.1 fits.1 fits.2 served create worker
  have lasting := provided.stocked.taking serves.1 taking
  clear taking
  unfold ProcessResources.reserve
  apply ensures_get
  generalize resources.allocator.reserve create required worker = answer at lasting
  obtain ⟨reserved, allocator⟩ := answer
  apply ensures_modify_bind
  cases reserved with
  | ok slot => exact ensures_pure ⟨lasting, provided.payload, provided.exception⟩
  | error error => exact ensures_throw ⟨lasting, provided.payload, provided.exception⟩

theorem steady_allocate {step : ArenaAllocator → Except ArenaError ArenaAllocator}
    (keeps : ∀ arena after, Stocked first classes largest arena → step arena = .ok after →
      Stocked first classes largest after) :
    Steady first classes largest (ProcessResources.allocate step) := by
  intro resources provided
  unfold ProcessResources.allocate
  apply ensures_get
  cases done : step resources.allocator with
  | ok allocator =>
      have lasting := keeps _ _ provided.stocked done
      exact ensures_modify ⟨lasting, provided.payload, provided.exception⟩
  | error error => exact ensures_throw provided

theorem steady_publish (slot : SlotRef) (length : Nat) :
    Steady first classes largest (ProcessResources.publish slot worker length) :=
  steady_allocate fun _ _ stocked done => stocked.publish done

theorem steady_cancel (slot : SlotRef) :
    Steady first classes largest (ProcessResources.cancel slot worker) :=
  steady_allocate fun _ _ stocked done => stocked.cancel done

theorem steady_discard (slot : SlotRef) :
    Steady first classes largest (ProcessResources.discard slot worker) :=
  preserves_tryCatch (steady_cancel slot) fun _ => preserves_pure _

theorem steady_deliver (slot : SlotRef) :
    Steady first classes largest (ProcessResources.deliver slot) :=
  steady_allocate fun _ _ stocked done => stocked.deliver Nat.one_pos done

theorem steady_dropView (view : SlotRef) :
    Steady first classes largest (ProcessResources.dropView view) :=
  preserves_modify fun _ provided =>
    ⟨provided.stocked.drop view, provided.payload, provided.exception⟩

theorem steady_readSlot (slot : SlotRef) :
    Steady first classes largest (ProcessResources.readSlot slot) := by
  unfold ProcessResources.readSlot
  apply preserves_bind (steady_deliver slot)
  intro _
  apply preserves_get
  intro resources
  apply preserves_bind (steady_dropView slot)
  intro _
  split
  · exact preserves_pure _
  · exact preserves_throw _

theorem steady_deliverBuffer (slot : SlotRef) :
    Steady first classes largest (ProcessResources.deliverBuffer slot) := by
  unfold ProcessResources.deliverBuffer
  apply preserves_bind (steady_deliver slot)
  intro _
  apply preserves_get
  intro resources
  split
  · exact preserves_pure _
  · exact preserves_bind (steady_dropView slot) fun _ => preserves_throw _

theorem steady_reserveSlots (serves : Serves classes largest) (create : Creation) :
    Steady first classes largest (ProcessResources.reserveSlots create worker) := by
  intro resources provided
  unfold ProcessResources.reserveSlots
  apply ensures_get
  apply ensures_bind (reserve_steady serves provided create provided.payload worker)
  intro primary after reserved
  apply ensures_get
  apply ensures_tryCatch
  · apply ensures_bind (reserve_steady serves reserved create reserved.exception worker)
    intro exception last both
    exact ensures_pure both
  · intro error last reserved
    exact preserves_bind (steady_discard primary) (fun _ => preserves_throw _) last reserved

theorem steady_pending (change : List (CommandKey × PendingSlots) → List (CommandKey × PendingSlots)) :
    Steady first classes largest
      (modify fun resources => { resources with pending := change resources.pending }) :=
  preserves_modify fun _ provided => ⟨provided.stocked, provided.payload, provided.exception⟩

theorem steady_transports
    (change : List (Option CommandTransport) → List (Option CommandTransport)) :
    Steady first classes largest
      (modify fun resources => { resources with transports := change resources.transports }) :=
  preserves_modify fun _ provided => ⟨provided.stocked, provided.payload, provided.exception⟩

theorem steady_dispatch (room : Bool) (message : Transport.DispatchMessage) (slots : PendingSlots) :
    Steady first classes largest (ProcessResources.dispatch room message slots) := by
  unfold ProcessResources.dispatch
  apply preserves_bind steady_transport
  intro _
  split
  · apply preserves_bind
    · exact steady_pending fun pending => ((message.worker, message.position), slots) :: pending
    · exact fun _ => preserves_pure _
  · apply preserves_bind (steady_cancel slots.primary)
    intro _
    exact preserves_bind (steady_cancel slots.exception) fun _ => preserves_pure _
  · apply preserves_bind (steady_discard slots.primary)
    intro _
    exact preserves_bind (steady_discard slots.exception) fun _ => preserves_throw _

theorem steady_copyPayload (slots : PendingSlots) (payload : List UInt8) :
    Steady first classes largest (ProcessResources.copyPayload slots worker payload) := by
  unfold ProcessResources.copyPayload
  apply preserves_get
  intro resources
  split
  · exact preserves_throw _
  · apply preserves_ite
    · apply preserves_bind (steady_discard slots.primary)
      intro _
      exact preserves_bind (steady_discard slots.exception) fun _ => preserves_throw _
    · exact preserves_modify fun _ provided =>
        ⟨provided.stocked.write _, provided.payload, provided.exception⟩

theorem steady_settle (slots : PendingSlots) (completion : CompletionMessage) :
    Steady first classes largest (ProcessResources.settle slots completion) := by
  unfold ProcessResources.settle
  dsimp only
  split
  · apply preserves_ite (preserves_throw _)
    apply preserves_bind (steady_publish _ _)
    intro _
    apply preserves_bind (steady_cancel _)
    intro _
    exact preserves_bind (steady_readSlot _) fun _ => preserves_pure _
  · apply preserves_ite (preserves_throw _)
    apply preserves_bind (steady_publish _ _)
    intro _
    apply preserves_bind (steady_cancel _)
    intro _
    exact preserves_bind (steady_deliverBuffer _) fun _ => preserves_pure _
  · split
    · exact preserves_throw _
    · apply preserves_ite (preserves_throw _)
      apply preserves_bind (steady_cancel _)
      intro _
      apply preserves_bind (steady_publish _ _)
      intro _
      exact preserves_bind (steady_readSlot _) fun _ => preserves_pure _

theorem steady_complete (completion : CompletionMessage) :
    Steady first classes largest (ProcessResources.complete worker completion) := by
  unfold ProcessResources.complete
  apply preserves_ite (preserves_throw _)
  apply preserves_get
  intro resources
  split
  · exact preserves_throw _
  · apply preserves_ite (preserves_throw _)
    apply preserves_bind (steady_settle _ _)
    rintro ⟨status, payload⟩
    apply preserves_bind
    · exact steady_pending fun pending =>
        pending.filter fun entry => entry.1 ≠ (worker, completion.position)
    · exact fun _ => preserves_pure _

theorem steady_reclaimPoisoned (slots : List SlotRef) :
    Steady first classes largest (ProcessResources.reclaimPoisoned slots) := by
  induction slots with
  | nil => exact preserves_pure _
  | cons slot slots ih =>
      apply preserves_bind
      · exact steady_allocate fun _ _ stocked done => stocked.reclaimPoisoned done
      · exact fun _ => ih

theorem steady_reclaimDeadWorker :
    Steady first classes largest (ProcessResources.reclaimDeadWorker worker) := by
  unfold ProcessResources.reclaimDeadWorker
  apply preserves_bind steady_transport
  intro _
  unfold ProcessResources.reclaimDeadSlots
  apply preserves_get
  intro resources
  apply preserves_bind
  · intro before provided
    unfold ProcessResources.poisonWriter
    apply ensures_get
    apply ensures_modify_bind
    exact ensures_pure ⟨provided.stocked.poison worker, provided.payload, provided.exception⟩
  intro poisoned
  apply preserves_bind (steady_reclaimPoisoned poisoned)
  intro _
  apply preserves_bind
  · exact steady_pending fun pending => pending.filter fun entry => entry.1.1 ≠ worker
  · exact fun _ => preserves_pure _

theorem steady_restartWorker (create : Creation) :
    Steady first classes largest (ProcessResources.restartWorker worker create) := by
  unfold ProcessResources.restartWorker
  apply preserves_bind steady_reclaimDeadWorker
  intro positions
  apply preserves_bind
  · unfold ProcessResources.takeTransport
    apply preserves_get
    intro resources
    split
    · exact steady_transports fun transports => transports.set worker.toNat none
    · exact preserves_throw _
  intro _
  apply preserves_get
  intro resources
  dsimp only
  split
  · exact preserves_throw _
  · rename_i transport _
    apply preserves_bind
    · exact steady_transports fun transports => transports.set worker.toNat (some transport)
    · exact fun _ => preserves_pure _

/-- Every call keeps the owner provided. -/
theorem provided_call (serves : Serves classes largest) (call : ResourceCall) :
    Steady first classes largest (ProcessResources.call call) := by
  cases call with
  | trySubmit create room epoch position index stagePlan worker batchLen =>
      apply preserves_map
      unfold ProcessResources.trySubmit
      apply preserves_bind (steady_refusePending _)
      intro _
      apply preserves_bind steady_transport
      intro _
      apply preserves_bind (steady_reserveSlots serves create)
      exact fun slots => steady_dispatch room _ slots
  | trySubmitCommand create room position stagePlan worker payload =>
      apply preserves_map
      unfold ProcessResources.trySubmitCommand
      apply preserves_get
      intro resources
      apply preserves_ite (preserves_throw _)
      apply preserves_ite (preserves_throw _)
      apply preserves_bind (steady_refusePending _)
      intro _
      apply preserves_bind steady_transport
      intro _
      apply preserves_bind (steady_reserveSlots serves create)
      intro slots
      apply preserves_bind (steady_copyPayload slots payload)
      exact fun _ => steady_dispatch room _ slots
  | tryReceive worker popped =>
      apply preserves_map
      unfold ProcessResources.tryReceive
      apply preserves_bind steady_transport
      intro _
      split
      · exact preserves_bind (steady_complete _) fun _ => preserves_pure _
      · exact preserves_pure _
      · exact preserves_throw _
  | reclaimDeadWorker worker => exact preserves_map steady_reclaimDeadWorker
  | restartWorker worker create => exact preserves_map (steady_restartWorker create)
  | dropBuffer view => exact preserves_bind (steady_dropView view) fun _ => preserves_pure _

end Provided

end Hyperloader.Owner
