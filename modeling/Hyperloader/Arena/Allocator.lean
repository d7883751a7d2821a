/-
Module: Hyperloader.Arena.Allocator
Purpose: The slab allocator of arena/allocator: size classes, growth under the region limit, and
  the transitions of a slot from reservation to delivery, cancellation or recovery.
Trusted boundary: `create` answers the creation of one region.
Main exports: ArenaAllocator, ArenaAllocator.new, ArenaAllocator.call, validateSpecs, locateSlot
-/
import Hyperloader.Foundations.Fallible
import Hyperloader.Transport.Message
import Mathlib.Data.List.MinMax
import Mathlib.Data.Nat.Log

namespace Hyperloader.Arena

open Foundations
open Transport (SlotRef)

/-! ### Vocabulary -/

inductive GrowthPolicy where
  | safe
  | strictError
deriving DecidableEq

structure SlabSpec where
  slotCapacity : Nat
  slotsPerSlab : UInt32
  overflow : Bool
deriving DecidableEq

inductive SlotState where
  | free
  | writing (worker : UInt32)
  | ready (length : Nat)
  | delivered (remaining length : Nat)
  | poisoned
deriving DecidableEq

structure ArenaStats where
  regions : Nat
  growthEvents : Nat
  holdEvents : Nat
  overflowEvents : Nat
  poisonedSlots : Nat

inductive ArenaError where
  | sizingOverflow
  | invalidSlabPlan
  | invalidSize
  | registry (reason : String)
  | regionLimit
  | growthDenied (required : Nat)
  | staleSlot
  | invalidTransition (expected : String) (actual : SlotState)
  | wrongWriter (expected actual : UInt32)
  | slotOverflow (capacity actual : Nat)

/-! ### Slabs -/

def MAX_REGION_SEQUENCE : Nat := 1023

structure SlotMeta where
  generation : UInt64
  state : SlotState

structure Slab where
  spec : SlabSpec
  sequence : UInt16
  payloadSize : Nat
  slots : List SlotMeta

/-- The reference to a slot in its present generation. -/
def Slab.slotRef (slab : Slab) (index : Nat) (slot : SlotMeta) : SlotRef where
  regionSequence := slab.sequence
  regionSize := UInt64.ofNat slab.payloadSize
  slotIndex := UInt32.ofNat index
  offset := UInt64.ofNat (index * slab.spec.slotCapacity)
  capacity := UInt64.ofNat slab.spec.slotCapacity
  generation := slot.generation

/-- The answer to the creation of a region of a sequence and a payload size. -/
abbrev Creation := Nat → Nat → Except String Unit

/-- `saturating_add` on the counters. -/
def saturatingAdd (one two : Nat) : Nat := min (one + two) (2 ^ 64 - 1)

structure ArenaInner where
  policy : GrowthPolicy
  nextSequence : Nat
  maxStandardCapacity : Nat
  slabs : List Slab
  stats : ArenaStats

def newSlots (count : UInt32) : List SlotMeta := List.replicate count.toNat ⟨0, .free⟩

def ArenaInner.addSlab (inner : ArenaInner) (create : Creation) (spec : SlabSpec)
    (growth : Bool) : Except ArenaError ArenaInner :=
  if MAX_REGION_SEQUENCE < inner.nextSequence then .error .regionLimit
  else
    let payloadSize := spec.slotCapacity * spec.slotsPerSlab.toNat
    if 2 ^ 64 ≤ payloadSize then .error .sizingOverflow
    else
      match create inner.nextSequence payloadSize with
      | .error reason => .error (.registry reason)
      | .ok () =>
          .ok { inner with
            nextSequence := inner.nextSequence + 1
            slabs := inner.slabs ++
              [⟨spec, UInt16.ofNat inner.nextSequence, payloadSize, newSlots spec.slotsPerSlab⟩]
            stats := { inner.stats with
              growthEvents := if growth then saturatingAdd inner.stats.growthEvents 1
                else inner.stats.growthEvents } }

/-- Two neighbours of a plan: capacities grow, and only the last class is for overflow. -/
def ascending (first second : SlabSpec) : Prop :=
  first.slotCapacity < second.slotCapacity ∧ first.overflow = false

instance : DecidableRel ascending := fun _ _ => inferInstanceAs (Decidable (_ ∧ _))

def validateSpecs (specs : List SlabSpec) : Except ArenaError Unit :=
  if specs = [] ∨ (∃ spec ∈ specs, spec.slotCapacity = 0 ∨ spec.slotsPerSlab = 0) ∨
      (∃ pair ∈ specs.zip specs.tail, ¬ascending pair.1 pair.2) ∨
      (specs.filter fun spec => spec.overflow).length ≠ 1 ∨
      specs.getLast?.any (fun spec => spec.overflow) = false then
    .error .invalidSlabPlan
  else .ok ()

/-- The first free slot of the smallest fitting class. -/
def findFreeSlot (slabs : List Slab) (required : Nat) (overflow : Bool) : Option (Nat × Nat) :=
  let fitting := slabs.zipIdx.filter fun (slab, _) =>
    slab.spec.overflow == overflow && required ≤ slab.spec.slotCapacity
  let free := fitting.filterMap fun (slab, slabIndex) =>
    (slab.slots.findIdx? fun slot => slot.state == .free).map fun slotIndex =>
      (slab.spec.slotCapacity, slabIndex, slotIndex)
  (free.argmin fun (capacity, _, _) => capacity).map fun (_, slabIndex, slotIndex) =>
    (slabIndex, slotIndex)

/-- A slot found by its reference. -/
structure Located where
  slab : Nat
  slot : Nat
  owner : Slab
  entry : SlotMeta

def locateSlot (slabs : List Slab) (slot : SlotRef) : Except ArenaError Located :=
  match slabs.findIdx? fun slab => slab.sequence == slot.regionSequence with
  | none => .error .staleSlot
  | some slabIndex =>
      match slabs[slabIndex]? with
      | none => .error .staleSlot
      | some slab =>
          match slab.slots[slot.slotIndex.toNat]? with
          | none => .error .staleSlot
          | some entry =>
              if entry.generation ≠ slot.generation ∨
                  slot.regionSize ≠ UInt64.ofNat slab.payloadSize ∨
                  slot.offset ≠
                    UInt64.ofNat (slot.slotIndex.toNat * slab.spec.slotCapacity) ∨
                  slot.capacity ≠ UInt64.ofNat slab.spec.slotCapacity then
                .error .staleSlot
              else .ok ⟨slabIndex, slot.slotIndex.toNat, slab, entry⟩

/-- `recycle`, which wraps the generation. -/
def SlotMeta.recycle (slot : SlotMeta) : SlotMeta := ⟨slot.generation + 1, .free⟩

def validateWriter (state : SlotState) (worker : UInt32) : Except ArenaError Unit :=
  match state with
  | .writing expected =>
      if expected ≠ worker then .error (.wrongWriter expected worker) else .ok ()
  | actual => .error (.invalidTransition "writing" actual)

/-- The slot of a slab and an index. -/
def slotAt (slabs : List Slab) (slab slot : Nat) : Option SlotMeta :=
  slabs[slab]? >>= fun owner => owner.slots[slot]?

def setSlot (slabs : List Slab) (slab slot : Nat) (entry : SlotMeta) : List Slab :=
  slabs.modify slab fun owner => { owner with slots := owner.slots.set slot entry }

/-! ### The allocator with its regions and views -/

/-- The allocator, the payload bytes of its regions, and the delivery views that are alive. -/
structure ArenaAllocator where
  inner : ArenaInner
  bytes : Nat → Nat → UInt8
  views : List SlotRef

namespace ArenaAllocator

def new (create : Creation) (specs : List SlabSpec) (policy : GrowthPolicy)
    (firstSequence : UInt16) (bytes : Nat → Nat → UInt8) : Except ArenaError ArenaAllocator := do
  validateSpecs specs
  match (specs.filter fun spec => !spec.overflow).map SlabSpec.slotCapacity |>.max? with
  | none => .error .invalidSlabPlan
  | some maxStandardCapacity =>
      let inner : ArenaInner :=
        { policy, nextSequence := firstSequence.toNat, maxStandardCapacity, slabs := []
          stats := ⟨0, 0, 0, 0, 0⟩ }
      let inner ← specs.foldlM (fun inner spec => inner.addSlab create spec false) inner
      return { inner := { inner with
                 stats := { inner.stats with regions := inner.slabs.length } }
               bytes, views := [] }

variable (arena : ArenaAllocator)

def slabs : List Slab := arena.inner.slabs

/-- The arena with another entry for a slot. -/
def put (slab slot : Nat) (entry : SlotMeta) : ArenaAllocator :=
  { arena with inner := { arena.inner with slabs := setSlot arena.inner.slabs slab slot entry } }

def reserveSlot (slab slot : Nat) (worker : UInt32) : Except ArenaError SlotRef × ArenaAllocator :=
  match arena.slabs[slab]? with
  | none => (.error .staleSlot, arena)
  | some owner =>
      match owner.slots[slot]? with
      | none => (.error .staleSlot, arena)
      | some entry =>
          if entry.state ≠ .free then
            (.error (.invalidTransition "free" entry.state), arena)
          else
            let entry := { entry with state := .writing worker }
            (.ok (owner.slotRef slot entry), arena.put slab slot entry)

/-- The class a reservation grows: the smallest fitting one, or a region for the value alone. -/
def growthSpec (required : Nat) (overflow : Bool) : Except ArenaError SlabSpec :=
  let fitting := arena.slabs.filter fun slab =>
    slab.spec.overflow == overflow && required ≤ slab.spec.slotCapacity
  match fitting.argmin fun slab => slab.spec.slotCapacity with
  | some slab => .ok slab.spec
  | none =>
      if 2 ^ Nat.clog 2 required < 2 ^ 64 then .ok ⟨2 ^ Nat.clog 2 required, 1, true⟩
      else .error .sizingOverflow

/-- Some slot of a class is held by a consumer. -/
def consumerHeld (spec : SlabSpec) : Bool :=
  arena.slabs.any fun slab => slab.spec == spec && slab.slots.any fun slot =>
    match slot.state with
    | .delivered _ _ => true
    | _ => false

/-- The counter of reservations that growth met with consumers holding the class. -/
def countHold (required : Nat) (overflow : Bool) (spec : SlabSpec) : ArenaAllocator :=
  let matching := arena.slabs.any fun slab =>
    slab.spec.overflow == overflow && required ≤ slab.spec.slotCapacity
  if matching && arena.consumerHeld spec then
    { arena with inner := { arena.inner with stats := { arena.inner.stats with
      holdEvents := saturatingAdd arena.inner.stats.holdEvents 1 } } }
  else arena

/-- The counter of reservations beyond the fixed classes. -/
def countOverflow (overflow : Bool) : ArenaAllocator :=
  if overflow then
    { arena with inner := { arena.inner with stats := { arena.inner.stats with
      overflowEvents := saturatingAdd arena.inner.stats.overflowEvents 1 } } }
  else arena

def reserve (create : Creation) (required : Nat) (worker : UInt32) :
    Except ArenaError SlotRef × ArenaAllocator :=
  if required = 0 then (.error .invalidSize, arena)
  else
    let overflow := decide (arena.inner.maxStandardCapacity < required)
    let arena := arena.countOverflow overflow
    match findFreeSlot arena.slabs required overflow with
    | some (slab, slot) => arena.reserveSlot slab slot worker
    | none =>
        if arena.inner.policy = .strictError then (.error (.growthDenied required), arena)
        else
          match arena.growthSpec required overflow with
          | .error error => (.error error, arena)
          | .ok spec =>
              let arena := arena.countHold required overflow spec
              match arena.inner.addSlab create spec true with
              | .error error => (.error error, arena)
              | .ok inner =>
                  let arena := { arena with inner }
                  arena.reserveSlot (arena.slabs.length - 1) 0 worker

/-- `writing_ptr_len`: the slab, the offset and the length of an exclusive reservation. -/
def writingPtrLen (slot : SlotRef) (worker : UInt32) : Except ArenaError (Nat × Nat × Nat) := do
  let found ← locateSlot arena.slabs slot
  validateWriter found.entry.state worker
  return (found.slab, slot.offset.toNat, slot.capacity.toNat)

/-- The bytes of one slab with others from an offset on. -/
def write (slab start : Nat) (payload : List UInt8) : Nat → Nat → UInt8 :=
  fun region offset =>
    if region = slab ∧ start ≤ offset ∧ offset < start + payload.length then
      payload.getD (offset - start) 0
    else arena.bytes region offset

def commit (slot : SlotRef) (worker : UInt32) (payload : List UInt8) :
    Except ArenaError ArenaAllocator := do
  let found ← locateSlot arena.slabs slot
  validateWriter found.entry.state worker
  if found.owner.spec.slotCapacity < payload.length then
    .error (.slotOverflow found.owner.spec.slotCapacity payload.length)
  else
    let written := { arena with bytes := arena.write found.slab slot.offset.toNat payload }
    .ok (written.put found.slab found.slot { found.entry with state := .ready payload.length })

def publish (slot : SlotRef) (worker : UInt32) (length : Nat) : Except ArenaError ArenaAllocator := do
  let found ← locateSlot arena.slabs slot
  validateWriter found.entry.state worker
  if found.owner.spec.slotCapacity < length then
    .error (.slotOverflow found.owner.spec.slotCapacity length)
  else .ok (arena.put found.slab found.slot { found.entry with state := .ready length })

def cancel (slot : SlotRef) (worker : UInt32) : Except ArenaError ArenaAllocator := do
  let found ← locateSlot arena.slabs slot
  validateWriter found.entry.state worker
  return arena.put found.slab found.slot found.entry.recycle

def deliver (slot : SlotRef) (references : Nat) : Except ArenaError ArenaAllocator := do
  let found ← locateSlot arena.slabs slot
  match found.entry.state with
  | .ready length =>
      let delivered := arena.put found.slab found.slot
        { found.entry with state := .delivered references length }
      .ok { delivered with views := List.replicate references slot ++ arena.views }
  | actual => .error (.invalidTransition "ready" actual)

/-- `DeliveryView::to_vec` -/
def toVec (slot : SlotRef) : Except ArenaError (List UInt8) := do
  let found ← locateSlot arena.slabs slot
  match found.entry.state with
  | .delivered _ length =>
      .ok ((List.range length).map fun index =>
        arena.bytes found.slab (slot.offset.toNat + index))
  | actual => .error (.invalidTransition "delivered" actual)

/-- `DeliveryView::release`, by the reference of the view. -/
def release (slot : SlotRef) : ArenaAllocator :=
  match locateSlot arena.slabs slot with
  | .error _ => arena
  | .ok found =>
      match found.entry.state with
      | .delivered remaining length =>
          if remaining = 1 then arena.put found.slab found.slot found.entry.recycle
          else
            arena.put found.slab found.slot
              { found.entry with state := .delivered (remaining - 1) length }
      | _ => arena

/-- The drop of one of the views that are alive. -/
def drop (view : SlotRef) : ArenaAllocator :=
  if view ∈ arena.views then
    { arena with views := arena.views.erase view }.release view
  else arena

def poisonSlot (worker : UInt32) (slot : SlotMeta) : SlotMeta :=
  if slot.state = .writing worker then { slot with state := .poisoned } else slot

/-- The references of the slots a worker was writing. -/
def writtenBy (worker : UInt32) : List SlotRef :=
  arena.slabs.flatMap fun slab =>
    (slab.slots.zipIdx.filter fun (slot, _) => slot.state == .writing worker).map
      fun (slot, index) => slab.slotRef index slot

def poisonWriter (worker : UInt32) : List SlotRef × ArenaAllocator :=
  let poisoned := arena.writtenBy worker
  let slabs := arena.inner.slabs.map fun slab =>
    { slab with slots := slab.slots.map (poisonSlot worker) }
  (poisoned, { arena with inner := { arena.inner with
    slabs
    stats := { arena.inner.stats with
      poisonedSlots := saturatingAdd arena.inner.stats.poisonedSlots poisoned.length } } })

def reclaimPoisoned (slot : SlotRef) : Except ArenaError ArenaAllocator := do
  let found ← locateSlot arena.slabs slot
  if found.entry.state ≠ .poisoned then
    .error (.invalidTransition "poisoned" found.entry.state)
  else
    let arena := arena.put found.slab found.slot found.entry.recycle
    .ok { arena with inner := { arena.inner with stats := { arena.inner.stats with
      poisonedSlots := arena.inner.stats.poisonedSlots - 1 } } }

end ArenaAllocator

/-! ### Calls -/

inductive ArenaCall where
  | reserve (create : Creation) (required : Nat) (worker : UInt32)
  | commit (slot : SlotRef) (worker : UInt32) (payload : List UInt8)
  | publish (slot : SlotRef) (worker : UInt32) (length : Nat)
  | cancel (slot : SlotRef) (worker : UInt32)
  | deliver (slot : SlotRef) (references : Nat) (nonzero : 0 < references)
  | drop (view : SlotRef)
  | poisonWriter (worker : UInt32)
  | reclaimPoisoned (slot : SlotRef)

/-- A call that changes nothing where it fails. -/
def ArenaAllocator.attempt (arena : ArenaAllocator) (result : Except ArenaError ArenaAllocator) :
    Except ArenaError Unit × ArenaAllocator :=
  match result with
  | .ok after => (.ok (), after)
  | .error error => (.error error, arena)

/-- The answer of a call, its references left out, and the arena after it. -/
def ArenaAllocator.call (arena : ArenaAllocator) : ArenaCall → Except ArenaError Unit × ArenaAllocator
  | .reserve create required worker =>
      let (answer, after) := arena.reserve create required worker
      (answer.map fun _ => (), after)
  | .commit slot worker payload => arena.attempt (arena.commit slot worker payload)
  | .publish slot worker length => arena.attempt (arena.publish slot worker length)
  | .cancel slot worker => arena.attempt (arena.cancel slot worker)
  | .deliver slot references _ => arena.attempt (arena.deliver slot references)
  | .drop view => (.ok (), arena.drop view)
  | .poisonWriter worker => (.ok (), (arena.poisonWriter worker).2)
  | .reclaimPoisoned slot => arena.attempt (arena.reclaimPoisoned slot)

end Hyperloader.Arena
