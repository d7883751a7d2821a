/-
Module: Hyperloader.Arena.Turn
Purpose: Everything one call of the allocator can do, and the invariant each of its turns keeps.
Trusted boundary: none
Main exports: Core, Core.Sound, Turn, reserve_cases, call_turn, Turn.sound
-/
import Hyperloader.Arena.Slots

namespace Hyperloader.Arena

open Foundations
open Transport (SlotRef)

/-! ### What one call does -/

/-- What the calls of an allocator are about: its slabs, the bytes behind them, the views that
are alive and the counter of poisoned slots. -/
structure Core where
  nextSequence : Nat
  slabs : List Slab
  bytes : Nat → Nat → UInt8
  views : List SlotRef
  poisoned : Nat

def ArenaAllocator.core (arena : ArenaAllocator) : Core where
  nextSequence := arena.inner.nextSequence
  slabs := arena.inner.slabs
  bytes := arena.bytes
  views := arena.views
  poisoned := arena.inner.stats.poisonedSlots

namespace Core

def put (core : Core) (slab slot : Nat) (entry : SlotMeta) : Core :=
  { core with slabs := setSlot core.slabs slab slot entry }

/-- The bytes of one slab with others from an offset on. -/
def write (core : Core) (slab start : Nat) (payload : List UInt8) : Core :=
  { core with
    bytes := fun region offset =>
      if region = slab ∧ start ≤ offset ∧ offset < start + payload.length then
        payload.getD (offset - start) 0
      else core.bytes region offset }

/-- Another slab of free slots. -/
def grow (core : Core) (spec : SlabSpec) : Core :=
  { core with
    nextSequence := core.nextSequence + 1
    slabs := core.slabs ++ [⟨spec, UInt16.ofNat core.nextSequence,
      spec.slotCapacity * spec.slotsPerSlab.toNat, newSlots spec.slotsPerSlab⟩] }

/-- What holds of every core a run reaches. -/
structure Sound (first : Nat) (core : Core) : Prop where
  planned : Planned first core.slabs
  next : core.nextSequence = first + core.slabs.length
  balanced : ∀ view, core.views.count view = owed core.slabs view
  positive : ∀ slab slot entry, slotAt core.slabs slab slot = some entry →
    ∀ remaining length, entry.state = .delivered remaining length → 0 < remaining
  poisoned : core.poisoned = poisonedCount core.slabs

end Core

/-- Growth the plan has room for. -/
structure Growable (core : Core) (spec : SlabSpec) : Prop where
  limit : core.nextSequence ≤ MAX_REGION_SEQUENCE
  small : spec.slotCapacity * spec.slotsPerSlab.toNat < 2 ^ 64
  capacity : 0 < spec.slotCapacity
  slots : 0 < spec.slotsPerSlab.toNat

/-- A core in which a reservation finds a slot: as it was, or with one more slab. -/
inductive Grown (core : Core) : Core → Prop
  | kept : Grown core core
  | grown {spec : SlabSpec} (growable : Growable core spec) : Grown core (core.grow spec)

/-- Everything a call that does not fail can do. -/
inductive Turn (core : Core) : ArenaCall → Core → Prop
  | reserved {create : Creation} {required : Nat} {worker : UInt32} {grown : Core}
      {ref : SlotRef} {slab slot : Nat} {entry : SlotMeta} (growth : Grown core grown)
      (current : Current grown.slabs ref slab slot entry) (free : entry.state = .free) :
      Turn core (.reserve create required worker)
        (grown.put slab slot { entry with state := .writing worker })
  | committed {ref : SlotRef} {worker : UInt32} {payload : List UInt8} {slab slot : Nat}
      {owner : Slab} {entry : SlotMeta} (owned : core.slabs[slab]? = some owner)
      (current : Current core.slabs ref slab slot entry) (writing : entry.state = .writing worker)
      (fits : payload.length ≤ owner.spec.slotCapacity) :
      Turn core (.commit ref worker payload)
        ((core.write slab ref.offset.toNat payload).put slab slot
          { entry with state := .ready payload.length })
  | published {ref : SlotRef} {worker : UInt32} {length slab slot : Nat} {entry : SlotMeta}
      (current : Current core.slabs ref slab slot entry)
      (writing : entry.state = .writing worker) :
      Turn core (.publish ref worker length)
        (core.put slab slot { entry with state := .ready length })
  | cancelled {ref : SlotRef} {worker : UInt32} {slab slot : Nat} {entry : SlotMeta}
      (current : Current core.slabs ref slab slot entry)
      (writing : entry.state = .writing worker) :
      Turn core (.cancel ref worker) (core.put slab slot entry.recycle)
  | delivered {ref : SlotRef} {references length slab slot : Nat} {nonzero : 0 < references}
      {entry : SlotMeta} (current : Current core.slabs ref slab slot entry)
      (ready : entry.state = .ready length) :
      Turn core (.deliver ref references nonzero)
        (Core.put { core with views := List.replicate references ref ++ core.views }
          slab slot { entry with state := .delivered references length })
  | absent {view : SlotRef} (dead : view ∉ core.views) : Turn core (.drop view) core
  | dropped {view : SlotRef} {remaining length slab slot : Nat} {entry : SlotMeta}
      (alive : view ∈ core.views) (current : Current core.slabs view slab slot entry)
      (held : entry.state = .delivered remaining length) :
      Turn core (.drop view)
        (Core.put { core with views := core.views.erase view } slab slot
          (if remaining = 1 then entry.recycle
            else { entry with state := .delivered (remaining - 1) length }))
  | poisoned (worker : UInt32) :
      Turn core (.poisonWriter worker)
        { core with
          slabs := core.slabs.map fun slab =>
            { slab with slots := slab.slots.map (ArenaAllocator.poisonSlot worker) }
          poisoned := saturatingAdd core.poisoned
            ((core.slabs.flatMap Slab.slots).countP fun slot => slot.state == .writing worker) }
  | reclaimed {ref : SlotRef} {slab slot : Nat} {entry : SlotMeta}
      (current : Current core.slabs ref slab slot entry) (lost : entry.state = .poisoned) :
      Turn core (.reclaimPoisoned ref)
        (Core.put { core with poisoned := core.poisoned - 1 } slab slot entry.recycle)

section Calls

variable {arena : ArenaAllocator} {first : Nat}

theorem core_put (slab slot : Nat) (entry : SlotMeta) :
    (arena.put slab slot entry).core = arena.core.put slab slot entry := rfl

variable {worker : UInt32}

theorem validateWriter_ok_iff {state : SlotState} :
    validateWriter state worker = .ok () ↔ state = .writing worker := by
  cases state with
  | writing expected =>
      rw [SlotState.writing.injEq]
      unfold validateWriter
      dsimp only
      split
      · rename_i different
        exact iff_of_false nofun different
      · rename_i same
        exact iff_of_true rfl (not_not.mp same)
  | free | ready length | delivered remaining length | poisoned => exact iff_of_false nofun nofun

variable {ref : SlotRef} {after : ArenaAllocator}

section

variable (planned : Planned first arena.slabs)

include planned

theorem turn_commit {payload : List UInt8} (done : arena.commit ref worker payload = .ok after) :
    Turn arena.core (.commit ref worker payload) after.core := by
  unfold ArenaAllocator.commit at done
  obtain ⟨found, located, done⟩ := bind_ok_iff.mp done
  obtain ⟨⟨⟩, writing, done⟩ := bind_ok_iff.mp done
  obtain ⟨fits, done⟩ := if_error_ok_iff.mp done
  cases Except.ok.inj done
  obtain ⟨owned, current⟩ := (locateSlot_ok_iff planned).mp located
  exact .committed owned current (validateWriter_ok_iff.mp writing) (Nat.not_lt.mp fits)

theorem turn_publish {length : Nat} (done : arena.publish ref worker length = .ok after) :
    Turn arena.core (.publish ref worker length) after.core := by
  unfold ArenaAllocator.publish at done
  obtain ⟨found, located, done⟩ := bind_ok_iff.mp done
  obtain ⟨⟨⟩, writing, done⟩ := bind_ok_iff.mp done
  obtain ⟨-, done⟩ := if_error_ok_iff.mp done
  cases Except.ok.inj done
  obtain ⟨-, current⟩ := (locateSlot_ok_iff planned).mp located
  exact .published current (validateWriter_ok_iff.mp writing)

theorem turn_cancel (done : arena.cancel ref worker = .ok after) :
    Turn arena.core (.cancel ref worker) after.core := by
  unfold ArenaAllocator.cancel at done
  obtain ⟨found, located, done⟩ := bind_ok_iff.mp done
  obtain ⟨⟨⟩, writing, done⟩ := bind_ok_iff.mp done
  cases Except.ok.inj done
  obtain ⟨-, current⟩ := (locateSlot_ok_iff planned).mp located
  exact .cancelled current (validateWriter_ok_iff.mp writing)

theorem turn_deliver {references : Nat} (nonzero : 0 < references)
    (done : arena.deliver ref references = .ok after) :
    Turn arena.core (.deliver ref references nonzero) after.core := by
  unfold ArenaAllocator.deliver at done
  obtain ⟨found, located, done⟩ := bind_ok_iff.mp done
  obtain ⟨-, current⟩ := (locateSlot_ok_iff planned).mp located
  split at done
  · rename_i length ready
    cases Except.ok.inj done
    exact .delivered current ready
  · nomatch done

theorem turn_reclaim (done : arena.reclaimPoisoned ref = .ok after) :
    Turn arena.core (.reclaimPoisoned ref) after.core := by
  unfold ArenaAllocator.reclaimPoisoned at done
  obtain ⟨found, located, done⟩ := bind_ok_iff.mp done
  obtain ⟨lost, done⟩ := if_error_ok_iff.mp done
  cases Except.ok.inj done
  obtain ⟨-, current⟩ := (locateSlot_ok_iff planned).mp located
  exact .reclaimed current (not_not.mp lost)

end

theorem turn_drop (sound : Core.Sound first arena.core) (view : SlotRef) :
    Turn arena.core (.drop view) (arena.drop view).core := by
  unfold ArenaAllocator.drop
  split
  · rename_i alive
    have some : owed arena.core.slabs view ≠ 0 := by
      rw [← sound.balanced view]
      exact Nat.ne_of_gt (List.count_pos_iff.mpr alive)
    obtain ⟨slab, slot, entry, current, waits⟩ := current_of_observed sound.planned some
    obtain ⟨owner, -, located⟩ := current.located sound.planned
    have found : locateSlot { arena with views := arena.views.erase view }.slabs view =
      .ok ⟨slab, slot, owner, entry⟩ := located
    unfold ArenaAllocator.release
    rw [found]
    dsimp only
    obtain ⟨remaining, length, held⟩ :=
      delivered_of_remaining fun none => some (waits.trans none)
    rw [held]
    have turned := Turn.dropped alive current held
    dsimp only
    split at turned
    · rename_i last
      rw [if_pos last]
      exact turned
    · rename_i more
      rw [if_neg more]
      exact turned
  · rename_i dead
    exact .absent dead

theorem length_writtenBy (worker : UInt32) :
    (arena.writtenBy worker).length =
      (arena.slabs.flatMap Slab.slots).countP fun slot => slot.state == .writing worker := by
  unfold ArenaAllocator.writtenBy
  rw [List.length_flatMap, List.countP_flatMap]
  congr 1
  apply List.map_congr_left
  intro slab _
  rw [List.length_map, ← List.countP_eq_length_filter, Function.comp_apply]
  have entries := @List.countP_map _ _ (fun slot : SlotMeta => slot.state == .writing worker)
    Prod.fst slab.slots.zipIdx
  rw [List.zipIdx_map_fst] at entries
  exact entries.symm

theorem turn_poison (worker : UInt32) :
    Turn arena.core (.poisonWriter worker) (arena.poisonWriter worker).2.core := by
  have turned := @Turn.poisoned arena.core worker
  rw [show (arena.core.slabs.flatMap Slab.slots).countP (fun slot => slot.state == .writing worker)
    = (arena.writtenBy worker).length from (length_writtenBy worker).symm] at turned
  exact turned

/-! ### Reservations -/

/-- A class a reservation can use. -/
def Slab.Serves (slab : Slab) (required : Nat) (overflow : Bool) : Prop :=
  slab.spec.overflow = overflow ∧ required ≤ slab.spec.slotCapacity

variable {overflow : Bool}

variable {required : Nat} {slabs : List Slab}

theorem mem_free_iff {capacity slab slot : Nat} :
    (capacity, slab, slot) ∈ ((slabs.zipIdx.filter fun (slab, _) =>
        slab.spec.overflow == overflow && required ≤ slab.spec.slotCapacity).filterMap
      fun (slab, slabIndex) =>
        (slab.slots.findIdx? fun slot => slot.state == .free).map fun slotIndex =>
          (slab.spec.slotCapacity, slabIndex, slotIndex)) ↔
      ∃ owner, slabs[slab]? = some owner ∧ owner.Serves required overflow ∧
        owner.slots.findIdx? (fun slot => slot.state == .free) = some slot ∧
          capacity = owner.spec.slotCapacity := by
  constructor
  · intro member
    obtain ⟨⟨owner, index⟩, filtered, mapped⟩ := List.mem_filterMap.mp member
    obtain ⟨listed, serves⟩ := List.mem_filter.mp filtered
    obtain ⟨position, found, same⟩ := Option.map_eq_some_iff.mp mapped
    obtain ⟨rfl, rfl, rfl⟩ : owner.spec.slotCapacity = capacity ∧ index = slab ∧
        position = slot := by
      simpa using same
    have isOwner := List.mem_zipIdx_iff_getElem?.mp listed
    have both : owner.spec.overflow = overflow ∧ required ≤ owner.spec.slotCapacity := by
      simpa using serves
    exact ⟨owner, isOwner, both, found, rfl⟩
  · rintro ⟨owner, isOwner, ⟨flag, fits⟩, found, rfl⟩
    apply List.mem_filterMap.mpr
    refine ⟨(owner, slab), List.mem_filter.mpr ⟨List.mem_zipIdx_iff_getElem?.mpr isOwner, ?_⟩, ?_⟩
    · simp [flag, fits]
    · dsimp only
      rw [found]
      rfl

theorem findFreeSlot_some {slab slot : Nat}
    (found : findFreeSlot slabs required overflow = some (slab, slot)) :
    ∃ owner entry, slabs[slab]? = some owner ∧ owner.Serves required overflow ∧
      owner.slots[slot]? = some entry ∧ entry.state = .free := by
  unfold findFreeSlot at found
  obtain ⟨⟨capacity, slab', slot'⟩, least, same⟩ := Option.map_eq_some_iff.mp found
  obtain ⟨rfl, rfl⟩ : slab' = slab ∧ slot' = slot := by simpa using same
  obtain ⟨owner, isOwner, serves, position, -⟩ := mem_free_iff.mp (List.argmin_mem least)
  obtain ⟨inside, free, -⟩ := List.findIdx?_eq_some_iff_getElem.mp position
  exact ⟨owner, owner.slots[slot'], isOwner, serves, List.getElem?_eq_getElem inside,
    beq_iff_eq.mp free⟩

/-- Without a free slot every slot of every fitting class is taken. -/
theorem findFreeSlot_none (none : findFreeSlot slabs required overflow = none) :
    ∀ owner ∈ slabs, owner.Serves required overflow →
      ∀ entry ∈ owner.slots, entry.state ≠ .free := by
  intro owner member serves entry inside free
  obtain ⟨slab, isOwner⟩ := List.mem_iff_getElem?.mp member
  have some : owner.slots.findIdx? (fun slot => slot.state == .free) ≠ Option.none := by
    intro missing
    have every := List.findIdx?_eq_none_iff.mp missing entry inside
    rw [free] at every
    exact Bool.false_ne_true every.symm
  obtain ⟨slot, position⟩ := Option.ne_none_iff_exists'.mp some
  have candidate := mem_free_iff.mpr ⟨owner, isOwner, serves, position, rfl⟩
  unfold findFreeSlot at none
  have empty := List.argmin_eq_none.mp (Option.map_eq_none_iff.mp none)
  rw [empty] at candidate
  exact List.not_mem_nil candidate

variable {spec : SlabSpec}

theorem planned_grow {core : Core} (planned : Planned first core.slabs)
    (next : core.nextSequence = first + core.slabs.length) (growable : Growable core spec) :
    Planned first (core.grow spec).slabs := by
  have limit := growable.limit
  refine ⟨fun slab member => ?_, fun index slab isSlab => ?_, ?_⟩
  · rcases List.mem_append.mp member with old | new
    · exact planned.sound slab old
    · cases List.mem_singleton.mp new
      exact ⟨rfl, growable.small, growable.capacity, List.length_replicate,
        List.length_replicate.symm ▸ growable.slots⟩
  · unfold Core.grow at isSlab
    rw [List.getElem?_append] at isSlab
    split at isSlab
    · exact planned.numbered index slab isSlab
    · rename_i past
      obtain ⟨last, -⟩ := List.getElem?_eq_some_iff.mp isSlab
      rw [List.length_singleton] at last
      have here : index = core.slabs.length := by omega
      subst here
      rw [Nat.sub_self] at isSlab
      cases Option.some.inj isSlab
      rw [next]
  · unfold Core.grow
    rw [List.length_append, List.length_singleton]
    omega

theorem reserveSlot_of_free {owner : Slab} {entry : SlotMeta} {slab slot : Nat}
    (isOwner : arena.slabs[slab]? = some owner) (member : owner.slots[slot]? = some entry)
    (free : entry.state = .free) (worker : UInt32) :
    arena.reserveSlot slab slot worker =
      (.ok (owner.slotRef slot { entry with state := .writing worker }),
        arena.put slab slot { entry with state := .writing worker }) := by
  unfold ArenaAllocator.reserveSlot
  simp only [isOwner, member, free]
  rw [if_neg fun different => different rfl]

theorem core_countOverflow (overflow : Bool) : (arena.countOverflow overflow).core = arena.core := by
  unfold ArenaAllocator.countOverflow
  split <;> rfl

theorem core_countHold (required : Nat) (overflow : Bool) (spec : SlabSpec) :
    (arena.countHold required overflow spec).core = arena.core := by
  unfold ArenaAllocator.countHold
  dsimp only
  split <;> rfl

theorem addSlab_ok {inner after : ArenaInner} {create : Creation} {growth : Bool}
    (done : inner.addSlab create spec growth = .ok after) :
    inner.nextSequence ≤ MAX_REGION_SEQUENCE ∧
      spec.slotCapacity * spec.slotsPerSlab.toNat < 2 ^ 64 ∧
        after.policy = inner.policy ∧ after.maxStandardCapacity = inner.maxStandardCapacity ∧
        after.nextSequence = inner.nextSequence + 1 ∧
        after.slabs = inner.slabs ++ [⟨spec, UInt16.ofNat inner.nextSequence,
          spec.slotCapacity * spec.slotsPerSlab.toNat, newSlots spec.slotsPerSlab⟩] ∧
        after.stats.poisonedSlots = inner.stats.poisonedSlots := by
  unfold ArenaInner.addSlab at done
  obtain ⟨limit, done⟩ := if_error_ok_iff.mp done
  obtain ⟨small, done⟩ := if_error_ok_iff.mp done
  split at done
  · nomatch done
  · cases Except.ok.inj done
    exact ⟨Nat.not_lt.mp limit, Nat.not_le.mp small, rfl, rfl, rfl, rfl, rfl⟩

/-- A class that grows is one of the slabs there are, or made for the value. -/
theorem growthSpec_ok (planned : Planned first arena.slabs)
    (chosen : arena.growthSpec required overflow = .ok spec) :
    required ≤ spec.slotCapacity ∧ 0 < spec.slotsPerSlab.toNat ∧
      ((∃ owner ∈ arena.slabs, owner.spec = spec ∧ owner.Serves required overflow) ∨
        (∀ owner ∈ arena.slabs, ¬owner.Serves required overflow) ∧
          spec = ⟨2 ^ Nat.clog 2 required, 1, true⟩) := by
  unfold ArenaAllocator.growthSpec at chosen
  dsimp only at chosen
  split at chosen
  · rename_i slab least
    cases Except.ok.inj chosen
    obtain ⟨member, serves⟩ := List.mem_filter.mp (List.argmin_mem least)
    have both : slab.Serves required overflow := by
      unfold Slab.Serves
      simpa using serves
    have sound := planned.sound slab member
    have full := sound.full
    exact ⟨both.2, full ▸ sound.nonempty, Or.inl ⟨slab, member, rfl, both⟩⟩
  · rename_i none
    split at chosen
    · cases Except.ok.inj chosen
      have one : 0 < (1 : UInt32).toNat := by decide
      refine ⟨Nat.le_pow_clog (by decide) required, one, Or.inr ⟨?_, rfl⟩⟩
      intro owner member serves
      have empty := List.argmin_eq_none.mp none
      have listed : owner ∈ arena.slabs.filter fun slab =>
          slab.spec.overflow == overflow && required ≤ slab.spec.slotCapacity := by
        apply List.mem_filter.mpr ⟨member, ?_⟩
        simp [serves.1, serves.2]
      rw [empty] at listed
      exact List.not_mem_nil listed
    · nomatch chosen

/-- What a reservation returns and leaves: an error and every slot as it was, or a slot that was
free, in a slab of its own class or in a new one. -/
theorem reserve_cases (planned : Planned first arena.slabs) (create : Creation)
    (required : Nat) (worker : UInt32) :
    let reserved := arena.reserve create required worker
    ((∃ error, reserved.1 = .error error) ∧ reserved.2.core = arena.core) ∨
      ∃ ref grown slab slot owner entry, reserved.1 = .ok ref ∧ Grown arena.core grown ∧
        grown.slabs[slab]? = some owner ∧ required ≤ owner.spec.slotCapacity ∧
        Current grown.slabs ref slab slot entry ∧ entry.state = .free ∧
        reserved.2.core = grown.put slab slot { entry with state := .writing worker } := by
  intro reserved
  have named {slabs : List Slab} {owner : Slab} {entry : SlotMeta} {slab slot : Nat}
      (isOwner : slabs[slab]? = some owner) (member : owner.slots[slot]? = some entry) :
      Current slabs (owner.slotRef slot { entry with state := .writing worker }) slab slot
        entry := current_iff.mpr ⟨owner, isOwner, member, rfl⟩
  unfold reserved ArenaAllocator.reserve
  split
  · exact Or.inl ⟨⟨_, rfl⟩, rfl⟩
  rename_i positive
  dsimp only
  generalize decide (arena.inner.maxStandardCapacity < required) = overflow
  have counted := @core_countOverflow arena overflow
  have slabs : (arena.countOverflow overflow).slabs = arena.slabs := congrArg Core.slabs counted
  split
  · rename_i slab slot found
    obtain ⟨owner, entry, isOwner, serves, member, free⟩ := findFreeSlot_some found
    rw [reserveSlot_of_free isOwner member free]
    rw [slabs] at isOwner
    refine Or.inr ⟨_, arena.core, slab, slot, owner, entry, rfl, .kept, isOwner, serves.2,
      named isOwner member, free, ?_⟩
    rw [core_put, counted]
  · split
    · exact Or.inl ⟨⟨_, rfl⟩, counted⟩
    split
    · exact Or.inl ⟨⟨_, rfl⟩, counted⟩
    rename_i spec chosen
    have held := (@core_countHold (arena.countOverflow overflow) required overflow spec).trans
      counted
    generalize (arena.countOverflow overflow).countHold required overflow spec = counting at held
    split
    · exact Or.inl ⟨⟨_, rfl⟩, held⟩
    · rename_i inner added
      obtain ⟨limit, small, -, -, following, extended, poisoned⟩ := addSlab_ok added
      have before : counting.inner.slabs = arena.inner.slabs := congrArg Core.slabs held
      have number : counting.inner.nextSequence = arena.inner.nextSequence :=
        congrArg Core.nextSequence held
      obtain ⟨fits, slots, origin⟩ := growthSpec_ok (by rw [slabs]; exact planned) chosen
      rw [number] at limit
      have growable : Growable arena.core spec :=
        ⟨limit, small, Nat.lt_of_lt_of_le (Nat.pos_of_ne_zero positive) fits, slots⟩
      have grown : ({ counting with inner } : ArenaAllocator).core = arena.core.grow spec := by
        unfold ArenaAllocator.core Core.grow
        rw [extended, following, poisoned, before, number]
        have views := congrArg Core.views held
        have bytes := congrArg Core.bytes held
        have lost := congrArg Core.poisoned held
        simp only [ArenaAllocator.core] at views bytes lost ⊢
        rw [views, bytes, lost]
      have all : inner.slabs = (arena.core.grow spec).slabs := congrArg Core.slabs grown
      have last : inner.slabs[inner.slabs.length - 1]? =
          some ⟨spec, UInt16.ofNat arena.inner.nextSequence,
            spec.slotCapacity * spec.slotsPerSlab.toNat, newSlots spec.slotsPerSlab⟩ := by
        rw [extended, number, List.length_append, List.length_singleton, Nat.add_sub_cancel,
          List.getElem?_concat_length]
      have fresh : (newSlots spec.slotsPerSlab)[0]? = some ⟨0, .free⟩ := by
        unfold newSlots
        rw [List.getElem?_replicate, if_pos slots]
      have done := @reserveSlot_of_free { counting with inner } _ _
        (ArenaAllocator.slabs { counting with inner }).length.pred 0 last fresh rfl worker
      rw [Nat.pred_eq_sub_one] at done
      have new : (arena.core.grow spec).slabs[inner.slabs.length - 1]? =
          some ⟨spec, UInt16.ofNat arena.inner.nextSequence,
            spec.slotCapacity * spec.slotsPerSlab.toNat, newSlots spec.slotsPerSlab⟩ := by
        rw [← all]
        exact last
      rw [done]
      refine Or.inr ⟨_, arena.core.grow spec, inner.slabs.length - 1, 0, _, _, rfl,
        .grown growable, new, fits, named new fresh, rfl, ?_⟩
      rw [core_put, grown]
      rfl

/-- One call fails and leaves everything, or is one of the turns. -/
theorem call_turn (sound : Core.Sound first arena.core) (call : ArenaCall) :
    ((∃ error, (arena.call call).1 = .error error) ∧ (arena.call call).2.core = arena.core) ∨
      (arena.call call).1 = .ok () ∧ Turn arena.core call (arena.call call).2.core := by
  have planned : Planned first arena.slabs := sound.planned
  have attempted {result : Except ArenaError ArenaAllocator}
      (turned : ∀ after, result = .ok after → Turn arena.core call after.core) :
      ((∃ error, (arena.attempt result).1 = .error error) ∧
          (arena.attempt result).2.core = arena.core) ∨
        (arena.attempt result).1 = .ok () ∧
          Turn arena.core call (arena.attempt result).2.core := by
    unfold ArenaAllocator.attempt
    cases result with
    | error error => exact Or.inl ⟨⟨error, rfl⟩, rfl⟩
    | ok after => exact Or.inr ⟨rfl, turned after rfl⟩
  cases call with
  | reserve create required worker =>
      have split (reserved : Except ArenaError SlotRef × ArenaAllocator)
          (isReserved : arena.reserve create required worker = reserved) :
          arena.call (.reserve create required worker) =
            (reserved.1.map fun _ => (), reserved.2) := by
        rw [← isReserved]
        rfl
      rw [split _ rfl]
      rcases reserve_cases planned create required worker with
        ⟨⟨error, failed⟩, same⟩ |
          ⟨ref, grown, slab, slot, owner, entry, done, growth, -, -, current, free, after⟩
      · rw [failed, same]
        exact Or.inl ⟨⟨error, rfl⟩, rfl⟩
      · rw [done, after]
        exact Or.inr ⟨rfl, .reserved growth current free⟩
  | commit slot worker payload => exact attempted fun after => turn_commit planned
  | publish slot worker length => exact attempted fun after => turn_publish planned
  | cancel slot worker => exact attempted fun after => turn_cancel planned
  | deliver slot references nonzero => exact attempted fun after => turn_deliver planned nonzero
  | drop view => exact Or.inr ⟨rfl, turn_drop sound view⟩
  | poisonWriter worker => exact Or.inr ⟨rfl, turn_poison worker⟩
  | reclaimPoisoned slot => exact attempted fun after => turn_reclaim planned

end Calls

/-! ### Every turn keeps the invariant -/

variable {ref : SlotRef} {slabs : List Slab} {slab slot : Nat} {entry : SlotMeta}

theorem Current.append (current : Current slabs ref slab slot entry) (more : List Slab) :
    Current (slabs ++ more) ref slab slot entry := by
  obtain ⟨owner, isOwner, member, same⟩ := current_iff.mp current
  have inside := (List.getElem?_eq_some_iff.mp isOwner).1
  exact current_iff.mpr ⟨owner, by rwa [List.getElem?_append_left inside], member, same⟩

/-- A slot of the old slabs, or one of the new. -/
theorem slotAt_append {more : Slab} (found : slotAt (slabs ++ [more]) slab slot = some entry) :
    slotAt slabs slab slot = some entry ∨ entry ∈ more.slots := by
  obtain ⟨owner, isOwner, member⟩ := slotAt_eq_some.mp found
  rw [List.getElem?_append] at isOwner
  split at isOwner
  · exact Or.inl (slotAt_eq_some.mpr ⟨owner, isOwner, member⟩)
  · have listed := List.mem_singleton.mp (List.mem_of_getElem? isOwner)
    subst listed
    exact Or.inr (List.mem_of_getElem? member)

theorem state_of_newSlots {count : UInt32} (member : entry ∈ newSlots count) :
    entry.state = .free := by
  rw [List.eq_of_mem_replicate member]

theorem Current.of_append {more : Slab} (current : Current (slabs ++ [more]) ref slab slot entry) :
    Current slabs ref slab slot entry ∨ entry ∈ more.slots := by
  obtain ⟨owner, isOwner, member, same⟩ := current_iff.mp current
  rw [List.getElem?_append] at isOwner
  split at isOwner
  · exact Or.inl (current_iff.mpr ⟨owner, isOwner, member, same⟩)
  · have listed := List.mem_singleton.mp (List.mem_of_getElem? isOwner)
    subst listed
    exact Or.inr (List.mem_of_getElem? member)

variable {first : Nat}

theorem observed_grow {Observation : Type*} {look : SlotState → Observation} {core : Core}
    (planned : Planned first core.slabs) {spec : SlabSpec}
    (after : Planned first (core.grow spec).slabs) (view : SlotRef) :
    observed look (look .free) (core.grow spec).slabs view =
      observed look (look .free) core.slabs view := by
  by_cases held : ∃ slab slot entry, Current core.slabs view slab slot entry
  · obtain ⟨slab, slot, entry, current⟩ := held
    rw [observed_of_current planned current, observed_of_current after (current.append _)]
  · have stale : ∀ slab slot entry, ¬Current core.slabs view slab slot entry :=
      fun slab slot entry current => held ⟨slab, slot, entry, current⟩
    rw [observed_of_stale planned stale]
    by_contra some
    obtain ⟨slab, slot, entry, current, sees⟩ := current_of_observed after some
    rcases current.of_append with old | new
    · exact stale slab slot entry old
    · rw [sees, state_of_newSlots new] at some
      exact some rfl

theorem Grown.sound {core grown : Core} (sound : Core.Sound first core) (growth : Grown core grown) :
    Core.Sound first grown := by
  cases growth with
  | kept => exact sound
  | @grown spec growable =>
      have planned := planned_grow sound.planned sound.next growable
      refine ⟨planned, ?_, fun view => ?_, fun slab slot entry found => ?_, ?_⟩
      · unfold Core.grow
        rw [List.length_append, List.length_singleton, ← Nat.add_assoc, sound.next]
      · exact (sound.balanced view).trans (observed_grow sound.planned planned view).symm
      · rcases slotAt_append found with old | new
        · exact sound.positive slab slot entry old
        · rw [state_of_newSlots new]
          nofun
      · show core.poisoned = _
        rw [sound.poisoned]
        unfold poisonedCount Core.grow
        have free : (newSlots spec.slotsPerSlab).countP poisonedState = 0 := by
          apply List.countP_eq_zero.mpr
          intro entry member
          unfold poisonedState
          rw [state_of_newSlots member]
          exact Bool.false_ne_true
        rw [List.flatMap_append, List.countP_append, List.flatMap_singleton, free, Nat.add_zero]

variable {views : List SlotRef}

/-- A turn on one slot: where it does not set how many views the slot waits for, or sets it to
the views there are, and adjusts the counter, the invariant holds behind it. -/
theorem Core.Sound.put {core : Core} (sound : Core.Sound first core)
    (current : Current core.slabs ref slab slot entry) {entry' : SlotMeta}
    {bytes : Nat → Nat → UInt8} {poisoned : Nat} (balanced : ∀ view, views.count view =
      if refAt core.slabs slab slot entry'.generation = some view then entry'.state.remaining
      else if view = ref then 0 else core.views.count view)
    (positive : ∀ remaining length, entry'.state = .delivered remaining length → 0 < remaining)
    (counted : poisoned + (if poisonedState entry then 1 else 0) =
      core.poisoned + if poisonedState entry' then 1 else 0) :
    Core.Sound first
      (Core.put ⟨core.nextSequence, core.slabs, bytes, views, poisoned⟩ slab slot entry') := by
  refine ⟨planned_setSlot sound.planned entry', ?_, fun view => ?_,
    fun slab' slot' other found => ?_, ?_⟩
  · unfold Core.put setSlot
    rw [List.length_modify]
    exact sound.next
  · show views.count view = observed _ _ (setSlot core.slabs slab slot entry') view
    rw [observed_setSlot sound.planned current, balanced, sound.balanced]
  · unfold Core.put at found
    rw [slotAt_setSlot current.found] at found
    split at found
    · cases Option.some.inj found
      exact positive
    · exact sound.positive slab' slot' other found
  · have change := poisonedCount_setSlot current.found entry'
    have before := sound.poisoned
    show poisoned = poisonedCount (setSlot core.slabs slab slot entry')
    omega

theorem generation_of_refAt {generation : UInt64}
    (named : refAt slabs slab slot generation = some ref) : ref.generation = generation := by
  obtain ⟨owner, -, rfl⟩ := Option.map_eq_some_iff.mp named
  rfl

/-- A reference of another generation of a slot is not the present one of any slot. -/
theorem stale_of_generation (planned : Planned first slabs)
    (found : slotAt slabs slab slot = some entry) {generation : UInt64}
    (named : refAt slabs slab slot generation = some ref) (other : generation ≠ entry.generation) :
    ∀ slab' slot' entry', ¬Current slabs ref slab' slot' entry' := by
  intro slab' slot' entry' current
  have after : Planned first (setSlot slabs slab slot ⟨generation, .free⟩) :=
    planned_setSlot planned _
  have iff {ref' : SlotRef} {slab' slot' : Nat} {other : SlotMeta} :=
    @current_setSlot_iff _ _ _ _ found ⟨generation, .free⟩ ref' slab' slot' other
  have here : Current (setSlot slabs slab slot ⟨generation, .free⟩) ref slab slot
      ⟨generation, .free⟩ := iff.mpr (by rw [if_pos ⟨rfl, rfl⟩]; exact ⟨rfl, named⟩)
  by_cases same : slab' = slab ∧ slot' = slot
  · obtain ⟨rfl, rfl⟩ := same
    cases Option.some.inj (current.found.symm.trans found)
    exact other ((generation_of_refAt named).symm.trans (generation_of_refAt current.named))
  · have there : Current (setSlot slabs slab slot ⟨generation, .free⟩) ref slab' slot' entry' :=
      iff.mpr (by rw [if_neg same]; exact current)
    obtain ⟨sameSlab, sameSlot, -⟩ := there.unique after here
    exact same ⟨sameSlab, sameSlot⟩

theorem recycle_generation_ne (entry : SlotMeta) : entry.recycle.generation ≠ entry.generation := by
  intro same
  have numbers := congrArg UInt64.toNat same
  unfold SlotMeta.recycle at numbers
  rw [UInt64.toNat_add] at numbers
  have one : (1 : UInt64).toNat = 1 := rfl
  omega

section Sound

variable {first : Nat} {core : Core} {ref : SlotRef} {slab slot : Nat} {entry : SlotMeta}

theorem count_of_current (sound : Core.Sound first core)
    (current : Current core.slabs ref slab slot entry) :
    core.views.count ref = entry.state.remaining :=
  (sound.balanced ref).trans (observed_of_current sound.planned current)

/-- The balance behind a turn that keeps the generation. -/
theorem balanced_of_same (current : Current core.slabs ref slab slot entry) {state : SlotState}
    (counted : ∀ view, views.count view =
      if view = ref then state.remaining else core.views.count view) :
    ∀ view, views.count view =
      if refAt core.slabs slab slot entry.generation = some view then state.remaining
      else if view = ref then 0 else core.views.count view := by
  intro view
  rw [counted, current.named]
  by_cases same : view = ref
  · subst same
    rw [if_pos rfl, if_pos rfl]
  · rw [if_neg same, if_neg fun equal => same (Option.some.inj equal).symm, if_neg same]

/-- The balance behind a turn that recycles the slot. -/
theorem balanced_of_recycle (sound : Core.Sound first core)
    (current : Current core.slabs ref slab slot entry)
    (counted : ∀ view, views.count view = if view = ref then 0 else core.views.count view) :
    ∀ view, views.count view =
      if refAt core.slabs slab slot entry.recycle.generation = some view then
        entry.recycle.state.remaining
      else if view = ref then 0 else core.views.count view := by
  intro view
  rw [counted]
  by_cases renewed : refAt core.slabs slab slot entry.recycle.generation = some view
  · have stale := stale_of_generation sound.planned current.found renewed
      (recycle_generation_ne entry)
    have none : core.views.count view = 0 :=
      (sound.balanced view).trans (observed_of_stale sound.planned stale)
    rw [if_pos renewed, none, ite_self]
    rfl
  · rw [if_neg renewed]

/-- The balance behind a turn that leaves the views, on a slot that waits for none. -/
theorem counted_of_idle (sound : Core.Sound first core)
    (current : Current core.slabs ref slab slot entry) (idle : entry.state.remaining = 0)
    (view : SlotRef) : core.views.count view = if view = ref then 0 else core.views.count view := by
  split
  · rename_i same
    rw [same, count_of_current sound current, idle]
  · rfl

/-! ### Poisoning -/

section Poison

variable (worker : UInt32)

def poisonSlab (slab : Slab) : Slab :=
  { slab with slots := slab.slots.map (ArenaAllocator.poisonSlot worker) }

theorem poisonSlot_generation (entry : SlotMeta) :
    (ArenaAllocator.poisonSlot worker entry).generation = entry.generation := by
  unfold ArenaAllocator.poisonSlot
  split <;> rfl

theorem planned_poison (planned : Planned first slabs) :
    Planned first (slabs.map (poisonSlab worker)) := by
  refine ⟨fun after member => ?_, fun index after isAfter => ?_, ?_⟩
  · obtain ⟨before, listed, rfl⟩ := List.mem_map.mp member
    have sound := planned.sound before listed
    have same : (poisonSlab worker before).slots.length = before.slots.length := List.length_map _
    exact ⟨sound.sized, sound.small, sound.positive, same.trans sound.full,
      same.symm ▸ sound.nonempty⟩
  · rw [List.getElem?_map] at isAfter
    obtain ⟨before, isBefore, rfl⟩ := Option.map_eq_some_iff.mp isAfter
    exact planned.numbered index before isBefore
  · rw [List.length_map]
    exact planned.limit

theorem slotAt_poison (slabs : List Slab) (slab slot : Nat) :
    slotAt (slabs.map (poisonSlab worker)) slab slot =
      (slotAt slabs slab slot).map (ArenaAllocator.poisonSlot worker) := by
  unfold slotAt
  rw [List.getElem?_map]
  cases slabs[slab]? with
  | none => rfl
  | some owner => exact List.getElem?_map ..

theorem refAt_poison (slabs : List Slab) : refAt (slabs.map (poisonSlab worker)) = refAt slabs := by
  funext slab slot generation
  unfold refAt
  rw [List.getElem?_map]
  cases slabs[slab]? <;> rfl

theorem current_poison_iff {after : SlotMeta} :
    Current (slabs.map (poisonSlab worker)) ref slab slot after ↔
      ∃ before, Current slabs ref slab slot before ∧
        after = ArenaAllocator.poisonSlot worker before := by
  constructor
  · rintro ⟨found, named⟩
    rw [slotAt_poison] at found
    obtain ⟨before, isBefore, rfl⟩ := Option.map_eq_some_iff.mp found
    rw [refAt_poison, poisonSlot_generation] at named
    exact ⟨before, ⟨isBefore, named⟩, rfl⟩
  · rintro ⟨before, ⟨found, named⟩, rfl⟩
    refine ⟨?_, ?_⟩
    · rw [slotAt_poison, found, Option.map_some]
    · rw [refAt_poison, poisonSlot_generation]
      exact named

/-- A look at the slots behind a poisoning is one at what poisoning makes of each state. -/
theorem observed_poison {Observation : Type*} {look : SlotState → Observation} {idle : Observation}
    (planned : Planned first slabs) (view : SlotRef) :
    observed look idle (slabs.map (poisonSlab worker)) view =
      observed (fun state => look (if state = .writing worker then .poisoned else state)) idle slabs
        view := by
  have after := planned_poison worker planned
  by_cases held : ∃ slab slot entry, Current slabs view slab slot entry
  · obtain ⟨slab, slot, entry, current⟩ := held
    have now := (current_poison_iff worker).mpr ⟨entry, current, rfl⟩
    rw [observed_of_current planned current, observed_of_current after now]
    unfold ArenaAllocator.poisonSlot
    split <;> rfl
  · have stale : ∀ slab slot entry, ¬Current slabs view slab slot entry :=
      fun slab slot entry current => held ⟨slab, slot, entry, current⟩
    rw [observed_of_stale planned stale, observed_of_stale after]
    intro slab slot entry now
    obtain ⟨before, current, -⟩ := (current_poison_iff worker).mp now
    exact stale slab slot before current

theorem owed_poison (planned : Planned first slabs) (view : SlotRef) :
    owed (slabs.map (poisonSlab worker)) view = owed slabs view := by
  have same : (fun state : SlotState =>
      (if state = .writing worker then SlotState.poisoned else state).remaining) =
        SlotState.remaining := by
    funext state
    split
    · rename_i writing
      rw [writing]
      rfl
    · rfl
  show observed _ _ _ _ = _
  rw [observed_poison worker planned, same]

theorem poisonedCount_poison (slabs : List Slab) :
    poisonedCount (slabs.map (poisonSlab worker)) =
      poisonedCount slabs +
        (slabs.flatMap Slab.slots).countP fun slot => slot.state == .writing worker := by
  have slots : (slabs.map (poisonSlab worker)).flatMap Slab.slots =
      (slabs.flatMap Slab.slots).map (ArenaAllocator.poisonSlot worker) := by
    rw [List.flatMap_map, List.map_flatMap]
    rfl
  unfold poisonedCount
  rw [slots]
  induction slabs.flatMap Slab.slots with
  | nil => rfl
  | cons entry rest ih =>
      rw [List.map_cons, List.countP_cons, List.countP_cons, List.countP_cons,
        ih]
      by_cases writing : entry.state = .writing worker
      · have was : poisonedState entry = false := by
          unfold poisonedState
          rw [writing]
          rfl
        have now : poisonedState (ArenaAllocator.poisonSlot worker entry) = true := by
          unfold ArenaAllocator.poisonSlot
          rw [if_pos writing]
          rfl
        have taken : (entry.state == .writing worker) = true := beq_iff_eq.mpr writing
        simp only [was, now, taken, if_true, Bool.false_eq_true, if_false]
        omega
      · have kept : ArenaAllocator.poisonSlot worker entry = entry := by
          unfold ArenaAllocator.poisonSlot
          exact if_neg writing
        have untaken : (entry.state == .writing worker) = false := beq_eq_false_iff_ne.mpr writing
        simp only [kept, untaken, Bool.false_eq_true, if_false]
        omega

theorem Core.Sound.poison (sound : Core.Sound first core) :
    Core.Sound first
      { core with
        slabs := core.slabs.map (poisonSlab worker)
        poisoned := saturatingAdd core.poisoned
          ((core.slabs.flatMap Slab.slots).countP fun slot => slot.state == .writing worker) } := by
  have after := planned_poison worker sound.planned
  refine ⟨after, ?_, fun view => ?_, fun slab slot entry found => ?_, ?_⟩
  · rw [List.length_map]
    exact sound.next
  · rw [owed_poison worker sound.planned]
    exact sound.balanced view
  · rw [slotAt_poison] at found
    obtain ⟨before, isBefore, rfl⟩ := Option.map_eq_some_iff.mp found
    intro remaining length held
    apply sound.positive slab slot before isBefore remaining length
    unfold ArenaAllocator.poisonSlot at held
    split at held
    · nomatch held
    · exact held
  · have count := poisonedCount_poison worker core.slabs
    have small := poisonedCount_le after
    show saturatingAdd core.poisoned _ = poisonedCount (core.slabs.map (poisonSlab worker))
    rw [sound.poisoned]
    unfold saturatingAdd
    omega

end Poison

theorem poisonedState_of_ne (different : entry.state ≠ .poisoned) : poisonedState entry = false :=
  beq_eq_false_iff_ne.mpr different

theorem Turn.sound {call : ArenaCall} {after : Core} (sound : Core.Sound first core)
    (turn : Turn core call after) : Core.Sound first after := by
  cases turn with
  | absent => exact sound
  | @reserved _ _ worker grown _ slab slot entry growth current free =>
      have before := growth.sound sound
      have idle : entry.state.remaining = 0 := by rw [free]; rfl
      have clean : poisonedState entry = false := poisonedState_of_ne (by rw [free]; nofun)
      apply before.put current
      · exact balanced_of_same current (counted_of_idle before current idle)
      · nofun
      · rw [clean]
        rfl
  | @committed _ worker payload slab slot owner entry owned current writing fits =>
      have idle : entry.state.remaining = 0 := by rw [writing]; rfl
      have clean : poisonedState entry = false := poisonedState_of_ne (by rw [writing]; nofun)
      apply sound.put current
      · exact balanced_of_same current (counted_of_idle sound current idle)
      · nofun
      · rw [clean]
        rfl
  | @published _ worker length slab slot entry current writing =>
      have idle : entry.state.remaining = 0 := by rw [writing]; rfl
      have clean : poisonedState entry = false := poisonedState_of_ne (by rw [writing]; nofun)
      apply sound.put current
      · exact balanced_of_same current (counted_of_idle sound current idle)
      · nofun
      · rw [clean]
        rfl
  | @cancelled _ worker slab slot entry current writing =>
      have idle : entry.state.remaining = 0 := by rw [writing]; rfl
      have clean : poisonedState entry = false := poisonedState_of_ne (by rw [writing]; nofun)
      apply sound.put current
      · exact balanced_of_recycle sound current (counted_of_idle sound current idle)
      · nofun
      · rw [clean]
        rfl
  | @delivered ref references length slab slot nonzero entry current ready =>
      have idle : entry.state.remaining = 0 := by rw [ready]; rfl
      have clean : poisonedState entry = false := poisonedState_of_ne (by rw [ready]; nofun)
      apply sound.put current
      · apply balanced_of_same current
        intro view
        rw [List.count_append, List.count_replicate]
        by_cases same : view = ref
        · rw [same, count_of_current sound current, idle, if_pos rfl, if_pos (beq_self_eq_true ref)]
          rfl
        · rw [if_neg same, if_neg fun equal => same (beq_iff_eq.mp equal).symm, Nat.zero_add]
      · rintro remaining _ ⟨⟩
        exact nonzero
      · rw [clean]
        rfl
  | @dropped view remaining length slab slot entry alive current held =>
      have waits : core.views.count view = remaining := by
        rw [count_of_current sound current, held]
        rfl
      have clean : poisonedState entry = false := poisonedState_of_ne (by rw [held]; nofun)
      have counted (other : SlotRef) : (core.views.erase view).count other =
          if other = view then remaining - 1 else core.views.count other := by
        by_cases same : other = view
        · rw [if_pos same, same, List.count_erase_self, waits]
        · rw [if_neg same, List.count_erase_of_ne same]
      by_cases last : remaining = 1
      · rw [if_pos last]
        apply sound.put current
        · apply balanced_of_recycle sound current
          intro other
          rw [counted, last]
        · nofun
        · rw [clean]
          rfl
      · rw [if_neg last]
        have positive := sound.positive slab slot entry current.found remaining length held
        apply sound.put current
        · exact balanced_of_same current counted
        · rintro _ _ ⟨⟩
          omega
        · rw [clean]
          rfl
  | poisoned worker => exact sound.poison worker
  | @reclaimed ref slab slot entry current lost =>
      have idle : entry.state.remaining = 0 := by rw [lost]; rfl
      have taken : poisonedState entry = true := beq_iff_eq.mpr lost
      have some : 0 < core.poisoned := by
        have change := poisonedCount_setSlot current.found entry.recycle
        rw [sound.poisoned]
        unfold poisonedCount
        apply List.countP_pos_iff.mpr
        obtain ⟨owner, isOwner, member⟩ := slotAt_eq_some.mp current.found
        exact ⟨entry, List.mem_flatMap.mpr ⟨owner, List.mem_of_getElem? isOwner,
          List.mem_of_getElem? member⟩, taken⟩
      apply sound.put current
      · exact balanced_of_recycle sound current (counted_of_idle sound current idle)
      · nofun
      · rw [taken, show poisonedState entry.recycle = false from rfl]
        show core.poisoned - 1 + 1 = core.poisoned + 0
        omega

end Sound

/-! ### One slot and the turns of others -/

/-- What a turn does to one slot. -/
inductive SlotTurn (core : Core) (slab slot : Nat) (entry : SlotMeta) :
    ArenaCall → SlotMeta → Prop
  | kept (call : ArenaCall) : SlotTurn core slab slot entry call entry
  | moved (call : ArenaCall) (state : SlotState) :
      SlotTurn core slab slot entry call { entry with state }
  | cancelled {ref : SlotRef} {worker : UInt32} (writing : entry.state = .writing worker) :
      SlotTurn core slab slot entry (.cancel ref worker) entry.recycle
  | dropped {view : SlotRef} {length : Nat} (current : Current core.slabs view slab slot entry)
      (last : entry.state = .delivered 1 length) :
      SlotTurn core slab slot entry (.drop view) entry.recycle
  | reclaimed {ref : SlotRef} (lost : entry.state = .poisoned) :
      SlotTurn core slab slot entry (.reclaimPoisoned ref) entry.recycle

section Slot

variable {core after : Core} {call : ArenaCall} {slab slot : Nat} {entry : SlotMeta}

theorem Grown.keeps_slot {grown : Core} (growth : Grown core grown)
    (found : slotAt core.slabs slab slot = some entry) :
    slotAt grown.slabs slab slot = some entry := by
  cases growth with
  | kept => exact found
  | grown growable =>
      obtain ⟨owner, isOwner, member⟩ := slotAt_eq_some.mp found
      have inside := (List.getElem?_eq_some_iff.mp isOwner).1
      apply slotAt_eq_some.mpr
      refine ⟨owner, ?_, member⟩
      exact (List.getElem?_append_left inside).trans isOwner

/-- A turn on the slot of a reference, seen from any slot. -/
theorem slotTurn_of_put {middle : Core} {slab' slot' : Nat} {other entry' : SlotMeta}
    (current : Current middle.slabs ref slab' slot' other)
    (found : slotAt middle.slabs slab slot = some entry)
    (turned : slab = slab' → slot = slot' → entry = other →
      SlotTurn core slab slot entry call entry') :
    ∃ next, slotAt (middle.put slab' slot' entry').slabs slab slot = some next ∧
      SlotTurn core slab slot entry call next := by
  unfold Core.put
  rw [slotAt_setSlot current.found]
  by_cases same : slab = slab' ∧ slot = slot'
  · obtain ⟨sameSlab, sameSlot⟩ := same
    subst sameSlab sameSlot
    have equal := Option.some.inj (found.symm.trans current.found)
    exact ⟨entry', if_pos ⟨rfl, rfl⟩, turned rfl rfl equal⟩
  · exact ⟨entry, (if_neg same).trans found, .kept call⟩

theorem Turn.slot_turn (turn : Turn core call after)
    (found : slotAt core.slabs slab slot = some entry) :
    ∃ next, slotAt after.slabs slab slot = some next ∧
      SlotTurn core slab slot entry call next := by
  cases turn with
  | absent => exact ⟨entry, found, .kept _⟩
  | reserved growth current free =>
      apply slotTurn_of_put current (growth.keeps_slot found)
      rintro - - rfl
      exact .moved _ _
  | @committed ref worker payload slab' slot' owner other owned current writing fits =>
      have written : Current (core.write slab' ref.offset.toNat payload).slabs ref slab' slot'
        other := current
      apply slotTurn_of_put written found
      rintro - - rfl
      exact .moved _ _
  | published current writing =>
      apply slotTurn_of_put current found
      rintro - - rfl
      exact .moved _ _
  | cancelled current writing =>
      apply slotTurn_of_put current found
      rintro - - rfl
      exact .cancelled writing
  | @delivered ref references length slab' slot' nonzero other current ready =>
      have viewed : Current
          ({ core with views := List.replicate references ref ++ core.views } : Core).slabs ref slab'
          slot' other := current
      apply slotTurn_of_put viewed found
      rintro - - rfl
      exact .moved _ _
  | @dropped view remaining length slab' slot' other alive current held =>
      have erased : Current ({ core with views := core.views.erase view } : Core).slabs view slab'
        slot' other := current
      apply slotTurn_of_put erased found
      rintro rfl rfl rfl
      split
      · rename_i last
        exact .dropped current (last ▸ held)
      · exact .moved _ _
  | poisoned worker =>
      refine ⟨ArenaAllocator.poisonSlot worker entry, ?_, ?_⟩
      · exact (slotAt_poison worker core.slabs slab slot).trans (by rw [found]; rfl)
      · unfold ArenaAllocator.poisonSlot
        split
        · exact .moved _ _
        · exact .kept _
  | @reclaimed ref slab' slot' other current lost =>
      have counted : Current ({ core with poisoned := core.poisoned - 1 } : Core).slabs ref slab'
        slot' other := current
      apply slotTurn_of_put counted found
      rintro - - rfl
      exact .reclaimed lost

/-- A turn keeps the generation of a slot or moves it on by one. -/
theorem SlotTurn.generation {next : SlotMeta} (turn : SlotTurn core slab slot entry call next) :
    next.generation = entry.generation ∨ next = entry.recycle := by
  cases turn with
  | kept | moved => exact Or.inl rfl
  | cancelled | dropped | reclaimed => exact Or.inr rfl

/-- The names of the slots there are stay what they were. -/
theorem Turn.names (turn : Turn core call after) (found : slotAt core.slabs slab slot = some entry)
    (generation : UInt64) :
    refAt after.slabs slab slot generation = refAt core.slabs slab slot generation := by
  have put (middle : Core) (slab' slot' : Nat) (entry' : SlotMeta) :
      refAt (middle.put slab' slot' entry').slabs = refAt middle.slabs :=
    refAt_setSlot middle.slabs slab' slot' entry'
  cases turn with
  | absent => rfl
  | reserved growth current free =>
      rw [put]
      cases growth with
      | kept => rfl
      | grown growable =>
          obtain ⟨owner, isOwner, -⟩ := slotAt_eq_some.mp found
          have inside := (List.getElem?_eq_some_iff.mp isOwner).1
          unfold refAt Core.grow
          rw [List.getElem?_append_left inside]
  | committed => rw [put]; rfl
  | published | cancelled | delivered | dropped => rw [put]
  | poisoned worker => exact congrFun (congrFun (congrFun (refAt_poison worker core.slabs) _) _) _
  | reclaimed => rw [put]

end Slot

end Hyperloader.Arena
