/-
Module: Hyperloader.Arena.Custody
Purpose: Who owns the bytes of a slot, after any calls on a new allocator: the worker that writes
  it, the views that are alive, or nobody.
Trusted boundary: `Creation` answers the creation of each region.
Main exports: ArenaAllocator.new_sound, ArenaAllocator.run_sound, Custody, Refuses, recycles,
  custody
-/
import Hyperloader.Arena.Turn

namespace Hyperloader.Arena

open Foundations
open Transport (SlotRef)

/-! ### A new allocator -/

variable {specs : List SlabSpec}

theorem validateSpecs_ok_iff :
    validateSpecs specs = .ok () ↔
      specs ≠ [] ∧ (∀ spec ∈ specs, 0 < spec.slotCapacity ∧ 0 < spec.slotsPerSlab.toNat) ∧
        (∀ pair ∈ specs.zip specs.tail, ascending pair.1 pair.2) ∧
        (specs.filter fun spec => spec.overflow).length = 1 ∧
        specs.getLast?.any (fun spec => spec.overflow) = true := by
  have sized (spec : SlabSpec) : ¬(spec.slotCapacity = 0 ∨ spec.slotsPerSlab = 0) ↔
      0 < spec.slotCapacity ∧ 0 < spec.slotsPerSlab.toNat := by
    rw [not_or, Nat.pos_iff_ne_zero, Nat.pos_iff_ne_zero, ne_eq, ne_eq, ← UInt32.toNat_inj]
    rfl
  unfold validateSpecs
  rw [if_error_ok_iff]
  simp only [not_or, not_exists, not_and, not_not, Bool.not_eq_false, and_true, sized, ne_eq]

variable {bytes : Nat → Nat → UInt8} {create : Creation}

/-- The slots a plan starts with, one slab for each class. -/
theorem foldlM_addSlab_sound {first : Nat}
    (sized : ∀ spec ∈ specs, 0 < spec.slotCapacity ∧ 0 < spec.slotsPerSlab.toNat)
    {inner after : ArenaInner} (sound : Core.Sound first
      ⟨inner.nextSequence, inner.slabs, bytes, [], inner.stats.poisonedSlots⟩)
    (added : specs.foldlM (fun inner spec => inner.addSlab create spec false) inner = .ok after) :
    Core.Sound first ⟨after.nextSequence, after.slabs, bytes, [], after.stats.poisonedSlots⟩ := by
  induction specs generalizing inner with
  | nil =>
      cases Except.ok.inj added
      exact sound
  | cons spec specs ih =>
      rw [List.foldlM_cons] at added
      obtain ⟨next, one, rest⟩ := bind_ok_iff.mp added
      obtain ⟨limit, small, -, -, following, extended, poisoned⟩ := addSlab_ok one
      obtain ⟨capacity, slots⟩ := sized spec List.mem_cons_self
      have growable : Growable
          ⟨inner.nextSequence, inner.slabs, bytes, [], inner.stats.poisonedSlots⟩ spec :=
        ⟨limit, small, capacity, slots⟩
      have grown := (Grown.grown growable).sound sound
      apply ih (fun other member => sized other (List.mem_cons_of_mem _ member))
        _ rest
      rw [following, extended, poisoned]
      exact grown

variable {arena : ArenaAllocator}

theorem ArenaAllocator.new_sound {policy : GrowthPolicy} {firstSequence : UInt16}
    (opened : new create specs policy firstSequence bytes = .ok arena) :
    Core.Sound firstSequence.toNat arena.core := by
  unfold ArenaAllocator.new at opened
  obtain ⟨⟨⟩, valid, opened⟩ := bind_ok_iff.mp opened
  obtain ⟨nonempty, sized, -⟩ := validateSpecs_ok_iff.mp valid
  split at opened
  · nomatch opened
  obtain ⟨inner, added, opened⟩ := bind_ok_iff.mp opened
  cases Except.ok.inj opened
  cases specs with
  | nil => exact absurd rfl nonempty
  | cons spec specs =>
      -- The first slab fits below the limit, so the plan does while it is empty.
      have steps := added
      rw [List.foldlM_cons] at steps
      obtain ⟨next, one, -⟩ := bind_ok_iff.mp steps
      obtain ⟨limit, -⟩ := addSlab_ok one
      apply foldlM_addSlab_sound sized _ added
      exact ⟨⟨fun _ => nofun, nofun, Nat.le_succ_of_le limit⟩, rfl, fun _ => rfl, nofun, rfl⟩

/-- The slab of a class, with the sequence it gets. -/
def freshSlab (sequence : Nat) (spec : SlabSpec) : Slab :=
  ⟨spec, UInt16.ofNat sequence, spec.slotCapacity * spec.slotsPerSlab.toNat,
    newSlots spec.slotsPerSlab⟩

/-- One slab for each class, numbered from a sequence on. -/
def freshSlabs : Nat → List SlabSpec → List Slab
  | _, [] => []
  | sequence, spec :: specs => freshSlab sequence spec :: freshSlabs (sequence + 1) specs

theorem free_of_mem_freshSlabs {sequence : Nat} {slab : Slab}
    (member : slab ∈ freshSlabs sequence specs) : ∀ entry ∈ slab.slots, entry.state = .free := by
  induction specs generalizing sequence with
  | nil => nomatch member
  | cons spec specs ih =>
      rcases List.mem_cons.mp member with rfl | rest
      · exact fun entry => state_of_newSlots
      · exact ih rest

theorem foldlM_addSlab_slabs {inner after : ArenaInner}
    (added : specs.foldlM (fun inner spec => inner.addSlab create spec false) inner = .ok after) :
    after.slabs = inner.slabs ++ freshSlabs inner.nextSequence specs ∧
      after.nextSequence = inner.nextSequence + specs.length ∧ after.policy = inner.policy ∧
      after.maxStandardCapacity = inner.maxStandardCapacity := by
  induction specs generalizing inner with
  | nil =>
      cases Except.ok.inj added
      exact ⟨(List.append_nil _).symm, rfl, rfl, rfl⟩
  | cons spec specs ih =>
      rw [List.foldlM_cons] at added
      obtain ⟨next, one, rest⟩ := bind_ok_iff.mp added
      obtain ⟨-, -, policy, largest, following, extended, -⟩ := addSlab_ok one
      obtain ⟨slabs, sequence, policies, capacities⟩ := ih rest
      rw [slabs, sequence, extended, following, List.append_assoc, List.length_cons]
      exact ⟨rfl, by omega, policies.trans policy, capacities.trans largest⟩

/-- The slabs of a new allocator, one for each class. -/
theorem ArenaAllocator.new_slabs {policy : GrowthPolicy} {firstSequence : UInt16}
    (opened : new create specs policy firstSequence bytes = .ok arena) :
    arena.slabs = freshSlabs firstSequence.toNat specs ∧ arena.inner.policy = policy ∧
      ((specs.filter fun spec => !spec.overflow).map SlabSpec.slotCapacity).max? =
        some arena.inner.maxStandardCapacity := by
  unfold ArenaAllocator.new at opened
  obtain ⟨-, -, opened⟩ := bind_ok_iff.mp opened
  split at opened
  · nomatch opened
  rename_i largest isLargest
  obtain ⟨inner, added, opened⟩ := bind_ok_iff.mp opened
  cases Except.ok.inj opened
  obtain ⟨slabs, -, policies, capacities⟩ := foldlM_addSlab_slabs added
  refine ⟨slabs, policies, ?_⟩
  rw [isLargest]
  exact congrArg some capacities.symm

/-! ### Runs of calls -/

namespace ArenaAllocator

/-- The arena after some calls, however each of them ended. -/
def run (arena : ArenaAllocator) (calls : List ArenaCall) : ArenaAllocator :=
  calls.foldl (fun arena call => (arena.call call).2) arena

theorem run_sound {first : Nat} (sound : Core.Sound first arena.core) (calls : List ArenaCall) :
    Core.Sound first (arena.run calls).core := by
  induction calls generalizing arena with
  | nil => exact sound
  | cons call calls ih =>
      apply ih
      rcases call_turn sound call with ⟨-, same⟩ | ⟨-, turn⟩
      · rw [same]
        exact sound
      · exact turn.sound sound

end ArenaAllocator

/-! ### Custody of the slots -/

/-- The byte ranges of two references do not meet. -/
def Apart (one two : SlotRef) : Prop :=
  one.regionSequence = two.regionSequence →
    one.offset.toNat + one.capacity.toNat ≤ two.offset.toNat ∨
      two.offset.toNat + two.capacity.toNat ≤ one.offset.toNat

/-- Whose the bytes of the slots are. -/
structure Custody (arena : ArenaAllocator) : Prop where
  inside : ∀ ref slab slot entry, Current arena.slabs ref slab slot entry →
    ref.offset.toNat + ref.capacity.toNat ≤ ref.regionSize.toNat
  apart : ∀ one two slab slot entry slab' slot' entry',
    Current arena.slabs one slab slot entry → Current arena.slabs two slab' slot' entry' →
      ¬(slab = slab' ∧ slot = slot') → Apart one two
  viewed : ∀ ref slab slot entry remaining length, Current arena.slabs ref slab slot entry →
    entry.state = .delivered remaining length →
      0 < remaining ∧ arena.views.count ref = remaining
  delivered : ∀ view ∈ arena.views, ∃ slab slot entry remaining length,
    Current arena.slabs view slab slot entry ∧ entry.state = .delivered remaining length
  poisoned : arena.inner.stats.poisonedSlots = poisonedCount arena.slabs

section References

variable {slabs : List Slab} {first slab slot : Nat} {owner : Slab} {entry : SlotMeta}

/-- The range of a slot, as its references state it. -/
theorem slotRef_range (sound : owner.Sound) (member : owner.slots[slot]? = some entry) :
    (owner.slotRef slot entry).offset.toNat = slot * owner.spec.slotCapacity ∧
      (owner.slotRef slot entry).capacity.toNat = owner.spec.slotCapacity ∧
      (owner.slotRef slot entry).regionSize.toNat = owner.payloadSize := by
  have within := (sound.bounds (List.getElem?_eq_some_iff.mp member).1).2
  have small := sound.small
  refine ⟨UInt64.toNat_ofNat_of_lt' ?_, UInt64.toNat_ofNat_of_lt' ?_,
    UInt64.toNat_ofNat_of_lt' small⟩
  · exact Nat.lt_of_le_of_lt (Nat.le_add_right _ _) (Nat.lt_of_le_of_lt within small)
  · exact Nat.lt_of_le_of_lt (Nat.le_add_left _ _) (Nat.lt_of_le_of_lt within small)

/-- Slots of one slab are next to each other. -/
theorem slots_apart {capacity one two : Nat} (different : one ≠ two) :
    one * capacity + capacity ≤ two * capacity ∨ two * capacity + capacity ≤ one * capacity := by
  rcases Nat.lt_or_gt_of_ne different with before | after
  · exact Or.inl (Nat.succ_mul one capacity ▸ Nat.mul_le_mul_right capacity before)
  · exact Or.inr (Nat.succ_mul two capacity ▸ Nat.mul_le_mul_right capacity after)

theorem Core.Sound.exclusive (sound : Core.Sound first arena.core) : Custody arena := by
  have planned : Planned first arena.slabs := sound.planned
  constructor
  · intro ref slab slot entry current
    obtain ⟨owner, isOwner, member, rfl⟩ := current_iff.mp current
    have owned := planned.sound owner (List.mem_of_getElem? isOwner)
    obtain ⟨offset, capacity, size⟩ := slotRef_range owned member
    rw [offset, capacity, size]
    exact (owned.bounds (List.getElem?_eq_some_iff.mp member).1).2
  · intro one two slab slot entry slab' slot' entry' current current' different same
    obtain ⟨owner, isOwner, member, rfl⟩ := current_iff.mp current
    obtain ⟨owner', isOwner', member', rfl⟩ := current_iff.mp current'
    have sameSlab := planned.sequence_inj isOwner isOwner' same
    subst sameSlab
    cases Option.some.inj (isOwner.symm.trans isOwner')
    have owned := planned.sound owner (List.mem_of_getElem? isOwner)
    obtain ⟨offset, capacity, -⟩ := slotRef_range owned member
    obtain ⟨offset', capacity', -⟩ := slotRef_range owned member'
    rw [offset, capacity, offset', capacity']
    exact slots_apart fun equal => different ⟨rfl, equal⟩
  · intro ref slab slot entry remaining length current held
    have count := count_of_current sound current
    rw [held] at count
    exact ⟨sound.positive slab slot entry current.found remaining length held, count⟩
  · intro view alive
    have some : owed arena.core.slabs view ≠ 0 := by
      rw [← sound.balanced view]
      exact Nat.ne_of_gt (List.count_pos_iff.mpr alive)
    obtain ⟨slab, slot, entry, current, waits⟩ := current_of_observed planned some
    obtain ⟨remaining, length, held⟩ :=
      delivered_of_remaining fun none => some (waits.trans none)
    exact ⟨slab, slot, entry, remaining, length, current, held⟩
  · exact sound.poisoned

end References

/-! ### Calls on a slot that is not theirs -/

/-- The reference a call is given. -/
def ArenaCall.reference : ArenaCall → Option SlotRef
  | .commit slot _ _ => some slot
  | .publish slot _ _ => some slot
  | .cancel slot _ => some slot
  | .deliver slot _ _ => some slot
  | .reclaimPoisoned slot => some slot
  | _ => none

/-- The states a call may find its slot in. -/
def ArenaCall.Permits : ArenaCall → SlotState → Prop
  | .commit _ worker _, state => state = .writing worker
  | .publish _ worker _, state => state = .writing worker
  | .cancel _ worker, state => state = .writing worker
  | .deliver _ _ _, state => ∃ length, state = .ready length
  | .reclaimPoisoned _, state => state = .poisoned
  | _, _ => True

/-- A call that fails and leaves the slots, their bytes and their views. -/
def Refuses (arena : ArenaAllocator) (call : ArenaCall) : Prop :=
  (∃ error, (arena.call call).1 = .error error) ∧ (arena.call call).2.core = arena.core

section OneCall

variable {arena : ArenaAllocator} {first : Nat}

theorem Turn.permitted {core after : Core} {call : ArenaCall} (turn : Turn core call after)
    {ref : SlotRef} (given : call.reference = some ref) :
    ∃ slab slot entry, Current core.slabs ref slab slot entry ∧ call.Permits entry.state := by
  cases turn with
  | absent | reserved => nomatch given
  | committed owned current writing fits =>
      cases Option.some.inj given
      exact ⟨_, _, _, current, writing⟩
  | published current writing =>
      cases Option.some.inj given
      exact ⟨_, _, _, current, writing⟩
  | cancelled current writing =>
      cases Option.some.inj given
      exact ⟨_, _, _, current, writing⟩
  | delivered current ready =>
      cases Option.some.inj given
      exact ⟨_, _, _, current, _, ready⟩
  | dropped | poisoned => nomatch given
  | reclaimed current lost =>
      cases Option.some.inj given
      exact ⟨_, _, _, current, lost⟩

section

variable (sound : Core.Sound first arena.core)

include sound

theorem refuses_of_unpermitted {call : ArenaCall} {ref : SlotRef}
    (given : call.reference = some ref)
    (unpermitted : ∀ slab slot entry, Current arena.slabs ref slab slot entry →
      ¬call.Permits entry.state) : Refuses arena call := by
  rcases call_turn sound call with refused | ⟨-, turn⟩
  · exact refused
  · obtain ⟨slab, slot, entry, current, permitted⟩ := turn.permitted given
    exact absurd permitted (unpermitted slab slot entry current)

/-- A delivered slot is recycled by the drop of its last view, and by nothing else. -/
theorem recycled_iff (call : ArenaCall) {ref : SlotRef} {slab slot : Nat} {entry : SlotMeta}
    (current : Current arena.slabs ref slab slot entry) {remaining length : Nat}
    (held : entry.state = .delivered remaining length) :
    slotAt (arena.call call).2.slabs slab slot = some entry.recycle ↔
      call = .drop ref ∧ arena.views.count ref = 1 := by
  have count : arena.views.count ref = remaining := by
    have counted := count_of_current sound current
    rw [held] at counted
    exact counted
  have different (same : slotAt arena.core.slabs slab slot = some entry.recycle) : False := by
    have equal := Option.some.inj (same.symm.trans current.found)
    exact recycle_generation_ne entry (congrArg SlotMeta.generation equal)
  constructor
  · intro recycled
    rcases call_turn sound call with ⟨-, same⟩ | ⟨-, turn⟩
    · exact (different (congrArg (slotAt · slab slot) (congrArg Core.slabs same) ▸ recycled)).elim
    · obtain ⟨next, isNext, one⟩ := turn.slot_turn current.found
      have equal : next = entry.recycle := Option.some.inj (isNext.symm.trans recycled)
      cases one with
      | kept | moved =>
          exact (recycle_generation_ne entry (congrArg SlotMeta.generation equal).symm).elim
      | cancelled writing => nomatch held.symm.trans writing
      | dropped current' last =>
          have same := Option.some.inj (current.named.symm.trans current'.named)
          cases held.symm.trans last
          exact ⟨congrArg ArenaCall.drop same.symm, count⟩
      | reclaimed lost => nomatch held.symm.trans lost
  · rintro ⟨rfl, single⟩
    rcases call_turn sound (.drop ref) with ⟨⟨error, failed⟩, -⟩ | ⟨-, turn⟩
    · nomatch failed
    · have alive : ref ∈ arena.core.views := List.count_pos_iff.mp (single ▸ Nat.one_pos)
      show slotAt (arena.call (.drop ref)).2.core.slabs slab slot = _
      generalize (arena.call (.drop ref)).2.core = after at turn
      cases turn with
      | absent dead => exact absurd alive dead
      | dropped alive' current' held' =>
          obtain ⟨rfl, rfl, rfl⟩ := current'.unique sound.planned current
          cases held.symm.trans held'
          rw [if_pos (count.symm.trans single)]
          exact (slotAt_setSlot current.found _ _ _).trans (if_pos ⟨rfl, rfl⟩)

/-- No call changes the bytes of a slot that is ready or delivered. -/
theorem bytes_kept (call : ArenaCall) {ref : SlotRef} {slab slot : Nat} {entry : SlotMeta}
    (current : Current arena.slabs ref slab slot entry)
    (unwritten : ∀ worker, entry.state ≠ .writing worker) {offset : Nat}
    (low : ref.offset.toNat ≤ offset) (high : offset < ref.offset.toNat + ref.capacity.toNat) :
    (arena.call call).2.bytes slab offset = arena.bytes slab offset := by
  rcases call_turn sound call with ⟨-, same⟩ | ⟨-, turn⟩
  · exact congrFun (congrFun (congrArg Core.bytes same) slab) offset
  show (arena.call call).2.core.bytes slab offset = arena.core.bytes slab offset
  generalize (arena.call call).2.core = after at turn
  cases turn with
  | absent => rfl
  | reserved growth current' free => cases growth <;> rfl
  | @committed other worker payload slab' slot' owner entry' owned current' writing fits =>
      apply if_neg
      rintro ⟨rfl, start, stop⟩
      obtain ⟨owner', isOwner, member, rfl⟩ := current_iff.mp current
      obtain ⟨other', isOther, member', rfl⟩ := current_iff.mp current'
      cases Option.some.inj (isOwner.symm.trans owned)
      cases Option.some.inj (isOther.symm.trans owned)
      have sized := sound.planned.sound owner (List.mem_of_getElem? owned)
      obtain ⟨begins, holds, -⟩ := slotRef_range sized member
      obtain ⟨begins', -, -⟩ := slotRef_range sized member'
      rw [begins] at low high
      rw [holds] at high
      rw [begins'] at start stop
      by_cases same : slot = slot'
      · subst same
        cases Option.some.inj (member.symm.trans member')
        exact unwritten worker writing
      · have apart := @slots_apart owner.spec.slotCapacity _ _ same
        omega
  | published | cancelled | delivered | dropped | poisoned | reclaimed => rfl

end

end OneCall

/-! ### Recycled references -/

/-- How often a run of calls recycles a slot. -/
def recycles (slab slot : Nat) (arena : ArenaAllocator) : List ArenaCall → Nat
  | [] => 0
  | call :: calls =>
      let after := (arena.call call).2
      (if (slotAt after.slabs slab slot).map SlotMeta.generation =
          (slotAt arena.slabs slab slot).map SlotMeta.generation then 0 else 1) +
        recycles slab slot after calls

section Recycled

variable {arena : ArenaAllocator} {first slab slot : Nat} {entry : SlotMeta}

/-- The generation of a slot counts how often it was recycled, and its names stay. -/
theorem generation_run (sound : Core.Sound first arena.core) (calls : List ArenaCall)
    (found : slotAt arena.slabs slab slot = some entry) :
    ∃ after, slotAt (arena.run calls).slabs slab slot = some after ∧
      after.generation = entry.generation + UInt64.ofNat (recycles slab slot arena calls) ∧
      ∀ generation, refAt (arena.run calls).slabs slab slot generation =
        refAt arena.slabs slab slot generation := by
  induction calls generalizing arena entry with
  | nil => exact ⟨entry, found, (UInt64.add_zero _).symm, fun _ => rfl⟩
  | cons call calls ih =>
      obtain ⟨next, isNext, counted, named, kept⟩ : ∃ next,
          slotAt (arena.call call).2.slabs slab slot = some next ∧
            next.generation = entry.generation +
              UInt64.ofNat (if some next.generation = some entry.generation then 0 else 1) ∧
            (∀ generation, refAt (arena.call call).2.slabs slab slot generation =
              refAt arena.slabs slab slot generation) ∧
            Core.Sound first (arena.call call).2.core := by
        rcases call_turn sound call with ⟨-, same⟩ | ⟨-, turn⟩
        · have slabs : (arena.call call).2.slabs = arena.slabs := congrArg Core.slabs same
          rw [slabs, same]
          refine ⟨entry, found, ?_, fun _ => rfl, sound⟩
          rw [if_pos rfl]
          exact (UInt64.add_zero _).symm
        · obtain ⟨next, isNext, one⟩ := turn.slot_turn found
          refine ⟨next, isNext, ?_, turn.names found, turn.sound sound⟩
          rcases one.generation with same | rfl
          · rw [same, if_pos rfl]
            exact (UInt64.add_zero _).symm
          · rw [if_neg fun equal => recycle_generation_ne entry (Option.some.inj equal)]
            rfl
      obtain ⟨after, isAfter, total, names⟩ := ih kept isNext
      refine ⟨after, isAfter, ?_, fun generation => (names generation).trans (named generation)⟩
      unfold recycles
      dsimp only
      rw [total, isNext, found, UInt64.ofNat_add, ← UInt64.add_assoc]
      exact congrArg (· + _) counted

/-- A reference whose slot was recycled since, and fewer than `2 ^ 64` times, names nothing. -/
theorem stale_of_recycled (sound : Core.Sound first arena.core) {calls : List ArenaCall}
    {ref : SlotRef} (current : Current arena.slabs ref slab slot entry)
    (recycled : 0 < recycles slab slot arena calls)
    (bounded : recycles slab slot arena calls < 2 ^ 64) :
    ∀ slab' slot' entry', ¬Current (arena.run calls).slabs ref slab' slot' entry' := by
  obtain ⟨after, isAfter, counted, names⟩ := generation_run sound calls current.found
  have moved : entry.generation ≠ after.generation := by
    intro same
    rw [counted] at same
    have numbers := congrArg UInt64.toNat same
    rw [UInt64.toNat_add, UInt64.toNat_ofNat_of_lt' bounded] at numbers
    omega
  have planned : Planned first (arena.run calls).slabs :=
    (ArenaAllocator.run_sound sound calls).planned
  exact stale_of_generation planned isAfter ((names _).trans current.named) moved

end Recycled

/-- Any calls on a new allocator leave every slot in one custody: references apart and inside
their regions, as many views as a delivered slot waits for, the last of which recycles it, bytes
that stay while a slot is ready or delivered, and calls refused on a slot that is not theirs, as
on any reference whose slot was recycled since. -/
theorem custody {create : Creation} {specs : List SlabSpec} {policy : GrowthPolicy}
    {firstSequence : UInt16} {bytes : Nat → Nat → UInt8} {opened : ArenaAllocator}
    (isOpened : ArenaAllocator.new create specs policy firstSequence bytes = .ok opened)
    (calls : List ArenaCall) :
    let arena := opened.run calls
    Custody arena ∧
      (∀ call ref slab slot entry remaining length, Current arena.slabs ref slab slot entry →
        entry.state = .delivered remaining length →
          (slotAt (arena.call call).2.slabs slab slot = some entry.recycle ↔
            call = .drop ref ∧ arena.views.count ref = 1)) ∧
      (∀ call ref, call.reference = some ref →
        (∀ slab slot entry, Current arena.slabs ref slab slot entry →
          ¬call.Permits entry.state) → Refuses arena call) ∧
      (∀ call ref slab slot entry, Current arena.slabs ref slab slot entry →
        (∃ length, entry.state = .ready length) ∨
            (∃ remaining length, entry.state = .delivered remaining length) →
          ∀ offset, ref.offset.toNat ≤ offset → offset < ref.offset.toNat + ref.capacity.toNat →
            (arena.call call).2.bytes slab offset = arena.bytes slab offset) ∧
      ∀ later ref slab slot entry, Current arena.slabs ref slab slot entry →
        0 < recycles slab slot arena later → recycles slab slot arena later < 2 ^ 64 →
          ∀ call, call.reference = some ref → Refuses (arena.run later) call := by
  intro arena
  have sound : Core.Sound firstSequence.toNat arena.core :=
    ArenaAllocator.run_sound (ArenaAllocator.new_sound isOpened) calls
  refine ⟨sound.exclusive, ?_, ?_, ?_, ?_⟩
  · intro call ref slab slot entry remaining length current held
    exact recycled_iff sound call current held
  · intro call ref given unpermitted
    exact refuses_of_unpermitted sound given unpermitted
  · intro call ref slab slot entry current still offset low high
    apply bytes_kept sound call current _ low high
    rintro worker writing
    rcases still with ⟨length, ready⟩ | ⟨remaining, length, held⟩
    · nomatch writing.symm.trans ready
    · nomatch writing.symm.trans held
  · intro later ref slab slot entry current recycled bounded call given
    apply refuses_of_unpermitted (ArenaAllocator.run_sound sound later) given
    intro slab' slot' entry' now
    exact absurd now (stale_of_recycled sound current recycled bounded _ _ _)

theorem custody_two_classes :
    ∃ opened, ArenaAllocator.new (fun _ _ => .ok ()) [⟨64, 4, false⟩, ⟨128, 2, true⟩] .safe 2
        (fun _ _ => 0) = .ok opened ∧ ∀ calls, Custody (opened.run calls) := by
  obtain ⟨opened, isOpened⟩ : ∃ opened, ArenaAllocator.new (fun _ _ => .ok ())
      [⟨64, 4, false⟩, ⟨128, 2, true⟩] .safe 2 (fun _ _ => 0) = .ok opened := ⟨_, rfl⟩
  exact ⟨opened, isOpened, fun calls => (custody isOpened calls).1⟩

end Hyperloader.Arena
