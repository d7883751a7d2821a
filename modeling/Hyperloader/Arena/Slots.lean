/-
Module: Hyperloader.Arena.Slots
Purpose: References in their present generation, the slot each of them names, the views a slot
  waits for and the poisoned slots, behind a change to one slot.
Trusted boundary: none
Main exports: Current, Planned, locateSlot_ok_iff, Current.unique, observed, observed_setSlot,
  owed, writer, poisonedCount
-/
import Hyperloader.Arena.Allocator

namespace Hyperloader.Arena

open Foundations
open Transport (SlotRef)

/-! ### References -/

/-- The reference of a slot in a generation. -/
def refAt (slabs : List Slab) (slab slot : Nat) (generation : UInt64) : Option SlotRef :=
  slabs[slab]?.map fun owner => owner.slotRef slot ⟨generation, .free⟩

/-- The slot a reference names at present. -/
structure Current (slabs : List Slab) (ref : SlotRef) (slab slot : Nat) (entry : SlotMeta) :
    Prop where
  found : slotAt slabs slab slot = some entry
  named : refAt slabs slab slot entry.generation = some ref

structure Slab.Sound (slab : Slab) : Prop where
  sized : slab.payloadSize = slab.spec.slotCapacity * slab.spec.slotsPerSlab.toNat
  small : slab.payloadSize < 2 ^ 64
  positive : 0 < slab.spec.slotCapacity
  full : slab.slots.length = slab.spec.slotsPerSlab.toNat
  nonempty : 0 < slab.slots.length

/-- Slabs with the sequences of a plan that starts at `first`. -/
structure Planned (first : Nat) (slabs : List Slab) : Prop where
  sound : ∀ slab ∈ slabs, slab.Sound
  numbered : ∀ index slab, slabs[index]? = some slab →
    slab.sequence = UInt16.ofNat (first + index)
  limit : first + slabs.length ≤ MAX_REGION_SEQUENCE + 1

section References

variable {slabs : List Slab} {ref : SlotRef} {slab slot : Nat} {entry : SlotMeta}

theorem slotAt_eq_some :
    slotAt slabs slab slot = some entry ↔
      ∃ owner, slabs[slab]? = some owner ∧ owner.slots[slot]? = some entry := by
  unfold slotAt
  rw [Option.bind_eq_bind, Option.bind_eq_some_iff]

theorem current_iff :
    Current slabs ref slab slot entry ↔
      ∃ owner, slabs[slab]? = some owner ∧ owner.slots[slot]? = some entry ∧
        ref = owner.slotRef slot entry := by
  constructor
  · rintro ⟨found, named⟩
    obtain ⟨owner, isOwner, member⟩ := slotAt_eq_some.mp found
    unfold refAt at named
    rw [isOwner] at named
    exact ⟨owner, isOwner, member, (Option.some.inj named).symm⟩
  · rintro ⟨owner, isOwner, member, rfl⟩
    refine ⟨slotAt_eq_some.mpr ⟨owner, isOwner, member⟩, ?_⟩
    unfold refAt
    rw [isOwner, Option.map_some]
    rfl

/-- A slot of a sound slab has a small index and an offset below the size of the payload. -/
theorem Slab.Sound.bounds {owner : Slab} (sound : owner.Sound)
    (inside : slot < owner.slots.length) :
    slot < 2 ^ 32 ∧
      slot * owner.spec.slotCapacity + owner.spec.slotCapacity ≤ owner.payloadSize := by
  have few := owner.spec.slotsPerSlab.toNat_lt
  have full := sound.full
  constructor
  · omega
  · rw [sound.sized, ← Nat.succ_mul, Nat.mul_comm]
    apply Nat.mul_le_mul_left
    omega

variable {first : Nat}

section

variable (planned : Planned first slabs)

include planned

theorem Planned.sequence_inj {one two : Nat} {left right : Slab} (isLeft : slabs[one]? = some left)
    (isRight : slabs[two]? = some right) (same : left.sequence = right.sequence) : one = two := by
  have limit := planned.limit
  have low : one < slabs.length := (List.getElem?_eq_some_iff.mp isLeft).1
  have high : two < slabs.length := (List.getElem?_eq_some_iff.mp isRight).1
  have exact {number : Nat} (small : number < 1024) : (UInt16.ofNat number).toNat = number :=
    UInt16.toNat_ofNat_of_lt' (Nat.lt_trans small (by decide))
  rw [planned.numbered one left isLeft, planned.numbered two right isRight] at same
  have numbers := congrArg UInt16.toNat same
  unfold MAX_REGION_SEQUENCE at limit
  rw [exact (by omega), exact (by omega)] at numbers
  omega

/-- A lookup succeeds at the slot a reference names at present and nowhere else. -/
theorem locateSlot_ok_iff {found : Located} :
    locateSlot slabs ref = .ok found ↔
      slabs[found.slab]? = some found.owner ∧
        Current slabs ref found.slab found.slot found.entry := by
  constructor
  · intro located
    unfold locateSlot at located
    split at located
    · nomatch located
    · rename_i slab position
      split at located
      · nomatch located
      · rename_i owner isOwner
        split at located
        · nomatch located
        · rename_i entry member
          split at located
          · nomatch located
          · rename_i same
            cases Except.ok.inj located
            rw [not_or, not_or, not_or, not_not, not_not, not_not, not_not] at same
            obtain ⟨generation, size, offset, capacity⟩ := same
            refine ⟨isOwner, current_iff.mpr ⟨owner, isOwner, member, ?_⟩⟩
            obtain ⟨inside, matched, -⟩ := List.findIdx?_eq_some_iff_getElem.mp position
            have isHere : slabs[slab] = owner := by
              rw [List.getElem?_eq_getElem inside] at isOwner
              exact Option.some.inj isOwner
            rw [isHere] at matched
            have sequence := beq_iff_eq.mp matched
            cases ref
            rw [Slab.slotRef, SlotRef.mk.injEq]
            exact ⟨sequence.symm, size, UInt32.ofNat_toNat.symm, offset, capacity,
              generation.symm⟩
  · rintro ⟨isOwner, current⟩
    obtain ⟨owner, isOwner', member, rfl⟩ := current_iff.mp current
    cases Option.some.inj (isOwner'.symm.trans isOwner)
    have sound := planned.sound found.owner (List.mem_of_getElem? isOwner)
    have inside := (List.getElem?_eq_some_iff.mp member).1
    obtain ⟨few, -⟩ := sound.bounds inside
    have index : (UInt32.ofNat found.slot).toNat = found.slot :=
      UInt32.toNat_ofNat_of_lt' few
    have position : slabs.findIdx? (fun slab => slab.sequence == found.owner.sequence) =
        some found.slab := by
      obtain ⟨within, isHere⟩ := List.getElem?_eq_some_iff.mp isOwner
      apply List.findIdx?_eq_some_iff_getElem.mpr
      refine ⟨within, ?_, fun other earlier same => ?_⟩
      · rw [isHere]
        exact beq_self_eq_true _
      · have isOther := List.getElem?_eq_getElem (Nat.lt_trans earlier within)
        have equal := planned.sequence_inj isOther isOwner (beq_iff_eq.mp same)
        exact Nat.ne_of_lt earlier equal
    have agrees : ¬(found.entry.generation ≠ found.entry.generation ∨
        UInt64.ofNat found.owner.payloadSize ≠ UInt64.ofNat found.owner.payloadSize ∨
        UInt64.ofNat (found.slot * found.owner.spec.slotCapacity) ≠
          UInt64.ofNat (found.slot * found.owner.spec.slotCapacity) ∨
        UInt64.ofNat found.owner.spec.slotCapacity ≠
          UInt64.ofNat found.owner.spec.slotCapacity) := by
      simp
    unfold locateSlot
    simp only [Slab.slotRef, position, isOwner, index, member]
    exact if_neg agrees

theorem Current.located (current : Current slabs ref slab slot entry) :
    ∃ owner, slabs[slab]? = some owner ∧
      locateSlot slabs ref = .ok ⟨slab, slot, owner, entry⟩ := by
  obtain ⟨owner, isOwner, -, -⟩ := current_iff.mp current
  exact ⟨owner, isOwner, (locateSlot_ok_iff planned).mpr ⟨isOwner, current⟩⟩

/-- A reference names one slot. -/
theorem Current.unique (current : Current slabs ref slab slot entry) {slab' slot' : Nat}
    {entry' : SlotMeta} (other : Current slabs ref slab' slot' entry') :
    slab = slab' ∧ slot = slot' ∧ entry = entry' := by
  obtain ⟨owner, -, located⟩ := current.located planned
  obtain ⟨owner', -, located'⟩ := other.located planned
  have same := Except.ok.inj (located.symm.trans located')
  exact ⟨congrArg Located.slab same, congrArg Located.slot same, congrArg Located.entry same⟩

end

/-! ### One slot changes -/

theorem refAt_setSlot (slabs : List Slab) (slab slot : Nat) (entry : SlotMeta) :
    refAt (setSlot slabs slab slot entry) = refAt slabs := by
  funext slab' slot' generation
  unfold refAt setSlot
  rw [List.getElem?_modify]
  cases slabs[slab']? with
  | none => rfl
  | some owner =>
      by_cases same : slab = slab'
      · simp only [same, if_true, Option.map_eq_map, Option.map_some]
        rfl
      · simp only [same, if_false, Option.map_eq_map, Option.map_some]

theorem slotAt_setSlot (found : slotAt slabs slab slot = some entry) (entry' : SlotMeta)
    (slab' slot' : Nat) :
    slotAt (setSlot slabs slab slot entry') slab' slot' =
      if slab' = slab ∧ slot' = slot then some entry' else slotAt slabs slab' slot' := by
  obtain ⟨owner, isOwner, member⟩ := slotAt_eq_some.mp found
  unfold slotAt setSlot
  rw [List.getElem?_modify]
  by_cases sameSlab : slab' = slab
  · subst sameSlab
    rw [isOwner]
    simp only [if_true, Option.map_eq_map, Option.map_some, Option.bind_eq_bind,
      Option.bind_some, true_and]
    by_cases sameSlot : slot' = slot
    · subst sameSlot
      rw [if_pos rfl, List.getElem?_set_self (List.getElem?_eq_some_iff.mp member).1]
    · rw [if_neg sameSlot, List.getElem?_set_ne fun same => sameSlot same.symm]
  · have other : ¬slab = slab' := fun same => sameSlab same.symm
    simp only [sameSlab, other, false_and, if_false]
    cases slabs[slab']? <;> rfl

theorem planned_setSlot (planned : Planned first slabs) (entry : SlotMeta) :
    Planned first (setSlot slabs slab slot entry) := by
  have framed (index : Nat) (after : Slab)
      (isAfter : (setSlot slabs slab slot entry)[index]? = some after) :
      ∃ before, slabs[index]? = some before ∧ after.sequence = before.sequence ∧
        (before.Sound → after.Sound) := by
    unfold setSlot at isAfter
    rw [List.getElem?_modify] at isAfter
    obtain ⟨before, isBefore, rfl⟩ := Option.map_eq_some_iff.mp isAfter
    refine ⟨before, isBefore, ?_, fun sound => ?_⟩
    · split <;> rfl
    · split
      · exact ⟨sound.sized, sound.small, sound.positive,
          (List.length_set).trans sound.full, (List.length_set).symm ▸ sound.nonempty⟩
      · exact sound
  refine ⟨fun after member => ?_, fun index after isAfter => ?_, ?_⟩
  · obtain ⟨index, isAfter⟩ := List.mem_iff_getElem?.mp member
    obtain ⟨before, isBefore, -, keeps⟩ := framed index after isAfter
    exact keeps (planned.sound before (List.mem_of_getElem? isBefore))
  · obtain ⟨before, isBefore, same, -⟩ := framed index after isAfter
    rw [same, planned.numbered index before isBefore]
  · unfold setSlot
    rw [List.length_modify]
    exact planned.limit

/-- Behind a change the slot is named by the reference of its new generation, and every other
slot as before. -/
theorem current_setSlot_iff (found : slotAt slabs slab slot = some entry) {entry' : SlotMeta}
    {ref' : SlotRef} {slab' slot' : Nat} {other : SlotMeta} :
    Current (setSlot slabs slab slot entry') ref' slab' slot' other ↔
      if slab' = slab ∧ slot' = slot then
        other = entry' ∧ refAt slabs slab slot entry'.generation = some ref'
      else Current slabs ref' slab' slot' other := by
  split
  · rename_i same
    obtain ⟨rfl, rfl⟩ := same
    constructor
    · rintro ⟨at', named⟩
      rw [slotAt_setSlot found, if_pos ⟨rfl, rfl⟩] at at'
      cases Option.some.inj at'
      rw [refAt_setSlot] at named
      exact ⟨rfl, named⟩
    · rintro ⟨rfl, named⟩
      refine ⟨?_, ?_⟩
      · rw [slotAt_setSlot found, if_pos ⟨rfl, rfl⟩]
      · rw [refAt_setSlot]
        exact named
  · rename_i different
    constructor
    · rintro ⟨at', named⟩
      rw [slotAt_setSlot found, if_neg different] at at'
      rw [refAt_setSlot] at named
      exact ⟨at', named⟩
    · rintro ⟨at', named⟩
      refine ⟨?_, ?_⟩
      · rw [slotAt_setSlot found, if_neg different]
        exact at'
      · rw [refAt_setSlot]
        exact named

/-! ### What a reference observes -/

section Observed

variable {Observation : Type*} (view : SlotState → Observation) (idle : Observation)

/-- What is seen of the state of the slot a reference names, or of no slot. -/
def observed (slabs : List Slab) (ref : SlotRef) : Observation :=
  match locateSlot slabs ref with
  | .ok found => view found.entry.state
  | .error _ => idle

variable {view idle} {first : Nat}

section

variable (planned : Planned first slabs)

include planned

theorem observed_of_current (current : Current slabs ref slab slot entry) :
    observed view idle slabs ref = view entry.state := by
  obtain ⟨owner, -, located⟩ := current.located planned
  unfold observed
  rw [located]

theorem observed_of_stale (stale : ∀ slab slot entry, ¬Current slabs ref slab slot entry) :
    observed view idle slabs ref = idle := by
  unfold observed
  cases located : locateSlot slabs ref with
  | error error => rfl
  | ok found => exact absurd ((locateSlot_ok_iff planned).mp located).2 (stale _ _ _)

/-- A reference that observes something names a slot. -/
theorem current_of_observed (some : observed view idle slabs ref ≠ idle) :
    ∃ slab slot entry, Current slabs ref slab slot entry ∧
      observed view idle slabs ref = view entry.state := by
  by_contra none
  have stale : ∀ slab slot entry, ¬Current slabs ref slab slot entry := fun slab slot entry current =>
    none ⟨slab, slot, entry, current, observed_of_current planned current⟩
  exact some (observed_of_stale planned stale)

/-- Behind a change the reference of the new generation observes the new state, and the one
before it nothing. -/
theorem observed_setSlot (current : Current slabs ref slab slot entry) (entry' : SlotMeta)
    (other : SlotRef) :
    observed view idle (setSlot slabs slab slot entry') other =
      if refAt slabs slab slot entry'.generation = some other then view entry'.state
      else if other = ref then idle else observed view idle slabs other := by
  have after : Planned first (setSlot slabs slab slot entry') := planned_setSlot planned entry'
  have iff {ref' : SlotRef} {slab' slot' : Nat} {third : SlotMeta} :=
    @current_setSlot_iff _ _ _ _ current.found entry' ref' slab' slot' third
  split
  · rename_i named
    apply observed_of_current after
    exact iff.mpr (by rw [if_pos ⟨rfl, rfl⟩]; exact ⟨rfl, named⟩)
  · rename_i unnamed
    have elsewhere {slab' slot' : Nat} {third : SlotMeta}
        (now : Current (setSlot slabs slab slot entry') other slab' slot' third) :
        ¬(slab' = slab ∧ slot' = slot) ∧ Current slabs other slab' slot' third := by
      have before := iff.mp now
      split at before
      · exact absurd before.2 unnamed
      · rename_i different
        exact ⟨different, before⟩
    split
    · rename_i same
      subst same
      apply observed_of_stale after
      intro slab' slot' third now
      obtain ⟨different, before⟩ := elsewhere now
      obtain ⟨sameSlab, sameSlot, -⟩ := before.unique planned current
      exact different ⟨sameSlab, sameSlot⟩
    · rename_i different
      by_cases held : ∃ slab' slot' third, Current slabs other slab' slot' third
      · obtain ⟨slab', slot', third, before⟩ := held
        have apart : ¬(slab' = slab ∧ slot' = slot) := by
          rintro ⟨rfl, rfl⟩
          cases Option.some.inj (before.found.symm.trans current.found)
          exact different (Option.some.inj (before.named.symm.trans current.named))
        have now := iff.mpr (by rw [if_neg apart]; exact before)
        rw [observed_of_current after now, observed_of_current planned before]
      · have stale : ∀ slab' slot' third, ¬Current slabs other slab' slot' third :=
          fun slab' slot' third before => held ⟨slab', slot', third, before⟩
        rw [observed_of_stale planned stale]
        apply observed_of_stale after
        intro slab' slot' third now
        exact stale _ _ _ (elsewhere now).2

end

end Observed

/-- The views a state waits for. -/
def SlotState.remaining : SlotState → Nat
  | .delivered remaining _ => remaining
  | _ => 0

/-- The worker a state waits for. -/
def SlotState.worker : SlotState → Option UInt32
  | .writing worker => some worker
  | _ => none

theorem delivered_of_remaining {state : SlotState} (some : state.remaining ≠ 0) :
    ∃ remaining length, state = .delivered remaining length := by
  cases state with
  | delivered remaining length => exact ⟨remaining, length, rfl⟩
  | free | writing worker | ready length | poisoned => exact absurd rfl some

theorem worker_eq_some_iff {state : SlotState} {worker : UInt32} :
    state.worker = some worker ↔ state = .writing worker := by
  cases state with
  | writing other =>
      rw [SlotState.writing.injEq]
      exact Option.some_inj
  | free | ready length | delivered remaining length | poisoned => exact iff_of_false nofun nofun

/-- The views the slot a reference names waits for. -/
abbrev owed : List Slab → SlotRef → Nat := observed SlotState.remaining 0

/-- The worker that writes the slot a reference names. -/
abbrev writer : List Slab → SlotRef → Option UInt32 := observed SlotState.worker none

/-! ### Slots counted by what they look like -/

/-- How many slots of the slabs of a kind look a certain way. -/
def countSlots (kind : SlabSpec → Bool) (look : SlotMeta → Bool) (slabs : List Slab) : Nat :=
  ((slabs.filter fun slab => kind slab.spec).flatMap Slab.slots).countP look

section Counted

variable {kind : SlabSpec → Bool} {look : SlotMeta → Bool}

theorem countSlots_cons (owner : Slab) (slabs : List Slab) :
    countSlots kind look (owner :: slabs) =
      (if kind owner.spec then owner.slots.countP look else 0) + countSlots kind look slabs := by
  unfold countSlots
  rw [List.filter_cons]
  split
  · rw [List.flatMap_cons, List.countP_append]
  · rw [Nat.zero_add]

theorem countSlots_append (slabs more : List Slab) :
    countSlots kind look (slabs ++ more) =
      countSlots kind look slabs + countSlots kind look more := by
  unfold countSlots
  rw [List.filter_append, List.flatMap_append, List.countP_append]

/-- A change to one slot changes the counts by that slot. -/
theorem countSlots_setSlot {owner : Slab} (isOwner : slabs[slab]? = some owner)
    (member : owner.slots[slot]? = some entry) (entry' : SlotMeta) :
    countSlots kind look (setSlot slabs slab slot entry') +
        (if kind owner.spec ∧ look entry then 1 else 0) =
      countSlots kind look slabs + if kind owner.spec ∧ look entry' then 1 else 0 := by
  have row : (owner.slots.set slot entry').countP look + (if look entry then 1 else 0) =
      owner.slots.countP look + if look entry' then 1 else 0 := by
    obtain ⟨inside, isEntry⟩ := List.getElem?_eq_some_iff.mp member
    rw [List.countP_set inside, isEntry]
    by_cases was : look entry = true
    · have some : 0 < owner.slots.countP look :=
        List.countP_pos_iff.mpr ⟨entry, List.mem_of_getElem? member, was⟩
      rw [if_pos was]
      omega
    · rw [if_neg was]
      omega
  unfold setSlot
  induction slabs generalizing slab with
  | nil => nomatch isOwner
  | cons head slabs ih =>
      cases slab with
      | zero =>
          cases Option.some.inj isOwner
          rw [List.modify_zero_cons, countSlots_cons, countSlots_cons]
          by_cases its : kind owner.spec = true
          · simp only [its, if_true, true_and]
            omega
          · simp only [its, if_false, false_and, Bool.false_eq_true]
      | succ slab =>
          rw [List.getElem?_cons_succ] at isOwner
          have rest := ih isOwner
          rw [List.modify_succ_cons, countSlots_cons, countSlots_cons]
          omega

end Counted

def poisonedState (slot : SlotMeta) : Bool := slot.state == .poisoned

def poisonedCount (slabs : List Slab) : Nat := (slabs.flatMap Slab.slots).countP poisonedState

theorem poisonedCount_eq (slabs : List Slab) :
    poisonedCount slabs = countSlots (fun _ => true) poisonedState slabs := by
  unfold poisonedCount countSlots
  rw [List.filter_true]

theorem poisonedCount_setSlot (found : slotAt slabs slab slot = some entry) (entry' : SlotMeta) :
    poisonedCount (setSlot slabs slab slot entry') + (if poisonedState entry then 1 else 0) =
      poisonedCount slabs + if poisonedState entry' then 1 else 0 := by
  obtain ⟨owner, isOwner, member⟩ := slotAt_eq_some.mp found
  have change := @countSlots_setSlot _ _ _ _ (fun _ => true) poisonedState owner isOwner member entry'
  simp only [true_and] at change
  rw [poisonedCount_eq, poisonedCount_eq]
  exact change

theorem poisonedCount_le (planned : Planned first slabs) : poisonedCount slabs < 2 ^ 64 := by
  have rows (rest : List Slab) (sound : ∀ slab ∈ rest, slab.Sound) :
      (rest.flatMap Slab.slots).length ≤ 2 ^ 32 * rest.length := by
    induction rest with
    | nil => exact Nat.le_refl 0
    | cons slab rest ih =>
        have tail := ih fun other member =>
          sound other (List.mem_cons_of_mem _ member)
        have few := slab.spec.slotsPerSlab.toNat_lt
        have full := (sound slab List.mem_cons_self).full
        rw [List.flatMap_cons, List.length_append, List.length_cons]
        omega
  have all := rows slabs planned.sound
  have limit := planned.limit
  have some : poisonedCount slabs ≤ (slabs.flatMap Slab.slots).length := List.countP_le_length
  unfold MAX_REGION_SEQUENCE at limit
  omega

end References

end Hyperloader.Arena
